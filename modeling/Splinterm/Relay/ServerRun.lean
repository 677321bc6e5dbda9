import Splinterm.Lib.Run
import Splinterm.Relay.Server

/-!
# What holds along every run of the relay server

A client that keeps to the protocol is `conforms`; `reaches` says that a data frame or a
half-close finds the pumps of its channel still running. Under both, the only way a
channel's own traffic can end the session is a full command queue, and every connection
receives a first part of the bytes sent on its channel.
-/

namespace Splinterm.Relay.Server

open Lib List Option

/-! ## Conditions on a step -/

namespace Session

variable (s : Session)

/-- The client opened the channel, closed neither direction of it, and has not been told
that it is closed. -/
def mayUse (id : Nat) : Bool :=
  (s.channels.get? id).any fun ch =>
    !ch.halfClosed && !ch.clientClosed &&
      s.delivered.all fun frame => frame ≠ .closeChannel (.ofNat id)

/-- The frames of a client that keeps to the protocol. -/
def conforms : Step → Bool
  | .frame (.openChannel channelId) _ => s.lastChannelId < channelId.toNat
  | .frame (.data channelId _) _ => s.mayUse channelId.toNat
  | .frame (.halfClose channelId) _ => s.mayUse channelId.toNat
  | .frame (.closeChannel channelId) _ => channelId.toNat ≤ s.lastChannelId
  | .frame _ _ => false
  | _ => true

/-- The step is no end of the input and no failure of the daemon process, of a monitor or
of the writer. -/
def inside : Step → Bool
  | .inputEnds | .inputFails _ | .daemonExits | .reports _ => false
  | _ => true

def pumping (id : Nat) : Bool :=
  (s.channels.get? id).any fun ch => ch.phase = .pumping

/-- Data and half-closes find their pumps running, a half-close otherwise a retired channel;
the answer to an open finds room. -/
def reaches : Step → Bool
  | .frame (.openChannel _) _ => s.control.length < controlQueueFrames
  | .frame (.data channelId _) _ => s.pumping channelId.toNat
  | .frame (.halfClose channelId) _ => s.pumping channelId.toNat || (s.active channelId.toNat).isNone
  | _ => true

/-- The command queue of the channel a frame is for has room. -/
def room : Step → Bool
  | .frame (.data channelId _) _ | .frame (.halfClose channelId) _ =>
    (s.channels.get? channelId.toNat).all fun ch => ch.commands.length < channelQueueFrames
  | _ => true

end Session

/-! ## One channel -/

namespace Channel

/-- The commands a client can have queued: data, then at most one half-close. The first flag
is whether the pump still writes, the second whether the client has half-closed. -/
def Orderly : Bool → Bool → List ChannelCommand → Prop
  | upstreamOpen, halfClosed, [] => halfClosed = !upstreamOpen
  | true, halfClosed, .data _ :: commands => Orderly true halfClosed commands
  | true, halfClosed, .halfClose :: commands => Orderly false halfClosed commands
  | upstreamOpen, halfClosed, .close :: commands => Orderly upstreamOpen halfClosed commands
  | false, _, _ :: _ => False

variable {upstreamOpen : Bool} {commands : List ChannelCommand}

/-- A command the client may queue next. -/
theorem Orderly.snoc {command : ChannelCommand} {halfClosed halfClosed' : Bool}
    (hlast : ∀ open_, halfClosed = !open_ → Orderly open_ halfClosed' [command])
    (h : Orderly upstreamOpen halfClosed commands) : Orderly upstreamOpen halfClosed' (commands ++ [command]) := by
  induction commands generalizing upstreamOpen with
  | nil => exact hlast upstreamOpen (by cases upstreamOpen <;> exact h)
  | cons command commands ih => cases command <;> cases upstreamOpen <;> simp_all [Orderly]

theorem Orderly.no_bytes {halfClosed : Bool} (h : Orderly false halfClosed commands) :
    commands.flatMap (·.bytes) = [] ∧ halfClosed = true := by
  induction commands with
  | nil => exact ⟨rfl, h⟩
  | cons command commands ih =>
    cases command with
    | data bytes => exact h.elim
    | halfClose => exact h.elim
    | close => exact ih h

structure Ok (ch : Channel) : Prop where
  delivered : ch.received <+: ch.sent
  complete : ch.phase = .pumping → ch.received ++ ch.unwritten = ch.sent
  orderly : ch.phase = .pumping → Orderly ch.upstreamOpen ch.halfClosed ch.commands
  writes : ch.phase = .pumping → ch.upstreamOpen = false → ch.writing = []
  shuts : ch.phase = .pumping → ch.shut = !ch.upstreamOpen
  shut_last : ch.shut = true → ch.received = ch.sent ∧ ch.halfClosed = true
  cancels : ch.phase = .pumping → ch.cancelled = false → .close ∉ ch.commands
  active : ch.phase ≠ .finished → ch.active = true

variable {ch : Channel}

theorem Ok.fresh : Ok fresh where
  delivered := List.nil_prefix
  complete := fun _ => rfl
  orderly := fun _ => rfl
  writes := fun _ _ => rfl
  shuts := fun _ => rfl
  shut_last := fun h => by cases h
  cancels := fun _ _ => not_mem_nil
  active := fun _ => rfl

variable (h : Ok ch)

include h

/-- Past its pumps a task leaves what was delivered as it is. -/
theorem Ok.advance {ch' : Channel} (hphase : ch'.phase ≠ .pumping) (hactive : ch'.phase ≠ .finished → ch'.active = true)
    (hreceived : ch'.received = ch.received) (hsent : ch'.sent = ch.sent)
    (hshut : ch'.shut = ch.shut) (hhalf : ch'.halfClosed = ch.halfClosed) :
    Ok ch' where
  delivered := by rw [hreceived, hsent]; exact h.delivered
  complete := fun hp => absurd hp hphase
  orderly := fun hp => absurd hp hphase
  writes := fun hp => absurd hp hphase
  shuts := fun hp => absurd hp hphase
  shut_last := by rw [hreceived, hsent, hshut, hhalf]; exact h.shut_last
  cancels := fun hp => absurd hp hphase
  active := hactive

theorem Ok.complete_snoc (hphase : ch.phase = .pumping) (command : ChannelCommand) :
    ch.received ++ (ch.writing ++ (ch.commands ++ [command]).flatMap (·.bytes)) = ch.sent ++ command.bytes := by
  simp [← h.complete hphase, unwritten]

theorem Ok.close : Ok ch.close := by
  unfold Channel.close trySend
  by_cases hphase : ch.phase = .pumping
  · by_cases hfull : ch.commands.length ≥ channelQueueFrames
    · rw [if_neg (not_not.mpr hphase), if_pos hfull]
      exact { h with cancels := fun _ hcancel => by cases hcancel }
    · rw [if_neg (not_not.mpr hphase), if_neg hfull]
      exact
        { h with
          complete := fun _ => (h.complete_snoc hphase .close).trans (append_nil _)
          orderly := fun _ => (h.orderly hphase).snoc (by simp [Orderly])
          cancels := fun _ hcancel => by cases hcancel }
  · rw [if_pos hphase]
    exact { h with cancels := fun hp => absurd hp hphase }

variable (hphase : ch.phase = .pumping)

include hphase

theorem Ok.accept (count : Nat) :
    Ok { ch with
      writing := ch.writing.drop count
      received := ch.received ++ ch.writing.take count } := by
  have hall : (ch.received ++ ch.writing.take count) ++
      (ch.writing.drop count ++ ch.commands.flatMap (·.bytes)) = ch.sent := by
    rw [← h.complete hphase, unwritten, append_assoc, ← append_assoc (ch.writing.take _), take_append_drop]
  exact
    { h with
      delivered := ⟨_, hall⟩
      complete := fun _ => hall
      writes := fun _ hclosed => by rw [h.writes hphase hclosed, drop_nil]
      shut_last := by
        intro hshut
        have hclosed : ch.upstreamOpen = false := by
          have := h.shuts hphase
          simp_all
        rw [h.writes hphase hclosed, take_nil, append_nil]
        exact h.shut_last hshut }

theorem Ok.send (hopen : ch.halfClosed = false) (bytes : List UInt8) :
    Ok { ch with commands := ch.commands ++ [.data bytes], sent := ch.sent ++ bytes } := by
  have hshut : ch.shut ≠ true := fun hshut => by
    have := (h.shut_last hshut).2
    simp_all
  exact
    { h with
      delivered := h.delivered.trans (prefix_append _ _)
      complete := fun _ => h.complete_snoc hphase (.data bytes)
      orderly := fun _ => (h.orderly hphase).snoc (by simp [hopen, Orderly])
      shut_last := fun hshut' => absurd hshut' hshut
      cancels := fun _ hcancel => by simpa using h.cancels hphase hcancel }

theorem Ok.sendHalfClose (hopen : ch.halfClosed = false) :
    Ok { ch with commands := ch.commands ++ [.halfClose], halfClosed := true } :=
  { h with
    complete := fun _ => (h.complete_snoc hphase .halfClose).trans (append_nil _)
    orderly := fun _ => (h.orderly hphase).snoc (by simp [hopen, Orderly])
    shut_last := fun hshut => ⟨(h.shut_last hshut).1, rfl⟩
    cancels := fun _ hcancel => by simpa using h.cancels hphase hcancel }

theorem Ok.writable {command : ChannelCommand} (hcommands : ch.commands = command :: commands)
    (hclose : command ≠ .close) : ch.upstreamOpen = true := by
  have horderly := h.orderly hphase
  cases hup : ch.upstreamOpen with
  | true => rfl
  | false =>
    rw [hcommands, hup] at horderly
    cases command with
    | close => exact absurd rfl hclose
    | _ => exact horderly.elim

theorem Ok.takeData {bytes : List UInt8} (hcommands : ch.commands = .data bytes :: commands)
    (hwriting : ch.writing = []) :
    Ok { ch with commands, writing := bytes } := by
  have hopen := h.writable hphase hcommands (by simp)
  have horderly := h.orderly hphase
  rw [hcommands, hopen] at horderly
  exact
    { h with
      complete := fun _ => by
        rw [← h.complete hphase, unwritten, hwriting, hcommands]
        rfl
      orderly := fun _ => by rw [hopen]; exact horderly
      writes := fun _ hclosed => by simp [hopen] at hclosed
      cancels := fun _ hcancel hmem => h.cancels hphase hcancel (hcommands ▸ mem_cons_of_mem _ hmem) }

/-- The pump shuts the connection down once everything before the half-close is written. -/
theorem Ok.takeHalfClose (hcommands : ch.commands = .halfClose :: commands) (hwriting : ch.writing = []) :
    Ok { ch with commands, upstreamOpen := false, shut := true } := by
  have hopen := h.writable hphase hcommands (by simp)
  have horderly := h.orderly hphase
  rw [hcommands, hopen] at horderly
  have hrest : Orderly false ch.halfClosed commands := horderly
  obtain ⟨hbytes, hhalf⟩ := hrest.no_bytes
  have hsent : ch.received = ch.sent := by
    have hall := h.complete hphase
    rw [unwritten, hwriting, hcommands, flatMap_cons, hbytes] at hall
    simpa [ChannelCommand.bytes] using hall
  exact
    { h with
      complete := fun _ => by simp [unwritten, hwriting, hbytes, hsent]
      orderly := fun _ => hrest
      writes := fun _ _ => hwriting
      shuts := fun _ => rfl
      shut_last := fun _ => ⟨hsent, hhalf⟩
      cancels := fun _ hcancel hmem => h.cancels hphase hcancel (hcommands ▸ mem_cons_of_mem _ hmem) }

end Channel

/-! ## The session -/

namespace Session

open OrdMap

variable {s : Session} {id : Nat} {ch ch' : Channel}

structure Inv (s : Session) : Prop where
  running : s.ended = none
  channels : ∀ id ch, s.channels.get? id = some ch → ch.Ok
  issued : ∀ id ch, s.channels.get? id = some ch → id ≤ s.lastChannelId
  events : ∀ event ∈ s.events, ∃ id ch, event = .channelFinished id ∧
    s.channels.get? id = some ch ∧ ch.phase = .finished

theorem inv_init : Inv init where
  running := rfl
  channels := fun _ _ h => by cases h
  issued := fun _ _ h => by cases h
  events := fun _ h => (not_mem_nil h).elim

theorem active_eq_some : s.active id = some ch ↔ s.channels.get? id = some ch ∧ ch.active = true :=
  filter_eq_some_iff

theorem pumping_iff : s.pumping id = true ↔ ∃ ch, s.channels.get? id = some ch ∧ ch.phase = .pumping := by
  unfold pumping
  cases s.channels.get? id <;> simp

theorem mayUse_open (h : s.mayUse id = true) : ∃ ch, s.channels.get? id = some ch ∧ ch.halfClosed = false := by
  unfold mayUse at h
  cases hget : s.channels.get? id with
  | none => simp [hget] at h
  | some ch =>
    simp only [hget, any_some, Bool.and_eq_true, Bool.not_eq_true'] at h
    exact ⟨ch, rfl, h.1.1⟩

/-- A channel's traffic ends the session only through a full command queue. -/
def Overflows (s : Session) : Prop := s.ended = some (.failed (.inputQueue .full))

namespace Inv

variable (h : Inv s)

include h

/-- One channel is written; a finished one stays finished. -/
theorem insert {s' : Session} (hrunning : s'.ended = none)
    (hchannels : s'.channels = s.channels.insert id ch') (hevents : s'.events = s.events)
    (hlast : s.lastChannelId ≤ s'.lastChannelId) (hid : id ≤ s'.lastChannelId) (hok : ch'.Ok)
    (hphase : ∀ ch, s.channels.get? id = some ch → ch.phase = .finished → ch'.phase = .finished) :
    Inv s' where
  running := hrunning
  channels := by
    rw [hchannels]
    exact forall_get?_insert hok h.channels
  issued := by
    rw [hchannels]
    exact forall_get?_insert hid fun id' ch'' hget' => (h.issued id' ch'' hget').trans hlast
  events := by
    intro event hevent
    obtain ⟨id', ch'', rfl, hget', hfinished⟩ := h.events event (hevents ▸ hevent)
    rw [hchannels]
    by_cases heq : id' = id
    · subst heq
      exact ⟨id', ch', rfl, get?_insert_self _ _ _, hphase ch'' hget' hfinished⟩
    · exact ⟨id', ch'', rfl, by rw [get?_insert, if_neg heq]; exact hget', hfinished⟩

theorem control (control delivered : List Frame) : Inv { s with control, delivered } :=
  ⟨h.running, h.channels, h.issued, h.events⟩

theorem sendControl (hroom : s.control.length < controlQueueFrames) (frame : Frame) : Inv (s.sendControl frame) := by
  rw [Session.sendControl, if_neg (not_le.mpr hroom)]
  exact h.control _ s.delivered

theorem issue {last : Nat} (hnew : s.lastChannelId < last) : Inv { s with lastChannelId := last } :=
  { h with issued := fun id ch hget => (h.issued id ch hget).trans hnew.le }

/-- The new id is above every id in the table, so no other channel is replaced. -/
theorem register {last : Nat} (hnew : s.lastChannelId < last) :
    Inv (Session.put last .fresh { s with lastChannelId := last }) := by
  refine h.insert h.running rfl rfl hnew.le (Nat.le_refl last) .fresh fun ch hget => ?_
  exact absurd (h.issued last ch hget) (not_le.mpr hnew)

theorem openChannel {channelId : UInt32} (connection : Except String Unit)
    (hnew : s.lastChannelId < channelId.toNat) (hroom : s.control.length < controlQueueFrames) :
    Inv (s.openChannel channelId connection) := by
  rw [Session.openChannel, if_neg (not_le.mpr hnew)]
  dsimp only
  split
  · exact (h.issue hnew).sendControl hroom _
  · cases connection with
    | error error => exact (h.issue hnew).sendControl hroom _
    | ok accepted => exact (h.register hnew).sendControl hroom _

section

variable (hget : s.channels.get? id = some ch)

include hget

theorem put (hok : ch'.Ok) (hphase : ch.phase = .finished → ch'.phase = .finished) : Inv (s.put id ch') := by
  refine h.insert h.running rfl rfl (Nat.le_refl _) (h.issued id ch hget) hok fun found hfound => ?_
  obtain rfl := some.inj (hget.symm.trans hfound)
  exact hphase

theorem put_unfinished (hok : ch'.Ok) (hphase : ch.phase ≠ .finished) : Inv (s.put id ch') :=
  h.put hget hok fun hfinished => absurd hfinished hphase

theorem active_of_pumping (hphase : ch.phase = .pumping) : s.active id = some ch := by
  refine active_eq_some.mpr ⟨hget, (h.channels id ch hget).active ?_⟩
  rw [hphase]
  decide

/-- A command is queued for running pumps, or the queue is full. -/
theorem trySend (hphase : ch.phase = .pumping) {command : ChannelCommand} {f : Channel → Channel}
    (hok : (f { ch with commands := ch.commands ++ [command] }).Ok) :
    let s' := match ch.trySend command with
      | .error error => s.fail (.inputQueue error)
      | .ok ch => s.put id (f ch)
    Inv s' ∨ (¬ ch.commands.length < channelQueueFrames ∧ s'.Overflows) := by
  rw [Channel.trySend, if_neg (not_not.mpr hphase)]
  by_cases hfull : ch.commands.length ≥ channelQueueFrames
  · rw [if_pos hfull]
    exact .inr ⟨not_lt.mpr hfull, rfl⟩
  · rw [if_neg hfull]
    exact .inl (h.put_unfinished hget hok (by simp [hphase]))

theorem sendData (hopen : ch.halfClosed = false) (hphase : ch.phase = .pumping) (bytes : List UInt8) :
    Inv (s.sendData id bytes) ∨ (¬ ch.commands.length < channelQueueFrames ∧ (s.sendData id bytes).Overflows) := by
  rw [Session.sendData, h.active_of_pumping hget hphase]
  exact h.trySend hget hphase ((h.channels id ch hget).send hphase hopen bytes)

theorem sendHalfClose
    (hopen : ch.halfClosed = false) (hphase : ch.phase = .pumping) : Inv (s.sendHalfClose id) ∨
      (¬ ch.commands.length < channelQueueFrames ∧ (s.sendHalfClose id).Overflows) := by
  rw [Session.sendHalfClose, h.active_of_pumping hget hphase]
  exact h.trySend hget hphase ((h.channels id ch hget).sendHalfClose hphase hopen)

end

theorem closeChannel (hid : id ≤ s.lastChannelId) : Inv (s.closeChannel id) := by
  unfold Session.closeChannel
  cases hactive : s.active id with
  | none =>
    rw [if_neg (not_lt.mpr hid)]
    exact h
  | some ch =>
    have hget := (active_eq_some.mp hactive).1
    refine h.put hget (h.channels id ch hget).close fun hfinished => ?_
    have hclosed : ch.trySend .close = .error .closed := by simp [Channel.trySend, hfinished]
    rw [Channel.close, hclosed]
    exact hfinished

theorem takeEvent : Inv s.takeEvent := by
  unfold Session.takeEvent
  cases hevents : s.events with
  | nil => exact h
  | cons event events =>
    have hrest : Inv { s with events } :=
      { h with events := fun e he => h.events e (hevents ▸ mem_cons_of_mem event he) }
    obtain ⟨id, ch, rfl, hget, hfinished⟩ := h.events event (hevents ▸ mem_cons_self)
    dsimp only
    rw [hget]
    have hphase : ch.phase ≠ .pumping := by rw [hfinished]; decide
    exact hrest.put hget ((h.channels id ch hget).advance hphase
      (fun hunfinished => absurd hfinished hunfinished) rfl rfl rfl rfl) fun _ => hfinished

/-! ## The tasks -/

variable (hget : s.channels.get? id = some ch)

include hget

/-- A task leaves its pumps behind. -/
theorem advance (hne : ch.phase ≠ .finished) (hphase : ch'.phase ≠ .pumping) (hactive : ch'.active = ch.active)
    (hreceived : ch'.received = ch.received) (hsent : ch'.sent = ch.sent)
    (hshut : ch'.shut = ch.shut) (hhalf : ch'.halfClosed = ch.halfClosed) :
    Inv (s.put id ch') := by
  have hok := h.channels id ch hget
  exact h.put_unfinished hget (hok.advance hphase (fun _ => hactive.trans (hok.active hne))
    hreceived hsent hshut hhalf) hne

theorem stopPumps (hphase : ch.phase = .pumping) : Inv (s.put id ch.stopPumps) :=
  h.advance hget (by simp [hphase]) (by simp [Channel.stopPumps]) rfl rfl rfl rfl rfl

theorem takeCommand (hphase : ch.phase = .pumping) (shutdown : Bool) : Inv (s.takeCommand shutdown id ch) := by
  have hok := h.channels id ch hget
  have hunfinished : ch.phase ≠ .finished := by rw [hphase]; decide
  unfold Session.takeCommand
  cases hcommands : ch.commands with
  | nil => exact h
  | cons command commands =>
    dsimp only
    by_cases hwriting : ch.writing = []
    · rw [if_pos hwriting]
      cases command with
      | data bytes =>
        rw [applyChannelCommand, if_pos (by exact hok.writable hphase hcommands (by simp))]
        exact h.put_unfinished hget (hok.takeData hphase hcommands hwriting) hunfinished
      | halfClose =>
        rw [applyChannelCommand, if_pos (by exact hok.writable hphase hcommands (by simp))]
        cases shutdown with
        | true => exact h.put_unfinished hget (hok.takeHalfClose hphase hcommands hwriting) hunfinished
        | false => exact h.advance hget hunfinished (by simp [Channel.stopPumps]) rfl rfl rfl rfl rfl
      | close => exact h.advance hget hunfinished (by simp [Channel.stopPumps]) rfl rfl rfl rfl rfl
    · rw [if_neg hwriting]
      exact h

theorem act (action : Action) : Inv (s.act id action ch) := by
  have hok := h.channels id ch hget
  unfold Session.act
  split
  case h_1 shutdown hphase => exact h.takeCommand hget hphase shutdown
  case h_2 count hphase => exact h.put_unfinished hget (hok.accept hphase count) (by simp [hphase])
  case h_3 hphase =>
    split
    · exact h
    · exact h.stopPumps hget hphase
  case h_4 bytes hphase =>
    split
    · exact h.put hget { hok with } fun hfinished => hfinished
    · exact h
  case h_5 hphase => exact h.stopPumps hget hphase
  case h_6 hphase =>
    split
    · exact h.stopPumps hget hphase
    · exact h
  case h_7 hphase =>
    split
    · exact h.advance hget (by simp [hphase]) (by simp) rfl rfl rfl rfl rfl
    · exact h
  case h_8 hphase =>
    split
    · refine Inv.control (h.advance hget (by simp [hphase]) ?_ ?_ ?_ ?_ ?_ ?_) _ s.delivered
      · simp
      all_goals rfl
    · exact h
  case h_9 hphase =>
    split
    · have hput : Inv (s.put id { ch with phase := .finished, cancelled := true }) :=
        h.advance hget (by simp [hphase]) (by simp) rfl rfl rfl rfl rfl
      exact { hput with
        events := forall_mem_append.mpr
          ⟨hput.events, forall_mem_singleton.mpr ⟨id, _, rfl, get?_insert_self _ _ _, rfl⟩⟩ }
    · exact h
  case h_10 => exact h.put hget { hok with } fun hfinished => hfinished
  case h_11 => exact h

end Inv

/-! ## Runs -/

/-- What a step does under the conditions: it keeps the invariant, or a full command queue
ends the session. -/
theorem Inv.step (h : Inv s) {st : Step} (hconforms : s.conforms st = true)
    (hinside : inside st = true) (hreaches : s.reaches st = true) :
    Inv (s.step st) ∨ (s.room st = false ∧ (s.step st).Overflows) := by
  have hended : ¬ s.ended.isSome = true := by simp [h.running]
  unfold Session.step
  rw [if_neg hended]
  cases st with
  | frame frame connection =>
    cases frame with
    | openChannel channelId =>
      exact .inl (h.openChannel connection (of_decide_eq_true hconforms) (of_decide_eq_true hreaches))
    | data channelId bytes =>
      obtain ⟨ch, hget, hopen⟩ := mayUse_open hconforms
      obtain ⟨ch', hget', hphase⟩ := pumping_iff.mp hreaches
      obtain rfl := some.inj (hget.symm.trans hget')
      exact (h.sendData hget hopen hphase bytes).imp_right
        fun hfull => ⟨by simp [room, hget, hfull.1], hfull.2⟩
    | halfClose channelId =>
      obtain ⟨ch, hget, hopen⟩ := mayUse_open hconforms
      rcases Bool.or_eq_true_iff.mp hreaches with hpumping | hretired
      · obtain ⟨ch', hget', hphase⟩ := pumping_iff.mp hpumping
        obtain rfl := some.inj (hget.symm.trans hget')
        exact (h.sendHalfClose hget hopen hphase).imp_right
          fun hfull => ⟨by simp [room, hget, hfull.1], hfull.2⟩
      · refine .inl ?_
        simp only [takeFrame, Session.sendHalfClose, isNone_iff_eq_none.mp hretired]
        rw [if_neg (not_lt.mpr (h.issued _ ch hget))]
        exact h
    | closeChannel channelId => exact .inl (h.closeChannel (of_decide_eq_true hconforms))
    | _ => cases hconforms
  | event => exact .inl h.takeEvent
  | task id action =>
    dsimp only
    cases hget : s.channels.get? id with
    | none => exact .inl h
    | some ch => exact .inl (h.act hget action)
  | controlWritten => exact .inl (h.control _ _)
  | _ => cases hinside

end Session

end Splinterm.Relay.Server
