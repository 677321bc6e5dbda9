import Splinterm.Relay.ServerRun

/-!
# Isolation of the channels of the relay server

A step is for at most one channel and leaves all others as they are. Data that is still
on its way when the relay retires the channel ends the session, though, and so does the
sixth small frame for a connection that takes nothing, since the command queue counts
frames and not bytes.
-/

namespace Splinterm.Relay.Server.Session

open Lib OrdMap

variable {s : Session} {id : Nat} {ch : Channel} {st : Step}

/-! ## Other channels -/

def target (s : Session) : Step → Option Nat
  | .frame (.openChannel channelId) _ | .frame (.data channelId _) _
  | .frame (.halfClose channelId) _ | .frame (.closeChannel channelId) _ => some channelId.toNat
  | .event => s.events.head?.bind fun event =>
    match event with
    | .channelFinished id => some id
    | _ => none
  | .task id _ => some id
  | _ => none

theorem sendControl_channels (frame : Frame) (s : Session) : (s.sendControl frame).channels = s.channels := by
  unfold sendControl
  split <;> rfl

section

variable {id' : Nat} (hne : id ≠ id')

include hne

theorem put_other (ch : Channel) (s : Session) : (s.put id' ch).channels.get? id = s.channels.get? id := by
  rw [put, get?_insert, if_neg hne]

theorem sendData_other (bytes : List UInt8) (s : Session) :
    (s.sendData id' bytes).channels.get? id = s.channels.get? id := by
  unfold sendData
  repeat' split
  · rfl
  · rfl
  · exact put_other hne _ s

theorem sendHalfClose_other (s : Session) : (s.sendHalfClose id').channels.get? id = s.channels.get? id := by
  unfold sendHalfClose
  repeat' split
  iterate 3 rfl
  exact put_other hne _ s

theorem closeChannel_other (s : Session) : (s.closeChannel id').channels.get? id = s.channels.get? id := by
  unfold closeChannel
  split
  · split <;> rfl
  · exact put_other hne _ s

theorem takeCommand_other (shutdown : Bool) (ch : Channel) (s : Session) :
    (s.takeCommand shutdown id' ch).channels.get? id = s.channels.get? id := by
  unfold takeCommand applyChannelCommand
  repeat' split
  all_goals first | rfl | exact put_other hne _ s

theorem act_other (action : Action) (ch : Channel) (s : Session) :
    (s.act id' action ch).channels.get? id = s.channels.get? id := by
  unfold act
  split
  case h_1 shutdown _ => exact takeCommand_other hne shutdown ch s
  all_goals first
    | rfl
    | exact put_other hne _ s
    | (split <;> first | rfl | exact put_other hne _ s)

end

theorem openChannel_other {channelId : UInt32} (hne : id ≠ channelId.toNat)
    (connection : Except String Unit) (s : Session) :
    (s.openChannel channelId connection).channels.get? id = s.channels.get? id := by
  unfold openChannel
  split
  · rfl
  · dsimp only
    split
    · rw [sendControl_channels]
    · cases connection with
      | error error => dsimp only; rw [sendControl_channels]
      | ok accepted => dsimp only; rw [sendControl_channels, put_other hne]

theorem takeEvent_other (hne : s.target .event ≠ some id) : s.takeEvent.channels.get? id = s.channels.get? id := by
  unfold takeEvent
  cases hevents : s.events with
  | nil => rfl
  | cons event events =>
    cases event with
    | channelFinished id' =>
      have hother : id ≠ id' := fun heq => hne (by simp [target, hevents, heq])
      dsimp only
      cases hget : s.channels.get? id' with
      | none => rfl
      | some ch => exact put_other hother _ _
    | daemonExited => rfl
    | sessionFailure reason => rfl

/-- A step changes no channel but the one it is for. -/
theorem step_other (hne : s.target st ≠ some id) : (s.step st).channels.get? id = s.channels.get? id := by
  unfold step
  split
  · rfl
  · cases st with
    | frame frame connection =>
      cases frame with
      | openChannel channelId => exact openChannel_other (fun h => hne (congrArg some h.symm)) connection s
      | data channelId bytes => exact sendData_other (fun h => hne (congrArg some h.symm)) bytes s
      | halfClose channelId => exact sendHalfClose_other (fun h => hne (congrArg some h.symm)) s
      | closeChannel channelId => exact closeChannel_other (fun h => hne (congrArg some h.symm)) s
      | _ => rfl
    | event => exact takeEvent_other hne
    | task id' action =>
      dsimp only
      cases hget : s.channels.get? id' with
      | none => rfl
      | some ch => exact act_other (fun h => hne (congrArg some h.symm)) action ch s
    | controlWritten => rfl
    | inputEnds => rfl
    | inputFails reason => rfl
    | daemonExits | reports => dsimp only; split <;> rfl

/-! ## The ends of channels -/

/-- The client keeps to the protocol, nothing outside the channels fails, and every frame
for a channel finds its pumps running. -/
def Meets (s : Session) (st : Step) : Prop :=
  s.conforms st = true ∧ inside st = true ∧ s.reaches st = true

theorem step_of_ended (h : s.ended.isSome = true) : s.step st = s := by
  unfold step
  rw [if_pos h]

theorem inv_or_overflows {steps : List Step} (h : Along step Meets steps init) :
    Inv (init.run steps) ∨ (init.run steps).Overflows := by
  refine Along.foldl (fun s => Inv s ∨ s.Overflows) ?_ (.inl inv_init) h
  rintro s st (hinv | hover) hmeets
  · exact (hinv.step hmeets.1 hmeets.2.1 hmeets.2.2).imp_right And.right
  · refine .inr ?_
    rw [step_of_ended (by rw [hover]; rfl)]
    exact hover

/-- As long as frames find the pumps of their channels running, the session goes on through
every end of a channel, up to a full command queue, and no step touches a channel that it
is not for. -/
theorem channel_ends_stay_local (steps : List Step) (h : Along step Meets steps init) :
    ((init.run steps).ended = none ∨ (init.run steps).ended = some (.failed (.inputQueue .full))) ∧
    ∀ st id, (init.run steps).target st ≠ some id →
      ((init.run steps).step st).channels.get? id = (init.run steps).channels.get? id := by
  refine ⟨?_, fun st id hne => step_other hne⟩
  exact (inv_or_overflows h).imp Inv.running id

/-- Channels 1 and 2 are opened and the client is told so. -/
def openTwo : List Step :=
  [.frame (.openChannel 1) (.ok ()), .frame (.openChannel 2) (.ok ()), .controlWritten, .controlWritten]

/-- The daemon ends channel 1 and the relay retires it; the client has not been told. -/
def retireFirst : List Step :=
  [.task 1 .daemonEnds, .task 1 .drained, .task 1 .finish, .event]

theorem second_channel_outlives_first : Along step Meets (openTwo ++ retireFirst) init ∧
    ((init.run (openTwo ++ retireFirst)).ended = none ∨
      (init.run (openTwo ++ retireFirst)).ended = some (.failed (.inputQueue .full))) ∧
    ((init.run (openTwo ++ retireFirst)).step (.frame (.closeChannel 1) (.ok ()))).channels.get? 2 =
      (init.run (openTwo ++ retireFirst)).channels.get? 2 := by
  have h : Along step Meets (openTwo ++ retireFirst) init := by
    unfold Meets
    decide +kernel
  obtain ⟨hruns, hother⟩ := channel_ends_stay_local _ h
  exact ⟨h, hruns, hother _ 2 (by decide)⟩

/-- Data for channel 1 that crosses its end, before and after the relay retires it, ends the
session and channel 2 with it, although the client was never told of the end. -/
theorem late_data_ends_the_session : Along step (fun s st => s.conforms st = true ∧ inside st = true)
      (openTwo ++ retireFirst ++ [.frame (.data 1 [0x61]) (.ok ())]) init ∧
    (init.run (openTwo ++ retireFirst ++ [.frame (.data 1 [0x61]) (.ok ())])).ended = some (.failed .unknownData) ∧
    Along step (fun s st => s.conforms st = true ∧ inside st = true)
      (openTwo ++ [.task 1 .daemonEnds, .frame (.data 1 [0x61]) (.ok ())]) init ∧
    (init.run (openTwo ++ [.task 1 .daemonEnds, .frame (.data 1 [0x61]) (.ok ())])).ended =
      some (.failed (.inputQueue .closed)) := by
  decide +kernel

/-! ## Slow connections -/

/-- The bytes received for a channel and not yet written stay within the promised bound. -/
def bounded (s : Session) : Step → Bool
  | .frame (.data channelId bytes) _ =>
    (s.channels.get? channelId.toNat).all fun ch => ch.unwritten.length + bytes.length ≤ maxChannelQueuedBytes
  | _ => true

theorem Inv.run_room {steps : List Step}
    (h : Along Session.step (fun s st => s.Meets st ∧ s.room st = true) steps init) : Inv (init.run steps) := by
  refine Along.foldl Inv ?_ inv_init h
  rintro s st hinv ⟨hmeets, hroom⟩
  rcases hinv.step hmeets.1 hmeets.2.1 hmeets.2.2 with hnext | ⟨hfull, -⟩
  · exact hnext
  · simp [hroom] at hfull

theorem step_task (hrunning : s.ended = none) (hget : s.channels.get? id = some ch)
    (action : Action) : s.step (.task id action) = s.act id action ch := by
  unfold step
  rw [if_neg (by simp [hrunning])]
  dsimp only
  rw [hget]

theorem act_take (hphase : ch.phase = .pumping) (shutdown : Bool) :
    s.act id (.take shutdown) ch = s.takeCommand shutdown id ch := by
  simp only [act, hphase]

theorem act_accept (hphase : ch.phase = .pumping) (count : Nat) : s.act id (.accept count) ch = s.put id { ch with
        writing := ch.writing.drop count
        received := ch.received ++ ch.writing.take count } := by
  simp only [act, hphase]

theorem Inv.step_task (h : Inv s) (id : Nat) (action : Action) : Inv (s.step (.task id action)) := by
  rcases h.step (show s.conforms (.task id action) = true from rfl) rfl rfl with hnext | ⟨hfull, -⟩
  · exact hnext
  · cases hfull

/-- The upstream pump of a channel at work: it takes commands, shuts the connection down
when asked to, and the connection takes bytes. -/
def Pumps (id : Nat) (st : Step) : Prop :=
  st = .task id (.take true) ∨ ∃ count, st = .task id (.accept count)

/-- A channel has been served: all bytes sent on it are written, then the half-close. -/
def Served (s : Session) (id : Nat) (sent : List UInt8) (halfClosed : Bool) : Prop :=
  Inv s ∧ ∃ ch, s.channels.get? id = some ch ∧ ch.received = sent ∧ ch.shut = halfClosed

theorem Inv.accept_all (h : Inv s) (hget : s.channels.get? id = some ch) (hphase : ch.phase = .pumping) :
    (s.step (.task id (.accept ch.writing.length))).channels.get? id =
      some { ch with writing := [], received := ch.received ++ ch.writing } := by
  rw [Session.step_task h.running hget, act_accept hphase, Session.put, get?_insert_self,
    List.drop_length, List.take_length]

/-- Command after command, the pump gets through its queue. -/
theorem Inv.pump_queue {commands : List ChannelCommand} (h : Inv s)
    (hget : s.channels.get? id = some ch) (hcommands : ch.commands = commands)
    (hphase : ch.phase = .pumping) (hwriting : ch.writing = []) (hcancel : ch.cancelled = false) :
    ∃ more, (∀ st ∈ more, Pumps id st) ∧ Served (s.run more) id ch.sent ch.halfClosed := by
  induction commands generalizing s ch with
  | nil =>
    have hok := h.channels id ch hget
    have hall := hok.complete hphase
    have horderly := hok.orderly hphase
    rw [Channel.unwritten, hwriting, hcommands, List.flatMap_nil, List.append_nil, List.append_nil] at hall
    rw [hcommands] at horderly
    refine ⟨[], fun st hst => (List.not_mem_nil hst).elim, h, ch, hget, hall, ?_⟩
    rw [hok.shuts hphase]
    exact horderly.symm
  | cons command commands ih =>
    have hok := h.channels id ch hget
    have htake := Session.step_task h.running hget (.take true)
    rw [act_take hphase, Session.takeCommand, hcommands] at htake
    dsimp only at htake
    rw [if_pos hwriting] at htake
    have hinv := h.step_task id (.take true)
    cases command with
    | data bytes =>
      have hopen := hok.writable hphase hcommands (by simp)
      rw [applyChannelCommand, if_pos hopen] at htake
      have htaken : (s.step (.task id (.take true))).channels.get? id =
          some { ch with commands, writing := bytes } := by rw [htake, Session.put, get?_insert_self]
      obtain ⟨more, hmore, hserved⟩ := ih (hinv.step_task id (.accept bytes.length))
        (hinv.accept_all htaken hphase) rfl hphase rfl hcancel
      refine ⟨.task id (.take true) :: .task id (.accept bytes.length) :: more, ?_, hserved⟩
      rintro st (_ | ⟨_, _ | ⟨_, hst⟩⟩)
      · exact .inl rfl
      · exact .inr ⟨bytes.length, rfl⟩
      · exact hmore st hst
    | halfClose =>
      have hopen := hok.writable hphase hcommands (by simp)
      rw [applyChannelCommand, if_pos hopen, if_pos rfl] at htake
      have htaken : (s.step (.task id (.take true))).channels.get? id =
          some { ch with commands, upstreamOpen := false, shut := true } := by
        rw [htake, Session.put, get?_insert_self]
      obtain ⟨more, hmore, hserved⟩ := ih hinv htaken rfl hphase hwriting hcancel
      refine ⟨.task id (.take true) :: more, ?_, hserved⟩
      rintro st (_ | ⟨_, hst⟩)
      · exact .inl rfl
      · exact hmore st hst
    | close => exact absurd (hcommands ▸ List.mem_cons_self) (hok.cancels hphase hcancel)

/-- The write under way first, then the queue. -/
theorem Inv.pump_all (h : Inv s) (hget : s.channels.get? id = some ch)
    (hphase : ch.phase = .pumping) (hcancel : ch.cancelled = false) :
    ∃ more, (∀ st ∈ more, Pumps id st) ∧ Served (s.run more) id ch.sent ch.halfClosed := by
  obtain ⟨more, hmore, hserved⟩ := (h.step_task id (.accept ch.writing.length)).pump_queue
    (h.accept_all hget hphase) rfl hphase rfl hcancel
  refine ⟨.task id (.accept ch.writing.length) :: more, ?_, hserved⟩
  rintro st (_ | ⟨_, hst⟩)
  · exact .inr ⟨_, rfl⟩
  · exact hmore st hst

/-- With room in the command queues the session does not fail, whatever the connections
accept and when: each has received a first part of the bytes sent on its channel and was
shut down behind the last of them only; and while a channel's pumps run, they bring its
connection all bytes that were sent, then the half-close. -/
theorem slow_daemons_are_isolated (steps : List Step)
    (h : Along step (fun s st => s.Meets st ∧ s.room st = true) steps init) : (init.run steps).ended = none ∧
    ∀ id ch, (init.run steps).channels.get? id = some ch → ch.received <+: ch.sent ∧
      (ch.shut = true → ch.received = ch.sent ∧ ch.halfClosed = true) ∧
      (ch.phase = .pumping → ch.received ++ ch.unwritten = ch.sent ∧
        (ch.cancelled = false → ∃ more, (∀ st ∈ more, Pumps id st) ∧ ((init.run steps).run more).ended = none ∧
          ∃ ch', ((init.run steps).run more).channels.get? id = some ch' ∧
            ch'.received = ch.sent ∧ ch'.shut = ch.halfClosed)) := by
  have hinv := Inv.run_room h
  refine ⟨hinv.running, fun id ch hget => ?_⟩
  have hok := hinv.channels id ch hget
  refine ⟨hok.delivered, hok.shut_last, fun hphase => ⟨hok.complete hphase, fun hcancel => ?_⟩⟩
  obtain ⟨more, hmore, hserved, ch', hget', hreceived, hshut⟩ := hinv.pump_all hget hphase hcancel
  exact ⟨more, hmore, hserved.running, ch', hget', hreceived, hshut⟩

/-- Two frames and a half-close, the connection taking a single byte so far. -/
def halfWritten : List Step :=
  openTwo ++ [.frame (.data 1 [0x61, 0x62]) (.ok ()), .task 1 (.take true), .task 1 (.accept 1),
    .frame (.data 1 [0x63]) (.ok ()), .frame (.halfClose 1) (.ok ())]

def halfWrittenChannel : Channel :=
  { Channel.fresh with
    commands := [.data [0x63], .halfClose]
    writing := [0x62]
    received := [0x61]
    sent := [0x61, 0x62, 0x63]
    halfClosed := true }

theorem half_written_is_completed : Along step (fun s st => s.Meets st ∧ s.room st = true) halfWritten init ∧
    ∃ more, (∀ st ∈ more, Pumps 1 st) ∧ ((init.run halfWritten).run more).ended = none ∧
      ∃ ch, ((init.run halfWritten).run more).channels.get? 1 = some ch ∧
        ch.received = [0x61, 0x62, 0x63] ∧ ch.shut = true := by
  have h : Along step (fun s st => s.Meets st ∧ s.room st = true) halfWritten init := by
    unfold Meets
    decide +kernel
  have hget : (init.run halfWritten).channels.get? 1 = some halfWrittenChannel := by decide +kernel
  obtain ⟨-, -, hpumping⟩ := (slow_daemons_are_isolated _ h).2 1 halfWrittenChannel hget
  exact ⟨h, (hpumping rfl).2 rfl⟩

/-- The pump waits with the first byte, four more wait in the queue. -/
def sixBytes : List Step :=
  openTwo ++ [.frame (.data 1 [0x61]) (.ok ()), .task 1 (.take true)] ++
    List.replicate 5 (.frame (.data 1 [0x61]) (.ok ()))

/-- Six frames of one byte for a connection that takes nothing end the session. -/
theorem six_bytes_end_the_session : Along step (fun s st => s.Meets st ∧ s.bounded st = true) sixBytes init ∧
    (init.run sixBytes).ended = some (.failed (.inputQueue .full)) := by
  unfold Meets
  decide +kernel

end Splinterm.Relay.Server.Session
