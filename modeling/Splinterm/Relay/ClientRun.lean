import Splinterm.Relay.Client

/-!
# Slow consumers of the relay client

`Channel.Ok` is what holds of every channel while the remote side keeps to the protocol
and every frame finds room. The bytes of a channel are never lost between the queue, the
pump and the pipe, and each check that could fail the session is answered by a field.
-/

namespace Splinterm.Relay

open Lib OrdMap List Option Nat Channel

/-- What holds of channel `id`, where `through` is the watermark of local closes and `last` the
last id issued. -/
structure Channel.Ok (id through last : Nat) (ch : Channel) : Prop where
  issued : 0 < id ∧ id ≤ last
  /-- Before its acknowledgement a channel is as it was set up. -/
  pending : ch.remote = .pending → ch.routed = true ∧ ch.acknowledged = false ∧
    ch.queue = [] ∧ ch.writing = none ∧ ch.halfClosed = false ∧ ch.shutdown = false
  acknowledged : ch.routed = true → ch.remote ≠ .pending → ch.acknowledged = true
  /-- A route that is gone though the remote side did not close it was closed here. -/
  closedHere : ch.routed = false → ch.remote = .opened ∨ ch.remote = .halfClosed → id ≤ through ∧ ch.application = false
  /-- While there is a route, the pump takes what is queued. -/
  pumping : ch.routed = true → ch.pumping = true
  ended : ch.pumping = false → ch.queue = [] ∧ ch.writing = none
  /-- Nothing is queued behind a half-close. -/
  halfCloseLast : .halfClose ∉ ch.queue.dropLast
  halfClosed : ch.halfClosed = true → ch.queue = [] ∧ ch.writing = none
  opened : ch.remote = .opened → ch.routed = true → .halfClose ∉ ch.queue ∧ ch.halfClosed = false ∧ ch.shutdown = false
  cancelled : ch.incomingCancelled = true → ch.routed = false ∧ ch.application = false
  delivered : ch.application = true → ch.sent = ch.received ++ ch.unread
  received : ch.received <+: ch.sent
  shutdown : ch.application = true → ch.shutdown = true → ch.unwritten = []
  room : ch.pipe.length ≤ pipeBytes
  sizes : (∀ command ∈ ch.queue, command.bytes.length ≤ maxDataBytes) ∧
    ∀ w, ch.writing = some w → w.rest.length ≤ w.amount ∧ w.amount ≤ maxDataBytes

namespace Channel.Ok

variable {id through last : Nat} {ch : Channel}

theorem fresh (through last : Nat) : Ok (last + 1) through (last + 1) .fresh where
  issued := ⟨succ_pos _, le_refl _⟩
  pending := fun _ => ⟨rfl, rfl, rfl, rfl, rfl, rfl⟩
  acknowledged := fun _ h => absurd rfl h
  closedHere := by simp [Channel.fresh]
  pumping := fun _ => rfl
  ended := by simp [Channel.fresh]
  halfCloseLast := not_mem_nil
  halfClosed := by simp [Channel.fresh]
  opened := by simp [Channel.fresh]
  cancelled := by simp [Channel.fresh]
  delivered := fun _ => rfl
  received := prefix_rfl
  shutdown := by simp [Channel.fresh]
  room := zero_le _
  sizes := ⟨fun _ h => absurd h not_mem_nil, fun _ h => absurd h.symm (some_ne_none _)⟩

variable (h : Ok id through last ch) {queue : List IncomingCommand}

include h

theorem mono {through' last' : Nat} (hthrough : through ≤ through') (hlast : last ≤ last') : Ok id through' last' ch :=
  { h with
    issued := ⟨h.issued.1, le_trans h.issued.2 hlast⟩
    closedHere := fun hrouted hremote =>
      ⟨le_trans (h.closedHere hrouted hremote).1 hthrough, (h.closedHere hrouted hremote).2⟩ }

/-! ## Frames -/

theorem acknowledge (hremote : ch.remote = .pending) :
    Ok id through last { ch with remote := .opened, acknowledged := true } := by
  obtain ⟨hrouted, -, hqueue, -, hhalf, hshutdown⟩ := h.pending hremote
  exact { h with
    pending := by simp
    acknowledged := fun _ _ => rfl
    closedHere := by simp [hrouted]
    opened := fun _ _ => ⟨by rw [hqueue]; exact not_mem_nil, hhalf, hshutdown⟩ }

/-- The route goes: the remote side closed the channel, or nobody reads it. -/
theorem unroute (remote : Remote) {incomingCancelled : Bool} (hremote : remote ≠ .pending)
    (hhere : remote = .opened ∨ remote = .halfClosed → id ≤ through ∧ ch.application = false)
    (hcancelled : incomingCancelled = true → ch.application = false) :
    Ok id through last { ({ ch with remote } : Channel).dropRoute with incomingCancelled } :=
  { h with
    pending := fun hp => absurd hp hremote
    acknowledged := by simp [dropRoute]
    closedHere := fun _ ho => ⟨(hhere ho).1, by simp [dropRoute, (hhere ho).2]⟩
    pumping := by simp [dropRoute]
    opened := by simp [dropRoute]
    cancelled := fun hc => ⟨rfl, by simp [dropRoute, hcancelled hc]⟩
    delivered := fun ha => h.delivered (Bool.and_eq_true_iff.mp ha).1
    shutdown := fun ha => h.shutdown (Bool.and_eq_true_iff.mp ha).1 }

theorem closeRemote : Ok id through last ({ ch with remote := .closed } : Channel).dropRoute :=
  h.unroute .closed (by decide) (by simp) fun hc => (h.cancelled hc).2

theorem remote_unrouted (hrouted : ch.routed = false) {remote : Remote}
    (hremote : remote = .closed ∨ remote = .halfClosed ∧ ch.remote = .opened) :
    Ok id through last { ch with remote } :=
  { h with
    pending := by rintro rfl; simp at hremote
    acknowledged := by simp [hrouted]
    closedHere := by
      rintro hr (rfl | rfl) <;> simp at hremote
      exact h.closedHere hr (.inl hremote)
    opened := by simp [hrouted] }

theorem data (hremote : ch.remote = .opened)
    (hrouted : ch.routed = true) {bytes : List UInt8} (hsize : bytes.length ≤ maxDataBytes) : Ok id through last
      { ch with sent := ch.sent ++ bytes, queue := ch.queue ++ [.data bytes] } := by
  obtain ⟨hqueue, hhalf, hshutdown⟩ := h.opened hremote hrouted
  have hunread : ({ ch with sent := ch.sent ++ bytes, queue := ch.queue ++ [.data bytes] } :
      Channel).unread = ch.unread ++ bytes := by
    simp [unread, unwritten, IncomingCommand.bytes]
  exact { h with
    pending := by simp [hremote]
    ended := fun hp => absurd ((h.pumping hrouted).symm.trans hp) (by decide)
    halfCloseLast := by rwa [dropLast_concat]
    halfClosed := by simp [hhalf]
    opened := fun _ _ => ⟨by simp [hqueue], hhalf, hshutdown⟩
    delivered := fun ha => by
      rw [hunread, ← append_assoc, ← h.delivered ha]
    received := h.received.trans (prefix_append _ _)
    shutdown := by simp [hshutdown]
    sizes := ⟨forall_mem_append.mpr ⟨h.sizes.1, forall_mem_singleton.mpr hsize⟩, h.sizes.2⟩ }

theorem data_unrouted (hremote : ch.remote = .opened) (hrouted : ch.routed = false) (bytes : List UInt8) :
    Ok id through last { ch with sent := ch.sent ++ bytes } :=
  { h with
    delivered := fun ha => absurd (ha.symm.trans (h.closedHere hrouted (.inl hremote)).2) (by decide)
    received := h.received.trans (prefix_append _ _) }

theorem halfClose (hremote : ch.remote = .opened) (hrouted : ch.routed = true) :
    Ok id through last { ch with remote := .halfClosed, queue := ch.queue ++ [.halfClose] } := by
  obtain ⟨hqueue, hhalf, hshutdown⟩ := h.opened hremote hrouted
  have hunread : ({ ch with remote := .halfClosed, queue := ch.queue ++ [.halfClose] } :
      Channel).unread = ch.unread := by
    simp [unread, unwritten, IncomingCommand.bytes]
  exact { h with
    pending := by simp
    acknowledged := fun _ _ => h.acknowledged hrouted (by rw [hremote]; decide)
    closedHere := by simp [hrouted]
    ended := fun hp => absurd ((h.pumping hrouted).symm.trans hp) (by decide)
    halfCloseLast := by rwa [dropLast_concat]
    halfClosed := by simp [hhalf]
    opened := by simp
    delivered := fun ha => by rw [hunread]; exact h.delivered ha
    shutdown := by simp [hshutdown]
    sizes := ⟨forall_mem_append.mpr ⟨h.sizes.1, forall_mem_singleton.mpr (zero_le _)⟩, h.sizes.2⟩ }

theorem not_halfClosed {command : IncomingCommand}
    (hqueue : ch.queue = command :: queue) : ¬ ch.halfClosed = true := fun hh => by
  simp [(h.halfClosed hh).1] at hqueue

/-! ## The pump -/

theorem receive_data {bytes : List UInt8} (hqueue : ch.queue = .data bytes :: queue) (hwriting : ch.writing = none) :
    Ok id through last { ch with queue, writing := some ⟨bytes, bytes.length⟩ } := by
  have hunwritten : ({ ch with queue, writing := some ⟨bytes, bytes.length⟩ } : Channel).unwritten = ch.unwritten := by
    simp [unwritten, hqueue, hwriting, IncomingCommand.bytes]
  have hne : ch.queue ≠ [] := by simp [hqueue]
  have hmem {command : IncomingCommand} (hin : command ∈ queue) : command ∈ ch.queue := by
    rw [hqueue]
    exact mem_cons_of_mem _ hin
  exact { h with
    pending := fun hp => absurd (h.pending hp).2.2.1 hne
    ended := fun hp => absurd (h.ended hp).1 hne
    halfCloseLast := fun hin => h.halfCloseLast (by
      rw [hqueue, dropLast_cons_of_ne_nil (by rintro rfl; cases hin)]
      exact mem_cons_of_mem _ hin)
    halfClosed := fun hh => absurd hh (h.not_halfClosed hqueue)
    opened := fun ho hr => ⟨fun hin => (h.opened ho hr).1 (hmem hin), (h.opened ho hr).2⟩
    delivered := fun ha => by rw [unread, hunwritten]; exact h.delivered ha
    shutdown := fun ha hs => by rw [hunwritten]; exact h.shutdown ha hs
    sizes := by
      refine ⟨fun command hin => h.sizes.1 command (hmem hin), fun w hw => ?_⟩
      cases hw
      exact ⟨le_refl _, h.sizes.1 (.data bytes) (by rw [hqueue]; exact mem_cons_self)⟩ }

theorem receive_halfClose (hqueue : ch.queue = .halfClose :: queue) (hwriting : ch.writing = none) :
    Ok id through last { ch with queue, halfClosed := true, shutdown := true } := by
  have hlast := h.halfCloseLast
  obtain rfl : queue = [] := by cases queue <;> simp_all
  have hne : ch.queue ≠ [] := by simp [hqueue]
  have hunwritten : ({ ch with queue := [], halfClosed := true, shutdown := true } : Channel).unwritten = [] := by
    simp [unwritten, hwriting]
  have hbefore : ch.unwritten = [] := by simp [unwritten, hqueue, hwriting, IncomingCommand.bytes]
  exact { h with
    pending := fun hp => absurd (h.pending hp).2.2.1 hne
    ended := fun hp => absurd (h.ended hp).1 hne
    halfCloseLast := not_mem_nil
    halfClosed := fun _ => ⟨rfl, hwriting⟩
    opened := fun ho hr => absurd (by simp [hqueue]) (h.opened ho hr).1
    delivered := fun ha => by
      have hdelivered := h.delivered ha
      rw [unread, hbefore] at hdelivered
      rw [unread, hunwritten]
      exact hdelivered
    shutdown := fun _ _ => hunwritten
    sizes := ⟨fun _ hin => absurd hin not_mem_nil, h.sizes.2⟩ }

theorem endPump (hrouted : ch.routed = false)
    (hdone : ch.application = true → ch.unwritten = []) : Ok id through last ch.endPump := by
  have hunwritten : ch.endPump.unwritten = [] := rfl
  exact { h with
    pending := fun hp => absurd (hrouted.symm.trans (h.pending hp).1) (by decide)
    pumping := by simp [Channel.endPump, hrouted]
    ended := fun _ => ⟨rfl, rfl⟩
    halfCloseLast := not_mem_nil
    halfClosed := fun _ => ⟨rfl, rfl⟩
    opened := by simp [Channel.endPump, hrouted]
    delivered := fun ha => by
      have hdelivered := h.delivered ha
      rw [unread, hdone ha] at hdelivered
      exact hdelivered
    shutdown := fun _ _ => hunwritten
    sizes := ⟨fun _ hin => absurd hin not_mem_nil, fun _ hw => absurd hw.symm (some_ne_none _)⟩ }

theorem write {w : Writing} (hwriting : ch.writing = some w) (n : Nat) : Ok id through last (ch.write n w) := by
  have hsplit (k : Nat) : w.rest.take k ++
      ((if w.rest.drop k = [] then none else some { w with rest := w.rest.drop k }).map
        Writing.rest).getD [] = w.rest := by
    split
    case isTrue hnil =>
      have hwhole := take_append_drop k w.rest
      rw [hnil] at hwhole
      exact hwhole
    case isFalse => exact take_append_drop k w.rest
  have hunread : (ch.write n w).unread = ch.unread := by
    unfold unread unwritten Channel.write
    rw [hwriting, append_assoc, ← append_assoc (w.rest.take _), hsplit]
    rfl
  have hwritten : ch.unwritten = [] → (ch.write n w).unwritten = [] := by
    intro hnil
    rw [unwritten, hwriting] at hnil
    obtain ⟨hrest, hqueue⟩ : w.rest = [] ∧ ch.queue.flatMap IncomingCommand.bytes = [] := append_eq_nil_iff.mp hnil
    unfold unwritten Channel.write
    dsimp only
    rw [hrest, drop_nil, hqueue]
    rfl
  have hsome : ch.writing ≠ none := by rw [hwriting]; exact some_ne_none _
  exact { h with
    pending := fun hp => absurd (h.pending hp).2.2.2.1 hsome
    ended := fun hp => absurd (h.ended hp).2 hsome
    halfClosed := fun hh => absurd (h.halfClosed hh).2 hsome
    delivered := fun ha => by rw [hunread]; exact h.delivered ha
    shutdown := fun ha hs => hwritten (h.shutdown ha hs)
    room := by
      have hroom := h.room
      unfold Channel.write
      rw [length_append, length_take]
      omega
    sizes := by
      refine ⟨h.sizes.1, fun w' hw' => ?_⟩
      have hsize := h.sizes.2 w hwriting
      unfold Channel.write at hw'
      dsimp only at hw'
      split at hw'
      · cases hw'
      · cases hw'
        dsimp only
        rw [length_drop]
        omega }

/-! ## The application -/

theorem read (n : Nat) : Ok id through last (ch.read n) := by
  unfold Channel.read
  split
  case isFalse => exact h
  case isTrue happ =>
    have hdelivered : ch.sent = ch.received ++ ch.pipe.take n ++ (ch.pipe.drop n ++ ch.unwritten) := by
      rw [append_assoc, ← append_assoc (ch.pipe.take n), take_append_drop]
      exact h.delivered happ
    exact { h with
      delivered := fun _ => hdelivered
      received := by
        rw [hdelivered]
        exact prefix_append _ _
      room := by
        have hroom := h.room
        rw [length_drop]
        omega }

theorem dropStream : Ok id through last { ch with application := false } :=
  { h with
    closedHere := fun hr ho => ⟨(h.closedHere hr ho).1, rfl⟩
    cancelled := fun hc => ⟨(h.cancelled hc).1, rfl⟩
    delivered := by simp
    shutdown := by simp }

theorem closeHere (happ : ch.application = false) (hremote : ch.remote ≠ .pending) :
    Ok id (max through id) last { ch.dropRoute with incomingCancelled := true } :=
  (h.mono (le_max_left through id) (le_refl last)).unroute _ hremote
    (fun _ => ⟨le_max_right _ _, happ⟩) fun _ => happ

theorem cancelHere (hrouted : ch.routed = false) (happ : ch.application = false) :
    Ok id through last { ch with incomingCancelled := true, guarded := false } :=
  { h with cancelled := fun _ => ⟨hrouted, happ⟩ }

end Channel.Ok

namespace ClientState

/-- The session runs, and every channel is in order. -/
structure Inv (s : ClientState) : Prop where
  running : s.failure = none
  channels : ∀ id ch, s.channels.get? id = some ch → ch.Ok id s.locallyClosedThrough s.lastIssued

variable {s : ClientState} {id : Nat} {ch : Channel}

theorem inv_init : Inv init where
  running := rfl
  channels := by
    intro id ch h
    cases h

theorem put_put (id : Nat) (ch ch' : Channel) (s : ClientState) : (s.put id ch).put id ch' = s.put id ch' := by
  unfold put
  rw [insert_insert]

theorem get?_put (id id' : Nat) (ch : Channel) (s : ClientState) :
    (s.put id ch).channels.get? id' = if id' = id then some ch else s.channels.get? id' :=
  get?_insert ..

theorem route_put (ch : Channel) (hrouted : ch.routed = true) : (s.put id ch).route id = some ch := by
  rw [route, get?_put, if_pos rfl, filter_some, hrouted]
  rfl

theorem route_put_none (ch : Channel) (hrouted : ch.routed = false) : (s.put id ch).route id = none := by
  rw [route, get?_put, if_pos rfl, filter_some, hrouted]
  rfl

theorem route_eq_some (hget : s.channels.get? id = some ch) (hrouted : ch.routed = true) : s.route id = some ch := by
  rw [route, hget, filter_some, hrouted]
  rfl

/-- A channel that holds the same permits as before leaves the session's count. -/
theorem charged_put (hget : s.channels.get? id = some ch) {ch' : Channel}
    (hcharged : ch'.charged = ch.charged) : (s.put id ch').charged = s.charged := by
  have hold := (values_perm (get?_eq_some.mp hget)).map Channel.charged
  have hnew := (values_insert_perm s.channels id ch').map Channel.charged
  unfold charged ClientState.put
  rw [hnew.sum_eq, hold.sum_eq, map_cons, map_cons, hcharged]

variable {frame : Frame} {channelId : UInt32} {bytes : List UInt8}

/-- What a remote side that keeps to the protocol may send next: one answer to each channel that
was asked for, data and then a half-close for a channel it opened, and closes. -/
def Conforms (s : ClientState) : Frame → Prop
  | .channelOpened channelId | .channelRejected channelId _ =>
    ∃ ch, s.channels.get? channelId.toNat = some ch ∧ ch.remote = .pending
  | .data channelId bytes =>
    bytes.length ≤ maxDataBytes ∧ ∃ ch, s.channels.get? channelId.toNat = some ch ∧ ch.remote = .opened
  | .halfClose channelId => ∃ ch, s.channels.get? channelId.toNat = some ch ∧ ch.remote = .opened
  | .closeChannel channelId => ∃ ch, s.channels.get? channelId.toNat = some ch
  | .hello | .helloAck | .openChannel _ | .sessionError _ => False

/-- There is room where the step puts something: in the queue of the channel, counted in commands,
in the byte permits of the channel and of the session, and where a dropped guard closes its channel
in the control queue. -/
def Fits (s : ClientState) : Step → Prop
  | .frame (.data channelId bytes) => ∀ ch, s.route channelId.toNat = some ch → ch.queue.length < channelQueueFrames ∧
      ch.charged + bytes.length ≤ maxIncomingChannelQueuedBytes ∧ s.charged + bytes.length ≤ maxSessionQueuedBytes
  | .frame (.halfClose channelId) => ∀ ch, s.route channelId.toNat = some ch → ch.queue.length < channelQueueFrames
  | .dropGuard id => ∀ ch, s.channels.get? id = some ch →
    ¬ (¬ ch.guarded ∨ ¬ ch.acknowledged ∨ ch.application) → s.control.length < controlQueueFrames
  | _ => True

theorem takeFrame_ok {s' : ClientState} (hrunning : s.failure = none)
    (hdispatch : (s.note frame).dispatchFrame frame = .ok s') : s.takeFrame frame = s' := by
  unfold takeFrame
  rw [hrunning, if_neg (by decide), hdispatch]

theorem takeFrame_error {reason : String} (hrunning : s.failure = none)
    (hdispatch : (s.note frame).dispatchFrame frame = .error reason) :
    s.takeFrame frame = (s.note frame).fail reason := by
  unfold takeFrame
  rw [hrunning, if_neg (by decide), hdispatch]

theorem note_data (hget : s.channels.get? channelId.toNat = some ch) : s.note (.data channelId bytes) =
      s.put channelId.toNat { ch with sent := ch.sent ++ bytes } := by
  simp only [note, hget]

/-- Data for a live channel within the byte bounds is queued if the queue has room for one more
command. -/
theorem dispatch_data (hget : s.channels.get? channelId.toNat = some ch)
    (hrouted : ch.routed = true) (hack : ch.acknowledged = true) (hpumping : ch.pumping = true) (hsize : bytes.length ≤ maxDataBytes)
    (hchannel : ch.charged + bytes.length ≤ maxIncomingChannelQueuedBytes)
    (hsession : s.charged + bytes.length ≤ maxSessionQueuedBytes) :
    (s.note (.data channelId bytes)).dispatchFrame (.data channelId bytes) =
      if ch.queue.length ≥ channelQueueFrames then .error "graphical relay channel queue exceeded its frame bound"
      else .ok (s.put channelId.toNat { ch with sent := ch.sent ++ bytes, queue := ch.queue ++ [.data bytes] }) := by
  have hcharged : (s.put channelId.toNat { ch with sent := ch.sent ++ bytes }).charged =
      s.charged := charged_put hget rfl
  have hsame : ({ ch with sent := ch.sent ++ bytes } : Channel).charged = ch.charged := rfl
  have hsmall : ¬ bytes.length ≥ UInt32.size := by
    have : maxDataBytes < UInt32.size := by decide
    omega
  have hroom : (¬ ch.pumping = true ∨ ch.queue.length ≥ channelQueueFrames) ↔ ch.queue.length ≥ channelQueueFrames := by
    rw [hpumping]
    simp only [not_true_eq_false, false_or]
  unfold dispatchFrame sendIncomingData
  dsimp only
  rw [note_data hget, route_put { ch with sent := ch.sent ++ bytes } hrouted]
  dsimp only
  rw [if_neg (not_not.mpr hack), if_neg hsmall, hsame, if_neg (not_lt.mpr hchannel), hcharged,
    if_neg (not_lt.mpr hsession), put_put]
  exact if_congr hroom rfl rfl

theorem takeFrame_data (hrunning : s.failure = none)
    (hget : s.channels.get? channelId.toNat = some ch) (hrouted : ch.routed = true)
    (hack : ch.acknowledged = true) (hpumping : ch.pumping = true)
    (hsize : bytes.length ≤ maxDataBytes) (hqueue : ch.queue.length < channelQueueFrames)
    (hchannel : ch.charged + bytes.length ≤ maxIncomingChannelQueuedBytes)
    (hsession : s.charged + bytes.length ≤ maxSessionQueuedBytes) :
    s.takeFrame (.data channelId bytes) = s.put channelId.toNat
      { ch with sent := ch.sent ++ bytes, queue := ch.queue ++ [.data bytes] } := by
  apply takeFrame_ok hrunning
  rw [dispatch_data hget hrouted hack hpumping hsize hchannel hsession, if_neg (not_le.mpr hqueue)]

namespace Inv

variable (h : Inv s)

include h

/-- One channel is written, and ids are issued or closed. -/
theorem insert {s' : ClientState} (hrunning : s'.failure = none) (hchannels : s'.channels = s.channels.insert id ch)
    (hthrough : s.locallyClosedThrough ≤ s'.locallyClosedThrough) (hlast : s.lastIssued ≤ s'.lastIssued)
    (hok : ch.Ok id s'.locallyClosedThrough s'.lastIssued) : Inv s' where
  running := hrunning
  channels := by
    rw [hchannels]
    exact forall_get?_insert hok fun id' ch' hget => (h.channels id' ch' hget).mono hthrough hlast

theorem put (hok : ch.Ok id s.locallyClosedThrough s.lastIssued) : Inv (s.put id ch) :=
  h.insert h.running rfl (le_refl _) (le_refl _) hok

/-! ## Frames -/

/-- The frame is dispatched to one channel. -/
theorem accept (hok : ch.Ok id s.locallyClosedThrough s.lastIssued)
    (hdispatch : (s.note frame).dispatchFrame frame = .ok (s.put id ch)) : Inv (s.takeFrame frame) := by
  rw [takeFrame_ok h.running hdispatch]
  exact h.put hok

theorem channelOpened (hconforms : s.Conforms (.channelOpened channelId)) :
    Inv (s.takeFrame (.channelOpened channelId)) := by
  obtain ⟨ch, hget, hremote⟩ := hconforms
  have hok := h.channels _ ch hget
  obtain ⟨hrouted, hack, -⟩ := hok.pending hremote
  refine h.accept (hok.acknowledge hremote) ?_
  unfold dispatchFrame note
  dsimp only
  rw [hget]
  rw [route_put { ch with remote := .opened } hrouted]
  dsimp only
  rw [hack, if_neg (by decide), put_put]

theorem channelRejected {reason : String} (hconforms : s.Conforms (.channelRejected channelId reason)) :
    Inv (s.takeFrame (.channelRejected channelId reason)) := by
  obtain ⟨ch, hget, hremote⟩ := hconforms
  have hok := h.channels _ ch hget
  obtain ⟨hrouted, hack, -⟩ := hok.pending hremote
  refine h.accept hok.closeRemote ?_
  unfold dispatchFrame note
  dsimp only
  rw [hget]
  rw [route_put { ch with remote := .closed } hrouted]
  dsimp only
  rw [hack, if_neg (by decide), put_put]

theorem closeRemote (hconforms : s.Conforms (.closeChannel channelId)) :
    Inv (s.takeFrame (.closeChannel channelId)) := by
  obtain ⟨ch, hget⟩ := hconforms
  have hok := h.channels _ ch hget
  have hnote : s.note (.closeChannel channelId) = s.put channelId.toNat { ch with remote := .closed } := by
    simp only [note, hget]
  cases hrouted : ch.routed with
  | true =>
    refine h.accept hok.closeRemote ?_
    unfold dispatchFrame closeRemoteChannel
    dsimp only
    rw [hnote, route_put { ch with remote := .closed } hrouted]
    dsimp only
    rw [put_put]
  | false =>
    refine h.accept (hok.remote_unrouted hrouted (.inl rfl)) ?_
    unfold dispatchFrame closeRemoteChannel
    dsimp only
    rw [hnote, route_put_none { ch with remote := .closed } hrouted]
    rw [if_pos (by exact hok.issued.2)]

theorem data (hconforms : s.Conforms (.data channelId bytes))
    (hfits : s.Fits (.frame (.data channelId bytes))) : Inv (s.takeFrame (.data channelId bytes)) := by
  obtain ⟨hsize, ch, hget, hremote⟩ := hconforms
  have hok := h.channels _ ch hget
  cases hrouted : ch.routed with
  | true =>
    obtain ⟨hqueue, hchannel, hsession⟩ := hfits ch (route_eq_some hget hrouted)
    have hack := hok.acknowledged hrouted (by rw [hremote]; decide)
    rw [takeFrame_data h.running hget hrouted hack (hok.pumping hrouted) hsize hqueue hchannel hsession]
    exact h.put (hok.data hremote hrouted hsize)
  | false =>
    have hlate : channelId.toNat ≠ 0 ∧ channelId.toNat ≤ s.locallyClosedThrough :=
      ⟨pos_iff_ne_zero.mp hok.issued.1, (hok.closedHere hrouted (.inl hremote)).1⟩
    refine h.accept (hok.data_unrouted hremote hrouted bytes) ?_
    unfold dispatchFrame sendIncomingData
    dsimp only
    rw [note_data hget, route_put_none { ch with sent := ch.sent ++ bytes } hrouted]
    rw [if_pos (by exact hlate)]

theorem halfClose (hconforms : s.Conforms (.halfClose channelId))
    (hfits : s.Fits (.frame (.halfClose channelId))) : Inv (s.takeFrame (.halfClose channelId)) := by
  obtain ⟨ch, hget, hremote⟩ := hconforms
  have hok := h.channels _ ch hget
  have hnote : s.note (.halfClose channelId) = s.put channelId.toNat { ch with remote := .halfClosed } := by
    simp only [note, hget]
  cases hrouted : ch.routed with
  | true =>
    have hqueue := hfits ch (route_eq_some hget hrouted)
    have hack := hok.acknowledged hrouted (by rw [hremote]; decide)
    have hroom : ¬ (¬ ch.pumping = true ∨ ch.queue.length ≥ channelQueueFrames) := by
      rw [hok.pumping hrouted]
      simp only [not_true_eq_false, false_or]
      omega
    refine h.accept (hok.halfClose hremote hrouted) ?_
    unfold dispatchFrame sendShutdownIncoming
    dsimp only
    rw [hnote, route_put { ch with remote := .halfClosed } hrouted]
    dsimp only
    rw [if_neg (not_not.mpr hack), if_neg hroom, put_put]
  | false =>
    refine h.accept (hok.remote_unrouted hrouted (.inr ⟨rfl, hremote⟩)) ?_
    unfold dispatchFrame sendShutdownIncoming
    dsimp only
    rw [hnote, route_put_none { ch with remote := .halfClosed } hrouted]
    rw [if_pos (by exact hok.issued.2)]

theorem takeFrame (hconforms : s.Conforms frame) (hfits : s.Fits (.frame frame)) : Inv (s.takeFrame frame) := by
  cases frame with
  | channelOpened channelId => exact h.channelOpened hconforms
  | channelRejected channelId reason => exact h.channelRejected hconforms
  | data channelId bytes => exact h.data hconforms hfits
  | halfClose channelId => exact h.halfClose hconforms hfits
  | closeChannel channelId => exact h.closeRemote hconforms
  | hello | helloAck | openChannel | sessionError => exact hconforms.elim

/-! ## The other tasks -/

theorem openChannel : Inv s.openChannel := by
  unfold ClientState.openChannel
  split
  · exact h
  split
  · exact h
  split
  · exact h
  split
  · exact h
  · exact h.insert h.running rfl (le_refl _) (le_succ _) (Channel.Ok.fresh _ _)

theorem receive (id : Nat) : Inv (s.receive id) := by
  unfold ClientState.receive
  split
  · exact h
  case h_2 ch hget =>
    have hok := h.channels id ch hget
    split
    · exact h
    case isFalse hready =>
      obtain ⟨-, hidle⟩ := not_or.mp hready
      have hwriting : ch.writing = none := not_isSome_iff_eq_none.mp hidle
      split
      case h_1 hqueue =>
        split
        · exact h
        case isFalse hrouted =>
          have hdone : ch.unwritten = [] := by
            rw [unwritten, hqueue, hwriting]
            rfl
          exact h.put (hok.endPump (Bool.not_eq_true _ |>.mp hrouted) fun _ => hdone)
      case h_2 bytes queue hqueue =>
        rw [if_neg (hok.not_halfClosed hqueue)]
        exact h.put (hok.receive_data hqueue hwriting)
      case h_3 queue hqueue =>
        rw [if_neg (hok.not_halfClosed hqueue)]
        exact h.put (hok.receive_halfClose hqueue hwriting)

/-- After a local close the channel has no route and nobody reads it. -/
theorem closeChannel (hget : s.channels.get? id = some ch)
    (happ : ch.application = false) (hremote : ch.remote ≠ .pending) :
    Inv (s.closeChannel id) ∧ ∃ ch', (s.closeChannel id).channels.get? id = some ch' ∧
      ch'.routed = false ∧ ch'.application = false := by
  have hok := h.channels id ch hget
  unfold ClientState.closeChannel
  cases hrouted : ch.routed with
  | true =>
    rw [route_eq_some hget hrouted]
    have hclosed := hok.closeHere happ hremote
    refine ⟨h.insert h.running rfl (le_max_left _ _) (le_refl _) hclosed,
      { ch.dropRoute with incomingCancelled := true }, get?_insert_self .., rfl, ?_⟩
    exact (hclosed.cancelled rfl).2
  | false =>
    have hroute : s.route id = none := by
      rw [route, hget, filter_some, hrouted]
      rfl
    rw [hroute]
    exact ⟨h, ch, hget, hrouted, happ⟩

theorem write (id n : Nat) : Inv (s.write id n) := by
  unfold ClientState.write
  split
  · exact h
  case h_2 ch hget =>
    have hok := h.channels id ch hget
    split
    · exact h
    case h_2 w hwriting =>
      split
      · exact h.put (hok.write hwriting n)
      case isFalse happ =>
        have hremote : ch.remote ≠ .pending := by
          intro hp
          rw [(hok.pending hp).2.2.2.1] at hwriting
          cases hwriting
        dsimp only
        generalize (if s.control.length < controlQueueFrames then
          s.control ++ [Frame.closeChannel (.ofNat id)] else s.control) = control
        have hcontrol : Inv { s with control } := ⟨h.running, h.channels⟩
        obtain ⟨hclosed, ch', hget', hrouted', happ'⟩ :=
          hcontrol.closeChannel hget (Bool.not_eq_true _ |>.mp happ) hremote
        rw [hget']
        exact hclosed.put ((hclosed.channels id ch' hget').endPump hrouted'
          fun ha => absurd (happ'.symm.trans ha) (by decide))

theorem cancel (id : Nat) : Inv (s.cancel id) := by
  unfold ClientState.cancel
  split
  · exact h
  case h_2 ch hget =>
    split
    · have hok := h.channels id ch hget
      case isTrue hcancelled =>
        obtain ⟨hrouted, happ⟩ := hok.cancelled hcancelled
        exact h.put (hok.endPump hrouted fun ha => absurd (happ.symm.trans ha) (by decide))
    · exact h

theorem read (id n : Nat) : Inv (s.read id n) := by
  unfold ClientState.read
  split
  · exact h
  case h_2 ch hget => exact h.put ((h.channels id ch hget).read n)

theorem dropStream (id : Nat) : Inv (s.dropStream id) := by
  unfold ClientState.dropStream
  split
  · exact h
  case h_2 ch hget =>
    split
    · exact h.put (h.channels id ch hget).dropStream
    · exact h

theorem dropGuard (hfits : s.Fits (.dropGuard id)) : Inv (s.dropGuard id) := by
  unfold ClientState.dropGuard
  split
  · exact h
  case h_2 ch hget =>
    have hok := h.channels id ch hget
    split
    · exact h
    case isFalse hready =>
      obtain ⟨-, hrest⟩ := not_or.mp hready
      obtain ⟨hack, happ⟩ := not_or.mp hrest
      have hremote : ch.remote ≠ .pending := by
        intro hp
        exact hack (fun ha => absurd (ha.symm.trans (hok.pending hp).2.1) (by decide))
      obtain ⟨hclosed, ch', hget', hrouted', happ'⟩ := h.closeChannel hget (Bool.not_eq_true _ |>.mp happ) hremote
      have hcontrol : (s.closeChannel id).control = s.control := by
        unfold ClientState.closeChannel
        split <;> rfl
      dsimp only
      rw [hget']
      have hput := hclosed.put
        ((hclosed.channels id ch' hget').cancelHere hrouted' happ')
      rw [if_pos (by show (s.closeChannel id).control.length < _; rw [hcontrol]; exact hfits ch hget hready)]
      exact ⟨hput.running, hput.channels⟩

end Inv

end ClientState

end Splinterm.Relay
