import Splinterm.Lib.Run
import Splinterm.Relay.Client

/-!
# The fair data queue

Frames of many channels leave through one physical writer, which takes one frame of each ready
channel in turn. Every step runs under the queue's lock, so a run is any interleaving of senders,
discards and receives. The byte permits decide when a sender may send, not what becomes of its frame.
-/

namespace Splinterm.Relay

open Lib List OrdMap Function

structure FairData where
  channelId : Nat
  bytes : List UInt8

/-- One channel's producer, and whether its byte budget is closed. -/
structure FairDataChannel where
  channelId : Nat
  closed : Bool := false

abbrev FairQueues := OrdMap Nat (List FairData)

namespace FairQueues

def frames (queues : FairQueues) (id : Nat) : List FairData := (queues.get? id).getD []

/-- An empty queue leaves the map. -/
def put (queues : FairQueues) (id : Nat) (frames : List FairData) : FairQueues :=
  if frames = [] then queues.erase id else queues.insert id frames

@[grind =] theorem frames_put (queues : FairQueues) (id id' : Nat) (frames : List FairData) :
    (queues.put id frames).frames id' = if id' = id then frames else queues.frames id' := by
  rw [put, FairQueues.frames]
  split
  · rw [get?_erase]
    split <;> simp [FairQueues.frames, *]
  · rw [get?_insert]
    split <;> rfl

end FairQueues

structure FairQueue where
  channels : FairQueues := .empty
  ready : List Nat := []
  receiverClosed : Bool := false
  senderCount : Nat := 1
  producers : List FairDataChannel := []
  /-- What a channel accepted and did not discard. -/
  accepted : Nat → List (List UInt8) := fun _ => []
  received : Nat → List (List UInt8) := fun _ => []

/-- What `recv` comes to. -/
inductive Received where
  | frame (item : FairData)
  | ended
  | waits

namespace FairQueue

/-- A permit of the producer is sent: the queue it leaves, or the refusal. -/
def send (producer : FairDataChannel) (bytes : List UInt8) (q : FairQueue) : Except String FairQueue :=
  let id := producer.channelId
  if bytes = [] ∨ maxDataBytes < bytes.length then .error "fair data payload length is outside bounds"
  else if q.receiverClosed ∨ producer.closed then .error "fair data receiver or channel is closed"
  else .ok { q with
    channels := q.channels.put id (q.channels.frames id ++ [⟨id, bytes⟩])
    ready := if q.channels.frames id = [] then q.ready ++ [id] else q.ready }

def recv (q : FairQueue) : Received × FairQueue :=
  match q.ready with
  | [] => if q.senderCount = 0 then (.ended, q) else (.waits, q)
  | id :: ready =>
    match q.channels.frames id with
    | [] => (.ended, { q with ready })
    | item :: rest => (.frame item, { q with
        channels := q.channels.put id rest
        ready := if rest = [] then ready else ready ++ [id] })

/-- Closes a producer and drops what is queued for its channel. -/
def discard (p id : Nat) (q : FairQueue) : FairQueue :=
  { q with
    producers := q.producers.set p ⟨id, true⟩
    channels := q.channels.put id []
    ready := q.ready.filter (· ≠ id) }

end FairQueue

inductive FairOp where
  | cloneSender
  | dropSender
  | channel (channelId : Nat)
  | send (p : Nat) (bytes : List UInt8)
  | recv
  | discard (p : Nat)
  | dropReceiver
deriving DecidableEq

namespace FairQueue

/-- One call; what it returned goes into the record of the frames. -/
def step (q : FairQueue) : FairOp → FairQueue
  | .cloneSender => { q with senderCount := min (q.senderCount + 1) (2 ^ 64 - 1) }
  | .dropSender => { q with senderCount := q.senderCount - 1 }
  | .channel channelId => { q with producers := q.producers ++ [{ channelId }] }
  | .send p bytes =>
    match q.producers[p]? with
    | none => q
    | some producer =>
      match q.send producer bytes with
      | .error _ => q
      | .ok q' => { q' with
          accepted := update q.accepted producer.channelId (q.accepted producer.channelId ++ [bytes]) }
  | .recv =>
    match q.recv with
    | (.frame item, q') => { q' with
        received := update q.received item.channelId (q.received item.channelId ++ [item.bytes]) }
    | (_, q') => q'
  | .discard p =>
    match q.producers[p]? with
    | none => q
    | some ⟨id, _⟩ => { q.discard p id with accepted := update q.accepted id (q.received id) }
  | .dropReceiver => { q with receiverClosed := true, channels := .empty, ready := [], accepted := q.received }

/-- The step takes away what is queued for the channel. -/
def clears (id : Nat) (q : FairQueue) : FairOp → Prop
  | .discard p => ∃ closed, q.producers[p]? = some ⟨id, closed⟩
  | .dropReceiver => True
  | _ => False

variable {q q' : FairQueue} {id p : Nat} {op : FairOp} {producer : FairDataChannel} {bytes : List UInt8}

theorem send_eq_ok : q.send producer bytes = .ok q' ↔
    (bytes ≠ [] ∧ bytes.length ≤ maxDataBytes ∧ q.receiverClosed = false ∧ producer.closed = false) ∧
      { q with
        channels := q.channels.put producer.channelId (q.channels.frames producer.channelId ++ [⟨producer.channelId, bytes⟩])
        ready := if q.channels.frames producer.channelId = [] then q.ready ++ [producer.channelId] else q.ready } = q' := by
  fun_cases FairQueue.send producer bytes q <;> grind

/-- The ready channels are those with frames, each once, and what a channel accepted is what it
delivered and then what it has queued. -/
structure Scheduled (q : FairQueue) : Prop where
  nodup : q.ready.Nodup
  ready : ∀ id, id ∈ q.ready ↔ q.channels.frames id ≠ []
  own : ∀ id, ∀ item ∈ q.channels.frames id, item.channelId = id
  fifo : ∀ id, q.accepted id = q.received id ++ (q.channels.frames id).map (·.bytes)

theorem scheduled_of_empty (hchannels : q.channels = .empty) (hready : q.ready = [])
    (haccepted : q.accepted = q.received) : q.Scheduled := by
  constructor <;> simp [hchannels, hready, haccepted, FairQueues.frames]

namespace Scheduled

variable (h : q.Scheduled)

include h

theorem found {ready : List Nat} (hready : q.ready = id :: ready) :
    q.channels.frames id ≠ [] :=
  (h.ready id).mp (hready ▸ mem_cons_self)

theorem send (hsent : q.send producer bytes = .ok q') :
    { q' with accepted := update q.accepted producer.channelId (q.accepted producer.channelId ++ [bytes]) }.Scheduled := by
  obtain ⟨-, rfl⟩ := send_eq_ok.mp hsent
  have hc := h.ready producer.channelId
  refine ⟨?_, fun id => ?_, fun id => ?_, fun id => ?_⟩
  · grind [h.nodup]
  · grind [h.ready id, append_eq_nil_iff]
  · grind [h.own id]
  · grind [h.fifo id, update_apply]

theorem recv : (q.step .recv).Scheduled := by
  rw [FairQueue.step]
  fun_cases FairQueue.recv q with
  | case1 | case2 => exact h
  | case3 c ready hready hframes => exact absurd hframes (h.found hready)
  | case4 c ready hready item rest hframes =>
    have hown := h.own c
    have hnodup := h.nodup
    refine ⟨?_, fun id => ?_, fun id => ?_, fun id => ?_⟩
    · grind
    · grind [h.ready id]
    · grind [h.own id]
    · grind [h.fifo id, update_apply]

theorem discard (p id : Nat) :
    { q.discard p id with accepted := update q.accepted id (q.received id) }.Scheduled := by
  refine ⟨h.nodup.filter _, fun id' => ?_, fun id' => ?_, fun id' => ?_⟩
  · grind [h.ready id', FairQueue.discard]
  · grind [h.own id', FairQueue.discard]
  · grind [h.fifo id', update_apply, FairQueue.discard]

theorem step (op : FairOp) : (q.step op).Scheduled := by
  cases op with
  | send p bytes =>
    rw [FairQueue.step]
    split
    · exact h
    · split
      · exact h
      next hsent => exact h.send hsent
  | recv => exact h.recv
  | discard p =>
    rw [FairQueue.step]
    split
    · exact h
    · exact h.discard p _
  | dropReceiver => exact scheduled_of_empty rfl rfl rfl
  | _ => exact { h with }

end Scheduled

theorem scheduled_run (ops : List FairOp) : (ops.foldl FairQueue.step {}).Scheduled :=
  foldlRecOn ops _ (scheduled_of_empty rfl rfl rfl) fun _ h op _ => h.step op

/-- Only a drop of the receiver closes it, and only a discard closes a producer. -/
theorem step_closes (q : FairQueue) (op : FairOp) (p : Nat) :
    ((q.step op).receiverClosed ↔ q.receiverClosed ∨ op = .dropReceiver) ∧
    ∀ producer, q.producers[p]? = some producer → (q.step op).producers[p]? =
      some { producer with closed := producer.closed || op = .discard p } := by
  cases op with
  | send p bytes =>
    rw [FairQueue.step]
    split
    · simp
    · split
      · simp
      next hsent =>
        obtain ⟨-, rfl⟩ := send_eq_ok.mp hsent
        simp
  | recv =>
    rw [FairQueue.step]
    fun_cases FairQueue.recv q <;> simp
  | discard p' =>
    rw [FairQueue.step]
    by_cases hp : p' = p
    · subst hp
      split
      next hnone => simp [hnone]
      next hsome =>
        refine ⟨by simp [FairQueue.discard], fun _ hp => ?_⟩
        grind [FairQueue.discard]
    · split <;> simp [FairQueue.discard, hp]
  | channel id =>
    refine ⟨by simp [FairQueue.step], fun _ hp => ?_⟩
    have hlt : p < q.producers.length := (List.getElem?_eq_some_iff.mp hp).1
    simp [FairQueue.step, getElem?_append_left hlt, hp]
  | _ => simp [FairQueue.step]

theorem run_closes (q : FairQueue) (ops : List FairOp) (p : Nat) :
    ((ops.foldl FairQueue.step q).receiverClosed ↔ q.receiverClosed ∨ .dropReceiver ∈ ops) ∧
    ∀ producer, q.producers[p]? = some producer → (ops.foldl FairQueue.step q).producers[p]? =
      some { producer with closed := producer.closed || decide (.discard p ∈ ops) } := by
  induction ops generalizing q with
  | nil => simp
  | cons op ops ih =>
    have hstep := step_closes q op p
    refine ⟨?_, fun producer hp => ?_⟩
    · rw [foldl_cons, (ih _).1, hstep.1, mem_cons, or_assoc, eq_comm (a := op)]
    · rw [foldl_cons, (ih _).2 _ (hstep.2 producer hp)]
      simp [Bool.or_assoc, eq_comm (a := op)]

/-- Whatever the interleaving, each channel's frames come out once and in the order they were
accepted, and the receiver is told the end only when no sender is left and nothing is queued. A
frame is accepted exactly if its length is within bounds, the receiver was not dropped and the
producer not discarded since it was made. -/
theorem accepted_frames_come_out_in_order (ops : List FairOp) :
    let q := ops.foldl FairQueue.step {}
    (∀ id, q.accepted id = q.received id ++ (q.channels.frames id).map (·.bytes)) ∧
      (q.recv.1 = .ended → q.senderCount = 0 ∧ ∀ id, q.accepted id = q.received id) ∧
      ∀ before id after, ops = before ++ .channel id :: after →
        let p := (before.foldl FairQueue.step {}).producers.length
        ∃ producer, q.producers[p]? = some producer ∧ producer.channelId = id ∧ ∀ bytes,
          (∃ q', q.send producer bytes = .ok q') ↔ bytes ≠ [] ∧ bytes.length ≤ maxDataBytes ∧
            .dropReceiver ∉ ops ∧ .discard p ∉ after := by
  intro q
  have h : q.Scheduled := scheduled_run ops
  refine ⟨h.fifo, ?_, fun before id after hops => ?_⟩
  · fun_cases FairQueue.recv q with
    | case1 hready hnone =>
      refine fun _ => ⟨hnone, fun id => ?_⟩
      have hnone : q.channels.frames id = [] := by simpa [hready] using h.ready id
      rw [h.fifo id, hnone, map_nil, append_nil]
    | case3 c ready hready hframes => exact absurd hframes (h.found hready)
    | case2 | case4 => exact nofun
  · intro p
    have hdropped := (run_closes {} ops p).1
    have hmade : (q.producers[p]? = some ⟨id, decide (.discard p ∈ after)⟩) := by
      have hnew : ((before.foldl FairQueue.step {}).step (.channel id)).producers[p]? = some ⟨id, false⟩ := by
        simp [FairQueue.step, p]
      simpa [q, hops] using (run_closes _ after p).2 _ hnew
    refine ⟨_, hmade, rfl, fun bytes => ?_⟩
    have hreceiver : q.receiverClosed = false ↔ .dropReceiver ∉ ops := by simpa using not_congr hdropped
    simp [send_eq_ok, hreceiver]

/-! ## Turns -/

theorem idxOf_filter_le {p : Nat → Bool} {l : List Nat} (hp : p id = true) : (l.filter p).idxOf id ≤ l.idxOf id := by
  induction l with
  | nil => exact le_rfl
  | cons b l ih => grind

/-- A receive serves the channel whose turn it is; any step leaves another ready channel no further
back, and a receive brings its turn nearer. -/
theorem Scheduled.turn (h : q.Scheduled) (hid : id ∈ q.ready) (hop : ¬ q.clears id op) :
    (op = .recv ∧ ∃ item, q.recv.1 = .frame item ∧ item.channelId = id) ∨
      id ∈ (q.step op).ready ∧ (q.step op).ready.idxOf id + [op].count .recv ≤ q.ready.idxOf id := by
  cases op with
  | recv =>
    rw [FairQueue.step]
    fun_cases FairQueue.recv q with
    | case1 hnil | case2 hnil => simp [hnil] at hid
    | case3 c ready hready hframes => exact absurd hframes (h.found hready)
    | case4 c ready hready item rest hframes =>
      by_cases hc : id = c
      · exact .inl ⟨rfl, item, rfl, hc ▸ h.own c item (hframes ▸ mem_cons_self)⟩
      · have hlater : id ∈ ready := by simpa [hready, hc] using hid
        rw [hready, idxOf_cons_ne _ (Ne.symm hc)]
        right
        dsimp only
        split <;> simp [hlater, idxOf_append_of_mem]
  | send p bytes =>
    right
    rw [FairQueue.step]
    split
    · exact ⟨hid, le_rfl⟩
    · split
      · exact ⟨hid, le_rfl⟩
      next hsent =>
        obtain ⟨-, rfl⟩ := send_eq_ok.mp hsent
        split <;> simp [hid, idxOf_append_of_mem]
  | discard p =>
    right
    rw [FairQueue.step]
    split
    · exact ⟨hid, le_rfl⟩
    next c closed hp =>
      have hc : id ≠ c := fun heq => hop ⟨closed, heq ▸ hp⟩
      exact ⟨by simp [FairQueue.discard, hid, hc], idxOf_filter_le (by simpa using hc)⟩
  | dropReceiver => exact absurd trivial hop
  | _ => exact .inr ⟨hid, le_rfl⟩

/-- A channel with a frame queued is served within as many receives as its place among the ready
ones, whatever is sent meanwhile, unless its queue is taken away. -/
theorem queued_channels_get_their_turn (before after : List FairOp) (id : Nat) :
    let q := before.foldl FairQueue.step {}
    q.channels.frames id ≠ [] → Along FairQueue.step (fun q op => ¬ q.clears id op) after q →
      q.ready.idxOf id < after.count .recv → ∃ l r item, after = l ++ .recv :: r ∧
        (l.foldl FairQueue.step q).recv.1 = .frame item ∧ item.channelId = id := by
  intro q hqueued
  have h : q.Scheduled := scheduled_run before
  have hid := (h.ready id).mpr hqueued
  clear hqueued
  clear_value q
  induction after generalizing q with
  | nil => exact fun _ hturns => absurd hturns (Nat.not_lt_zero _)
  | cons op after ih =>
    intro hkept hturns
    rcases h.turn hid hkept.1 with ⟨rfl, item, hitem⟩ | ⟨hid', hle⟩
    · exact ⟨[], after, item, rfl, hitem⟩
    · rw [← singleton_append, count_append] at hturns
      obtain ⟨l, r, item, rfl, hitem⟩ := ih _ (h.step op) hid' hkept.2 (by omega)
      exact ⟨op :: l, r, item, rfl, hitem⟩

/-- Two frames of the first channel do not hold up the second. -/
theorem second_channel_gets_its_turn : ∃ l r item, [FairOp.recv, .recv] = l ++ .recv :: r ∧
    (l.foldl FairQueue.step ([.channel 1, .channel 2, .send 0 [1], .send 0 [2], .send 1 [3]].foldl
      FairQueue.step {})).recv.1 = .frame item ∧ item.channelId = 2 :=
  queued_channels_get_their_turn _ _ 2 (by decide) ⟨nofun, nofun, trivial⟩ (by decide)

end FairQueue

end Splinterm.Relay
