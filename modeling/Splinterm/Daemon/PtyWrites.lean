import Splinterm.Lib.Run

/-!
# Writes to the terminal

Client messages and terminal replies wait in two queues for one descriptor. Every writable event
chooses the queue anew and replies go first, so a reply that comes while a message is partly written
is written into the middle of it.
-/

namespace Splinterm.Daemon

open Lib Function List

structure WriteQueue where
  chunks : List (List UInt8) := []
  offset : Nat := 0
  bytes : Nat := 0

namespace WriteQueue

variable {queue queue' : WriteQueue} {bytes : List UInt8} {limit : Nat}

/-- `none` for `InputQueueFull`. -/
def push (bytes : List UInt8) (limit : Nat) (queue : WriteQueue) : Option WriteQueue :=
  if bytes.length > limit - queue.bytes then none
  else some { queue with
    bytes := queue.bytes + bytes.length
    chunks := queue.chunks ++ if bytes = [] then [] else [bytes] }

def front (queue : WriteQueue) : Option (List UInt8) := queue.chunks.head?.map (·.drop queue.offset)

def consume (count : Nat) (queue : WriteQueue) : WriteQueue :=
  let queue := { queue with bytes := queue.bytes - count, offset := queue.offset + count }
  if queue.chunks.head?.any fun chunk => queue.offset = chunk.length then
    { queue with chunks := queue.chunks.tail, offset := 0 }
  else queue

/-- What of the front chunk is written. -/
def started (queue : WriteQueue) : List UInt8 := (queue.chunks.headD []).take queue.offset

def Inside (queue : WriteQueue) : Prop := queue.offset ≤ (queue.chunks.headD []).length

theorem push_started (h : queue.push bytes limit = some queue') (hin : queue.Inside) :
    queue'.chunks = queue.chunks ++ (if bytes = [] then [] else [bytes]) ∧ queue'.Inside ∧
      queue'.started = queue.started ∧ queue'.offset = queue.offset := by
  rw [push] at h
  split at h
  · cases h
  · cases h
    cases hchunks : queue.chunks with
    | nil =>
      have hzero : queue.offset = 0 := by simpa [Inside, hchunks] using hin
      simp [started, Inside, hchunks, hzero]
    | cons chunk rest =>
      rw [Inside, hchunks] at hin
      exact ⟨rfl, hin, by simp [started, hchunks], rfl⟩

/-- The bytes taken end the front chunk, or more of it is written. -/
theorem consume_started (h : queue.front = some bytes) (hin : queue.Inside) (count : Nat) :
    let queue' := queue.consume (min count bytes.length)
    ∃ ended, queue.chunks = ended ++ queue'.chunks ∧
      queue.started ++ bytes.take count = ended.flatten ++ queue'.started ∧ queue'.Inside := by
  cases hchunks : queue.chunks with
  | nil => simp [front, hchunks] at h
  | cons chunk rest =>
    obtain rfl : chunk.drop queue.offset = bytes := by simpa [front, hchunks] using h
    have hle : queue.offset ≤ chunk.length := by simpa [Inside, hchunks] using hin
    set n := min count (chunk.drop queue.offset).length with hn
    have htake : chunk.take queue.offset ++ (chunk.drop queue.offset).take count = chunk.take (queue.offset + n) := by
      rw [take_add, ← take_eq_take_min]
    by_cases hend : queue.offset + n = chunk.length
    · refine ⟨[chunk], ?_, ?_, ?_⟩ <;> simp [consume, hchunks, hend, started, Inside]
      rw [htake, hend, take_length]
    · rw [length_drop] at hn
      refine ⟨[], ?_, ?_, ?_⟩ <;> simp [consume, hchunks, hend, started, Inside]
      · exact htake
      · omega

end WriteQueue

inductive Origin where
  | user | reply
deriving DecidableEq

/-- The queues of the actor, with what they accepted and what the terminal took. -/
structure PtyWriter where
  writes : Origin → WriteQueue := fun _ => {}
  accepted : Origin → List (List UInt8) := fun _ => []
  written : List UInt8 := []

namespace PtyWriter

inductive Step where
  | accept (origin : Origin) (bytes : List UInt8)
  /-- The terminal takes `count` of the bytes offered, none where the write is interrupted. -/
  | writable (count : Nat)

def step (limit : Origin → Nat) (s : PtyWriter) : Step → PtyWriter
  | .accept origin bytes =>
    match (s.writes origin).push bytes (limit origin) with
    | none => s
    | some queue => { s with
      writes := update s.writes origin queue
      accepted := update s.accepted origin (s.accepted origin ++ if bytes = [] then [] else [bytes]) }
  | .writable count =>
    let origin := if (s.writes .reply).chunks = [] then .user else .reply
    match (s.writes origin).front with
    | none => s
    | some bytes => { s with
      writes := update s.writes origin ((s.writes origin).consume (min count bytes.length))
      written := s.written ++ bytes.take count }

/-- Of each kind, the chunks in `done` and then those still queued were accepted. -/
def Done (s : PtyWriter) (done : List (Origin × List UInt8)) : Prop :=
  ∀ k, s.accepted k = (done.filter (·.1 = k)).map (·.2) ++ (s.writes k).chunks

/-- The bytes written are whole messages and replies, each once and in the order its kind was
accepted, and the part of one that is still at the front of its queue. -/
def Whole (s : PtyWriter) : Prop :=
  ∃ done part origin, s.Done done ∧ s.written = done.flatMap (·.2) ++ part ∧ part <+: (s.writes origin).chunks.headD []

/-- A reply comes only between two messages. -/
def Between (s : PtyWriter) : Step → Prop
  | .accept .reply _ => (s.writes .user).offset = 0
  | _ => True

/-- At most one chunk is partly written. -/
structure Inv (s : PtyWriter) : Prop where
  inside : ∀ k, (s.writes k).Inside
  between : (s.writes .reply).chunks ≠ [] → (s.writes .user).offset = 0
  whole : ∃ done, s.Done done ∧
    s.written = done.flatMap (·.2) ++ ((s.writes .user).started ++ (s.writes .reply).started)

variable {s : PtyWriter} {limit : Origin → Nat}

theorem Inv.accept (h : Inv s) {origin : Origin} {bytes : List UInt8}
    (hbetween : s.Between (.accept origin bytes)) : Inv (step limit s (.accept origin bytes)) := by
  rw [step]
  cases hpush : (s.writes origin).push bytes (limit origin) with
  | none => exact h
  | some queue =>
    obtain ⟨hchunks, hinside, hsame⟩ := WriteQueue.push_started hpush (h.inside origin)
    obtain ⟨done, hdone, hwritten⟩ := h.whole
    have hsame : ∀ k, (update s.writes origin queue k).started = (s.writes k).started ∧
        (update s.writes origin queue k).offset = (s.writes k).offset :=
      (forall_update_iff s.writes fun k q => q.started = (s.writes k).started ∧
        q.offset = (s.writes k).offset).mpr ⟨hsame, fun _ _ => ⟨rfl, rfl⟩⟩
    refine ⟨(forall_update_iff s.writes fun _ q => q.Inside).mpr ⟨hinside, fun k _ => h.inside k⟩,
      fun hreply => ?_, done, fun k => ?_, ?_⟩ <;> dsimp only at *
    · rw [(hsame .user).2]
      cases origin with
      | reply => exact hbetween
      | user => exact h.between hreply
    · rw [update_apply, update_apply]
      split
      · rename_i heq
        rw [heq, hdone, hchunks, append_assoc]
      · exact hdone k
    · rw [(hsame .user).1, (hsame .reply).1]
      exact hwritten

theorem Inv.writable (h : Inv s) (count : Nat) : Inv (step limit s (.writable count)) := by
  rw [step]
  set origin : Origin := if (s.writes .reply).chunks = [] then .user else .reply with horigin
  cases hfront : (s.writes origin).front with
  | none => exact h
  | some bytes =>
    obtain ⟨ended, hchunks, hstarted, hinside⟩ := WriteQueue.consume_started hfront (h.inside origin) count
    obtain ⟨done, hdone, hwritten⟩ := h.whole
    -- only the queue that is written has a part of its front chunk written
    have hone : ∀ queue, (update s.writes origin queue .user).started ++
        (update s.writes origin queue .reply).started = queue.started := by
      by_cases hempty : (s.writes .reply).chunks = []
      · simp [horigin, hempty, WriteQueue.started]
      · simp [horigin, hempty, WriteQueue.started, h.between hempty]
    have hpart := hone (s.writes origin)
    rw [update_eq_self] at hpart
    refine ⟨(forall_update_iff s.writes fun _ q => q.Inside).mpr ⟨hinside, fun k _ => h.inside k⟩,
      fun hreply => ?_, done ++ ended.map (origin, ·), fun k => ?_, ?_⟩ <;> dsimp only at *
    · by_cases hempty : (s.writes .reply).chunks = []
      · simp [horigin, hempty] at hreply
      · simpa [horigin, hempty] using h.between hempty
    · rw [hdone, update_apply]
      split
      · rename_i heq
        simp [heq, comp_def, hchunks, filter_eq_self.mpr]
      · rename_i hne
        simp [filter_map, comp_def, Ne.symm hne]
    · rw [hone, hwritten, hpart, append_assoc, hstarted]
      simp [flatMap_map]

/-- In every run in which replies come only between two messages, every state has written whole
chunks and a part of one. -/
theorem chunks_stay_whole (limit : Origin → Nat) (steps : List Step) (h : Along (step limit) Between steps {}) :
    (steps.foldl (step limit) {}).Whole := by
  have hinv : Inv (steps.foldl (step limit) {}) := by
    refine Along.foldl Inv (fun s st hs hst => ?_) ?_ h
    · cases st with
      | accept origin bytes => exact hs.accept hst
      | writable count => exact hs.writable count
    · exact ⟨fun _ => Nat.zero_le _, fun hne => absurd rfl hne, [], fun _ => rfl, rfl⟩
  obtain ⟨done, hdone, hwritten⟩ := hinv.whole
  by_cases hempty : ((steps.foldl (step limit) {}).writes .reply).chunks = []
  · exact ⟨done, _, .user, hdone, by simpa [WriteQueue.started, hempty] using hwritten, List.take_prefix _ _⟩
  · exact ⟨done, _, .reply, hdone, by simpa [WriteQueue.started, hinv.between hempty] using hwritten,
      List.take_prefix _ _⟩

/-- A reply that comes before the first byte of a message is taken. -/
theorem reply_before_message_is_whole :
    ([Step.accept .user [1, 2], .accept .reply [9], .writable 2, .writable 1].foldl (step fun _ => 8) {}).Whole :=
  chunks_stay_whole _ _ ⟨trivial, rfl, trivial, trivial, trivial⟩

/-- A reply that comes after it is written before the second. -/
theorem reply_splits_message :
    let s := [Step.accept .user [1, 2], .writable 1, .accept .reply [9], .writable 1].foldl
      (step fun _ => 8) {}
    s.written = [1, 9] ∧ ¬ s.Whole := by
  refine ⟨rfl, ?_⟩
  rintro ⟨done, part, -, hdone, hwritten, -⟩
  cases done with
  | nil => cases hdone .reply
  | cons first rest =>
    obtain ⟨k, bytes⟩ := first
    cases k with
    | user =>
      have hlength := congrArg List.length (hdone .user)
      simp [step, WriteQueue.push, WriteQueue.front, WriteQueue.consume] at hlength
    | reply =>
      obtain ⟨rfl, -⟩ := List.cons.inj (show [9] :: [] = bytes :: _ from hdone .reply)
      exact absurd (List.cons.inj (show (1 : UInt8) :: [9] = 9 :: _ from hwritten)).1 (by decide)

end PtyWriter

end Splinterm.Daemon
