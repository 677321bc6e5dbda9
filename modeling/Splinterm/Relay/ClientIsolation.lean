import Splinterm.Relay.ClientRun

/-!
# Isolation of slow consumers

In every run whose frames find room the session goes on and no byte of a channel is
lost. The room is counted in commands as well as in bytes: the queue was sized for
full frames, and 1026 frames of one byte fill it.
-/

namespace Splinterm.Relay.ClientState

open Lib OrdMap List Nat Channel

variable {s : ClientState} {id : Nat} {ch : Channel}

/-- Every frame of the run is one the remote side may send. -/
def Conforming : List Step → ClientState → Prop
  | [], _ => True
  | step :: steps, s => (∀ frame, step = .frame frame → s.Conforms frame) ∧ Conforming steps (s.step step)

/-- Every step of the run finds room. -/
def AllFit : List Step → ClientState → Prop
  | [], _ => True
  | step :: steps, s => s.Fits step ∧ AllFit steps (s.step step)

theorem Inv.step (h : Inv s) {step : Step}
    (hconforms : ∀ frame, step = .frame frame → s.Conforms frame) (hfits : s.Fits step) : Inv (s.step step) := by
  cases step with
  | openChannel => exact h.openChannel
  | frame frame => exact h.takeFrame (hconforms frame rfl) hfits
  | receive id => exact h.receive id
  | write id n => exact h.write id n
  | cancel id => exact h.cancel id
  | read id n => exact h.read id n
  | dropStream id => exact h.dropStream id
  | dropGuard id => exact h.dropGuard hfits
  | written => exact ⟨h.running, h.channels⟩

theorem Inv.run (h : Inv s) {steps : List Step} (hconforms : Conforming steps s)
    (hfits : AllFit steps s) : Inv (s.run steps) := by
  induction steps generalizing s with
  | nil => exact h
  | cons step steps ih => exact ih (h.step hconforms.1 hfits.1) hconforms.2 hfits.2

/-! ## Draining a channel -/

section

variable (h : Inv s) (hget : s.channels.get? id = some ch) (happ : ch.application = true)

include h hget happ

/-- An idle channel has one command fewer queued after its pump took one. -/
theorem receive_channel (hwriting : ch.writing = none) :
    ∃ ch', (s.receive id).channels.get? id = some ch' ∧ ch'.application = true ∧
      ch'.sent = ch.sent ∧ ch'.queue.length = ch.queue.length - 1 := by
  have hok := h.channels id ch hget
  unfold ClientState.receive
  rw [hget]
  dsimp only
  split
  case isTrue hbusy =>
    have hended : ch.pumping = false := by simpa [hwriting] using hbusy
    exact ⟨ch, hget, happ, rfl, by rw [(hok.ended hended).1]; rfl⟩
  case isFalse =>
    split
    case h_1 hqueue =>
      split
      · exact ⟨ch, hget, happ, rfl, by rw [hqueue]; rfl⟩
      · exact ⟨ch.endPump, get?_insert_self .., happ, rfl, by rw [hqueue]; rfl⟩
    all_goals
      rename_i hqueue
      rw [if_neg (hok.not_halfClosed hqueue)]
      exact ⟨_, get?_insert_self .., happ, rfl, by rw [hqueue]; rfl⟩

theorem read_channel : ∃ ch', (s.read id pipeBytes).channels.get? id = some ch' ∧ ch'.application = true ∧
      ch'.pipe = [] ∧ ch'.writing = ch.writing ∧ ch'.sent = ch.sent ∧ ch'.queue = ch.queue := by
  have hok := h.channels id ch hget
  unfold ClientState.read
  rw [hget]
  dsimp only
  unfold Channel.read
  rw [if_pos happ]
  exact ⟨_, get?_insert_self .., happ, drop_eq_nil_of_le hok.room, rfl, rfl, rfl⟩

theorem write_channel : ∃ ch', ((s.read id pipeBytes).write id pipeBytes).channels.get? id = some ch' ∧
      ch'.application = true ∧ ch'.writing = none ∧ ch'.sent = ch.sent ∧ ch'.queue = ch.queue := by
  obtain ⟨ch₁, hget₁, happ₁, hpipe₁, -, hsent₁, hqueue₁⟩ := read_channel h hget happ
  have hok := (h.read id pipeBytes).channels id ch₁ hget₁
  unfold ClientState.write
  rw [hget₁]
  dsimp only
  cases hwriting : ch₁.writing with
  | none => exact ⟨ch₁, hget₁, happ₁, hwriting, hsent₁, hqueue₁⟩
  | some w =>
    dsimp only
    rw [if_pos happ₁]
    refine ⟨_, get?_insert_self .., happ₁, ?_, hsent₁, hqueue₁⟩
    have hsize := hok.sizes.2 w hwriting
    have hdrop : w.rest.drop (min pipeBytes (pipeBytes - ch₁.pipe.length)) = [] := by
      rw [hpipe₁, drop_eq_nil_iff]
      have : pipeBytes = maxDataBytes := rfl
      rw [length_nil]
      omega
    unfold Channel.write
    dsimp only
    rw [hdrop, if_pos rfl]

/-- An application that goes on reading gets every byte that was sent to it. -/
theorem Inv.drained :
    ∃ more, (∀ step ∈ more, step = .receive id ∨ (∃ n, step = .write id n) ∨ ∃ n, step = .read id n) ∧
      (s.run more).failure = none ∧ ∃ ch', (s.run more).channels.get? id = some ch' ∧ ch'.received = ch.sent := by
  -- the pipe is emptied and the frame in progress written, then the next command taken
  induction hn : ch.queue.length generalizing s ch with
  | zero =>
    obtain ⟨ch₁, hget₁, happ₁, hwriting₁, hsent₁, hqueue₁⟩ := write_channel h hget happ
    have hinv := (h.read id pipeBytes).write id pipeBytes
    obtain ⟨ch₂, hget₂, happ₂, hpipe₂, hwriting₂, hsent₂, hqueue₂⟩ := read_channel hinv hget₁ happ₁
    refine ⟨[.read id pipeBytes, .write id pipeBytes, .read id pipeBytes], by simp,
      (hinv.read id pipeBytes).running, ch₂, hget₂, ?_⟩
    have hdelivered := ((hinv.read id pipeBytes).channels id ch₂ hget₂).delivered happ₂
    rw [unread, unwritten, hpipe₂, hwriting₂, hwriting₁, hqueue₂, hqueue₁,
      eq_nil_of_length_eq_zero hn, hsent₂, hsent₁] at hdelivered
    exact (hdelivered.trans (append_nil _)).symm
  | succ n ih =>
    obtain ⟨ch₁, hget₁, happ₁, hwriting₁, hsent₁, hqueue₁⟩ := write_channel h hget happ
    have hinv := (h.read id pipeBytes).write id pipeBytes
    obtain ⟨ch₂, hget₂, happ₂, hsent₂, hqueue₂⟩ := receive_channel hinv hget₁ happ₁ hwriting₁
    obtain ⟨more, hmore, hrunning, ch', hget', hreceived⟩ :=
      ih (hinv.receive id) hget₂ happ₂ (by rw [hqueue₂, hqueue₁, hn]; rfl)
    refine ⟨.read id pipeBytes :: .write id pipeBytes :: .receive id :: more, by simpa using hmore,
      hrunning, ch', hget', ?_⟩
    rw [hreceived, hsent₂, hsent₁]

end

/-- In every run of a conforming remote side whose steps find room, the session does not fail, and
an application that holds its channel has read a first part of the bytes sent to it, can still
read all others, and sees the end of the stream behind them only. -/
theorem slow_consumers_are_isolated (steps : List Step) (hconforms : Conforming steps init)
    (hfits : AllFit steps init) :
    let s := init.run steps
    s.failure = none ∧ ∀ id ch, s.channels.get? id = some ch → ch.received <+: ch.sent ∧
      (ch.application = true → ch.sent = ch.received ++ ch.unread ∧ (ch.shutdown = true → ch.unread = ch.pipe) ∧
        ∃ more, (∀ step ∈ more, step = .receive id ∨ (∃ n, step = .write id n) ∨ ∃ n, step = .read id n) ∧
          (s.run more).failure = none ∧
          ∃ ch', (s.run more).channels.get? id = some ch' ∧ ch'.received = ch.sent) := by
  intro s
  have hinv : Inv s := inv_init.run hconforms hfits
  refine ⟨hinv.running, ?_⟩
  intro id ch hget
  have hok := hinv.channels id ch hget
  refine ⟨hok.received, fun happ => ⟨hok.delivered happ, fun hshutdown => ?_, hinv.drained hget happ⟩⟩
  rw [unread, hok.shutdown happ hshutdown, append_nil]

/-- A frame of two bytes, of which the application has read the first. -/
theorem half_read_frame :
    let steps := [.openChannel, .frame (.channelOpened 1), .frame (.data 1 [7, 8]), .receive 1, .write 1 2, .read 1 1]
    (init.run steps).failure = none ∧
      (∀ ch, (init.run steps).channels.get? 1 = some ch → ch.received = [7] ∧ ch.unread = [8]) := by
  intro steps
  have hconforms : Conforming steps init := by
    refine ⟨fun _ h => Step.noConfusion h, ?_, ?_, fun _ h => Step.noConfusion h,
      fun _ h => Step.noConfusion h, fun _ h => Step.noConfusion h, trivial⟩
    · intro frame h
      cases h
      exact ⟨_, rfl, rfl⟩
    · intro frame h
      cases h
      exact ⟨by decide, _, rfl, rfl⟩
  have hfits : AllFit steps init := by
    refine ⟨trivial, trivial, ?_, trivial, trivial, trivial, trivial⟩
    intro ch hroute
    obtain rfl : _ = ch := Option.some.inj hroute
    decide
  have hresult := slow_consumers_are_isolated steps hconforms hfits
  refine ⟨hresult.1, ?_⟩
  intro ch hget
  obtain rfl : _ = ch := Option.some.inj hget
  decide

/-! ## Small frames -/

/-- A frame that fills the pipe. -/
def full : List UInt8 := replicate maxDataBytes 0

/-- A session whose only channel is `ch`. -/
def single (ch : Channel) : ClientState where
  control := [.openChannel 1]
  channels := empty.insert 1 ch
  lastIssued := 1
  locallyClosedThrough := 0
  failure := none

/-- The pipe is full, a frame of one byte is being written and `n` more are queued. -/
def stalled (n : Nat) : Channel :=
  { fresh with
    acknowledged := true
    remote := .opened
    queue := replicate n (.data [0])
    writing := some ⟨[0], 1⟩
    pipe := full
    sent := full ++ replicate (n + 1) 0 }

/-- Nobody reads: the first frame fills the pipe, the second stays in `write_all`. -/
def stall : List Step :=
  [.openChannel, .frame (.channelOpened 1), .frame (.data 1 full), .receive 1,
    .write 1 pipeBytes, .frame (.data 1 [0]), .receive 1]

theorem single_get? (ch : Channel) : (single ch).channels.get? 1 = some ch := get?_insert_self ..

theorem single_put (ch ch' : Channel) : (single ch).put 1 ch' = single ch' := by
  unfold ClientState.put single
  rw [insert_insert]

theorem single_charged (ch : Channel) : (single ch).charged = ch.charged := by
  show ch.charged + 0 = _
  rw [add_zero]

/-- A frame for the only channel that finds room. -/
theorem single_data (ch : Channel) (hrouted : ch.routed = true) (hack : ch.acknowledged = true)
    (hpumping : ch.pumping = true) {bytes : List UInt8} (hsize : bytes.length ≤ maxDataBytes)
    (hqueue : ch.queue.length < channelQueueFrames)
    (hcharged : ch.charged + bytes.length ≤ maxIncomingChannelQueuedBytes) : (single ch).takeFrame (.data 1 bytes) =
      single { ch with sent := ch.sent ++ bytes, queue := ch.queue ++ [.data bytes] } := by
  have hbounds : maxIncomingChannelQueuedBytes ≤ maxSessionQueuedBytes := by decide
  have htake : (single ch).takeFrame (.data 1 bytes) = (single ch).put 1
      { ch with sent := ch.sent ++ bytes, queue := ch.queue ++ [.data bytes] } :=
    takeFrame_data rfl (single_get? ch) hrouted hack hpumping hsize hqueue hcharged
      (by rw [single_charged]; omega)
  rw [htake, single_put]

theorem charged_stalled (n : Nat) : (stalled n).charged = n + 1 := by
  simp [stalled, Channel.charged, IncomingCommand.bytes]

theorem length_full : full.length = pipeBytes := length_replicate

/-- The only channel once it is acknowledged. -/
def opened : Channel := { fresh with acknowledged := true, remote := .opened }

theorem conforming_stall : Conforming stall init ∧ init.run stall = single (stalled 0) := by
  have hopen : init.openChannel.takeFrame (.channelOpened 1) = single opened := rfl
  have hfirst : (single opened).takeFrame (.data 1 full) =
      single { opened with sent := full, queue := [.data full] } :=
    single_data opened rfl rfl rfl (le_of_eq length_full) (by decide) (by rw [length_full]; decide)
  have htaken : (single { opened with sent := full, queue := [.data full] }).receive 1 =
      single { opened with sent := full, writing := some ⟨full, full.length⟩ } := rfl
  -- the empty pipe takes the whole frame
  have hwritten : (single { opened with sent := full, writing := some ⟨full, full.length⟩ }).write 1 pipeBytes =
      single { opened with sent := full, pipe := full } := by
    refine (single_put _ _).trans (congrArg single ?_)
    simp [Channel.write, opened, fresh, ← length_full]
  have hsecond : (single { opened with sent := full, pipe := full }).takeFrame (.data 1 [0]) =
      single { opened with sent := full ++ [0], pipe := full, queue := [.data [0]] } :=
    single_data { opened with sent := full, pipe := full } rfl rfl rfl (by decide) (by decide) (by decide)
  simp only [Conforming, run, stall, foldl_cons, foldl_nil, step, hopen, hfirst, htaken, hwritten, hsecond]
  refine ⟨⟨fun _ h => Step.noConfusion h, ?_, ?_, fun _ h => Step.noConfusion h,
    fun _ h => Step.noConfusion h, ?_, fun _ h => Step.noConfusion h, trivial⟩, rfl⟩
  · rintro _ ⟨⟩
    exact ⟨.fresh, rfl, rfl⟩
  · rintro _ ⟨⟩
    exact ⟨le_of_eq length_full, opened, single_get? _, rfl⟩
  · rintro _ ⟨⟩
    exact ⟨by decide, _, single_get? _, rfl⟩

theorem stalled_succ {n : Nat} (hn : n < channelQueueFrames) :
    (single (stalled n)).takeFrame (.data 1 [0]) = single (stalled (n + 1)) := by
  have hlength : (stalled n).queue.length = n := length_replicate
  have hcharged : (stalled n).charged + [(0 : UInt8)].length ≤ maxIncomingChannelQueuedBytes := by
    rw [charged_stalled, length_singleton]
    have : channelQueueFrames + 1 ≤ maxIncomingChannelQueuedBytes := by decide
    omega
  rw [single_data (stalled n) rfl rfl rfl (by decide) (by rw [hlength]; exact hn) hcharged]
  have hqueue : (stalled n).queue ++ [.data [0]] = replicate (n + 1) (.data [0]) := replicate_succ'.symm
  have hsent : (stalled n).sent ++ [0] = full ++ replicate (n + 1 + 1) 0 := by
    rw [replicate_succ' (n := n + 1), ← append_assoc]
    rfl
  rw [hqueue, hsent]
  rfl

theorem run_append (steps more : List Step) (s : ClientState) :
    s.run (steps ++ more) = (s.run steps).run more := foldl_append

theorem conforming_append {steps more : List Step} {s : ClientState} :
    Conforming (steps ++ more) s ↔ Conforming steps s ∧ Conforming more (s.run steps) := by
  induction steps generalizing s with
  | nil => exact (and_iff_right trivial).symm
  | cons step steps ih =>
    show _ ∧ Conforming (steps ++ more) (s.step step) ↔ (_ ∧ _) ∧ _
    rw [ih, and_assoc]
    exact Iff.rfl

theorem conforms_small_frame (n : Nat) (frame : Frame) (h : Step.frame (.data 1 [0]) = .frame frame) :
    (single (stalled n)).Conforms frame := by
  cases h
  exact ⟨by decide, stalled n, single_get? _, rfl⟩

theorem conforming_small_frames {n k : Nat} (h : n + k ≤ channelQueueFrames) :
    let steps := replicate k (.frame (.data 1 [0]))
    Conforming steps (single (stalled n)) ∧ (single (stalled n)).run steps = single (stalled (n + k)) := by
  induction k generalizing n with
  | zero => exact ⟨trivial, rfl⟩
  | succ k ih =>
    obtain ⟨hconforms, hrun⟩ := ih (show n + 1 + k ≤ channelQueueFrames by omega)
    rw [← stalled_succ (by omega)] at hconforms hrun
    exact ⟨⟨conforms_small_frame n, hconforms⟩, hrun.trans (by rw [add_right_comm, add_assoc])⟩

/-- The frame after the last that fits. -/
theorem stalled_full : (single (stalled channelQueueFrames)).takeFrame (.data 1 [0]) =
    (single { stalled channelQueueFrames with sent := (stalled channelQueueFrames).sent ++ [0] }).fail
      "graphical relay channel queue exceeded its frame bound" := by
  have hlength : (stalled channelQueueFrames).queue.length = channelQueueFrames := length_replicate
  have hcharged := charged_stalled channelQueueFrames
  have hbound : channelQueueFrames + 1 + 1 ≤ maxIncomingChannelQueuedBytes := by decide
  have hbound' : channelQueueFrames + 1 + 1 ≤ maxSessionQueuedBytes := by decide
  refine (takeFrame_error rfl ?_).trans (congrArg (fail _) ((note_data (single_get? _)).trans (single_put _ _)))
  rw [dispatch_data (single_get? _) rfl rfl rfl (by decide) (by rw [hcharged]; exact hbound)
    (by rw [single_charged, hcharged]; exact hbound'), if_pos (le_of_eq hlength.symm)]

/-- The application reads nothing. A frame fills the pipe, and 1028 frames of one byte follow, all
of them for the only channel and 17412 bytes together: the last one fails the session. -/
theorem small_frames_fail_the_session :
    let steps := stall ++ replicate (channelQueueFrames + 1) (.frame (.data 1 [0]))
    let s := init.run steps
    Conforming steps init ∧ s.failure = some "graphical relay channel queue exceeded its frame bound" ∧
      (∀ id ch, s.channels.get? id = some ch → id = 1 ∧ ch.sent.length = 17412) ∧
      17412 ≤ maxIncomingChannelQueuedBytes ∧ 17412 ≤ maxSessionQueuedBytes := by
  intro steps s
  obtain ⟨hstall, hstalled⟩ := conforming_stall
  obtain ⟨hsmall, hfilled⟩ := @conforming_small_frames 0 channelQueueFrames (by omega)
  have hsteps : steps = stall ++ (replicate channelQueueFrames (.frame (.data 1 [0])) ++ [.frame (.data 1 [0])]) := by
    rw [← replicate_succ']
  rw [← hstalled] at hsmall hfilled
  have hs : s = (single { stalled channelQueueFrames with sent := (stalled channelQueueFrames).sent ++ [0] }).fail
      "graphical relay channel queue exceeded its frame bound" := by
    show init.run steps = _
    rw [hsteps, run_append, run_append, hfilled, zero_add, run, foldl_cons, foldl_nil, step, stalled_full]
  refine ⟨?_, ?_, ?_, by decide, by decide⟩
  · rw [hsteps, conforming_append, conforming_append, hfilled]
    exact ⟨hstall, hsmall, conforms_small_frame _, trivial⟩
  · rw [hs]
    rfl
  · intro id ch hget
    rw [hs, fail, if_neg (by decide)] at hget
    rw [get?_mapValues, single, get?_insert] at hget
    split at hget
    · rename_i hid
      cases hget
      refine ⟨hid, ?_⟩
      show ((full ++ replicate (channelQueueFrames + 1) 0) ++ [(0 : UInt8)]).length = _
      rw [length_append, length_append, length_full, length_replicate]
      rfl
    · cases hget

end Splinterm.Relay.ClientState
