import Splinterm.Daemon.PendingAccess

/-!
# What every interleaving of pending-access operations keeps

Each request goes through the stages of `requestLifecycle`. The invariant says that
the events logged for a request are accepted by that lifecycle and that the stage
they reach agrees with the request's entry, or with what was delivered to its
channel once the entry left. Ends and grants then exclude each other because the
stages do.
-/

namespace Splinterm.Daemon

open Core Lib List Option

inductive Stage where
  | absent
  | queued
  | prompting
  | committing
  /-- Ended while its grant was being committed. -/
  | marked (error : ProtocolError)
  | published
  /-- Gone, with the error of its first end if it was ended. -/
  | closed (error : Option ProtocolError)
deriving DecidableEq

def Stage.next : Stage → RequestEvent → Option Stage
  | .absent, .opened => some .queued
  | .queued, .shown => some .prompting
  | .queued, .ended error => some (.closed (some error))
  | .queued, .finished => some (.closed none)
  | .prompting, .answered => some .committing
  | .prompting, .ended error => some (.closed (some error))
  | .prompting, .finished => some (.closed none)
  | .committing, .ended error => some (.marked error)
  | .committing, .published => some .published
  | .committing, .finished => some (.closed none)
  | .marked error, .ended _ => some (.marked error)
  | .marked error, .finished => some (.closed (some error))
  | .published, .finished => some (.closed none)
  | _, _ => none

def requestLifecycle : Lifecycle Stage RequestEvent := ⟨.absent, Stage.next⟩

def Phase.stage : Phase → Stage
  | .queued => .queued
  | .prompting => .prompting
  | .committing none => .committing
  | .committing (some error) => .marked error
  | .published => .published

/-! ## What the stages exclude -/

variable {stage stage' : Stage} {event : RequestEvent}

/-- Ended with `error` first. -/
def Stage.EndedWith (error : ProtocolError) (stage : Stage) : Prop :=
  stage = .marked error ∨ stage = .closed (some error)

variable {error : ProtocolError}

theorem Stage.EndedWith.next
    (h : stage.EndedWith error) (hnext : stage.next event = some stage') : stage'.EndedWith error := by
  obtain rfl | rfl := h <;> cases event <;> cases hnext
  · exact .inl rfl
  · exact .inr rfl

/-- Published, or gone without having been ended. -/
def Stage.Granted (stage : Stage) : Prop := stage = .published ∨ stage = .closed none

theorem Stage.Granted.next (h : stage.Granted) (hnext : stage.next event = some stage') : stage'.Granted := by
  obtain rfl | rfl := h <;> cases event <;> cases hnext
  exact .inr rfl

theorem Stage.Granted.refuses (h : stage.Granted) :
    stage.next .published = none ∧ ∀ error, stage.next (.ended error) = none := by
  obtain rfl | rfl := h <;> exact ⟨rfl, fun _ => rfl⟩

theorem Stage.EndedWith.refuses (h : stage.EndedWith error) : stage.next .published = none := by
  obtain rfl | rfl := h <;> rfl

/-- An accepted end that is not the first one found the request already marked. -/
theorem Stage.next_ended (h : stage.next (.ended error) = some stage') :
    stage'.EndedWith error ∨ ∃ first, stage = .marked first := by
  cases stage <;> cases h
  case queued | prompting => exact .inl (.inr rfl)
  case committing => exact .inl (.inl rfl)
  case marked => exact .inr ⟨_, rfl⟩

section History

variable {pre post : List RequestEvent} {final : Stage}

theorem not_published_of_ended
    (h : requestLifecycle.run (pre ++ .ended error :: post) = some final) : .published ∉ post := by
  obtain ⟨before, after, -, hafter, hfinal⟩ := Lifecycle.run_split h
  have hended : ∃ first, after.EndedWith first := by
    obtain hended | ⟨first, rfl⟩ := Stage.next_ended hafter
    · exact ⟨error, hended⟩
    · have hmarked : (Stage.marked first).next (.ended error) = some after := hafter
      exact ⟨first, Stage.EndedWith.next (.inl rfl) hmarked⟩
  obtain ⟨first, hfirst⟩ := hended
  exact Lifecycle.not_mem_of_closed (fun _ _ _ => Stage.EndedWith.next)
    (fun _ => Stage.EndedWith.refuses) hfirst hfinal

theorem endedWith_of_first (h : requestLifecycle.run (pre ++ .ended error :: post) = some final)
    (hfirst : ∀ e, .ended e ∉ pre) : final.EndedWith error := by
  obtain ⟨before, after, hbefore, hafter, hfinal⟩ := Lifecycle.run_split h
  have hended : after.EndedWith error := by
    obtain hended | ⟨first, rfl⟩ := Stage.next_ended hafter
    · exact hended
    · obtain ⟨pre', event, post', stage, rfl, -, hne, hnext⟩ :=
        Lifecycle.run_entered (m := requestLifecycle) (by simp [requestLifecycle]) hbefore
      cases stage <;> cases event <;> cases hnext
      · exact absurd (by simp) (hfirst first)
      · exact absurd rfl hne
  exact Lifecycle.runFrom_closed (fun _ _ _ => Stage.EndedWith.next) hended hfinal

theorem granted_of_published (h : requestLifecycle.run (pre ++ .published :: post) = some final) :
    .published ∉ post ∧ ∀ e, .ended e ∉ post := by
  obtain ⟨before, after, hbefore, hafter, hfinal⟩ := Lifecycle.run_split h
  have hgranted : after.Granted := by
    cases before <;> cases hafter
    exact .inl rfl
  have hclosed : ∀ stage event stage', Stage.Granted stage →
      requestLifecycle.next stage event = some stage' → Stage.Granted stage' :=
    fun _ _ _ => Stage.Granted.next
  exact ⟨Lifecycle.not_mem_of_closed hclosed (fun _ hs => hs.refuses.1) hgranted hfinal,
    fun e => Lifecycle.not_mem_of_closed hclosed (fun _ hs => hs.refuses.2 e) hgranted hfinal⟩

theorem shown_answered_of_published (h : requestLifecycle.run (pre ++ .published :: post) = some final) :
    ∃ a b c, pre = a ++ .shown :: (b ++ .answered :: c) := by
  obtain ⟨before, after, hbefore, hafter, -⟩ := Lifecycle.run_split h
  cases before <;> cases hafter
  obtain ⟨pre', event, c, stage, rfl, hstage, -, hnext⟩ :=
    Lifecycle.run_entered (m := requestLifecycle) (by simp [requestLifecycle]) hbefore
  cases stage <;> cases event <;> cases hnext
  obtain ⟨a, event, b, stage, rfl, -, -, hnext⟩ :=
    Lifecycle.run_entered (m := requestLifecycle) (by simp [requestLifecycle]) hstage
  cases stage <;> cases event <;> cases hnext
  exact ⟨a, b, c, by simp⟩

end History

/-! ## The registry follows the lifecycles -/

def Entry.owner (entry : Entry) : ProcessKey × LairId := (entry.process, entry.lairId)

variable {ρ : Type}

def valueAt (channels : List (Channel ρ)) (channel : Nat) : Option (Option (Outcome ρ)) :=
  (channels[channel]?).map (·.value)

/-- Entries, channels and log tell the same about every request. -/
structure Consistent (entries : List Entry) (channels : List (Channel ρ)) (log : List (Nat × RequestEvent)) : Prop where
  nodup : (entries.map (·.outcome)).Nodup
  live : ∀ entry ∈ entries, requestLifecycle.run (story entry.outcome log) = some entry.phase.stage ∧
    valueAt channels entry.outcome = some none
  gone : ∀ channel < channels.length, channel ∉ entries.map (·.outcome) →
    ∃ error, requestLifecycle.run (story channel log) = some (.closed error) ∧
      ∀ e, error = some e → valueAt channels channel = some (some (.failed e))
  fresh : ∀ channel, channels.length ≤ channel → story channel log = []

variable {channels : List (Channel ρ)} {a : Nat}

theorem valueAt_modify_ne {b : Nat} (f : Channel ρ → Channel ρ)
    (h : a ≠ b) : valueAt (channels.modify a f) b = valueAt channels b := by
  rw [valueAt, getElem?_modify_ne f channels h, valueAt]

theorem valueAt_modify_self (f : Channel ρ → Channel ρ)
    {value : Option (Outcome ρ)} (hf : ∀ c, (f c).value = value) {former : Option (Outcome ρ)}
    (h : valueAt channels a = some former) : valueAt (channels.modify a f) a = some value := by
  obtain ⟨c, hc, -⟩ := map_eq_some_iff.mp h
  rw [valueAt, getElem?_modify_eq, hc]
  exact congrArg some (hf c)

theorem valueAt_modify_same {b : Nat} (f : Channel ρ → Channel ρ)
    (hf : ∀ c, (f c).value = c.value) : valueAt (channels.modify a f) b = valueAt channels b := by
  by_cases hab : a = b
  · subst hab
    rw [valueAt, getElem?_modify_eq, valueAt]
    cases channels[a]? with
    | none => rfl
    | some c => exact congrArg some (hf c)
  · exact valueAt_modify_ne f hab

namespace Consistent

variable {entries pre post : List Entry} {entry : Entry} {channels : List (Channel ρ)}
  {log : List (Nat × RequestEvent)} {event : RequestEvent}

theorem empty : Consistent ([] : List Entry) ([] : List (Channel ρ)) [] where
  nodup := .nil
  live := fun _ h => absurd h not_mem_nil
  gone := fun _ h => absurd h (Nat.not_lt_zero _)
  fresh := fun _ _ => rfl

/-- The other entries of a registry have other channels. -/
theorem outcome_ne (h : Consistent (pre ++ entry :: post) channels log) {other : Entry}
    (hother : other ∈ pre ++ post) : entry.outcome ≠ other.outcome := by
  have hnodup := h.nodup
  rw [map_append, map_cons, nodup_middle, nodup_cons, ← map_append] at hnodup
  exact fun heq => hnodup.1 (heq ▸ mem_map_of_mem hother)

theorem outcome_lt (h : Consistent entries channels log) (hentry : entry ∈ entries) :
    entry.outcome < channels.length := by
  obtain ⟨c, hc, -⟩ := map_eq_some_iff.mp (h.live entry hentry).2
  obtain ⟨hlt, -⟩ := List.getElem?_eq_some_iff.mp hc
  exact hlt

/-- One entry moves to another phase of its lifecycle. -/
theorem rephase (h : Consistent (pre ++ entry :: post) channels log) {phase : Phase}
    (hnext : entry.phase.stage.next event = some phase.stage) :
    Consistent (pre ++ { entry with phase } :: post) channels
      (log ++ [(entry.outcome, event)]) where
  nodup := by
    have hnodup := h.nodup
    rw [map_append] at hnodup ⊢
    exact hnodup
  live := by
    intro other hother
    obtain rfl | hother := mem_around.mp hother
    · obtain ⟨hrun, hvalue⟩ := h.live entry (by simp)
      rw [story_snoc_self, Lifecycle.run_snoc hrun]
      exact ⟨hnext, hvalue⟩
    · rw [story_snoc_ne (h.outcome_ne hother)]
      exact h.live other (mem_around.mpr (.inr hother))
  gone := by
    intro channel hlt hgone
    rw [map_append] at hgone
    have hne : entry.outcome ≠ channel := fun heq => hgone (by simp [heq])
    rw [story_snoc_ne hne]
    exact h.gone channel hlt (by rw [map_append]; exact hgone)
  fresh := by
    intro channel hle
    rw [story_snoc_ne ((h.outcome_lt (by simp)).trans_le hle).ne]
    exact h.fresh channel hle

/-- One entry leaves with what is delivered to its channel. -/
theorem remove (h : Consistent (pre ++ entry :: post) channels log) {error : Option ProtocolError}
    {outcome : Outcome ρ} (hnext : entry.phase.stage.next event = some (.closed error))
    (houtcome : ∀ e, error = some e → outcome = .failed e) : Consistent (pre ++ post)
      (channels.modify entry.outcome fun c => { c with value := some outcome, cancelled := true, done := true })
      (log ++ [(entry.outcome, event)]) where
  nodup := by
    have hnodup := h.nodup
    rw [map_append, map_cons, nodup_middle, nodup_cons] at hnodup
    rw [map_append]
    exact hnodup.2
  live := by
    intro other hother
    have hne := h.outcome_ne hother
    rw [story_snoc_ne hne, valueAt_modify_ne _ hne]
    exact h.live other (mem_around.mpr (.inr hother))
  gone := by
    intro channel hlt hgone
    rw [length_modify] at hlt
    obtain ⟨hrun, hvalue⟩ := h.live entry (by simp)
    by_cases hself : entry.outcome = channel
    · subst hself
      refine ⟨error, ?_, fun e he => ?_⟩
      · rw [story_snoc_self, Lifecycle.run_snoc hrun]
        exact hnext
      · rw [← houtcome e he]
        exact valueAt_modify_self _ (fun _ => rfl) hvalue
    · rw [story_snoc_ne hself, valueAt_modify_ne _ hself]
      refine h.gone channel hlt fun hmem => ?_
      obtain ⟨other, hother, rfl⟩ := mem_map.mp hmem
      obtain rfl | hother := mem_around.mp hother
      · exact hself rfl
      · exact hgone (mem_map_of_mem hother)
  fresh := by
    intro channel hle
    rw [length_modify] at hle
    rw [story_snoc_ne ((h.outcome_lt (by simp)).trans_le hle).ne]
    exact h.fresh channel hle

/-- A new request gets a channel of its own. -/
theorem push (h : Consistent entries channels log) (houtcome : entry.outcome = channels.length)
    (hphase : entry.phase = .queued) {channel : Channel ρ} (hvalue : channel.value = none) :
    Consistent (entries ++ [entry]) (channels ++ [channel]) (log ++ [(channels.length, .opened)]) where
  nodup := by
    rw [map_append, nodup_append_comm]
    refine nodup_cons.mpr ⟨fun hmem => ?_, h.nodup⟩
    obtain ⟨other, hother, heq⟩ := mem_map.mp hmem
    exact (h.outcome_lt hother).ne (heq.trans houtcome)
  live := by
    refine forall_mem_append.mpr ⟨fun other hother => ?_, forall_mem_singleton.mpr ?_⟩
    · have hlt := h.outcome_lt hother
      rw [story_snoc_ne hlt.ne', valueAt, getElem?_append_left hlt]
      exact h.live other hother
    · rw [houtcome, hphase, story_snoc_self,
        h.fresh _ (Nat.le_refl _), valueAt, getElem?_concat_length]
      exact ⟨rfl, congrArg some hvalue⟩
  gone := by
    intro other hlt hgone
    rw [map_append, mem_append, not_or, map_singleton, mem_singleton] at hgone
    rw [length_append, length_singleton] at hlt
    have hlt' : other < channels.length := by omega
    rw [story_snoc_ne hlt'.ne', valueAt, getElem?_append_left hlt']
    exact h.gone other hlt' hgone.1
  fresh := by
    intro other hle
    rw [length_append, length_singleton] at hle
    rw [story_snoc_ne (by omega)]
    exact h.fresh other (by omega)

theorem modify (h : Consistent entries channels log) {channel : Nat} {f : Channel ρ → Channel ρ}
    (hf : ∀ c, (f c).value = c.value) : Consistent entries (channels.modify channel f) log where
  nodup := h.nodup
  live := by
    intro entry hentry
    rw [valueAt_modify_same f hf]
    exact h.live entry hentry
  gone := by
    intro other hlt hgone
    rw [length_modify] at hlt
    rw [valueAt_modify_same f hf]
    exact h.gone other hlt hgone
  fresh := by
    intro other hle
    rw [length_modify] at hle
    exact h.fresh other hle

end Consistent

namespace PendingAccess

/-- The events of one request, oldest first. -/
def history (s : PendingAccess ρ) (channel : Nat) : List RequestEvent := story channel s.log

/-- What the calls waiting on a request are given; `none` while nothing was delivered. -/
def value (s : PendingAccess ρ) (channel : Nat) : Option (Outcome ρ) :=
  (valueAt s.channels channel).join

def Ok (s : PendingAccess ρ) : Prop := Consistent s.entries s.channels s.log

/-- What an operation keeps that neither opens a request nor denies one. -/
structure Keeps (s s' : PendingAccess ρ) : Prop where
  ok : s'.Ok
  owners : (s'.entries.map Entry.owner).Sublist (s.entries.map Entry.owner)
  cooldowns : s'.cooldowns = s.cooldowns
  started : s'.started = s.started

variable {s : PendingAccess ρ}

theorem Keeps.refl (h : s.Ok) : Keeps s s := ⟨h, .refl _, rfl, rfl⟩

theorem Keeps.trans {s' s'' : PendingAccess ρ} (h : Keeps s s') (h' : Keeps s' s'') : Keeps s s'' :=
  ⟨h'.ok, h'.owners.trans h.owners, h'.cooldowns.trans h.cooldowns, h'.started.trans h.started⟩

theorem owners_remove {pre post : List Entry} {entry : Entry} :
    ((pre ++ post).map Entry.owner).Sublist ((pre ++ entry :: post).map Entry.owner) :=
  ((List.Sublist.refl pre).append (sublist_cons_self entry post)).map _

theorem owners_rephase {pre post : List Entry} {entry : Entry} (phase : Phase) :
    (pre ++ { entry with phase } :: post).map Entry.owner = (pre ++ entry :: post).map Entry.owner := by
  rw [map_append, map_append]
  rfl

/-- The loop of `end_where`, by induction on the entries still to come. -/
theorem keeps_endFrom (error : ProtocolError) (selected : Entry → Bool) {rest : List Entry}
    (h : Consistent (s.entries ++ rest) s.channels s.log) :
    Keeps { s with entries := s.entries ++ rest } (endFrom error selected rest s).2 := by
  induction rest generalizing s with
  | nil =>
    rw [append_nil] at h ⊢
    exact .refl h
  | cons entry rest ih =>
    have hmove (e : Entry) : s.entries ++ e :: rest = (s.entries ++ [e]) ++ rest := by simp
    rw [endFrom]
    by_cases hkeep : entry.phase = .published ∨ ¬ selected entry
    · rw [if_pos hkeep, hmove]
      rw [hmove] at h
      exact ih (s := { s with entries := s.entries ++ [entry] }) h
    · rw [if_neg hkeep]
      have hphase : entry.phase ≠ .published := fun heq => hkeep (.inl heq)
      have hleave (hnext : entry.phase.stage.next (.ended error) = some (.closed (some error))) :
          Keeps { s with entries := s.entries ++ entry :: rest } (endFrom error selected rest
            (note entry.outcome (.ended error) (deliver entry.outcome (.failed error) s))).2 := by
        obtain ⟨hok, howners, hcooldowns, hstarted⟩ := ih
          (s := note entry.outcome (.ended error) (deliver entry.outcome (.failed error) s))
          (h.remove hnext fun _ he => congrArg Outcome.failed (some.inj he))
        exact ⟨hok, howners.trans owners_remove, hcooldowns, hstarted⟩
      -- a committing request is marked and stays, any other one leaves
      cases hp : entry.phase with
      | committing former =>
        have hnext : entry.phase.stage.next (.ended error) =
            some (Phase.committing (some (former.getD error))).stage := by
          rw [hp]
          cases former <;> rfl
        have hnew := h.rephase hnext
        rw [hmove] at hnew
        obtain ⟨hok, howners, hcooldowns, hstarted⟩ := ih (s := note entry.outcome (.ended error)
          { s with
            entries := s.entries ++ [{ entry with phase := .committing (some (former.getD error)) }] }) hnew
        refine ⟨hok, howners.trans ?_, hcooldowns, hstarted⟩
        show (((s.entries ++ [_]) ++ rest).map Entry.owner).Sublist _
        rw [← hmove, owners_rephase]
      | queued | prompting => exact hleave (by rw [hp]; rfl)
      | published => exact absurd hp hphase

section Operations

variable (h : s.Ok)
include h

/-- Every end operation counts and marks through `end_where`. -/
theorem keeps_ended (error : ProtocolError) (selected : Entry → Bool) :
    Keeps s (ended (s.endWhere error selected)).2 := by
  have hkeeps := keeps_endFrom (s := { s with entries := [] }) error selected h
  unfold ended
  split
  · exact ⟨hkeeps.ok, hkeeps.owners, hkeeps.cooldowns, hkeeps.started⟩
  · exact hkeeps

variable {pre post : List Entry} {entry : Entry} (hentries : s.entries = pre ++ entry :: post)
  {event : RequestEvent} {revision : Nat}
include hentries

theorem keeps_rephase {phase : Phase} (hnext : entry.phase.stage.next event = some phase.stage) :
    Keeps s (note entry.outcome event { s with entries := pre ++ { entry with phase } :: post, revision }) := by
  have hok : Consistent (pre ++ entry :: post) s.channels s.log := hentries ▸ h
  refine ⟨hok.rephase hnext, ?_, rfl, rfl⟩
  show ((pre ++ _ :: post).map Entry.owner).Sublist _
  rw [owners_rephase, hentries]

/-- A request leaves with what is delivered to its channel. -/
theorem keeps_remove (event : RequestEvent) (revision : Nat) (error : Option ProtocolError) {outcome : Outcome ρ}
    (hnext : entry.phase.stage.next event = some (.closed error))
    (houtcome : ∀ e, error = some e → outcome = .failed e) :
    Keeps s (note entry.outcome event (deliver entry.outcome outcome { s with entries := pre ++ post, revision })) := by
  have hok : Consistent (pre ++ entry :: post) s.channels s.log := hentries ▸ h
  exact ⟨hok.remove hnext houtcome, hentries ▸ owners_remove, rfl, rfl⟩

omit hentries

theorem keeps_nextPrompt : Keeps s s.nextPrompt.2 := by
  unfold nextPrompt
  split
  · exact ⟨h, .refl _, rfl, rfl⟩
  · rename_i pre entry post hsplit
    obtain ⟨hentries, hphase, -⟩ := splitFirst_eq_some hsplit
    exact keeps_rephase h hentries (by rw [of_decide_eq_true hphase]; rfl)

theorem keeps_publishIfLive {α : Type} (requestId : Nat) (publish : α) :
    Keeps s (s.publishIfLive requestId publish).2 := by
  unfold publishIfLive
  split
  · exact .refl h
  · rename_i pre entry post hsplit
    split
    · exact .refl h
    · rename_i hphase
      exact keeps_rephase h (splitFirst_eq_some hsplit).1 (by rw [not_not.mp hphase]; rfl)

theorem keeps_beginCommit (requestId : Nat) : Keeps s (s.beginCommit requestId).2 := by
  unfold beginCommit
  split
  · exact .refl h
  · rename_i pre entry post hsplit
    split
    · exact .refl h
    · rename_i hphase
      exact keeps_rephase h (splitFirst_eq_some hsplit).1 (by rw [not_not.mp hphase]; rfl)

theorem keeps_finishCommit (requestId : Nat) (outcome : Outcome ρ) : Keeps s (s.finishCommit requestId outcome).2 := by
  unfold finishCommit
  split
  · exact .refl h
  · rename_i pre entry post hsplit
    obtain ⟨hentries, -, -⟩ := splitFirst_eq_some hsplit
    split
    · -- an end recorded during the commit replaces the outcome
      rename_i error hphase
      exact keeps_remove h hentries _ _ (some error) (by rw [hphase]; rfl)
        fun _ he => congrArg Outcome.failed (some.inj he)
    · rename_i hphase
      refine keeps_remove h hentries _ _ none ?_ fun _ he => absurd he.symm (some_ne_none _)
      cases hp : entry.phase with
      | committing former =>
        cases former with
        | some error => exact absurd hp (hphase error)
        | none => rfl
      | queued | prompting | published => rfl

theorem keeps_dropReceiver (channel : Nat) : Keeps s (s.dropReceiver channel) :=
  ⟨Consistent.modify h fun _ => rfl, .refl _, rfl, rfl⟩

end Operations

/-- The four ways an admission changes the registry. -/
theorem admit_cases (peer : PeerIdentity) (lairId : LairId) (scopes : List AccessScope)
    (agentName : Option String) (now : Instant) (unixNow : Nat)
    (openPidfd : ProcessKey → Except ProtocolError PinnedRequester) (s : PendingAccess ρ) :
    let s' := (s.admitRequest peer lairId scopes agentName now unixNow openPidfd).2
    s' = s ∨ (∃ denials, s' = { s.prune now with denials }) ∨
      (∃ channel, s' = { s.prune now with
        channels := s.channels.modify channel fun c => { c with receivers := c.receivers + 1 } }) ∨
      ∃ process pinned, (∀ entry ∈ s.entries, entry.owner ≠ (process, lairId)) ∧
        (∀ cooldown ∈ s.cooldowns, cooldown.until_ > now →
          ¬ (cooldown.identity = .of peer ∧ cooldown.lairId = lairId)) ∧ s.entries.length < maxPendingTotal ∧
        s' = ((s.prune now).openRequest peer process lairId scopes agentName now unixNow pinned).2 := by
  intro s'
  have hs' : s' = (s.admitRequest peer lairId scopes agentName now unixNow openPidfd).2 := rfl
  unfold admitRequest at hs'
  split at hs'
  · exact .inl hs'
  · rename_i process hprocess
    by_cases hclosed : s.closed
    · rw [if_pos hclosed] at hs'
      exact .inl hs'
    · rw [if_neg hclosed] at hs'
      dsimp only at hs'
      split at hs'
      · exact .inr (.inl ⟨_, hs'⟩)
      · split at hs'
        · unfold join at hs'
          split at hs'
          · exact .inr (.inl ⟨_, hs'⟩)
          · exact .inr (.inr (.inl ⟨_, hs'⟩))
        · rename_i hnone
          split at hs'
          · exact .inr (.inl ⟨_, hs'⟩)
          · rename_i hcooldown
            split at hs'
            · exact .inr (.inl ⟨_, hs'⟩)
            · rename_i hfull
              split at hs'
              · exact .inr (.inl ⟨_, hs'⟩)
              · rename_i pinned hpinned
                refine .inr (.inr (.inr ⟨process, pinned, ?_, ?_, Nat.lt_of_not_le hfull, hs'⟩))
                · intro entry hentry howner
                  have hfind := find?_eq_none.mp hnone entry hentry
                  rw [Prod.mk.injEq] at howner
                  exact hfind (decide_eq_true howner)
                · intro cooldown hmem huntil hpair
                  refine hcooldown (any_eq_true.mpr ⟨cooldown, ?_, decide_eq_true hpair⟩)
                  exact mem_filter.mpr ⟨hmem, decide_eq_true huntil⟩

/-! ## Runs -/

inductive Op (ρ : Type) where
  | admitRequest (peer : PeerIdentity) (lairId : LairId) (scopes : List AccessScope)
      (agentName : Option String) (now : Instant) (unixNow : Nat)
      (openPidfd : ProcessKey → Except ProtocolError PinnedRequester)
  | claimPrompter
  | releasePrompter
  | nextPrompt
  | deny (requestId : Nat) (now : Instant)
  | endRequest (requestId : Nat) (error : ProtocolError)
  | expire (requestId : Nat) (now : Instant)
  | cancel (process : ProcessKey) (lairId : LairId) (requestId : Nat)
  | cancelAll
  | close
  | publishIfLive (requestId : Nat)
  | endLair (lairId : LairId)
  | endAllAtFence
  | beginCommit (requestId : Nat)
  | finishCommit (requestId : Nat) (outcome : Outcome ρ)
  | dropReceiver (channel : Nat)

/-- The clock reading an operation was called with. -/
def Op.now : Op ρ → Instant
  | .admitRequest _ _ _ _ now _ _ | .deny _ now | .expire _ now => now
  | _ => 0

def step : Op ρ → PendingAccess ρ → PendingAccess ρ
  | .admitRequest peer lairId scopes agentName now unixNow openPidfd, s =>
    (s.admitRequest peer lairId scopes agentName now unixNow openPidfd).2
  | .claimPrompter, s => s.claimPrompter.2
  | .releasePrompter, s => s.releasePrompter
  | .nextPrompt, s => s.nextPrompt.2
  | .deny requestId now, s => (s.deny requestId now).2
  | .endRequest requestId error, s => (s.endRequest requestId error).2
  | .expire requestId now, s => (s.expire requestId now).2
  | .cancel process lairId requestId, s => (s.cancel process lairId requestId).2
  | .cancelAll, s => s.cancelAll.2
  | .close, s => s.close.2
  | .publishIfLive requestId, s => (s.publishIfLive requestId ()).2
  | .endLair lairId, s => (s.endLair lairId).2
  | .endAllAtFence, s => s.endAllAtFence.2
  | .beginCommit requestId, s => (s.beginCommit requestId).2
  | .finishCommit requestId outcome, s => (s.finishCommit requestId outcome).2
  | .dropReceiver channel, s => s.dropReceiver channel

/-- The registries reached at a time. Time does not go back; a call may have read the clock before
it got the lock. -/
inductive Reaches : Instant → PendingAccess ρ → Prop
  | new (time : Instant) : Reaches time new
  | step {time time' : Instant} {s : PendingAccess ρ} (op : Op ρ) (h : Reaches time s)
      (htime : time ≤ time') (hnow : op.now ≤ time') : Reaches time' (step op s)

structure Inv (time : Instant) (s : PendingAccess ρ) : Prop where
  ok : s.Ok
  owners : (s.entries.map Entry.owner).Nodup
  bounded : s.entries.length ≤ maxPendingTotal
  cooling : ∀ cooldown ∈ s.started, time < cooldown.until_ → cooldown ∈ s.cooldowns

section Invariant

variable {time time' : Instant} {s s' : PendingAccess ρ}

section

variable (h : Inv time s) (htime : time ≤ time')

include h htime

theorem Inv.keeps (hkeeps : Keeps s s') : Inv time' s' where
  ok := hkeeps.ok
  owners := h.owners.sublist hkeeps.owners
  bounded := by
    have hle := hkeeps.owners.length_le
    rw [length_map, length_map] at hle
    exact hle.trans h.bounded
  cooling := by
    rw [hkeeps.started, hkeeps.cooldowns]
    exact fun cooldown hmem hlt => h.cooling cooldown hmem (htime.trans_lt hlt)

/-- A cooldown that still runs is not pruned. -/
theorem Inv.cooling_prune {now : Instant} (hnow : now ≤ time') :
    ∀ cooldown ∈ s.started, time' < cooldown.until_ → cooldown ∈ (s.prune now).cooldowns := by
  intro cooldown hmem hlt
  have hruns : cooldown.until_ > now := hnow.trans_lt hlt
  exact mem_filter.mpr ⟨h.cooling cooldown hmem (htime.trans_lt hlt), decide_eq_true hruns⟩

theorem Inv.admitRequest {now : Instant} (hnow : now ≤ time')
    (peer : PeerIdentity) (lairId : LairId) (scopes : List AccessScope) (agentName : Option String)
    (unixNow : Nat) (openPidfd : ProcessKey → Except ProtocolError PinnedRequester) :
    Inv time' (s.admitRequest peer lairId scopes agentName now unixNow openPidfd).2 := by
  have hcooling := h.cooling_prune htime hnow
  obtain heq | ⟨denials, heq⟩ | ⟨channel, heq⟩ | ⟨process, pinned, hnew, -, hroom, heq⟩ :=
    admit_cases peer lairId scopes agentName now unixNow openPidfd s
  · rw [heq]
    exact h.keeps htime (.refl h.ok)
  · rw [heq]
    exact ⟨h.ok, h.owners, h.bounded, hcooling⟩
  · rw [heq]
    exact ⟨Consistent.modify h.ok fun _ => rfl, h.owners, h.bounded, hcooling⟩
  · rw [heq]
    constructor
    · exact Consistent.push h.ok rfl rfl rfl
    · show ((s.entries ++ [_]).map Entry.owner).Nodup
      rw [map_append, nodup_append_comm]
      refine nodup_cons.mpr ⟨fun hmem => ?_, h.owners⟩
      obtain ⟨entry, hentry, howner⟩ := mem_map.mp hmem
      exact hnew entry hentry howner
    · show (s.entries ++ [_]).length ≤ maxPendingTotal
      rw [length_append]
      exact hroom
    · exact hcooling

theorem Inv.deny (requestId : Nat) (now : Instant) : Inv time' (s.deny requestId now).2 := by
  unfold PendingAccess.deny
  split
  · exact h.keeps htime (.refl h.ok)
  · rename_i pre entry post hsplit
    split
    · exact h.keeps htime (.refl h.ok)
    · rename_i hphase
      have hgone := h.keeps htime (keeps_remove h.ok (splitFirst_eq_some hsplit).1 (.ended denied)
        s.revision (some denied) (by rw [not_not.mp hphase]; rfl)
        fun _ he => congrArg Outcome.failed (some.inj he))
      refine ⟨hgone.ok, hgone.owners, hgone.bounded, fun cooldown hmem hlt => ?_⟩
      rcases mem_append.mp hmem with hmem | hmem
      · exact mem_append_left _ (h.cooling cooldown hmem (htime.trans_lt hlt))
      · exact mem_append_right _ hmem

end

theorem Inv.step (h : Inv time s) (op : Op ρ) (htime : time ≤ time') (hnow : op.now ≤ time') :
    Inv time' (step op s) := by
  cases op with
  | admitRequest => exact h.admitRequest htime hnow ..
  | deny => exact h.deny htime ..
  | claimPrompter | releasePrompter => exact h.keeps htime ⟨h.ok, .refl _, rfl, rfl⟩
  | nextPrompt => exact h.keeps htime (keeps_nextPrompt h.ok)
  | endRequest | expire | cancel | cancelAll | endLair | endAllAtFence => exact h.keeps htime (keeps_ended h.ok ..)
  | close =>
    have hclosed : Keeps s { s with closed := true } := ⟨h.ok, .refl _, rfl, rfl⟩
    exact h.keeps htime (hclosed.trans (keeps_ended (s := { s with closed := true }) h.ok ..))
  | publishIfLive => exact h.keeps htime (keeps_publishIfLive h.ok ..)
  | beginCommit => exact h.keeps htime (keeps_beginCommit h.ok ..)
  | finishCommit => exact h.keeps htime (keeps_finishCommit h.ok ..)
  | dropReceiver => exact h.keeps htime (keeps_dropReceiver h.ok ..)

theorem Reaches.inv (h : Reaches time s) : Inv time s := by
  induction h with
  | new time => exact ⟨.empty, .nil, Nat.zero_le _, fun _ hmem => absurd hmem not_mem_nil⟩
  | step op _ htime hnow ih => exact ih.step op htime hnow

/-- The stage every opened request has reached, and what its callers are given there. -/
theorem Inv.staged (h : Inv time s) (channel : Nat) :
    ∃ stage, requestLifecycle.run (s.history channel) = some stage ∧ ∀ error, stage.EndedWith error →
        s.value channel = none ∧ channel ∈ s.entries.map (·.outcome) ∨ s.value channel = some (.failed error) := by
  by_cases hlt : channel < s.channels.length
  · by_cases hmem : channel ∈ s.entries.map (·.outcome)
    · obtain ⟨entry, hentry, rfl⟩ := mem_map.mp hmem
      obtain ⟨hrun, hvalue⟩ := h.ok.live entry hentry
      refine ⟨_, hrun, fun error _ => .inl ⟨?_, hmem⟩⟩
      rw [value, hvalue]
      rfl
    · obtain ⟨result, hrun, hvalue⟩ := h.ok.gone channel hlt hmem
      refine ⟨_, hrun, fun error hended => .inr ?_⟩
      obtain hended | hended := hended
      · exact Stage.noConfusion hended
      · rw [value, hvalue error (Stage.closed.inj hended)]
        rfl
  · refine ⟨.absent, ?_, fun error hended => ?_⟩
    · rw [history, h.ok.fresh channel (Nat.le_of_not_lt hlt)]
      rfl
    · obtain hended | hended := hended <;> exact Stage.noConfusion hended

/-- An end operation counts the ends it enters in the log. -/
theorem endFrom_log (error : ProtocolError) (selected : Entry → Bool) (entries : List Entry) (s : PendingAccess ρ) :
    ∃ channels : List Nat, (s.endFrom error selected entries).1 = channels.length ∧
      (s.endFrom error selected entries).2.log = s.log ++ channels.map (·, .ended error) := by
  induction entries generalizing s with
  | nil => exact ⟨[], rfl, by simp [endFrom]⟩
  | cons entry rest ih =>
    rw [endFrom]
    split
    · exact ih _
    · dsimp only
      split
      all_goals
        obtain ⟨channels, hcount, hlog⟩ := ih _
        refine ⟨entry.outcome :: channels, congrArg (· + 1) hcount, hlog.trans ?_⟩
        simp [note, deliver]

theorem publishIfLive_log (requestId : Nat) (s : PendingAccess ρ) :
    (s.publishIfLive requestId ()).1.isSome = true ↔
      ∃ channel, (s.publishIfLive requestId ()).2.log = s.log ++ [(channel, .published)] := by
  unfold publishIfLive
  split
  · simp
  · split
    · simp
    · exact iff_of_true rfl ⟨_, rfl⟩

end Invariant

/-- A request granted by the person, whose access is revoked while the grant is being committed. -/
def revokedDuringCommit : PendingAccess Unit :=
  step (.finishCommit 1 (.granted ())) (step (.publishIfLive 1) (step .cancelAll
    (step (.beginCommit 1) (step .nextPrompt
      (step (.admitRequest ⟨1000, 7, "agent", 1, 2, 0, none, none, some 5, none⟩ ⟨1⟩ [.observe] none 0 0
        fun _ => .ok ⟨3, (1, 2)⟩) new)))))

theorem revokedDuringCommit_reaches : Reaches 0 revokedDuringCommit :=
  .step _ (.step _ (.step _ (.step _ (.step _ (.step _ (.new 0) le_rfl le_rfl) le_rfl le_rfl) le_rfl le_rfl)
    le_rfl le_rfl) le_rfl le_rfl) le_rfl le_rfl

end PendingAccess

end Splinterm.Daemon
