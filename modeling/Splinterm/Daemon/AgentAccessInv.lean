import Splinterm.Daemon.AgentAccess

/-!
# What memory and the store file have in common

Memory operations may run while a commit or a flush writes. The invariant therefore
says what memory still has in common with the snapshot the write was made from: the
same definitions, except those that became pending removals since. The operations that
only take the memory lock keep it: they drop grants whose removal is then owed, or set
one last-used time.
-/

namespace Splinterm.Daemon

open Core Lib List

/-- The definition without its last-used time. -/
def RememberedEntry.strip (entry : RememberedEntry) : RememberedEntry :=
  { entry with lastUsedUnixSeconds := none }

def Writing.replaced (writing : Writing) : Bool :=
  match writing.result with
  | some (.ok _) => true
  | some (.error (.notDurable _ _)) => true
  | _ => false

namespace AgentAccess

def liveIds (s : AgentAccess) : List EntryId := s.remembered.map (·.entry.id)

def pendingIds (s : AgentAccess) : List EntryId := s.pendingRemovals.map (·.id)

/-- What the store file holds now. -/
def file (s : AgentAccess) : List RememberedEntry := s.contents.headD []

def definitions (s : AgentAccess) : List RememberedEntry := s.remembered.map (·.entry.strip)

/-- A write has replaced the file and memory does not know yet. -/
def replaced (s : AgentAccess) : Bool := s.writing.any Writing.replaced

/-- The entry of a commit whose write has replaced the file. -/
def committing (s : AgentAccess) (id : EntryId) : Prop :=
  ∃ writing entry, s.writing = some writing ∧ writing.replaced = true ∧ writing.commit = some entry ∧ entry.id = id

/-- What memory has in common with the write in progress. -/
structure WritingInv (s : AgentAccess) (w : Writing) : Prop where
  definitions : s.definitions = (w.snapshot.map RememberedEntry.strip).filter fun entry => entry.id ∉ s.pendingIds
  ids : (w.snapshot.map (·.id)).Nodup
  alive : ∀ entry ∈ w.snapshot, entry.id ∉ w.deadBefore
  dead : ∀ id ∈ w.deadBefore, id ∈ s.dead
  flush : w.commit = none → w.proposal = w.snapshot
  commit : ∀ entry, w.commit = some entry →
    w.proposal = w.snapshot.filter (fun other => other.key ≠ entry.key) ++ [entry] ∧
    entry.id ∉ w.snapshot.map (·.id) ∧ entry.id ∉ s.dead ∧ entry.id ∈ s.used ∧ entry.lastUsedUnixSeconds = none
  lastUsed : ∀ grant ∈ s.remembered, ∀ entry ∈ w.snapshot, entry.id = grant.entry.id →
    grant.entry.lastUsedUnixSeconds = grant.persistedLastUsed → entry.lastUsedUnixSeconds = grant.persistedLastUsed
  replaced : w.replaced = true → s.file = w.proposal
  durable : w.result = some (.ok ()) → s.contents = [w.proposal]

/-- What is remembered, owed, dead and used. -/
structure Ledger (s : AgentAccess) : Prop where
  keys : (s.remembered.map (·.entry.key)).Nodup
  ids : s.liveIds.Nodup
  used : ∀ id, id ∈ s.liveIds ∨ id ∈ s.dead → id ∈ s.used
  alive : ∀ id ∈ s.liveIds, id ∉ s.dead
  pending : ∀ id ∈ s.pendingIds, id ∈ s.dead
  flushed : ∀ id ∈ s.flushed, id ∈ s.dead ∧ id ∉ s.pendingIds

structure Inv (s : AgentAccess) : Prop extends Ledger s where
  covered : ∀ content ∈ s.contents, ∀ entry ∈ content,
    entry.id ∈ s.liveIds ∨ entry.id ∈ s.pendingIds ∨ s.committing entry.id
  settled : s.replaced = false → s.pendingRemovals = [] → s.file.map RememberedEntry.strip = s.definitions
  lastUsed : s.replaced = false → ∀ grant ∈ s.remembered, grant.entry.lastUsedUnixSeconds = grant.persistedLastUsed →
    ∀ entry ∈ s.file, entry.id = grant.entry.id → entry.lastUsedUnixSeconds = grant.persistedLastUsed
  writing : ∀ w, s.writing = some w → WritingInv s w

/-! ## Operations that leave the file alone -/

section Memory

variable {s s' : AgentAccess}

variable {id : EntryId} {pending : List RememberedEntry}

theorem mem_map_filter {α β : Type} {f : α → β} {b : β} {l : List α} (q : β → Prop) [DecidablePred q] :
    b ∈ (l.filter fun a => q (f a)).map f ↔ b ∈ l.map f ∧ q b := by
  have hmap : (l.map f).filter (fun b => q b) = (l.filter fun a => q (f a)).map f := filter_map
  rw [← hmap, mem_filter, decide_eq_true_eq]

theorem mem_insertPending {entry : RememberedEntry} :
    id ∈ (insertPending entry pending).map (·.id) ↔ id ∈ pending.map (·.id) ∨ id = entry.id := by
  unfold insertPending
  rw [map_append, mem_append, mem_map_filter (· ≠ entry.id)]
  by_cases hid : id = entry.id <;> simp [hid]

theorem definitions_id (s : AgentAccess) : s.definitions.map (·.id) = s.liveIds := by
  unfold definitions liveIds
  rw [map_map]
  rfl

/-- What memory holds during a write it held when the write began. -/
theorem WritingInv.mem_snapshot {w : Writing} (h : WritingInv s w)
    (hid : id ∈ s.liveIds) : id ∈ w.snapshot.map (·.id) := by
  rw [← definitions_id, h.definitions] at hid
  obtain ⟨other, hother, rfl⟩ := mem_map.mp hid
  obtain ⟨entry, hentry, rfl⟩ := mem_map.mp (mem_of_mem_filter hother)
  exact mem_map.mpr ⟨entry, hentry, rfl⟩

theorem not_mem_pendingIds (h : s.pendingRemovals = []) : id ∉ s.pendingIds := by
  rw [pendingIds, h]
  exact not_mem_nil

theorem not_committing (h : s.replaced = false) : ¬ s.committing id := by
  rintro ⟨w, -, hw, hreplaced, -⟩
  rw [replaced, hw, Option.any_some, hreplaced] at h
  cases h

/-- Without a commit in the file, every entry it may hold is remembered or owed. -/
theorem Inv.live_or_pending (h : Inv s) (hnot : ∀ id, ¬ s.committing id)
    {content : List RememberedEntry} (hcontent : content ∈ s.contents) {entry : RememberedEntry}
    (hentry : entry ∈ content) : entry.id ∈ s.liveIds ∨ entry.id ∈ s.pendingIds := by
  obtain hlive | hpending | hcommitting := h.covered content hcontent entry hentry
  · exact .inl hlive
  · exact .inr hpending
  · exact absurd hcommitting (hnot _)

/-- Only the grants `gone` leave, and their removal is owed. -/
structure Drops (gone : List EntryId) (s s' : AgentAccess) : Prop where
  remembered : s'.remembered = s.remembered.filter fun grant => grant.entry.id ∉ gone
  live : gone ⊆ s.liveIds
  pending : ∀ id, id ∈ s'.pendingIds ↔ id ∈ s.pendingIds ∨ id ∈ gone
  dead : ∀ id, id ∈ s'.dead ↔ id ∈ s.dead ∨ id ∈ gone
  contents : s'.contents = s.contents
  writing : s'.writing = s.writing
  flushed : s'.flushed = s.flushed
  used : s'.used = s.used

variable {gone : List EntryId}

theorem Drops.mem_liveIds (hdrops : Drops gone s s') : id ∈ s'.liveIds ↔ id ∈ s.liveIds ∧ id ∉ gone := by
  unfold liveIds
  rw [hdrops.remembered]
  exact mem_map_filter (· ∉ gone)

/-- The grants that stay are those whose id is not pending now. -/
theorem Drops.definitions (hdrops : Drops gone s s') (h : Inv s) :
    s'.definitions = s.definitions.filter fun entry => entry.id ∉ s'.pendingIds := by
  unfold AgentAccess.definitions
  rw [hdrops.remembered, filter_map]
  refine congrArg _ (filter_congr fun grant hgrant => decide_eq_decide.mpr (not_congr ?_))
  have hfresh : grant.entry.id ∉ s.pendingIds := fun hmem => h.alive _ (mem_map_of_mem hgrant) (h.pending _ hmem)
  exact (or_iff_right hfresh).symm.trans (hdrops.pending _).symm

theorem Inv.drop (h : Inv s) (hdrops : Drops gone s s') : Inv s' := by
  have hfile : s'.file = s.file := by unfold file; rw [hdrops.contents]
  have hreplaced : s'.replaced = s.replaced := by unfold replaced; rw [hdrops.writing]
  have hdefinitions := hdrops.definitions h
  have hpending {id : EntryId} (hid : id ∈ s.pendingIds) : id ∈ s'.pendingIds := (hdrops.pending id).mpr (.inl hid)
  have hremembered {grant : RememberedGrant} (hgrant : grant ∈ s'.remembered) :
      grant ∈ s.remembered := by
    rw [hdrops.remembered] at hgrant
    exact mem_of_mem_filter hgrant
  refine
    { keys := ?keys, ids := ?ids, used := ?used, alive := ?alive,
      pending := ?pending, flushed := ?flushed, covered := ?covered, settled := ?settled,
      lastUsed := ?lastUsed, writing := ?writing }
  case keys =>
    rw [hdrops.remembered]
    exact h.keys.sublist (filter_sublist.map _)
  case ids =>
    unfold liveIds
    rw [hdrops.remembered]
    exact h.ids.sublist (filter_sublist.map _)
  case used =>
    intro id hid
    rw [hdrops.used]
    obtain hid | hid := hid
    · exact h.used id (.inl (hdrops.mem_liveIds.mp hid).1)
    · obtain hid | hgone := (hdrops.dead id).mp hid
      · exact h.used id (.inr hid)
      · exact h.used id (.inl (hdrops.live hgone))
  case alive =>
    intro id hid hdead
    obtain hdead | hgone := (hdrops.dead id).mp hdead
    · exact h.alive id (hdrops.mem_liveIds.mp hid).1 hdead
    · exact (hdrops.mem_liveIds.mp hid).2 hgone
  case pending =>
    intro id hid
    obtain hid | hid := (hdrops.pending id).mp hid
    · exact (hdrops.dead id).mpr (.inl (h.pending id hid))
    · exact (hdrops.dead id).mpr (.inr hid)
  case flushed =>
    intro id hid
    rw [hdrops.flushed] at hid
    obtain ⟨hdead, hfree⟩ := h.flushed id hid
    refine ⟨(hdrops.dead id).mpr (.inl hdead), fun hmem => ?_⟩
    obtain hmem | hgone := (hdrops.pending id).mp hmem
    · exact hfree hmem
    · exact h.alive id (hdrops.live hgone) hdead
  case covered =>
    intro content hcontent entry hentry
    rw [hdrops.contents] at hcontent
    obtain hlive | hpend | hcommitting := h.covered content hcontent entry hentry
    · by_cases hgone : entry.id ∈ gone
      · exact .inr (.inl ((hdrops.pending _).mpr (.inr hgone)))
      · exact .inl (hdrops.mem_liveIds.mpr ⟨hlive, hgone⟩)
    · exact .inr (.inl (hpending hpend))
    · refine .inr (.inr ?_)
      unfold committing
      rw [hdrops.writing]
      exact hcommitting
  case settled =>
    intro hnot hempty
    have hnone (id : EntryId) : id ∉ s'.pendingIds := not_mem_pendingIds hempty
    have hbefore : s.pendingRemovals = [] := eq_nil_iff_forall_not_mem.mpr fun entry hentry =>
      hnone entry.id (hpending (mem_map_of_mem hentry))
    rw [hfile, hdefinitions, h.settled (hreplaced ▸ hnot) hbefore]
    exact (filter_eq_self.mpr fun entry _ => decide_eq_true (hnone entry.id)).symm
  case lastUsed =>
    intro hnot grant hgrant
    rw [hfile]
    exact h.lastUsed (hreplaced ▸ hnot) grant (hremembered hgrant)
  case writing =>
    intro w hw
    rw [hdrops.writing] at hw
    have hwriting := h.writing w hw
    refine
      { hwriting with
        definitions := ?_, dead := fun id hid => (hdrops.dead id).mpr (.inl (hwriting.dead id hid)),
        commit := fun entry hentry => ?_,
        lastUsed := fun grant hgrant => hwriting.lastUsed grant (hremembered hgrant),
        replaced := hfile ▸ hwriting.replaced, durable := hdrops.contents ▸ hwriting.durable }
    · -- the grants that leave now are those of the snapshot that became pending
      rw [hdefinitions, hwriting.definitions, filter_filter]
      refine filter_congr fun entry _ => ?_
      by_cases hmem : entry.id ∈ s'.pendingIds
      · simp [hmem]
      · have hmem' : entry.id ∉ s.pendingIds := fun hid => hmem (hpending hid)
        simp [hmem, hmem']
    · obtain ⟨hproposal, hnew, halive, hused, hlast⟩ := hwriting.commit entry hentry
      refine ⟨hproposal, hnew, fun hdead => ?_, hdrops.used ▸ hused, hlast⟩
      obtain hdead | hgone := (hdrops.dead _).mp hdead
      · exact halive hdead
      · exact hnew (hwriting.mem_snapshot (hdrops.live hgone))

theorem mem_foldl_insertPending {ended : List RememberedGrant} :
    id ∈ (ended.foldl (fun pending grant => insertPending grant.entry pending) pending).map (·.id) ↔
      id ∈ pending.map (·.id) ∨ id ∈ ended.map (·.entry.id) := by
  induction ended generalizing pending with
  | nil => simp
  | cons grant ended ih => rw [foldl_cons, ih, mem_insertPending, or_assoc, map_cons, mem_cons]

/-- Nothing the invariant speaks about changed. -/
structure Same (s s' : AgentAccess) : Prop where
  remembered : s'.remembered = s.remembered := by rfl
  pending : s'.pendingRemovals = s.pendingRemovals := by rfl
  contents : s'.contents = s.contents := by rfl
  writing : s'.writing = s.writing := by rfl
  dead : s'.dead = s.dead := by rfl
  flushed : s'.flushed = s.flushed := by rfl
  used : s'.used = s.used := by rfl

theorem drops_dropRemembered {ended kept : List RememberedGrant} {base : AgentAccess} (h : Same s base)
    (hended : ended ⊆ s.remembered)
    (hkept : kept = s.remembered.filter fun grant => grant.entry.id ∉ ended.map (·.entry.id)) :
    Drops (ended.map (·.entry.id)) s (dropRemembered ended kept base) := by
  refine ⟨hkept, map_subset _ hended, fun id => ?_, fun id => ?_, h.contents, h.writing, h.flushed, h.used⟩
  · exact mem_foldl_insertPending.trans (by rw [h.pending]; rfl)
  · exact mem_append.trans (by rw [h.dead, or_comm])

theorem Drops.advanceRevision (h : Drops gone s s') : Drops gone s s'.advanceRevision :=
  { h with }

/-- With unique ids a grant stays just if no grant that leaves has its id. -/
theorem filter_ended (h : s.liveIds.Nodup) (p : RememberedGrant → Bool) : s.remembered.filter (fun grant => !p grant) =
    s.remembered.filter fun grant => grant.entry.id ∉ (s.remembered.filter p).map (·.entry.id) := by
  refine filter_congr fun grant hgrant => ?_
  cases hp : p grant with
  | true => exact (decide_eq_false (not_not.mpr (mem_map_of_mem (mem_filter.mpr ⟨hgrant, hp⟩)))).symm
  | false =>
    have hstays : grant.entry.id ∉ (s.remembered.filter p).map (·.entry.id) := by
      intro hmem
      obtain ⟨other, hother, hid⟩ := mem_map.mp hmem
      obtain ⟨hother, hpother⟩ := mem_filter.mp hother
      rw [inj_on_of_nodup_map h hother hgrant hid, hp] at hpother
      cases hpother
    exact (decide_eq_true hstays).symm

theorem drops_revokeRemembered (h : Inv s) (entryId : EntryId) : (s.revokeRemembered entryId).2 = s ∨
    Drops [entryId] s (s.revokeRemembered entryId).2 := by
  unfold revokeRemembered
  split
  · exact .inl rfl
  · rename_i pre grant post hsplit
    obtain ⟨hlist, hid, -⟩ := splitFirst_eq_some hsplit
    rw [decide_eq_true_eq] at hid
    subst hid
    have hothers : ∀ other ∈ pre ++ post, other.entry.id ≠ grant.entry.id := by
      have hids := h.ids
      unfold liveIds at hids
      rw [hlist, map_append, map_cons, nodup_middle, nodup_cons, ← map_append] at hids
      exact fun other hother heq => hids.1 (heq ▸ mem_map_of_mem hother)
    have hdrops : Drops [grant.entry.id] s (dropRemembered [grant] (pre ++ post) s) := by
      refine drops_dropRemembered {} (cons_subset.mpr ⟨by rw [hlist]; simp, nil_subset _⟩) ?_
      rw [hlist, filter_append, filter_cons_of_neg (by simp), ← filter_append]
      refine (filter_eq_self.mpr fun other hother => ?_).symm
      simpa using hothers other hother
    exact .inr hdrops.advanceRevision

theorem drops_endLair (h : Inv s) (lairId : LairId) : ∃ gone, Drops gone s (s.endLair lairId).2 := by
  unfold endLair
  rw [partition_eq_filter_filter, partition_eq_filter_filter]
  dsimp only
  have hsame : Same s { s with
      endedLairs := lairId :: s.endedLairs
      sessions := s.sessions.filter (not ∘ fun grant => decide (grant.lairId = lairId)) } := {}
  have hdrops := drops_dropRemembered hsame (filter_subset_self _)
    (filter_ended h.ids fun grant => grant.entry.lairId = lairId)
  split
  · exact ⟨_, hdrops⟩
  · exact ⟨_, hdrops.advanceRevision⟩

theorem drops_revokeAll (h : Inv s) : ∃ gone, Drops gone s s.revokeAll.2 := by
  have hall : s.remembered.filter (fun _ => true) = s.remembered := filter_true _
  have hnone : s.remembered.filter (fun _ => !true) = [] := filter_false _
  have hsame : Same s { s with sessions := [] } := {}
  have hkept := filter_ended h.ids fun _ => true
  rw [hall, hnone] at hkept
  have hdrops := drops_dropRemembered hsame (Subset.refl _) hkept
  unfold revokeAll
  dsimp only
  split
  · exact ⟨_, hdrops⟩
  · exact ⟨_, hdrops.advanceRevision⟩

theorem Inv.same (h : Inv s) (hsame : Same s s') : Inv s' := by
  cases s
  obtain ⟨rfl, rfl, rfl, rfl, rfl, rfl, rfl⟩ := hsame
  exact { h with writing := fun w hw => { h.writing w hw with } }

/-- An authorization sets one last-used time, not back to the persisted one. -/
theorem Inv.touch (h : Inv s) {pre post : List RememberedGrant} {grant : RememberedGrant} {now : Nat}
    (hlist : s.remembered = pre ++ grant :: post)
    (hnow : grant.persistedLastUsed = some now → grant.entry.lastUsedUnixSeconds = some now) :
    Inv { s with remembered :=
      pre ++ { grant with entry := { grant.entry with lastUsedUnixSeconds := some now } } :: post } := by
  let touched := pre ++ { grant with entry := { grant.entry with lastUsedUnixSeconds := some now } } :: post
  have hmap {α : Type} (f : RememberedGrant → α) (hf : f { grant with
      entry := { grant.entry with lastUsedUnixSeconds := some now } } = f grant) :
      touched.map f = s.remembered.map f := by
    rw [hlist, map_append, map_cons, hf, map_append, map_cons]
  have hlive : { s with remembered := touched }.liveIds = s.liveIds := hmap _ rfl
  have hdefinitions : { s with remembered := touched }.definitions = s.definitions := hmap _ rfl
  -- a last-used time that equals the persisted one now did so before
  have hbefore {current : RememberedGrant} (hcurrent : current ∈ touched)
      (hlast : current.entry.lastUsedUnixSeconds = current.persistedLastUsed) :
      ∃ former ∈ s.remembered, former.entry.id = current.entry.id ∧
        former.persistedLastUsed = current.persistedLastUsed ∧
        former.entry.lastUsedUnixSeconds = former.persistedLastUsed := by
    rw [hlist]
    obtain rfl | hcurrent := mem_around.mp hcurrent
    · have hlast' : grant.persistedLastUsed = some now := hlast.symm
      exact ⟨grant, mem_around.mpr (.inl rfl), rfl, rfl, (hnow hlast').trans hlast'.symm⟩
    · exact ⟨current, mem_around.mpr (.inr hcurrent), rfl, rfl, hlast⟩
  refine { h with
    keys := hmap (·.entry.key) rfl ▸ h.keys
    ids := hlive ▸ h.ids
    used := hlive ▸ h.used
    alive := hlive ▸ h.alive
    covered := fun content hcontent entry hentry => hlive ▸ h.covered content hcontent entry hentry
    settled := hdefinitions ▸ h.settled
    lastUsed := ?lastUsed
    writing := ?writing }
  case lastUsed =>
    intro hnot current hcurrent hlast entry hentry hid
    obtain ⟨former, hformer, hsameId, hpersisted, hformerLast⟩ := hbefore hcurrent hlast
    rw [← hpersisted]
    exact h.lastUsed hnot former hformer hformerLast entry hentry (hid.trans hsameId.symm)
  case writing =>
    intro w hw
    have hwriting := h.writing w hw
    refine { hwriting with definitions := hdefinitions ▸ hwriting.definitions, lastUsed := ?_ }
    intro current hcurrent entry hentry hid hlast
    obtain ⟨former, hformer, hsameId, hpersisted, hformerLast⟩ := hbefore hcurrent hlast
    rw [← hpersisted]
    exact hwriting.lastUsed former hformer entry hentry (hid.trans hsameId.symm) hformerLast

end Memory

end AgentAccess

end Splinterm.Daemon
