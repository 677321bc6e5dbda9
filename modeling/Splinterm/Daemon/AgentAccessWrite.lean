import Splinterm.Daemon.AgentAccessInv

/-!
# Writes of the remembered store

A commit or a flush begins with a snapshot, its write has one of three outcomes, and
its end records what came of it. Each of the three steps keeps the invariant, whatever
memory operations ran in between.
-/

namespace Splinterm.Daemon.AgentAccess

open Core Lib List

theorem eraseP_key {grants : List RememberedGrant} {key : DurableIdentity × LairId}
    (h : (grants.map (·.entry.key)).Nodup) :
    grants.eraseP (fun grant => grant.entry.key = key) = grants.filter fun grant => grant.entry.key ≠ key := by
  induction grants with
  | nil => rfl
  | cons grant grants ih =>
    rw [map_cons, nodup_cons] at h
    by_cases hkey : grant.entry.key = key
    · rw [eraseP_cons_of_pos (by simpa using hkey), filter_cons_of_neg (by simpa using hkey)]
      refine (filter_eq_self.mpr fun other hother => ?_).symm
      have hne : other.entry.key ≠ key := fun hsame => h.1 (hkey.trans hsame.symm ▸ mem_map_of_mem hother)
      exact decide_eq_true hne
    · rw [eraseP_cons_of_neg (by simpa using hkey), filter_cons_of_pos (by simpa using hkey), ih h.2]

section Writes

variable {s : AgentAccess} {used : List EntryId} {id : EntryId}

theorem rememberedEntries_map {α : Type} (f : RememberedEntry → α) :
    s.rememberedEntries.map f = s.remembered.map fun grant => f grant.entry := map_map

theorem Inv.snapshot (h : Inv s) :
    s.definitions = (s.rememberedEntries.map RememberedEntry.strip).filter
      fun entry => entry.id ∉ s.pendingIds := by
  rw [rememberedEntries_map]
  refine (filter_eq_self.mpr fun entry hentry => ?_).symm
  have hlive : entry.id ∈ s.liveIds := definitions_id s ▸ mem_map_of_mem hentry
  have hnot : entry.id ∉ s.pendingIds := fun hmem => h.alive _ hlive (h.pending _ hmem)
  exact decide_eq_true hnot

theorem Inv.lastUsed_snapshot (h : Inv s) : ∀ grant ∈ s.remembered, ∀ entry ∈ s.rememberedEntries,
    entry.id = grant.entry.id → grant.entry.lastUsedUnixSeconds = grant.persistedLastUsed →
    entry.lastUsedUnixSeconds = grant.persistedLastUsed := by
  intro grant hgrant entry hentry hid hlast
  obtain ⟨other, hother, rfl⟩ := mem_map.mp hentry
  rw [inj_on_of_nodup_map h.ids hother hgrant hid]
  exact hlast

theorem Ledger.bury (h : Ledger s) (hlive : id ∉ s.liveIds) (hid : id ∈ used) (hused : ∀ other ∈ s.used, other ∈ used) :
    Ledger { s with dead := id :: s.dead, used } := by
  refine { h with
    used := fun other hother => ?_
    alive := fun other hother hdead => ?_
    pending := fun other hother => mem_cons_of_mem _ (h.pending other hother)
    flushed := fun other hother => ⟨mem_cons_of_mem _ (h.flushed other hother).1, (h.flushed other hother).2⟩ }
  · obtain hother | hother := hother
    · exact hused other (h.used other (.inl hother))
    · rcases mem_cons.mp hother with rfl | hother
      · exact hid
      · exact hused other (h.used other (.inr hother))
  · rcases mem_cons.mp hdead with rfl | hdead
    · exact hlive hother
    · exact h.alive other hother hdead

variable {w : Writing}

/-- A write that has only begun agrees with memory, if what it commits is new. -/
theorem Inv.begun (h : Inv s) (hsnapshot : w.snapshot = s.rememberedEntries)
    (hdead : w.deadBefore = s.dead) (hresult : w.result = none)
    (hflush : w.commit = none → w.proposal = w.snapshot)
    (hcommit : ∀ entry, w.commit = some entry →
      w.proposal = w.snapshot.filter (fun other => other.key ≠ entry.key) ++ [entry] ∧
      entry.id ∉ w.snapshot.map (·.id) ∧ entry.id ∉ s.dead ∧ entry.id ∈ used ∧
      entry.lastUsedUnixSeconds = none) :
    WritingInv { s with writing := some w, used } w where
  definitions := hsnapshot ▸ h.snapshot
  ids := by
    rw [hsnapshot, rememberedEntries_map]
    exact h.ids
  alive entry hentry := by
    obtain ⟨grant, hgrant, rfl⟩ := mem_map.mp (hsnapshot ▸ hentry : entry ∈ s.rememberedEntries)
    exact hdead ▸ h.alive _ (mem_map_of_mem hgrant)
  dead id hid := hdead ▸ hid
  flush := hflush
  commit := hcommit
  lastUsed := hsnapshot ▸ h.lastUsed_snapshot
  replaced hreplaced := by
    rw [Writing.replaced, hresult] at hreplaced
    cases hreplaced
  durable hdurable := by
    rw [hresult] at hdurable
    cases hdurable

section

variable (h : Inv s) (hfree : s.writing = none)

include h hfree

theorem Inv.begin (hused : ∀ id ∈ s.used, id ∈ used) (hw : WritingInv { s with writing := some w, used } w) :
    Inv { s with writing := some w, used } := by
  have hbefore : s.replaced = false := by rw [replaced, hfree]; rfl
  refine
    { h with
      used := fun id hid => hused id (h.used id hid)
      covered := fun content hcontent entry hentry =>
        (h.live_or_pending (fun _ => not_committing hbefore) hcontent hentry).imp_right .inl
      settled := fun _ => h.settled hbefore
      lastUsed := fun _ => h.lastUsed hbefore
      writing := fun w' hw' => ?_ }
  obtain rfl := Option.some.inj hw'
  exact hw

theorem Inv.beginFlush : Inv s.beginFlush.2 := by
  unfold AgentAccess.beginFlush
  split
  · rename_i hneeded
    have hempty : s.pendingRemovals = [] := by
      have hnone : s.flushNeeded = false := by simpa using hneeded
      have hor := (Bool.or_eq_false_iff.mp hnone).1
      exact isEmpty_iff.mp (by simpa using hor)
    exact { h with
      flushed := forall_mem_append.mpr ⟨fun id hid => ⟨hid, not_mem_pendingIds hempty⟩, h.flushed⟩
      writing := fun w hw => absurd (hw.symm.trans hfree) (Option.some_ne_none _) }
  · refine h.begin hfree (fun _ hid => hid) ?_
    exact h.begun rfl rfl rfl (fun _ => rfl) fun _ hsome => absurd hsome.symm (Option.some_ne_none _)

theorem Inv.bury (hlive : id ∉ s.liveIds) (hid : id ∈ used) (hused : ∀ other ∈ s.used, other ∈ used) :
    Inv { s with dead := id :: s.dead, used } :=
  { h with
    toLedger := h.toLedger.bury hlive hid hused
    writing := fun _ hw => absurd (hw.symm.trans hfree) (Option.some_ne_none _) }

theorem Inv.beginCommit (hid : id ∉ s.used) (identity : DurableIdentity) (lairId : LairId) (access : AccessSet)
    (displayName : Option String) (unixSeconds : Nat) :
    Inv (s.beginCommit id identity lairId access displayName unixSeconds).2 := by
  have hlive : id ∉ s.liveIds := fun hmem => hid (h.used id (.inl hmem))
  unfold AgentAccess.beginCommit
  dsimp only
  split
  · exact h.bury hfree hlive mem_cons_self fun _ => mem_cons_of_mem _
  · refine h.begin hfree (fun _ => mem_cons_of_mem _) ?_
    refine h.begun rfl rfl rfl (fun hnone => absurd hnone (Option.some_ne_none _)) fun entry hentry => ?_
    obtain rfl := Option.some.inj hentry
    refine ⟨rfl, ?_, fun hdead => hid (h.used id (.inr hdead)), mem_cons_self, rfl⟩
    rwa [rememberedEntries_map]

end

/-- The three outcomes of a write. -/
theorem write_cases (proposal : List RememberedEntry) (fate : WriteFate) (s : AgentAccess) :
    (∃ error, (∀ stage text, error ≠ .notDurable stage text) ∧
      s.write proposal fate = (.error error, s)) ∨
    (∃ version, s.write proposal fate =
      (.ok (), { s with fileState := .loaded version, contents := [proposal] })) ∨
    ∃ version stage text, s.write proposal fate = (.error (.notDurable stage text),
        { s with fileState := .loaded version, contents := proposal :: s.contents }) := by
  unfold write
  dsimp only
  split
  · exact .inl ⟨_, fun _ _ => StoreWriteError.noConfusion, rfl⟩
  all_goals
    split
    · exact .inl ⟨_, fun _ _ => StoreWriteError.noConfusion, rfl⟩
    · cases fate with
      | durable => exact .inr (.inl ⟨_, rfl⟩)
      | notDurable stage text => exact .inr (.inr ⟨_, stage, text, rfl⟩)
      | conflict | bounds | io => exact .inl ⟨_, fun _ _ => StoreWriteError.noConfusion, rfl⟩

variable {entry : RememberedEntry}

/-- An entry of the snapshot is still remembered or its removal is owed. -/
theorem WritingInv.live_or_pending (h : WritingInv s w)
    (hentry : entry ∈ w.snapshot) : entry.id ∈ s.liveIds ∨ entry.id ∈ s.pendingIds := by
  by_cases hmem : entry.id ∈ s.pendingIds
  · exact .inr hmem
  · refine .inl ?_
    rw [← definitions_id, h.definitions]
    exact mem_map.mpr ⟨entry.strip, mem_filter.mpr ⟨mem_map_of_mem hentry, decide_eq_true hmem⟩, rfl⟩

/-- So is every entry of the proposal, but the one being committed. -/
theorem WritingInv.proposal (h : WritingInv s w) (hentry : entry ∈ w.proposal) :
    entry ∈ w.snapshot ∨ w.commit = some entry := by
  cases hcommit : w.commit with
  | none =>
    rw [h.flush hcommit] at hentry
    exact .inl hentry
  | some committed =>
    rw [(h.commit committed hcommit).1] at hentry
    rcases mem_append.mp hentry with hentry | hentry
    · exact .inl (mem_of_mem_filter hentry)
    · rw [mem_singleton.mp hentry]
      exact .inr rfl

theorem WritingInv.file_of_durable (h : WritingInv s w) (hresult : w.result = some (.ok ())) : s.file = w.proposal := by
  rw [file, h.durable hresult]
  rfl

/-- The result of the write is known; the file is as it was, or holds the proposal. -/
theorem Inv.result (h : Inv s) (hw : s.writing = some w) {result : Except StoreWriteError Unit} {fileState : FileState}
    {contents : List (List RememberedEntry)} (hbefore : w.result = none)
    (hcontents : ∀ content ∈ contents, content ∈ s.contents ∨
      content = w.proposal ∧ { w with result := some result }.replaced = true)
    (hkept : { w with result := some result }.replaced = false → contents = s.contents)
    (hfile : { w with result := some result }.replaced = true → contents.headD [] = w.proposal)
    (hdurable : result = .ok () → contents = [w.proposal]) :
    Inv { s with
      fileState
      contents
      writing := some { w with result := some result } } := by
  have hwriting := h.writing w hw
  have hnot : s.replaced = false := by rw [replaced, hw, Option.any_some, Writing.replaced, hbefore]
  refine { h with
    covered := ?covered, settled := ?settled, lastUsed := ?lastUsed, writing := ?writing }
  case covered =>
    intro content hcontent entry hentry
    obtain hold | ⟨rfl, hreplaced⟩ := hcontents content hcontent
    · exact (h.live_or_pending (fun _ => not_committing hnot) hold hentry).imp_right .inl
    · obtain hsnapshot | hcommit := hwriting.proposal hentry
      · exact (hwriting.live_or_pending hsnapshot).imp_right .inl
      · exact .inr (.inr ⟨_, entry, rfl, hreplaced, hcommit, rfl⟩)
  case settled =>
    intro hreplaced hempty
    have hsame := hkept hreplaced
    subst hsame
    exact h.settled hnot hempty
  case lastUsed =>
    intro hreplaced
    have hsame := hkept hreplaced
    subst hsame
    exact h.lastUsed hnot
  case writing =>
    intro w' hw'
    obtain rfl := Option.some.inj hw'
    exact { hwriting with
      replaced := hfile, durable := fun hresult => hdurable (Option.some.inj hresult) }

theorem Inv.runWrite (h : Inv s) (fate : WriteFate) : Inv (s.runWrite fate) := by
  unfold AgentAccess.runWrite
  split
  · rename_i w hw
    split
    · rename_i hnone
      have hbefore : w.result = none := Option.isNone_iff_eq_none.mp hnone
      obtain ⟨error, herror, heq⟩ | ⟨version, heq⟩ | ⟨version, stage, text, heq⟩ :=
        write_cases w.proposal fate s
      · rw [heq]
        have hkept : { w with result := some (.error error) }.replaced = false := by
          cases error with
          | notDurable stage text => exact absurd rfl (herror stage text)
          | unavailable | conflict | bounds | io => rfl
        exact h.result hw hbefore (fun _ => .inl) (fun _ => rfl)
          (fun hreplaced => Bool.noConfusion (hkept.symm.trans hreplaced))
          fun hresult => by cases hresult
      · rw [heq]
        refine h.result hw hbefore (fun content hcontent => ?_) Bool.noConfusion (fun _ => rfl)
          fun _ => rfl
        exact .inr ⟨mem_singleton.mp hcontent, rfl⟩
      · rw [heq]
        refine h.result hw hbefore (fun content hcontent => ?_) Bool.noConfusion (fun _ => rfl)
          fun hresult => by cases hresult
        rcases mem_cons.mp hcontent with rfl | hold
        · exact .inr ⟨rfl, rfl⟩
        · exact .inl hold
    · exact h
  · exact h

/-! ## The end of a write -/

section Written

variable {proposal : List RememberedEntry}

theorem written_map {α : Type} (f : RememberedEntry → α) :
    (s.written proposal).2.remembered.map (fun grant => f grant.entry) = s.remembered.map fun grant => f grant.entry := by
  unfold written
  rw [map_map]
  refine map_congr_left fun grant _ => ?_
  dsimp only [Function.comp]
  split <;> rfl

theorem written_liveIds : (s.written proposal).2.liveIds = s.liveIds := written_map _

theorem written_definitions : (s.written proposal).2.definitions = s.definitions := written_map _

theorem mem_pending_written : id ∈ (s.written proposal).2.pendingIds ↔
    id ∈ s.pendingIds ∧ id ∈ proposal.map (·.id) := by
  exact mem_map_filter (· ∈ proposal.map (·.id))

/-- After a durable write the persisted last-used times are those written. -/
theorem persisted_written (hids : (proposal.map (·.id)).Nodup) {grant : RememberedGrant}
    (hgrant : grant ∈ (s.written proposal).2.remembered) {entry : RememberedEntry}
    (hentry : entry ∈ proposal) (hid : entry.id = grant.entry.id) :
    entry.lastUsedUnixSeconds = grant.persistedLastUsed := by
  obtain ⟨former, -, rfl⟩ := mem_map.mp hgrant
  cases hfind : proposal.find? fun other => other.id = former.entry.id with
  | none =>
    rw [hfind] at hid
    exact absurd (decide_eq_true hid) (find?_eq_none.mp hfind entry hentry)
  | some found =>
    rw [hfind] at hid
    have hfound : found.id = former.entry.id := by simpa using find?_some hfind
    have hsame : entry = found := inj_on_of_nodup_map hids hentry
      (mem_of_find?_eq_some hfind) (hid.trans hfound.symm)
    rw [hsame]

theorem not_pending_of_written (hempty : (s.written proposal).2.pendingRemovals = [])
    (hid : id ∈ proposal.map (·.id)) : id ∉ s.pendingIds := fun hmem =>
  not_mem_pendingIds hempty (mem_pending_written.mpr ⟨hmem, hid⟩)

theorem Ledger.written (h : Ledger s) (proposal : List RememberedEntry) : Ledger (s.written proposal).2 where
  keys := (written_map RememberedEntry.key).symm ▸ h.keys
  ids := written_liveIds.symm ▸ h.ids
  used := written_liveIds.symm ▸ h.used
  alive := written_liveIds.symm ▸ h.alive
  pending id hid := h.pending id (mem_pending_written.mp hid).1
  flushed id hid := ⟨(h.flushed id hid).1, fun hmem => (h.flushed id hid).2 (mem_pending_written.mp hmem).1⟩

end Written

section Finish

variable {w : Writing} (h : Inv s) (hw : s.writing = some w)
include h hw

theorem definitions_of_settled (hpending : ∀ id ∈ w.snapshot.map (·.id), id ∉ s.pendingIds) :
    w.snapshot.map RememberedEntry.strip = s.definitions := by
  rw [(h.writing w hw).definitions]
  refine (filter_eq_self.mpr fun entry hentry => ?_).symm
  obtain ⟨former, hformer, rfl⟩ := mem_map.mp hentry
  exact decide_eq_true (hpending former.id (mem_map_of_mem hformer))

theorem Inv.release (hnot : w.replaced = false) : Inv { s with writing := none } := by
  have hreplaced : s.replaced = false := by rw [replaced, hw, Option.any_some, hnot]
  exact
    { h with
      covered := fun content hcontent entry hentry =>
        (h.live_or_pending (fun _ => not_committing hreplaced) hcontent hentry).imp_right .inl
      settled := fun _ => h.settled hreplaced
      lastUsed := fun _ => h.lastUsed hreplaced
      writing := by rintro _ ⟨⟩ }

omit h in
theorem not_committing_of_flush (hflush : w.commit = none) (id : EntryId) : ¬ s.committing id := by
  rintro ⟨w', _, hw', -, hcommit, -⟩
  obtain rfl := Option.some.inj (hw.symm.trans hw')
  exact absurd (hcommit.symm.trans hflush) (Option.some_ne_none _)

/-- A flush replaced the file and could not make it durable: memory still owes the write. -/
theorem Inv.releaseFlush (hflush : w.commit = none) (hreplaced : w.replaced = true) :
    Inv { s with writing := none } := by
  have hwriting := h.writing w hw
  have hfile : s.file = w.snapshot := (hwriting.replaced hreplaced).trans (hwriting.flush hflush)
  refine
    { h with
      covered := fun content hcontent entry hentry =>
        (h.live_or_pending (not_committing_of_flush hw hflush) hcontent hentry).imp_right .inl
      settled := fun _ hempty => ?_
      lastUsed := ?_
      writing := by rintro _ ⟨⟩ }
  · show s.file.map RememberedEntry.strip = s.definitions
    rw [hfile]
    exact definitions_of_settled h hw fun _ _ => not_mem_pendingIds hempty
  · intro _ grant hgrant hlast entry hentry hid
    have hentry' : entry ∈ w.snapshot := hfile ▸ hentry
    exact hwriting.lastUsed grant hgrant entry hentry' hid hlast

/-- A flush was durable: what memory holds now is persisted, and removals it did not write are done. -/
theorem Inv.flushed_durable (hflush : w.commit = none) (hresult : w.result = some (.ok ())) :
    Inv { (s.written w.proposal).2 with
      flushed := w.deadBefore ++ s.flushed
      writing := none } := by
  have hwriting := h.writing w hw
  have hproposal := hwriting.flush hflush
  have hcontents : s.contents = [w.snapshot] := hproposal ▸ hwriting.durable hresult
  have hfile : s.file = w.snapshot := hproposal ▸ hwriting.file_of_durable hresult
  rw [hproposal]
  refine
    { h.toLedger.written w.snapshot with
      flushed := ?flushed, covered := ?covered, settled := ?settled, lastUsed := ?lastUsed
      writing := by rintro _ ⟨⟩ }
  case flushed =>
    refine forall_mem_append.mpr ⟨fun id hid => ⟨hwriting.dead id hid, fun hmem => ?_⟩,
      (h.toLedger.written w.snapshot).flushed⟩
    obtain ⟨entry, hentry, rfl⟩ := mem_map.mp (mem_pending_written.mp hmem).2
    exact hwriting.alive entry hentry hid
  case covered =>
    intro content hcontent entry hentry
    have hcontent' : content ∈ s.contents := hcontent
    rw [hcontents, mem_singleton] at hcontent'
    rw [hcontent'] at hentry
    obtain hlive | hpending := hwriting.live_or_pending hentry
    · exact .inl (written_liveIds.symm ▸ hlive)
    · exact .inr (.inl (mem_pending_written.mpr ⟨hpending, mem_map_of_mem hentry⟩))
  case settled =>
    intro _ hempty
    show s.file.map RememberedEntry.strip = (s.written w.snapshot).2.definitions
    rw [hfile, written_definitions]
    exact definitions_of_settled h hw fun _ => not_pending_of_written hempty
  case lastUsed =>
    intro _ grant hgrant _ entry hentry hid
    have hentry' : entry ∈ w.snapshot := hfile ▸ hentry
    exact persisted_written hwriting.ids hgrant hentry' hid

theorem exists_grant {other : RememberedEntry} (hother : other ∈ w.snapshot) (hlive : other.id ∈ s.liveIds) :
    ∃ grant ∈ (s.written w.proposal).2.remembered, grant.entry.strip = other.strip := by
  have hnot : other.id ∉ s.pendingIds := fun hmem => h.alive _ hlive (h.pending _ hmem)
  have hmem : other.strip ∈ (s.written w.proposal).2.definitions := by
    rw [written_definitions, (h.writing w hw).definitions]
    exact mem_filter.mpr ⟨mem_map_of_mem hother, decide_eq_true hnot⟩
  exact mem_map.mp hmem

variable {entry : RememberedEntry} (hcommit : w.commit = some entry)
include hcommit

theorem commit_not_live : entry.id ∉ s.liveIds := fun hmem =>
  ((h.writing w hw).commit entry hcommit).2.1 ((h.writing w hw).mem_snapshot hmem)

theorem proposal_ids : (w.proposal.map (·.id)).Nodup := by
  obtain ⟨hproposal, hnew, -⟩ := (h.writing w hw).commit entry hcommit
  rw [hproposal, map_append, nodup_append_comm]
  exact nodup_cons.mpr ⟨fun hmem => hnew ((filter_sublist.map _).mem hmem),
    (h.writing w hw).ids.sublist (filter_sublist.map _)⟩

/-- A commit whose entry reached the file grants nothing: its removal is owed. `base` is memory
after what the write completed. -/
theorem Inv.owe {base : AgentAccess} (hbase : Ledger base) (hlive : base.liveIds = s.liveIds)
    (hdead : base.dead = s.dead) (hused : base.used = s.used)
    (hcovered : ∀ content ∈ base.contents, ∀ other ∈ content,
      other.id ∈ s.liveIds ∨ other.id ∈ base.pendingIds ∨ other.id = entry.id)
    (hlast : ∀ grant ∈ base.remembered,
      grant.entry.lastUsedUnixSeconds = grant.persistedLastUsed →
      ∀ other ∈ base.file, other.id = grant.entry.id →
        other.lastUsedUnixSeconds = grant.persistedLastUsed) :
    Inv { base with
      pendingRemovals := insertPending entry base.pendingRemovals
      dead := entry.id :: base.dead
      writing := none } := by
  obtain ⟨-, -, halive, hentry, -⟩ := (h.writing w hw).commit entry hcommit
  have hburied := hbase.bury (hlive ▸ commit_not_live h hw hcommit) (hused ▸ hentry) fun _ hid => hid
  refine
    { hburied with
      pending := ?pending, flushed := ?flushed, covered := ?covered, settled := ?settled,
      lastUsed := fun _ => hlast,
      writing := by rintro _ ⟨⟩ }
  case pending =>
    intro id hid
    obtain hid | rfl := mem_insertPending.mp hid
    · exact hburied.pending id hid
    · exact mem_cons_self
  case flushed =>
    intro id hid
    refine ⟨(hburied.flushed id hid).1, fun hpend => ?_⟩
    obtain hpend | rfl := mem_insertPending.mp hpend
    · exact (hburied.flushed id hid).2 hpend
    · exact halive (hdead ▸ (hbase.flushed _ hid).1)
  case covered =>
    intro content hcontent other hother
    obtain hmem | hmem | hsame := hcovered content hcontent other hother
    · exact .inl (hlive ▸ hmem)
    · exact .inr (.inl (mem_insertPending.mpr (.inl hmem)))
    · exact .inr (.inl (mem_insertPending.mpr (.inr hsame)))
  case settled =>
    intro _ hempty
    have hmem : entry.id ∈ (insertPending entry base.pendingRemovals).map (·.id) :=
      mem_insertPending.mpr (.inr rfl)
    rw [show insertPending entry base.pendingRemovals = [] from hempty] at hmem
    exact absurd hmem not_mem_nil

theorem Inv.commit_notDurable (hreplaced : w.replaced = true) :
    Inv { s with
      pendingRemovals := insertPending entry s.pendingRemovals
      dead := entry.id :: s.dead
      writing := none } := by
  have hwriting := h.writing w hw
  have hfile : s.file = w.proposal := hwriting.replaced hreplaced
  refine Inv.owe h hw hcommit h.toLedger rfl rfl rfl ?_ ?_
  · intro content hcontent other hother
    obtain hlive | hpending | ⟨w', entry', hw', -, hcommit', hid⟩ := h.covered content hcontent other hother
    · exact .inl hlive
    · exact .inr (.inl hpending)
    · obtain rfl := Option.some.inj (hw.symm.trans hw')
      obtain rfl := Option.some.inj (hcommit.symm.trans hcommit')
      exact .inr (.inr hid.symm)
  · intro grant hgrant hlast other hother hid
    have hother' : other ∈ w.proposal := hfile ▸ hother
    obtain hsnapshot | hcommit' := hwriting.proposal hother'
    · exact hwriting.lastUsed grant hgrant other hsnapshot hid hlast
    · obtain rfl := Option.some.inj (hcommit.symm.trans hcommit')
      exact absurd (hid ▸ mem_map_of_mem hgrant) (commit_not_live h hw hcommit)

/-- What a durable commit left pending covers the file, but for the entry itself. -/
theorem covered_written (hresult : w.result = some (.ok ())) {content : List RememberedEntry}
    (hcontent : content ∈ s.contents) {other : RememberedEntry} (hother : other ∈ content) :
    (other ∈ w.snapshot ∧ other.key ≠ entry.key ∧
      (other.id ∈ s.liveIds ∨ other.id ∈ (s.written w.proposal).2.pendingIds)) ∨ other = entry := by
  have hwriting := h.writing w hw
  obtain ⟨hproposal, -⟩ := hwriting.commit entry hcommit
  rw [hwriting.durable hresult, mem_singleton] at hcontent
  have hmem : other ∈ w.proposal := hcontent ▸ hother
  have hid : other.id ∈ w.proposal.map (·.id) := mem_map_of_mem hmem
  rw [hproposal] at hmem
  rcases mem_append.mp hmem with hmem | hmem
  · obtain ⟨hsnapshot, hkey⟩ := mem_filter.mp hmem
    refine .inl ⟨hsnapshot, of_decide_eq_true hkey, ?_⟩
    obtain hlive | hpending := hwriting.live_or_pending hsnapshot
    · exact .inl hlive
    · exact .inr (mem_pending_written.mpr ⟨hpending, hid⟩)
  · exact .inr (mem_singleton.mp hmem)

theorem Inv.commit_ended (hresult : w.result = some (.ok ())) :
    Inv { (s.written w.proposal).2 with
      pendingRemovals := insertPending entry (s.written w.proposal).2.pendingRemovals
      dead := entry.id :: s.dead
      writing := none } := by
  have hwriting := h.writing w hw
  have hfile := hwriting.file_of_durable hresult
  refine Inv.owe h hw hcommit (h.toLedger.written w.proposal) written_liveIds rfl rfl ?_ ?_
  · intro content hcontent other hother
    obtain ⟨-, -, hlive | hpending⟩ | rfl := covered_written h hw hcommit hresult hcontent hother
    · exact .inl hlive
    · exact .inr (.inl hpending)
    · exact .inr (.inr rfl)
  · intro grant hgrant _ other hother hid
    have hother' : other ∈ w.proposal := hfile ▸ hother
    exact persisted_written (proposal_ids h hw hcommit) hgrant hother' hid

theorem definitions_granted (hnone : ∀ id ∈ w.proposal.map (·.id), id ∉ s.pendingIds) :
    w.proposal.map RememberedEntry.strip =
      (s.definitions.filter fun other => other.key ≠ entry.key) ++ [entry.strip] := by
  obtain ⟨hproposal, -⟩ := (h.writing w hw).commit entry hcommit
  rw [(h.writing w hw).definitions, filter_filter, filter_map, hproposal, map_append, map_singleton]
  refine congrArg (· ++ _) (congrArg _ (filter_congr fun other hother => ?_))
  show decide (other.key ≠ entry.key) = (decide (other.key ≠ entry.key) && decide (other.id ∉ s.pendingIds))
  by_cases hkey : other.key = entry.key
  · simp [hkey]
  · have hmem : other.id ∈ w.proposal.map (·.id) := by
      rw [hproposal]
      exact mem_map_of_mem
        (mem_append_left _ (mem_filter.mpr ⟨hother, decide_eq_true hkey⟩))
    simp [hkey, hnone _ hmem]

/-- The commit is granted: memory replaces the definition the file no longer holds. -/
theorem Inv.commit_granted (hresult : w.result = some (.ok ())) (grantId : Nat) :
    Inv { (s.written w.proposal).2 with
      remembered := (s.written w.proposal).2.remembered.eraseP
        (fun grant => grant.entry.key = entry.key) ++ [⟨grantId, entry, none, false⟩]
      writing := none } := by
  obtain ⟨hproposal, -, halive, hused, hnever⟩ := (h.writing w hw).commit entry hcommit
  have hids := proposal_ids h hw hcommit
  have hnew := commit_not_live h hw hcommit
  have hfile := (h.writing w hw).file_of_durable hresult
  have hbase := h.toLedger.written w.proposal
  rw [eraseP_key hbase.keys]
  have hkept {id : EntryId} (hid : id ∈ ((s.written w.proposal).2.remembered.filter
      (fun grant => grant.entry.key ≠ entry.key)).map (·.entry.id)) : id ∈ s.liveIds :=
    written_liveIds ▸ (filter_sublist.map _).mem hid
  have hgranted {kept : List RememberedGrant} {id : EntryId} :
      id ∈ (kept ++ [RememberedGrant.mk grantId entry none false]).map (·.entry.id) ↔
        id ∈ kept.map (·.entry.id) ∨ id = entry.id := by
    rw [map_append, mem_append, map_singleton, mem_singleton]
  refine
    { hbase with
      keys := ?keys, ids := ?ids, used := ?used, alive := ?alive, covered := ?covered, settled := ?settled,
      lastUsed := ?lastUsed, writing := by rintro _ ⟨⟩ }
  case keys =>
    rw [map_append, nodup_append_comm]
    exact nodup_cons.mpr ⟨fun hmem => ((mem_map_filter (· ≠ entry.key)).mp hmem).2 rfl,
      hbase.keys.sublist (filter_sublist.map _)⟩
  case ids =>
    unfold liveIds
    rw [map_append, nodup_append_comm]
    exact nodup_cons.mpr ⟨fun hmem => hnew (hkept hmem), hbase.ids.sublist (filter_sublist.map _)⟩
  case used =>
    intro id hid
    obtain hid | hid := hid
    · obtain hid | rfl := hgranted.mp hid
      · exact h.used id (.inl (hkept hid))
      · exact hused
    · exact h.used id (.inr hid)
  case alive =>
    intro id hid hdead
    obtain hid | rfl := hgranted.mp hid
    · exact h.alive id (hkept hid) hdead
    · exact halive hdead
  case covered =>
    intro content hcontent other hother
    obtain ⟨hsnapshot, hkey, hlive | hpending⟩ | rfl := covered_written h hw hcommit hresult hcontent hother
    · obtain ⟨grant, hgrant, hstrip⟩ := exists_grant h hw hsnapshot hlive
      have hid : grant.entry.strip.id = other.strip.id := congrArg _ hstrip
      have hsameKey : other.strip.key = grant.entry.strip.key := congrArg _ hstrip.symm
      have hkey' : grant.entry.key ≠ entry.key := fun hsame => hkey (hsameKey.trans hsame)
      exact .inl (hgranted.mpr (.inl (mem_map.mpr ⟨grant, mem_filter.mpr ⟨hgrant, decide_eq_true hkey'⟩, hid⟩)))
    · exact .inr (.inl hpending)
    · exact .inl (hgranted.mpr (.inr rfl))
  case settled =>
    intro _ hempty
    have hnone : ∀ id ∈ w.proposal.map (·.id), id ∉ s.pendingIds := fun _ => not_pending_of_written hempty
    show s.file.map RememberedEntry.strip = _
    rw [hfile, definitions_granted h hw hcommit hnone, ← @written_definitions s w.proposal]
    unfold definitions
    rw [map_append, filter_map]
    rfl
  case lastUsed =>
    intro _ grant hgrant _ other hother hid
    have hother' : other ∈ w.proposal := hfile ▸ hother
    rcases mem_append.mp hgrant with hgrant | hgrant
    · exact persisted_written hids (mem_of_mem_filter hgrant) hother' hid
    · rw [mem_singleton.mp hgrant] at hid ⊢
      have hentry : entry ∈ w.proposal := by rw [hproposal]; simp
      rw [inj_on_of_nodup_map hids hother' hentry hid]
      exact hnever

end Finish

theorem Inv.finishFlush (h : Inv s) (hw : s.writing = some w)
    (hflush : w.commit = none) {result : Except StoreWriteError Unit}
    (hresult : w.result = some result) (unixSeconds : Nat) :
    Inv { (s.finishFlush w.proposal w.deadBefore result unixSeconds).2 with writing := none } := by
  unfold AgentAccess.finishFlush
  cases result with
  | ok done =>
    have hdurable := h.flushed_durable hw hflush hresult
    dsimp only
    split
    · exact hdurable.same {}
    · exact hdurable.same {}
  | error error =>
    cases hreplaced : w.replaced with
    | true => exact (h.releaseFlush hw hflush hreplaced).same {}
    | false => exact (h.release hw hreplaced).same {}

theorem Inv.finishCommit (h : Inv s) (hw : s.writing = some w) (hcommit : w.commit = some entry)
    {result : Except StoreWriteError Unit} (hresult : w.result = some result) :
    Inv { (s.finishCommit entry w.proposal result).2 with writing := none } := by
  have hburied (hreplaced : w.replaced = false) :
      Inv { s with dead := entry.id :: s.dead, writing := none } :=
    (h.release hw hreplaced).bury rfl (commit_not_live h hw hcommit)
      ((h.writing w hw).commit entry hcommit).2.2.2.1 fun _ hid => hid
  have hreplaced : w.replaced = Writing.replaced { w with result := some result } := by rw [← hresult]
  unfold AgentAccess.finishCommit
  cases result with
  | ok done =>
    dsimp only
    -- the revision does not matter; whether the Lair ended does
    split
    all_goals
      split
      · exact (h.commit_ended hw hcommit hresult).same {}
      · exact (h.commit_granted hw hcommit hresult _).same {}
  | error error =>
    cases error with
    | notDurable stage text => exact h.commit_notDurable hw hcommit hreplaced
    | unavailable | conflict | bounds | io => exact hburied hreplaced

theorem Inv.finishWrite (h : Inv s) (unixSeconds : Nat) : Inv (s.finishWrite unixSeconds) := by
  unfold AgentAccess.finishWrite
  split
  · rename_i commit proposal result snapshot deadBefore hw
    cases commit with
    | none => exact h.finishFlush hw rfl rfl unixSeconds
    | some entry => exact h.finishCommit hw rfl rfl
  · exact h

end Writes

end Splinterm.Daemon.AgentAccess
