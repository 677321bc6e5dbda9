import Splinterm.Daemon.AgentAccessWrite

/-!
# The remembered store and its file agree

Over every interleaving of the lock-delimited steps: without a write in progress and
with no flush owed, the file holds what memory holds; revoked, ended and failed entries
never authorize and leave the file with the next successful flush; and no flush removes
another entry.
-/

namespace Splinterm.Daemon.AgentAccess

open Core Lib List

inductive Op where
  | authorize (peer : PeerIdentity) (lairId : LairId) (required : List AccessScope) (now : Nat)
  | commitSessionGated (peer : PeerIdentity) (lairId : LairId) (access : AccessSet)
      (displayName : Option String) (gate : Bool) (unixSeconds : Nat)
  | revokeSession (grantId : Nat)
  | revokeRemembered (entryId : EntryId)
  | endLair (lairId : LairId)
  | revokeAll
  | beginCommit (id : EntryId) (identity : DurableIdentity) (lairId : LairId) (access : AccessSet)
      (displayName : Option String) (unixSeconds : Nat)
  | beginFlush
  | runWrite (fate : WriteFate)
  | finishWrite (unixSeconds : Nat)

def step : Op → AgentAccess → AgentAccess
  | .authorize peer lairId required now, s => (s.authorize peer lairId required now).2
  | .commitSessionGated peer lairId access displayName gate unixSeconds, s =>
    (s.commitSessionGated peer lairId access displayName gate unixSeconds).2
  | .revokeSession grantId, s => (s.revokeSession grantId).2
  | .revokeRemembered entryId, s => (s.revokeRemembered entryId).2
  | .endLair lairId, s => (s.endLair lairId).2
  | .revokeAll, s => s.revokeAll.2
  | .beginCommit id identity lairId access displayName unixSeconds, s =>
    (s.beginCommit id identity lairId access displayName unixSeconds).2
  | .beginFlush, s => s.beginFlush.2
  | .runWrite fate, s => s.runWrite fate
  | .finishWrite unixSeconds, s => s.finishWrite unixSeconds

/-- A commit or flush waits for the file lock, and a commit draws an id never used before. No
authorization sets an entry's unwritten last-used time back to the persisted one. -/
def Allowed (s : AgentAccess) : Op → Prop
  | .beginCommit id _ _ _ _ _ => s.writing = none ∧ id ∉ s.used
  | .beginFlush => s.writing = none
  | .authorize peer lairId _ now => ∀ evidence, peer.durable = some evidence →
    ∀ grant ∈ s.remembered, grant.entry.lairId = lairId →
      evidence.matches_ grant.entry.identity = true → grant.persistedLastUsed = some now →
      grant.entry.lastUsedUnixSeconds = some now
  | _ => True

/-- The states reached from a load of a store whose entries are unique, as `decode_store` checks. -/
inductive Reaches : AgentAccess → Prop
  | load (ids : GrantIds) (fileState : FileState) (entries : List RememberedEntry)
      (workspaceMissing : LairId → Bool) (carriedRemovals : List EntryId)
      (hids : (entries.map (·.id)).Nodup) (hkeys : (entries.map (·.key)).Nodup) :
      Reaches (load ids fileState entries workspaceMissing carriedRemovals)
  | step {s : AgentAccess} (op : Op) (h : Reaches s) (hallowed : Allowed s op) : Reaches (step op s)

/-- An authorization changes nothing, or it sets the last-used time of the grant it rests on. -/
theorem authorize_cases (peer : PeerIdentity) (lairId : LairId) (required : List AccessScope) (now : Nat)
    (s : AgentAccess) : (∃ found, (∀ a, found = some a → a.duration ≠ .remembered) ∧
      s.authorize peer lairId required now = (found, s)) ∨
    ∃ evidence pre grant post flushDue flushInFlight, peer.durable = some evidence ∧
      s.remembered = pre ++ grant :: post ∧ grant.entry.lairId = lairId ∧
      evidence.matches_ grant.entry.identity = true ∧ grant.entry.access.covers required = true ∧
      s.authorize peer lairId required now = (some ⟨grant.grantId, .remembered, flushDue⟩, { s with
          remembered := pre ++ { grant with entry := { grant.entry with lastUsedUnixSeconds := some now } } :: post
          flushInFlight }) := by
  have hnone : ∀ a : AgentAuthorization, none = some a → a.duration ≠ .remembered := by rintro _ ⟨⟩
  unfold authorize
  split
  · exact .inl ⟨_, hnone, rfl⟩
  · rename_i evidence hevidence
    split
    · exact .inl ⟨_, hnone, rfl⟩
    · split
      · refine .inl ⟨_, ?_, rfl⟩
        rintro _ ⟨⟩
        exact GrantDuration.noConfusion
      · unfold authorizeRemembered
        split
        · exact .inl ⟨_, hnone, rfl⟩
        · split
          · exact .inl ⟨_, hnone, rfl⟩
          · rename_i pre grant post hsplit
            obtain ⟨hlist, hgrant, -⟩ := splitFirst_eq_some hsplit
            rw [decide_eq_true_eq] at hgrant
            obtain ⟨hlair, -, hmatches, hcovers⟩ := hgrant
            exact .inr ⟨evidence, pre, grant, post, _, _, hevidence, hlist, hlair, hmatches, hcovers, rfl⟩

variable {s : AgentAccess}

theorem same_commitSessionGated (peer : PeerIdentity) (lairId : LairId) (access : AccessSet)
    (displayName : Option String) (gate : Bool) (unixSeconds : Nat) :
    Same s (s.commitSessionGated peer lairId access displayName gate unixSeconds).2 := by
  unfold commitSessionGated
  repeat' split
  all_goals exact {}

theorem same_revokeSession (grantId : Nat) : Same s (s.revokeSession grantId).2 := by
  unfold revokeSession
  split <;> exact {}

theorem Inv.step (h : Inv s) (op : Op) (hallowed : Allowed s op) : Inv (step op s) := by
  cases op with
  | authorize peer lairId required now =>
    show Inv (s.authorize peer lairId required now).2
    obtain ⟨found, -, heq⟩ | ⟨evidence, pre, grant, post, _, _, hevidence, hlist, hlair, hmatches, -, heq⟩ :=
      authorize_cases peer lairId required now s
    · rw [heq]
      exact h
    · rw [heq]
      refine (h.touch hlist ?_).same {}
      exact hallowed evidence hevidence grant (by rw [hlist]; simp) hlair hmatches
  | commitSessionGated peer lairId access displayName gate unixSeconds => exact h.same (same_commitSessionGated ..)
  | revokeSession grantId => exact h.same (same_revokeSession grantId)
  | revokeRemembered entryId =>
    obtain heq | hdrops := drops_revokeRemembered h entryId
    · show Inv (s.revokeRemembered entryId).2
      rw [heq]
      exact h
    · exact h.drop hdrops
  | endLair lairId =>
    obtain ⟨_, hdrops⟩ := drops_endLair h lairId
    exact h.drop hdrops
  | revokeAll =>
    obtain ⟨_, hdrops⟩ := drops_revokeAll h
    exact h.drop hdrops
  | beginCommit id identity lairId access displayName unixSeconds =>
    exact h.beginCommit hallowed.1 hallowed.2 identity lairId access displayName unixSeconds
  | beginFlush => exact h.beginFlush hallowed
  | runWrite fate => exact h.runWrite fate
  | finishWrite unixSeconds => exact h.finishWrite unixSeconds

theorem loadGrants_eq (workspaceMissing : LairId → Bool) (entries : List RememberedEntry) (ids : GrantIds) :
    (loadGrants workspaceMissing entries ids).1.map (·.entry) = entries ∧
      ∀ grant ∈ (loadGrants workspaceMissing entries ids).1,
        grant.persistedLastUsed = grant.entry.lastUsedUnixSeconds := by
  induction entries generalizing ids with
  | nil => exact ⟨rfl, fun _ hmem => absurd hmem not_mem_nil⟩
  | cons entry entries ih =>
    obtain ⟨hentries, hpersisted⟩ := ih ids.draw.2
    refine ⟨?_, forall_mem_cons.mpr ⟨rfl, hpersisted⟩⟩
    show entry :: (loadGrants workspaceMissing entries ids.draw.2).1.map (·.entry) = _
    rw [hentries]

theorem inv_load (ids : GrantIds) (fileState : FileState) {entries : List RememberedEntry}
    (workspaceMissing : LairId → Bool) (carriedRemovals : List EntryId)
    (hids : (entries.map (·.id)).Nodup) (hkeys : (entries.map (·.key)).Nodup) :
    Inv (load ids fileState entries workspaceMissing carriedRemovals) := by
  have hstored : (storedEntries entries fileState).Sublist entries := by
    cases fileState with
    | loaded version => exact .refl _
    | absent | unavailable => exact nil_sublist _
  replace hids := hids.sublist (hstored.map _)
  replace hkeys := hkeys.sublist (hstored.map _)
  unfold load
  dsimp only
  generalize storedEntries entries fileState = stored at *
  obtain ⟨hentries, hpersisted⟩ := loadGrants_eq workspaceMissing
    (stored.filter fun entry => entry.id ∉ carriedRemovals) ids
  generalize loadGrants workspaceMissing (stored.filter fun entry => entry.id ∉ carriedRemovals) ids = loaded at *
  have hmap {α : Type} (f : RememberedEntry → α) : loaded.1.map (fun grant => f grant.entry) =
      (stored.filter fun entry => entry.id ∉ carriedRemovals).map f := by
    rw [← hentries, map_map]
    rfl
  have hlive {id : EntryId} (hid : id ∈ loaded.1.map (·.entry.id)) :
      id ∈ stored.map (·.id) ∧ id ∉ carriedRemovals := by
    rw [hmap] at hid
    exact (mem_map_filter (· ∉ carriedRemovals)).mp hid
  have hcarried {id : EntryId} : id ∈ (stored.filter fun entry => entry.id ∈ carriedRemovals).map (·.id) ↔
      id ∈ stored.map (·.id) ∧ id ∈ carriedRemovals := mem_map_filter (· ∈ carriedRemovals)
  refine
    { keys := ?keys, ids := ?ids, used := ?used, alive := fun id hid hdead => (hlive hid).2 (hcarried.mp hdead).2,
      pending := fun _ hid => hid, flushed := fun _ hid => absurd hid not_mem_nil,
      covered := ?covered, settled := ?settled, lastUsed := ?lastUsed,
      writing := by rintro _ ⟨⟩ }
  case keys =>
    rw [hmap RememberedEntry.key]
    exact hkeys.sublist (filter_sublist.map _)
  case ids =>
    show (loaded.1.map (·.entry.id)).Nodup
    rw [hmap RememberedEntry.id]
    exact hids.sublist (filter_sublist.map _)
  case used =>
    intro id hid
    obtain hid | hid := hid
    · exact (hlive hid).1
    · exact (hcarried.mp hid).1
  case covered =>
    intro content hcontent entry hentry
    rw [mem_singleton.mp hcontent] at hentry
    by_cases hmoved : entry.id ∈ carriedRemovals
    · exact .inr (.inl (hcarried.mpr ⟨mem_map_of_mem hentry, hmoved⟩))
    · refine .inl ?_
      show entry.id ∈ loaded.1.map (·.entry.id)
      rw [hmap RememberedEntry.id]
      exact mem_map_of_mem (mem_filter.mpr ⟨hentry, decide_eq_true hmoved⟩)
  case settled =>
    intro _ hempty
    show stored.map RememberedEntry.strip = loaded.1.map (·.entry.strip)
    rw [hmap RememberedEntry.strip]
    have hall : stored.filter (fun entry => entry.id ∉ carriedRemovals) = stored := by
      refine filter_eq_self.mpr fun entry hentry => ?_
      have hkept : entry.id ∉ carriedRemovals := fun hmoved => by
        have hmem : entry ∈ stored.filter fun entry => entry.id ∈ carriedRemovals :=
          mem_filter.mpr ⟨hentry, decide_eq_true hmoved⟩
        rw [show stored.filter (fun entry => entry.id ∈ carriedRemovals) = [] from hempty] at hmem
        exact not_mem_nil hmem
      exact decide_eq_true hkept
    rw [hall]
  case lastUsed =>
    intro _ grant hgrant _ entry hentry hid
    have hmem : grant.entry ∈ stored := by
      have hmem : grant.entry ∈ loaded.1.map (·.entry) := mem_map_of_mem hgrant
      rw [hentries] at hmem
      exact mem_of_mem_filter hmem
    rw [hpersisted grant hgrant, inj_on_of_nodup_map hids hentry hmem hid]

theorem Reaches.inv (h : Reaches s) : Inv s := by
  induction h with
  | load ids fileState entries workspaceMissing carriedRemovals hids hkeys =>
    exact inv_load ids fileState workspaceMissing carriedRemovals hids hkeys
  | step op _ hallowed ih => exact ih.step op hallowed

/-! ## What holds in every state -/

/-- Nothing pending and every last-used time persisted: the file is what memory says. -/
theorem Inv.file_eq (h : Inv s) (hfree : s.writing = none) (hneeded : s.flushNeeded = false) :
    s.file = s.rememberedEntries := by
  obtain ⟨hpending, hpersisted⟩ := Bool.or_eq_false_iff.mp hneeded
  have hempty : s.pendingRemovals = [] := isEmpty_iff.mp (by simpa using hpending)
  have hreplaced : s.replaced = false := by rw [replaced, hfree]; rfl
  refine ext_getElem? fun i => ?_
  have hi := congrArg (·[i]?) (h.settled hreplaced hempty)
  simp only [definitions, getElem?_map] at hi
  rw [rememberedEntries, getElem?_map]
  cases hentry : s.file[i]? with
  | none =>
    rw [hentry] at hi
    rw [Option.map_eq_none_iff.mp hi.symm]
    rfl
  | some entry =>
    rw [hentry] at hi
    obtain ⟨grant, hgrant, hstrip⟩ := Option.map_eq_some_iff.mp hi.symm
    have hmem := mem_of_getElem? hgrant
    have hwritten : grant.entry.lastUsedUnixSeconds = grant.persistedLastUsed := by
      simpa using any_eq_false.mp hpersisted grant hmem
    have hused := h.lastUsed hreplaced grant hmem hwritten entry (mem_of_getElem? hentry)
      (congrArg (·.id) hstrip.symm)
    -- equal but for the last-used time, and equal in that too
    have heq : entry = { entry.strip with lastUsedUnixSeconds := entry.lastUsedUnixSeconds } := rfl
    rw [hgrant, heq, ← hstrip, hused, ← hwritten]
    rfl

theorem authorize_remembered {peer : PeerIdentity} {lairId : LairId} {required : List AccessScope}
    {now : Nat} {authorization : AgentAuthorization}
    (h : (s.authorize peer lairId required now).1 = some authorization)
    (hduration : authorization.duration = .remembered) :
    ∃ grant ∈ s.remembered, grant.grantId = authorization.grantId ∧ grant.entry.lairId = lairId ∧
      grant.entry.access.covers required = true := by
  obtain ⟨found, hfound, heq⟩ | ⟨_, pre, grant, post, _, _, -, hlist, hlair, -, hcovers, heq⟩ :=
    authorize_cases peer lairId required now s
  · rw [heq] at h
    exact absurd hduration (hfound _ h)
  · rw [heq] at h
    obtain rfl := Option.some.inj h
    exact ⟨grant, by rw [hlist]; simp, rfl, hlair, hcovers⟩

/-- A flush's write keeps every entry of the file that is not dead. -/
theorem Inv.flush_keeps (h : Inv s) {w : Writing} (hw : s.writing = some w) (hflush : w.commit = none)
    (fate : WriteFate) {entry : RememberedEntry} (hentry : entry ∈ s.file)
    (halive : entry.id ∉ s.dead) : entry.id ∈ (s.runWrite fate).file.map (·.id) := by
  have hwriting := h.writing w hw
  have hlive : entry.id ∈ s.liveIds := by
    have hhead : s.file ∈ s.contents := by
      unfold file at hentry ⊢
      cases hcontents : s.contents with
      | nil =>
        rw [hcontents] at hentry
        exact absurd hentry not_mem_nil
      | cons content contents => exact mem_cons_self
    obtain hlive | hpending := h.live_or_pending (not_committing_of_flush hw hflush) hhead hentry
    · exact hlive
    · exact absurd (h.pending _ hpending) halive
  have hsnapshot : entry.id ∈ w.proposal.map (·.id) := by
    rw [hwriting.flush hflush]
    exact hwriting.mem_snapshot hlive
  have hsame : entry.id ∈ s.file.map (·.id) := mem_map_of_mem hentry
  unfold AgentAccess.runWrite
  rw [hw]
  dsimp only
  split
  · obtain ⟨error, -, heq⟩ | ⟨version, heq⟩ | ⟨version, stage, text, heq⟩ := write_cases w.proposal fate s
    · rw [heq]
      exact hsame
    · rw [heq]
      exact hsnapshot
    · rw [heq]
      exact hsnapshot
  · exact hsame

/-- What is dead or flushed stays so. -/
def Grows (s s' : AgentAccess) : Prop := s.dead ⊆ s'.dead ∧ s.flushed ⊆ s'.flushed

theorem Grows.refl (s : AgentAccess) : Grows s s := ⟨List.Subset.refl _, List.Subset.refl _⟩

theorem Same.grows {s' : AgentAccess} (h : Same s s') : Grows s s' :=
  ⟨fun _ hid => h.dead ▸ hid, fun _ hid => h.flushed ▸ hid⟩

theorem Drops.grows {gone : List EntryId} {s' : AgentAccess} (h : Drops gone s s') : Grows s s' :=
  ⟨fun id hid => (h.dead id).mpr (.inl hid), fun _ hid => h.flushed ▸ hid⟩

theorem grows_write (proposal : List RememberedEntry) (fate : WriteFate) : Grows s (s.write proposal fate).2 := by
  obtain ⟨error, -, heq⟩ | ⟨version, heq⟩ | ⟨version, stage, text, heq⟩ := write_cases proposal fate s
  all_goals
    rw [heq]
    exact .refl s

theorem grows_finishWrite (unixSeconds : Nat) : Grows s (s.finishWrite unixSeconds) := by
  unfold finishWrite
  split
  · rename_i commit proposal result snapshot deadBefore hw
    cases commit with
    | none =>
      cases result with
      | ok done =>
        dsimp only [finishFlush]
        split <;> exact ⟨List.Subset.refl _, subset_append_right _ _⟩
      | error error => exact .refl s
    | some entry =>
      cases result with
      | ok done =>
        dsimp only [finishCommit]
        split
        all_goals
          split
          · exact ⟨subset_cons_self _ _, List.Subset.refl _⟩
          · exact .refl s
      | error error =>
        cases error with
        | notDurable | unavailable | conflict | bounds | io => exact ⟨subset_cons_self _ _, List.Subset.refl _⟩
  · exact .refl s

theorem grows_step (h : Inv s) (op : Op) : Grows s (step op s) := by
  cases op with
  | authorize peer lairId required now =>
    show Grows s (s.authorize peer lairId required now).2
    obtain ⟨_, -, heq⟩ | ⟨_, _, _, _, _, _, -, -, -, -, -, heq⟩ := authorize_cases peer lairId required now s
    all_goals
      rw [heq]
      exact .refl s
  | commitSessionGated => exact (same_commitSessionGated ..).grows
  | revokeSession => exact (same_revokeSession _).grows
  | revokeRemembered entryId =>
    obtain heq | hdrops := drops_revokeRemembered h entryId
    · show Grows s (s.revokeRemembered entryId).2
      rw [heq]
      exact .refl s
    · exact hdrops.grows
  | endLair lairId => exact (drops_endLair h lairId).elim fun _ hdrops => hdrops.grows
  | revokeAll => exact (drops_revokeAll h).elim fun _ hdrops => hdrops.grows
  | beginCommit id identity lairId access displayName unixSeconds =>
    unfold AgentAccess.step beginCommit
    dsimp only
    split
    · exact ⟨subset_cons_self _ _, List.Subset.refl _⟩
    · exact .refl s
  | beginFlush =>
    unfold AgentAccess.step beginFlush
    dsimp only
    split
    · exact ⟨List.Subset.refl _, subset_append_right _ _⟩
    · exact .refl s
  | runWrite fate =>
    unfold AgentAccess.step runWrite
    dsimp only
    split
    · split
      · exact grows_write _ fate
      · exact .refl s
    · exact .refl s
  | finishWrite unixSeconds => exact grows_finishWrite unixSeconds

/-- Without a write in progress and with no flush owed, file and memory hold the same entries; dead
entries stay dead, authorize nothing and, once flushed, are in no content the file may have; a flush
removes dead entries only. -/
theorem store_agrees_with_memory (h : Reaches s) :
    (s.writing = none → s.flushNeeded = false → s.file = s.rememberedEntries) ∧
    (∀ peer lairId required now authorization, (s.authorize peer lairId required now).1 = some authorization →
      authorization.duration = .remembered → ∃ grant ∈ s.remembered, grant.grantId = authorization.grantId ∧
        grant.entry.lairId = lairId ∧ grant.entry.access.covers required = true ∧ grant.entry.id ∉ s.dead) ∧
    (∀ op, s.dead ⊆ (step op s).dead ∧ s.flushed ⊆ (step op s).flushed) ∧
    (∀ id ∈ s.flushed, ∀ content ∈ s.contents, id ∉ content.map (·.id)) ∧
    ∀ w fate, s.writing = some w → w.commit = none →
      ∀ entry ∈ s.file, entry.id ∉ s.dead → entry.id ∈ (s.runWrite fate).file.map (·.id) := by
  have hinv := h.inv
  refine ⟨hinv.file_eq, ?_, grows_step hinv, ?_, ?_⟩
  · intro peer lairId required now authorization hauthorize hduration
    obtain ⟨grant, hgrant, hid, hlair, hcovers⟩ := authorize_remembered hauthorize hduration
    exact ⟨grant, hgrant, hid, hlair, hcovers, hinv.alive _ (mem_map_of_mem hgrant)⟩
  · intro id hid content hcontent hmem
    obtain ⟨hdead, hfree⟩ := hinv.flushed id hid
    obtain ⟨entry, hentry, rfl⟩ := mem_map.mp hmem
    obtain hlive | hpending | ⟨w, entry', hw, -, hcommit, hsame⟩ := hinv.covered content hcontent entry hentry
    · exact hinv.alive _ hlive hdead
    · exact hfree hpending
    · exact ((hinv.writing w hw).commit entry' hcommit).2.2.1 (hsame ▸ hdead)
  · intro w fate hw hflush entry hentry halive
    exact hinv.flush_keeps hw hflush fate hentry halive

/-- One remembered entry, last used at second 200. -/
def usedEntry : RememberedEntry :=
  { id := ⟨"ra_00000000000000000000000000000001"⟩
    identity := .protectedInstall [47, 97]
    lairId := ⟨1⟩
    access := .level .look
    createdUnixSeconds := 10
    lastUsedUnixSeconds := some 200
    displayName := none }

def usedStore : AgentAccess := load ⟨0, 0⟩ (.loaded 1) [usedEntry] (fun _ => false) []

theorem usedStore_reaches : Reaches usedStore :=
  .load ⟨0, 0⟩ (.loaded 1) [usedEntry] (fun _ => false) [] (nodup_singleton _)
    (nodup_singleton _)

/-- The entry is revoked and a flush writes that durably. -/
def flushedStore : AgentAccess :=
  step (.finishWrite 300) (step (.runWrite .durable) (step .beginFlush
    (step (.revokeRemembered usedEntry.id) usedStore)))

theorem flushedStore_reaches : Reaches flushedStore :=
  .step _ (.step _ (.step _ (.step _ usedStore_reaches trivial) rfl) trivial) trivial

theorem flushed_store_is_empty :
    flushedStore.flushed = [usedEntry.id] ∧ flushedStore.file = flushedStore.rememberedEntries ∧
    ∀ content ∈ flushedStore.contents, usedEntry.id ∉ content.map (·.id) := by
  have hflushed : flushedStore.flushed = [usedEntry.id] := by decide
  obtain ⟨hfile, -, -, hgone, -⟩ := store_agrees_with_memory flushedStore_reaches
  exact ⟨hflushed, hfile rfl (by decide), hgone _ (by rw [hflushed]; exact mem_cons_self)⟩

/-- A peer the entry authorizes. -/
def usedPeer : PeerIdentity :=
  ⟨1000, 7, "agent", 1, 2, 0, none, none, some 5, some ⟨some [47, 97], [], false, false⟩⟩

/-- The clock goes back to second 100 for one use, whose flush is not made durable, and then comes
to second 200 again. -/
def setBackStore : AgentAccess :=
  step (.authorize usedPeer ⟨1⟩ [] 200) (step (.finishWrite 150)
    (step (.runWrite (.notDurable "sync state directory" "input/output error")) (step .beginFlush
      (step (.authorize usedPeer ⟨1⟩ [] 100) usedStore))))

/-- No flush is owed although the file holds another last-used time than memory. -/
theorem unwritten_last_used_is_forgotten : setBackStore.writing.isNone = true ∧ setBackStore.flushNeeded = false ∧
    setBackStore.file.map (·.lastUsedUnixSeconds) = [some 100] ∧
    setBackStore.rememberedEntries.map (·.lastUsedUnixSeconds) = [some 200] := by
  refine ⟨rfl, ?_, ?_, ?_⟩ <;> decide

end Splinterm.Daemon.AgentAccess
