import Splinterm.Core.Edit
import Splinterm.Core.LayoutLaws

/-!
# The operations stay within `Edit`

Every revisioned operation either refuses and leaves the topology as it was, or makes
one `Edit` and advances the revision, or makes one `Edit` and then unwinds because the
64-bit revision is exhausted. `Commits` says so; each operation has one lemma for it,
and the unrevisioned operations have the corresponding `Keeps`.
-/

namespace Splinterm.Core

open Lib Hoare List OrdMap LayoutNode

variable {α : Type} {rule : Rule} {t : Topology}

/-! ## Lookups -/

theorem findDojo_isSome {id : DojoId} : (t.findDojo id).isSome ↔ id ∈ (allDojos t.lairs).map (·.id) := by
  simp [Topology.findDojo, find?_isSome]

variable {id : SplintId}

theorem findSplint_isSome : (t.findSplint id).isSome ↔ id ∈ allSplintIds (allDojos t.lairs) := by
  simp [Topology.findSplint, findSome?_isSome_iff, allSplintIds, LayoutNode.findSplint_isSome]

variable {p : Dojo → Bool} {place : DojoPlace}

theorem findPlace_eq_some {entries : List (LairId × Lair)} (h : findPlace p entries = some place) :
    (place.key, place.lair) ∈ entries ∧
      place.lair.dojos = place.before ++ place.dojo :: place.after ∧ p place.dojo = true := by
  fun_induction findPlace with
  | case1 => cases h
  | case2 _ _ _ _ _ _ hsplit =>
    cases h
    obtain ⟨hdojos, hp, -⟩ := splitFirst_eq_some hsplit
    exact ⟨mem_cons_self .., hdojos, hp⟩
  | case3 _ _ _ _ ih => exact (ih h).imp_left (mem_cons_of_mem _)

/-! ## `validate_new_dojos` -/

theorem collectNewSplintIds_ok {node : LayoutNode} {ids ids' : List SplintId}
    (h : collectNewSplintIds t node ids = .ok ids') (hids : ids.Nodup)
    (hfresh : ids.Disjoint (allSplintIds (allDojos t.lairs))) :
    ids'.Perm (node.splintIds ++ ids) ∧ ids'.Nodup ∧ ids'.Disjoint (allSplintIds (allDojos t.lairs)) := by
  induction node generalizing ids ids' with
  | leaf splint =>
    simp only [collectNewSplintIds] at h
    split at h
    · cases h
    next hnew =>
      cases h
      rw [not_or, findSplint_isSome] at hnew
      exact ⟨.refl _, nodup_cons.mpr ⟨hnew.2, hids⟩, disjoint_cons_left.mpr ⟨hnew.1, hfresh⟩⟩
  | branch axis ratio first second ih₁ ih₂ =>
    obtain ⟨mid, hfirst, hsecond⟩ := bind_eq_ok.mp h
    obtain ⟨hp₁, hn₁, hf₁⟩ := ih₁ hfirst hids hfresh
    obtain ⟨hp₂, hn₂, hf₂⟩ := ih₂ hsecond hn₁ hf₁
    refine ⟨?_, hn₂, hf₂⟩
    rw [splintIds_branch, append_assoc]
    exact hp₂.trans ((hp₁.append_left _).trans (perm_append_comm_assoc ..))

variable {dojo : Dojo} {dojos : List Dojo}

/-- One accepted Dojo: its name, id, focus and leaves passed their checks. -/
theorem validateDojosFrom_cons {dojoIds : List DojoId} {splintIds : List SplintId}
    (h : validateDojosFrom t (dojo :: dojos) dojoIds splintIds = .ok ()) :
    validateName dojo.name = .ok () ∧ dojo.id ∉ (allDojos t.lairs).map (·.id) ∧
      dojo.id ∉ dojoIds ∧ dojo.FocusOk ∧ ∃ splintIds', collectNewSplintIds t dojo.root splintIds = .ok splintIds' ∧
        validateDojosFrom t dojos (dojo.id :: dojoIds) splintIds' = .ok () := by
  simp only [validateDojosFrom, bind_eq_ok, rejectIf_eq_ok] at h
  obtain ⟨⟨⟩, hname, ⟨⟩, hid, ⟨⟩, hfocus, ids', hcollect, hrest⟩ := h
  rw [not_or, findDojo_isSome] at hid
  refine ⟨hname, hid.1, hid.2, ?_, ids', hcollect, hrest⟩
  rwa [Option.isNone_iff_eq_none, findSplint_eq_none, not_not] at hfocus

theorem validateDojosFrom_ok {dojoIds : List DojoId} {splintIds : List SplintId}
    (h : validateDojosFrom t dojos dojoIds splintIds = .ok ()) (hd : dojoIds.Nodup)
    (hs : splintIds.Nodup) (hfresh : splintIds.Disjoint (allSplintIds (allDojos t.lairs))) :
    (dojoIds ++ dojos.map (·.id)).Nodup ∧ (dojos.map (·.id)).Disjoint ((allDojos t.lairs).map (·.id)) ∧
      (splintIds ++ allSplintIds dojos).Nodup ∧
      (allSplintIds dojos).Disjoint (allSplintIds (allDojos t.lairs)) ∧ ∀ dojo ∈ dojos, dojo.FocusOk := by
  induction dojos generalizing dojoIds splintIds with
  | nil => simp [hd, hs, allSplintIds]
  | cons dojo dojos ih =>
    obtain ⟨-, hnew, hunseen, hfocus, ids', hcollect, hrest⟩ := validateDojosFrom_cons h
    obtain ⟨hperm, hnodup, hfresh'⟩ := collectNewSplintIds_ok hcollect hs hfresh
    obtain ⟨h₁, h₂, h₃, h₄, h₅⟩ := ih hrest (nodup_cons.mpr ⟨hunseen, hd⟩) hnodup hfresh'
    have hids : (ids' ++ allSplintIds dojos).Perm (splintIds ++ allSplintIds (dojo :: dojos)) := by
      simp only [allSplintIds, flatMap_cons, ← append_assoc]
      exact (hperm.trans perm_append_comm).append_right _
    refine ⟨?_, ?_, hids.nodup_iff.mp h₃, ?_, ?_⟩
    · exact perm_middle.symm.nodup_iff.mp h₁
    · exact disjoint_cons_left.mpr ⟨hnew, h₂⟩
    · intro id hmem hold
      simp only [allSplintIds, flatMap_cons, mem_append] at hmem
      rcases hmem with hmem | hmem
      · exact hfresh' (hperm.mem_iff.mpr (mem_append_left _ hmem)) hold
      · exact h₄ hmem hold
    · exact forall_mem_cons.mpr ⟨hfocus, h₅⟩

theorem newDojos_of_validate (h : validateDojosFrom t dojos [] [] = .ok ()) : NewDojos t.lairs dojos := by
  obtain ⟨h₁, h₂, h₃, h₄, h₅⟩ := validateDojosFrom_ok h .nil .nil (disjoint_nil_left _)
  exact ⟨by simpa using h₁, h₂, by simpa using h₃, h₄, h₅⟩

/-! ## One lemma per operation -/

/-- The outcomes of a revisioned operation run from `t`: an unchanged topology after a refusal,
otherwise one edit of a topology at the expected revision, counted unless the counter is full. -/
def Stopped (rule : Rule) (expected : TopologyRevision) (t : Topology) : Stop → Topology → Prop
  | .err _, t' => t' = t
  | .panic, t' => t.revision = expected ∧ t.revision.toNat + 1 = 2 ^ 64 ∧
      t'.revision = t.revision ∧ Edit rule t.lairs t'.lairs

structure Committed (rule : Rule) (expected : TopologyRevision) (t t' : Topology) : Prop where
  current : t.revision = expected
  advanced : t'.revision.toNat = t.revision.toNat + 1
  edit : Edit rule t.lairs t'.lairs

def Commits (rule : Rule) (expected : TopologyRevision) (m : TopologyM α) : Prop :=
  ∀ t, wp m (fun _ => Committed rule expected t) (Stopped rule expected t) t

variable {expected : TopologyRevision} {lairs' : Lairs}

/-- What is left of an operation that has changed nothing so far. -/
def Proceeds (rule : Rule) (expected : TopologyRevision) (t : Topology) (post : α → Topology → Prop)
    (m : TopologyM α) : Prop :=
  wp m post (Stopped rule expected t) t

namespace Proceeds

variable {β : Type} {post : α → Topology → Prop} {error : TopologyError} {k : β → TopologyM α}
  {next : Unit → TopologyM α}

theorem get {k : Topology → TopologyM α} (h : Proceeds rule expected t post (k t)) :
    Proceeds rule expected t post (MonadState.get >>= k) := h

theorem check {result : Except TopologyError β} (h : ∀ b, result = .ok b → Proceeds rule expected t post (k b)) :
    Proceeds rule expected t post (Core.check result >>= k) := by
  cases result with
  | ok b => exact h b rfl
  | error e => rfl

theorem okOr {found : Option β} (h : ∀ b, found = some b → Proceeds rule expected t post (k b)) :
    Proceeds rule expected t post (Hoare.okOr (.err error) found >>= k) := by
  cases found with
  | some b => exact h b rfl
  | none => rfl

theorem refuseIf {c : Prop} [Decidable c] (h : ¬ c → Proceeds rule expected t post (next ())) :
    Proceeds rule expected t post (Core.refuseIf c error >>= next) := by
  unfold Core.refuseIf
  split
  · rfl
  · next hc => exact h hc

theorem checkRevision (h : expected = t.revision → Proceeds rule expected t post (next ())) :
    Proceeds rule expected t post (Core.checkRevision expected >>= next) :=
  refuseIf fun hc => h (not_not.mp hc)

theorem validateNewDojos (h : NewDojos t.lairs dojos → Proceeds rule expected t post (next ())) :
    Proceeds rule expected t post (Core.validateNewDojos dojos >>= next) :=
  check fun _ hvalid => h (newDojos_of_validate hvalid)

end Proceeds

/-- The common end of an operation: the Lairs have been edited and the revision advances. -/
theorem advance_after (h : expected = t.revision) (he : Edit rule t.lairs lairs') :
    wp advanceRevision (fun _ t' => Committed rule expected t t' ∧ t'.lairs = lairs')
      (Stopped rule expected t) { t with lairs := lairs' } := by
  have hlt := t.revision.toNat_lt
  simp only [advanceRevision, wp_bind, wp_get, wp_ite, wp_set, wp_pure, wp_throw]
  refine ⟨fun hroom => ⟨⟨h.symm, ?_, he⟩, trivial⟩, fun hfull => ⟨h.symm, ?_, rfl, he⟩⟩
  · exact Nat.mod_eq_of_lt hroom
  · omega

theorem commit_tail (h : expected = t.revision) (he : Edit rule t.lairs lairs') :
    wp advanceRevision (fun _ => Committed rule expected t) (Stopped rule expected t) { t with lairs := lairs' } :=
  wp_imp (advance_after h he) (fun _ _ hc => hc.1)

theorem commit_return {f : TopologyRevision → α} (h : expected = t.revision)
    (he : Edit rule t.lairs lairs') : wp (advanceRevision >>= fun revision => pure (f revision))
      (fun _ => Committed rule expected t) (Stopped rule expected t) { t with lairs := lairs' } :=
  (wp_bind _ _).mpr (commit_tail h he)

theorem insertLairAt_proceeds {lair : Lair} (hm : lair.Meets rule) : Proceeds rule expected t
    (fun _ t' => Committed rule expected t t' ∧ t'.lairs = t.lairs.insert lair.id lair) (insertLairAt expected lair) :=
  .checkRevision fun hrev => .check fun _ _ => .get <| .refuseIf fun _ => .refuseIf fun hname =>
    .validateNewDojos fun hdojos => advance_after hrev (.insert hdojos (by simpa using hname) hm)

theorem commits_insertLairAt {lair : Lair} (hm : lair.Meets rule) :
    Commits rule expected (insertLairAt expected lair) := fun _ =>
  wp_imp (insertLairAt_proceeds hm) fun _ _ h => h.1

variable {name : String} {cwd : PathBuf}

theorem Lair.new_meets {ids : FreshIds} (h : rule.name name) : (Lair.new ids name cwd).Meets rule := by
  refine ⟨h, by simp [Lair.new], fun dojo hd => ?_⟩
  rw [Lair.new, mem_singleton] at hd
  subst hd
  exact ⟨rule.firstDojo, by simpa [Dojo.withShell, Splint.shell, splints] using rule.shell⟩

theorem commits_createLairAt {ids : FreshIds} : Commits rule expected (createLairAt expected ids name cwd) := fun t =>
  Proceeds.checkRevision fun hrev => .check fun trimmed hname => .get <| .refuseIf fun _ => by
    have hmeets : (Lair.new ids trimmed cwd).Meets rule := Lair.new_meets (rule.normalized hname).1
    -- the inserted Lair is looked up again after the insertion, which cannot fail
    refine (wp_bind _ _).mpr (wp_imp (insertLairAt_proceeds hmeets) fun _ t' ⟨hcommit, hlairs⟩ => ?_)
    have hget : t'.lairs.get? (Lair.new ids trimmed cwd).id = some (Lair.new ids trimmed cwd) := by
      rw [hlairs]
      exact get?_insert_self ..
    simp [hget, hcommit]

theorem commits_replaceLairAt {removedId : LairId} {inserted : Lair} (hm : inserted.Meets rule) :
    Commits rule expected (replaceLairAt expected removedId inserted) := fun _ =>
  Proceeds.checkRevision fun hrev => .check fun _ _ => .get <| .refuseIf fun _ => .refuseIf fun _ =>
    .refuseIf fun hname => .validateNewDojos fun hdojos =>
      commit_tail hrev (.replace hdojos (by simpa using hname) hm)

/-! A Dojo found by walking the Lairs is edited where it stands. -/

theorem edit_place {dojo' : Dojo}
    (h : findPlace p t.lairs.entries = some place) (he : DojoEdit rule t.lairs place.dojo dojo') :
    Edit rule t.lairs (t.lairs.insert place.key (place.withDojos [dojo'])) := by
  obtain ⟨hmem, hdojos, -⟩ := findPlace_eq_some h
  refine .put hmem rfl rfl ?_ (.inl rfl)
  simpa [DojoPlace.withDojos, hdojos] using DojosEdit.change place.before place.after he

theorem remove_place (h : findPlace p t.lairs.entries = some place) :
    Edit rule t.lairs (t.lairs.insert place.key (place.withDojos [])) := by
  obtain ⟨hmem, hdojos, -⟩ := findPlace_eq_some h
  refine .put hmem rfl rfl ?_ (.inl rfl)
  have hremove : DojosEdit rule t.lairs _ _ := .remove place.before place.after place.dojo
  simpa [DojoPlace.withDojos, hdojos] using hremove

/-- A Dojo whose leaves only change their titles, if at all. -/
theorem dojoEdit_of_ids {lairs : Lairs} {dojo' : Dojo} (hid : dojo'.id = dojo.id)
    (hs : dojo'.root.splintIds = dojo.root.splintIds) (hf : dojo.FocusOk → dojo'.FocusOk)
    (hm : dojo.Meets rule → dojo'.Meets rule) : DojoEdit rule lairs dojo dojo' where
  id := hid
  splints := ⟨[], .nil, disjoint_nil_left _, hs ▸ List.Subperm.refl _⟩
  focus := hf
  meets := hm

theorem commits_splitSplintAt {target : SplintId} {newSplint : Splint}
    {axis : Axis} {side : SplitSide} {ratio : SplitRatio} (hm : rule.title newSplint.title) :
    Commits rule expected (splitSplintAt expected target newSplint axis side ratio) := by
  refine fun t => Proceeds.checkRevision fun hrev => .get <| .refuseIf fun hnew =>
    .okOr fun place hplace => .okOr fun root hroot => ?_
  have hsplints := splints_split hroot
  have hids : root.splintIds.Perm (newSplint.id :: place.dojo.root.splintIds) := hsplints.map Splint.id
  refine commit_tail hrev (edit_place hplace ⟨rfl, ⟨[newSplint.id], by simp, ?_, hids.subperm⟩, ?_, ?_⟩)
  · rw [findSplint_isSome] at hnew
    simpa using hnew
  · exact fun hfocus => hids.mem_iff.mpr (mem_cons_of_mem _ hfocus)
  · refine fun hold => ⟨hold.1, fun splint hs => ?_⟩
    rcases mem_cons.mp (hsplints.mem_iff.mp hs) with rfl | hs
    · exact hm
    · exact hold.2 splint hs

theorem commits_closeSplintAt : Commits rule expected (closeSplintAt expected id) := by
  refine fun t => Proceeds.checkRevision fun hrev => .get <| .okOr fun _ _ => .refuseIf fun _ => ?_
  cases hplace : findPlace (fun dojo => (dojo.root.findSplint id).isSome) t.lairs.entries with
  | none => exact commit_tail hrev .keep
  | some place =>
    simp only [closeSplintIn]
    cases hremove : place.dojo.root.remove id with
    | error node => rfl
    | ok remaining =>
      cases remaining with
      | none => exact commit_tail hrev (remove_place hplace)
      | some root =>
        obtain ⟨gone, hgone, hperm⟩ := splints_remove_some hremove
        have hids : place.dojo.root.splintIds.Perm (id :: root.splintIds) := hgone ▸ hperm.map Splint.id
        refine commit_tail hrev (edit_place hplace ⟨rfl, ⟨[], .nil, by simp, ?_⟩, ?_, ?_⟩)
        · exact (sublist_cons_self ..).subperm.trans hids.symm.subperm
        · intro hfocus
          -- a focus that is not the closed leaf is one of the remaining leaves
          by_cases hid : place.dojo.defaultFocus = id
          · simp only [Dojo.FocusOk, hid, if_true]
            exact root.firstSplintId_mem
          · have := hids.mem_iff.mp hfocus
            simpa [Dojo.FocusOk, hid] using this
        · exact fun hold => ⟨hold.1, fun splint hs => hold.2 splint (hperm.mem_iff.mpr (mem_cons_of_mem _ hs))⟩

theorem commits_setSplitRatioAt {target : SplintId} {ancestor : Nat}
    {ratio : SplitRatio} : Commits rule expected (setSplitRatioAt expected target ancestor ratio) := by
  refine fun t => Proceeds.checkRevision fun hrev => .get <| .okOr fun place hplace => .okOr fun root hroot => ?_
  have hsplints := splints_setAncestorRatio hroot
  have hids : root.splintIds = place.dojo.root.splintIds := congrArg (List.map Splint.id) hsplints
  refine commit_tail hrev (edit_place hplace (dojoEdit_of_ids rfl hids ?_ ?_))
  · exact fun hfocus => by simpa [Dojo.FocusOk, hids] using hfocus
  · exact fun hold => ⟨hold.1, by simpa [hsplints] using hold.2⟩

variable {lairId : LairId}

theorem commits_newDojoWithPromotionAt {promote : Bool} (hm : dojo.Meets rule) :
    Commits rule expected (newDojoWithPromotionAt expected lairId dojo promote) := by
  refine fun t => Proceeds.checkRevision fun hrev => .validateNewDojos fun hdojos => .get <| .okOr fun lair hlair => ?_
  refine commit_return hrev (.put (get?_eq_some.mp hlair) rfl rfl ?_ (.inl rfl))
  exact .append _ hdojos (by simpa using hm)

theorem commits_newDojoAt (hm : dojo.Meets rule) : Commits rule expected (newDojoAt expected lairId dojo) := by
  intro t
  simp only [newDojoAt, wp_bind]
  exact commits_newDojoWithPromotionAt hm t

theorem commits_materializeDojosAt {rename : Option String} (hm : ∀ dojo ∈ dojos, dojo.Meets rule) :
    Commits rule expected (materializeDojosAt expected lairId rename dojos) := by
  refine fun t => Proceeds.checkRevision fun hrev => .refuseIf fun _ => .validateNewDojos fun hdojos =>
    .check fun renamed hrenamed => .get ?_
  have hedit : ∀ dojos', DojosEdit rule t.lairs dojos' (dojos' ++ dojos) := fun dojos' => .append dojos' hdojos hm
  cases rename with
  | none =>
    cases hrenamed
    exact Proceeds.okOr fun lair hlair => commit_tail hrev (.put (get?_eq_some.mp hlair) rfl rfl (hedit _) (.inl rfl))
  | some name =>
    obtain ⟨trimmed, hname, hpure⟩ := bind_eq_ok.mp hrenamed
    cases hpure
    refine Proceeds.refuseIf fun hunique => .okOr fun lair hlair => ?_
    refine commit_tail hrev (.put (get?_eq_some.mp hlair) rfl rfl (hedit _) (.inr ⟨?_, ?_⟩))
    · exact (rule.normalized hname).1
    · simpa using hunique

theorem commits_materializeLairWithProvenanceAt {provenance : Option String}
    (hm : ∀ dojo ∈ dojos, dojo.Meets rule) (hp : ∀ label, provenance = some label → rule.provenance label) :
    Commits rule expected (materializeLairWithProvenanceAt expected lairId name dojos provenance) := by
  refine fun t => Proceeds.checkRevision fun hrev => .refuseIf fun _ => .check fun trimmed hname => .get <|
    .refuseIf fun hunique => .validateNewDojos fun hdojos => ?_
  have hmeets : Lair.Meets rule ⟨lairId, trimmed, .persistent, .disposable, provenance, dojos⟩ :=
    ⟨(rule.normalized hname).1, hp, hm⟩
  exact commit_return hrev (.insert hdojos (by simpa using hunique) hmeets)

variable {dojoId : DojoId}

theorem commits_removeDojoAt {allowLive : Bool} :
    Commits rule expected (removeDojoAt expected dojoId allowLive) := fun _ =>
  Proceeds.checkRevision fun hrev => .get <| .okOr fun _ hplace => .refuseIf fun _ =>
    commit_tail hrev (remove_place hplace)

theorem commits_terminateLairAt : Commits rule expected (terminateLairAt expected lairId) := fun _ =>
  Proceeds.checkRevision fun hrev => .get <| .okOr fun _ _ => commit_tail hrev (.erase lairId)

theorem commits_setLairRetentionAt {retention : LairRetention} :
    Commits rule expected (setLairRetentionAt expected lairId retention) := fun _ =>
  Proceeds.checkRevision fun hrev => .get <| .okOr fun _ hlair => .refuseIf fun _ =>
    commit_tail hrev (.put (get?_eq_some.mp hlair) rfl rfl (.keep _) (.inl rfl))

theorem commits_renameLairAt : Commits rule expected (renameLairAt expected lairId name) := by
  refine fun t => Proceeds.checkRevision fun hrev => .check fun trimmed hname => .get <|
    .refuseIf fun hunique => .okOr fun lair hlair => ?_
  refine commit_tail hrev (.put (get?_eq_some.mp hlair) rfl rfl (.keep _) (.inr ⟨?_, ?_⟩))
  · exact (rule.normalized hname).1
  · simpa using hunique

theorem commits_renameDojoWithPromotionAt {promote : Bool} :
    Commits rule expected (renameDojoWithPromotionAt expected dojoId name promote) := by
  refine fun t => Proceeds.checkRevision fun hrev => .check fun trimmed hname => .get <| .okOr fun place hplace => ?_
  obtain ⟨hmem, hdojos, -⟩ := findPlace_eq_some hplace
  have hedit : DojoEdit rule t.lairs place.dojo { place.dojo with name := trimmed } :=
    dojoEdit_of_ids rfl rfl id fun hold => ⟨(rule.normalized hname).1, hold.2⟩
  refine commit_return hrev (.put hmem rfl rfl ?_ (.inl rfl))
  simpa [DojoPlace.withDojos, hdojos] using DojosEdit.change place.before place.after hedit

theorem commits_renameDojoAt : Commits rule expected (renameDojoAt expected dojoId name) := by
  intro t
  simp only [renameDojoAt, wp_bind]
  exact commits_renameDojoWithPromotionAt t

theorem commits_setDojoDefaultFocusAt {splintId : SplintId} :
    Commits rule expected (setDojoDefaultFocusAt expected dojoId splintId) := by
  refine fun t => Proceeds.checkRevision fun hrev => .get <| .okOr fun place hplace => .refuseIf fun hfocus => ?_
  rw [Option.isNone_iff_eq_none, findSplint_eq_none, not_not] at hfocus
  exact commit_tail hrev (edit_place hplace (dojoEdit_of_ids rfl rfl (fun _ => hfocus) id))

/-! A leaf is edited where it stands. -/

theorem edit_updateSplint {f : Splint → Splint} (hid : ∀ s, (f s).id = s.id)
    (htitle : ∀ s, rule.title s.title → rule.title (f s).title) (h : findPlace p t.lairs.entries = some place) :
    Edit rule t.lairs (t.lairs.insert place.key (place.withDojos
      [{ place.dojo with root := place.dojo.root.updateSplint id f }])) := by
  have hids : (place.dojo.root.updateSplint id f).splintIds = place.dojo.root.splintIds :=
    splintIds_updateSplint hid place.dojo.root
  refine edit_place h (dojoEdit_of_ids rfl hids ?_ fun hold => ⟨hold.1, fun splint hs => ?_⟩)
  · exact fun hfocus => by simpa [Dojo.FocusOk, hids] using hfocus
  · rcases splints_updateSplint id f place.dojo.root splint hs with hs | ⟨s₀, hs₀, rfl⟩
    · exact hold.2 splint hs
    · exact htitle s₀ (hold.2 s₀ hs₀)

theorem commits_renameSplintAt {splintId : SplintId}
    {title : String} : Commits rule expected (renameSplintAt expected splintId title) := by
  refine fun t => Proceeds.checkRevision fun hrev => .check fun trimmed htitle => ?_
  simp only [Proceeds, wp_bind, updateSplint, wp_get]
  cases hplace : findPlace (fun dojo => (dojo.root.findSplint splintId).isSome) t.lairs.entries with
  | none => rfl
  | some place =>
    obtain ⟨splint, hfound⟩ := Option.isSome_iff_exists.mp (findPlace_eq_some hplace).2.2
    simp only [wp_bind, putLair, wp_modify, wp_pure, hfound]
    exact commit_tail hrev (edit_updateSplint (fun _ => rfl) (fun _ _ => (rule.normalized htitle).2) hplace)

/-- An operation outside the revision scheme: at most one edit, and the counter stays. -/
def Keeps (rule : Rule) (m : TopologyM α) : Prop :=
  ∀ t, wp m (fun _ t' => t'.revision = t.revision ∧ Edit rule t.lairs t'.lairs)
    (fun _ t' => t' = t) t

theorem keeps_updateSplint {f : Splint → Splint} (hid : ∀ s, (f s).id = s.id)
    (htitle : ∀ s, (f s).title = s.title) : Keeps rule (updateSplint id f) := by
  intro t
  simp only [updateSplint, wp_bind, wp_get]
  cases hplace : findPlace (fun dojo => (dojo.root.findSplint id).isSome) t.lairs.entries with
  | none => exact ⟨rfl, .keep⟩
  | some place => exact ⟨rfl, edit_updateSplint hid (fun s hs => (htitle s).symm ▸ hs) hplace⟩

theorem Keeps.andThen {β : Type} {m : TopologyM α} (h : Keeps rule m) (f : α → β) : Keeps rule (do return f (← m)) := by
  intro t
  simpa using h t

theorem keeps_commitRelaunch {command : List String} : Keeps rule (commitRelaunch id cwd command) := by
  intro t
  simp only [commitRelaunch, wp_bind, wp_get, wp_okOr, refuseIf, refuse, wp_ite, wp_throw, wp_pure, implies_true, and_true,
    true_and]
  intro _ _ _
  have hkeeps : Keeps rule (updateSplint id fun splint =>
      { splint with cwd, command, state := .running }) :=
    keeps_updateSplint (fun _ => rfl) (fun _ => rfl)
  exact hkeeps t

end Splinterm.Core
