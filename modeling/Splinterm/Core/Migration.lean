import Splinterm.Core.Document

/-!
# Migration of older documents

Documents of older schemas may hold generated Dojo names. The migration replaces each of them by the
next implicit name of its Lair, one Dojo after the other, and changes nothing else. The loop is shown
to number the replaced names consecutively from the highest number the Lair already uses.
-/

namespace Splinterm.Core

open Lib Hoare List Option Nat TopologyDocument

/-! ## Implicit names -/

def defaultDojoName (number : Nat) : String := String.ofList ("Dojo ".toList ++ toDigits 10 number)

theorem toList_defaultDojoName (number : Nat) :
    (defaultDojoName number).toList = 'D' :: 'o' :: 'j' :: 'o' :: ' ' :: toDigits 10 number :=
  String.toList_ofList

theorem stripPrefix_defaultDojoName (number : Nat) :
    stripPrefix "Dojo " (defaultDojoName number) = some (toDigits 10 number) := by
  rw [stripPrefix, toList_defaultDojoName]
  rfl

variable {number : Nat} {name : String}

theorem parseU64_toDigits (h : number < 2 ^ 64) : parseU64 (toDigits 10 number) = some number := by
  have hdigit {c : Char} (hc : c ∈ toDigits 10 number) : c.isDigit = true :=
    isDigit_of_mem_toDigits (by decide) (by decide) hc
  have hdigits : isDecimalDigits (toDigits 10 number) = true := by
    simpa [isDecimalDigits, toDigits_ne_nil] using fun c hc => hdigit hc
  have hvalue : (toDigits 10 number).foldl (fun n c => n * 10 + (c.toNat - '0'.toNat)) 0 = number := by
    have hread : ofDigitChars 10 (toDigits 10 number) 0 = number := ofDigitChars_toDigits (by decide) (by decide)
    rw [ofDigitChars] at hread
    simpa only [mul_comm 10] using hread
  rw [parseU64, hvalue, hdigits, decide_eq_true h]
  · rfl
  · -- a sign is no digit
    intro rest heq
    exact absurd (hdigit (heq ▸ mem_cons_self)) (by decide)

theorem defaultDojoNumber_defaultDojoName (hpos : 0 < number) (h : number < 2 ^ 64) :
    defaultDojoNumber (defaultDojoName number) = some number := by
  simp only [defaultDojoNumber, stripPrefix_defaultDojoName, bind_eq_bind, bind_some,
    parseU64_toDigits h, hpos, and_self, if_true]

theorem defaultDojoNumber_lt (h : defaultDojoNumber name = some number) : number < 2 ^ 64 := by
  simp only [defaultDojoNumber, bind_eq_bind, bind_eq_some_iff] at h
  obtain ⟨suffix, -, parsed, hparsed, h⟩ := h
  obtain ⟨-, hnumber⟩ := ite_none_right_eq_some.mp h
  obtain ⟨hfits, hvalue⟩ := ite_none_right_eq_some.mp hparsed
  cases hnumber
  cases hvalue
  exact of_decide_eq_true (Bool.and_eq_true_iff.mp hfits).2

/-- Generated names of older schemas and implicit names start differently. -/
theorem head_of_legacy (h : isLegacyDefaultDojoName name = true) : name.toList.head? = some 't' := by
  rw [isLegacyDefaultDojoName, Bool.or_eq_true, beq_iff_eq] at h
  rcases h with rfl | h
  · rfl
  · split at h
    · cases h
    · next hstrip =>
      obtain ⟨hstart, -⟩ := ite_none_right_eq_some.mp hstrip
      obtain ⟨rest, hrest⟩ := isPrefixOf_iff_prefix.mp hstart
      rw [← hrest]
      rfl

theorem not_legacy_defaultDojoName (number : Nat) : isLegacyDefaultDojoName (defaultDojoName number) = false := by
  refine Bool.eq_false_iff.mpr fun hlegacy => ?_
  have hhead := head_of_legacy hlegacy
  rw [toList_defaultDojoName] at hhead
  exact absurd (some.inj hhead) (by decide)

theorem defaultDojoNumber_of_legacy (h : isLegacyDefaultDojoName name = true) : defaultDojoNumber name = none := by
  have hstrip : stripPrefix "Dojo " name = none := by
    refine if_neg fun hstart => ?_
    obtain ⟨rest, hrest⟩ := isPrefixOf_iff_prefix.mp hstart
    have hhead := head_of_legacy h
    rw [← hrest] at hhead
    have hfirst : 'D' = 't' := some.inj hhead
    exact absurd hfirst (by decide)
  rw [defaultDojoNumber, hstrip]
  rfl

/-! ## The highest number in use -/

def highestDojoNumber (dojos : List Dojo) : Nat :=
  (dojos.filterMap fun dojo => defaultDojoNumber dojo.name).foldl max 0

theorem highestDojoNumber_middle (before after : List Dojo) (dojo : Dojo) :
    highestDojoNumber (before ++ dojo :: after) =
      max ((defaultDojoNumber dojo.name).getD 0) (highestDojoNumber (before ++ after)) := by
  have hperm : (before ++ dojo :: after).Perm (dojo :: (before ++ after)) := perm_middle
  rw [highestDojoNumber, (hperm.filterMap _).foldl_eq, filterMap_cons]
  cases defaultDojoNumber dojo.name with
  | none => exact (zero_max _).symm
  | some number =>
    rw [foldl_cons, max_comm 0, foldl_assoc]
    rfl

theorem le_highestDojoNumber {dojos : List Dojo} {dojo : Dojo} (hmem : dojo ∈ dojos)
    (h : defaultDojoNumber dojo.name = some number) : number ≤ highestDojoNumber dojos := by
  obtain ⟨before, after, rfl⟩ := append_of_mem hmem
  rw [highestDojoNumber_middle, h]
  exact le_max_left ..

theorem highestDojoNumber_lt (dojos : List Dojo) : highestDojoNumber dojos < 2 ^ 64 := by
  induction dojos with
  | nil => decide
  | cons dojo rest ih =>
    refine lt_of_eq_of_lt (highestDojoNumber_middle [] rest dojo) (Nat.max_lt.mpr ⟨?_, ih⟩)
    cases hnumber : defaultDojoNumber dojo.name with
    | none => decide
    | some number => exact defaultDojoNumber_lt hnumber

/-! ## The renaming -/

def legacyCount (dojos : List Dojo) : Nat := dojos.countP fun dojo => isLegacyDefaultDojoName dojo.name

theorem legacyCount_cons_of_pos {dojo : Dojo} {rest : List Dojo} (h : isLegacyDefaultDojoName dojo.name = true) :
    legacyCount (dojo :: rest) = legacyCount rest + 1 :=
  countP_cons_of_pos h

theorem legacyCount_cons_of_neg {dojo : Dojo} {rest : List Dojo} (h : ¬ isLegacyDefaultDojoName dojo.name = true) :
    legacyCount (dojo :: rest) = legacyCount rest :=
  countP_cons_of_neg h

/-- The generated names replaced by consecutive implicit ones. -/
def renumbered (next : Nat) : List Dojo → List Dojo
  | [] => []
  | dojo :: rest =>
    if isLegacyDefaultDojoName dojo.name then { dojo with name := defaultDojoName next } :: renumbered (next + 1) rest
    else dojo :: renumbered next rest

/-- The loop from the Dojo at which it stands, with what it has done before. -/
theorem foldlM_normalizeDojoAt (done todo : List Dojo) :
    (range' done.length todo.length).foldlM normalizeDojoAt (done ++ todo) =
      if highestDojoNumber (done ++ todo) + legacyCount todo < 2 ^ 64 then
        .ok (done ++ renumbered (highestDojoNumber (done ++ todo) + 1) todo)
      else .error .defaultDojoNameExhausted := by
  induction todo generalizing done with
  | nil =>
    rw [show legacyCount [] = 0 from rfl, add_zero, if_pos (highestDojoNumber_lt _)]
    rfl
  | cons dojo rest ih =>
    rw [length_cons, range'_succ, foldlM_cons, normalizeDojoAt,
      getElem?_append_right (le_refl _), Nat.sub_self, getElem?_cons_zero]
    dsimp only
    -- the rest of the loop after this Dojo, whatever became of it
    have hafter (dojo' : Dojo) := ih (done ++ [dojo'])
    simp only [length_append, length_singleton, append_assoc, singleton_append] at hafter
    rw [renumbered]
    by_cases hlegacy : isLegacyDefaultDojoName dojo.name = true
    · rw [if_pos hlegacy, if_pos hlegacy, legacyCount_cons_of_pos hlegacy]
      set highest := highestDojoNumber (done ++ dojo :: rest) with hhighest
      have hothers : highestDojoNumber (done ++ rest) = highest := by
        rw [hhighest, highestDojoNumber_middle, defaultDojoNumber_of_legacy hlegacy]
        exact (zero_max _).symm
      have hname : nextDefaultDojoName (done ++ dojo :: rest) =
          if highest + 1 < 2 ^ 64 then .ok (defaultDojoName (highest + 1))
          else .error .defaultDojoNameExhausted := rfl
      rw [hname]
      by_cases hfits : highest + 1 < 2 ^ 64
      · have hnew : highestDojoNumber (done ++ { dojo with name := defaultDojoName (highest + 1) } :: rest) =
            highest + 1 := by
          rw [highestDojoNumber_middle, hothers, defaultDojoNumber_defaultDojoName (succ_pos _) hfits]
          exact max_eq_left (le_succ _)
        have hrest := hafter { dojo with name := defaultDojoName (highest + 1) }
        rw [hnew, add_assoc highest 1, add_comm 1 (legacyCount rest)] at hrest
        have hset (dojo' : Dojo) : (done ++ dojo :: rest).set done.length dojo' = done ++ dojo' :: rest := by
          rw [set_append_right _ _ (le_refl _), Nat.sub_self, set_cons_zero]
        simp only [if_pos hfits, hset]
        exact hrest
      · rw [if_neg hfits, if_neg (by omega)]
        rfl
    · rw [if_neg hlegacy, if_neg hlegacy, legacyCount_cons_of_neg hlegacy]
      exact hafter dojo

/-- There are numbers left for all generated names. -/
def Lair.Numerable (lair : Lair) : Prop := highestDojoNumber lair.dojos + legacyCount lair.dojos < 2 ^ 64

instance : DecidablePred Lair.Numerable := fun _ => inferInstanceAs (Decidable (_ < _))

def Lair.renumbered (lair : Lair) : Lair :=
  { lair with dojos := Core.renumbered (highestDojoNumber lair.dojos + 1) lair.dojos }

theorem normalizeLegacyDefaultDojoNames_eq (lairs : List Lair) : normalizeLegacyDefaultDojoNames lairs =
      if ∀ lair ∈ lairs, lair.Numerable then .ok (lairs.map Lair.renumbered)
      else .error .defaultDojoNameExhausted := by
  induction lairs with
  | nil => rfl
  | cons lair rest ih =>
    have hloop := foldlM_normalizeDojoAt [] lair.dojos
    rw [length_nil, ← range_eq_range', nil_append] at hloop
    rw [normalizeLegacyDefaultDojoNames] at ih ⊢
    rw [mapM_cons, hloop, ih]
    by_cases hlair : lair.Numerable
    · rw [if_pos (show _ < _ from hlair)]
      by_cases hrest : ∀ lair ∈ rest, lair.Numerable
      · rw [if_pos hrest, if_pos (forall_mem_cons.mpr ⟨hlair, hrest⟩)]
        rfl
      · rw [if_neg hrest, if_neg fun hall => hrest (forall_mem_cons.mp hall).2]
        rfl
    · rw [if_neg (show ¬ _ < _ from hlair), if_neg fun hall => hlair (forall_mem_cons.mp hall).1]
      rfl

/-! ## What a migrated Lair keeps -/

/-- The Dojos of a Lair, each with what it became. -/
structure Migrated (lair lair' : Lair) : Prop where
  rest : { lair' with dojos := lair.dojos } = lair
  dojos : List.Forall₂ (fun dojo dojo' => { dojo' with name := dojo.name } = dojo ∧
    (isLegacyDefaultDojoName dojo.name = false → dojo'.name = dojo.name)) lair.dojos lair'.dojos
  noLegacy : ∀ dojo' ∈ lair'.dojos, isLegacyDefaultDojoName dojo'.name = false
  fresh : ∀ p ∈ lair.dojos.zip lair'.dojos, isLegacyDefaultDojoName p.1.name = true →
    ∃ number, 0 < number ∧ number < 2 ^ 64 ∧ p.2.name = defaultDojoName number ∧
      ∀ dojo ∈ lair.dojos, dojo.name ≠ p.2.name
  increasing : (lair.dojos.zip lair'.dojos).Pairwise fun p q =>
    isLegacyDefaultDojoName p.1.name = true → isLegacyDefaultDojoName q.1.name = true →
      ∃ m n, p.2.name = defaultDojoName m ∧ q.2.name = defaultDojoName n ∧ m < n
  distinct : (lair.dojos.zip lair'.dojos).Pairwise fun p q =>
    (isLegacyDefaultDojoName p.1.name = true ∨ isLegacyDefaultDojoName q.1.name = true) → p.2.name ≠ q.2.name

/-- A number at or behind `next` and its name. -/
def NumberedFrom (next stop : Nat) (name : String) (number : Nat) : Prop :=
  next ≤ number ∧ number < stop ∧ name = defaultDojoName number

variable {next : Nat} {dojos : List Dojo}

theorem forall₂_renumbered : List.Forall₂ (fun dojo dojo' : Dojo => { dojo' with name := dojo.name } = dojo ∧
    (isLegacyDefaultDojoName dojo.name = false → dojo'.name = dojo.name)) dojos (renumbered next dojos) := by
  fun_induction renumbered with
  | case1 => exact .nil
  | case2 _ _ _ hlegacy ih => exact .cons ⟨rfl, fun hnot => absurd hlegacy (by rw [hnot]; decide)⟩ ih
  | case3 _ _ _ _ ih => exact .cons ⟨rfl, fun _ => rfl⟩ ih

theorem numbered_renumbered {p : Dojo × Dojo} (hp : p ∈ dojos.zip (renumbered next dojos)) :
    (isLegacyDefaultDojoName p.1.name = true ∧
      ∃ number, NumberedFrom next (next + legacyCount dojos) p.2.name number) ∨
    (isLegacyDefaultDojoName p.1.name = false ∧ p.2 = p.1) := by
  fun_induction renumbered with
  | case1 => cases hp
  | case2 next dojo rest hlegacy ih =>
    rw [legacyCount_cons_of_pos hlegacy]
    rcases mem_cons.mp hp with rfl | hp
    · exact .inl ⟨hlegacy, next, le_refl _, by omega, rfl⟩
    · refine (ih hp).imp_left fun ⟨hname, number, hlow, hhigh, hnumber⟩ => ?_
      exact ⟨hname, number, by omega, by omega, hnumber⟩
  | case3 next dojo rest hlegacy ih =>
    rw [legacyCount_cons_of_neg hlegacy]
    rcases mem_cons.mp hp with rfl | hp
    · exact .inr ⟨Bool.eq_false_iff.mpr hlegacy, rfl⟩
    · exact ih hp

theorem increasing_renumbered : (dojos.zip (renumbered next dojos)).Pairwise fun p q =>
    isLegacyDefaultDojoName p.1.name = true → isLegacyDefaultDojoName q.1.name = true →
      ∃ m n, NumberedFrom next (next + legacyCount dojos) p.2.name m ∧
        NumberedFrom next (next + legacyCount dojos) q.2.name n ∧ m < n := by
  fun_induction renumbered with
  | case1 => exact .nil
  | case2 next dojo rest hlegacy ih =>
    rw [legacyCount_cons_of_pos hlegacy]
    refine .cons (fun q hq _ hlater => ?_) (ih.imp fun h hp hq => ?_)
    · obtain ⟨-, n, hlow, hhigh, hname⟩ | ⟨hnot, -⟩ := numbered_renumbered hq
      · exact ⟨next, n, ⟨le_refl _, by omega, rfl⟩, ⟨by omega, by omega, hname⟩, hlow⟩
      · exact absurd (hnot.symm.trans hlater) Bool.false_ne_true
    · obtain ⟨m, n, ⟨hm, hm', hmname⟩, ⟨hn, hn', hnname⟩, hlt⟩ := h hp hq
      exact ⟨m, n, ⟨by omega, by omega, hmname⟩, ⟨by omega, by omega, hnname⟩, hlt⟩
  | case3 next dojo rest hlegacy ih =>
    rw [legacyCount_cons_of_neg hlegacy]
    exact .cons (fun _ _ hnot => absurd hnot hlegacy) ih

theorem noLegacy_renumbered : ∀ dojo' ∈ renumbered next dojos, isLegacyDefaultDojoName dojo'.name = false := by
  fun_induction renumbered with
  | case1 => exact forall_mem_nil _
  | case2 next _ _ _ ih => exact forall_mem_cons.mpr ⟨not_legacy_defaultDojoName next, ih⟩
  | case3 _ _ _ hlegacy ih => exact forall_mem_cons.mpr ⟨Bool.eq_false_iff.mpr hlegacy, ih⟩

theorem migrated_renumbered {lair : Lair} (h : lair.Numerable) : Migrated lair lair.renumbered := by
  set next := highestDojoNumber lair.dojos + 1 with hnext
  have hstop : next + legacyCount lair.dojos ≤ 2 ^ 64 := by
    rw [Lair.Numerable] at h
    omega
  -- the number can be read off the name of a replaced Dojo, and no Dojo had it before
  have hread {name : String} {number : Nat} (hnumber : NumberedFrom next (next + legacyCount lair.dojos) name number) :
      defaultDojoNumber name = some number := by
    obtain ⟨hlow, hhigh, rfl⟩ := hnumber
    exact defaultDojoNumber_defaultDojoName (by omega) (by omega)
  have hunused {name : String} {number : Nat}
      (hnumber : NumberedFrom next (next + legacyCount lair.dojos) name number) {dojo : Dojo} (hdojo : dojo ∈ lair.dojos) :
      dojo.name ≠ name := by
    intro hname
    have hle := le_highestDojoNumber hdojo (hname ▸ hread hnumber)
    have hlow := hnumber.1
    omega
  have hmem {p : Dojo × Dojo} (hp : p ∈ lair.dojos.zip lair.renumbered.dojos) : p.1 ∈ lair.dojos := (of_mem_zip hp).1
  refine ⟨rfl, forall₂_renumbered, noLegacy_renumbered, ?_, ?_, ?_⟩
  · intro p hp hlegacy
    obtain ⟨-, number, hnumber⟩ | ⟨hnot, -⟩ := numbered_renumbered hp
    · have hlow := hnumber.1
      have hhigh := hnumber.2.1
      exact ⟨number, by omega, by omega, hnumber.2.2, fun _ hdojo => hunused hnumber hdojo⟩
    · rw [hnot] at hlegacy
      cases hlegacy
  · refine increasing_renumbered.imp fun h hp hq => ?_
    obtain ⟨m, n, hm, hn, hlt⟩ := h hp hq
    exact ⟨m, n, hm.2.2, hn.2.2, hlt⟩
  · refine increasing_renumbered.imp_of_mem fun {p q} hp hq h hlegacy hsame => ?_
    obtain ⟨hplegacy, m, hm⟩ | ⟨hpkept, hpsame⟩ := numbered_renumbered hp
    · obtain ⟨hqlegacy, -⟩ | ⟨-, hqsame⟩ := numbered_renumbered hq
      · obtain ⟨m, n, hm, hn, hlt⟩ := h hplegacy hqlegacy
        have hnumbers := hread hm
        rw [hsame, hread hn] at hnumbers
        cases hnumbers
        exact lt_irrefl _ hlt
      · exact hunused hm (hmem hq) (hqsame ▸ hsame.symm)
    · obtain ⟨-, n, hn⟩ | ⟨hqkept, -⟩ := numbered_renumbered hq
      · exact hunused hn (hmem hp) (hpsame ▸ hsame)
      · rw [hpkept, hqkept] at hlegacy
        exact hlegacy.elim Bool.noConfusion Bool.noConfusion

/-! ## Documents -/

/-- A Lair of the third schema in the fields of the current one. -/
def LegacyLairV3.lair (legacy : LegacyLairV3) : Lair where
  id := legacy.id
  name := legacy.name
  lifetime := legacy.lifetime
  retention := .disposable
  provenance := none
  dojos := legacy.dojos

def LegacyWindowV2.dojo (legacy : LegacyWindowV2) : Dojo where
  id := ⟨legacy.id⟩
  name := legacy.title
  defaultFocus := legacy.defaultFocus
  root := legacy.root

/-- A Lair of the second schema, where it was called a Dojo and its Dojos windows. -/
def LegacyDojoV2.lair (legacy : LegacyDojoV2) : Lair where
  id := ⟨legacy.id⟩
  name := legacy.name
  lifetime := .persistent
  retention := .disposable
  provenance := none
  dojos := legacy.windows.map LegacyWindowV2.dojo

/-- The revision and the Lairs that a document of the given older version holds. -/
inductive Reader.Legacy (reader : Reader) (bytes : List UInt8) : Nat → TopologyRevision → List Lair → Prop where
  | v4 {legacy : LegacyTopologyDocumentV4} (h : reader.legacyV4 bytes = .ok legacy) :
      Legacy reader bytes legacyTopologySchemaVersionV4 legacy.revision legacy.lairs
  | v3 {legacy : LegacyTopologyDocumentV3} (h : reader.legacyV3 bytes = .ok legacy) :
      Legacy reader bytes legacyTopologySchemaVersionV3 legacy.revision (legacy.lairs.map LegacyLairV3.lair)
  | v2 {legacy : LegacyLairDocumentV2} (h : reader.legacyV2 bytes = .ok legacy) :
      Legacy reader bytes legacyLairSchemaVersion legacy.revision (legacy.dojos.map LegacyDojoV2.lair)

theorem currentDocument_spec {revision : TopologyRevision} {lairs : List Lair} {document : TopologyDocument}
    (h : currentDocument revision lairs = .ok document) :
    document.schemaVersion = topologySchemaVersion ∧ document.revision = revision ∧
      List.Forall₂ Migrated lairs document.lairs := by
  obtain ⟨migrated, hmigrated, hdocument⟩ := bind_eq_ok.mp h
  cases hdocument
  rw [normalizeLegacyDefaultDojoNames_eq] at hmigrated
  split at hmigrated
  · next hall =>
    cases hmigrated
    refine ⟨rfl, rfl, forall₂_map_right_iff.mpr (forall₂_same.mpr fun lair hlair => ?_)⟩
    exact migrated_renumbered (hall lair hlair)
  · cases hmigrated

/-- A document of an older schema that decodes keeps its revision and its Lairs, migrated one by one; the
renaming fails exactly when the numbers of a Lair do not suffice, and with no other error. -/
theorem legacy_documents_migrate (reader : Reader) (bytes : List UInt8) :
    (∀ version document, reader.version bytes = .ok version → version ≠ topologySchemaVersion →
      decode reader bytes = .ok document →
      ∃ revision lairs, reader.Legacy bytes version revision lairs ∧
        document.schemaVersion = topologySchemaVersion ∧ document.revision = revision ∧
        List.Forall₂ Migrated lairs document.lairs) ∧
    ∀ lairs error, normalizeLegacyDefaultDojoNames lairs = .error error ↔ error = .defaultDojoNameExhausted ∧
        ∃ lair ∈ lairs, 2 ^ 64 ≤ highestDojoNumber lair.dojos + legacyCount lair.dojos := by
  constructor
  · intro version document hversion hold hdecode
    simp only [decode, bind_eq_ok, mapError_eq_ok, hversion] at hdecode
    obtain ⟨_, -, _, hsame, read, hread, _, -, hdocument⟩ := hdecode
    cases hsame
    cases hdocument
    rw [Reader.readVersion, if_neg hold] at hread
    split_ifs at hread with hv hv hv
    all_goals
      simp only [bind_eq_ok, mapError_eq_ok] at hread
      obtain ⟨legacy, hlegacy, _, -, hmigrate⟩ := hread
    · exact ⟨_, _, hv ▸ .v4 hlegacy, currentDocument_spec hmigrate⟩
    · exact ⟨_, _, hv ▸ .v3 hlegacy, currentDocument_spec hmigrate⟩
    · exact ⟨_, _, hv ▸ .v2 hlegacy, currentDocument_spec hmigrate⟩
  · intro lairs error
    rw [normalizeLegacyDefaultDojoNames_eq]
    split
    · next hall =>
      constructor
      · intro h
        cases h
      · rintro ⟨-, lair, hlair, hfull⟩
        exact absurd (hall lair hlair) (not_lt.mpr hfull)
    · next hnot =>
      simp only [Lair.Numerable, not_forall, not_lt, exists_prop] at hnot
      rw [Except.error.injEq]
      exact ⟨fun h => ⟨h.symm, hnot⟩, fun h => h.1.symm⟩

/-- A document of the fourth schema, with two generated names around an implicit one. -/
def generatedNames : TopologyDocument :=
  ⟨4, 0, [{
    id := ⟨1⟩, name := "main", lifetime := .persistent, retention := .disposable, provenance := none
    dojos := [("terminal", 1), ("Dojo 3", 2), ("terminal-12-7", 3)].map fun (name, id) =>
      { id := ⟨id⟩, name, defaultFocus := ⟨id⟩
        root := .leaf { Splint.shell ⟨id⟩ [0x2F] with state := .exited 0 } } }]⟩

/-- A reader of its JSON text. -/
def generatedNamesReader : Reader where
  version bytes := if bytes = generatedNames.json then .ok 4 else .error ""
  document _ := .error ""
  legacyV4 bytes := if bytes = generatedNames.json then .ok ⟨4, 0, generatedNames.lairs⟩ else .error ""
  legacyV3 _ := .error ""
  legacyV2 _ := .error ""

theorem generated_names_migrate : let bytes := generatedNames.json
    ∃ document lairs, decode generatedNamesReader bytes = .ok document ∧
      generatedNamesReader.Legacy bytes 4 document.revision lairs ∧ List.Forall₂ Migrated lairs document.lairs ∧
      document.lairs.map (fun lair => lair.dojos.map (·.name)) = [["Dojo 4", "Dojo 3", "Dojo 5"]] := by
  intro bytes
  have hnames : (decode generatedNamesReader bytes).toOption.map
      (fun document => document.lairs.map fun lair => lair.dojos.map (·.name)) =
        some [["Dojo 4", "Dojo 3", "Dojo 5"]] := by decide +kernel
  have hversion : generatedNamesReader.version bytes = .ok 4 := by decide +kernel
  cases hdecode : decode generatedNamesReader bytes with
  | error e =>
    rw [hdecode] at hnames
    cases hnames
  | ok document =>
    rw [hdecode] at hnames
    obtain ⟨revision, lairs, hlegacy, -, rfl, hmigrated⟩ :=
      (legacy_documents_migrate generatedNamesReader bytes).1 4 document hversion (by decide) hdecode
    exact ⟨document, lairs, rfl, hlegacy, hmigrated, some.inj hnames⟩

end Splinterm.Core
