import Mathlib.Data.List.Infix

/-!
# Placeholders of a preset

Validation removes the two placeholders one after the other and refuses the braces that are left.
Expansion replaces them one after the other as well, so its second pass reads the directory name that
the first put in.
-/

namespace Splinterm.Preset

open List Option

abbrev Text := List Char

/-- `str::replace` behind `skip` characters of an occurrence that is already replaced. -/
def replaceFrom (pattern new : Text) : Nat → Text → Text
  | _, [] => []
  | skip + 1, _ :: s => replaceFrom pattern new skip s
  | 0, c :: s =>
    if pattern <+: c :: s then new ++ replaceFrom pattern new (pattern.length - 1) s
    else c :: replaceFrom pattern new 0 s

def replace (pattern new s : Text) : Text := replaceFrom pattern new 0 s

def cwdPattern : Text := ['{', 'c', 'w', 'd', '}']

def basenamePattern : Text := ['{', 'c', 'w', 'd', '.', 'b', 'a', 's', 'e', 'n', 'a', 'm', 'e', '}']

def validateTemplate (kind : String) (value : Text) : Except String Unit :=
  if value.any (· ∈ ['\x00', '\r', '\n']) then
    .error (kind ++ " contains a forbidden control character")
  else if (replace cwdPattern [] (replace basenamePattern [] value)).any (· ∈ ['{', '}']) then
    .error (kind ++ " contains an unsupported placeholder")
  else .ok ()

/-- A root directory whose path is UTF-8; `validate_root_cwd` refuses every other. -/
structure Root where
  path : Text
  absolute : path.head? = some '/'

/-- `Path::file_name`: the last component, unless it is the parent's. -/
def Root.fileName (root : Root) : Option Text :=
  ((root.path.splitOn '/').filter fun name => name ≠ [] ∧ name ≠ ['.']).getLast?.filter (· ≠ ['.', '.'])

def expandPlaceholders (value : Text) (root : Root) : Except String Text := do
  validateTemplate "string" value
  let expanded ←
    if basenamePattern <:+: value then
      match root.fileName.filter (· ≠ []) with
      | some basename => .ok (replace basenamePattern basename value)
      | none => .error "preset root cwd has no UTF-8 basename"
    else .ok value
  return replace cwdPattern root.path expanded

/-! ## What a template says -/

/-- Text without braces, a character at a time, or a placeholder. -/
inductive Piece
  | text (c : Char) (plain : c ≠ '{' ∧ c ≠ '}')
  | basename
  | cwd

def Piece.source : Piece → Text
  | text c _ => [c]
  | basename => basenamePattern
  | cwd => cwdPattern

def template (pieces : List Piece) : Text := pieces.flatMap Piece.source

@[simp] theorem template_cons (piece : Piece) (pieces : List Piece) :
    template (piece :: pieces) = piece.source ++ template pieces := flatMap_cons

def Piece.value (path name : Text) : Piece → Text
  | text c _ => [c]
  | basename => name
  | cwd => path

/-- The name put in, and `none` where the template has the whole path. -/
def Piece.named (name : Text) : Piece → List (Option Char)
  | text c _ => [some c]
  | basename => name.map some
  | cwd => [none]

/-- No brace is opened behind one that is still open. -/
def unnested : Bool → Text → Bool
  | _, [] => true
  | within, c :: s =>
    if c = '{' then !within && unnested true s else if c = '}' then unnested false s else unnested within s

variable {pattern new s p : Text} {c : Char} {pieces : List Piece} {kind : String} {value : Text}

theorem replaceFrom_eq (skip : Nat) (s : Text) :
    replaceFrom pattern new skip s = replace pattern new (s.drop skip) := by
  induction skip generalizing s with
  | zero => rfl
  | succ skip ih =>
    cases s with
    | nil => rfl
    | cons c s => exact ih s

theorem replace_append (hpattern : pattern ≠ []) (s : Text) :
    replace pattern new (pattern ++ s) = new ++ replace pattern new s := by
  obtain ⟨c, p, rfl⟩ := exists_cons_of_ne_nil hpattern
  rw [cons_append, replace, replaceFrom, replaceFrom_eq]
  simp

theorem replace_cons (h : ¬ pattern <+: c :: s) : replace pattern new (c :: s) = c :: replace pattern new s := by
  rw [replace, replaceFrom, if_neg h]
  rfl

theorem replace_eq_self (h : ¬ pattern <:+: s) : replace pattern new s = s := by
  induction s with
  | nil => rfl
  | cons c s ih =>
    rw [infix_cons_iff, not_or] at h
    rw [replace_cons h.1, ih h.2]

theorem not_basename_at (h : c ≠ '{') : ¬ basenamePattern <+: c :: s := by
  simp [basenamePattern, cons_prefix_cons, h.symm]

theorem replace_cwd (s : Text) :
    replace basenamePattern new (cwdPattern ++ s) = cwdPattern ++ replace basenamePattern new s := by
  rfl

/-! ## Validation -/

theorem plain_of_accepted (h : validateTemplate kind value = .ok ()) :
    ∀ c ∈ replace cwdPattern [] (replace basenamePattern [] value), c ≠ '{' ∧ c ≠ '}' := by
  unfold validateTemplate at h
  split_ifs at h with _ hbraces
  simpa using hbraces

theorem accepted_string (h : validateTemplate kind value = .ok ()) : validateTemplate "string" value = .ok () := by
  unfold validateTemplate at h ⊢
  split_ifs at h ⊢
  rfl

/-- What stands behind an open brace is left as it is up to the brace that closes it. -/
theorem closes_of_replace (hp : '{' ∉ p ∧ '}' ∉ p) (hs : unnested true s)
    (h : p ++ ['}'] <+: replace basenamePattern [] s) : p ++ ['}'] <+: s := by
  induction s generalizing p with
  | nil => exact h
  | cons d s ih =>
    have hd : d ≠ '{' := by rintro rfl; simp [unnested] at hs
    rw [replace_cons (not_basename_at hd)] at h
    cases p with
    | nil => simpa using h
    | cons c p =>
      obtain ⟨rfl, htail⟩ := cons_prefix_cons.mp h
      simp only [mem_cons, not_or] at hp
      rw [unnested, if_neg hd, if_neg (Ne.symm hp.2.1)] at hs
      exact cons_prefix_cons.mpr ⟨rfl, ih ⟨hp.1.2, hp.2.2⟩ hs htail⟩

theorem exists_pieces (s : Text) (hs : unnested false s)
    (h : ∀ c ∈ replace cwdPattern [] (replace basenamePattern [] s), c ≠ '{' ∧ c ≠ '}') :
    ∃ pieces, template pieces = s := by
  induction hn : s.length using Nat.strong_induction_on generalizing s with
  | _ n ih =>
    by_cases hname : basenamePattern <+: s
    · obtain ⟨t, rfl⟩ := hname
      obtain ⟨pieces, rfl⟩ := ih t.length (by rw [← hn, length_append]; simp [basenamePattern]) t
        (by simpa [basenamePattern, unnested] using hs) h rfl
      exact ⟨.basename :: pieces, rfl⟩
    by_cases hcwd : cwdPattern <+: s
    · obtain ⟨t, rfl⟩ := hcwd
      obtain ⟨pieces, rfl⟩ := ih t.length (by rw [← hn, length_append]; simp [cwdPattern]) t
        (by simpa [cwdPattern, unnested] using hs) h rfl
      exact ⟨.cwd :: pieces, rfl⟩
    cases s with
    | nil => exact ⟨[], rfl⟩
    | cons c s =>
      -- A brace that opens neither placeholder opens none in what the first pass leaves.
      have hcwd' : ¬ cwdPattern <+: c :: replace basenamePattern [] s := by
        intro hc
        obtain ⟨rfl, htail⟩ := cons_prefix_cons.mp hc
        exact hcwd (cons_prefix_cons.mpr ⟨rfl,
          closes_of_replace (p := ['c', 'w', 'd']) (by decide) (by simpa [unnested] using hs) htail⟩)
      rw [replace_cons hname, replace_cons hcwd'] at h
      have hc := h c mem_cons_self
      rw [unnested, if_neg hc.1, if_neg hc.2] at hs
      obtain ⟨pieces, rfl⟩ := ih s.length (by simp [← hn]) s hs
        (fun d hd => h d (mem_cons_of_mem c hd)) rfl
      exact ⟨.text c hc :: pieces, rfl⟩

theorem unnested_template (pieces : List Piece) : unnested false (template pieces) := by
  induction pieces with
  | nil => rfl
  | cons piece pieces ih =>
    cases piece with
    | text c plain => simpa [Piece.source, unnested, plain] using ih
    | basename => simpa [Piece.source, basenamePattern, unnested] using ih
    | cwd => simpa [Piece.source, cwdPattern, unnested] using ih

/-! ## Expansion -/

/-- A text with the places of the whole path marked, written out as a template. -/
def spelled : Option Char → Text := fun mark => mark.elim cwdPattern fun c => [c]

theorem replace_basename (name : Text) (pieces : List Piece) : replace basenamePattern name (template pieces) =
      (pieces.flatMap (Piece.named name)).flatMap spelled := by
  induction pieces with
  | nil => rfl
  | cons piece pieces ih =>
    rw [template_cons, flatMap_cons, flatMap_append, ← ih]
    cases piece with
    | text c plain => exact replace_cons (not_basename_at plain.1)
    | basename =>
      refine (replace_append (by decide) _).trans (congrArg (· ++ _) ?_)
      simp [Piece.named, spelled, flatMap_map]
    | cwd => exact (replace_cwd _).trans (by simp [Piece.named, spelled])

theorem basename_mem (h : basenamePattern <:+: template pieces) : .basename ∈ pieces := by
  induction pieces with
  | nil => simp [template, basenamePattern] at h
  | cons piece pieces ih =>
    cases piece with
    | text c plain =>
      have := (infix_cons_iff.mp h).resolve_left (not_basename_at plain.1)
      exact mem_cons_of_mem _ (ih this)
    | basename => exact mem_cons_self
    | cwd =>
      refine mem_cons_of_mem _ (ih ?_)
      simpa [Piece.source, cwdPattern, basenamePattern, infix_cons_iff, cons_prefix_cons] using h

theorem infix_of_basename_mem (h : .basename ∈ pieces) : basenamePattern <:+: template pieces := by
  obtain ⟨before, after, rfl⟩ := append_of_mem h
  exact ⟨template before, template after, by simp [template, Piece.source]⟩

theorem spelled_at (hp : '{' ∉ p) (marks : List (Option Char)) :
    p <+: marks.flatMap spelled ↔ p.map some <+: marks := by
  induction p generalizing marks with
  | nil => simp
  | cons c p ih =>
    simp only [mem_cons, not_or] at hp
    rcases marks with _ | ⟨_ | d, marks⟩
    · simp
    · simp [spelled, cwdPattern, cons_prefix_cons, Ne.symm hp.1]
    · simp [spelled, cons_prefix_cons, ← ih hp.2]

theorem replace_cwd_iff (path : Text) (hpath : path.head? = some '/') (marks : List (Option Char)) :
    replace cwdPattern path (marks.flatMap spelled) = marks.flatMap (·.elim path fun c => [c]) ↔
      ¬ cwdPattern.map some <:+: marks := by
  induction marks with
  | nil => simp [replace, replaceFrom, cwdPattern]
  | cons mark marks ih =>
    rw [flatMap_cons, flatMap_cons, infix_cons_iff]
    cases mark with
    | none =>
      rw [show spelled none = cwdPattern from rfl, replace_append (by decide), elim_none, append_cancel_left_eq, ih]
      simp [cwdPattern, cons_prefix_cons]
    | some c =>
      have hat : cwdPattern <+: c :: marks.flatMap spelled ↔ cwdPattern.map some <+: some c :: marks := by
        simp only [cwdPattern, map_cons, cons_prefix_cons, some.injEq]
        rw [spelled_at (by decide)]
        rfl
      by_cases hhere : cwdPattern.map some <+: some c :: marks
      · -- the path put in here begins with another character than the brace it replaces
        obtain ⟨rest, hrest⟩ := hat.mpr hhere
        obtain ⟨tail, rfl⟩ := head?_eq_some_iff.mp hpath
        obtain ⟨rfl, -⟩ := cons_eq_cons.mp hrest
        rw [show spelled (some '{') ++ marks.flatMap spelled = cwdPattern ++ rest from hrest.symm,
          replace_append (by decide)]
        simp [hhere]
      · rw [show spelled (some c) = [c] from rfl, singleton_append, replace_cons (hat.not.mpr hhere)]
        simp [hhere, ih]

theorem fileName_ne_nil {root : Root} {name : Text} (h : root.fileName = some name) : name ≠ [] := by
  rw [Root.fileName, filter_eq_some_iff] at h
  have hname := mem_of_getLast? h.1
  simp at hname
  exact hname.2.1

/-- An accepted template is text and placeholders exactly when its braces do not nest, and then the
placeholders are replaced all at once exactly when the directory's name forms no `{cwd}` with the text
around it. -/
theorem expandPlaceholders_simultaneous_iff (kind : String) (value : Text) (root : Root)
    (h : validateTemplate kind value = .ok ()) : ((∃ pieces, template pieces = value) ↔ unnested false value) ∧
    ∀ pieces name, template pieces = value → (.basename ∈ pieces → root.fileName = some name) →
      (expandPlaceholders value root = .ok (pieces.flatMap (Piece.value root.path name)) ↔
        ¬ cwdPattern.map some <:+: pieces.flatMap (Piece.named name)) := by
  refine ⟨⟨?_, fun hflat => exists_pieces value hflat (plain_of_accepted h)⟩, ?_⟩
  · rintro ⟨pieces, rfl⟩
    exact unnested_template pieces
  rintro pieces name rfl hname
  have hexpand : expandPlaceholders (template pieces) root =
      .ok (replace cwdPattern root.path (replace basenamePattern name (template pieces))) := by
    rw [expandPlaceholders, accepted_string h]
    by_cases hmem : .basename ∈ pieces
    · rw [if_pos (infix_of_basename_mem hmem), hname hmem, filter_some, if_pos]
      · rfl
      · simpa using fileName_ne_nil (hname hmem)
    · have hnone : ¬ basenamePattern <:+: template pieces := fun hin => hmem (basename_mem hin)
      rw [replace_eq_self hnone, if_neg hnone]
      rfl
  have hvalue : pieces.flatMap (Piece.value root.path name) =
      (pieces.flatMap (Piece.named name)).flatMap (·.elim root.path fun c => [c]) := by
    rw [flatMap_assoc]
    congr 1
    funext piece
    cases piece <;> simp [Piece.value, Piece.named, flatMap_map]
  rw [hexpand, hvalue, Except.ok.injEq, replace_basename]
  exact replace_cwd_iff root.path root.absolute _

/-- `{cwd}:{cwd.basename}`. -/
def bothPlaceholders : Text := cwdPattern ++ ':' :: basenamePattern

theorem both_placeholders_expand : validateTemplate "string" bothPlaceholders = .ok () ∧
      expandPlaceholders bothPlaceholders ⟨['/', 'a'], rfl⟩ = .ok ['/', 'a', ':', 'a'] := by
  have hok : validateTemplate "string" bothPlaceholders = .ok () := rfl
  refine ⟨hok, ?_⟩
  exact ((expandPlaceholders_simultaneous_iff "string" bothPlaceholders ⟨['/', 'a'], rfl⟩ hok).2
    [.cwd, .text ':' (by decide), .basename] ['a'] rfl (fun _ => rfl)).mpr (by decide)

/-- `{cwd{cwd.basename}}` is accepted though no text and placeholders make it up, and in the directory
`/{cwd}` the name put in for `{cwd.basename}` is read as a placeholder again. -/
theorem placeholders_rescanned :
    (∃ value : Text, validateTemplate "string" value = .ok () ∧ ¬ ∃ pieces, template pieces = value) ∧
    expandPlaceholders basenamePattern ⟨'/' :: cwdPattern, rfl⟩ = .ok ('/' :: cwdPattern) ∧
    Root.fileName ⟨'/' :: cwdPattern, rfl⟩ = some cwdPattern := by
  refine ⟨⟨['{', 'c', 'w', 'd'] ++ basenamePattern ++ ['}'], rfl, ?_⟩, rfl, rfl⟩
  rintro ⟨pieces, heq⟩
  have hflat := unnested_template pieces
  rw [heq] at hflat
  exact absurd hflat (by decide)

end Splinterm.Preset
