import Splinterm.Terminal.State

/-!
# Searching the normal screen

`search_normal` scans the retained rows from the newest on and stops at a result limit or at a
deadline; the daemon turns the offset it returns into a cursor and a client follows cursors
until none comes. The row at which a deadline expires was counted but not looked at, so the
next page starts behind it: the search is complete exactly when no such row holds the query.
-/

namespace Splinterm.Terminal

set_option linter.dupNamespace false

open Lib.Hoare List Option

/-! ## Cursors -/

def hexDigit (value : Nat) : Char := "0123456789abcdef".toList.getD value '0'

/-- `char::to_digit(16)`. -/
def hexValue (c : Char) : Option Nat :=
  if '0' ≤ c ∧ c ≤ '9' then some (c.toNat - '0'.toNat)
  else if 'a' ≤ c ∧ c ≤ 'f' then some (c.toNat - 'a'.toNat + 10)
  else if 'A' ≤ c ∧ c ≤ 'F' then some (c.toNat - 'A'.toNat + 10)
  else none

/-- The `count` low hexadecimal digits of a number, highest first. -/
def hexDigits (n : Nat) : Nat → List Char
  | 0 => []
  | count + 1 => hexDigits (n / 16) count ++ [hexDigit (n % 16)]

/-- The format `{offset:016x}` of a 64-bit offset. -/
def encodeSearchCursor (offset : Nat) : List Char := hexDigits offset 16

/-- One digit of `usize::from_str_radix(.., 16)`, which refuses to overflow. -/
def pushDigit (value : Nat) (c : Char) : Option Nat :=
  (hexValue c).bind fun digit =>
    if value * 16 + digit < 2 ^ 64 then some (value * 16 + digit) else none

def withoutSign : List Char → List Char
  | [] => []
  | c :: rest => if c = '+' then rest else c :: rest

/-- `usize::from_str_radix(.., 16)`. -/
def parseHex (text : List Char) : Option Nat :=
  if withoutSign text = [] then none else (withoutSign text).foldlM pushDigit 0

def maxSearchCursorBytes : Nat := 32

/-- `str::len`. -/
def byteLength (text : List Char) : Nat := (text.map Char.utf8Size).sum

def decodeSearchCursor : Option (List Char) → Except String Nat
  | none => .ok 0
  | some cursor =>
    if cursor = [] ∨ maxSearchCursorBytes < byteLength cursor then
      .error "search cursor exceeds limit"
    else
      match parseHex cursor with
      | some offset => .ok offset
      | none => .error "search cursor is invalid"

theorem hexValue_hexDigit : ∀ value < 16, hexValue (hexDigit value) = some value := by decide

theorem hexDigit_ne_plus : ∀ value < 16, hexDigit value ≠ '+' := by decide

theorem utf8Size_hexDigit : ∀ value < 16, (hexDigit value).utf8Size = 1 := by decide

theorem foldlM_hexDigits (n : Nat) {count : Nat} (h : count ≤ 16) :
    (hexDigits n count).foldlM pushDigit 0 = some (n % 16 ^ count) := by
  induction count generalizing n with
  | zero => simp [hexDigits, Nat.mod_one]
  | succ count ih =>
    have hlt : n % 16 < 16 := Nat.mod_lt _ (by decide)
    have hvalue : n / 16 % 16 ^ count * 16 + n % 16 = n % 16 ^ (count + 1) := by
      rw [Nat.pow_succ', Nat.mod_mul]
      omega
    have hbound : n % 16 ^ (count + 1) < 2 ^ 64 :=
      calc n % 16 ^ (count + 1) < 16 ^ (count + 1) := Nat.mod_lt _ (Nat.pow_pos (by decide))
        _ ≤ 16 ^ 16 := Nat.pow_le_pow_right (by decide) h
    have hpush : pushDigit (n / 16 % 16 ^ count) (hexDigit (n % 16)) = some (n % 16 ^ (count + 1)) := by
      rw [pushDigit, hexValue_hexDigit _ hlt, bind_some, hvalue, if_pos hbound]
    rw [hexDigits, foldlM_append, ih _ (by omega)]
    simp only [bind_eq_bind, bind_some, foldlM_cons, foldlM_nil, hpush]
    rfl

theorem byteLength_hexDigits (n count : Nat) : byteLength (hexDigits n count) = count := by
  induction count generalizing n with
  | zero => rfl
  | succ count ih =>
    have hlt : n % 16 < 16 := Nat.mod_lt _ (by decide)
    have := ih (n / 16)
    rw [byteLength] at this ⊢
    rw [hexDigits, map_append, List.sum_append, this]
    simp [utf8Size_hexDigit _ hlt]

theorem head_hexDigits (n count : Nat) :
    ∃ digits value, value < 16 ∧ hexDigits n (count + 1) = hexDigit value :: digits := by
  induction count generalizing n with
  | zero => exact ⟨[], n % 16, Nat.mod_lt _ (by decide), rfl⟩
  | succ count ih =>
    obtain ⟨digits, value, hlt, heq⟩ := ih (n / 16)
    exact ⟨digits ++ [hexDigit (n % 16)], value, hlt, by rw [hexDigits, heq, cons_append]⟩

/-- A cursor leads back to the offset it was made from. -/
theorem decode_encodeSearchCursor {offset : Nat} (h : offset < 2 ^ 64) :
    decodeSearchCursor (some (encodeSearchCursor offset)) = .ok offset := by
  obtain ⟨digits, value, hlt, heq⟩ := head_hexDigits offset 15
  have hsign : withoutSign (hexDigits offset 16) = hexDigits offset 16 := by
    rw [heq, withoutSign, if_neg (hexDigit_ne_plus value hlt)]
  have hne : hexDigits offset 16 ≠ [] := heq ▸ cons_ne_nil _ _
  have hparse : parseHex (hexDigits offset 16) = some offset := by
    rw [parseHex, hsign, if_neg hne, foldlM_hexDigits offset le_rfl]
    exact congrArg some (Nat.mod_eq_of_lt h)
  have haccepted : ¬ (hexDigits offset 16 = [] ∨ maxSearchCursorBytes < byteLength (hexDigits offset 16)) := by
    rw [byteLength_hexDigits, not_or]
    exact ⟨hne, by decide⟩
  rw [decodeSearchCursor, encodeSearchCursor, if_neg haccepted, hparse]

/-! ## The text of a row -/

/-- What the search takes from the libraries: `str::to_lowercase` and the whitespace that
`str::trim_end` trims. -/
structure SearchLibrary where
  toLowercase : List Char → List Char
  isWhitespace : Char → Bool

structure SearchMatch where
  rowId : Nat
  startColumn : Nat
  endColumn : Nat
  preview : List Char

def utf8 (text : List Char) : List UInt8 := text.flatMap String.utf8EncodeChar

/-- `str::find` on bytes: in valid UTF-8 a first occurrence starts at a character. -/
def findBytes (needle : List UInt8) : List UInt8 → Option Nat
  | [] => if needle = [] then some 0 else none
  | b :: rest =>
    if (b :: rest).take needle.length = needle then some 0
    else (findBytes needle rest).map (· + 1)

/-- A row as it is searched: the text, the bytes compared and the columns of each byte. -/
structure RowText where
  original : List Char := []
  searchable : List UInt8 := []
  byteColumns : List (Nat × Nat) := []

/-- The characters of a cell; a spacer is passed over. -/
def cellText (composed : ComposedTable) : CellContent → Option (List Char)
  | .empty => some [' ']
  | .scalar character => some [character]
  | .composed key => some ((composed.chars key).getD [])
  | .spacer _ => none

def endColumn (cells : List Cell) (column : Nat) : Nat :=
  match cells[column + 1]?.map Cell.content with
  | some (.spacer remaining) => column + remaining + 1
  | _ => column + 1

def normalized (lib : SearchLibrary) (caseSensitive : Bool) (text : List Char) : List Char :=
  if caseSensitive then text else lib.toLowercase text

/-- One turn of the loop over the cells. -/
def RowText.push (lib : SearchLibrary) (composed : ComposedTable) (caseSensitive : Bool)
    (cells : List Cell) (text : RowText) (entry : Cell × Nat) : RowText :=
  match cellText composed entry.1.content with
  | none => text
  | some content =>
    let bytes := utf8 (normalized lib caseSensitive content)
    { original := text.original ++ content
      searchable := text.searchable ++ bytes
      byteColumns := text.byteColumns ++ List.replicate bytes.length (entry.2, endColumn cells entry.2) }

def rowText (lib : SearchLibrary) (composed : ComposedTable) (caseSensitive : Bool) (row : Row) : RowText :=
  row.cells.zipIdx.foldl (RowText.push lib composed caseSensitive row.cells) {}

/-- Pops characters off the end until 256 bytes are left; the text is given back to front. -/
def shortened : List Char → List Char
  | [] => []
  | c :: rest => if 256 < byteLength (c :: rest) then shortened rest else c :: rest

def preview (lib : SearchLibrary) (original : List Char) : List Char :=
  (shortened (original.reverse.dropWhile lib.isWhitespace)).reverse

/-- What a row that was looked at adds to the results. -/
def examineRow (lib : SearchLibrary) (composed : ComposedTable) (caseSensitive : Bool)
    (needle : List UInt8) (entry : Nat × Row) : Option SearchMatch :=
  let text := rowText lib composed caseSensitive entry.2
  (findBytes needle text.searchable).bind fun start =>
    text.byteColumns[start]?.bind fun first =>
      text.byteColumns[start + needle.length - 1]?.map fun last =>
        { rowId := entry.1
          startColumn := first.1
          endColumn := last.2
          preview := preview lib text.original }

/-! ## One page -/

/-- The state in which the scan leaves its loop. -/
structure Scan where
  scannedRows : Nat
  results : List SearchMatch
  hasOlder : Bool
  timedOut : Bool

/-- The loop of `search_normal`. `expired n` is the outcome of the deadline test at the row after
the first `n`. -/
def scanRows (examine : Nat × Row → Option SearchMatch) (maximumResults : Nat)
    (expired : Nat → Bool) : List (Nat × Row) → Nat → List SearchMatch → Scan
  | [], scannedRows, results => { scannedRows, results, hasOlder := false, timedOut := false }
  | entry :: rest, scannedRows, results =>
    -- the row is counted before the deadline is tested
    if expired scannedRows then
      { scannedRows := scannedRows + 1, results, hasOlder := true, timedOut := true }
    else
      let results := results ++ (examine entry).toList
      if results.length = maximumResults then
        { scannedRows := scannedRows + 1, results, hasOlder := !rest.isEmpty, timedOut := false }
      else scanRows examine maximumResults expired rest (scannedRows + 1) results

structure SearchPage where
  historyGeneration : Nat
  terminalRevision : Nat
  results : List SearchMatch
  hasOlder : Bool
  nextOffset : Option Nat
  timedOut : Bool

namespace Terminal

def searchNormal (lib : SearchLibrary) (query : List Char) (caseSensitive : Bool)
    (skipRows maximumResults : Nat) (expired : Nat → Bool) (t : Terminal) : SearchPage :=
  let needle := utf8 (normalized lib caseSensitive query)
  let scan := scanRows (examineRow lib t.composed caseSensitive needle) maximumResults expired
    (t.normal.rowsReverse.drop skipRows) 0 []
  { historyGeneration := t.normal.historyGeneration
    terminalRevision := t.revision
    results := scan.results
    hasOlder := scan.hasOlder
    nextOffset :=
      if scan.hasOlder then some (min (skipRows + scan.scannedRows) (2 ^ 64 - 1)) else none
    timedOut := scan.timedOut }

/-- A client that asks for page after page with the cursor it was given, `requests` times at
most. `expired number` are the deadline tests of the page `number`. -/
def followSearch (lib : SearchLibrary) (query : List Char) (caseSensitive : Bool)
    (maximumResults : Nat) (expired : Nat → Nat → Bool) (t : Terminal) :
    (requests number : Nat) → Option (List Char) → Option (List SearchPage)
  | 0, _, _ => none
  | requests + 1, number, cursor =>
    match decodeSearchCursor cursor with
    | .error _ => none
    | .ok skipRows =>
      let page := searchNormal lib query caseSensitive skipRows maximumResults (expired number) t
      match page.nextOffset with
      | none => some [page]
      | some offset =>
        (followSearch lib query caseSensitive maximumResults expired t requests (number + 1)
          (some (encodeSearchCursor offset))).map (page :: ·)

end Terminal

/-! ## Rows that hold the query -/

variable {needle hay : List UInt8}

theorem findBytes_eq_some {start : Nat}
    (h : findBytes needle hay = some start) : (hay.drop start).take needle.length = needle := by
  fun_induction findBytes generalizing start with
  | case1 hempty =>
    rw [hempty]
    rfl
  | case2 => cases h
  | case3 _ _ hhere =>
    obtain rfl := some.inj h
    exact hhere
  | case4 _ _ _ ih =>
    obtain ⟨later, hlater, rfl⟩ := map_eq_some_iff.mp h
    exact ih hlater

theorem findBytes_eq_none (h : findBytes needle hay = none)
    (before after : List UInt8) : before ++ needle ++ after ≠ hay := by
  intro heq
  replace heq := heq.symm
  fun_induction findBytes generalizing before with
  | case1 | case3 => cases h
  | case2 hne =>
    rw [eq_comm, append_eq_nil_iff, append_eq_nil_iff] at heq
    exact hne heq.1.2
  | case4 b rest hne ih =>
    cases before with
    | nil =>
      apply hne
      rw [heq, nil_append, take_left']
      rfl
    | cons b' before =>
      exact ih (map_eq_none_iff.mp h) before (List.cons.inj heq).2

/-- In a text that is not empty an occurrence starts and ends at bytes of the text. -/
theorem findBytes_bounds {start : Nat} (h : findBytes needle hay = some start) (hne : hay ≠ []) :
    start < hay.length ∧ start + needle.length - 1 < hay.length := by
  have hpos := length_pos_iff.mpr hne
  by_cases hempty : needle = []
  · subst hempty
    obtain rfl : start = 0 := by
      cases hay with
      | nil => exact absurd rfl hne
      | cons b rest => simpa [findBytes, eq_comm] using h
    simpa using hpos
  · have hneedle := length_pos_iff.mpr hempty
    have hlength := congrArg List.length (findBytes_eq_some h)
    rw [length_take, length_drop] at hlength
    omega

variable {lib : SearchLibrary} {composed : ComposedTable} {caseSensitive : Bool}
  {needle : List UInt8}

theorem length_byteColumns (lib : SearchLibrary) (composed : ComposedTable) (caseSensitive : Bool)
    (row : Row) : (rowText lib composed caseSensitive row).byteColumns.length =
      (rowText lib composed caseSensitive row).searchable.length := by
  have hpush (text : RowText) (entry : Cell × Nat)
      (h : text.byteColumns.length = text.searchable.length) :
      (text.push lib composed caseSensitive row.cells entry).byteColumns.length =
        (text.push lib composed caseSensitive row.cells entry).searchable.length := by
    rw [RowText.push]
    split
    · exact h
    · simp [h]
  rw [rowText]
  generalize row.cells.zipIdx = entries
  have hrun (text : RowText) (h : text.byteColumns.length = text.searchable.length) :
      (entries.foldl (RowText.push lib composed caseSensitive row.cells) text).byteColumns.length =
        (entries.foldl (RowText.push lib composed caseSensitive row.cells) text).searchable.length := by
    induction entries generalizing text with
    | nil => exact h
    | cons entry entries ih => exact ih _ (hpush text entry h)
  exact hrun {} rfl

/-- The text of the row has the query in it. -/
def HoldsQuery (lib : SearchLibrary) (composed : ComposedTable) (caseSensitive : Bool)
    (needle : List UInt8) (row : Row) : Prop :=
  needle <:+: (rowText lib composed caseSensitive row).searchable

instance (row : Row) : Decidable (HoldsQuery lib composed caseSensitive needle row) :=
  inferInstanceAs (Decidable (_ <:+: _))

/-- A row that is looked at is reported when it holds the query; a row without any text has no
column to report, which matters to the empty query only. -/
theorem isSome_examineRow_iff (entry : Nat × Row) :
    (examineRow lib composed caseSensitive needle entry).isSome = true ↔
      HoldsQuery lib composed caseSensitive needle entry.2 ∧
        (rowText lib composed caseSensitive entry.2).searchable ≠ [] := by
  have hlength := length_byteColumns lib composed caseSensitive entry.2
  rw [examineRow]
  set text := rowText lib composed caseSensitive entry.2 with htext
  cases hfind : findBytes needle text.searchable with
  | none =>
    have hnone := findBytes_eq_none hfind
    simp only [bind_none, isSome_none, Bool.false_eq_true, false_iff, not_and]
    rintro ⟨before, after, heq⟩
    exact absurd heq (hnone before after)
  | some start =>
    have hholds : HoldsQuery lib composed caseSensitive needle entry.2 := by
      have hpart : (text.searchable.drop start).take needle.length <:+: text.searchable :=
        IsInfix.trans ( take_prefix _ _).isInfix (drop_suffix _ _).isInfix
      rwa [findBytes_eq_some hfind] at hpart
    simp only [bind_some]
    constructor
    · intro hsome
      refine ⟨hholds, fun hempty => ?_⟩
      rw [hempty] at hlength
      rw [eq_nil_of_length_eq_zero hlength] at hsome
      simp at hsome
    · rintro ⟨-, hne⟩
      obtain ⟨hstart, hstop⟩ := findBytes_bounds hfind hne
      rw [← hlength] at hstart hstop
      rw [getElem?_eq_getElem hstart, getElem?_eq_getElem hstop]
      rfl

end Splinterm.Terminal
