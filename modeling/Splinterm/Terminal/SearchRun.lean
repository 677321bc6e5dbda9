import Splinterm.Terminal.HistoryPage
import Splinterm.Terminal.Search

/-!
# Following a search

What the pages of a search report, whatever the deadlines do: every row is reported at most
once, and a row that holds the query is reported unless a deadline expired at it.
-/

namespace Splinterm.Terminal

set_option linter.dupNamespace false

open Lib Hoare List Nat RingBuffer

variable {examine : Nat × Row → Option SearchMatch} {holds : Nat × Row → Bool} {maximumResults : Nat}
  {expired : Nat → Nat → Bool}

/-! ## Lost rows -/

/-- The rows at which a deadline expires, for the deadline tests of each page, by the page, how many rows lie
between its start and the next row, and how many of them hold the query: a page ends with the row that fills it
or the row at which its deadline expired, and the next one starts behind that row. -/
def lostRows (holds : Nat × Row → Bool) (maximumResults : Nat) (expired : Nat → Nat → Bool) :
    (number row found : Nat) → List (Nat × Row) → List (Nat × Row)
  | _, _, _, [] => []
  | number, row, found, entry :: rest =>
    if expired number row then entry :: lostRows holds maximumResults expired (number + 1) 0 0 rest
    else if found + (holds entry).toNat = maximumResults then
      lostRows holds maximumResults expired (number + 1) 0 0 rest
    else lostRows holds maximumResults expired number (row + 1) (found + (holds entry).toNat) rest

/-- Without deadlines no row is lost. -/
theorem lostRows_eq_nil (hnever : ∀ number n, expired number n = false) (number row found : Nat)
    (rows : List (Nat × Row)) : lostRows holds maximumResults expired number row found rows = [] := by
  induction rows generalizing number row found with
  | nil => rfl
  | cons entry rest ih => simp [lostRows, hnever, ih]

/-! ## One page -/

/-- A page looks at some rows, passes over the next one if its deadline expired there, and leaves the others. -/
theorem scanRows_eq (maximumResults : Nat) (expired : Nat → Nat → Bool)
    (hholds : ∀ entry, (examine entry).isSome = holds entry) (number scannedRows : Nat) (results : List SearchMatch)
    (rows : List (Nat × Row)) :
    let scan := scanRows examine maximumResults (expired number) rows scannedRows results
    ∃ done skipped rest, rows = done ++ (skipped ++ rest) ∧ scan.results = results ++ done.filterMap examine ∧
      scan.scannedRows = scannedRows + done.length + skipped.length ∧
      lostRows holds maximumResults expired number scannedRows results.length rows =
        skipped ++ lostRows holds maximumResults expired (number + 1) 0 0 rest ∧
      (scan.hasOlder = false → rest = []) ∧ (scan.hasOlder = true → done ++ skipped ≠ []) := by
  have hlength : ∀ entry, (examine entry).toList.length = (holds entry).toNat := by
    intro entry
    rw [← hholds]
    cases examine entry <;> rfl
  fun_induction scanRows examine maximumResults (expired number) rows scannedRows results with
  | case1 => exact ⟨[], [], [], by simp [lostRows]⟩
  | case2 entry rest scannedRows results hexpired => exact ⟨[], [entry], rest, by simp [lostRows, hexpired]⟩
  | case3 entry rest scannedRows results hexpired found hfull =>
    refine ⟨[entry], [], rest, rfl, ?_, rfl, ?_, by simp, by simp⟩
    · cases hentry : examine entry <;> simp [found, hentry]
    · simp only [found, length_append, hlength] at hfull
      simp [lostRows, hexpired, hfull]
  | case4 entry rest scannedRows results hexpired found hfull ih =>
    obtain ⟨done, skipped, rest', rfl, hresults, hscanned, hlost, hnone, hsome⟩ := ih
    refine ⟨entry :: done, skipped, rest', rfl, ?_, ?_, ?_, hnone, by simp⟩
    · rw [hresults]
      cases hentry : examine entry <;> simp [found, hentry]
    · simp [hscanned]
      omega
    · simp [found, hlength] at hfull hlost
      simp [lostRows, hexpired, hfull, hlost]

/-! ## Page after page -/

/-- How many pages report the row. -/
def reportCount (pages : List SearchPage) (rowId : Nat) : Nat :=
  pages.countP fun page => page.results.any fun result => result.rowId = rowId

/-- The pages of a search of the rows still before it and the rows that are lost: each page looks at some rows and
passes over a lost one or none. -/
inductive Covers (examine : Nat × Row → Option SearchMatch) :
    List (Nat × Row) → List (Nat × Row) → List SearchPage → Prop where
  | nil : Covers examine [] [] []
  | page {page : SearchPage} {pages : List SearchPage} {done skipped rest lost : List (Nat × Row)}
      (hresults : page.results = done.filterMap examine) (h : Covers examine rest lost pages) :
      Covers examine (done ++ (skipped ++ rest)) (skipped ++ lost) (page :: pages)

namespace Covers

variable {rows lost done rest : List (Nat × Row)} {entry : Nat × Row} {pages : List SearchPage} {page : SearchPage}

theorem lost_subset (h : Covers examine rows lost pages) : lost ⊆ rows := by
  induction h with
  | nil => exact nil_subset _
  | page _ _ ih => exact fun entry hentry =>
      mem_append_right _ (mem_append.mpr ((mem_append.mp hentry).imp_right (ih ·)))

/-! ## What is reported -/

/-- Results carry the identities of the rows they were found in. -/
def Names (examine : Nat × Row → Option SearchMatch) : Prop :=
  ∀ entry result, examine entry = some result → result.rowId = entry.1

theorem any_results_iff (hnames : Names examine) (hresults : page.results = done.filterMap examine)
    {rowId : Nat} : (page.results.any fun result => result.rowId = rowId) = true ↔
      ∃ entry ∈ done, entry.1 = rowId ∧ (examine entry).isSome = true := by
  rw [hresults, any_eq_true]
  constructor
  · rintro ⟨result, hmem, hid⟩
    obtain ⟨entry, hentry, hfound⟩ := mem_filterMap.mp hmem
    refine ⟨entry, hentry, ?_, Option.isSome_of_eq_some hfound⟩
    rw [← hnames entry result hfound]
    exact of_decide_eq_true hid
  · rintro ⟨entry, hentry, rfl, hsome⟩
    obtain ⟨result, hfound⟩ := Option.isSome_iff_exists.mp hsome
    exact ⟨result, mem_filterMap.mpr ⟨entry, hentry, hfound⟩, decide_eq_true (hnames entry result hfound)⟩

theorem reportCount_cons (page : SearchPage) (pages : List SearchPage) (rowId : Nat) :
    reportCount (page :: pages) rowId = reportCount pages rowId +
      if (page.results.any fun result => result.rowId = rowId) = true then 1 else 0 :=
  countP_cons

/-- A page does not report the rows behind it. -/
theorem reportCount_later (hnames : Names examine) (hresults : page.results = done.filterMap examine)
    {rowId : Nat} (hnot : ∀ entry ∈ done, entry.1 ≠ rowId) :
    reportCount (page :: pages) rowId = reportCount pages rowId := by
  rw [reportCount_cons, if_neg, add_zero]
  rw [any_results_iff hnames hresults]
  rintro ⟨entry, hentry, hid, -⟩
  exact hnot entry hentry hid

theorem reportCount_eq_zero (hnames : Names examine) (h : Covers examine rows lost pages)
    {rowId : Nat} (hnot : ∀ entry ∈ rows, entry.1 ≠ rowId) : reportCount pages rowId = 0 := by
  induction h with
  | nil => rfl
  | page hresults _ ih =>
    rw [reportCount_later hnames hresults fun entry hentry => hnot entry (mem_append_left _ hentry)]
    exact ih fun entry hentry => hnot entry (mem_append_right _ (mem_append_right _ hentry))

/-- A page that passed a row reports it when looking at the row gives a result. -/
theorem reportCount_passed (hnames : Names examine) (hresults : page.results = done.filterMap examine)
    (hids : (done.map (·.1)).Nodup) (hentry : entry ∈ done) (hzero : reportCount pages entry.1 = 0) :
    reportCount (page :: pages) entry.1 ≤ 1 ∧
      (reportCount (page :: pages) entry.1 = 1 ↔ (examine entry).isSome = true) := by
  have hany : (page.results.any fun result => result.rowId = entry.1) = (examine entry).isSome := by
    rw [Bool.eq_iff_iff, any_results_iff hnames hresults]
    constructor
    · rintro ⟨other, hother, hid, hsome⟩
      rwa [← inj_on_of_nodup_map hids hother hentry hid]
    · exact fun hsome => ⟨entry, hentry, rfl, hsome⟩
  rw [reportCount_cons, hany, hzero]
  cases (examine entry).isSome <;> simp

/-- A row is reported once when looking at it gives a result and it is not lost, and not at all
otherwise. -/
theorem reportCount_iff (hnames : Names examine) (h : Covers examine rows lost pages)
    (hids : (rows.map (·.1)).Nodup) (hentry : entry ∈ rows) :
    reportCount pages entry.1 ≤ 1 ∧ (reportCount pages entry.1 = 1 ↔ entry ∉ lost ∧ (examine entry).isSome = true) := by
  induction h with
  | nil => cases hentry
  | @page page pages done skipped rest lost hresults h ih =>
    rw [map_append, nodup_append, map_append, nodup_append, ← map_append] at hids
    obtain ⟨hdone, ⟨-, hlater, hcross'⟩, hcross⟩ := hids
    have hapart {a b : Nat × Row} (ha : a ∈ done) (hb : b ∈ skipped ++ rest) : a.1 ≠ b.1 :=
      hcross _ (mem_map_of_mem ha) _ (mem_map_of_mem hb)
    have hbeyond {a b : Nat × Row} (ha : a ∈ skipped) (hb : b ∈ rest) : a.1 ≠ b.1 :=
      hcross' _ (mem_map_of_mem ha) _ (mem_map_of_mem hb)
    rw [mem_append, not_or]
    rcases mem_append.mp hentry with hin | hin
    · have hnot : entry ∉ skipped ∧ entry ∉ lost :=
        ⟨fun hmem => hapart hin (mem_append_left _ hmem) rfl,
          fun hmem => hapart hin (mem_append_right _ (h.lost_subset hmem)) rfl⟩
      obtain ⟨hle, hiff⟩ := reportCount_passed hnames hresults hdone hin (h.reportCount_eq_zero hnames
        fun other hother => (hapart hin (mem_append_right _ hother)).symm)
      exact ⟨hle, hiff.trans ⟨fun hsome => ⟨hnot, hsome⟩, And.right⟩⟩
    · rw [reportCount_later hnames hresults fun other hother => hapart hother hin]
      rcases mem_append.mp hin with hpassed | hbehind
      · -- the row at which the deadline expired is behind neither page
        rw [h.reportCount_eq_zero hnames fun other hother => (hbeyond hpassed hother).symm]
        exact ⟨zero_le 1, fun hone => absurd hone zero_ne_one, fun hnot => absurd hpassed hnot.1.1⟩
      · obtain ⟨hle, hiff⟩ := ih hlater hbehind
        have hne : entry ∉ skipped := fun hmem => hbeyond hmem hbehind rfl
        exact ⟨hle, hiff.trans ⟨fun h => ⟨⟨hne, h.1⟩, h.2⟩, fun h => ⟨h.1.2, h.2⟩⟩⟩

end Covers

/-! ## The search of a terminal -/

namespace Terminal

variable {lib : SearchLibrary} {query : List Char} {caseSensitive : Bool} {t : Terminal}

/-- The bytes a row is searched for. -/
def needleOf (lib : SearchLibrary) (caseSensitive : Bool) (query : List Char) : List UInt8 :=
  utf8 (normalized lib caseSensitive query)

/-- A row that is looked at gives a result: it holds the query and has text. -/
def Reported (lib : SearchLibrary) (query : List Char) (caseSensitive : Bool) (t : Terminal) (entry : Nat × Row) : Bool :=
  HoldsQuery lib t.composed caseSensitive (needleOf lib caseSensitive query) entry.2 ∧
    (rowText lib t.composed caseSensitive entry.2).searchable ≠ []

/-- The pages a client receives cover the rows, whatever the deadlines do. -/
theorem covers_followSearch (lib : SearchLibrary) (query : List Char) (caseSensitive : Bool)
    (maximumResults : Nat) (expired : Nat → Nat → Bool) (hsize : t.normal.rowsReverse.length < 2 ^ 64)
    (requests number : Nat) {skip : Nat} {cursor : Option (List Char)}
    (hcursor : decodeSearchCursor cursor = .ok skip) (hskip : skip ≤ t.normal.rowsReverse.length)
    (hrequests : t.normal.rowsReverse.length - skip < requests) :
    ∃ pages, followSearch lib query caseSensitive maximumResults expired t requests number cursor = some pages ∧
      Covers (examineRow lib t.composed caseSensitive (needleOf lib caseSensitive query)) (t.normal.rowsReverse.drop skip)
        (lostRows (Reported lib query caseSensitive t) maximumResults expired number 0 0 (t.normal.rowsReverse.drop skip))
        pages := by
  induction requests generalizing number skip cursor with
  | zero => omega
  | succ requests ih =>
    have hreported (entry : Nat × Row) :
        (examineRow lib t.composed caseSensitive (needleOf lib caseSensitive query) entry).isSome =
          Reported lib query caseSensitive t entry := by
      rw [Bool.eq_iff_iff, isSome_examineRow_iff, Reported, decide_eq_true_iff]
    have hpage := scanRows_eq maximumResults expired hreported number 0 [] (t.normal.rowsReverse.drop skip)
    rw [followSearch, hcursor]
    dsimp only
    rw [searchNormal, ← needleOf]
    generalize scanRows _ _ _ _ _ _ = scan at hpage ⊢
    obtain ⟨done, skipped, rest, hrows, hresults, hscanned, hlost, hnone, hsome⟩ := hpage
    have hlength := congrArg List.length hrows
    rw [length_drop, length_append, length_append] at hlength
    rw [length_nil] at hlost
    rw [hlost]
    cases holder : scan.hasOlder with
    | false =>
      obtain rfl := hnone holder
      exact ⟨_, rfl, hrows ▸ .page hresults .nil⟩
    | true =>
      have hmoved := length_pos_iff.mpr (hsome holder)
      rw [length_append] at hmoved
      set next := skip + (done.length + skipped.length) with hnext
      have hoffset : min (skip + scan.scannedRows) (2 ^ 64 - 1) = next := by omega
      have hcursor' : decodeSearchCursor (some (encodeSearchCursor next)) = .ok next :=
        decode_encodeSearchCursor (by omega)
      obtain ⟨pages, hpages, hcovers⟩ := ih (number + 1) hcursor' (by omega) (by omega)
      have hdrop : t.normal.rowsReverse.drop next = rest := by
        rw [hnext, ← drop_drop, hrows, ← append_assoc, drop_left' (length_append ..)]
      rw [hdrop] at hcovers
      simp only [if_true, hoffset, hpages]
      exact ⟨_, rfl, hrows ▸ .page hresults hcovers⟩

theorem names_examineRow (needle : List UInt8) : Covers.Names (examineRow lib t.composed caseSensitive needle) := by
  intro entry result h
  obtain ⟨start, -, h⟩ := Option.bind_eq_some_iff.mp h
  obtain ⟨first, -, h⟩ := Option.bind_eq_some_iff.mp h
  obtain ⟨last, -, rfl⟩ := Option.map_eq_some_iff.mp h
  rfl

end Terminal

namespace Grid

variable {policy : Policy} {g : Grid}

theorem length_rowsReverse_le (g : Grid) : g.rowsReverse.length ≤ g.rowCapacity := by
  calc g.rowsReverse.length
    _ ≤ g.chronological.reverse.length := length_filterMap_le _ _
    _ = g.rowCapacity := by rw [length_reverse, chronological, length_window]

theorem Inv.nodup_rowsReverse (h : g.Inv policy) : (g.rowsReverse.map (·.1)).Nodup := by
  rw [rowsReverse, filterMap_reverse, map_reverse, nodup_reverse, chronological,
    window, filterMap_map, map_filterMap, List.Nodup, pairwise_filterMap]
  refine pairwise_lt_range.imp_of_mem ?_
  intro k k' hk hk' hlt id hid id' hid' heq
  rw [mem_range] at hk hk'
  simp only [Function.comp_apply, Slot.identified, Option.map_map, Option.map_eq_some_iff] at hid hid'
  obtain ⟨_, hsome, rfl⟩ := hid
  obtain ⟨_, hsome', rfl⟩ := hid'
  have hindex := h.stored.distinct _ _ (Option.isSome_of_eq_some hsome)
    (Option.isSome_of_eq_some hsome') heq
  have hsize : g.slots.size = g.rowCapacity := rfl
  rw [index_inj (w := (g.offset : Int) + g.screenRows) (by omega) (by omega) (by omega) (by omega)] at hindex
  omega

end Grid

namespace Terminal

/-- The region of a screen without margins. -/
def wholeScreen (rows : Nat) : ScrollRegion := ⟨0, rows, Nat.zero_le rows⟩

def blankTerminal : Terminal where
  normal := Grid.freshScreen
  alternate := Grid.freshScreen
  parser := { oscLimit := 16, dcsLimit := 16 }
  config := {}
  scrollRegion := wholeScreen 2
  tabStops := []
  composed := { limit := 0 }
  images := ImagePlane.new {} none
  sixelPaletteMode := .shared
  sixelSharedPalette := []
  sixelMaximumWidth := 0
  sixelMaximumHeight := 0
  palette := []
  initialPalette := []
  defaultColors := []
  initialDefaultColors := []

theorem blankTerminal_inv : blankTerminal.normal.Inv Grid.anyRow :=
  Grid.inv_of_withScreenSize (rfl : Grid.withScreenSize 4 1 2 = .ok Grid.freshScreen)

/-- Lowercase and whitespace of ASCII. -/
def asciiLibrary : SearchLibrary := ⟨List.map Char.toLower, Char.isWhitespace⟩

end Terminal

end Splinterm.Terminal
