import Mathlib.Algebra.Ring.Nat
import Mathlib.Data.List.Infix

/-!
# Older history in a window's cache

A window caches a block of the terminal's history. Older pages are put before it, and what exceeds
the bounds is cut at the newest end. How many rows are older than the block is computed from row ids,
which counts the ids that no row has.
-/

namespace Splinterm.Window

open List

structure TerminalCell where
  content : String
  spacerRemaining : Option Nat := none

structure TerminalRow where
  rowId : Option Nat
  cells : List TerminalCell := []

structure TerminalSnapshot where
  splintId : Nat
  incarnation : Nat
  revision : Nat
  historyGeneration : Nat
  visibleRows : List TerminalRow
  scrollbackRows : List TerminalRow
  oldestAvailableScrollbackRowId : Option Nat
  newestAvailableScrollbackRowId : Option Nat
  availableScrollbackRows : Nat
  omittedOldestScrollbackRows : Nat

structure ScrollbackPage where
  splintId : Nat
  incarnation : Nat
  terminalRevision : Nat
  historyGeneration : Nat
  oldestAvailableRowId : Option Nat
  newestAvailableRowId : Option Nat
  rows : List TerminalRow

def maxCachedHistoryRows : Nat := 4096

def maxCachedHistoryBytes : Nat := 16 * 1024 * 1024

def terminalRowCacheBytes (row : TerminalRow) : Nat :=
  row.cells.foldl (fun total cell => total + 64 + cell.content.utf8ByteSize) 32

def historyCacheBytes (rows : List TerminalRow) : Nat := (rows.map terminalRowCacheBytes).sum

def omittedRowsBeforeCache (oldestAvailableRowId : Option Nat) (rows : List TerminalRow) (availableRows : Nat) : Nat :=
  match oldestAvailableRowId, rows.head?.bind (·.rowId) with
  | some oldest, some first => if oldest ≤ first then min (first - oldest) availableRows else availableRows - rows.length
  | _, _ => availableRows - rows.length

/-- The loop that lets go of rows while `bytes` exceed the bound, on the rows in the order in which
they go. -/
def letGo : Nat → List TerminalRow → List TerminalRow
  | _, [] => []
  | bytes, row :: rows =>
    if maxCachedHistoryBytes < bytes then letGo (bytes - terminalRowCacheBytes row) rows else row :: rows

def boundHistoryCache (rows : List TerminalRow) (keepOldest : Bool) : List TerminalRow :=
  if keepOldest then
    let kept := rows.take maxCachedHistoryRows
    (letGo (historyCacheBytes kept) kept.reverse).reverse
  else
    let kept := rows.drop (rows.length - maxCachedHistoryRows)
    letGo (historyCacheBytes kept) kept

def boundHistoryPageWithPins (rows : List TerminalRow) (pinnedSelectionRows : Option (Nat × Nat))
    (visibleRows : List TerminalRow) : Option (List TerminalRow) :=
  let rows := boundHistoryCache rows true
  let there (id : Nat) : Bool := (rows ++ visibleRows).any (·.rowId = some id)
  if pinnedSelectionRows.all fun pins => there pins.1 && there pins.2 then some rows else none

/-- What paging reads and changes of a pane; a selection is the rows of its anchor and its end. -/
structure Pane where
  snapshot : Option TerminalSnapshot
  selection : Option (Nat × Nat) := none
  historyPagePending : Bool := true
  historySelectionPinBlocked : Bool := false

/-- The rows of the pages that are older than the cache. -/
def olderRows (snapshot : TerminalSnapshot) (pages : List ScrollbackPage) : List TerminalRow :=
  let firstLoaded := (snapshot.scrollbackRows.head?.bind (·.rowId)).getD (2 ^ 64 - 1)
  let existing := snapshot.scrollbackRows.filterMap (·.rowId)
  (pages.reverse.flatMap (·.rows)).filter fun row => row.rowId.any fun id => id < firstLoaded ∧ id ∉ existing

def Pane.applyBackgroundPages (pane : Pane) (pages : List ScrollbackPage) : Except String Bool × Pane :=
  let pane := { pane with historyPagePending := false }
  match pane.snapshot with
  | none => (.error "scrollback pages arrived before initial pane snapshot", pane)
  | some snapshot =>
    if pages.any fun page => page.splintId ≠ snapshot.splintId ∨ page.incarnation ≠ snapshot.incarnation ∨
        page.terminalRevision ≠ snapshot.revision ∨ page.historyGeneration ≠ snapshot.historyGeneration then
      (.ok false, pane)
    else
      let older := olderRows snapshot pages
      if older = [] then (.ok false, pane)
      else
        match boundHistoryPageWithPins (older ++ snapshot.scrollbackRows) pane.selection snapshot.visibleRows with
        | none => (.ok false, { pane with historySelectionPinBlocked := true })
        | some rows =>
          (.ok true, { pane with snapshot := some { snapshot with
            scrollbackRows := rows
            omittedOldestScrollbackRows := omittedRowsBeforeCache snapshot.oldestAvailableScrollbackRowId rows
              snapshot.availableScrollbackRows
            oldestAvailableScrollbackRowId :=
              pages.head?.elim snapshot.oldestAvailableScrollbackRowId (·.oldestAvailableRowId)
            newestAvailableScrollbackRowId :=
              pages.head?.elim snapshot.newestAvailableScrollbackRowId (·.newestAvailableRowId) } })

def TerminalRow.id (row : TerminalRow) : Nat := row.rowId.getD 0

/-- The cache is a block of the history, and the pages continue downward from its oldest row: `older`
rows come before them, `newer` rows after the block. -/
structure Continues (history older newer : List TerminalRow) (snapshot : TerminalSnapshot)
    (pages : List ScrollbackPage) : Prop where
  known : ∀ row ∈ history, row.rowId = some row.id ∧ row.id < 2 ^ 64 - 1
  increasing : history.Pairwise fun a b => a.id < b.id
  block : history = older ++ (pages.reverse.flatMap (·.rows) ++ snapshot.scrollbackRows) ++ newer
  oldest : snapshot.oldestAvailableScrollbackRowId = history.head?.map (·.id)
  available : snapshot.availableScrollbackRows = history.length

theorem letGo_spec (rows : List TerminalRow) : letGo (historyCacheBytes rows) rows <:+ rows ∧
    historyCacheBytes (letGo (historyCacheBytes rows) rows) ≤ maxCachedHistoryBytes := by
  induction rows with
  | nil => exact ⟨suffix_rfl, Nat.zero_le _⟩
  | cons row rows ih =>
    have hrest : historyCacheBytes (row :: rows) - terminalRowCacheBytes row = historyCacheBytes rows := by
      exact Nat.add_sub_cancel_left ..
    rw [letGo, hrest]
    split
    · exact ⟨ih.1.trans (suffix_cons row rows), ih.2⟩
    · rename_i hfits
      exact ⟨suffix_rfl, Nat.le_of_not_lt hfits⟩

theorem boundHistoryCache_spec (rows : List TerminalRow) : boundHistoryCache rows true <+: rows ∧
    (boundHistoryCache rows true).length ≤ maxCachedHistoryRows ∧
    historyCacheBytes (boundHistoryCache rows true) ≤ maxCachedHistoryBytes := by
  have hbytes (rows : List TerminalRow) : historyCacheBytes rows.reverse = historyCacheBytes rows := by
    rw [historyCacheBytes, map_reverse, sum_reverse, historyCacheBytes]
  obtain ⟨hsuffix, hle⟩ := letGo_spec (rows.take maxCachedHistoryRows).reverse
  have hbound : boundHistoryCache rows true = (letGo (historyCacheBytes (rows.take maxCachedHistoryRows).reverse)
      (rows.take maxCachedHistoryRows).reverse).reverse := by
    rw [hbytes]
    rfl
  rw [← List.reverse_prefix, reverse_reverse, ← hbound] at hsuffix
  rw [← hbytes, ← hbound] at hle
  exact ⟨hsuffix.trans ( List.take_prefix ..), hsuffix.length_le.trans (length_take_le ..), hle⟩

section

variable {history older newer : List TerminalRow} {snapshot : TerminalSnapshot} {pages : List ScrollbackPage}

theorem Continues.olderRows_eq (h : Continues history older newer snapshot pages) :
    olderRows snapshot pages = pages.reverse.flatMap (·.rows) := by
  refine filter_eq_self.mpr fun row hrow => ?_
  have hsorted := h.increasing
  have hrest := h.known
  rw [h.block] at hsorted hrest
  have hknown {other : TerminalRow} (hother : other ∈ snapshot.scrollbackRows) : other.rowId = some other.id :=
    (hrest other (mem_append_left _ (mem_append_right _ (mem_append_right _ hother)))).1
  have hlt : ∀ other ∈ snapshot.scrollbackRows, row.id < other.id :=
    (pairwise_append.mp (pairwise_append.mp (pairwise_append.mp hsorted).1).2.1).2.2 row hrow
  obtain ⟨hid, hmax⟩ := hrest row (mem_append_left _ (mem_append_right _ (mem_append_left _ hrow)))
  rw [hid]
  refine decide_eq_true ⟨?_, fun hmem => ?_⟩
  · cases hrows : snapshot.scrollbackRows with
    | nil => exact hmax
    | cons first rest =>
      have hfirst : first ∈ snapshot.scrollbackRows := hrows ▸ mem_cons_self
      simpa [hknown hfirst] using hlt first hfirst
  · obtain ⟨other, hother, hsame⟩ := mem_filterMap.mp hmem
    rw [hknown hother, Option.some.injEq] at hsame
    exact (hlt other hother).ne hsame.symm

/-- Ids that increase are at least as far apart as their rows, and just as far if they step by one. -/
theorem distance_of_increasing {oldest first : TerminalRow} {between : List TerminalRow}
    (hsorted : (oldest :: (between ++ [first])).Pairwise fun a b => a.id < b.id) :
    oldest.id + between.length < first.id ∧
      ((oldest :: (between ++ [first])).IsChain (fun a b => b.id = a.id + 1) ↔
        first.id = oldest.id + (between.length + 1)) := by
  induction between generalizing oldest with
  | nil => exact ⟨(pairwise_cons.mp hsorted).1 first mem_cons_self, by simp⟩
  | cons next between ih =>
    obtain ⟨hlt, hrest⟩ := pairwise_cons.mp hsorted
    have hnext := hlt next mem_cons_self
    obtain ⟨hfar, hiff⟩ := ih hrest
    rw [cons_append, isChain_cons_cons, hiff, length_cons]
    omega

theorem omittedRowsBeforeCache_eq_iff {first oldest : TerminalRow} {rest more : List TerminalRow}
    (hknown : first.rowId = some first.id) (hsorted : (older ++ first :: rest).Pairwise fun a b => a.id < b.id)
    (holdest : (older ++ first :: rest).head? = some oldest) :
    omittedRowsBeforeCache (some oldest.id) (first :: more) (older ++ first :: rest).length = older.length ↔
      ((older ++ first :: rest).take (older.length + 1)).IsChain fun a b => b.id = a.id + 1 := by
  have htake : (older ++ first :: rest).take (older.length + 1) = older ++ [first] := by
    rw [take_length_add_append, take_succ_cons, take_zero]
  rw [htake]
  simp only [omittedRowsBeforeCache, head?_cons, Option.bind_some, hknown, length_append, length_cons]
  cases older with
  | nil =>
    obtain rfl := Option.some.inj holdest
    simp
  | cons row rows =>
    obtain rfl := Option.some.inj holdest
    obtain ⟨hfar, hiff⟩ := distance_of_increasing (hsorted.sublist (htake ▸ take_sublist ..))
    rw [cons_append, hiff, if_pos (by omega), length_cons]
    omega

/-- Older pages leave the cache as it was, or a block of the history within its bounds that starts at
the oldest row fetched and keeps the ends of the selection. The rows older than it are counted right
just if the row ids up to it step by one. -/
theorem background_pages_extend_block (pane : Pane) (hpane : pane.snapshot = some snapshot)
    (h : Continues history older newer snapshot pages) :
    (pane.applyBackgroundPages pages).2.snapshot = some snapshot ∨
      ∃ paged, (pane.applyBackgroundPages pages).2.snapshot = some paged ∧
        (∃ newer, history = older ++ paged.scrollbackRows ++ newer) ∧
        paged.scrollbackRows.length ≤ maxCachedHistoryRows ∧
        historyCacheBytes paged.scrollbackRows ≤ maxCachedHistoryBytes ∧
        (∀ pins, pane.selection = some pins → ∀ id ∈ [pins.1, pins.2],
          ∃ row ∈ paged.scrollbackRows ++ paged.visibleRows, row.rowId = some id) ∧
        (paged.scrollbackRows = [] → paged.omittedOldestScrollbackRows = history.length) ∧
        (paged.scrollbackRows ≠ [] → (paged.omittedOldestScrollbackRows = older.length ↔
          (history.take (older.length + 1)).IsChain fun a b => b.id = a.id + 1)) := by
  rw [Pane.applyBackgroundPages, hpane]
  dsimp only
  split
  · exact .inl rfl
  split
  · exact .inl rfl
  split
  · exact .inl rfl
  rename_i rows hrows
  refine .inr ⟨_, rfl, ?_⟩
  rw [boundHistoryPageWithPins] at hrows
  split at hrows
  · rename_i hpins
    obtain rfl := Option.some.inj hrows
    obtain ⟨hkept, hlength, hbytes⟩ := boundHistoryCache_spec (olderRows snapshot pages ++ snapshot.scrollbackRows)
    rw [h.olderRows_eq] at hkept hlength hbytes hpins ⊢
    obtain ⟨cut, hcut⟩ := hkept
    generalize boundHistoryCache (pages.reverse.flatMap (·.rows) ++ snapshot.scrollbackRows) true = rows at *
    have hhistory : history = older ++ (rows ++ (cut ++ newer)) := by rw [h.block, ← hcut, append_assoc, append_assoc]
    refine ⟨⟨cut ++ newer, by rw [hhistory, append_assoc]⟩, hlength, hbytes, ?_, ?_, ?_⟩
    · rintro pins hselection id hid
      rw [hselection, Option.all_some, Bool.and_eq_true, any_eq_true, any_eq_true] at hpins
      rw [mem_pair] at hid
      obtain rfl | rfl := hid
      · simpa using hpins.1
      · simpa using hpins.2
    · rintro rfl
      rw [← h.available]
      cases snapshot.oldestAvailableScrollbackRowId <;> rfl
    · intro hne
      obtain ⟨first, more, rfl⟩ := exists_cons_of_ne_nil hne
      obtain ⟨oldest, holdest⟩ : ∃ oldest, history.head? = some oldest := by
        rw [hhistory]
        cases older <;> exact ⟨_, rfl⟩
      rw [h.oldest, h.available, holdest, Option.map_some]
      have hsorted := h.increasing
      have hknown := (h.known first (by rw [hhistory]; simp)).1
      rw [hhistory] at hsorted holdest
      rw [hhistory]
      exact omittedRowsBeforeCache_eq_iff hknown hsorted holdest
  · cases hrows

end

def identified (id : Nat) : TerminalRow := ⟨some id, []⟩

/-- The newest of three rows is cached. -/
def cached (oldest newest : Nat) : TerminalSnapshot :=
  ⟨0, 1, 1, 1, [], [identified newest], some oldest, some newest, 3, 2⟩

def page (oldest between newest : Nat) : ScrollbackPage :=
  ⟨0, 1, 1, 1, some oldest, some newest, [identified between]⟩

theorem continues_page {oldest between newest : Nat} (h : oldest < between ∧ between < newest ∧ newest < 2 ^ 64 - 1) :
    Continues [identified oldest, identified between, identified newest] [identified oldest] [] (cached oldest newest)
      [page oldest between newest] where
  known := by
    simp [identified, TerminalRow.id]
    omega
  increasing := by simpa [identified, TerminalRow.id] using ⟨⟨h.1, h.1.trans h.2.1⟩, h.2.1⟩
  block := rfl
  oldest := rfl
  available := rfl

/-- The selection is within the cached row. -/
def selecting : Pane := { snapshot := cached 1 3, selection := some (3, 3) }

theorem stepping_ids_are_counted : ∃ paged, (selecting.applyBackgroundPages [page 1 2 3]).2.snapshot = some paged ∧
    paged.omittedOldestScrollbackRows = 1 ∧
    ∃ row ∈ paged.scrollbackRows ++ paged.visibleRows, row.rowId = some 3 := by
  obtain hsame | ⟨paged, hpaged, -, -, -, hselected, -, hcount⟩ :=
    background_pages_extend_block selecting rfl (continues_page (by decide : 1 < 2 ∧ 2 < 3 ∧ _))
  · exact absurd (congrArg (·.map (·.omittedOldestScrollbackRows)) hsame) (by decide)
  · refine ⟨paged, hpaged, (hcount ?_).mpr (by simp [identified, TerminalRow.id]), hselected _ rfl 3 mem_cons_self⟩
    obtain rfl := Option.some.inj hpaged
    decide

/-- One row is older than the block, but three are said to be. -/
theorem gap_in_ids_is_counted : Continues [identified 1, identified 5, identified 9] [identified 1] [] (cached 1 9)
      [page 1 5 9] ∧
    (({ snapshot := cached 1 9 } : Pane).applyBackgroundPages [page 1 5 9]).2.snapshot.map
      (·.omittedOldestScrollbackRows) = some 3 :=
  ⟨continues_page (by decide), by decide⟩

end Splinterm.Window
