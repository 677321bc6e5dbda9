import Mathlib.Data.List.DropRight

/-!
# Reading a list backwards in pages

A page holds the last entries whose keys lie below a bound, and says whether it left older
ones out. A reader asks for page after page, each below the oldest key it has. Over a list
whose keys increase the pages join up to the list.
-/

namespace Splinterm.Lib.Paging

open List

variable {α : Type} {key : α → Nat} {l older newer : List α} {bound n : Nat}

/-! ## A bounded queue -/

/-- A queue of `n` entries drops its oldest for a new one and remembers that it did. -/
def push (n : Nat) (queue : List α × Bool) (a : α) : List α × Bool :=
  if queue.1.length = n then (queue.1.tail ++ [a], true) else (queue.1 ++ [a], queue.2)

theorem tail_rtake {a : α} (h : n ≤ l.length) (hn : 0 < n) : (l.rtake n).tail ++ [a] = (l ++ [a]).rtake n := by
  rw [rtake, rtake, tail_drop, length_append, length_singleton, drop_append_of_le_length (by omega)]
  congr 2
  omega

/-- The queue holds the last entries that were pushed. -/
theorem foldl_push (hn : 0 < n) (l : List α) : l.foldl (push n) ([], false) = (l.rtake n, decide (n < l.length)) := by
  induction l using List.reverseRecOn with
  | nil => simp
  | append_singleton l a ih =>
    rw [foldl_append, ih, foldl_cons, foldl_nil, push]
    have hlength : (l.rtake n).length = min n l.length := by
      rw [rtake, length_drop]
      omega
    by_cases hfull : n ≤ l.length
    · rw [if_pos (by rw [hlength]; omega), tail_rtake hfull hn, length_append,
        length_singleton, decide_eq_true (by omega)]
    · have hall (l' : List α) (h : l'.length ≤ n) : l'.rtake n = l' := by
        rw [rtake, Nat.sub_eq_zero_of_le h, drop_zero]
      rw [if_neg (by rw [hlength]; omega), hall l (by omega),
        hall (l ++ [a]) (by rw [length_append, length_singleton]; omega),
        length_append, length_singleton, decide_eq_false (by omega),
        decide_eq_false (by omega)]

/-! ## Pages -/

def below (key : α → Nat) (bound : Nat) (l : List α) : List α := l.filter fun a => key a < bound

/-- The last `n` entries below the bound, and whether there are older ones. -/
def page (key : α → Nat) (l : List α) (n bound : Nat) : List α × Bool :=
  ((below key bound l).rtake n, decide (n < (below key bound l).length))

theorem mem_below {a : α} : a ∈ below key bound l ↔ a ∈ l ∧ key a < bound := by
  rw [below, mem_filter, decide_eq_true_eq]

theorem below_eq_self (h : ∀ a ∈ l, key a < bound) : below key bound l = l :=
  filter_eq_self.mpr fun a ha => decide_eq_true (h a ha)

/-- The entries below one that is below the bound are the ones before it. -/
theorem below_key (hsorted : l.Pairwise fun a b => key a < key b) {first : α}
    (h : below key bound l = older ++ first :: newer) : below key (key first) l = older := by
  have hfirst : key first < bound := by
    have hmem : first ∈ below key bound l := h ▸ mem_append_right _ mem_cons_self
    exact (mem_below.mp hmem).2
  have hparts : (older ++ first :: newer).Pairwise fun a b => key a < key b := h ▸ hsorted.sublist filter_sublist
  obtain ⟨-, hright, hcross⟩ := pairwise_append.mp hparts
  have htwice : below key (key first) l = below key (key first) (below key bound l) := by
    rw [below, below, below, filter_filter]
    apply filter_congr
    intro a _
    by_cases ha : key a < key first
    · simp [ha, ha.trans hfirst]
    · simp [ha]
  have hnewer : below key (key first) (first :: newer) = [] := by
    rw [below, filter_eq_nil_iff]
    intro a ha
    rw [decide_eq_true_eq, not_lt]
    rcases mem_cons.mp ha with rfl | hmem
    · exact le_rfl
    · exact (rel_of_pairwise_cons hright hmem).le
  have holder : below key (key first) older = older := below_eq_self fun a ha => hcross a ha first mem_cons_self
  rw [htwice, h]
  show (older ++ first :: newer).filter _ = older
  rw [filter_append]
  show below key (key first) older ++ below key (key first) (first :: newer) = older
  rw [holder, hnewer, append_nil]

/-- A page that is not the last splits off from the entries that are older. -/
theorem page_split (hn : 0 < n) (hmore : n < (below key bound l).length) :
    ∃ older first newer, below key bound l = older ++ first :: newer ∧
      (page key l n bound).1 = first :: newer ∧ older ≠ [] := by
  set all := below key bound l with hall
  have hrtake : all.rtake n ≠ [] := by
    intro hnil
    have hlength := congrArg List.length hnil
    rw [rtake, length_drop, length_nil] at hlength
    omega
  obtain ⟨first, newer, hpage⟩ := exists_cons_of_ne_nil hrtake
  refine ⟨all.take (all.length - n), first, newer, ?_, hpage, ?_⟩
  · rw [← hpage, rtake, take_append_drop]
  · intro hnil
    have hlength := congrArg List.length hnil
    rw [length_take, length_nil] at hlength
    omega

theorem page_more_iff (hsorted : l.Pairwise fun a b => key a < key b) (hn : 0 < n) : (page key l n bound).2 = true ↔
      ∃ a ∈ l, key a < bound ∧ ∀ b ∈ (page key l n bound).1, key a < key b := by
  rw [page, decide_eq_true_eq]
  constructor
  · intro hmore
    obtain ⟨older, first, newer, hbelow, hpage, hne⟩ := page_split hn hmore
    obtain ⟨a, ha⟩ := exists_mem_of_ne_nil _ hne
    have hmem : a ∈ below key bound l := hbelow ▸ mem_append_left _ ha
    have hparts : (older ++ first :: newer).Pairwise fun a b => key a < key b :=
      hbelow ▸ hsorted.sublist filter_sublist
    refine ⟨a, (mem_below.mp hmem).1, (mem_below.mp hmem).2, fun b hb => ?_⟩
    rw [show (below key bound l).rtake n = first :: newer from hpage] at hb
    exact (pairwise_append.mp hparts).2.2 a ha b hb
  · rintro ⟨a, ha, hlt, hall⟩
    by_contra hnot
    have hwhole : (below key bound l).rtake n = below key bound l := by
      rw [rtake, Nat.sub_eq_zero_of_le (by omega), drop_zero]
    rw [hwhole] at hall
    exact lt_irrefl _ (hall a (mem_below.mpr ⟨ha, hlt⟩))

/-! ## The reader -/

/-- Asks for page after page, each below the oldest key received, until a page says that it is
the last one. The pages come oldest first; nothing comes when the requests run out. -/
def readBack (request : Nat → List α × Bool) (key : α → Nat) : Nat → Nat → Option (List (List α))
  | 0, _ => none
  | requests + 1, bound =>
    match request bound with
    | (rows, false) => some [rows]
    | ([], true) => none
    | (first :: rest, true) => (readBack request key requests (key first)).map (· ++ [first :: rest])

/-- The reader ends, and its pages join up to everything below the bound it began with. -/
theorem readBack_page (hsorted : l.Pairwise fun a b => key a < key b) (hn : 0 < n)
    {requests : Nat} (h : (below key bound l).length < requests) :
    ∃ pages, readBack (page key l n) key requests bound = some pages ∧ pages.flatten = below key bound l := by
  induction requests generalizing bound with
  | zero => omega
  | succ requests ih =>
    rw [readBack]
    by_cases hmore : n < (below key bound l).length
    · obtain ⟨older, first, newer, hbelow, hpage, hne⟩ := page_split hn hmore
      have hrequest : page key l n bound = (first :: newer, true) := Prod.ext hpage (decide_eq_true hmore)
      have holder := below_key hsorted hbelow
      have hfewer : (below key (key first) l).length < requests := by
        have := congrArg List.length hbelow
        rw [length_append, length_cons] at this
        rw [holder]
        omega
      obtain ⟨pages, hread, hflat⟩ := ih hfewer
      rw [hrequest]
      dsimp only
      rw [hread]
      refine ⟨pages ++ [first :: newer], rfl, ?_⟩
      rw [flatten_append, hflat, holder, hbelow, flatten_singleton]
    · have hrequest : page key l n bound = (below key bound l, false) := by
        rw [page, rtake, Nat.sub_eq_zero_of_le (by omega), drop_zero, decide_eq_false hmore]
      rw [hrequest]
      exact ⟨[below key bound l], rfl, flatten_singleton⟩

end Splinterm.Lib.Paging
