import Mathlib.Data.List.Basic

/-!
# Streams in pieces, and big-endian numbers

A stream hands out its items in pieces of any size. `read` returns what the first piece
has, up to the room given; `readExact` reads until the room is full. What `readExact`
returns depends on the items alone and not on how they are cut.
-/

namespace Splinterm.Lib.Wire

open List

variable {α ε : Type}

/-- A stream: its pieces, none of them empty, and the failure it ends with, if it does not just
end. -/
structure Source (α ε : Type) where
  pieces : List (List α)
  failure : Option ε
  nonempty : ∀ piece ∈ pieces, piece ≠ []

namespace Source

def contents (r : Source α ε) : List α := r.pieces.flatten

/-- What is left of the pieces when `n` items of the first one were taken. -/
def advance (n : Nat) (piece : List α) (pieces : List (List α)) : List (List α) :=
  if n < piece.length then piece.drop n :: pieces else pieces

variable {n : Nat}

theorem advance_nonempty {piece : List α} {pieces : List (List α)}
    (h : ∀ p ∈ piece :: pieces, p ≠ []) : ∀ p ∈ advance n piece pieces, p ≠ [] := by
  intro p hp
  unfold advance at hp
  split at hp
  case isTrue hlt =>
    cases mem_cons.mp hp with
    | inl heq =>
      rw [heq, ne_eq, drop_eq_nil_iff]
      omega
    | inr hmem => exact h p (mem_cons_of_mem _ hmem)
  case isFalse => exact h p (mem_cons_of_mem _ hp)

theorem flatten_advance (n : Nat) (piece : List α) (pieces : List (List α)) :
    piece.take n ++ (advance n piece pieces).flatten = piece ++ pieces.flatten := by
  unfold advance
  split
  case isTrue => rw [flatten_cons, ← append_assoc, take_append_drop]
  case isFalse hge => rw [take_of_length_le (by omega)]

/-- One `read` into room for `n` items; no items at all mean the end of the stream. -/
def read (n : Nat) : Source α ε → Except ε (List α) × Source α ε
  | ⟨[], none, h⟩ => (.ok [], ⟨[], none, h⟩)
  | ⟨[], some e, h⟩ => (.error e, ⟨[], some e, h⟩)
  | ⟨piece :: pieces, failure, h⟩ => (.ok (piece.take n), ⟨advance n piece pieces, failure, advance_nonempty h⟩)

/-- The loop of `readExact`. A turn reads at least one item, so `n` turns are enough. -/
def readExactFrom : Nat → Nat → Source α ε → Except (Option ε) (List α) × Source α ε
  | 0, _, r => (.ok [], r)
  | turns + 1, n, r =>
    if n = 0 then (.ok [], r)
    else
      match r.read n with
      | (.error e, r) => (.error (some e), r)
      | (.ok [], r) => (.error none, r)
      | (.ok (a :: as), r) =>
        match readExactFrom turns (n - (as.length + 1)) r with
        | (.error e, r) => (.error e, r)
        | (.ok rest, r) => (.ok (a :: as ++ rest), r)

/-- Fills room for `n` items. A stream that ends first is the error `none`, one that fails first
the error it fails with. -/
def readExact (n : Nat) (r : Source α ε) : Except (Option ε) (List α) × Source α ε :=
  readExactFrom n n r

variable {r : Source α ε}

theorem pieces_of_contents_nil (h : r.contents = []) : r.pieces = [] := by
  cases hp : r.pieces with
  | nil => rfl
  | cons piece pieces =>
    have hpiece := r.nonempty piece (by rw [hp]; exact mem_cons_self)
    rw [contents, hp] at h
    exact absurd (append_eq_nil_iff.mp h).1 hpiece

/-- At its end a stream ends or fails. -/
theorem read_of_contents_nil (n : Nat) (h : r.contents = []) : (r.failure = none → r.read n = (.ok [], r)) ∧
      ∀ e, r.failure = some e → r.read n = (.error e, r) := by
  have hpieces := pieces_of_contents_nil h
  obtain ⟨pieces, failure, hne⟩ := r
  subst hpieces
  constructor
  · intro hfailure
    subst hfailure
    rfl
  · intro e hfailure
    subst hfailure
    rfl

theorem read_of_contents_ne_nil (hn : 0 < n) (h : r.contents ≠ []) :
    ∃ a as r', r.read n = (.ok (a :: as), r') ∧ as.length < n ∧
      r.contents = a :: as ++ r'.contents ∧ r'.failure = r.failure := by
  obtain ⟨pieces, failure, hne⟩ := r
  cases pieces with
  | nil => exact absurd rfl h
  | cons piece pieces =>
    have hpiece := hne piece mem_cons_self
    have hlength := length_take_le n piece
    have hflat := flatten_advance n piece pieces
    cases htake : piece.take n with
    | nil =>
      rw [take_eq_nil_iff] at htake
      cases htake with
      | inl hzero => omega
      | inr hnil => exact absurd hnil hpiece
    | cons a as =>
      rw [htake] at hlength hflat
      refine ⟨a, as, ⟨advance n piece pieces, failure, advance_nonempty hne⟩, ?_, ?_, ?_, rfl⟩
      · show (Except.ok (piece.take n), _) = _
        rw [htake]
      · exact hlength
      · exact hflat.symm

theorem readExactFrom_of_le {turns : Nat} (hturns : n ≤ turns) (hn : n ≤ r.contents.length) :
    ∃ r', readExactFrom turns n r = (.ok (r.contents.take n), r') ∧
      r'.contents = r.contents.drop n ∧ r'.failure = r.failure := by
  induction turns generalizing n r with
  | zero =>
    obtain rfl : n = 0 := by omega
    exact ⟨r, rfl, rfl, rfl⟩
  | succ turns ih =>
    by_cases hzero : n = 0
    · subst hzero
      exact ⟨r, rfl, rfl, rfl⟩
    · have hne : r.contents ≠ [] := by
        intro hnil
        rw [hnil, length_nil] at hn
        omega
      obtain ⟨a, as, r₁, hread, hlength, hcontents, hfailure⟩ :=
        read_of_contents_ne_nil (Nat.pos_of_ne_zero hzero) hne
      have hgot : (a :: as).length ≤ n := hlength
      have hrest : n - (as.length + 1) ≤ r₁.contents.length := by
        rw [hcontents, length_append, length_cons] at hn
        omega
      obtain ⟨r₂, hexact, hdrop, hfailure₂⟩ := ih (by omega) hrest
      refine ⟨r₂, ?_, ?_, hfailure₂.trans hfailure⟩
      · rw [readExactFrom, if_neg hzero, hread]
        dsimp only
        rw [hexact, hcontents, take_append, take_of_length_le hgot, length_cons]
      · rw [hdrop, hcontents, drop_append, drop_eq_nil_of_le hgot, length_cons, nil_append]

theorem readExactFrom_of_lt {turns : Nat} (hturns : n ≤ turns)
    (hn : r.contents.length < n) : ∃ r', readExactFrom turns n r = (.error r.failure, r') := by
  induction turns generalizing n r with
  | zero => omega
  | succ turns ih =>
    have hzero : n ≠ 0 := by omega
    rw [readExactFrom, if_neg hzero]
    by_cases hnil : r.contents = []
    · obtain ⟨hend, hfail⟩ := read_of_contents_nil n hnil
      cases hfailure : r.failure with
      | none => exact ⟨r, by rw [hend hfailure]⟩
      | some e => exact ⟨r, by rw [hfail e hfailure]⟩
    · obtain ⟨a, as, r₁, hread, hlength, hcontents, hfailure⟩ :=
        read_of_contents_ne_nil (Nat.pos_of_ne_zero hzero) hnil
      have hrest : r₁.contents.length < n - (as.length + 1) := by
        rw [hcontents, length_append, length_cons] at hn
        omega
      obtain ⟨r₂, hexact⟩ := ih (by omega) hrest
      refine ⟨r₂, ?_⟩
      rw [hread]
      dsimp only
      rw [hexact, hfailure]

theorem readExact_of_append {taken rest : List α} (h : r.contents = taken ++ rest) :
    ∃ r', r.readExact taken.length = (.ok taken, r') ∧ r'.contents = rest ∧ r'.failure = r.failure := by
  have hle : taken.length ≤ r.contents.length := by
    rw [h, length_append]
    omega
  obtain ⟨r', hexact, hdrop, hfailure⟩ := readExactFrom_of_le (Nat.le_refl _) hle
  refine ⟨r', ?_, ?_, hfailure⟩
  · rw [readExact, hexact, h, take_left]
  · rw [hdrop, h, drop_left]

theorem readExact_of_lt (h : r.contents.length < n) : ∃ r', r.readExact n = (.error r.failure, r') :=
  readExactFrom_of_lt (Nat.le_refl n) h

end Source

/-! ## Big-endian numbers -/

def be16 (x : UInt16) : List UInt8 := [.ofNat (x.toNat / 256), .ofNat x.toNat]

def ofBe16 (a b : UInt8) : UInt16 := .ofNat (a.toNat * 256 + b.toNat)

def be32 (x : UInt32) : List UInt8 :=
  [.ofNat (x.toNat / 16777216), .ofNat (x.toNat / 65536), .ofNat (x.toNat / 256), .ofNat x.toNat]

def ofBe32 (a b c d : UInt8) : UInt32 :=
  .ofNat (a.toNat * 16777216 + b.toNat * 65536 + c.toNat * 256 + d.toNat)

theorem ofNat_eq_of_mod {n : Nat} {x : UInt8} (h : n % 256 = x.toNat) : UInt8.ofNat n = x := by
  apply UInt8.toNat_inj.mp
  exact h

theorem be16_ofBe16 (a b : UInt8) : be16 (ofBe16 a b) = [a, b] := by
  have ha := a.toNat_lt
  have hb := b.toNat_lt
  have hx : (ofBe16 a b).toNat = a.toNat * 256 + b.toNat :=
    UInt16.toNat_ofNat_of_lt' (by simp only [UInt16.size]; omega)
  have h₁ : UInt8.ofNat ((a.toNat * 256 + b.toNat) / 256) = a := ofNat_eq_of_mod (by omega)
  have h₂ : UInt8.ofNat (a.toNat * 256 + b.toNat) = b := ofNat_eq_of_mod (by omega)
  rw [be16, hx, h₁, h₂]

theorem be32_ofBe32 (a b c d : UInt8) : be32 (ofBe32 a b c d) = [a, b, c, d] := by
  have ha := a.toNat_lt
  have hb := b.toNat_lt
  have hc := c.toNat_lt
  have hd := d.toNat_lt
  have hx : (ofBe32 a b c d).toNat = a.toNat * 16777216 + b.toNat * 65536 + c.toNat * 256 + d.toNat :=
    UInt32.toNat_ofNat_of_lt' (by simp only [UInt32.size]; omega)
  rw [be32, hx, @ofNat_eq_of_mod _ a (by omega), @ofNat_eq_of_mod _ b (by omega),
    @ofNat_eq_of_mod _ c (by omega), @ofNat_eq_of_mod _ d (by omega)]

theorem ofBe32_be32 (x : UInt32) :
    ofBe32 (.ofNat (x.toNat / 16777216)) (.ofNat (x.toNat / 65536)) (.ofNat (x.toNat / 256))
      (.ofNat x.toNat) = x := by
  have hx := x.toNat_lt
  apply UInt32.toNat_inj.mp
  rw [ofBe32, UInt32.toNat_ofNat']
  simp only [UInt8.toNat_ofNat']
  omega

end Splinterm.Lib.Wire
