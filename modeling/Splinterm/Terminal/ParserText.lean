import Splinterm.Terminal.ParserRun

/-!
# Text passes the parser unchanged

Continuation bytes of UTF-8 look like C1 controls, and one of them like the terminator of a string.
The two decoders of the parser, one for printing and one for the strings of operating-system commands,
count the bytes of a character, so that text comes out of both as it went in.
-/

namespace Splinterm.Terminal

open Lib Transducer List Nat

/-- A printable ASCII character, or a character past the C1 controls. -/
def IsText (c : Char) : Prop := (0x20 ≤ c.toNat ∧ c.toNat ≤ 0x7e) ∨ 0xa0 ≤ c.toNat

instance : DecidablePred IsText := fun _ => inferInstanceAs (Decidable (_ ∨ _))

def encoded (text : List Char) : List UInt8 := text.flatMap String.utf8EncodeChar

/-! ## Encodings -/

variable {c : Char}

theorem utf8EncodeChar_ascii (h : c.toNat ≤ 127) : String.utf8EncodeChar c = [ascii c] := if_pos h

/-- A continuation byte with the six bits it carries. -/
def continuation (bits : Nat) : UInt8 := UInt8.ofNat (bits + 128)

theorem continuation_spec : ∀ bits < 64, (continuation bits).toNat = bits + 128 ∧
    continuation bits &&& 0xc0 = 0x80 ∧ (continuation bits &&& 0x3f).toNat = bits := by decide

theorem le_foldl_bits (bits : List Nat) (value : Nat) : value ≤ bits.foldl (fun v x => v * 64 + x) value := by
  induction bits generalizing value with
  | nil => exact Nat.le_refl _
  | cons x rest ih => exact Nat.le_trans (by omega) (ih (value * 64 + x))

namespace Parser

variable {p : Parser}

/-- How both decoders take the first byte of a character of several bytes. -/
structure Leads (lead : UInt8) (value remaining minimum : Nat) : Prop where
  high : 0xc2 ≤ lead
  ground : ∀ p : Parser, p.feedGround lead = { parser := p.startUtf8 value remaining minimum }
  string : ∀ p : Parser, p.utf8RemainingAfter lead = remaining

theorem toNat_and_mask (lead : UInt8) (bits : Nat) {mask : UInt8} (hmask : mask.toNat = 2 ^ bits - 1) :
    (lead &&& mask).toNat = lead.toNat % 2 ^ bits := by
  rw [UInt8.toNat_and, hmask, and_two_pow_sub_one_eq_mod]

theorem above {lead low b : UInt8} (h : low ≤ lead) (hb : b < low) : ¬ lead ≤ b :=
  UInt8.not_le.mpr (UInt8.lt_of_lt_of_le hb h)

theorem leads_two {lead : UInt8} (h : 0xc2 ≤ lead ∧ lead ≤ 0xdf) : Leads lead (lead.toNat % 2 ^ 5) 1 0x80 where
  high := h.1
  ground p := by
    rw [feedGround, if_neg (above h.1 (by decide)), if_neg (above h.1 (by decide)), if_pos h, toNat_and_mask lead 5 rfl]
  string p := by rw [utf8RemainingAfter, if_neg fun hc => above h.1 (by decide) hc.2, if_pos h]

theorem leads_three {lead : UInt8} (h : 0xe0 ≤ lead ∧ lead ≤ 0xef) : Leads lead (lead.toNat % 2 ^ 4) 2 0x800 where
  high := UInt8.le_trans (by decide) h.1
  ground p := by
    rw [feedGround, if_neg (above h.1 (by decide)), if_neg (above h.1 (by decide)),
      if_neg fun hc => above h.1 (by decide) hc.2, if_pos h,
      toNat_and_mask lead 4 rfl]
  string p := by
    rw [utf8RemainingAfter, if_neg fun hc => above h.1 (by decide) hc.2, if_neg fun hc => above h.1 (by decide) hc.2,
      if_pos h]

theorem leads_four {lead : UInt8} (h : 0xf0 ≤ lead ∧ lead ≤ 0xf4) : Leads lead (lead.toNat % 2 ^ 3) 3 0x10000 where
  high := UInt8.le_trans (by decide) h.1
  ground p := by
    rw [feedGround, if_neg (above h.1 (by decide)), if_neg (above h.1 (by decide)),
      if_neg fun hc => above h.1 (by decide) hc.2, if_neg fun hc => above h.1 (by decide) hc.2, if_pos h,
      toNat_and_mask lead 3 rfl]
  string p := by
    rw [utf8RemainingAfter, if_neg fun hc => above h.1 (by decide) hc.2, if_neg fun hc => above h.1 (by decide) hc.2,
      if_neg fun hc => above h.1 (by decide) hc.2, if_pos h]

/-- The bytes of a character past ASCII: one that leads, and continuations that add up to it. -/
theorem exists_encoding (h : 0xa0 ≤ c.toNat) : ∃ lead bits value minimum,
    String.utf8EncodeChar c = lead :: bits.map continuation ∧ Leads lead value bits.length minimum ∧
      bits ≠ [] ∧ (∀ x ∈ bits, x < 64) ∧ bits.foldl (fun v x => v * 64 + x) value = c.toNat ∧ minimum ≤ c.toNat := by
  have hmax : c.toNat < 0x110000 := by
    have hvalid : c.toNat < 0xd800 ∨ 0xdfff < c.toNat ∧ c.toNat < 0x110000 := c.valid
    omega
  have hlead {n base : Nat} (hn : n + base < 256) : (UInt8.ofNat (n + base)).toNat = n + base := mod_eq_of_lt hn
  have hvalue : c.val.toNat = c.toNat := rfl
  rw [String.utf8EncodeChar, hvalue, if_neg (by omega)]
  split
  · have hbyte := @hlead (c.toNat / 64 % 32) 192 (by omega)
    refine ⟨_, [c.toNat % 64], _, 0x80, rfl, leads_two ?_, cons_ne_nil _ _, ?_, ?_, by omega⟩
    · exact ⟨show 194 ≤ UInt8.toNat _ by omega, show UInt8.toNat _ ≤ 223 by omega⟩
    · simp only [mem_singleton, forall_eq]
      omega
    · simp only [foldl_cons, foldl_nil, hbyte]
      omega
  · split
    · have hbyte := @hlead (c.toNat / 4096 % 16) 224 (by omega)
      refine ⟨_, [c.toNat / 64 % 64, c.toNat % 64], _, 0x800, rfl, leads_three ?_, cons_ne_nil _ _, ?_, ?_, by omega⟩
      · exact ⟨show 224 ≤ UInt8.toNat _ by omega, show UInt8.toNat _ ≤ 239 by omega⟩
      · simp only [mem_cons, not_mem_nil, or_false, forall_eq_or_imp, forall_eq]
        omega
      · simp only [foldl_cons, foldl_nil, hbyte]
        omega
    · have hbyte := @hlead (c.toNat / 262144 % 8) 240 (by omega)
      refine ⟨_, [c.toNat / 4096 % 64, c.toNat / 64 % 64, c.toNat % 64], _, 0x10000, rfl, leads_four ?_,
        cons_ne_nil _ _, ?_, ?_, by omega⟩
      · exact ⟨show 240 ≤ UInt8.toNat _ by omega, show UInt8.toNat _ ≤ 244 by omega⟩
      · simp only [mem_cons, not_mem_nil, or_false, forall_eq_or_imp, forall_eq]
        omega
      · simp only [foldl_cons, foldl_nil, hbyte]
        omega

/-! ## Printing -/

theorem consumeAll_continuations {bits : List Nat} (hstate : p.state = .utf8)
    (hremaining : p.utf8Remaining = bits.length) (hne : bits ≠ []) (hbits : ∀ x ∈ bits, x < 64)
    (hvalue : bits.foldl (fun v x => v * 64 + x) p.utf8Value = c.toNat) (hminimum : p.utf8Minimum ≤ c.toNat) :
    ∃ q, p.consumeAll (bits.map continuation) = .ok (q, [.print c]) ∧ q.state = .ground := by
  have hvalid : c.toNat < 0xd800 ∨ 0xdfff < c.toNat ∧ c.toNat < 0x110000 := c.valid
  induction bits generalizing p with
  | nil => exact absurd rfl hne
  | cons x rest ih =>
    obtain ⟨hx, hrest⟩ := forall_mem_cons.mp hbits
    obtain ⟨-, htop, hlow⟩ := continuation_spec x hx
    rw [foldl_cons] at hvalue
    have hle := le_foldl_bits rest (p.utf8Value * 64 + x)
    have hsmall : (p.utf8Value * 64 + x) % 2 ^ 32 = p.utf8Value * 64 + x := mod_eq_of_lt (by omega)
    have hfeed : p.feed (continuation x) = p.feedUtf8 (continuation x) := if_pos hstate
    rw [feedUtf8, if_neg (not_not.mpr htop), if_neg (by rw [hremaining]; simp)] at hfeed
    dsimp only at hfeed
    rw [hlow, hsmall, hremaining, length_cons, Nat.add_sub_cancel] at hfeed
    by_cases hlast : rest = []
    · subst hlast
      rw [foldl_nil] at hvalue
      rw [if_neg (by simp), hvalue, if_neg (by omega), Char.ofNat_toNat] at hfeed
      have hlast : p.consume (continuation x) = .ok (_, [.print c]) := drive_once 1 hfeed rfl
      exact ⟨_, run_cons hlast rfl, rfl⟩
    · rw [if_pos (length_pos_iff.mpr hlast)] at hfeed
      obtain ⟨q, hrun, hground⟩ := ih (p := { p with
        utf8Value := p.utf8Value * 64 + x, utf8Remaining := rest.length }) hstate rfl hlast hrest hvalue hminimum
      have hmore : p.consume (continuation x) = .ok (_, []) := drive_once 1 hfeed rfl
      exact ⟨q, run_cons hmore hrun, hground⟩

theorem feed_ground {b : UInt8} (hground : p.state = .ground) (hb : 0x20 ≤ b) : p.feed b = .ok (p.feedGround b) := by
  have hne {control : UInt8} (hcontrol : control < 0x20) : b ≠ control := by
    rintro rfl
    exact UInt8.not_le.mpr hcontrol hb
  rw [feed, if_neg (by rw [hground]; decide), if_neg (not_or.mpr ⟨hne (by decide), hne (by decide)⟩),
    if_neg fun h => hne (by decide) h.1, hground]

theorem toNat_ascii (h : c.toNat < 256) : (ascii c).toNat = c.toNat := mod_eq_of_lt h

theorem consumeAll_char (hground : p.state = .ground) (hc : IsText c) :
    ∃ q, p.consumeAll (String.utf8EncodeChar c) = .ok (q, [.print c]) ∧ q.state = .ground := by
  rcases hc with ⟨hlow, hhigh⟩ | hpast
  · have hbyte := @toNat_ascii c (by omega)
    have hfirst : 0x20 ≤ ascii c := show 32 ≤ (ascii c).toNat by omega
    have hlast : ascii c ≤ 0x7e := show (ascii c).toNat ≤ 126 by omega
    have hfeed := feed_ground hground hfirst
    rw [feedGround, if_neg (above hfirst (by decide)), if_pos hlast, hbyte, Char.ofNat_toNat] at hfeed
    have hprint : p.consume (ascii c) = .ok (p, [.print c]) := drive_once 1 hfeed rfl
    rw [utf8EncodeChar_ascii (by omega)]
    exact ⟨p, run_cons hprint rfl, hground⟩
  · obtain ⟨lead, bits, value, minimum, hencoded, hleads, hne, hbits, hvalue, hminimum⟩ := exists_encoding hpast
    have hfeed := feed_ground hground (UInt8.le_trans (by decide) hleads.high)
    rw [hleads.ground] at hfeed
    have hfirst : p.consume lead = .ok (_, []) := drive_once 1 hfeed rfl
    obtain ⟨q, hrun, hq⟩ := consumeAll_continuations (p := p.startUtf8 value bits.length minimum) rfl rfl hne hbits
      hvalue hminimum
    rw [hencoded]
    exact ⟨q, run_cons hfirst hrun, hq⟩

theorem consumeAll_text (hground : p.state = .ground) {text : List Char} (htext : ∀ c ∈ text, IsText c) :
    ∃ q, p.consumeAll (encoded text) = .ok (q, text.map .print) ∧ q.state = .ground := by
  induction text generalizing p with
  | nil => exact ⟨p, rfl, hground⟩
  | cons c rest ih =>
    obtain ⟨hc, hrest⟩ := forall_mem_cons.mp htext
    obtain ⟨q, hchar, hq⟩ := consumeAll_char hground hc
    obtain ⟨u, hrun, hu⟩ := ih hq hrest
    exact ⟨u, run_append hchar hrun, hu⟩

/-! ## Strings -/

/-- The parser has collected `string` for a command, between two characters or `remaining` bytes before the end
of one. -/
structure Collects (p : Parser) (string : List UInt8) (limit remaining : Nat) : Prop where
  state : p.state = .oscString
  string : p.string = string
  limit : p.stringLimit = limit
  whole : p.stringTruncated = false
  remaining : p.stringUtf8Remaining = remaining

variable {done whole : List UInt8} {limit remaining : Nat}

theorem Collects.feed (h : p.Collects done limit remaining) {b : UInt8} (hb : b ≠ 0x18 ∧ b ≠ 0x1a) :
    p.feed b = .ok (p.feedOscString b) := by
  rw [Parser.feed, if_neg (by rw [h.state]; decide), if_neg (not_or.mpr hb),
    if_neg (by rw [h.state]; exact fun hc => absurd hc.2 (by decide)), h.state]

section

variable (hroom : whole.length ≤ limit) (hplain : ¬ itermPrefix <+: whole)

include hroom hplain

theorem Collects.consume (h : p.Collects done limit remaining) {b : UInt8} (hb : 0x20 ≤ b ∧ b ≠ 0x7f)
    (hend : b = 0x9c → remaining ≠ 0) (hwhole : done ++ [b] <+: whole) :
    ∃ q, p.consume b = .ok (q, []) ∧ q.Collects (done ++ [b]) limit (p.utf8RemainingAfter b) := by
  have hne {control : UInt8} (hcontrol : control < 0x20) : b ≠ control := by
    rintro rfl
    exact UInt8.not_le.mpr hcontrol hb.1
  have hlength : p.string.length < p.stringLimit := by
    have hle := hwhole.length_le
    rw [length_append, length_singleton] at hle
    rw [h.string, h.limit]
    omega
  have hother : p.string ++ [b] ≠ itermPrefix := by
    rw [h.string]
    rintro heq
    exact hplain (heq ▸ hwhole)
  have hfed : p.feedOscString b = { parser := { p with
      stringUtf8Remaining := p.utf8RemainingAfter b, string := p.string ++ [b] } } := by
    rw [feedOscString, if_neg (hne (by decide)), if_neg (hne (by decide)),
      if_neg fun hc => hend hc.1 (h.remaining ▸ hc.2), if_neg (not_or.mpr ⟨above hb.1 (by decide), hb.2⟩)]
    dsimp only
    rw [pushString, if_pos hlength, if_neg hother]
  have hfeed := h.feed ⟨hne (by decide), hne (by decide)⟩
  rw [hfed] at hfeed
  exact ⟨_, drive_once 1 hfeed rfl, h.state, congrArg (· ++ [b]) h.string, h.limit, h.whole, rfl⟩

theorem Collects.continuations {bits : List Nat} (h : p.Collects done limit bits.length)
    (hbits : ∀ x ∈ bits, x < 64) (hwhole : done ++ bits.map continuation <+: whole) :
    ∃ q, p.consumeAll (bits.map continuation) = .ok (q, []) ∧ q.Collects (done ++ bits.map continuation) limit 0 := by
  induction bits generalizing p done with
  | nil => exact ⟨p, rfl, by simpa using h⟩
  | cons x rest ih =>
    obtain ⟨hx, hrest⟩ := forall_mem_cons.mp hbits
    obtain ⟨hbyte, -⟩ := continuation_spec x hx
    have hsplit : done ++ (x :: rest).map continuation = done ++ [continuation x] ++ rest.map continuation := by
      rw [map_cons, append_assoc, singleton_append]
    rw [hsplit] at hwhole ⊢
    have hlow : 0x80 ≤ continuation x := show 128 ≤ (continuation x).toNat by omega
    have hhigh : continuation x ≤ 0xbf := show (continuation x).toNat ≤ 191 by omega
    have hdel : continuation x ≠ 0x7f := by
      intro heq
      rw [heq] at hlow
      exact absurd hlow (by decide)
    obtain ⟨q, hq, hcollects⟩ := h.consume hroom hplain ⟨UInt8.le_trans (by decide) hlow, hdel⟩
      (fun _ => succ_ne_zero _) ((prefix_append _ _).trans hwhole)
    rw [utf8RemainingAfter, if_pos ⟨hlow, hhigh⟩, h.remaining] at hcollects
    obtain ⟨u, hrun, hu⟩ := ih hcollects hrest hwhole
    exact ⟨u, run_cons hq hrun, hu⟩

theorem Collects.char (h : p.Collects done limit 0) (hc : IsText c)
    (hwhole : done ++ String.utf8EncodeChar c <+: whole) : ∃ q, p.consumeAll (String.utf8EncodeChar c) = .ok (q, []) ∧
      q.Collects (done ++ String.utf8EncodeChar c) limit 0 := by
  rcases hc with ⟨hlow, hhigh⟩ | hpast
  · have hbyte := @toNat_ascii c (by omega)
    rw [utf8EncodeChar_ascii (by omega)] at hwhole ⊢
    have hne {b : UInt8} (hb : 126 < b.toNat) : ascii c ≠ b := by
      rintro rfl
      omega
    have hafter : p.utf8RemainingAfter (ascii c) = 0 := by
      have hbelow {b : UInt8} (hb : 126 < b.toNat) : ¬ b ≤ ascii c := fun hle : b.toNat ≤ (ascii c).toNat => by omega
      rw [utf8RemainingAfter, if_neg fun hc => hbelow (by decide) hc.1, if_neg fun hc => hbelow (by decide) hc.1,
        if_neg fun hc => hbelow (by decide) hc.1, if_neg fun hc => hbelow (by decide) hc.1]
    obtain ⟨q, hq, hcollects⟩ := h.consume hroom hplain ⟨show 32 ≤ (ascii c).toNat by omega, hne (by decide)⟩
      (fun heq => absurd heq (hne (by decide))) hwhole
    rw [hafter] at hcollects
    exact ⟨q, run_cons hq rfl, hcollects⟩
  · obtain ⟨lead, bits, value, minimum, hencoded, hleads, -, hbits, -⟩ := exists_encoding hpast
    rw [hencoded, ← singleton_append, ← append_assoc] at hwhole
    have hne {b : UInt8} (hb : b < 0xc2) : lead ≠ b := by
      rintro rfl
      exact UInt8.not_le.mpr hb hleads.high
    obtain ⟨q, hq, hcollects⟩ := h.consume hroom hplain ⟨UInt8.le_trans (by decide) hleads.high, hne (by decide)⟩
      (fun heq => absurd heq (hne (by decide))) ((prefix_append _ _).trans hwhole)
    rw [hleads.string] at hcollects
    obtain ⟨u, hrun, hu⟩ := hcollects.continuations hroom hplain hbits hwhole
    rw [hencoded, ← singleton_append, ← append_assoc]
    exact ⟨u, run_cons hq hrun, hu⟩

theorem Collects.text (h : p.Collects done limit 0) {text : List Char} (htext : ∀ c ∈ text, IsText c)
    (hwhole : done ++ encoded text <+: whole) :
    ∃ q, p.consumeAll (encoded text) = .ok (q, []) ∧ q.Collects (done ++ encoded text) limit 0 := by
  induction text generalizing p done with
  | nil => exact ⟨p, rfl, by simpa [encoded] using h⟩
  | cons c rest ih =>
    obtain ⟨hc, hrest⟩ := forall_mem_cons.mp htext
    rw [encoded, flatMap_cons, ← append_assoc] at hwhole ⊢
    obtain ⟨q, hchar, hq⟩ := h.char hroom hplain hc ((prefix_append _ _).trans hwhole)
    obtain ⟨u, hrun, hu⟩ := ih hq hrest hwhole
    exact ⟨u, run_append hchar hrun, hu⟩

end

/-- The three ways to end a command, with the terminator it is reported to have. -/
def terminators : List (List UInt8 × StringTerminator) :=
  [([0x07], .bell), ([0x1b, ascii '\\'], .stringTerminator), ([0x9c], .stringTerminator)]

theorem Collects.finish (h : p.Collects done limit 0) {ending : List UInt8} {terminator : StringTerminator}
    (hending : (ending, terminator) ∈ terminators) :
    ∃ q, p.consumeAll ending = .ok (q, [.osc done terminator]) ∧ q.state = .ground := by
  have hfinish (p' : Parser) (hstring : p'.string = done) (hwhole : p'.stringTruncated = false) :
      p'.finishString terminator =
        { parser := { p' with state := .ground, string := [] }, action := some (.osc done terminator) } := by
    rw [finishString, if_neg (by rw [hwhole]; decide), hstring]
  simp only [terminators, mem_cons, not_mem_nil, or_false, Prod.mk.injEq] at hending
  obtain ⟨rfl, rfl⟩ | ⟨rfl, rfl⟩ | ⟨rfl, rfl⟩ := hending
  · have hbell := h.feed (b := 0x07) (by decide)
    rw [feedOscString, hfinish p h.string h.whole] at hbell
    have hlast : p.consume 0x07 = .ok (_, [.osc done .bell]) := drive_once 1 hbell rfl
    exact ⟨_, run_cons hlast rfl, rfl⟩
  · have hescape := h.feed (b := 0x1b) (by decide)
    have hfirst : p.consume 0x1b = .ok ({ p with state := .oscEscape }, []) := drive_once 1 hescape rfl
    have hslash : ({ p with state := .oscEscape } : Parser).feed (ascii '\\') =
        .ok (({ p with state := .oscEscape } : Parser).finishString .stringTerminator) := rfl
    rw [hfinish { p with state := .oscEscape } h.string h.whole] at hslash
    have hlast : ({ p with state := .oscEscape } : Parser).consume (ascii '\\') =
        .ok (_, [.osc done .stringTerminator]) := drive_once 1 hslash rfl
    exact ⟨_, run_cons hfirst (run_cons hlast rfl), rfl⟩
  · have hend := h.feed (b := 0x9c) (by decide)
    rw [feedOscString, if_neg (by decide), if_neg (by decide), if_pos ⟨rfl, h.remaining⟩,
      hfinish p h.string h.whole] at hend
    have hlast : p.consume 0x9c = .ok (_, [.osc done .stringTerminator]) := drive_once 1 hend rfl
    exact ⟨_, run_cons hlast rfl, rfl⟩

/-- Bytes that start with ASCII characters encode a text that starts with them. -/
theorem prefix_of_encoded {start text : List Char} (hstart : ∀ c ∈ start, c.toNat ≤ 127)
    (htext : ∀ c ∈ text, IsText c) (h : start.map ascii <+: encoded text) : start <+: text := by
  induction start generalizing text with
  | nil => exact List.nil_prefix
  | cons c start ih =>
    obtain ⟨hc, hrest⟩ := forall_mem_cons.mp hstart
    have hbyte := @toNat_ascii c (by omega)
    cases text with
    | nil => cases prefix_nil.mp h
    | cons d text =>
      obtain ⟨hd, hlater⟩ := forall_mem_cons.mp htext
      rw [encoded, flatMap_cons, map_cons] at h
      rcases hd with hascii | hpast
      · rw [utf8EncodeChar_ascii (by omega), singleton_append, cons_prefix_cons] at h
        have hsame : c.toNat = d.toNat := by rw [← hbyte, h.1, toNat_ascii (by omega)]
        exact cons_prefix_cons.mpr ⟨Char.toNat_inj.mp hsame, ih hrest hlater h.2⟩
      · obtain ⟨lead, _, _, _, hencoded, hleads, -⟩ := exists_encoding hpast
        rw [hencoded, cons_append, cons_prefix_cons] at h
        have hhigh : 194 ≤ lead.toNat := hleads.high
        rw [← h.1] at hhigh
        omega

/-- Text is printed scalar by scalar, and is the payload of an operating-system command unless it opens an
inline image. -/
theorem text_is_transparent (p : Parser) (hground : p.state = .ground) (text : List Char)
    (htext : ∀ c ∈ text, IsText c) :
    (∃ q, p.consumeAll (encoded text) = .ok (q, text.map .print) ∧ q.state = .ground) ∧
    (¬ "1337;File=".toList <+: text → (encoded text).length ≤ p.oscLimit →
      ∀ ending terminator, (ending, terminator) ∈ terminators →
        ∃ q, p.consumeAll ([0x1b, ascii ']'] ++ encoded text ++ ending) =
          .ok (q, [.osc (encoded text) terminator]) ∧ q.state = .ground) := by
  refine ⟨consumeAll_text hground htext, fun hplain hroom ending terminator hending => ?_⟩
  have hstart : p.consumeAll [0x1b, ascii ']'] = .ok (({ p.clearSequence with
      state := .escape } : Parser).startString .oscString p.oscLimit, []) := by
    have hescape : p.feed 0x1b = .ok { parser := { p.clearSequence with state := .escape } } := by
      rw [feed, if_neg (by rw [hground]; decide), if_neg (by decide), if_pos ⟨rfl, by rw [hground]; rfl⟩]
    have hfirst : p.consume 0x1b = .ok ({ p.clearSequence with state := .escape }, []) := drive_once 1 hescape rfl
    exact run_cons hfirst rfl
  have hcollects : (({ p.clearSequence with state := .escape } : Parser).startString .oscString p.oscLimit).Collects
      [] p.oscLimit 0 := ⟨rfl, rfl, rfl, rfl, rfl⟩
  obtain ⟨q, hrun, hq⟩ := hcollects.text hroom
    (fun hbad => hplain (prefix_of_encoded (by simp) htext hbad)) htext (prefix_refl _)
  obtain ⟨u, hend, hu⟩ := hq.finish hending
  exact ⟨u, run_append (run_append hstart hrun) hend, hu⟩

/-- The last byte of the second character is the terminator's. -/
theorem continuation_ends_no_command : ∃ q u, (0x9c : UInt8) ∈ encoded ['a', '作'] ∧
    (new 16 16).consumeAll (encoded ['a', '作']) = .ok (q, [.print 'a', .print '作']) ∧
    (new 16 16).consumeAll ([0x1b, ascii ']'] ++ encoded ['a', '作'] ++ [0x9c]) =
      .ok (u, [.osc (encoded ['a', '作']) .stringTerminator]) := by
  obtain ⟨⟨q, hprint, -⟩, hcommand⟩ := text_is_transparent (new 16 16) rfl ['a', '作'] (by simp [IsText])
  obtain ⟨u, hosc, -⟩ := hcommand (by decide) (by decide) [0x9c] .stringTerminator (by decide)
  exact ⟨q, u, by decide, hprint, hosc⟩

end Parser

end Splinterm.Terminal
