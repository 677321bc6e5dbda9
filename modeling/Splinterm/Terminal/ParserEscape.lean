import Splinterm.Terminal.ParserObservation

/-!
# An escape inside a string

`ESC` inside a string that is not followed by a backslash ends the string and starts a new
sequence, but it does not clear what earlier sequences collected. A string introduced by its C1
byte leaves the intermediates of the sequence before it in place, and the new sequence finds them.
-/

namespace Splinterm.Terminal

open Lib Hoare Transducer Except

/-- Inside an operating-system command, a Kitty or an iTerm2 string. -/
def ParserState.insideString : ParserState → Bool
  | .oscString | .oscEscape | .itermControl | .itermControlEscape | .itermPayload
  | .itermPayloadEscape | .kittyControl | .kittyControlEscape | .kittyPayload
  | .kittyPayloadEscape => true
  | _ => false

/-- Such a string in which the last byte was `ESC`. -/
def ParserState.escapePending : ParserState → Bool
  | .oscEscape | .itermControlEscape | .itermPayloadEscape | .kittyControlEscape
  | .kittyPayloadEscape => true
  | _ => false

namespace Parser

/-- The action that ends a string when its `ESC` turns out to start a sequence. -/
def stringEnd (p : Parser) : Action :=
  match p.state with
  | .oscString | .oscEscape =>
    if p.stringTruncated = true then .stringTruncated "OSC" else .osc p.string .stringTerminator
  | .itermControl | .itermControlEscape | .itermPayload | .itermPayloadEscape => .itermAbort
  | _ => .kittyAbort

/-- The escape state with nothing collected but these intermediates. -/
def escaped (oscLimit dcsLimit : Nat) (intermediates : List UInt8) : Parser :=
  { new oscLimit dcsLimit with state := .escape, intermediates }

variable {osc dcs : Nat} {p : Parser} {b : UInt8}

theorem inv_escaped (h : p.Inv osc dcs) : (escaped osc dcs p.intermediates).Inv osc dcs where
  oscLimit := rfl
  dcsLimit := rfl
  sequence := { sequenceOk_empty with
      intermediateCount := h.sequence.intermediateCount
      intermediateBytes := h.sequence.intermediateBytes }
  string := ⟨Nat.zero_le _, Nat.zero_le _, Nat.zero_le _⟩
  state := stateOk_idle (Nat.zero_le _) (show ParserState.escape ≠ .utf8 by decide)

/-! ## Ending the string -/

theorem idle_of_inside (h : p.Inv osc dcs) (hinside : p.state.insideString = true) : p.Idle osc dcs := by
  apply h.idle
  all_goals
    intro hs
    rw [hs] at hinside
    cases hinside

theorem ParserState.inside_of_pending {state : ParserState} (h : state.escapePending = true) :
    state.insideString = true := by
  cases state <;> first | rfl | cases h

/-- The string is ended and the byte is fed again in the escape state. -/
theorem Inv.endString (h : p.Inv osc dcs) (hpending : p.state.escapePending = true)
    (hb : b ≠ ascii '\\') (hcancel : ¬ (b = 0x18 ∨ b = 0x1a)) :
    ∃ fed, p.feed b = .ok fed ∧ fed.again = true ∧ fed.action = some p.stringEnd ∧
      Alike fed.parser (escaped osc dcs p.intermediates) := by
  have hosc := h.oscLimit
  have hdcs := h.dcsLimit
  have hidle := (idle_of_inside h (ParserState.inside_of_pending hpending)).still
  rcases p with ⟨state, _, _, _, _, _, _, _, _, truncated, _, _, _, _, _, _, _⟩
  subst hosc hdcs hidle
  cases state <;> try cases hpending
  all_goals rw [Parser.feed, if_neg (by simp), if_neg hcancel, if_neg (by simp [ParserState.keepsEscape])]
  · rw [Parser.feedOscEscape, if_neg hb]
    cases truncated <;> exact ⟨_, rfl, rfl, rfl, rfl⟩
  · rw [Parser.feedItermControlEscape, decide_eq_false hb]
    exact ⟨_, rfl, rfl, rfl, rfl⟩
  · rw [Parser.feedItermPayloadEscape, decide_eq_false hb]
    exact ⟨_, rfl, rfl, rfl, rfl⟩
  · rw [Parser.feedKittyControlEscape, if_neg hb]
    exact ⟨_, rfl, rfl, rfl, rfl⟩
  · rw [Parser.feedKittyPayloadEscape, if_neg hb]
    exact ⟨_, rfl, rfl, rfl, rfl⟩

/-- The first `ESC` inside a string only waits for what follows. -/
theorem Inv.awaitEnd (h : p.Inv osc dcs) (hinside : p.state.insideString = true)
    (hfirst : p.state.escapePending = false) :
    ∃ q, p.consume 0x1b = .ok (q, []) ∧ q.Inv osc dcs ∧ q.state.escapePending = true ∧
      q.intermediates = p.intermediates ∧ q.stringEnd = p.stringEnd := by
  have hidle := idle_of_inside h hinside
  have henter {state : ParserState} (hstate : state ≠ .utf8) := (hidle.enter hstate).toInv
  rcases p with ⟨state, _, _, _, _, _, _, _, _, _, _, _, _, _, _, _, _⟩
  cases state <;> try cases hinside
  all_goals try cases hfirst
  all_goals exact ⟨_, rfl, henter (by decide), rfl, rfl, rfl⟩

variable {rest : List UInt8} {r : Parser} {actions : List Action}

/-- What follows the end of a string is what the escape state makes of it. -/
theorem Inv.consumeAll_pending (h : p.Inv osc dcs) (hpending : p.state.escapePending = true)
    (hb : b ≠ ascii '\\') (hcancel : ¬ (b = 0x18 ∨ b = 0x1a))
    (hrun : (escaped osc dcs p.intermediates).consumeAll (b :: rest) = .ok (r, actions)) :
    ∃ q, p.consumeAll (b :: rest) = .ok (q, p.stringEnd :: actions) := by
  obtain ⟨fed, hfed, hagain, haction, halike⟩ := h.endString hpending hb hcancel
  -- the escape state is done with the byte in one turn, and so is the state it is fed again in
  obtain ⟨once, honce, -, hlast⟩ := (inv_escaped h).feed b
  have hlast := hlast (.inr rfl)
  obtain ⟨⟨r₁, first⟩, hfirst, hrest⟩ := bind_eq_ok.mp hrun
  obtain ⟨⟨r₂, later⟩, hlater, hpure⟩ := bind_eq_ok.mp hrest
  cases hpure
  obtain ⟨rfl, rfl⟩ := Prod.mk.inj (ok.inj (hfirst.symm.trans (drive_once 1 honce hlast)))
  obtain ⟨other, hother, hsame, hactionOther, hagainOther⟩ := halike.symm.feed honce
  obtain ⟨q, hq, -⟩ := simulates_alike.run hsame hlater
  have hconsume := drive_again hfed hagain (drive_once 0 hother (hagainOther.trans hlast))
  rw [haction, hactionOther] at hconsume
  have hall : p.consumeAll (b :: rest)
      = .ok (q, ((some p.stringEnd).toList ++ once.action.toList) ++ later) :=
    run_cons hconsume hq
  exact ⟨q, hall⟩

/-! ## Starting the sequence -/

/-- These bytes clear what was collected before. -/
def clearsSequence (b : UInt8) : Bool := b = ascii '[' || b = ascii 'P' || b = 0x1b

theorem consume_clears (intermediates : List UInt8) (h : clearsSequence b = true) :
    (escaped osc dcs intermediates).consume b = (escaped osc dcs []).consume b := by
  have hcases : b = ascii '[' ∨ b = ascii 'P' ∨ b = 0x1b := by simpa [clearsSequence, or_assoc] using h
  rcases hcases with rfl | rfl | rfl <;> rfl

/-- The intermediates after a byte in the escape state. -/
def collectedBy (intermediates : List UInt8) (b : UInt8) : List UInt8 :=
  if 0x20 ≤ b ∧ b ≤ 0x2f ∧ intermediates.length < intermediateLimit then intermediates ++ [b]
  else intermediates

variable {intermediates : List UInt8}

theorem collectedBy_ne (h : intermediates ≠ []) : collectedBy intermediates b ≠ collectedBy [] b := by
  rw [collectedBy, collectedBy]
  split_ifs with hfirst hsecond hsecond <;> intro hbad <;> have hlength := congrArg List.length hbad
  · exact absurd hlength (by simp; omega)
  · exact absurd hlength (by simp)
  · have hfull : intermediateLimit ≤ intermediates.length :=
      Nat.le_of_not_lt fun hroom => hfirst ⟨hsecond.1, hsecond.2.1, hroom⟩
    rw [intermediateLimit] at hfull
    simp at hlength
    omega
  · exact h hbad

theorem collectedBy_of_not (h : ¬ (0x20 ≤ b ∧ b ≤ 0x2f)) :
    collectedBy intermediates b = intermediates := if_neg fun hbad => h ⟨hbad.1, hbad.2.1⟩

theorem collectIntermediate_escaped (intermediates : List UInt8) (h : 0x20 ≤ b ∧ b ≤ 0x2f) :
    (escaped osc dcs intermediates).collectIntermediate b = escaped osc dcs (collectedBy intermediates b) := by
  rw [collectIntermediate]
  split
  · rename_i hroom
    exact congrArg (escaped osc dcs) (if_pos ⟨h.1, h.2, hroom⟩).symm
  · rename_i hfull
    exact congrArg (escaped osc dcs) (if_neg fun hbad => hfull hbad.2.2).symm

/-- A string terminator after this result leads to the ground state with these intermediates. -/
def Fed.Returns (osc dcs : Nat) (intermediates : List UInt8) (fed : Fed) : Prop :=
  fed.again = false ∧ ∃ q actions, fed.parser.consume 0x9c = .ok (q, actions) ∧
    Alike q { new osc dcs with intermediates }

/-- Every byte that clears nothing keeps the intermediates, or adds itself to them. -/
theorem returns_feedEscape (intermediates : List UInt8) (hclears : clearsSequence b = false) :
    ((escaped osc dcs intermediates).feedEscape b).Returns osc dcs (collectedBy intermediates b) := by
  obtain ⟨⟨hbracket, hdevice⟩, -⟩ : (b ≠ ascii '[' ∧ b ≠ ascii 'P') ∧ b ≠ 0x1b := by
    simpa [clearsSequence] using hclears
  have hkept (h : ¬ (0x20 ≤ b ∧ b ≤ 0x2f)) {fed : Fed} (hfed : fed.Returns osc dcs intermediates) :
      fed.Returns osc dcs (collectedBy intermediates b) := by
    rw [collectedBy_of_not h]
    exact hfed
  have hletter {c : UInt8} (hc : ¬ c ≤ 0x2f) (h : b = c) : ¬ (0x20 ≤ b ∧ b ≤ 0x2f) := fun hbad => hc (h ▸ hbad.2)
  refine iteInduction (fun h => hkept (hletter (by decide) h) ⟨rfl, _, _, rfl, rfl⟩) fun _ =>
    iteInduction (fun h => hkept ?_ ⟨rfl, _, _, rfl, rfl⟩) fun hcontrol =>
    iteInduction (fun h => absurd h.1 hbracket) fun _ =>
    iteInduction (fun h => hkept (hletter (by decide) h.1) ⟨rfl, _, _, rfl, rfl⟩) fun _ =>
    iteInduction (fun h => absurd h.1 hdevice) fun _ =>
    iteInduction (fun h => hkept ?_ ⟨rfl, _, _, rfl, rfl⟩) fun _ =>
    iteInduction (fun h => hkept (hletter (by decide) h.1) ⟨rfl, _, _, rfl, rfl⟩) fun _ =>
    iteInduction (fun h => ?_) fun hlast =>
    iteInduction (fun h => hkept (fun hbad => hlast hbad.2) ⟨rfl, _, _, rfl, rfl⟩) fun _ =>
      hkept (fun hbad => hlast hbad.2) ⟨rfl, _, _, rfl, rfl⟩
  · exact fun hbad => absurd (UInt8.le_trans hbad.1 h) (by decide)
  · exact h.1.elim (hletter (by decide)) (hletter (by decide))
  · rw [collectIntermediate_escaped intermediates ⟨above_control hcontrol, h⟩]
    exact ⟨rfl, _, _, rfl, rfl⟩

/-- An escape after a C1 string shows the intermediates of the ground state. -/
theorem consumeAll_exposing (intermediates : List UInt8) (hclears : clearsSequence b = false)
    (hcancel : ¬ (b = 0x18 ∨ b = 0x1a)) :
    ∃ q actions, (escaped osc dcs intermediates).consumeAll [b, 0x9c, 0x9d, 0x1b, ascii 'D']
      = .ok (q, actions ++ [.esc (collectedBy intermediates b) (ascii 'D')]) := by
  have hescape : b ≠ 0x1b := by
    intro hbad
    rw [hbad] at hclears
    cases hclears
  have hstate : (escaped osc dcs intermediates).state ≠ .utf8 := by simp [escaped]
  have hfeed : (escaped osc dcs intermediates).feed b
      = .ok ((escaped osc dcs intermediates).feedEscape b) := by
    rw [feed, if_neg hstate, if_neg hcancel, if_neg fun hbad => hescape hbad.1]
    rfl
  have hback : ((escaped osc dcs intermediates).feedEscape b).Returns osc dcs
      (collectedBy intermediates b) := returns_feedEscape intermediates hclears
  obtain ⟨honce, q, later, hsecond, halike⟩ := hback
  have hshown : ({ new osc dcs with intermediates := collectedBy intermediates b } : Parser).consumeAll
      [0x9d, 0x1b, ascii 'D']
      = .ok ({ new osc dcs with
          intermediates := collectedBy intermediates b
          stringLimit := osc },
        [.osc [] .stringTerminator, .esc (collectedBy intermediates b) (ascii 'D')]) := rfl
  obtain ⟨r, hr, -⟩ := simulates_alike.run halike.symm hshown
  have hrun := run_cons (drive_once 1 hfeed honce) (run_cons hsecond hr)
  refine ⟨r, ((escaped osc dcs intermediates).feedEscape b).action.toList ++ later ++ [.osc [] .stringTerminator], ?_⟩
  rw [List.append_assoc, List.append_assoc]
  exact hrun

/-! ## The string and the sequence after it -/

theorem consume_escape_new : (new osc dcs).consume 0x1b = .ok (escaped osc dcs [], []) := rfl

theorem consumeAll_cancel (hstate : p.state ≠ .utf8) (hb : b = 0x18 ∨ b = 0x1a) :
    p.consumeAll [b] = .ok (p.cancelled, [p.cancelAction]) := by
  have hone : p.consume b = .ok (p.cancelled, [p.cancelAction]) := drive_once 1 (feed_cancel hstate hb) rfl
  have hnone : Transducer.run consume p.cancelled [] = .ok (p.cancelled, []) := rfl
  exact run_cons hone hnone

/-- Whatever follows, `ESC` and this byte are read as by a new parser, after the action that ends
the string. -/
def ReadsAfresh (osc dcs : Nat) (p : Parser) (b : UInt8) : Prop :=
  ∀ rest, ∃ q r actions, p.consumeAll (0x1b :: b :: rest) = .ok (q, p.stringEnd :: actions) ∧
    (new osc dcs).consumeAll (0x1b :: b :: rest) = .ok (r, actions)

theorem consumeAll_escape_new (h : (escaped osc dcs []).consumeAll rest = .ok (r, actions)) :
    (new osc dcs).consumeAll (0x1b :: rest) = .ok (r, actions) :=
  run_cons consume_escape_new h

/-- The string's own `ESC` came before: another one ends it and clears what was collected. -/
theorem Inv.readsAfresh_of_pending (h : p.Inv osc dcs) (hpending : p.state.escapePending = true) :
    ReadsAfresh osc dcs p b := by
  intro rest
  obtain ⟨r, actions, hr, -⟩ := (inv_new osc dcs).consumeAll (0x1b :: b :: rest)
  have hescaped : (escaped osc dcs p.intermediates).consumeAll (0x1b :: b :: rest)
      = .ok (r, actions) := hr
  obtain ⟨q, hq⟩ := h.consumeAll_pending hpending (by decide) (by decide) hescaped
  exact ⟨q, r, actions, hq, hr⟩

section

variable (h : p.Inv osc dcs) (hinside : p.state.insideString = true)
  (hfirst : p.state.escapePending = false) (hb : b ≠ ascii '\\')

include h hinside hfirst hb

/-- The sequence is read from the escape state with the intermediates left over. -/
theorem Inv.consumeAll_inside (hcancel : ¬ (b = 0x18 ∨ b = 0x1a))
    (hrun : (escaped osc dcs p.intermediates).consumeAll (b :: rest) = .ok (r, actions)) :
    ∃ q, p.consumeAll (0x1b :: b :: rest) = .ok (q, p.stringEnd :: actions) := by
  obtain ⟨s, hs, hsinv, hspending, hsame, hend⟩ := h.awaitEnd hinside hfirst
  rw [← hsame] at hrun
  obtain ⟨q, hq⟩ := hsinv.consumeAll_pending hspending hb hcancel hrun
  rw [hend] at hq
  exact ⟨q, run_cons hs hq⟩

theorem Inv.readsAfresh_of_clean (hcancel : ¬ (b = 0x18 ∨ b = 0x1a))
    (hclean : p.intermediates = [] ∨ clearsSequence b = true) : ReadsAfresh osc dcs p b := by
  intro rest
  obtain ⟨r, actions, hr, -⟩ := (inv_escaped (inv_new osc dcs)).consumeAll (b :: rest)
  have hsequence : (escaped osc dcs p.intermediates).consumeAll (b :: rest) = .ok (r, actions) := by
    rcases hclean with hnone | hclears
    · rw [hnone]
      exact hr
    · rw [Parser.consumeAll, Transducer.run, consume_clears p.intermediates hclears]
      exact hr
  obtain ⟨q, hq⟩ := h.consumeAll_inside hinside hfirst hb hcancel hsequence
  exact ⟨q, r, actions, hq, consumeAll_escape_new hr⟩

omit hb in
/-- A cancelling byte aborts the string, and nothing is left for the sequence. -/
theorem Inv.not_cancel (hafresh : ReadsAfresh osc dcs p b) : ¬ (b = 0x18 ∨ b = 0x1a) := by
  intro hcancel
  obtain ⟨q, r, actions, hq, hr⟩ := hafresh []
  obtain ⟨s, hs, -, hspending, -, -⟩ := h.awaitEnd hinside hfirst
  have hstate : s.state ≠ .utf8 := fun hbad => by
    rw [hbad] at hspending
    cases hspending
  have hone : p.consumeAll [0x1b, b] = .ok (s.cancelled, [s.cancelAction]) :=
    run_cons hs (consumeAll_cancel hstate hcancel)
  have hother : (new osc dcs).consumeAll [0x1b, b]
      = .ok ((escaped osc dcs []).cancelled, [(escaped osc dcs []).cancelAction]) :=
    consumeAll_escape_new (consumeAll_cancel (by simp [escaped]) hcancel)
  have hsame := (Prod.mk.inj (ok.inj (hone.symm.trans hq))).2
  rw [← (Prod.mk.inj (ok.inj (hother.symm.trans hr))).2] at hsame
  exact absurd (congrArg List.length hsame) (by simp)

/-- Intermediates left over show in a sequence that does not clear them. -/
theorem Inv.clean_of_readsAfresh (hafresh : ReadsAfresh osc dcs p b) :
    p.intermediates = [] ∨ clearsSequence b = true := by
  by_cases hleft : p.intermediates = []
  · exact .inl hleft
  cases hclears : clearsSequence b with
  | true => exact .inr rfl
  | false =>
    have hcancel := h.not_cancel hinside hfirst hafresh
    obtain ⟨r₁, shown, hshown⟩ := consumeAll_exposing p.intermediates hclears hcancel
    obtain ⟨r₂, clean, hcleanRun⟩ := consumeAll_exposing [] hclears hcancel
    obtain ⟨q, r, actions, hq, hr⟩ := hafresh [0x9c, 0x9d, 0x1b, ascii 'D']
    obtain ⟨q', hq'⟩ := h.consumeAll_inside hinside hfirst hb hcancel hshown
    have hstring := (List.cons.inj (Prod.mk.inj (ok.inj (hq'.symm.trans hq))).2).2
    have hnew := (Prod.mk.inj (ok.inj ((consumeAll_escape_new hcleanRun).symm.trans hr))).2
    have hlast := (List.append_inj' (hstring.trans hnew.symm) rfl).2
    have hcollected : collectedBy p.intermediates b = collectedBy [] b := by simpa using hlast
    exact absurd hcollected (collectedBy_ne hleft)

end

/-- An escape sequence after a string is read as by a new parser exactly when the string's own
`ESC` came before, or when no intermediates are left over or its first byte clears them. -/
theorem escape_after_string_iff {bytes : List UInt8} {before : List Action}
    (hrun : (new osc dcs).consumeAll bytes = .ok (p, before))
    (hinside : p.state.insideString = true) (hb : b ≠ ascii '\\') :
    (∀ rest, ∃ q r actions, p.consumeAll (0x1b :: b :: rest) = .ok (q, p.stringEnd :: actions) ∧
      (new osc dcs).consumeAll (0x1b :: b :: rest) = .ok (r, actions)) ↔ p.state.escapePending = true ∨
      ¬ (b = 0x18 ∨ b = 0x1a) ∧ (p.intermediates = [] ∨ clearsSequence b = true) := by
  have hinv : p.Inv osc dcs := by
    obtain ⟨q, actions, hq, hinv⟩ := (inv_new osc dcs).consumeAll bytes
    cases hrun.symm.trans hq
    exact hinv
  cases hpending : p.state.escapePending with
  | true => exact ⟨fun _ => .inl rfl, fun _ => hinv.readsAfresh_of_pending hpending⟩
  | false =>
    constructor
    · intro hafresh
      exact .inr ⟨hinv.not_cancel hinside hpending hafresh, hinv.clean_of_readsAfresh hinside hpending hb hafresh⟩
    · rintro (hbad | ⟨hcancel, hclean⟩)
      · cases hbad
      · exact hinv.readsAfresh_of_clean hinside hpending hb hcancel hclean

/-- A command introduced by `ESC ]`: the sequence after it starts afresh. -/
theorem seven_bit_string_is_left_afresh : (new 16 16).consumeAll [0x1b, ascii ']'] = .ok (collecting 16 16 0, []) ∧
      ((∀ rest, ∃ q r actions, (collecting 16 16 0).consumeAll (0x1b :: ascii 'D' :: rest)
          = .ok (q, (collecting 16 16 0).stringEnd :: actions) ∧
        (new 16 16).consumeAll (0x1b :: ascii 'D' :: rest) = .ok (r, actions)) ↔
      (collecting 16 16 0).state.escapePending = true ∨ ¬ (ascii 'D' = 0x18 ∨ ascii 'D' = 0x1a) ∧
          ((collecting 16 16 0).intermediates = [] ∨ clearsSequence (ascii 'D') = true)) :=
  ⟨rfl, escape_after_string_iff (rfl : (new 16 16).consumeAll [0x1b, ascii ']']
    = .ok (collecting 16 16 0, [])) rfl (by decide)⟩

/-- `ESC ( B`, a C1 command, `ESC D`: the last sequence is read with the intermediate of the
first. -/
theorem leftover_intermediate_is_read : (new 16 16).consumeAll [0x1b, ascii '(', ascii 'B', 0x9d]
        = .ok ({ collecting 16 16 0 with intermediates := [ascii '('] }, [.esc [ascii '('] (ascii 'B')]) ∧
      ({ collecting 16 16 0 with intermediates := [ascii '('] } : Parser).consumeAll
          [0x1b, ascii 'D']
        = .ok ({ new 16 16 with intermediates := [ascii '('], stringLimit := 16 },
          [.osc [] .stringTerminator, .esc [ascii '('] (ascii 'D')]) ∧
      (new 16 16).consumeAll [0x1b, ascii 'D'] = .ok (new 16 16, [.esc [] (ascii 'D')]) :=
  ⟨rfl, rfl, rfl⟩

end Parser

end Splinterm.Terminal
