import Splinterm.Terminal.ParserRun

/-!
# What later bytes can tell about a parser

Most of what the parser has collected is out of reach in most of its states: a new sequence or
string starts by clearing it. The collected intermediates are the exception, which a string
introduced by its C1 byte does not clear.
-/

namespace Splinterm.Terminal

open Lib Hoare

/-- The states that read or extend the collected parameters. -/
def ParserState.readsParams : ParserState → Bool
  | .csiEntry | .csiParam | .csiIntermediate | .csiIgnore | .dcsEntry | .dcsParam
  | .dcsIntermediate => true
  | _ => false

/-- The states that read or extend the collected string. -/
def ParserState.readsString (sixelStreaming : Bool) : ParserState → Bool
  | .oscString | .oscEscape | .itermControl | .itermControlEscape | .kittyControl
  | .kittyControlEscape => true
  | .dcsPassthrough | .dcsEscape => !sixelStreaming
  | _ => false

namespace Parser

/-- The parser with everything blank that no byte can reach any more. -/
def observable (p : Parser) : Parser :=
  let reads := p.state.readsParams
  let collects := p.state.readsString p.sixelStreaming
  let decodes := p.state == .utf8
  { p with
    «private» := if reads then p.private else none
    params := if reads then p.params else {}
    currentParam := if reads then p.currentParam else 0
    currentSubparam := if reads then p.currentSubparam else none
    parameterOverflow := if reads then p.parameterOverflow else false
    string := if collects then p.string else []
    stringLimit := if collects then p.stringLimit else 0
    stringTruncated := if collects then p.stringTruncated else false
    stringUtf8Remaining := if collects then p.stringUtf8Remaining else 0
    utf8Value := if decodes then p.utf8Value else 0
    utf8Minimum := if decodes then p.utf8Minimum else 0
    utf8Remaining := if decodes then p.utf8Remaining else 0 }

def Fed.observable (fed : Fed) : Fed := { fed with parser := fed.parser.observable }

/-- What an outcome shows. -/
def observed (result : Except Fault Fed) : Except Fault Fed := result.map Fed.observable

/-- A choice is seen as one of its branches. -/
theorem seen_ite {α β : Type} (see : α → β) {c : Prop} [Decidable c] {first second first' second' : α}
    (hfirst : see first = see first') (hsecond : see second = see second') :
    see (if c then first else second) = see (if c then first' else second') := by
  split
  · exact hfirst
  · exact hsecond

theorem Fed.observable_state_ite {c : Prop} [Decidable c] {p p' : Parser} {first second : ParserState}
    (hfirst : ({ p with state := first } : Parser).observable = ({ p' with state := first } : Parser).observable)
    (hsecond : ({ p with state := second } : Parser).observable = ({ p' with state := second } : Parser).observable) :
    ({ parser := { p with state := if c then first else second } } : Fed).observable
      = ({ parser := { p' with state := if c then first else second } } : Fed).observable := by
  split
  · exact congrArg (fun parser => ({ parser } : Fed)) hfirst
  · exact congrArg (fun parser => ({ parser } : Fed)) hsecond

variable {p : Parser} {b : UInt8}

/-! ## Collecting, field by field -/

theorem collectIntermediate_eq (b : UInt8) : p.collectIntermediate b = { p with
      intermediates := if p.intermediates.length < intermediateLimit then p.intermediates ++ [b]
        else p.intermediates } := by
  rw [collectIntermediate]
  split <;> rfl

theorem pushString_eq (b : UInt8) : p.pushString b = { p with
      string := if p.string.length < p.stringLimit then p.string ++ [b] else p.string
      stringTruncated := if p.string.length < p.stringLimit then p.stringTruncated else true } := by
  rw [pushString]
  split <;> rfl

/-- What a digit does to the parameters. -/
def withDigit (params : Params) (currentParam : Nat) (currentSubparam : Option Nat) (digit : Nat) : Params :=
  (({ oscLimit := 0, dcsLimit := 0, params, currentParam, currentSubparam } : Parser).collectDigit digit).params

theorem collectDigit_eq (digit : Nat) : p.collectDigit digit =
    { p with params := withDigit p.params p.currentParam p.currentSubparam digit } := by
  rw [withDigit, collectDigit, collectDigit]
  split <;> rfl

theorem nextParam_eq : p.nextParam = { p with
      params := { p.params with count := max p.params.count (min (p.currentParam + 1) paramLimit) }
      currentSubparam := none
      currentParam := if paramLimit ≤ p.currentParam + 1 then p.currentParam else p.currentParam + 1
      parameterOverflow := if paramLimit ≤ p.currentParam + 1 then true else p.parameterOverflow } := by
  rw [nextParam]
  split <;> rfl

/-- What a colon does to the parameters and to the subparameter being read. -/
def withSubparam (params : Params) (currentParam : Nat) (currentSubparam : Option Nat) : Params × Option Nat :=
  let p := ({ oscLimit := 0, dcsLimit := 0, params, currentParam, currentSubparam } : Parser).nextSubparam
  (p.params, p.currentSubparam)

theorem nextSubparam_eq : p.nextSubparam = { p with
      params := (withSubparam p.params p.currentParam p.currentSubparam).1
      currentSubparam := (withSubparam p.params p.currentParam p.currentSubparam).2 } := by
  rw [withSubparam, nextSubparam, nextSubparam]
  split <;> rfl

theorem finishParams_eq : p.finishParams = { p with params :=
        if p.currentParam < paramLimit ∧ (0 < p.params.count ∨ p.currentSubparam.isSome = true) then
          { p.params with count := max p.params.count (p.currentParam + 1) }
        else p.params } := by
  rw [finishParams]
  split <;> rfl

/-! ## One byte -/

theorem finishDcs_observable (h : p.state = .dcsPassthrough ∨ p.state = .dcsEscape) :
    p.finishDcs.observable = p.observable.finishDcs.observable := by
  rcases p with ⟨_, _, _, _, _, _, _, _, _, _, _, _, streaming, _, _, _, _⟩
  rcases h with h | h
  all_goals
    subst h
    cases streaming with
    | true => rfl
    | false =>
      repeat' first | apply seen_ite Fed.observable | rfl

/-- A byte cannot tell a parser from its observable part. -/
theorem feed_observable (p : Parser) (b : UInt8) : observed (p.feed b) = observed (p.observable.feed b) := by
  unfold feed
  by_cases hutf8 : p.state = .utf8
  · cases p
    subst hutf8
    repeat' first | apply seen_ite observed | rfl
  rw [if_neg hutf8, if_neg (show p.observable.state ≠ .utf8 from hutf8)]
  apply seen_ite observed
  · rfl
  by_cases hescape : b = 0x1b ∧ p.state.keepsEscape = false
  · rw [if_pos hescape, if_pos (show _ ∧ p.observable.state.keepsEscape = false from hescape)]
    rfl
  rw [if_neg hescape, if_neg (show ¬ (_ ∧ p.observable.state.keepsEscape = false) from hescape)]
  apply congrArg Except.ok
  have hfinish := finishDcs_observable (p := p)
  rcases p with ⟨state, _, _, _, _, _, _, _, _, truncated, _, _, streaming, _, _, _, _⟩
  cases state with
  | utf8 => exact absurd rfl hutf8
  | ground | itermPayload | apcPrefix | kittyControlEscape | kittyPayload | kittyPayloadEscape =>
    repeat' first | apply seen_ite Fed.observable | rfl
  | escape | escapeIntermediate =>
    dsimp only [feedEscape]
    rw [collectIntermediate_eq, collectIntermediate_eq]
    repeat' first | apply seen_ite Fed.observable | rfl
  | csiEntry | csiParam | csiIntermediate | csiIgnore | dcsEntry | dcsParam | dcsIntermediate =>
    dsimp only [feedCsi, feedDcsHeader]
    rw [collectIntermediate_eq, collectIntermediate_eq, collectDigit_eq, collectDigit_eq, nextParam_eq,
      nextParam_eq, nextSubparam_eq, nextSubparam_eq, finishParams_eq, finishParams_eq]
    repeat' first
      | apply seen_ite Fed.observable
      | exact Fed.observable_state_ite rfl rfl
      | (split <;> rfl)
      | rfl
  | oscString =>
    dsimp only [feedOscString, finishString]
    rw [pushString_eq, pushString_eq]
    repeat' first | apply seen_ite Fed.observable | rfl
    exact seen_ite (fun parser => Fed.observable { parser }) rfl rfl
  | oscEscape =>
    cases truncated <;> repeat' first | apply seen_ite Fed.observable | rfl
  | itermControl | kittyControl =>
    dsimp only [feedItermControl, feedKittyControl, finishKittyCommand]
    rw [pushString_eq, pushString_eq]
    repeat' first | apply seen_ite Fed.observable | rfl
  | itermControlEscape | itermPayloadEscape =>
    dsimp only [feedItermControlEscape, feedItermPayloadEscape]
    cases decide (b = ascii '\\') <;> rfl
  | dcsPassthrough =>
    dsimp only [feedDcsPassthrough]
    rw [pushString_eq, pushString_eq]
    refine seen_ite Fed.observable ?_ (seen_ite Fed.observable ?_ (seen_ite Fed.observable (hfinish (.inl rfl)) ?_))
    all_goals cases streaming <;> rfl
  | dcsEscape => exact seen_ite Fed.observable (hfinish (.inr rfl)) rfl
  | dcsIgnore =>
    -- `ESC` has been handled above, so an ignored device string ends in no other way
    have hb : b ≠ 0x1b := fun hb => hescape ⟨hb, rfl⟩
    dsimp only
    rw [if_neg hb, if_neg hb]
    rfl
  | sosPmApcString | sosPmApcEscape =>
    repeat' first | apply seen_ite Fed.observable | exact Fed.observable_state_ite rfl rfl | rfl

/-! ## Runs -/

/-- Parsers that no byte can tell apart. -/
def Alike (p q : Parser) : Prop := p.observable = q.observable

theorem Alike.symm {p q : Parser} (h : Alike p q) : Alike q p := Eq.symm h

theorem Alike.feed {p q : Parser} (h : Alike p q) {fed : Fed} (hfed : p.feed b = .ok fed) :
    ∃ other, q.feed b = .ok other ∧ Alike fed.parser other.parser ∧ other.action = fed.action ∧
      other.again = fed.again := by
  have hsame : observed (q.feed b) = .ok fed.observable := by
    rw [feed_observable q b, ← (show p.observable = q.observable from h), ← feed_observable p b, hfed]
    rfl
  cases hother : q.feed b with
  | error fault =>
    rw [hother] at hsame
    cases hsame
  | ok other =>
    rw [hother] at hsame
    have heq : other.observable = fed.observable := Except.ok.inj hsame
    have haction : other.observable.action = fed.observable.action := congrArg Fed.action heq
    have hagain : other.observable.again = fed.observable.again := congrArg Fed.again heq
    exact ⟨other, rfl, (congrArg Fed.parser heq).symm, haction, hagain⟩

theorem Alike.drive {p q : Parser} (h : Alike p q) {turns : Nat} {p' : Parser}
    {actions : List Action} (hdrive : Parser.drive b turns p = .ok (p', actions)) :
    ∃ q', Parser.drive b turns q = .ok (q', actions) ∧ Alike p' q' := by
  induction turns generalizing p q actions with
  | zero => cases hdrive
  | succ turns ih =>
    obtain ⟨fed, hfed, hrest⟩ := bind_eq_ok.mp hdrive
    obtain ⟨other, hother, halike, haction, hagain⟩ := h.feed hfed
    cases hmore : fed.again with
    | false =>
      rw [hmore] at hrest
      cases hrest
      rw [← haction]
      exact ⟨other.parser, drive_once turns hother (hagain.trans hmore), halike⟩
    | true =>
      rw [if_pos hmore] at hrest
      obtain ⟨⟨p₁, more⟩, hturns, hpure⟩ := bind_eq_ok.mp hrest
      cases hpure
      obtain ⟨q₁, hq₁, halike⟩ := ih halike hturns
      rw [← haction]
      exact ⟨q₁, drive_again hother (hagain.trans hmore) hq₁, halike⟩

theorem simulates_alike : Transducer.Simulates consume Alike :=
  fun _ _ _ _ _ halike hconsume => halike.drive hconsume

/-! ## Cancelling -/

/-- What `CAN` and `SUB` leave of a parser. -/
def cancelled (p : Parser) : Parser :=
  { p with state := .ground, sixelStreaming := false, string := [] }.clearSequence

theorem alike_cancelled {osc dcs : Nat} (h : p.Inv osc dcs) : Alike p.cancelled (new osc dcs) := by
  have hosc := h.oscLimit
  have hdcs := h.dcsLimit
  subst hosc hdcs
  rfl

theorem feed_cancel (hstate : p.state ≠ .utf8) (hb : b = 0x18 ∨ b = 0x1a) :
    p.feed b = .ok { parser := p.cancelled, action := some p.cancelAction } := by
  rw [feed, if_neg hstate, if_pos hb]
  rfl

theorem consume_cancel {osc dcs : Nat} (h : p.Inv osc dcs) (hb : b = 0x18 ∨ b = 0x1a) :
    ∃ q actions, p.consume b = .ok (q, actions) ∧ Alike q (new osc dcs) := by
  by_cases hutf8 : p.state = .utf8
  · -- the pending character is given up and the byte is fed again in the ground state
    have hground : ({ p with state := .ground } : Parser).Inv osc dcs :=
      ((h.idle (by rw [hutf8]; decide) (by rw [hutf8]; decide)).enter (by decide)).toInv
    have hgiven : p.feed b = .ok
        { parser := { p with state := .ground }, action := some (.print '�'), again := true } := by
      rw [feed, if_pos hutf8, feedUtf8, if_pos (by rcases hb with rfl | rfl <;> decide)]
    have hstate : ({ p with state := .ground } : Parser).state ≠ .utf8 := by simp
    have hagain := feed_cancel hstate hb
    exact ⟨_, _, drive_again hgiven rfl (drive_once 0 hagain rfl), alike_cancelled hground⟩
  · exact ⟨_, _, drive_once 1 (feed_cancel hutf8 hb) rfl, alike_cancelled h⟩

/-- After `CAN` or `SUB` the parser goes on like a new one. -/
theorem cancel_resynchronizes (oscLimit dcsLimit : Nat) (bytes : List UInt8) {cancel : UInt8}
    (hcancel : cancel = 0x18 ∨ cancel = 0x1a) (further : List UInt8) : ∃ p before q r actions,
      (new oscLimit dcsLimit).consumeAll (bytes ++ [cancel]) = .ok (p, before) ∧
      p.consumeAll further = .ok (q, actions) ∧ (new oscLimit dcsLimit).consumeAll further = .ok (r, actions) := by
  obtain ⟨p, before, hrun, hinv⟩ := (inv_new oscLimit dcsLimit).consumeAll bytes
  obtain ⟨q, emitted, hq, halike⟩ := consume_cancel hinv hcancel
  obtain ⟨r, actions, hr, -⟩ := (inv_new oscLimit dcsLimit).consumeAll further
  obtain ⟨q', hq', -⟩ := simulates_alike.run halike.symm hr
  exact ⟨q, before ++ (emitted ++ []), q', r, actions, Transducer.run_append hrun (Transducer.run_cons hq rfl), hq', hr⟩

theorem osc_cancelled : ∃ p before q r actions,
    (new 16 16).consumeAll ([0x1b, ascii ']', ascii 'x'] ++ [0x18]) = .ok (p, before) ∧
    p.consumeAll [ascii 'y'] = .ok (q, actions) ∧ (new 16 16).consumeAll [ascii 'y'] = .ok (r, actions) :=
  cancel_resynchronizes 16 16 [0x1b, ascii ']', ascii 'x'] (.inl rfl) [ascii 'y']

end Parser

end Splinterm.Terminal
