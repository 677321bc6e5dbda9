import Mathlib.Tactic.SplitIfs
import Splinterm.Terminal.Parser

/-!
# What the parser holds

Every byte keeps the parser's parameters, strings and decoder counters inside their
bounds, and a byte that has to be fed again is then consumed.
-/

namespace Splinterm.Terminal

open List Nat

/-! ## Parameters -/

theorem getD_replicate_self {α : Type} (n index : Nat) (a : α) : (List.replicate n a).getD index a = a := by
  rw [getD_eq_getElem?_getD, getElem?_replicate]
  split <;> rfl

theorem getD_set {α : Type} (l : List α) (index i : Nat) (a fallback : α) (h : index < l.length) :
    (l.set index a).getD i fallback = if i = index then a else l.getD i fallback := by
  by_cases hi : index = i
  · subst hi
    simp [h]
  · simp [hi, Ne.symm hi]

/-- A parameter in order: values past its counts were never written. -/
structure Param.Ok (param : Param) : Prop where
  subparams : param.subparams.length = subparamLimit
  subparamPresent : param.subparamPresent.length = subparamLimit
  count : param.subparamCount ≤ subparamLimit
  absent : param.present = false → param.value = 0
  unusedValue : ∀ index, param.subparamCount ≤ index → param.subparams.getD index 0 = 0
  unusedPresent : ∀ index, param.subparamCount ≤ index → param.subparamPresent.getD index false = false

theorem Param.ok_default : ({} : Param).Ok where
  subparams := rfl
  subparamPresent := rfl
  count := zero_le _
  absent := fun _ => rfl
  unusedValue := fun index _ => getD_replicate_self subparamLimit index 0
  unusedPresent := fun index _ => getD_replicate_self subparamLimit index false

theorem Param.Ok.appendSubparam {param : Param} (h : param.Ok) {subparam digit : Nat}
    (hsub : subparam < subparamLimit) :
    ({ param with
      subparamCount := max param.subparamCount (subparam + 1)
      subparamPresent := param.subparamPresent.set subparam true
      subparams := param.subparams.set subparam
        (Parser.appendDigit (param.subparams.getD subparam 0) digit) } : Param).Ok := by
  have hcount := h.count
  refine ⟨length_set.trans h.subparams, length_set.trans h.subparamPresent, ?_, h.absent, ?_, ?_⟩
  · show max param.subparamCount (subparam + 1) ≤ subparamLimit
    omega
  · intro i hi
    have hi : max param.subparamCount (subparam + 1) ≤ i := hi
    rw [getD_set _ _ _ _ _ (h.subparams ▸ hsub), if_neg (by omega)]
    exact h.unusedValue i (by omega)
  · intro i hi
    have hi : max param.subparamCount (subparam + 1) ≤ i := hi
    rw [getD_set _ _ _ _ _ (h.subparamPresent ▸ hsub), if_neg (by omega)]
    exact h.unusedPresent i (by omega)

/-- All parameters in order; those past the count are untouched. -/
structure Params.Ok (params : Params) : Prop where
  values : params.values.length = paramLimit
  count : params.count ≤ paramLimit
  each : ∀ index, (params.values.getD index {}).Ok
  unused : ∀ index, params.count ≤ index → params.values.getD index {} = {}

theorem Params.ok_default : ({} : Params).Ok where
  values := rfl
  count := zero_le _
  each := fun index => by
    rw [show ({} : Params).values.getD index {} = {} from getD_replicate_self ..]
    exact Param.ok_default
  unused := fun index _ => getD_replicate_self paramLimit index ({} : Param)

/-- One parameter written under a count that covers it. -/
theorem Params.Ok.write {params : Params} (h : params.Ok) {index : Nat} (hindex : index < paramLimit)
    {param : Param} (hparam : param.Ok) :
    ({ count := max params.count (index + 1), values := params.values.set index param } : Params).Ok := by
  have hget := fun i => getD_set params.values index i param {} (h.values ▸ hindex)
  refine ⟨length_set.trans h.values, ?_, ?_, ?_⟩
  · have := h.count
    show max params.count (index + 1) ≤ paramLimit
    omega
  · intro i
    rw [hget]
    split
    · exact hparam
    · exact h.each i
  · intro i hi
    have hi : max params.count (index + 1) ≤ i := hi
    rw [hget, if_neg (by omega)]
    exact h.unused i (by omega)

theorem Params.Ok.raise {params : Params} (h : params.Ok) (count : Nat) (hcount : count ≤ paramLimit) :
    ({ params with count := max params.count count } : Params).Ok := by
  refine ⟨h.values, ?_, h.each, ?_⟩
  · have := h.count
    show max params.count count ≤ paramLimit
    omega
  · intro i hi
    have hi : max params.count count ≤ i := hi
    exact h.unused i (by omega)

namespace Parser

/-! ## The invariant -/

/-- The control sequence collected so far. -/
structure SequenceOk («private» : Option UInt8) (intermediates : List UInt8) (params : Params)
    (currentParam : Nat) (currentSubparam : Option Nat) : Prop where
  privateMarker : ∀ b, «private» = some b → 0x3c ≤ b ∧ b ≤ 0x3f
  intermediateCount : intermediates.length ≤ intermediateLimit
  intermediateBytes : ∀ b ∈ intermediates, 0x20 ≤ b ∧ b ≤ 0x2f
  params : params.Ok
  currentParam : currentParam < paramLimit
  currentSubparam : ∀ index, currentSubparam = some index → index ≤ subparamLimit

/-- The string collected so far. -/
structure StringOk (oscLimit dcsLimit : Nat) (string : List UInt8) (stringLimit remaining : Nat) : Prop where
  length : string.length ≤ stringLimit
  limit : stringLimit ≤ max (max oscLimit dcsLimit) 1024
  remaining : remaining ≤ 3

/-- A character is only pending in its state, and a sixel only in its states. -/
structure StateOk (state : ParserState) (utf8Remaining utf8Minimum : Nat) (sixelStreaming : Bool) : Prop where
  remaining : utf8Remaining ≤ 3
  pending : state = .utf8 → 0 < utf8Remaining ∧ 0x80 ≤ utf8Minimum
  streaming : sixelStreaming = true → state = .dcsPassthrough ∨ state = .dcsEscape

structure Inv (osc dcs : Nat) (p : Parser) : Prop where
  oscLimit : p.oscLimit = osc
  dcsLimit : p.dcsLimit = dcs
  sequence : SequenceOk p.private p.intermediates p.params p.currentParam p.currentSubparam
  string : StringOk osc dcs p.string p.stringLimit p.stringUtf8Remaining
  state : StateOk p.state p.utf8Remaining p.utf8Minimum p.sixelStreaming

theorem sequenceOk_empty : SequenceOk none [] {} 0 none where
  privateMarker := fun _ h => nomatch h
  intermediateCount := zero_le _
  intermediateBytes := fun _ h => nomatch h
  params := Params.ok_default
  currentParam := by decide
  currentSubparam := fun _ h => nomatch h

theorem inv_new (oscLimit dcsLimit : Nat) : ({ oscLimit, dcsLimit } : Parser).Inv oscLimit dcsLimit where
  oscLimit := rfl
  dcsLimit := rfl
  sequence := sequenceOk_empty
  string := ⟨zero_le _, zero_le _, zero_le _⟩
  state := ⟨zero_le _, fun h => (nomatch h), fun h => (nomatch h)⟩

structure Idle (osc dcs : Nat) (p : Parser) : Prop extends Inv osc dcs p where
  still : p.sixelStreaming = false

/-! ## Collecting -/

variable {osc dcs : Nat} {p : Parser}

/-- Outside its states no sixel is under way. -/
theorem Inv.idle (h : p.Inv osc dcs) (hpass : p.state ≠ .dcsPassthrough) (hesc : p.state ≠ .dcsEscape) :
    p.Idle osc dcs := by
  refine ⟨h, ?_⟩
  cases hs : p.sixelStreaming with
  | false => rfl
  | true => exact absurd (h.state.streaming hs) (fun hor => hor.elim hpass hesc)

theorem stateOk_idle {state : ParserState} {remaining minimum : Nat} (hremaining : remaining ≤ 3)
    (hstate : state ≠ .utf8) : StateOk state remaining minimum false :=
  ⟨hremaining, fun heq => absurd heq hstate, fun hbad => (nomatch hbad)⟩

namespace Idle

variable {state : ParserState} (h : p.Idle osc dcs)

include h

theorem stateOk (hstate : state ≠ .utf8) : StateOk state p.utf8Remaining p.utf8Minimum p.sixelStreaming := by
  rw [h.still]
  exact stateOk_idle h.state.remaining hstate

theorem clearSequence : p.clearSequence.Idle osc dcs :=
  { h with sequence := sequenceOk_empty }

theorem enter (hstate : state ≠ .utf8) : ({ p with state } : Parser).Idle osc dcs :=
  { h with state := h.stateOk hstate }

theorem collectIntermediate {b : UInt8} (hb : 0x20 ≤ b ∧ b ≤ 0x2f) : (p.collectIntermediate b).Idle osc dcs := by
  rw [Parser.collectIntermediate]
  split
  · rename_i hroom
    refine { h with sequence := { h.sequence with
      intermediateCount := ?_
      intermediateBytes := forall_mem_append.mpr ⟨h.sequence.intermediateBytes, forall_mem_singleton.mpr hb⟩ } }
    rw [length_append]
    exact hroom
  · exact h

theorem editParam (edit : Param → Param) (hedit : ∀ q : Param, q.Ok → (edit q).Ok) : (p.editParam edit).Idle osc dcs :=
  have hparams := h.sequence.params
  { h with sequence := { h.sequence with
    params := hparams.write h.sequence.currentParam (hedit _ (hparams.each _)) } }

theorem collectDigit (digit : Nat) : (p.collectDigit digit).Idle osc dcs := by
  rw [Parser.collectDigit]
  split
  · exact h
  · apply h.editParam
    intro q hq
    cases p.currentSubparam with
    | none => exact { hq with absent := fun hbad => nomatch hbad }
    | some subparam =>
      show (if subparam < subparamLimit then _ else q : Param).Ok
      split
      · rename_i hsub
        exact hq.appendSubparam hsub
      · exact hq

theorem nextParam : p.nextParam.Idle osc dcs := by
  have hraised := h.sequence.params.raise (min (p.currentParam + 1) paramLimit) (Nat.min_le_right ..)
  rw [Parser.nextParam]
  split
  · exact { h with sequence := { h.sequence with
      params := hraised, currentSubparam := fun _ hbad => nomatch hbad } }
  · rename_i hroom
    have hroom : p.currentParam + 1 < paramLimit := Nat.lt_of_not_le hroom
    exact { h with sequence := { h.sequence with
      params := hraised, currentParam := hroom, currentSubparam := fun _ hbad => nomatch hbad } }

theorem openSubparam (next : Nat) (hnext : next ≤ subparamLimit) :
    ({ p.editParam fun param =>
        { param with subparamCount := max param.subparamCount (min (next + 1) subparamLimit) } with
      currentSubparam := some next } : Parser).Idle osc dcs := by
  have hedited := h.editParam (fun param =>
    { param with subparamCount := max param.subparamCount (min (next + 1) subparamLimit) }) ?_
  · refine { hedited with sequence := { hedited.sequence with currentSubparam := ?_ } }
    intro index hindex
    rw [← Option.some.inj hindex]
    exact hnext
  · intro q hq
    have hcount := hq.count
    refine { hq with count := ?_, unusedValue := ?_, unusedPresent := ?_ }
    · show max q.subparamCount (min _ subparamLimit) ≤ subparamLimit
      omega
    · intro i hi
      exact hq.unusedValue i (Nat.le_trans (Nat.le_max_left ..) hi)
    · intro i hi
      exact hq.unusedPresent i (Nat.le_trans (Nat.le_max_left ..) hi)

theorem nextSubparam : p.nextSubparam.Idle osc dcs := by
  rw [Parser.nextSubparam]
  split
  · exact h
  · apply h.openSubparam
    split
    · exact zero_le _
    · exact Nat.min_le_right ..

theorem finishParams : p.finishParams.Idle osc dcs := by
  rw [Parser.finishParams]
  split
  · exact { h with sequence := { h.sequence with
      params := h.sequence.params.raise _ h.sequence.currentParam } }
  · exact h

theorem markPrivate {b : UInt8} (hb : 0x3c ≤ b ∧ b ≤ 0x3f) :
    ({ p with «private» := some b } : Parser).Idle osc dcs := by
  refine { h with sequence := { h.sequence with privateMarker := ?_ } }
  intro c hc
  cases hc
  exact hb

/-- The next parameter, or the rest of an overlong sequence ignored. -/
theorem separate {overflow state : ParserState} (hoverflow : overflow ≠ .utf8) (hstate : state ≠ .utf8) :
    ({ p.nextParam with
      state := if p.nextParam.parameterOverflow = true then overflow else state } : Parser).Idle
      osc dcs := by
  refine h.nextParam.enter ?_
  split
  · exact hoverflow
  · exact hstate

/-! ## Strings and characters -/

theorem startUtf8 {remaining : Nat} (hpos : 0 < remaining) (hle : remaining ≤ 3)
    {minimum : Nat} (hminimum : 0x80 ≤ minimum) (value : Nat) :
    (p.startUtf8 value remaining minimum).Idle osc dcs :=
  { h with state := ⟨hle, fun _ => ⟨hpos, hminimum⟩, fun hbad =>
    absurd (h.still.symm.trans hbad) Bool.false_ne_true⟩ }

theorem startString (hstate : state ≠ .utf8) {limit : Nat}
    (hlimit : limit ≤ max (max osc dcs) 1024) : (p.startString state limit).Idle osc dcs :=
  { h with string := ⟨zero_le _, hlimit, zero_le _⟩, state := h.stateOk hstate }

theorem leave (hstate : state ≠ .utf8) : ({ p with state, string := [] } : Parser).Idle osc dcs :=
  { h with string := { h.string with length := zero_le _ }, state := h.stateOk hstate }

end Idle

theorem Inv.pushString (h : p.Inv osc dcs) (b : UInt8) : (p.pushString b).Inv osc dcs := by
  rw [Parser.pushString]
  split
  · rename_i hroom
    refine { h with string := { h.string with length := ?_ } }
    rw [length_append]
    exact hroom
  · exact { h with }

theorem Idle.pushString (h : p.Idle osc dcs) (b : UInt8) : (p.pushString b).Idle osc dcs := by
  refine ⟨h.toInv.pushString b, ?_⟩
  rw [Parser.pushString]
  split <;> exact h.still

/-- What `feed` promises of its result. -/
structure Fed.Ok (osc dcs : Nat) (fed : Fed) : Prop where
  inv : fed.parser.Inv osc dcs
  again : fed.again = true → fed.parser.state = .ground ∨ fed.parser.state = .escape

variable {action : Option Action}

theorem Fed.ok_once (h : p.Inv osc dcs) : Fed.Ok osc dcs { parser := p, action } := ⟨h, nofun⟩

theorem Fed.Ok.ite {c : Prop} [Decidable c] {fed fed' : Fed} (h : fed.Ok osc dcs) (h' : fed'.Ok osc dcs) :
    (if c then fed else fed').Ok osc dcs :=
  iteInduction (fun _ => h) fun _ => h'

theorem Idle.once (h : p.Idle osc dcs) : Fed.Ok osc dcs { parser := p, action } := Fed.ok_once h.toInv

/-- Any state but a pending character, at the end of a turn. -/
theorem Idle.enters {state : ParserState} (h : p.Idle osc dcs) (hstate : state ≠ .utf8) :
    Fed.Ok osc dcs { parser := { p with state }, action } := (h.enter hstate).once

theorem Idle.finishString (h : p.Idle osc dcs) (terminator : StringTerminator) :
    (p.finishString terminator).parser.Idle osc dcs ∧ (p.finishString terminator).Ok osc dcs := by
  have hleft := h.leave (show ParserState.ground ≠ .utf8 by decide)
  rw [Parser.finishString]
  split <;> exact ⟨{ hleft with }, Idle.once { hleft with }⟩

theorem Inv.finishDcs (h : p.Inv osc dcs) : p.finishDcs.Ok osc dcs := by
  rw [Parser.finishDcs]
  split
  · exact Fed.ok_once { h with
      sequence := sequenceOk_empty
      state := stateOk_idle h.state.remaining (show ParserState.ground ≠ .utf8 by decide) }
  · rename_i hstill
    have hidle : p.Idle osc dcs := ⟨h, Bool.eq_false_iff.mpr hstill⟩
    exact .ite (hidle.leave (by decide)).once <| (hidle.leave (by decide)).once

/-! ## States -/

theorem above_control {b : UInt8} (h : ¬ b ≤ 0x1f) : 0x20 ≤ b := by
  have hlt : (0x1f : UInt8).toNat < b.toNat := UInt8.lt_iff_toNat_lt.mp (UInt8.not_le.mp h)
  exact UInt8.le_iff_toNat_le.mpr hlt

theorem utf8RemainingAfter_le (h : p.Inv osc dcs) (b : UInt8) : p.utf8RemainingAfter b ≤ 3 := by
  have hle := h.string.remaining
  rw [utf8RemainingAfter]
  split_ifs <;> omega

namespace Idle

variable (h : p.Idle osc dcs) (b : UInt8)

include h

theorem finishKittyCommand : p.finishKittyCommand.Ok osc dcs :=
  have hleft := h.leave (show ParserState.ground ≠ .utf8 by decide)
  Idle.once { hleft with }

theorem feedGround : (p.feedGround b).Ok osc dcs ∧ (p.feedGround b).again = false := by
  have hosc : p.oscLimit ≤ max (max osc dcs) 1024 := by
    rw [h.oscLimit]
    omega
  rw [Parser.feedGround]
  refine ⟨?_, by simp only [apply_ite Fed.again, ite_self]⟩
  exact .ite h.once <| .ite h.once <| .ite (h.startUtf8 (by decide) (by decide) (by decide) _).once <|
    .ite (h.startUtf8 (by decide) (by decide) (by decide) _).once <|
    .ite (h.startUtf8 (by decide) (by decide) (by decide) _).once <|
    .ite (h.startString (by decide) hosc).once <| .ite (h.enters nofun) <| h.once

theorem feedEscape : (p.feedEscape b).Ok osc dcs ∧ (p.feedEscape b).again = false := by
  have hosc : p.oscLimit ≤ max (max osc dcs) 1024 := by
    rw [h.oscLimit]
    omega
  rw [Parser.feedEscape]
  refine ⟨?_, by simp only [apply_ite Fed.again, ite_self]⟩
  exact .ite h.once <| iteInduction (fun _ => h.once) fun hcontrol => .ite (h.clearSequence.enters nofun) <|
    .ite (h.startString (by decide) hosc).once <| .ite (h.clearSequence.enters nofun) <|
    .ite (h.enters nofun) <| .ite (h.enters nofun) <|
    iteInduction (fun hlast => (h.collectIntermediate ⟨above_control hcontrol, hlast⟩).enters nofun) fun _ =>
    .ite (h.enters nofun) <| h.enters nofun

theorem feedCsi : (p.feedCsi b).Ok osc dcs := by
  have hnow : Fed.Ok osc dcs { parser := p } := h.once
  have hignored : Fed.Ok osc dcs { parser := { p with state := .csiIgnore } } :=
    h.enters nofun
  refine .ite hnow <| iteInduction (fun _ => h.once) fun hcontrol => .ite (Idle.once ?_) <| .ite hignored <|
    .ite ((h.collectDigit _).enters nofun) <| .ite (h.separate (by decide) (by decide)).once <|
    .ite (h.nextSubparam.enters nofun) <| iteInduction (fun hb => (h.markPrivate hb.1).once) fun _ =>
    iteInduction (fun hlast => Idle.once ?_) fun _ => .ite (h.finishParams.enters nofun) <| hignored
  · split
    · exact h.enter nofun
    · exact h
  · exact (h.collectIntermediate ⟨above_control hcontrol, hlast⟩).enter nofun

theorem feedOscString : (p.feedOscString b).Ok osc dcs := by
  have hread : ({ p with stringUtf8Remaining := p.utf8RemainingAfter b } : Parser).Idle osc dcs :=
    { h with string := ⟨h.string.length, h.string.limit, utf8RemainingAfter_le h.toInv b⟩ }
  have hpushed := hread.pushString b
  refine .ite (h.finishString _).2 <| .ite (h.enters nofun) <| .ite (h.finishString _).2 <| .ite h.once <|
    Idle.once ?_
  exact iteInduction (fun _ => hpushed.startString (by decide) (by omega)) fun _ => hpushed

theorem feedOscEscape : (p.feedOscEscape b).Ok osc dcs := by
  obtain ⟨hidle, hfinished⟩ := h.finishString .stringTerminator
  rw [Parser.feedOscEscape]
  split
  · exact hfinished
  · exact ⟨(hidle.enter (by decide)).toInv, fun _ => .inr rfl⟩

theorem feedItermControl : (p.feedItermControl b).Ok osc dcs := by
  have hleft := h.leave (show ParserState.itermPayload ≠ .utf8 by decide)
  exact .ite (Idle.once { hleft with }) <| .ite (h.leave (by decide)).once <| .ite (h.enters nofun) <|
    (h.pushString b).once

theorem feedItermPayload : (p.feedItermPayload b).Ok osc dcs := by
  exact .ite (h.enters nofun) <| .ite (h.enters nofun) <| h.once

theorem feedItermControlEscape : (p.feedItermControlEscape b).Ok osc dcs := by
  rw [Parser.feedItermControlEscape]
  by_cases hb : b = ascii '\\'
  · exact ⟨(h.leave (by simp [hb])).toInv, by simp [hb]⟩
  · exact ⟨(h.leave (by simp [hb])).toInv, fun _ => .inr (by simp [hb])⟩

theorem feedItermPayloadEscape : (p.feedItermPayloadEscape b).Ok osc dcs := by
  rw [Parser.feedItermPayloadEscape]
  by_cases hb : b = ascii '\\'
  · exact ⟨(h.enter (by simp [hb])).toInv, by simp [hb]⟩
  · exact ⟨(h.enter (by simp [hb])).toInv, fun _ => .inr (by simp [hb])⟩

theorem feedDcsHeader : (p.feedDcsHeader b).Ok osc dcs := by
  have hfinished := h.finishParams
  have hdcs : p.finishParams.dcsLimit ≤ max (max osc dcs) 1024 := by
    rw [hfinished.dcsLimit]
    omega
  refine iteInduction (fun _ => h.once) fun hcontrol => .ite ((h.collectDigit _).enters nofun) <|
    .ite (h.separate (by decide) (by decide)).once <| .ite (h.nextSubparam.enters nofun) <|
    iteInduction (fun hb => (h.markPrivate hb.1).once) fun _ =>
    iteInduction (fun hlast => Idle.once ?_) fun _ => .ite (.ite (Fed.ok_once ?_) <|
    (hfinished.startString (by decide) hdcs).once) <| h.enters nofun
  · exact (h.collectIntermediate ⟨above_control hcontrol, hlast⟩).enter nofun
  · exact { hfinished.toInv with
      state := ⟨hfinished.state.remaining, fun hbad => (nomatch hbad), fun _ => .inl rfl⟩ }

theorem feedApcPrefix : (p.feedApcPrefix b).Ok osc dcs := by
  exact .ite (h.startString (by decide) (by omega)).once <| .ite (h.enters nofun) <| .ite (h.enters nofun) <|
    h.enters nofun

theorem feedKittyControl : (p.feedKittyControl b).Ok osc dcs := by
  have hleft := h.leave (show ParserState.kittyPayload ≠ .utf8 by decide)
  exact .ite (Idle.once { hleft with }) <| .ite (h.enters nofun) <| .ite h.finishKittyCommand <|
    (h.pushString b).once

theorem feedKittyPayload : (p.feedKittyPayload b).Ok osc dcs := by
  exact .ite (h.enters nofun) <| .ite (h.enters nofun) <| h.once

theorem feedKittyControlEscape : (p.feedKittyControlEscape b).Ok osc dcs := by
  exact .ite h.finishKittyCommand <| ⟨(h.leave (by decide)).toInv, fun _ => .inr rfl⟩

theorem feedKittyPayloadEscape : (p.feedKittyPayloadEscape b).Ok osc dcs := by
  exact .ite (h.enters nofun) <| ⟨(h.enter (by decide)).toInv, fun _ => .inr rfl⟩

theorem feedIgnoredString : (p.feedIgnoredString b).Ok osc dcs := by
  refine .ite (h.enters nofun) <| .ite (h.enter ?_).once <| .ite (h.enters nofun) <| h.once
  split
  · decide
  · decide

theorem feedUtf8 (hstate : p.state = .utf8) : ∃ fed, p.feedUtf8 b = .ok fed ∧ fed.Ok osc dcs := by
  obtain ⟨hpos, hmin⟩ := h.state.pending hstate
  have hle := h.state.remaining
  have hground : ∀ value remaining : Nat, remaining ≤ 3 →
      ({ p with utf8Value := value, utf8Remaining := remaining, state := .ground } : Parser).Inv
        osc dcs := fun value remaining hr =>
    { h.toInv with state := { h.stateOk (show ParserState.ground ≠ .utf8 by decide) with
      remaining := hr, pending := fun hbad => nomatch hbad } }
  rw [Parser.feedUtf8]
  split
  · exact ⟨_, rfl, (h.enter (by decide)).toInv, fun _ => .inl rfl⟩
  · rw [if_neg (by omega)]
    dsimp only
    split
    · rename_i hmore
      refine ⟨_, rfl, Fed.ok_once { h.toInv with state := { h.state with
        remaining := ?_, pending := fun _ => ⟨hmore, hmin⟩ } }⟩
      show p.utf8Remaining - 1 ≤ 3
      omega
    · split <;> exact ⟨_, rfl, Fed.ok_once (hground _ _ (by omega))⟩

end Idle

theorem Inv.feedDcsPassthrough (h : p.Inv osc dcs) (b : UInt8) : (p.feedDcsPassthrough b).Ok osc dcs := by
  refine .ite (Fed.ok_once ?_) <| .ite (Fed.ok_once h) <| .ite h.finishDcs <| .ite (Fed.ok_once h) <|
    Fed.ok_once (h.pushString b)
  exact { h with state := ⟨h.state.remaining, fun hbad => (nomatch hbad), fun _ => .inr rfl⟩ }

theorem Inv.feedDcsEscape (h : p.Inv osc dcs) (b : UInt8) : (p.feedDcsEscape b).Ok osc dcs := by
  refine .ite h.finishDcs <| ⟨?_, fun _ => .inr rfl⟩
  exact { h with
    sequence := sequenceOk_empty
    state := stateOk_idle h.state.remaining (show ParserState.escape ≠ .utf8 by decide) }

/-! ## One byte -/

theorem Inv.feed (h : p.Inv osc dcs) (b : UInt8) : ∃ fed, p.feed b = .ok fed ∧ fed.Ok osc dcs ∧
    (p.state = .ground ∨ p.state = .escape → fed.again = false) := by
  rw [Parser.feed]
  by_cases hutf8 : p.state = .utf8
  · obtain ⟨fed, hfed, hok⟩ := (h.idle (by simp [hutf8]) (by simp [hutf8])).feedUtf8 b hutf8
    rw [if_pos hutf8]
    exact ⟨fed, hfed, hok, by simp [hutf8]⟩
  rw [if_neg hutf8]
  split
  · refine ⟨_, rfl, Fed.ok_once ?_, fun _ => rfl⟩
    exact { h with
      sequence := sequenceOk_empty
      string := { h.string with length := zero_le _ }
      state := stateOk_idle h.state.remaining (show ParserState.ground ≠ .utf8 by decide) }
  split
  · rename_i hescape
    have hidle := h.idle (fun hs => by rw [hs] at hescape; exact absurd hescape.2 (by decide))
      (fun hs => by rw [hs] at hescape; exact absurd hescape.2 (by decide))
    exact ⟨_, rfl, hidle.clearSequence.enters nofun, fun _ => rfl⟩
  refine ⟨_, rfl, ?_⟩
  by_cases hpass : p.state = .dcsPassthrough
  · rw [hpass]
    exact ⟨h.feedDcsPassthrough b, by simp⟩
  by_cases hesc : p.state = .dcsEscape
  · rw [hesc]
    exact ⟨h.feedDcsEscape b, by simp⟩
  have hidle := h.idle hpass hesc
  cases hstate : p.state with
  | utf8 => exact absurd hstate hutf8
  | dcsPassthrough => exact absurd hstate hpass
  | dcsEscape => exact absurd hstate hesc
  | dcsIgnore =>
    refine ⟨Idle.once ?_, fun _ => rfl⟩
    split
    · exact hidle.enter nofun
    · exact hidle
  | ground => exact ⟨(hidle.feedGround b).1, fun _ => (hidle.feedGround b).2⟩
  | escape | escapeIntermediate => exact ⟨(hidle.feedEscape b).1, fun _ => (hidle.feedEscape b).2⟩
  | csiEntry | csiParam | csiIntermediate | csiIgnore => exact ⟨hidle.feedCsi b, by simp⟩
  | oscString => exact ⟨hidle.feedOscString b, by simp⟩
  | oscEscape => exact ⟨hidle.feedOscEscape b, by simp⟩
  | itermControl => exact ⟨hidle.feedItermControl b, by simp⟩
  | itermControlEscape => exact ⟨hidle.feedItermControlEscape b, by simp⟩
  | itermPayload => exact ⟨hidle.feedItermPayload b, by simp⟩
  | itermPayloadEscape => exact ⟨hidle.feedItermPayloadEscape b, by simp⟩
  | dcsEntry | dcsParam | dcsIntermediate => exact ⟨hidle.feedDcsHeader b, by simp⟩
  | sosPmApcString | sosPmApcEscape => exact ⟨hidle.feedIgnoredString b, by simp⟩
  | apcPrefix => exact ⟨hidle.feedApcPrefix b, by simp⟩
  | kittyControl => exact ⟨hidle.feedKittyControl b, by simp⟩
  | kittyControlEscape => exact ⟨hidle.feedKittyControlEscape b, by simp⟩
  | kittyPayload => exact ⟨hidle.feedKittyPayload b, by simp⟩
  | kittyPayloadEscape => exact ⟨hidle.feedKittyPayloadEscape b, by simp⟩

end Parser

end Splinterm.Terminal
