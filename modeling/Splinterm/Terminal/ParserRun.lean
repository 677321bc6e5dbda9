import Splinterm.Lib.Transducer
import Splinterm.Terminal.ParserShape

/-!
# Feeding bytes to the parser

A byte is fed until the parser does not ask for it again. Whatever bytes come, this ends after
at most two turns, and the state it leaves passes the parser's checkpoint test, unless the
string it retains is longer than a checkpoint takes.
-/

namespace Splinterm.Terminal

open Lib Hoare List Nat

/-- The checks of one parameter. -/
def Param.checkpointIsValid (param : Param) : Bool :=
  decide (param.subparamCount ≤ subparamLimit) && (param.present || param.value == 0)
    && (param.subparams.drop param.subparamCount).all (· == 0)
    && (param.subparamPresent.drop param.subparamCount).all (!·)

namespace Parser

def new (oscLimit dcsLimit : Nat) : Parser := { oscLimit, dcsLimit }

def maxCheckpointStringBytes : Nat := 1024 * 1024

def checkpointIsValid (p : Parser) (oscLimit dcsLimit : Nat) : Bool :=
  decide (p.oscLimit = oscLimit) && decide (p.dcsLimit = dcsLimit)
    && decide (p.intermediates.length ≤ intermediateLimit)
    && (p.storedIntermediates.drop p.intermediates.length).all (· == 0)
    && p.intermediates.all (fun b => 0x20 ≤ b && b ≤ 0x2f)
    && decide (p.params.count ≤ paramLimit) && decide (p.currentParam < paramLimit)
    && p.currentSubparam.all (· ≤ subparamLimit)
    && p.private.all (fun b => 0x3c ≤ b && b ≤ 0x3f)
    && decide (p.string.length ≤ p.stringLimit)
    && decide (p.string.length ≤ maxCheckpointStringBytes)
    && decide (p.stringLimit ≤ max (max oscLimit dcsLimit) 1024)
    && !p.sixelStreaming && decide (p.utf8Remaining ≤ 3) && decide (p.stringUtf8Remaining ≤ 3)
    && decide (¬ (p.state = .utf8 ∧ p.utf8Remaining = 0))
    && p.params.values.zipIdx.all fun entry =>
      entry.1.checkpointIsValid && (decide (entry.2 < p.params.count) || entry.1 == {})

/-! ## The reprocess loop -/

/-- Feeds a byte until the parser is done with it; running out of turns means that the loop
does not end. -/
def drive (b : UInt8) : Nat → Parser → Except Fault (Parser × List Action)
  | 0, _ => .error .diverge
  | turns + 1, p => do
    let fed ← p.feed b
    if fed.again = true then
      let (p, more) ← drive b turns fed.parser
      pure (p, fed.action.toList ++ more)
    else pure (fed.parser, fed.action.toList)

/-- One byte. -/
def consume (p : Parser) (b : UInt8) : Except Fault (Parser × List Action) := drive b 2 p

/-- All bytes in order, with everything they made the parser emit. -/
def consumeAll : Parser → List UInt8 → Except Fault (Parser × List Action) := Transducer.run consume

variable {osc dcs : Nat} {p : Parser}

theorem drive_once {b : UInt8} {fed : Fed} (turns : Nat) (hfed : p.feed b = .ok fed)
    (honce : fed.again = false) : drive b (turns + 1) p = .ok (fed.parser, fed.action.toList) := by
  rw [drive, hfed]
  show (if fed.again = true then _ else _) = _
  rw [honce]
  rfl

theorem drive_again {b : UInt8} {fed : Fed} {turns : Nat} {q : Parser} {more : List Action}
    (hfed : p.feed b = .ok fed) (hagain : fed.again = true) (hdrive : drive b turns fed.parser = .ok (q, more)) :
    drive b (turns + 1) p = .ok (q, fed.action.toList ++ more) := by
  rw [drive, hfed]
  show (if fed.again = true then _ else _) = _
  rw [if_pos hagain, hdrive]
  rfl

/-- A byte that is fed again is consumed by that turn. -/
theorem Inv.reprocessed (h : p.Inv osc dcs) (b : UInt8) : ∃ fed, p.feed b = .ok fed ∧ fed.parser.Inv osc dcs ∧
      (fed.again = true → ∃ last, fed.parser.feed b = .ok last ∧ last.again = false ∧ last.parser.Inv osc dcs) := by
  obtain ⟨fed, hfed, hok, -⟩ := h.feed b
  refine ⟨fed, hfed, hok.inv, fun hagain => ?_⟩
  obtain ⟨last, hlast, hlastOk, honce⟩ := hok.inv.feed b
  exact ⟨last, hlast, honce (hok.again hagain), hlastOk.inv⟩

theorem Inv.consume (h : p.Inv osc dcs) (b : UInt8) : ∃ q actions, p.consume b = .ok (q, actions) ∧ q.Inv osc dcs := by
  obtain ⟨fed, hfed, hinv, hagain⟩ := h.reprocessed b
  cases hmore : fed.again with
  | false => exact ⟨_, _, drive_once 1 hfed hmore, hinv⟩
  | true =>
    obtain ⟨last, hlast, honce, hend⟩ := hagain hmore
    exact ⟨_, _, drive_again hfed hmore (drive_once 0 hlast honce), hend⟩

theorem Inv.consumeAll (h : p.Inv osc dcs) (bytes : List UInt8) :
    ∃ q actions, p.consumeAll bytes = .ok (q, actions) ∧ q.Inv osc dcs :=
  Transducer.exists_run (Inv osc dcs) (fun _ b hp => hp.consume b) h bytes

/-! ## The checkpoint test -/

theorem all_drop_of_getD {α : Type} {l : List α} {count : Nat} {fallback : α} {f : α → Bool}
    (h : ∀ index, count ≤ index → f (l.getD index fallback) = true) : (l.drop count).all f = true := by
  rw [all_eq_true]
  intro a ha
  obtain ⟨i, hi⟩ := mem_iff_getElem?.mp ha
  rw [getElem?_drop] at hi
  have hvalid := h (count + i) (Nat.le_add_right ..)
  rwa [getD_eq_getElem?_getD, hi] at hvalid

theorem checkpointIsValid_param {param : Param} (h : param.Ok) : param.checkpointIsValid = true := by
  have habsent : (param.present || param.value == 0) = true := by
    cases hpresent : param.present with
    | true => rfl
    | false => simp [h.absent hpresent]
  rw [Param.checkpointIsValid, habsent, decide_eq_true h.count,
    all_drop_of_getD fun index hindex => by rw [h.unusedValue index hindex]; rfl,
    all_drop_of_getD fun index hindex => by rw [h.unusedPresent index hindex]; rfl]
  rfl

theorem checkpointIsValid_params {params : Params} (h : params.Ok) : (params.values.zipIdx.all fun entry =>
      entry.1.checkpointIsValid && (decide (entry.2 < params.count) || entry.1 == {})) = true := by
  rw [all_eq_true]
  rintro ⟨param, index⟩ hentry
  have hget : params.values[index]? = some param := mk_mem_zipIdx_iff_getElem?.mp hentry
  have hparam : params.values.getD index {} = param := by
    rw [getD_eq_getElem?_getD, hget]
    rfl
  have hused : (decide (index < params.count) || param == {}) = true := by
    by_cases hindex : index < params.count
    · simp [hindex]
    · rw [← hparam, h.unused index (Nat.le_of_not_lt hindex)]
      simp
  rw [checkpointIsValid_param (hparam ▸ h.each index), hused]
  rfl

/-- Outside a sixel only the length of the retained string can fail the test. -/
theorem Inv.checkpointIsValid_iff (h : p.Inv osc dcs) (hidle : p.sixelStreaming = false) :
    p.checkpointIsValid osc dcs = true ↔ p.string.length ≤ maxCheckpointStringBytes := by
  have hs := h.sequence
  have htail : (p.storedIntermediates.drop p.intermediates.length).all (· == 0) = true := by
    rw [storedIntermediates, drop_left, all_replicate]
    simp
  have hbytes : (p.intermediates.all fun b => 0x20 ≤ b && b ≤ 0x2f) = true := by
    rw [all_eq_true]
    intro b hb
    simpa using hs.intermediateBytes b hb
  have hsub : p.currentSubparam.all (· ≤ subparamLimit) = true := by
    cases hcurrent : p.currentSubparam with
    | none => rfl
    | some index => simpa using hs.currentSubparam index hcurrent
  have hprivate : (p.private.all fun b => 0x3c ≤ b && b ≤ 0x3f) = true := by
    cases hmarker : p.private with
    | none => rfl
    | some b => simpa using hs.privateMarker b hmarker
  have hpending : ¬ (p.state = .utf8 ∧ p.utf8Remaining = 0) := by
    rintro ⟨hstate, hzero⟩
    have hpos := (h.state.pending hstate).1
    omega
  rw [checkpointIsValid, decide_eq_true h.oscLimit, decide_eq_true h.dcsLimit,
    decide_eq_true hs.intermediateCount, htail, hbytes, decide_eq_true hs.params.count,
    decide_eq_true hs.currentParam, hsub, hprivate, decide_eq_true h.string.length,
    decide_eq_true h.string.limit, hidle, decide_eq_true h.state.remaining,
    decide_eq_true h.string.remaining, decide_eq_true hpending, checkpointIsValid_params hs.params]
  simp

/-- After any bytes no byte is fed more than twice, the retained string keeps its limit, and
outside a sixel the checkpoint test fails for an overlong string alone. -/
theorem parser_states_are_valid (oscLimit dcsLimit : Nat) (bytes : List UInt8) :
    ∃ p actions, (new oscLimit dcsLimit).consumeAll bytes = .ok (p, actions) ∧ (p.sixelStreaming = false →
        (p.checkpointIsValid oscLimit dcsLimit = true ↔ p.string.length ≤ maxCheckpointStringBytes) ∧
        (max oscLimit dcsLimit ≤ maxCheckpointStringBytes → p.checkpointIsValid oscLimit dcsLimit = true)) ∧
      p.string.length ≤ p.stringLimit ∧ ∀ b, ∃ fed, p.feed b = .ok fed ∧
        (fed.again = true → ∃ last, fed.parser.feed b = .ok last ∧ last.again = false) := by
  obtain ⟨p, actions, hrun, hinv⟩ := (inv_new oscLimit dcsLimit).consumeAll bytes
  refine ⟨p, actions, hrun, fun hidle => ⟨hinv.checkpointIsValid_iff hidle, fun hlimits => ?_⟩,
    hinv.string.length, fun b => ?_⟩
  · rw [hinv.checkpointIsValid_iff hidle]
    have hlength := hinv.string.length
    have hlimit := hinv.string.limit
    have hleast : 1024 ≤ maxCheckpointStringBytes := by decide
    omega
  · obtain ⟨fed, hfed, -, hagain⟩ := hinv.reprocessed b
    refine ⟨fed, hfed, fun hmore => ?_⟩
    obtain ⟨last, hlast, honce, -⟩ := hagain hmore
    exact ⟨last, hlast, honce⟩

/-- A parser inside an operating-system command of `count` letters. -/
def collecting (oscLimit dcsLimit count : Nat) : Parser :=
  { new oscLimit dcsLimit with
    state := .oscString
    string := replicate count (ascii 'a')
    stringLimit := oscLimit }

/-- A letter is pushed onto the string of a command. -/
theorem feedOscString_letter {q : Parser}
    (hpush : ({ p with stringUtf8Remaining := 0 } : Parser).pushString (ascii 'a') = q)
    (hother : q.string ≠ itermPrefix) : p.feedOscString (ascii 'a') = { parser := q } := by
  subst hpush
  exact congrArg (fun q => ({ parser := q } : Fed)) (if_neg hother)

theorem consume_collecting {count : Nat} (h : count < osc) :
    (collecting osc dcs count).consume (ascii 'a') = .ok (collecting osc dcs (count + 1), []) := by
  have hother : (collecting osc dcs (count + 1)).string ≠ itermPrefix := by
    intro hbad
    exact absurd (cons.inj hbad).1 (by decide)
  have hpush : (collecting osc dcs count).pushString (ascii 'a') = collecting osc dcs (count + 1) := by
    rw [pushString, if_pos (by simpa [collecting] using h)]
    simp [collecting, replicate_succ']
  have hfeed : (collecting osc dcs count).feed (ascii 'a')
      = .ok { parser := collecting osc dcs (count + 1) } :=
    congrArg Except.ok (feedOscString_letter hpush hother)
  exact drive_once 1 hfeed rfl

theorem consumeAll_collecting {count n : Nat} (h : count + n ≤ osc) :
    (collecting osc dcs count).consumeAll (replicate n (ascii 'a'))
      = .ok (collecting osc dcs (count + n), []) := by
  induction n generalizing count with
  | zero => rfl
  | succ n ih =>
    rw [← add_assoc, Nat.add_right_comm]
    exact Transducer.run_cons (consume_collecting (by omega)) (ih (by omega))

theorem consumeAll_command {n : Nat} (h : n ≤ osc) :
    (new osc dcs).consumeAll ([0x1b, ascii ']'] ++ replicate n (ascii 'a'))
      = .ok (collecting osc dcs n, []) := by
  have hintroduced : (new osc dcs).consumeAll [0x1b, ascii ']'] = .ok (collecting osc dcs 0, []) := rfl
  have hletters : (collecting osc dcs 0).consumeAll (replicate n (ascii 'a'))
      = .ok (collecting osc dcs (0 + n), []) := consumeAll_collecting (by omega)
  rw [zero_add] at hletters
  exact Transducer.run_append hintroduced hletters

/-- With room for it, a command of one byte more than a checkpoint takes is retained. -/
theorem long_string_is_not_checkpointable : ∃ p actions, (new 1048577 4096).consumeAll
        ([0x1b, ascii ']'] ++ replicate 1048577 (ascii 'a')) = .ok (p, actions) ∧
      p.sixelStreaming = false ∧ p.checkpointIsValid 1048577 4096 = false := by
  refine ⟨_, _, consumeAll_command (Nat.le_refl _), rfl, ?_⟩
  obtain ⟨_, _, hrun, hinv⟩ := (inv_new 1048577 4096).consumeAll
    ([0x1b, ascii ']'] ++ replicate 1048577 (ascii 'a'))
  cases hrun.symm.trans (consumeAll_command (Nat.le_refl _))
  rw [Bool.eq_false_iff, ne_eq, hinv.checkpointIsValid_iff rfl]
  show ¬ (replicate 1048577 (ascii 'a')).length ≤ maxCheckpointStringBytes
  rw [length_replicate, maxCheckpointStringBytes]
  omega

end Parser

end Splinterm.Terminal
