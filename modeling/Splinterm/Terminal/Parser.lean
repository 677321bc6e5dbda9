import Splinterm.Terminal.Cell

/-!
# The escape-sequence parser

A byte-streaming recognizer. `feed` consumes one byte and yields at most one
action; it also says whether the same byte must be fed again in the state it has
reached. Control sequences keep at most sixteen parameters with sixteen
subparameters each, and collected strings are bounded.
-/

namespace Splinterm.Terminal

/-- The byte of an ASCII character. -/
def ascii (c : Char) : UInt8 := UInt8.ofNat c.toNat

def asciiText (text : String) : List UInt8 := text.toList.map ascii

def paramLimit : Nat := 16
def subparamLimit : Nat := 16
def intermediateLimit : Nat := 4

/-- One control-sequence parameter with its colon-separated subparameters. -/
structure Param where
  value : Nat := 0
  present : Bool := false
  subparams : List Nat := List.replicate subparamLimit 0
  subparamPresent : List Bool := List.replicate subparamLimit false
  subparamCount : Nat := 0
deriving DecidableEq

namespace Param

/-- The parameter's value, or `fallback` when it is absent (or zero). -/
def valueOr (param : Param) (fallback : Nat) (zeroIsDefault : Bool) : Nat :=
  if param.present = false ∨ (zeroIsDefault = true ∧ param.value = 0) then fallback
  else param.value % 2 ^ 31

def subparam (param : Param) (index : Nat) : Option Nat :=
  if index < param.subparamCount ∧ param.subparamPresent.getD index false = true then
    some (param.subparams.getD index 0 % 2 ^ 31)
  else none

end Param

structure Params where
  values : List Param := List.replicate paramLimit {}
  count : Nat := 0

def Params.get (params : Params) (index : Nat) : Param :=
  if index < params.count then params.values.getD index {} else {}

inductive StringTerminator where
  | bell
  | stringTerminator
deriving DecidableEq

/-- What the parser recognized. -/
inductive Action where
  | print (character : Char)
  | execute (byte : UInt8)
  | esc (intermediates : List UInt8) (finalByte : UInt8)
  | csi («private» : Option UInt8) (intermediates : List UInt8) (params : Params) (finalByte : UInt8)
  | osc (payload : List UInt8) (terminator : StringTerminator)
  | dcs (payload : List UInt8)
  | sixelBegin (params : Params)
  | sixelData (byte : UInt8)
  | sixelEnd
  | sixelAbort
  | kittyBegin (control : List UInt8) (truncated : Bool)
  | kittyCommand (control : List UInt8) (truncated : Bool)
  | kittyData (byte : UInt8)
  | kittyEnd
  | kittyAbort
  | itermBegin (metadata : List UInt8) (truncated : Bool)
  | itermData (byte : UInt8)
  | itermEnd
  | itermAbort
  | stringTruncated (kind : String)

inductive ParserState where
  | ground
  | escape
  | escapeIntermediate
  | csiEntry
  | csiParam
  | csiIntermediate
  | csiIgnore
  | oscString
  | oscEscape
  | itermControl
  | itermControlEscape
  | itermPayload
  | itermPayloadEscape
  | dcsEntry
  | dcsParam
  | dcsIntermediate
  | dcsIgnore
  | dcsPassthrough
  | dcsEscape
  | sosPmApcString
  | sosPmApcEscape
  | apcPrefix
  | kittyControl
  | kittyControlEscape
  | kittyPayload
  | kittyPayloadEscape
  | utf8
deriving DecidableEq

/-- The states in which `ESC` is data or the start of a terminator. -/
def ParserState.keepsEscape : ParserState → Bool
  | .oscString | .oscEscape | .itermControl | .itermControlEscape | .itermPayload
  | .itermPayloadEscape | .dcsPassthrough | .dcsEscape | .sosPmApcString | .sosPmApcEscape
  | .apcPrefix | .kittyControl | .kittyControlEscape | .kittyPayload | .kittyPayloadEscape => true
  | _ => false

/-- The intermediates are the bytes collected so far. -/
structure Parser where
  state : ParserState := .ground
  «private» : Option UInt8 := none
  intermediates : List UInt8 := []
  params : Params := {}
  currentParam : Nat := 0
  currentSubparam : Option Nat := none
  parameterOverflow : Bool := false
  string : List UInt8 := []
  stringLimit : Nat := 0
  stringTruncated : Bool := false
  oscLimit : Nat
  dcsLimit : Nat
  sixelStreaming : Bool := false
  utf8Value : Nat := 0
  utf8Minimum : Nat := 0
  utf8Remaining : Nat := 0
  stringUtf8Remaining : Nat := 0

namespace Parser

/-- The parser after a byte, what it recognized, and whether the byte must be fed
again. -/
structure Fed where
  parser : Parser
  action : Option Action := none
  again : Bool := false

/-! ## Collecting -/

variable (p : Parser) (byte : UInt8)

def clearSequence : Parser :=
  { p with
    «private» := none
    intermediates := []
    params := {}
    currentParam := 0
    currentSubparam := none
    parameterOverflow := false }

def collectIntermediate : Parser :=
  if p.intermediates.length < intermediateLimit then
    { p with intermediates := p.intermediates ++ [byte] }
  else p

/-- The array the source keeps the intermediates in, whose length is the count beside it. -/
def storedIntermediates : List UInt8 :=
  p.intermediates ++ List.replicate (intermediateLimit - p.intermediates.length) 0

/-- The source writes at the count. -/
theorem storedIntermediates_collectIntermediate (h : p.intermediates.length < intermediateLimit) :
    (p.collectIntermediate byte).storedIntermediates = p.storedIntermediates.set p.intermediates.length byte := by
  obtain ⟨n, hn⟩ : ∃ n, intermediateLimit - p.intermediates.length = n + 1 :=
    ⟨intermediateLimit - p.intermediates.length - 1, by omega⟩
  have hrest : intermediateLimit - (p.intermediates ++ [byte]).length = n := by
    rw [List.length_append, List.length_singleton]
    omega
  rw [collectIntermediate, if_pos h, storedIntermediates, hrest, storedIntermediates, hn, List.replicate_succ,
    List.set_append_right _ _ (Nat.le_refl _), Nat.sub_self, List.set_cons_zero, List.append_assoc,
    List.singleton_append]

/-- Appends a decimal digit to a 32-bit value, wrapping as the source does. -/
def appendDigit (value digit : Nat) : Nat := (value * 10 + digit) % 2 ^ 32

def editParam (edit : Param → Param) : Parser :=
  { p with
    params :=
      { count := max p.params.count (p.currentParam + 1)
        values := p.params.values.set p.currentParam
          (edit (p.params.values.getD p.currentParam {})) } }

def collectDigit (digit : Nat) : Parser :=
  if paramLimit ≤ p.currentParam then p
  else
    p.editParam fun param =>
      match p.currentSubparam with
      | some subparam =>
        if subparam < subparamLimit then
          { param with
            subparamCount := max param.subparamCount (subparam + 1)
            subparamPresent := param.subparamPresent.set subparam true
            subparams := param.subparams.set subparam
              (appendDigit (param.subparams.getD subparam 0) digit) }
        else param
      | none => { param with present := true, value := appendDigit param.value digit }

def nextParam : Parser :=
  let p :=
    { p with
      params := { p.params with count := max p.params.count (min (p.currentParam + 1) paramLimit) }
      currentSubparam := none }
  if paramLimit ≤ p.currentParam + 1 then { p with parameterOverflow := true }
  else { p with currentParam := p.currentParam + 1 }

def nextSubparam : Parser :=
  if paramLimit ≤ p.currentParam then p
  else
    -- one past the limit marks an overflowed subparameter whose digits are ignored
    let next := match p.currentSubparam with
      | none => 0
      | some index => min (index + 1) subparamLimit
    { p.editParam fun param =>
        { param with subparamCount := max param.subparamCount (min (next + 1) subparamLimit) } with
      currentSubparam := some next }

def finishParams : Parser :=
  if p.currentParam < paramLimit ∧ (0 < p.params.count ∨ p.currentSubparam.isSome = true) then
    { p with params := { p.params with count := max p.params.count (p.currentParam + 1) } }
  else p

def startUtf8 (value remaining minimum : Nat) : Parser :=
  { p with
    state := .utf8
    utf8Value := value
    utf8Remaining := remaining
    utf8Minimum := minimum }

def startString (state : ParserState) (limit : Nat) : Parser :=
  { p with
    state
    string := []
    stringLimit := limit
    stringTruncated := false
    stringUtf8Remaining := 0 }

def pushString : Parser :=
  if p.string.length < p.stringLimit then { p with string := p.string ++ [byte] }
  else { p with stringTruncated := true }

def finishString (terminator : StringTerminator) : Fed :=
  if p.stringTruncated = true then
    { parser := { p with state := .ground, string := [] }, action := some (.stringTruncated "OSC") }
  else
    { parser := { p with state := .ground, string := [] }, action := some (.osc p.string terminator) }

def finishDcs : Fed :=
  if p.sixelStreaming = true then
    { parser := { p with state := .ground, sixelStreaming := false }.clearSequence
      action := some .sixelEnd }
  else if p.stringTruncated = true then
    { parser := { p with state := .ground, string := [] }, action := some (.stringTruncated "DCS") }
  else { parser := { p with state := .ground, string := [] }, action := some (.dcs p.string) }

def finishKittyCommand : Fed :=
  { parser := { p with state := .ground, string := [], stringTruncated := false }
    action := some (.kittyCommand p.string p.stringTruncated) }

/-! ## States -/

def feedGround : Fed :=
  if byte ≤ 0x1f then { parser := p, action := some (.execute byte) }
  else if byte ≤ 0x7e then { parser := p, action := some (.print (Char.ofNat byte.toNat)) }
  else if 0xc2 ≤ byte ∧ byte ≤ 0xdf then { parser := p.startUtf8 (byte &&& 0x1f).toNat 1 0x80 }
  else if 0xe0 ≤ byte ∧ byte ≤ 0xef then { parser := p.startUtf8 (byte &&& 0x0f).toNat 2 0x800 }
  else if 0xf0 ≤ byte ∧ byte ≤ 0xf4 then { parser := p.startUtf8 (byte &&& 0x07).toNat 3 0x10000 }
  else if byte = 0x9d then { parser := p.startString .oscString p.oscLimit }
  else if byte = 0x9f then { parser := { p with state := .apcPrefix } }
  else { parser := p }

def feedEscape : Fed :=
  if byte = 0x7f then { parser := p }
  else if byte ≤ 0x1f then { parser := p, action := some (.execute byte) }
  else if byte = ascii '[' ∧ p.state = .escape then
    { parser := { p.clearSequence with state := .csiEntry } }
  else if byte = ascii ']' ∧ p.state = .escape then
    { parser := p.startString .oscString p.oscLimit }
  else if byte = ascii 'P' ∧ p.state = .escape then
    { parser := { p.clearSequence with state := .dcsEntry } }
  else if (byte = ascii 'X' ∨ byte = ascii '^') ∧ p.state = .escape then
    { parser := { p with state := .sosPmApcString } }
  else if byte = ascii '_' ∧ p.state = .escape then
    { parser := { p with state := .apcPrefix } }
  else if byte ≤ 0x2f then
    { parser := { p.collectIntermediate byte with state := .escapeIntermediate } }
  else if byte ≤ 0x7e then
    { parser := { p with state := .ground }, action := some (.esc p.intermediates byte) }
  else { parser := { p with state := .ground } }

def feedCsi : Fed :=
  if byte = 0x7f then { parser := p }
  else if byte ≤ 0x1f then { parser := p, action := some (.execute byte) }
  else if p.state = .csiIgnore then
    { parser := if 0x40 ≤ byte ∧ byte ≤ 0x7e then { p with state := .ground } else p }
  else if p.state = .csiIntermediate ∧ 0x30 ≤ byte ∧ byte ≤ 0x3f then
    { parser := { p with state := .csiIgnore } }
  else if 0x30 ≤ byte ∧ byte ≤ 0x39 then
    { parser := { p.collectDigit (byte.toNat - 0x30) with state := .csiParam } }
  else if byte = ascii ';' then
    let p := p.nextParam
    { parser := { p with state := if p.parameterOverflow = true then .csiIgnore else .csiParam } }
  else if byte = ascii ':' then
    { parser := { p.nextSubparam with state := .csiParam } }
  else if (0x3c ≤ byte ∧ byte ≤ 0x3f) ∧ p.state = .csiEntry ∧ p.private = none then
    { parser := { p with «private» := some byte } }
  else if byte ≤ 0x2f then
    { parser := { p.collectIntermediate byte with state := .csiIntermediate } }
  else if 0x40 ≤ byte ∧ byte ≤ 0x7e then
    let p := p.finishParams
    { parser := { p with state := .ground }
      action := some (.csi p.private p.intermediates p.params byte) }
  else { parser := { p with state := .csiIgnore } }

/-- What remains of a multibyte character after `byte`, so that a continuation
byte that looks like a terminator is kept as text. -/
def utf8RemainingAfter : Nat :=
  if 0x80 ≤ byte ∧ byte ≤ 0xbf then p.stringUtf8Remaining - 1
  else if 0xc2 ≤ byte ∧ byte ≤ 0xdf then 1
  else if 0xe0 ≤ byte ∧ byte ≤ 0xef then 2
  else if 0xf0 ≤ byte ∧ byte ≤ 0xf4 then 3
  else 0

/-- The bytes `1337;File=` that turn an operating-system command into an inline
image. -/
def itermPrefix : List UInt8 := asciiText "1337;File="

def feedOscString : Fed :=
  if byte = 0x07 then p.finishString .bell
  else if byte = 0x1b then { parser := { p with state := .oscEscape } }
  else if byte = 0x9c ∧ p.stringUtf8Remaining = 0 then p.finishString .stringTerminator
  else if byte ≤ 0x1f ∨ byte = 0x7f then { parser := p }
  else
    let p := { p with stringUtf8Remaining := p.utf8RemainingAfter byte }.pushString byte
    { parser := if p.string = itermPrefix then p.startString .itermControl 1024 else p }

def feedOscEscape : Fed :=
  let result := p.finishString .stringTerminator
  if byte = ascii '\\' then result
  else { result with parser := { result.parser with state := .escape }, again := true }

def feedItermControl : Fed :=
  if byte = ascii ':' then
    { parser := { p with state := .itermPayload, string := [], stringTruncated := false }
      action := some (.itermBegin p.string p.stringTruncated) }
  else if byte = 0x07 ∨ byte = 0x9c then
    { parser := { p with state := .ground, string := [] }, action := some .itermAbort }
  else if byte = 0x1b then { parser := { p with state := .itermControlEscape } }
  else { parser := p.pushString byte }

def feedItermPayload : Fed :=
  if byte = 0x07 ∨ byte = 0x9c then
    { parser := { p with state := .ground }, action := some .itermEnd }
  else if byte = 0x1b then { parser := { p with state := .itermPayloadEscape } }
  else { parser := p, action := some (.itermData byte) }

def feedItermControlEscape : Fed :=
  let closed := decide (byte = ascii '\\')
  { parser := { p with state := if closed then .ground else .escape, string := [] }
    action := some .itermAbort
    again := !closed }

def feedItermPayloadEscape : Fed :=
  let closed := decide (byte = ascii '\\')
  { parser := { p with state := if closed then .ground else .escape }
    action := some (if closed then .itermEnd else .itermAbort)
    again := !closed }

def feedDcsPassthrough : Fed :=
  if byte = 0x1b then { parser := { p with state := .dcsEscape } }
  else if byte = 0x7f then { parser := p }
  else if 0x80 ≤ byte ∧ byte ≤ 0x9f then p.finishDcs
  else if p.sixelStreaming = true then { parser := p, action := some (.sixelData byte) }
  else { parser := p.pushString byte }

def feedDcsEscape : Fed :=
  if byte = ascii '\\' then p.finishDcs
  else
    { parser := { p with sixelStreaming := false, state := .escape }.clearSequence
      action := if p.sixelStreaming = true then some .sixelAbort else none
      again := true }

def feedDcsHeader : Fed :=
  if byte ≤ 0x1f then { parser := p }
  else if 0x30 ≤ byte ∧ byte ≤ 0x39 then
    { parser := { p.collectDigit (byte.toNat - 0x30) with state := .dcsParam } }
  else if byte = ascii ';' then
    let p := p.nextParam
    { parser := { p with state := if p.parameterOverflow = true then .dcsIgnore else .dcsParam } }
  else if byte = ascii ':' then { parser := { p.nextSubparam with state := .dcsParam } }
  else if (0x3c ≤ byte ∧ byte ≤ 0x3f) ∧ p.state = .dcsEntry then
    { parser := { p with «private» := some byte } }
  else if byte ≤ 0x2f then
    { parser := { p.collectIntermediate byte with state := .dcsIntermediate } }
  else if 0x40 ≤ byte ∧ byte ≤ 0x7e then
    let p := p.finishParams
    if byte = ascii 'q' ∧ p.private = none ∧ p.intermediates = [] then
      { parser := { p with state := .dcsPassthrough, sixelStreaming := true }
        action := some (.sixelBegin p.params) }
    else { parser := p.startString .dcsPassthrough p.dcsLimit }
  else { parser := { p with state := .dcsIgnore } }

def feedApcPrefix : Fed :=
  if byte = ascii 'G' then { parser := p.startString .kittyControl 1024 }
  else if byte = 0x1b then { parser := { p with state := .sosPmApcEscape } }
  else if byte = 0x9c then { parser := { p with state := .ground } }
  else { parser := { p with state := .sosPmApcString } }

def feedKittyControl : Fed :=
  if byte = ascii ';' then
    { parser := { p with state := .kittyPayload, string := [], stringTruncated := false }
      action := some (.kittyBegin p.string p.stringTruncated) }
  else if byte = 0x1b then { parser := { p with state := .kittyControlEscape } }
  else if byte = 0x9c then p.finishKittyCommand
  else { parser := p.pushString byte }

def feedKittyPayload : Fed :=
  if byte = 0x1b then { parser := { p with state := .kittyPayloadEscape } }
  else if byte = 0x9c then { parser := { p with state := .ground }, action := some .kittyEnd }
  else { parser := p, action := some (.kittyData byte) }

def feedKittyControlEscape : Fed :=
  if byte = ascii '\\' then p.finishKittyCommand
  else
    { parser := { p with state := .escape, string := [] }, action := some .kittyAbort, again := true }

def feedKittyPayloadEscape : Fed :=
  if byte = ascii '\\' then
    { parser := { p with state := .ground }, action := some .kittyEnd }
  else { parser := { p with state := .escape }, action := some .kittyAbort, again := true }

def feedIgnoredString : Fed :=
  if byte = 0x9c then { parser := { p with state := .ground } }
  else if p.state = .sosPmApcEscape then
    { parser := { p with
        state := if byte = ascii '\\' then .ground else .sosPmApcString } }
  else if byte = 0x1b then { parser := { p with state := .sosPmApcEscape } }
  else { parser := p }

def feedUtf8 : Except Fault Fed :=
  if byte &&& 0xc0 ≠ 0x80 then
    .ok { parser := { p with state := .ground }, action := some (.print '�'), again := true }
  else if p.utf8Remaining = 0 then .error .panic
  else
    let value := (p.utf8Value * 64 + (byte &&& 0x3f).toNat) % 2 ^ 32
    let p := { p with utf8Value := value, utf8Remaining := p.utf8Remaining - 1 }
    if 0 < p.utf8Remaining then .ok { parser := p }
    else
      let p := { p with state := .ground }
      if value < p.utf8Minimum ∨ 0x10ffff < value ∨ (0xd800 ≤ value ∧ value ≤ 0xdfff) then
        .ok { parser := p, action := some (.print '�') }
      else .ok { parser := p, action := some (.print (Char.ofNat value)) }

/-- What `CAN` and `SUB` abort. -/
def cancelAction : Action :=
  if p.sixelStreaming = true then .sixelAbort
  else
    match p.state with
    | .itermControl | .itermControlEscape | .itermPayload | .itermPayloadEscape => .itermAbort
    | _ => .kittyAbort

def feed : Except Fault Fed :=
  if p.state = .utf8 then p.feedUtf8 byte
  else if byte = 0x18 ∨ byte = 0x1a then
    .ok
      { parser := { p with state := .ground, sixelStreaming := false, string := [] }.clearSequence
        action := some p.cancelAction }
  else if byte = 0x1b ∧ p.state.keepsEscape = false then
    .ok { parser := { p.clearSequence with state := .escape } }
  else
    .ok
      (match p.state with
      | .ground => p.feedGround byte
      | .escape | .escapeIntermediate => p.feedEscape byte
      | .csiEntry | .csiParam | .csiIntermediate | .csiIgnore => p.feedCsi byte
      | .oscString => p.feedOscString byte
      | .oscEscape => p.feedOscEscape byte
      | .itermControl => p.feedItermControl byte
      | .itermControlEscape => p.feedItermControlEscape byte
      | .itermPayload => p.feedItermPayload byte
      | .itermPayloadEscape => p.feedItermPayloadEscape byte
      | .dcsPassthrough => p.feedDcsPassthrough byte
      | .dcsEscape => p.feedDcsEscape byte
      | .dcsIgnore => { parser := if byte = 0x1b then { p with state := .dcsEscape } else p }
      | .dcsEntry | .dcsParam | .dcsIntermediate => p.feedDcsHeader byte
      | .sosPmApcString | .sosPmApcEscape => p.feedIgnoredString byte
      | .apcPrefix => p.feedApcPrefix byte
      | .kittyControl => p.feedKittyControl byte
      | .kittyControlEscape => p.feedKittyControlEscape byte
      | .kittyPayload => p.feedKittyPayload byte
      | .kittyPayloadEscape => p.feedKittyPayloadEscape byte
      | .utf8 => { parser := p })

end Parser

end Splinterm.Terminal
