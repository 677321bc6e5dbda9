import Splinterm.Lib.Hoare
import Splinterm.Lib.Json
import Splinterm.Lib.Wire

/-!
# Frames of the graphical relay

The outer frames of the SSH transport: a 16-byte header and a payload whose bytes the
relay does not look into. The writer checks a frame in `Frame.parts`; the reader checks
the header before it makes room for the payload, and the payload afterwards. A writer
here is the list of the bytes written so far, and writing to it does not fail.
-/

namespace Splinterm.Relay

open Lib Hoare Wire Json

def version : UInt16 := 1

def maxDataBytes : Nat := 16 * 1024

def maxDiagnosticBytes : Nat := 1024

def magic : List UInt8 := [0x53, 0x50, 0x47, 0x52]

def headerBytes : Nat := 16

def kindHello : UInt8 := 1

def kindHelloAck : UInt8 := 2

def kindOpenChannel : UInt8 := 3

def kindChannelOpened : UInt8 := 4

def kindChannelRejected : UInt8 := 5

def kindData : UInt8 := 6

def kindHalfClose : UInt8 := 7

def kindCloseChannel : UInt8 := 8

def kindSessionError : UInt8 := 9

inductive Frame where
  | hello
  | helloAck
  | openChannel (channelId : UInt32)
  | channelOpened (channelId : UInt32)
  | channelRejected (channelId : UInt32) (reason : String)
  | data (channelId : UInt32) (bytes : List UInt8)
  | halfClose (channelId : UInt32)
  | closeChannel (channelId : UInt32)
  | sessionError (reason : String)
deriving DecidableEq

def isControl (c : Char) : Bool := c.toNat < 32 ∨ 127 ≤ c.toNat ∧ c.toNat < 160

def validateDiagnostic (value : String) : Except String Unit :=
  rejectIf (value = "" ∨ value.utf8ByteSize > maxDiagnosticBytes ∨ value.toList.any isControl)
    "graphical relay diagnostic is outside bounds"

/-- The kinds that belong to the session and to no channel. -/
def sessionFrame (kind : UInt8) : Bool :=
  kind = kindHello ∨ kind = kindHelloAck ∨ kind = kindSessionError

def validateChannel (kind : UInt8) (channelId : UInt32) : Except String Unit :=
  rejectIf (sessionFrame kind ≠ decide (channelId = 0))
    "graphical relay frame has an invalid channel identity"

def validateData (bytes : List UInt8) : Except String Unit :=
  rejectIf (bytes = [] ∨ bytes.length > maxDataBytes)
    "graphical relay data length is outside bounds"

/-- Kind, channel and payload, checked piece by piece. -/
def Frame.parts (frame : Frame) : Except String (UInt8 × UInt32 × List UInt8) := do
  let (kind, channelId, payload) ←
    match frame with
    | .hello => Except.ok (kindHello, 0, [])
    | .helloAck => .ok (kindHelloAck, 0, [])
    | .openChannel channelId => .ok (kindOpenChannel, channelId, [])
    | .channelOpened channelId => .ok (kindChannelOpened, channelId, [])
    | .channelRejected channelId reason => do
      validateDiagnostic reason
      .ok (kindChannelRejected, channelId, utf8 reason)
    | .data channelId bytes => do
      validateData bytes
      .ok (kindData, channelId, bytes)
    | .halfClose channelId => .ok (kindHalfClose, channelId, [])
    | .closeChannel channelId => .ok (kindCloseChannel, channelId, [])
    | .sessionError reason => do
      validateDiagnostic reason
      .ok (kindSessionError, 0, utf8 reason)
  validateChannel kind channelId
  .ok (kind, channelId, payload)

/-! ## Writing -/

/-- The 16 bytes `write_parts` fills in. -/
def header (kind : UInt8) (channelId payloadLen : UInt32) : List UInt8 :=
  magic ++ be16 version ++ [kind, 0] ++ be32 channelId ++ be32 payloadLen

def writeParts (kind : UInt8) (channelId : UInt32) (payload : List UInt8) (out : List UInt8) :
    Except String Unit × List UInt8 :=
  if payload.length < UInt32.size then
    (.ok (), out ++ header kind channelId (.ofNat payload.length) ++ payload)
  else (.error "graphical relay payload is too large", out)

def writeFrame (frame : Frame) (out : List UInt8) : Except String Unit × List UInt8 :=
  match frame.parts with
  | .error e => (.error e, out)
  | .ok (kind, channelId, payload) => writeParts kind channelId payload out

def writeDataFrame (channelId : UInt32) (payload : List UInt8) (out : List UInt8) : Except String Unit × List UInt8 :=
  match validateData payload >>= fun _ => validateChannel kindData channelId with
  | .error e => (.error e, out)
  | .ok () => writeParts kindData channelId payload out

/-! ## Reading -/

structure IoError where
  unexpectedEof : Bool
  text : String
deriving DecidableEq

inductive ReadError where
  | message (text : String)
  | io (error : IoError)
  /-- `unreachable!`. -/
  | unreachable (text : String)
deriving DecidableEq

/-- Every header the reader accepts carries these fields. -/
structure Header where
  magic : List UInt8
  version : UInt16
  kind : UInt8
  flags : UInt8
  channelId : UInt32
  payloadLen : UInt32

/-- The fields of a 16-byte header at their fixed places. -/
def Header.parse (bytes : List UInt8) : Header :=
  let at_ (i : Nat) : UInt8 := bytes.getD i 0
  { magic := bytes.take 4
    version := ofBe16 (at_ 4) (at_ 5)
    kind := at_ 6
    flags := at_ 7
    channelId := ofBe32 (at_ 8) (at_ 9) (at_ 10) (at_ 11)
    payloadLen := ofBe32 (at_ 12) (at_ 13) (at_ 14) (at_ 15) }

/-- The longest payload of a kind; an unknown kind has none. -/
def maximum (kind : UInt8) : Option Nat :=
  if kind = kindData then some maxDataBytes
  else if kind = kindChannelRejected ∨ kind = kindSessionError then some maxDiagnosticBytes
  else if kind = kindHello ∨ kind = kindHelloAck ∨ kind = kindOpenChannel ∨
      kind = kindChannelOpened ∨ kind = kindHalfClose ∨ kind = kindCloseChannel then some 0
  else none

/-- The checks between header and payload; the length of the payload to make room for. -/
def Header.check (h : Header) : Except String Nat := do
  rejectIf (h.magic ≠ Relay.magic) "graphical relay magic is invalid"
  rejectIf (h.version ≠ Relay.version) "graphical relay version is incompatible"
  rejectIf (h.flags ≠ 0) "graphical relay reserved flags are nonzero"
  validateChannel h.kind h.channelId
  match maximum h.kind with
  | none => .error "graphical relay frame kind is invalid"
  | some most =>
    rejectIf (h.payloadLen.toNat > most ∨ h.kind = kindData ∧ h.payloadLen.toNat = 0)
      "graphical relay payload length is outside bounds"
    .ok h.payloadLen.toNat

/-- The closure `diagnostic` of `read_frame`. -/
def diagnostic (payload : List UInt8) : Except ReadError String :=
  match String.fromUTF8? ⟨payload.toArray⟩ with
  | none => .error (.message "graphical relay diagnostic is not UTF-8")
  | some value =>
    match validateDiagnostic value with
    | .error e => .error (.message e)
    | .ok () => .ok value

def frameOf (kind : UInt8) (channelId : UInt32) (payload : List UInt8) : Except ReadError Frame :=
  if kind = kindHello then .ok .hello
  else if kind = kindHelloAck then .ok .helloAck
  else if kind = kindOpenChannel then .ok (.openChannel channelId)
  else if kind = kindChannelOpened then .ok (.channelOpened channelId)
  else if kind = kindChannelRejected then (diagnostic payload).map (.channelRejected channelId)
  else if kind = kindData then .ok (.data channelId payload)
  else if kind = kindHalfClose then .ok (.halfClose channelId)
  else if kind = kindCloseChannel then .ok (.closeChannel channelId)
  else if kind = kindSessionError then (diagnostic payload).map .sessionError
  else .error (.unreachable "validated frame kind")

/-- An end of the stream inside a frame has its own message. -/
def truncated (text : String) : Option IoError → ReadError
  | none => .message text
  | some error => if error.unexpectedEof then .message text else .io error

/-- What one call of `read_frame` returns and leaves, and how many payload bytes it made room
for on the way. -/
structure Reading where
  result : Except ReadError (Option Frame)
  reader : Source UInt8 IoError
  allocated : Nat

/-- `read_frame` once the header is there. -/
def readPayload (h : Header) (r : Source UInt8 IoError) : Reading :=
  match h.check with
  | .error e => ⟨.error (.message e), r, 0⟩
  | .ok payloadLen =>
    match r.readExact payloadLen with
    | (.error e, r) => ⟨.error (truncated "graphical relay payload is truncated" e), r, payloadLen⟩
    | (.ok payload, r) =>
      -- `diagnostic` copies the payload
      let copied :=
        if h.kind = kindChannelRejected ∨ h.kind = kindSessionError then payloadLen else 0
      ⟨(frameOf h.kind h.channelId payload).map some, r, payloadLen + copied⟩

def readFrame (r : Source UInt8 IoError) : Reading :=
  match r.read 1 with
  | (.error e, r) => ⟨.error (.io e), r, 0⟩
  | (.ok [], r) => ⟨.ok none, r, 0⟩
  | (.ok (b :: bs), r) =>
    match r.readExact (headerBytes - 1) with
    | (.error e, r) => ⟨.error (truncated "graphical relay header is truncated" e), r, 0⟩
    | (.ok rest, r) => readPayload (Header.parse (b :: bs ++ rest)) r

/-! ## Sequences of frames -/

/-- Writes one frame after the other, up to the first that fails. -/
def writeFrames : List Frame → List UInt8 → Except String Unit × List UInt8
  | [], out => (.ok (), out)
  | frame :: frames, out =>
    match writeFrame frame out with
    | (.error e, out) => (.error e, out)
    | (.ok (), out) => writeFrames frames out

/-- The results of `n` calls of `readFrame`. -/
def readFrames : Nat → Source UInt8 IoError → List (Except ReadError (Option Frame))
  | 0, _ => []
  | n + 1, r => (readFrame r).result :: readFrames n (readFrame r).reader

end Splinterm.Relay
