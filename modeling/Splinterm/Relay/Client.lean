import Splinterm.Lib.OrdMap
import Splinterm.Relay.Frame

/-!
# The client side of the relay

One reader task takes the frames of the remote side apart and queues their bytes, one
pump task per channel writes them into a pipe, and the application reads the pipe. A
`Channel` holds what the source keeps in the route, in the pump task and in the pipe.
Tasks run in any order; each step below is what one of them does without waiting.

Of the outgoing direction there is the queue of control frames, since a closed channel
leaves a frame in it; the outgoing pumps and the writes to the transport are left out.
-/

namespace Splinterm.Relay

open Lib

def maxNativeWindowSplints : Nat := 256

def retainedChannelsPerSplint : Nat := 2

def fixedWindowServiceChannels : Nat := 8

def maxLogicalChannels : Nat :=
  maxNativeWindowSplints * retainedChannelsPerSplint + fixedWindowServiceChannels

def maxChannelQueuedBytes : Nat := 64 * 1024

def maxIncomingChannelQueuedBytes : Nat := 16 * 1024 * 1024

def maxSessionQueuedBytes : Nat := maxLogicalChannels * maxChannelQueuedBytes

def channelQueueFrames : Nat := maxIncomingChannelQueuedBytes / maxDataBytes + 2

def controlQueueFrames : Nat := maxLogicalChannels * 2 + 16

/-- The room of the pipe to the application, `duplex(MAX_DATA_BYTES)`. -/
def pipeBytes : Nat := maxDataBytes

inductive IncomingCommand where
  | data (bytes : List UInt8)
  | halfClose

/-- The bytes a command waits to hand over. -/
def IncomingCommand.bytes : IncomingCommand → List UInt8
  | .data bytes => bytes
  | .halfClose => []

/-- A frame inside `write_all`: what is still to be written, and what its permits hold. -/
structure Writing where
  rest : List UInt8
  amount : Nat

/-- What the remote side has said about a channel so far. -/
inductive Remote where
  | pending
  | opened
  | halfClosed
  | closed
deriving DecidableEq

structure Channel where
  /-- The route is in the table. -/
  routed : Bool
  /-- `opened` was taken: the remote side acknowledged the channel. -/
  acknowledged : Bool
  queue : List IncomingCommand
  /-- The pump task is running, so it holds the receiver of the queue. -/
  pumping : Bool
  writing : Option Writing
  /-- The pump's `half_closed`. -/
  halfClosed : Bool
  incomingCancelled : Bool
  pipe : List UInt8
  /-- The writing end of the pipe was shut down. -/
  shutdown : Bool
  /-- The application holds its end of the pipe. -/
  application : Bool
  /-- The application's guard, or the `open_channel` call, exists. -/
  guarded : Bool
  /-- History: the bytes of the channel's data frames, and those the application read. -/
  sent : List UInt8
  received : List UInt8
  remote : Remote

structure ClientState where
  control : List Frame
  channels : OrdMap Nat Channel
  lastIssued : Nat
  locallyClosedThrough : Nat
  failure : Option String

namespace Channel

/-- A channel as `open_channel` sets it up. -/
def fresh : Channel where
  routed := true
  acknowledged := false
  queue := []
  pumping := true
  writing := none
  halfClosed := false
  incomingCancelled := false
  pipe := []
  shutdown := false
  application := true
  guarded := true
  sent := []
  received := []
  remote := .pending

variable (ch : Channel)

/-- Bytes whose permits are held: queued frames and the one being written. -/
def charged : Nat :=
  (ch.queue.map fun command => command.bytes.length).sum + (ch.writing.map (·.amount)).getD 0

/-- Bytes on their way into the pipe. -/
def unwritten : List UInt8 :=
  (ch.writing.map (·.rest)).getD [] ++ ch.queue.flatMap (·.bytes)

/-- The bytes of the channel the application has not read. -/
def unread : List UInt8 := ch.pipe ++ ch.unwritten

/-- The slot is shared by the pump and the guard. -/
def holdsSlot : Bool := ch.pumping || ch.guarded

/-- The route is dropped; a channel that was still opening is given up by its caller. -/
def dropRoute : Channel :=
  { ch with
    routed := false
    application := ch.application && ch.acknowledged
    guarded := ch.guarded && ch.acknowledged }

/-- The end of the pump task: what it had queued is dropped, with the permits. -/
def endPump : Channel :=
  { ch with pumping := false, queue := [], writing := none, shutdown := true }

/-- The pump hands bytes to the pipe as far as there is room, at most `n`. -/
def write (n : Nat) (w : Writing) (ch : Channel) : Channel :=
  let k := min n (pipeBytes - ch.pipe.length)
  { ch with
    pipe := ch.pipe ++ w.rest.take k
    writing := if w.rest.drop k = [] then none else some { w with rest := w.rest.drop k } }

/-- The application reads at most `n` bytes. -/
def read (n : Nat) (ch : Channel) : Channel :=
  if ch.application then
    { ch with pipe := ch.pipe.drop n, received := ch.received ++ ch.pipe.take n }
  else ch

end Channel

namespace ClientState

def init : ClientState where
  control := []
  channels := .empty
  lastIssued := 0
  locallyClosedThrough := 0
  failure := none

variable (id : Nat) (s : ClientState)

/-- The live routes. -/
def route : Option Channel :=
  (s.channels.get? id).filter (·.routed)

def put (ch : Channel) (s : ClientState) : ClientState :=
  { s with channels := s.channels.insert id ch }

/-- The session's byte permits in use. -/
def charged : Nat := (s.channels.values.map Channel.charged).sum

/-- The first failure cancels every task and drops every route. -/
def fail (reason : String) (s : ClientState) : ClientState :=
  if s.failure.isSome then s
  else
    { s with
      failure := some reason
      channels := s.channels.mapValues fun ch => { ch.dropRoute with incomingCancelled := true } }

def closeChannel : ClientState :=
  match s.route id with
  | none => s
  | some ch =>
    { s.put id { ch.dropRoute with incomingCancelled := true } with
      locallyClosedThrough := max s.locallyClosedThrough id }

/-! ## Frames from the remote side -/

def sendIncomingData (bytes : List UInt8) (s : ClientState) : Except String ClientState :=
  match s.route id with
  | none =>
    if id ≠ 0 ∧ id ≤ s.locallyClosedThrough then .ok s
    else .error "data targeted an unknown graphical relay channel"
  | some ch =>
    if ¬ ch.acknowledged then .error "data preceded graphical relay channel admission"
    else if bytes.length ≥ UInt32.size then
      .error "graphical relay data length exceeded its byte bound"
    else if ch.charged + bytes.length > maxIncomingChannelQueuedBytes then
      .error "graphical relay channel queue exceeded its byte bound"
    else if s.charged + bytes.length > maxSessionQueuedBytes then
      .error "graphical relay session queue exceeded its byte bound"
    else if ¬ ch.pumping ∨ ch.queue.length ≥ channelQueueFrames then
      .error "graphical relay channel queue exceeded its frame bound"
    else .ok (s.put id { ch with queue := ch.queue ++ [.data bytes] })

def sendShutdownIncoming (command : IncomingCommand) (label : String) (s : ClientState) : Except String ClientState :=
  match s.route id with
  | none =>
    if id ≤ s.lastIssued then .ok s
    else .error (label ++ " targeted a never-issued graphical relay channel")
  | some ch =>
    if ¬ ch.acknowledged then .error (label ++ " preceded graphical relay channel admission")
    else if ¬ ch.pumping ∨ ch.queue.length ≥ channelQueueFrames then
      .error "graphical relay channel queue exceeded its byte bound"
    else .ok (s.put id { ch with queue := ch.queue ++ [command] })

def closeRemoteChannel : Except String ClientState :=
  match s.route id with
  | none =>
    if id ≤ s.lastIssued then .ok s
    else .error "close targeted a never-issued graphical relay channel"
  | some ch => .ok (s.put id ch.dropRoute)

def dispatchFrame (frame : Frame) (s : ClientState) : Except String ClientState :=
  match frame with
  | .channelOpened channelId =>
    match s.route channelId.toNat with
    | none => .error "channel acknowledgement targeted an unknown channel"
    | some ch =>
      if ch.acknowledged then .error "channel was acknowledged more than once"
      else .ok (s.put channelId.toNat { ch with acknowledged := true })
  | .channelRejected channelId _ =>
    match s.route channelId.toNat with
    | none => .error "channel rejection targeted an unknown channel"
    | some ch =>
      if ch.acknowledged then .error "opened channel was rejected"
      else .ok (s.put channelId.toNat ch.dropRoute)
  | .data channelId bytes => s.sendIncomingData channelId.toNat bytes
  | .halfClose channelId => s.sendShutdownIncoming channelId.toNat .halfClose "half-close"
  | .closeChannel channelId => s.closeRemoteChannel channelId.toNat
  | .sessionError reason => .error ("remote graphical relay: " ++ reason)
  | .hello | .helloAck | .openChannel _ => .error "remote graphical relay sent an invalid client-side frame"

/-- The history a frame leaves. -/
def note (frame : Frame) (s : ClientState) : ClientState :=
  let record (channelId : UInt32) (f : Channel → Channel) : ClientState :=
    match s.channels.get? channelId.toNat with
    | none => s
    | some ch => s.put channelId.toNat (f ch)
  match frame with
  | .channelOpened channelId => record channelId fun ch => { ch with remote := .opened }
  | .channelRejected channelId _ | .closeChannel channelId => record channelId fun ch => { ch with remote := .closed }
  | .data channelId bytes => record channelId fun ch => { ch with sent := ch.sent ++ bytes }
  | .halfClose channelId => record channelId fun ch => { ch with remote := .halfClosed }
  | _ => s

/-! ## Steps -/

/-- A step of one of the tasks, or of the application. -/
inductive Step where
  /-- `open_channel`, up to its `OpenChannel` frame in the control queue. -/
  | openChannel
  /-- The reader task takes a frame. -/
  | frame (frame : Frame)
  /-- The pump of a channel takes its next command. -/
  | receive (id : Nat)
  /-- The pump of a channel writes, at most so many bytes. -/
  | write (id n : Nat)
  /-- The pump of a channel sees its cancellation. -/
  | cancel (id : Nat)
  /-- The application reads. -/
  | read (id n : Nat)
  /-- The application drops its end of the pipe, and then the guard. -/
  | dropStream (id : Nat)
  | dropGuard (id : Nat)
  /-- The writer task takes a control frame. -/
  | written

/-- `open_channel`; a caller that finds no slot, no id or a failed session gets an error, and one
that finds the control queue full waits. -/
def openChannel : ClientState :=
  if s.failure.isSome then s
  else if (s.channels.values.filter Channel.holdsSlot).length ≥ maxLogicalChannels then s
  else if s.lastIssued + 1 ≥ UInt32.size then s
  else if s.control.length ≥ controlQueueFrames then s
  else
    { s.put (s.lastIssued + 1) .fresh with
      lastIssued := s.lastIssued + 1
      control := s.control ++ [.openChannel (.ofNat (s.lastIssued + 1))] }

/-- One turn of the pump's loop at `incoming.recv()`. -/
def receive : ClientState :=
  match s.channels.get? id with
  | none => s
  | some ch =>
    if ¬ ch.pumping ∨ ch.writing.isSome then s
    else
      match ch.queue with
      | [] => if ch.routed then s else s.put id ch.endPump
      | .data bytes :: queue =>
        if ch.halfClosed then
          (s.fail "remote graphical relay sent data after channel half-close").put id ch.endPump
        else s.put id { ch with queue, writing := some ⟨bytes, bytes.length⟩ }
      | .halfClose :: queue =>
        if ch.halfClosed then
          (s.fail "remote graphical relay sent data after channel half-close").put id ch.endPump
        else s.put id { ch with queue, halfClosed := true, shutdown := true }

/-- `write_all` makes progress, or fails because the other end of the pipe is gone. -/
def write (id n : Nat) (s : ClientState) : ClientState :=
  match s.channels.get? id with
  | none => s
  | some ch =>
    match ch.writing with
    | none => s
    | some w =>
      if ch.application then s.put id (ch.write n w)
      else
        let s := { s with
          control := if s.control.length < controlQueueFrames then
            s.control ++ [Frame.closeChannel (.ofNat id)] else s.control }
        let s := s.closeChannel id
        s.put id ((s.channels.get? id).getD ch).endPump

/-- The pump task ends at a cancellation. -/
def cancel : ClientState :=
  match s.channels.get? id with
  | none => s
  | some ch => if ch.incomingCancelled then s.put id ch.endPump else s

def dropGuard : ClientState :=
  match s.channels.get? id with
  | none => s
  | some ch =>
    if ¬ ch.guarded ∨ ¬ ch.acknowledged ∨ ch.application then s
    else
      let s := s.closeChannel id
      let s := s.put id
        { (s.channels.get? id).getD ch with incomingCancelled := true, guarded := false }
      if s.control.length < controlQueueFrames then
        { s with control := s.control ++ [.closeChannel (.ofNat id)] }
      else s.fail "graphical relay control output queue closed or full"

/-- One turn of the reader task, which a failure ends. -/
def takeFrame (frame : Frame) (s : ClientState) : ClientState :=
  if s.failure.isSome then s
  else
    match (s.note frame).dispatchFrame frame with
    | .ok s' => s'
    | .error reason => (s.note frame).fail reason

/-- The application reads from its end of the pipe. -/
def read (id n : Nat) (s : ClientState) : ClientState :=
  match s.channels.get? id with
  | none => s
  | some ch => s.put id (ch.read n)

/-- The application drops its end of the pipe. -/
def dropStream : ClientState :=
  match s.channels.get? id with
  | none => s
  | some ch => if ch.acknowledged then s.put id { ch with application := false } else s

def step : Step → ClientState → ClientState
  | .openChannel, s => s.openChannel
  | .frame frame, s => s.takeFrame frame
  | .receive id, s => s.receive id
  | .write id n, s => s.write id n
  | .cancel id, s => s.cancel id
  | .read id n, s => s.read id n
  | .dropStream id, s => s.dropStream id
  | .dropGuard id, s => s.dropGuard id
  | .written, s => { s with control := s.control.tail }

def run (steps : List Step) (s : ClientState) : ClientState :=
  steps.foldl (fun s step => s.step step) s

end ClientState

end Splinterm.Relay
