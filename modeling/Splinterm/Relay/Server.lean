import Splinterm.Relay.Client

/-!
# The server side of the relay

One coordinator takes the client's frames and the events of the channel tasks, one task
per channel pumps bytes to and from its daemon connection, and one writer hands frames to
the transport. A `Channel` holds what the source keeps in the coordinator's table, in the
task and in the daemon connection. Tasks run in any order; each step below is what one
of them does without waiting, and a step that would wait changes nothing. A run is
followed until the coordinator leaves its loop.

The order in which the writer serves the data of several channels is left out.
-/

namespace Splinterm.Relay.Server

open Lib

/-- `CHANNEL_QUEUE_FRAMES` of the server; the client has its own. -/
def channelQueueFrames : Nat := maxChannelQueuedBytes / maxDataBytes

def eventQueueEvents : Nat := maxLogicalChannels * 2 + 1

inductive ChannelCommand where
  | data (bytes : List UInt8)
  | halfClose
  | close
deriving DecidableEq

/-- The bytes a command waits to hand over. -/
def ChannelCommand.bytes : ChannelCommand → List UInt8
  | .data bytes => bytes
  | .halfClose | .close => []

inductive GraphicalEvent where
  | channelFinished (channelId : Nat)
  | daemonExited
  | sessionFailure (reason : String)

/-- `mpsc::error::TrySendError`. -/
inductive TrySendError where
  | full
  | closed
deriving DecidableEq

/-- Where `run_graphical_channel` stands. -/
inductive Phase where
  /-- Both pumps run; the upstream one holds the receiver of the commands. -/
  | pumping
  /-- The pumps are dropped and the queued output drains. -/
  | draining
  /-- Only the event is still to be sent. -/
  | finishing
  | finished
deriving DecidableEq

structure Channel where
  /-- In the coordinator's table. -/
  active : Bool
  commands : List ChannelCommand
  phase : Phase
  /-- What `write_all` has still to write. -/
  writing : List UInt8
  upstreamOpen : Bool
  cancelled : Bool
  /-- Frames read from the daemon and not yet written to the transport. -/
  outgoing : List (List UInt8)
  /-- What the daemon connection took, and whether it was shut down. -/
  received : List UInt8
  shut : Bool
  /-- History: the bytes, the half-close and the close the client sent. -/
  sent : List UInt8
  halfClosed : Bool
  clientClosed : Bool
deriving DecidableEq

/-- Why the coordinator left its loop with a `terminal_error`. -/
inductive Failure where
  | daemonExited
  | reported (reason : String)
  | inputFailed (reason : String)
  | idReused
  | outputQueue
  | unknownData
  | inputQueue (error : TrySendError)
  | unknownHalfClose
  | unknownClose
  | invalidFrame
deriving DecidableEq

inductive Ending where
  | inputClosed
  | failed (failure : Failure)
deriving DecidableEq

structure Session where
  channels : OrdMap Nat Channel
  lastChannelId : Nat
  control : List Frame
  events : List GraphicalEvent
  ended : Option Ending
  /-- History: the control frames handed to the transport. -/
  delivered : List Frame

/-- Reasons sent to the client are printable and bounded. -/
def boundedReason (error : String) : String :=
  let reason := (error.toList.filter fun c => c.toNat < 128 && !isControl c).take 1024
  if reason = [] then "graphical relay channel failed" else String.ofList reason

namespace Channel

/-- A channel as the coordinator sets it up on an accepted connection. -/
def fresh : Channel where
  active := true
  commands := []
  phase := .pumping
  writing := []
  upstreamOpen := true
  cancelled := false
  outgoing := []
  received := []
  shut := false
  sent := []
  halfClosed := false
  clientClosed := false

def trySend (command : ChannelCommand) (ch : Channel) : Except TrySendError Channel :=
  if ch.phase ≠ .pumping then .error .closed
  else if ch.commands.length ≥ channelQueueFrames then .error .full
  else .ok { ch with commands := ch.commands ++ [command] }

/-- Either direction ending drops both pumps, with the queued commands. -/
def stopPumps (ch : Channel) : Channel :=
  { ch with phase := .draining, commands := [], writing := [] }

/-- Bytes received for the channel and not yet written to its connection. -/
def unwritten (ch : Channel) : List UInt8 := ch.writing ++ ch.commands.flatMap (·.bytes)

/-- The result of `let _ = try_send(Close)` and `cancel()`. -/
def close (ch : Channel) : Channel :=
  let ch :=
    match ch.trySend .close with
    | .ok ch => ch
    | .error _ => ch
  { ch with cancelled := true, clientClosed := true }

end Channel

namespace Session

def init : Session where
  channels := .empty
  lastChannelId := 0
  control := []
  events := []
  ended := none
  delivered := []

def put (id : Nat) (ch : Channel) (s : Session) : Session :=
  { s with channels := s.channels.insert id ch }

/-- The channels of the coordinator's table. -/
def active (id : Nat) (s : Session) : Option Channel := (s.channels.get? id).filter (·.active)

variable (s : Session)

def activeCount : Nat := (s.channels.values.filter (·.active)).length

def fail (failure : Failure) (s : Session) : Session := { s with ended := some (.failed failure) }

/-- `control_tx.try_send`; the receiver lives as long as the writer. -/
def sendControl (frame : Frame) (s : Session) : Session :=
  if s.control.length ≥ controlQueueFrames then s.fail .outputQueue
  else { s with control := s.control ++ [frame] }

/-! ## The coordinator -/

/-- `connection` is what the connector answers. -/
def openChannel (channelId : UInt32) (connection : Except String Unit) (s : Session) : Session :=
  if channelId.toNat ≤ s.lastChannelId then s.fail .idReused
  else
    let s := { s with lastChannelId := channelId.toNat }
    if s.activeCount ≥ maxLogicalChannels then
      s.sendControl
        (.channelRejected channelId "graphical relay logical channel limit reached")
    else
      match connection with
      | .ok () => (s.put channelId.toNat .fresh).sendControl (.channelOpened channelId)
      | .error error => s.sendControl (.channelRejected channelId (boundedReason error))

def sendData (id : Nat) (bytes : List UInt8) (s : Session) : Session :=
  match s.active id with
  | none => s.fail .unknownData
  | some ch =>
    match ch.trySend (.data bytes) with
    | .error error => s.fail (.inputQueue error)
    | .ok ch => s.put id { ch with sent := ch.sent ++ bytes }

def sendHalfClose (id : Nat) (s : Session) : Session :=
  match s.active id with
  | none => if id > s.lastChannelId then s.fail .unknownHalfClose else s
  | some ch =>
    match ch.trySend .halfClose with
    | .error error => s.fail (.inputQueue error)
    | .ok ch => s.put id { ch with halfClosed := true }

def closeChannel (id : Nat) (s : Session) : Session :=
  match s.active id with
  | none => if id > s.lastChannelId then s.fail .unknownClose else s
  | some ch => s.put id ch.close

def takeFrame (frame : Frame) (connection : Except String Unit) (s : Session) : Session :=
  match frame with
  | .openChannel channelId => s.openChannel channelId connection
  | .data channelId bytes => s.sendData channelId.toNat bytes
  | .halfClose channelId => s.sendHalfClose channelId.toNat
  | .closeChannel channelId => s.closeChannel channelId.toNat
  | .hello | .helloAck | .channelOpened _ | .channelRejected _ _ | .sessionError _ => s.fail .invalidFrame

def takeEvent : Session :=
  match s.events with
  | [] => s
  | event :: events =>
    let s := { s with events }
    match event with
    | .channelFinished id =>
      match s.channels.get? id with
      | none => s
      | some ch => s.put id { ch with active := false }
    | .daemonExited => s.fail .daemonExited
    | .sessionFailure reason => s.fail (.reported reason)

/-! ## The tasks -/

/-- `events.send`, once there is room. -/
def report (event : GraphicalEvent) (s : Session) : Session :=
  { s with events := s.events ++ [event] }

def eventRoom : Bool := s.events.length < eventQueueEvents

/-- `apply_channel_command` up to its first write; `shutdown` is whether the connection
could be shut down. -/
def applyChannelCommand (shutdown : Bool) (id : Nat) (command : ChannelCommand) (ch : Channel)
    (s : Session) : Session :=
  match command with
  | .data bytes =>
    if ch.upstreamOpen then s.put id { ch with writing := bytes }
    else if s.eventRoom then
      (s.put id ch.stopPumps).report (.sessionFailure "data followed a logical channel half-close")
    else s
  | .halfClose =>
    if ch.upstreamOpen then
      if shutdown then s.put id { ch with upstreamOpen := false, shut := true }
      else s.put id { ch.stopPumps with upstreamOpen := false }
    else if s.eventRoom then
      (s.put id ch.stopPumps).report (.sessionFailure "logical channel was half-closed twice")
    else s
  | .close => s.put id ch.stopPumps

/-- The upstream pump receives its next command. -/
def takeCommand (shutdown : Bool) (id : Nat) (ch : Channel) (s : Session) : Session :=
  match ch.commands with
  | [] => s
  | command :: commands =>
    if ch.writing = [] then applyChannelCommand shutdown id command { ch with commands } s else s

/-- What a task of one channel does next. -/
inductive Action where
  | take (shutdown : Bool)
  /-- The connection takes some bytes of the current write. -/
  | accept (count : Nat)
  | writeFails
  | daemonSends (bytes : List UInt8)
  /-- End of file or a read error. -/
  | daemonEnds
  | seeCancel
  /-- The output has drained and the close is queued for the client. -/
  | drained
  | finish
  /-- The writer is done with the oldest data frame of the channel. -/
  | outgoingWritten
deriving DecidableEq

def act (id : Nat) (action : Action) (ch : Channel) (s : Session) : Session :=
  match action, ch.phase with
  | .take shutdown, .pumping => s.takeCommand shutdown id ch
  | .accept count, .pumping =>
    s.put id { ch with
      writing := ch.writing.drop count
      received := ch.received ++ ch.writing.take count }
  | .writeFails, .pumping => if ch.writing = [] then s else s.put id ch.stopPumps
  | .daemonSends bytes, .pumping =>
    if ch.outgoing.length < maxChannelQueuedBytes / maxDataBytes then
      s.put id { ch with outgoing := ch.outgoing ++ [bytes] }
    else s
  | .daemonEnds, .pumping => s.put id ch.stopPumps
  | .seeCancel, .pumping => if ch.cancelled then s.put id ch.stopPumps else s
  | .seeCancel, .draining =>
    if ch.cancelled then s.put id { ch with outgoing := [], phase := .finishing } else s
  | .drained, .draining =>
    if ch.outgoing = [] ∧ s.control.length < controlQueueFrames then
      { s.put id { ch with phase := .finishing } with
        control := s.control ++ [.closeChannel (.ofNat id)] }
    else s
  | .finish, .finishing =>
    if s.eventRoom then
      (s.put id { ch with phase := .finished, cancelled := true }).report (.channelFinished id)
    else s
  | .outgoingWritten, _ => s.put id { ch with outgoing := ch.outgoing.tail }
  | _, _ => s

/-! ## Runs -/

inductive Step where
  | frame (frame : Frame) (connection : Except String Unit)
  | event
  | task (channelId : Nat) (action : Action)
  /-- The writer is done with the oldest control frame. -/
  | controlWritten
  | inputEnds
  | inputFails (reason : String)
  /-- A daemon peer monitor sees the process exit. -/
  | daemonExits
  /-- A monitor or the writer fails. -/
  | reports (reason : String)

def step (st : Step) : Session :=
  if s.ended.isSome then s
  else
    match st with
    | .frame frame connection => s.takeFrame frame connection
    | .event => s.takeEvent
    | .task id action =>
      match s.channels.get? id with
      | none => s
      | some ch => s.act id action ch
    | .controlWritten => { s with control := s.control.tail, delivered := s.delivered ++ s.control.take 1 }
    | .inputEnds => { s with ended := some .inputClosed }
    | .inputFails reason => s.fail (.inputFailed (boundedReason reason))
    | .daemonExits => if s.eventRoom then s.report .daemonExited else s
    | .reports reason => if s.eventRoom then s.report (.sessionFailure reason) else s

def run (steps : List Step) : Session := steps.foldl step s

end Session

end Splinterm.Relay.Server
