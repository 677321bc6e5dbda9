import Splinterm.Daemon.Types

/-!
# Controller leases

A connection that types into a live Splint holds its controller lease. The lease is
found by its id, by the Splint and by the connection, and a pending request to hand
it over by its id and by the Splint: five maps that every operation changes together.
The source's hash maps are iterated in no particular order; here they are iterated by
key, which decides the order of the returned lists and nothing else.
-/

namespace Splinterm.Daemon

open Core Lib

instance : LinearOrder SplintId :=
  LinearOrder.lift' SplintId.uuid fun a b h => by cases a; cases b; simpa using h

structure ControllerLease where
  id : Nat
  connectionId : Nat
  splintId : SplintId
  incarnation : Nat
  grantId : Option Nat
deriving DecidableEq

structure PendingControlTransfer where
  id : Nat
  ownerConnectionId : Nat
  requesterConnectionId : Nat
  splintId : SplintId
  incarnation : Nat
  grantId : Option Nat
deriving DecidableEq

inductive ControlTransferDecision where
  | accept
  | deny
deriving DecidableEq

inductive ControlTransferOutcome where
  | granted
  | denied
  | timedOut
  | cancelled
deriving DecidableEq

structure ControlStatus where
  splintId : SplintId
  incarnation : Nat
  controlled : Bool
  locallyOwned : Bool

structure ControllerState where
  nextId : Nat
  nextTransferId : Nat
  byId : OrdMap Nat ControllerLease
  bySplint : OrdMap SplintId Nat
  byConnection : OrdMap Nat Nat
  transfers : OrdMap Nat PendingControlTransfer
  transferBySplint : OrdMap SplintId Nat

def checkedSucc (n : Nat) : Option Nat := if n < u64Max then some (n + 1) else none

namespace ControllerState

def default : ControllerState where
  nextId := 1
  nextTransferId := 1
  byId := .empty
  bySplint := .empty
  byConnection := .empty
  transfers := .empty
  transferBySplint := .empty

def idSpaceExhausted : ProtocolError := .new .resourceLimit "controller ID space exhausted"

def alreadyOwnsLease : ProtocolError :=
  .new .controllerUnavailable "connection already owns a controller lease"

def noMatchingController : ProtocolError :=
  .new .controlTransferUnavailable "live Splint has no matching controller"

def notOwned : ProtocolError :=
  .new .unauthorized "controller lease is not owned by this connection"

/-- `by_splint.get(&splint_id).and_then(|id| by_id.get(id))`. -/
def current (splintId : SplintId) (s : ControllerState) : Option ControllerLease :=
  (s.bySplint.get? splintId).bind s.byId.get?

def currentAt (splintId : SplintId) (incarnation : Nat) (s : ControllerState) : Option ControllerLease :=
  (s.current splintId).filter fun lease => lease.incarnation = incarnation

/-- Where `acquire` puts a lease. -/
def addLease (lease : ControllerLease) (s : ControllerState) : ControllerState :=
  { s with
    nextId := s.nextId + 1
    byId := s.byId.insert lease.id lease
    bySplint := s.bySplint.insert lease.splintId lease.id
    byConnection := s.byConnection.insert lease.connectionId lease.id }

def acquire (connectionId : Nat) (splintId : SplintId) (incarnation : Nat) (grantId : Option Nat)
    (s : ControllerState) : Except ProtocolError ControllerLease × ControllerState :=
  if s.byConnection.contains connectionId then (.error alreadyOwnsLease, s)
  else if s.bySplint.contains splintId then
    (.error (.new .controllerUnavailable "live Splint already has a controller"), s)
  else
    -- a failing `checked_add` returns before `next_id` is assigned
    match checkedSucc s.nextId with
    | none => (.error idSpaceExhausted, s)
    | some _ =>
      let lease : ControllerLease := ⟨s.nextId, connectionId, splintId, incarnation, grantId⟩
      (.ok lease, s.addLease lease)

def authorize (connectionId controllerId : Nat) (splintId : SplintId) (incarnation : Nat)
    (s : ControllerState) : Except ProtocolError Unit :=
  match s.byId.get? controllerId with
  | some lease =>
    if lease.connectionId = connectionId ∧ lease.splintId = splintId ∧ lease.incarnation = incarnation then .ok ()
    else .error notOwned
  | none => .error notOwned

def status (connectionId : Nat) (splintId : SplintId) (incarnation : Nat) (s : ControllerState) : ControlStatus where
  splintId
  incarnation
  controlled := (s.currentAt splintId incarnation).isSome
  locallyOwned :=
    (s.currentAt splintId incarnation).any fun lease => lease.connectionId = connectionId

def release (controllerId : Nat) (s : ControllerState) : Option ControllerLease × ControllerState :=
  match s.byId.get? controllerId with
  | none => (none, s)
  | some lease =>
    (some lease,
      { s with
        byId := s.byId.erase controllerId
        bySplint := s.bySplint.erase lease.splintId
        byConnection := s.byConnection.erase lease.connectionId })

def releaseOwned (connectionId controllerId : Nat) (s : ControllerState) : Option ControllerLease × ControllerState :=
  if s.byConnection.get? connectionId = some controllerId then s.release controllerId
  else (none, s)

def releaseConnection (connectionId : Nat) (s : ControllerState) : Option ControllerLease × ControllerState :=
  match s.byConnection.get? connectionId with
  | none => (none, s)
  | some controllerId => s.release controllerId

def requestTransfer (requesterConnectionId : Nat) (splintId : SplintId) (incarnation : Nat)
    (grantId : Option Nat) (s : ControllerState) : Except ProtocolError PendingControlTransfer × ControllerState :=
  if s.byConnection.contains requesterConnectionId || s.transferBySplint.contains splintId then
    (.error (.new .controlTransferUnavailable "control transfer is unavailable"), s)
  else
    match s.currentAt splintId incarnation with
    | none => (.error noMatchingController, s)
    | some owner =>
      match checkedSucc s.nextTransferId with
      | none => (.error (.new .resourceLimit "control transfer ID space exhausted"), s)
      | some nextTransferId =>
        let transfer : PendingControlTransfer :=
          ⟨s.nextTransferId, owner.connectionId, requesterConnectionId, splintId, incarnation, grantId⟩
        (.ok transfer,
          { s with
            nextTransferId
            transfers := s.transfers.insert transfer.id transfer
            transferBySplint := s.transferBySplint.insert splintId transfer.id })

def expireTransfer (transferId : Nat) (s : ControllerState) : Option PendingControlTransfer × ControllerState :=
  match s.transfers.get? transferId with
  | none => (none, s)
  | some transfer =>
    (some transfer,
      { s with
        transfers := s.transfers.erase transferId
        transferBySplint := s.transferBySplint.erase transfer.splintId })

def takeTransfer (connectionId transferId : Nat) (s : ControllerState) :
    Except ProtocolError PendingControlTransfer × ControllerState :=
  match s.transfers.get? transferId with
  | none => (.error (.new .requestNotFound "control transfer not found"), s)
  | some transfer =>
    if transfer.ownerConnectionId ≠ connectionId then
      (.error (.new .unauthorized "only the current controller may decide a transfer"), s)
    else (.ok transfer, (s.expireTransfer transferId).2)

/-- What an accepted and a forced transfer end with: the lease `old` is released and the
requester acquires one for the same Splint. The ids are checked first, so that a full id
space does not cost the owner its lease. -/
def handOver (old : ControllerLease) (connectionId : Nat) (splintId : SplintId) (incarnation : Nat)
    (grantId : Option Nat) (s : ControllerState) : Except ProtocolError ControllerLease × ControllerState :=
  match checkedSucc s.nextId with
  | none => (.error idSpaceExhausted, s)
  | some _ => (s.release old.id).2.acquire connectionId splintId incarnation grantId

def decideTransfer (connectionId transferId : Nat) (decision : ControlTransferDecision) (s : ControllerState) :
    Except ProtocolError (PendingControlTransfer × ControlTransferOutcome × Option ControllerLease) ×
      ControllerState :=
  match s.takeTransfer connectionId transferId with
  | (.error e, s) => (.error e, s)
  | (.ok transfer, s) =>
    if decision = .deny then (.ok (transfer, .denied, none), s)
    else
      match s.current transfer.splintId with
      | none => (.ok (transfer, .cancelled, none), s)
      | some lease =>
        if lease.connectionId ≠ transfer.ownerConnectionId ∨ lease.incarnation ≠ transfer.incarnation ∨
            s.byConnection.contains transfer.requesterConnectionId then
          (.ok (transfer, .cancelled, none), s)
        else
          match s.handOver lease transfer.requesterConnectionId transfer.splintId
              transfer.incarnation transfer.grantId with
          | (.error e, s) => (.error e, s)
          | (.ok lease, s) => (.ok (transfer, .granted, some lease), s)

def forceTransfer (requesterConnectionId : Nat) (splintId : SplintId) (incarnation : Nat)
    (grantId : Option Nat) (s : ControllerState) : Except ProtocolError ControllerLease × ControllerState :=
  if s.byConnection.contains requesterConnectionId then (.error alreadyOwnsLease, s)
  else
    match s.currentAt splintId incarnation with
    | none => (.error noMatchingController, s)
    | some old => s.handOver old requesterConnectionId splintId incarnation grantId

/-- `ids.into_iter().filter_map(|id| self.release(id)).collect()`. -/
def releaseAll : List Nat → ControllerState → List ControllerLease × ControllerState
  | [], s => ([], s)
  | id :: ids, s =>
    let (lease, s) := s.release id
    let (leases, s) := releaseAll ids s
    (lease.toList ++ leases, s)

/-- `ids.into_iter().filter_map(|id| self.expire_transfer(id)).collect()`. -/
def expireAll : List Nat → ControllerState → List PendingControlTransfer × ControllerState
  | [], s => ([], s)
  | id :: ids, s =>
    let (transfer, s) := s.expireTransfer id
    let (transfers, s) := expireAll ids s
    (transfer.toList ++ transfers, s)

/-- The ids of the leases that meet a condition. -/
def leaseIds (p : ControllerLease → Bool) (s : ControllerState) : List Nat :=
  (s.byId.values.filter p).map (·.id)

def transferIds (p : PendingControlTransfer → Bool) (s : ControllerState) : List Nat :=
  (s.transfers.values.filter p).map (·.id)

def cancelConnectionTransfers (connectionId : Nat) (s : ControllerState) :
    List PendingControlTransfer × ControllerState :=
  s.expireAll (s.transferIds fun transfer =>
    transfer.ownerConnectionId = connectionId ∨ transfer.requesterConnectionId = connectionId)

def releaseGrant (grantId : Nat) (s : ControllerState) :
    (List ControllerLease × List PendingControlTransfer) × ControllerState :=
  let (leases, s) := s.releaseAll (s.leaseIds fun lease => lease.grantId = some grantId)
  let (transfers, s) :=
    s.expireAll (s.transferIds fun transfer => transfer.grantId = some grantId)
  ((leases, transfers), s)

def releaseConnections (connectionIds : List Nat) (s : ControllerState) :
    (List ControllerLease × List PendingControlTransfer) × ControllerState :=
  let (leases, s) := s.releaseAll
    ((s.leaseIds fun lease => lease.connectionId ∈ connectionIds).mergeSort)
  let (transfers, s) := s.expireAll
    ((s.transferIds fun transfer => transfer.ownerConnectionId ∈ connectionIds ∨
      transfer.requesterConnectionId ∈ connectionIds).mergeSort)
  ((leases, transfers), s)

def cancelIdentityTransfer (splintId : SplintId) (incarnation : Nat) (s : ControllerState) :
    Option PendingControlTransfer × ControllerState :=
  match s.transferBySplint.get? splintId with
  | none => (none, s)
  | some transferId =>
    if (s.transfers.get? transferId).any fun transfer => transfer.incarnation = incarnation then
      s.expireTransfer transferId
    else (none, s)

def releaseIdentity (splintId : SplintId) (incarnation : Nat) (s : ControllerState) :
    Option ControllerLease × ControllerState :=
  match s.currentAt splintId incarnation with
  | none => (none, s)
  | some lease => s.release lease.id

end ControllerState

end Splinterm.Daemon
