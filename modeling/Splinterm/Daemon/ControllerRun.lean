import Splinterm.Daemon.Controller

/-!
# Runs of the controller state

Every operation is made of four changes: a lease is added or removed, a transfer is
added or removed. `Good` says what each of them, and so every operation, does: the
maps still agree, and an id that was handed out keeps its lease or loses it for good.
-/

namespace Splinterm.Daemon.ControllerState

open Core Lib OrdMap Option Nat ControllerState

/-- The three lease maps describe one set of leases and the two transfer maps one set of
transfers, each filed under its own id, and no id lies ahead of its counter. -/
structure MapsAgree (s : ControllerState) : Prop where
  leaseId : ∀ id lease, s.byId.get? id = some lease → lease.id = id ∧ id < s.nextId
  bySplint : Indexes s.byId ControllerLease.splintId s.bySplint
  byConnection : Indexes s.byId ControllerLease.connectionId s.byConnection
  transferId : ∀ id transfer, s.transfers.get? id = some transfer → transfer.id = id ∧ id < s.nextTransferId
  transferBySplint : Indexes s.transfers PendingControlTransfer.splintId s.transferBySplint

/-- An id that was handed out keeps its lease or has none. -/
structure Retains (s s' : ControllerState) : Prop where
  nextId : s.nextId ≤ s'.nextId
  lease : ∀ id < s.nextId, s'.byId.get? id = s.byId.get? id ∨ s'.byId.get? id = none

structure Good (s s' : ControllerState) : Prop where
  maps : MapsAgree s'
  retains : Retains s s'

variable {s s' s'' : ControllerState}

theorem mapsAgree_default : MapsAgree default where
  leaseId := by
    intro id lease h
    cases h
  bySplint := indexes_empty
  byConnection := indexes_empty
  transferId := by
    intro id transfer h
    cases h
  transferBySplint := indexes_empty

theorem Retains.refl (s : ControllerState) : Retains s s :=
  ⟨le_refl _, fun _ _ => .inl rfl⟩

theorem Retains.trans (h : Retains s s') (h' : Retains s' s'') : Retains s s'' where
  nextId := le_trans h.nextId h'.nextId
  lease := by
    intro id hid
    cases h'.lease id (lt_of_lt_of_le hid h.nextId) with
    | inl hsame =>
      rw [hsame]
      exact h.lease id hid
    | inr hnone => exact .inr hnone

theorem Good.refl (h : MapsAgree s) : Good s s := ⟨h, .refl s⟩

theorem Good.trans (h : Good s s') (h' : Good s' s'') : Good s s'' :=
  ⟨h'.maps, h.retains.trans h'.retains⟩

variable {splintId : SplintId} {connectionId transferId incarnation id : Nat} {grantId : Option Nat}
  {lease : ControllerLease} {granted : Option ControllerLease} {transfer : PendingControlTransfer}
  {decision : ControlTransferDecision}

theorem checkedSucc_eq_some {n m : Nat} : checkedSucc n = some m ↔ n < u64Max ∧ m = n + 1 := by
  unfold checkedSucc
  by_cases h : n < u64Max
  · rw [if_pos h, some_inj]
    exact ⟨fun hm => ⟨h, hm.symm⟩, fun hm => hm.2.symm⟩
  · rw [if_neg h]
    exact ⟨fun hm => absurd hm.symm (some_ne_none m), fun hm => absurd hm.1 h⟩

theorem release_eq_none (hget : s.byId.get? id = none) : s.release id = (none, s) := by
  unfold release
  rw [hget]

theorem release_byId (id id' : Nat) : (s.release id).2.byId.get? id' = if id' = id then none else s.byId.get? id' := by
  cases hget : s.byId.get? id with
  | none =>
    rw [release_eq_none hget]
    split
    case isTrue heq => rw [heq]; exact hget
    case isFalse => rfl
  | some lease =>
    unfold release
    rw [hget]
    exact get?_erase s.byId id id'

theorem release_fst (id : Nat) : (s.release id).1 = s.byId.get? id := by
  unfold release
  split <;> simp [*]

theorem release_nextId (id : Nat) : (s.release id).2.nextId = s.nextId := by
  unfold release
  split <;> rfl

theorem release_transfers (id : Nat) : (s.release id).2.transfers = s.transfers := by
  unfold release
  split <;> rfl

theorem expireTransfer_transfers (id id' : Nat) :
    (s.expireTransfer id).2.transfers.get? id' = if id' = id then none else s.transfers.get? id' := by
  unfold expireTransfer
  split
  case h_1 hget =>
    split
    case isTrue heq => rw [heq]; exact hget
    case isFalse => rfl
  case h_2 => exact get?_erase s.transfers id id'

theorem expireTransfer_byId (id : Nat) : (s.expireTransfer id).2.byId = s.byId := by
  unfold expireTransfer
  split <;> rfl

theorem acquire_eq_ok (hacquire : s.acquire connectionId splintId incarnation grantId = (.ok lease, s')) :
    lease = ⟨s.nextId, connectionId, splintId, incarnation, grantId⟩ ∧ s' = s.addLease lease := by
  unfold acquire at hacquire
  split at hacquire
  · cases hacquire
  · split at hacquire
    · cases hacquire
    · split at hacquire
      · cases hacquire
      · cases hacquire
        exact ⟨rfl, rfl⟩

/-- A decision is refused, takes the transfer away, or hands the lease over as well. -/
theorem decideTransfer_cases :
    let taken := (s.expireTransfer transferId).2
    (∃ e, s.decideTransfer connectionId transferId decision = (.error e, s)) ∨
    ∃ transfer, s.transfers.get? transferId = some transfer ∧ transfer.ownerConnectionId = connectionId ∧
      ((∃ outcome, outcome ≠ .granted ∧
        s.decideTransfer connectionId transferId decision = (.ok (transfer, outcome, none), taken)) ∨
      decision = .accept ∧ ∃ old, taken.current transfer.splintId = some old ∧
        old.connectionId = transfer.ownerConnectionId ∧ old.incarnation = transfer.incarnation ∧
        s.decideTransfer connectionId transferId decision =
          let moved := taken.handOver old transfer.requesterConnectionId transfer.splintId transfer.incarnation
            transfer.grantId
          (moved.1.map fun lease => (transfer, .granted, some lease), moved.2)) := by
  intro taken
  rw [decideTransfer, takeTransfer]
  cases hget : s.transfers.get? transferId with
  | none => exact .inl ⟨_, rfl⟩
  | some transfer =>
    dsimp only
    by_cases howner : transfer.ownerConnectionId = connectionId
    · rw [if_neg (not_not.mpr howner)]
      refine .inr ⟨transfer, rfl, howner, ?_⟩
      dsimp only
      cases decision with
      | deny => exact .inl ⟨.denied, by decide, rfl⟩
      | accept =>
        rw [if_neg (by decide)]
        cases hcurrent : taken.current transfer.splintId with
        | none => exact .inl ⟨.cancelled, by decide, rfl⟩
        | some old =>
          dsimp only
          split
          · exact .inl ⟨.cancelled, by decide, rfl⟩
          · rename_i hmatch
            obtain ⟨hconnection, hrest⟩ := not_or.mp hmatch
            refine .inr ⟨rfl, old, rfl, not_not.mp hconnection, not_not.mp (not_or.mp hrest).1, ?_⟩
            cases taken.handOver old transfer.requesterConnectionId transfer.splintId transfer.incarnation
              transfer.grantId with
            | mk result moved => cases result <;> rfl
    · rw [if_pos howner]
      exact .inl ⟨_, rfl⟩

namespace MapsAgree

variable (h : MapsAgree s)

include h

/-- The current lease of a Splint is on file under its own id. -/
theorem current (hcurrent : s.current splintId = some lease) :
    s.byId.get? lease.id = some lease ∧ lease.splintId = splintId := by
  obtain ⟨id, hid, hlease⟩ := bind_eq_some_iff.mp hcurrent
  obtain ⟨found, hfound, hsplint⟩ := (h.bySplint splintId id).mp hid
  rw [hlease] at hfound
  cases hfound
  exact ⟨(h.leaseId id lease hlease).1 ▸ hlease, hsplint⟩

theorem currentAt (hcurrent : s.currentAt splintId incarnation = some lease) :
    s.byId.get? lease.id = some lease ∧ lease.splintId = splintId ∧ lease.incarnation = incarnation := by
  obtain ⟨hcurrent, hincarnation⟩ := filter_eq_some_iff.mp hcurrent
  obtain ⟨hlease, hsplint⟩ := h.current hcurrent
  exact ⟨hlease, hsplint, of_decide_eq_true hincarnation⟩

/-! ## The four changes -/

theorem addLease (hid : lease.id = s.nextId) (hsplint : s.bySplint.get? lease.splintId = none)
    (hconnection : s.byConnection.get? lease.connectionId = none) : Good s (s.addLease lease) := by
  have hfresh : s.byId.get? lease.id = none :=
    eq_none_iff_forall_ne_some.mpr fun other hget => absurd (h.leaseId _ other hget).2 (by omega)
  refine ⟨{ leaseId := ?leaseId, bySplint := ?bySplint, byConnection := ?byConnection,
            transferId := h.transferId, transferBySplint := h.transferBySplint }, ?retains⟩
  case leaseId =>
    exact forall_get?_insert ⟨rfl, show lease.id < s.nextId + 1 by omega⟩ fun id other hget =>
      (h.leaseId id other hget).imp_right lt_succ_of_lt
  case bySplint => exact h.bySplint.insert hfresh hsplint
  case byConnection => exact h.byConnection.insert hfresh hconnection
  case retains =>
    refine ⟨le_succ _, fun id hlt => .inl ?_⟩
    have hne : id ≠ lease.id := by omega
    rw [ControllerState.addLease, get?_insert, if_neg hne]

theorem release (id : Nat) : Good s (s.release id).2 := by
  have hretains : Retains s (s.release id).2 := by
    refine ⟨le_of_eq (release_nextId id).symm, fun id' _ => ?_⟩
    rw [release_byId]
    split
    · exact .inr rfl
    · exact .inl rfl
  refine ⟨?_, hretains⟩
  cases hget : s.byId.get? id with
  | none =>
    rw [release_eq_none hget]
    exact h
  | some lease =>
    unfold ControllerState.release
    rw [hget]
    refine { leaseId := ?leaseId, bySplint := h.bySplint.erase hget,
             byConnection := h.byConnection.erase hget,
             transferId := h.transferId, transferBySplint := h.transferBySplint }
    exact fun id' other hother => h.leaseId id' other (get?_of_erase hother)

theorem expireTransfer (id : Nat) : Good s (s.expireTransfer id).2 := by
  unfold ControllerState.expireTransfer
  split
  case h_1 => exact .refl h
  case h_2 transfer hget =>
    refine ⟨{ leaseId := h.leaseId, bySplint := h.bySplint, byConnection := h.byConnection,
              transferId := ?transferId, transferBySplint := h.transferBySplint.erase hget },
      le_refl _, fun _ _ => .inl rfl⟩
    exact fun id' other hother => h.transferId id' other (get?_of_erase hother)

/-! ## The operations -/

theorem acquire : Good s (s.acquire connectionId splintId incarnation grantId).2 := by
  fun_cases acquire with
  | case4 hconnection hsplint =>
    exact h.addLease rfl (get?_eq_none_of_not_contains hsplint) (get?_eq_none_of_not_contains hconnection)
  | _ => exact .refl h

theorem requestTransfer : Good s (s.requestTransfer connectionId splintId incarnation grantId).2 := by
  fun_cases requestTransfer with
  | case4 hfree owner howner next hnext =>
    obtain ⟨-, rfl⟩ := checkedSucc_eq_some.mp hnext
    have hsplint : s.transferBySplint.get? splintId = none := by
      apply get?_eq_none_of_not_contains
      intro hcontains
      exact hfree (by rw [hcontains, Bool.or_true])
    have hfresh : s.transfers.get? s.nextTransferId = none :=
      eq_none_iff_forall_ne_some.mpr fun other hget => lt_irrefl _ (h.transferId _ other hget).2
    refine ⟨{ leaseId := h.leaseId, bySplint := h.bySplint, byConnection := h.byConnection,
              transferId := ?transferId,
              transferBySplint := Indexes.insert h.transferBySplint hfresh hsplint },
      le_refl _, fun _ _ => .inl rfl⟩
    exact forall_get?_insert ⟨rfl, lt_succ_self _⟩ fun id other hother =>
      (h.transferId id other hother).imp_right lt_succ_of_lt
  | _ => exact .refl h

theorem handOver (old : ControllerLease) : Good s (s.handOver old connectionId splintId incarnation grantId).2 := by
  unfold ControllerState.handOver
  split
  · exact .refl h
  · have hreleased := h.release old.id
    exact hreleased.trans (hreleased.maps.acquire)

theorem decideTransfer : Good s (s.decideTransfer connectionId transferId decision).2 := by
  have htaken := h.expireTransfer transferId
  obtain ⟨e, heq⟩ | ⟨transfer, -, -, ⟨outcome, -, heq⟩ | ⟨-, old, -, -, -, heq⟩⟩ :=
    decideTransfer_cases (s := s)
  all_goals rw [heq]
  · exact .refl h
  · exact htaken
  · exact htaken.trans (htaken.maps.handOver _)

theorem releaseAll (ids : List Nat) : Good s (s.releaseAll ids).2 := by
  induction ids generalizing s with
  | nil => exact .refl h
  | cons id ids ih =>
    have hfirst := h.release id
    exact hfirst.trans (ih hfirst.maps)

theorem expireAll (ids : List Nat) : Good s (s.expireAll ids).2 := by
  induction ids generalizing s with
  | nil => exact .refl h
  | cons id ids ih =>
    have hfirst := h.expireTransfer id
    exact hfirst.trans (ih hfirst.maps)

end MapsAgree

/-! ## Runs -/

/-- A call of the daemon on the controller state. -/
inductive Call where
  | acquire (connectionId : Nat) (splintId : SplintId) (incarnation : Nat) (grantId : Option Nat)
  | authorize (connectionId controllerId : Nat) (splintId : SplintId) (incarnation : Nat)
  | status (connectionId : Nat) (splintId : SplintId) (incarnation : Nat)
  | release (controllerId : Nat)
  | releaseOwned (connectionId controllerId : Nat)
  | releaseConnection (connectionId : Nat)
  | requestTransfer (requesterConnectionId : Nat) (splintId : SplintId) (incarnation : Nat)
      (grantId : Option Nat)
  | expireTransfer (transferId : Nat)
  | decideTransfer (connectionId transferId : Nat) (decision : ControlTransferDecision)
  | forceTransfer (requesterConnectionId : Nat) (splintId : SplintId) (incarnation : Nat)
      (grantId : Option Nat)
  | cancelConnectionTransfers (connectionId : Nat)
  | releaseGrant (grantId : Nat)
  | releaseConnections (connectionIds : List Nat)
  | cancelIdentityTransfer (splintId : SplintId) (incarnation : Nat)
  | releaseIdentity (splintId : SplintId) (incarnation : Nat)

def step : Call → ControllerState → ControllerState
  | .acquire connectionId splintId incarnation grantId, s => (s.acquire connectionId splintId incarnation grantId).2
  | .authorize .., s | .status .., s => s
  | .release controllerId, s => (s.release controllerId).2
  | .releaseOwned connectionId controllerId, s => (s.releaseOwned connectionId controllerId).2
  | .releaseConnection connectionId, s => (s.releaseConnection connectionId).2
  | .requestTransfer requesterConnectionId splintId incarnation grantId, s =>
    (s.requestTransfer requesterConnectionId splintId incarnation grantId).2
  | .expireTransfer transferId, s => (s.expireTransfer transferId).2
  | .decideTransfer connectionId transferId decision, s => (s.decideTransfer connectionId transferId decision).2
  | .forceTransfer requesterConnectionId splintId incarnation grantId, s =>
    (s.forceTransfer requesterConnectionId splintId incarnation grantId).2
  | .cancelConnectionTransfers connectionId, s => (s.cancelConnectionTransfers connectionId).2
  | .releaseGrant grantId, s => (s.releaseGrant grantId).2
  | .releaseConnections connectionIds, s => (s.releaseConnections connectionIds).2
  | .cancelIdentityTransfer splintId incarnation, s => (s.cancelIdentityTransfer splintId incarnation).2
  | .releaseIdentity splintId incarnation, s => (s.releaseIdentity splintId incarnation).2

def run (calls : List Call) (s : ControllerState) : ControllerState :=
  calls.foldl (fun s call => step call s) s

/-- The leases a releasing call returns. -/
def released : Call → ControllerState → List ControllerLease
  | .release controllerId, s => (s.release controllerId).1.toList
  | .releaseOwned connectionId controllerId, s => (s.releaseOwned connectionId controllerId).1.toList
  | .releaseConnection connectionId, s => (s.releaseConnection connectionId).1.toList
  | .releaseGrant grantId, s => (s.releaseGrant grantId).1.1
  | .releaseConnections connectionIds, s => (s.releaseConnections connectionIds).1.1
  | .releaseIdentity splintId incarnation, s => (s.releaseIdentity splintId incarnation).1.toList
  | _, _ => []

/-! ## What a transfer and a revocation leave -/

/-- `old` is gone, `lease` is there, and every other id has the lease it had. -/
def Moved (old lease : ControllerLease) (s s' : ControllerState) : Prop :=
  s'.byId.get? old.id = none ∧ s'.byId.get? lease.id = some lease ∧
    ∀ id, id ≠ old.id → id ≠ lease.id → s'.byId.get? id = s.byId.get? id

/-- The transfer was asked for, and moves the lease of the connection that decides it to the
connection that asked. -/
def Grants (connectionId transferId : Nat) (decision : ControlTransferDecision) (transfer : PendingControlTransfer)
    (granted : Option ControllerLease) (s s' : ControllerState) : Prop :=
    decision = .accept ∧ s.transfers.get? transferId = some transfer ∧ ∃ old lease, granted = some lease ∧
      s.byId.get? old.id = some old ∧ old.splintId = transfer.splintId ∧
      old.connectionId = connectionId ∧ connectionId = transfer.ownerConnectionId ∧
      old.incarnation = transfer.incarnation ∧ lease.connectionId = transfer.requesterConnectionId ∧
      lease.splintId = transfer.splintId ∧ lease.incarnation = transfer.incarnation ∧
      lease.grantId = transfer.grantId ∧ Moved old lease s s'

/-- Each Splint and each connection has at most one lease. -/
structure Exclusive (s : ControllerState) : Prop where
  splint : ∀ id id' lease lease', s.byId.get? id = some lease → s.byId.get? id' = some lease' →
    lease.splintId = lease'.splintId → id = id'
  connection : ∀ id id' lease lease', s.byId.get? id = some lease →
    s.byId.get? id' = some lease' → lease.connectionId = lease'.connectionId → id = id'

/-- Neither a lease nor a pending transfer names the grant. -/
def Unreferenced (grantId : Nat) (s : ControllerState) : Prop :=
  (∀ id lease, s.byId.get? id = some lease → lease.grantId ≠ some grantId) ∧
    ∀ id transfer, s.transfers.get? id = some transfer → transfer.grantId ≠ some grantId

theorem releaseAll_byId (ids : List Nat) (id : Nat) :
    (s.releaseAll ids).2.byId.get? id = if id ∈ ids then none else s.byId.get? id := by
  induction ids generalizing s with
  | nil => rfl
  | cons first ids ih =>
    show ((s.release first).2.releaseAll ids).2.byId.get? id = _
    rw [ih, release_byId]
    by_cases hid : id = first <;> by_cases hmem : id ∈ ids <;> simp [hid, hmem]

theorem releaseAll_transfers (ids : List Nat) : (s.releaseAll ids).2.transfers = s.transfers := by
  induction ids generalizing s with
  | nil => rfl
  | cons first ids ih =>
    show ((s.release first).2.releaseAll ids).2.transfers = _
    rw [ih, release_transfers]

theorem expireAll_transfers (ids : List Nat) (id : Nat) :
    (s.expireAll ids).2.transfers.get? id = if id ∈ ids then none else s.transfers.get? id := by
  induction ids generalizing s with
  | nil => rfl
  | cons first ids ih =>
    show ((s.expireTransfer first).2.expireAll ids).2.transfers.get? id = _
    rw [ih, expireTransfer_transfers]
    by_cases hid : id = first <;> by_cases hmem : id ∈ ids <;> simp [hid, hmem]

theorem expireAll_byId (ids : List Nat) : (s.expireAll ids).2.byId = s.byId := by
  induction ids generalizing s with
  | nil => rfl
  | cons first ids ih =>
    show ((s.expireTransfer first).2.expireAll ids).2.byId = _
    rw [ih, expireTransfer_byId]

theorem releaseAll_single (id : Nat) : s.releaseAll [id] = ((s.release id).1.toList, (s.release id).2) := by
  simp [releaseAll]

/-- What a call returns it releases one by one. -/
theorem releases_all {call : Call} (hlease : lease ∈ released call s) : ∃ ids,
    released call s = (s.releaseAll ids).1 ∧ (step call s).byId = (s.releaseAll ids).2.byId := by
  cases call with
  | release controllerId =>
    exact ⟨[controllerId], by rw [releaseAll_single, released], by rw [releaseAll_single, step]⟩
  | releaseOwned c controllerId =>
    rw [released, step]
    fun_cases releaseOwned with
    | case1 => exact ⟨[controllerId], by rw [releaseAll_single], by rw [releaseAll_single]⟩
    | case2 => exact ⟨[], rfl, rfl⟩
  | releaseConnection c =>
    rw [released, step]
    fun_cases releaseConnection with
    | case1 => exact ⟨[], rfl, rfl⟩
    | case2 id => exact ⟨[id], by rw [releaseAll_single], by rw [releaseAll_single]⟩
  | releaseIdentity splintId incarnation =>
    rw [released, step]
    fun_cases releaseIdentity with
    | case1 => exact ⟨[], rfl, rfl⟩
    | case2 current => exact ⟨[current.id], by rw [releaseAll_single], by rw [releaseAll_single]⟩
  | releaseGrant | releaseConnections => exact ⟨_, rfl, expireAll_byId _⟩
  | _ => cases hlease

namespace MapsAgree

variable (h : MapsAgree s)

include h

theorem step (call : Call) : Good s (ControllerState.step call s) := by
  cases call with
  | acquire => exact h.acquire
  | authorize | status => exact .refl h
  | release => exact h.release ..
  | releaseOwned =>
    dsimp only [ControllerState.step, releaseOwned]
    split
    · exact h.release _
    · exact .refl h
  | releaseConnection | releaseIdentity =>
    dsimp only [ControllerState.step, releaseConnection, releaseIdentity]
    split
    · exact .refl h
    · exact h.release _
  | requestTransfer => exact h.requestTransfer
  | expireTransfer => exact h.expireTransfer ..
  | decideTransfer => exact h.decideTransfer
  | forceTransfer =>
    dsimp only [ControllerState.step]
    fun_cases forceTransfer with
    | case3 => exact h.handOver _
    | _ => exact .refl h
  | cancelConnectionTransfers => exact h.expireAll _
  | releaseGrant | releaseConnections =>
    have hleases := h.releaseAll
    exact (hleases _).trans ((hleases _).maps.expireAll _)
  | cancelIdentityTransfer =>
    dsimp only [ControllerState.step]
    fun_cases cancelIdentityTransfer with
    | case2 => exact h.expireTransfer _
    | _ => exact .refl h

theorem run (calls : List Call) : Good s (ControllerState.run calls s) := by
  induction calls generalizing s with
  | nil => exact .refl h
  | cons call calls ih => exact (h.step call).trans (ih (h.step call).maps)

/-- A lease that left its id does not come back to it, nor does another one. -/
theorem freed (hlease : s.byId.get? id = some lease) {calls : List Call}
    (hgone : (ControllerState.run calls s).byId.get? id ≠ some lease) (more : List Call) :
    (ControllerState.run (calls ++ more) s).byId.get? id = none := by
  have hfirst := h.run calls
  have hid : id < s.nextId := (h.leaseId id lease hlease).2
  have hnone : (ControllerState.run calls s).byId.get? id = none := by
    cases hfirst.retains.lease id hid with
    | inl hsame => exact absurd (hsame.trans hlease) hgone
    | inr hnone => exact hnone
  rw [show ControllerState.run (calls ++ more) s =
    ControllerState.run more (ControllerState.run calls s) from List.foldl_append]
  cases (hfirst.maps.run more).retains.lease id (lt_of_lt_of_le hid hfirst.retains.nextId) with
  | inl hsame => rw [hsame, hnone]
  | inr hnone' => exact hnone'

theorem handOver_eq_ok {old : ControllerLease} (hold : s.byId.get? old.id = some old)
    (hover : s.handOver old connectionId splintId incarnation grantId = (.ok lease, s')) :
    lease = ⟨s.nextId, connectionId, splintId, incarnation, grantId⟩ ∧ Moved old lease s s' := by
  unfold ControllerState.handOver at hover
  split at hover
  · cases hover
  · obtain ⟨hlease, rfl⟩ := acquire_eq_ok hover
    rw [release_nextId] at hlease
    have hlt : old.id < s.nextId := (h.leaseId _ old hold).2
    have hid : lease.id = s.nextId := by rw [hlease]
    refine ⟨hlease, ?_, ?_, ?_⟩
    · rw [ControllerState.addLease, get?_insert, if_neg (by omega), release_byId, if_pos rfl]
    · exact get?_insert_self ..
    · intro id hne hne'
      rw [ControllerState.addLease, get?_insert, if_neg hne', release_byId, if_neg hne]

theorem decideTransfer_granted
    (hdecide : s.decideTransfer connectionId transferId decision = (.ok (transfer, .granted, granted), s')) :
    Grants connectionId transferId decision transfer granted s s' := by
  obtain ⟨e, heq⟩ | ⟨found, hpending, howner, ⟨outcome, hne, heq⟩ | ⟨haccept, old, hold, hconnection,
    hincarnation, heq⟩⟩ := decideTransfer_cases (s := s)
  all_goals rw [heq] at hdecide
  · cases hdecide
  · cases hdecide
    exact absurd rfl hne
  · have hmaps := (h.expireTransfer transferId).maps
    obtain ⟨hold', hsplint⟩ := hmaps.current hold
    cases hover : (s.expireTransfer transferId).2.handOver old found.requesterConnectionId found.splintId
      found.incarnation found.grantId with
    | mk result moved =>
      rw [hover] at hdecide
      cases result with
      | error e => cases hdecide
      | ok lease =>
        cases hdecide
        obtain ⟨hlease, hgone, hthere, hother⟩ := hmaps.handOver_eq_ok hold' hover
        rw [expireTransfer_byId] at hold' hother
        refine ⟨haccept, hpending, old, lease, rfl, hold', hsplint, hconnection.trans howner, howner.symm,
          hincarnation, ?_, ?_, ?_, ?_, hgone, hthere, hother⟩
        all_goals rw [hlease]

theorem mem_leaseIds {p : ControllerLease → Bool}
    (hlease : s.byId.get? id = some lease) : id ∈ s.leaseIds p ↔ p lease = true := by
  simp only [leaseIds, List.mem_map, List.mem_filter, mem_values]
  constructor
  · rintro ⟨found, ⟨⟨id', hfound⟩, hp⟩, rfl⟩
    rw [(h.leaseId id' found hfound).1, hfound] at hlease
    cases hlease
    exact hp
  · exact fun hp => ⟨lease, ⟨⟨id, hlease⟩, hp⟩, (h.leaseId id lease hlease).1⟩

theorem mem_transferIds {p : PendingControlTransfer → Bool}
    (hget : s.transfers.get? id = some transfer) (hp : p transfer = true) :
    id ∈ s.transferIds p := by
  rw [← (h.transferId id transfer hget).1]
  exact List.mem_map_of_mem (List.mem_filter.mpr ⟨mem_values.mpr ⟨id, hget⟩, hp⟩)

theorem exclusive : Exclusive s where
  splint := fun _ _ _ _ hlease hlease' heq => h.bySplint.unique hlease hlease' heq
  connection := fun _ _ _ _ hlease hlease' heq => h.byConnection.unique hlease hlease' heq

theorem mem_releaseAll {ids : List Nat} (hlease : lease ∈ (s.releaseAll ids).1) : lease.id ∈ ids := by
  induction ids generalizing s with
  | nil => cases hlease
  | cons first ids ih =>
    rw [ControllerState.releaseAll, List.mem_append, mem_toList, release_fst] at hlease
    obtain hfirst | hrest := hlease
    · exact List.mem_cons.mpr (.inl (h.leaseId _ _ hfirst).1)
    · exact List.mem_cons_of_mem _ (ih (h.release first).maps hrest)

theorem released_gone {call : Call} (hlease : lease ∈ released call s) :
    (ControllerState.step call s).byId.get? lease.id = none := by
  obtain ⟨ids, hreleased, hbyId⟩ := releases_all hlease
  rw [hreleased] at hlease
  rw [hbyId, releaseAll_byId, if_pos (h.mem_releaseAll hlease)]

theorem releaseGrant_unreferenced (grantId : Nat) : Unreferenced grantId (s.releaseGrant grantId).2 := by
  constructor
  · intro id lease hlease hgrant
    rw [releaseGrant, expireAll_byId, releaseAll_byId] at hlease
    split at hlease
    · cases hlease
    · rename_i hnot
      exact hnot ((h.mem_leaseIds hlease).mpr (decide_eq_true hgrant))
  · intro id transfer htransfer hgrant
    rw [releaseGrant, expireAll_transfers] at htransfer
    split at htransfer
    · cases htransfer
    · rename_i hnot
      exact hnot ((h.releaseAll _).maps.mem_transferIds htransfer (decide_eq_true hgrant))

end MapsAgree

/-- In every state the daemon can reach the leases are exclusive and the maps agree; a release takes
the leases it returns from their ids, an accepted or a forced transfer moves the lease from its
holder to the requester at the same incarnation, an id that lost its lease authorizes nothing from
then on, and a revoked grant is referred to no more. -/
theorem control_is_exclusive (calls : List Call) :
    let s := run calls default
    Exclusive s ∧ MapsAgree s ∧ (∀ id lease later more, s.byId.get? id = some lease →
      (run later s).byId.get? id ≠ some lease → ∀ connectionId splintId incarnation,
        (run (later ++ more) s).authorize connectionId id splintId incarnation = .error notOwned) ∧
    (∀ connectionId transferId decision transfer granted s',
      s.decideTransfer connectionId transferId decision = (.ok (transfer, .granted, granted), s') →
      Grants connectionId transferId decision transfer granted s s') ∧
    (∀ grantId, Unreferenced grantId (s.releaseGrant grantId).2) ∧
    (∀ call lease, lease ∈ released call s → (step call s).byId.get? lease.id = none) ∧
    ∀ connectionId splintId incarnation grantId lease s',
      s.forceTransfer connectionId splintId incarnation grantId = (.ok lease, s') →
      lease = ⟨s.nextId, connectionId, splintId, incarnation, grantId⟩ ∧ ∃ old, s.byId.get? old.id = some old ∧
        old.splintId = splintId ∧ old.incarnation = incarnation ∧ Moved old lease s s' := by
  intro s
  have hmaps : MapsAgree s := (mapsAgree_default.run calls).maps
  refine ⟨hmaps.exclusive, hmaps, ?_, ?_, hmaps.releaseGrant_unreferenced, ?_, ?_⟩
  · intro id lease later more hlease hgone connectionId splintId incarnation
    rw [authorize, hmaps.freed hlease hgone more]
  · intro connectionId transferId decision transfer granted s' hdecide
    exact hmaps.decideTransfer_granted hdecide
  · exact fun call lease => hmaps.released_gone
  · intro connectionId splintId incarnation grantId lease s'
    fun_cases forceTransfer with
    | case3 hfree old hcurrent =>
      intro hover
      obtain ⟨hold, hsplint, hincarnation⟩ := hmaps.currentAt hcurrent
      obtain ⟨hlease, hmoved⟩ := hmaps.handOver_eq_ok hold hover
      exact ⟨hlease, old, hold, hsplint, hincarnation, hmoved⟩
    | _ => exact nofun

/-- Connection 20 is handed the lease of connection 10; the old id then fails for both. -/
theorem accepted_transfer_frees_id :
    let calls := [.acquire 10 ⟨7⟩ 3 none, .requestTransfer 20 ⟨7⟩ 3 (some 5)]
    let s := run calls default
    (s.decideTransfer 10 1 .accept).1 = .ok (⟨1, 10, 20, ⟨7⟩, 3, some 5⟩, .granted, some ⟨2, 20, ⟨7⟩, 3, some 5⟩) ∧
      (run [.decideTransfer 10 1 .accept, .releaseGrant 5] s).authorize 10 1 ⟨7⟩ 3 = .error notOwned := by
  refine ⟨by decide, ?_⟩
  exact (control_is_exclusive [.acquire 10 ⟨7⟩ 3 none, .requestTransfer 20 ⟨7⟩ 3 (some 5)]).2.2.1
    1 ⟨1, 10, ⟨7⟩, 3, none⟩ [.decideTransfer 10 1 .accept] [.releaseGrant 5] (by decide)
    (by decide) 10 ⟨7⟩ 3

end Splinterm.Daemon.ControllerState
