import Splinterm.Lib.Run
import Splinterm.Daemon.ControllerRun

/-!
# Pending transfers and the leases they are for

A pending transfer names the connection that held the lease when it was asked for. Disconnecting
and revoking a connection end the transfers with the leases; the other ways a lease is taken leave
a transfer behind that nobody but its former owner can decide.
-/

namespace Splinterm.Daemon.ControllerState

open Core Lib OrdMap ControllerState

/-- The owner the transfer names holds the lease of its Splint at its incarnation. -/
def Held (s : ControllerState) (transfer : PendingControlTransfer) : Prop :=
  ∃ lease, s.byId.get? lease.id = some lease ∧ lease.splintId = transfer.splintId ∧
    lease.incarnation = transfer.incarnation ∧ lease.connectionId = transfer.ownerConnectionId

/-- Every pending transfer but those in `spared` is addressed to the holder of its lease. -/
def Linked (spared : PendingControlTransfer → Prop) (s : ControllerState) : Prop :=
  ∀ id transfer, s.transfers.get? id = some transfer → spared transfer ∨ s.Held transfer

/-- The call takes the lease away from its connection and leaves transfers for its Splint alone. -/
def Takes (s : ControllerState) (lease : ControllerLease) : Call → Prop
  | .release controllerId => lease.id = controllerId
  | .releaseOwned connectionId controllerId =>
    lease.id = controllerId ∧ s.byConnection.get? connectionId = some controllerId
  | .releaseConnection connectionId => s.byConnection.get? connectionId = some lease.id
  | .forceTransfer requesterConnectionId splintId incarnation _ =>
    s.byConnection.contains requesterConnectionId = false ∧ s.nextId < u64Max ∧
      s.currentAt splintId incarnation = some lease
  | .releaseGrant grantId => lease.grantId = some grantId
  | .releaseIdentity splintId incarnation => s.currentAt splintId incarnation = some lease
  | _ => False

/-- No transfer is pending for a lease the call takes, but for one asked for under a grant that is
revoked with the lease. -/
def KeepsTransfers (s : ControllerState) (call : Call) : Prop :=
  ∀ lease, s.byId.get? lease.id = some lease → s.Takes lease call →
    ∀ id transfer, s.transfers.get? id = some transfer → transfer.splintId = lease.splintId →
      ∃ grantId, call = .releaseGrant grantId ∧ transfer.grantId = some grantId

variable {s : ControllerState} {spared : PendingControlTransfer → Prop} {id : Nat}

theorem Linked.mono {spared' : PendingControlTransfer → Prop} (h : Linked spared s)
    (hspared : ∀ transfer, spared transfer → spared' transfer) : Linked spared' s :=
  fun id transfer hget => (h id transfer hget).imp_left (hspared transfer)

/-- Leases whose Splints nobody has asked for can go. -/
theorem Linked.releaseAll (h : Linked spared s) (ids : List Nat)
    (hfree : ∀ lease, s.byId.get? lease.id = some lease → lease.id ∈ ids → ∀ id transfer,
      s.transfers.get? id = some transfer → transfer.splintId = lease.splintId → spared transfer) :
    Linked spared (s.releaseAll ids).2 := by
  intro id transfer hget
  rw [releaseAll_transfers] at hget
  obtain hspared | ⟨lease, hlease, hsplint, hrest⟩ := h id transfer hget
  · exact .inl hspared
  · by_cases hmem : lease.id ∈ ids
    · exact .inl (hfree lease hlease hmem id transfer hget hsplint.symm)
    · exact .inr ⟨lease, by rw [releaseAll_byId, if_neg hmem, hlease], hsplint, hrest⟩

theorem Linked.expireAll (h : Linked spared s) (ids : List Nat)
    (hids : ∀ id transfer, s.transfers.get? id = some transfer → spared transfer → id ∈ ids) :
    Linked (fun _ => False) (s.expireAll ids).2 := by
  intro id transfer hget
  rw [expireAll_transfers] at hget
  split at hget
  · cases hget
  · rename_i hnot
    right
    rw [Held, expireAll_byId]
    exact (h id transfer hget).resolve_left fun hspared => hnot (hids id transfer hget hspared)

variable {connectionId incarnation : Nat} {splintId : SplintId} {grantId : Option Nat}

theorem Linked.acquire (hmaps : MapsAgree s) (h : Linked spared s) :
    Linked spared (s.acquire connectionId splintId incarnation grantId).2 := by
  fun_cases ControllerState.acquire connectionId splintId incarnation grantId s with
  | case4 =>
    intro id transfer hget
    refine (h id transfer hget).imp_right ?_
    rintro ⟨lease, hlease, hrest⟩
    refine ⟨lease, ?_, hrest⟩
    have hlt := (hmaps.leaseId _ lease hlease).2
    exact (get?_insert ..).trans ((if_neg hlt.ne).trans hlease)
  | _ => exact h

theorem Linked.handOver (hmaps : MapsAgree s) (h : Linked spared s) {old : ControllerLease}
    (hfree : s.nextId < u64Max → ∀ lease, s.byId.get? lease.id = some lease → lease.id = old.id →
      ∀ id transfer, s.transfers.get? id = some transfer → transfer.splintId = lease.splintId → spared transfer) :
    Linked spared (s.handOver old connectionId splintId incarnation grantId).2 := by
  rw [ControllerState.handOver]
  split
  · exact h
  · rename_i hnext
    refine Linked.acquire (hmaps.release old.id).maps (h.releaseAll [old.id] fun lease hlease hmem => ?_)
    exact hfree (checkedSucc_eq_some.mp hnext).1 lease hlease (List.mem_singleton.mp hmem)

theorem Linked.requestTransfer (hmaps : MapsAgree s) (h : Linked (fun _ => False) s) :
    Linked (fun _ => False) (s.requestTransfer connectionId splintId incarnation grantId).2 := by
  fun_cases ControllerState.requestTransfer with
  | case4 _ owner howner =>
    obtain ⟨hlease, hsplint, hincarnation⟩ := hmaps.currentAt howner
    exact forall_get?_insert (.inr ⟨owner, hlease, hsplint, hincarnation, rfl⟩) h
  | _ => exact h

/-- Nobody else asks for a Splint whose transfer is being decided. -/
theorem Linked.decideTransfer (hmaps : MapsAgree s) (h : Linked (fun _ => False) s) (transferId : Nat)
    (decision : ControlTransferDecision) :
    Linked (fun _ => False) (s.decideTransfer connectionId transferId decision).2 := by
  have htaken : Linked (fun _ => False) (s.expireTransfer transferId).2 :=
    h.expireAll [transferId] fun _ _ _ => False.elim
  have hmaps' := (hmaps.expireTransfer transferId).maps
  obtain ⟨e, heq⟩ | ⟨transfer, hget, -, ⟨outcome, -, heq⟩ | ⟨-, old, hold, -, -, heq⟩⟩ :=
    decideTransfer_cases (s := s)
  all_goals rw [heq]
  · exact h
  · exact htaken
  · refine htaken.handOver hmaps' fun _ lease hlease hid id other hother hsplint => ?_
    obtain ⟨hold, hsame⟩ := hmaps'.current hold
    rw [hid, hold] at hlease
    cases hlease
    rw [expireTransfer_transfers] at hother
    split at hother
    · cases hother
    · rename_i hne
      exact hne (hmaps.transferBySplint.unique hother hget (hsplint.trans hsame))

variable {call : Call}

/-- A lease the call takes has no transfer pending. -/
theorem KeepsTransfers.free (hkeep : s.KeepsTransfers call) (hcall : ∀ grantId, call ≠ .releaseGrant grantId)
    {lease : ControllerLease} (hlease : s.byId.get? lease.id = some lease) (htakes : s.Takes lease call) {id : Nat}
    {transfer : PendingControlTransfer} (hget : s.transfers.get? id = some transfer) :
    transfer.splintId ≠ lease.splintId := by
  intro hsplint
  obtain ⟨grantId, heq, -⟩ := hkeep lease hlease htakes id transfer hget hsplint
  exact hcall grantId heq

theorem KeepsTransfers.release (hkeep : s.KeepsTransfers call) (hcall : ∀ grantId, call ≠ .releaseGrant grantId)
    (h : Linked (fun _ => False) s)
    (htakes : ∀ lease, s.byId.get? lease.id = some lease → lease.id = id → s.Takes lease call) :
    Linked (fun _ => False) (s.release id).2 := by
  refine h.releaseAll [id] fun lease hlease hmem _ _ hget => ?_
  exact hkeep.free hcall hlease (htakes lease hlease (List.mem_singleton.mp hmem)) hget

theorem Linked.step (hmaps : MapsAgree s) (h : Linked (fun _ => False) s) (hkeep : s.KeepsTransfers call) :
    Linked (fun _ => False) (step call s) := by
  cases call with
  | acquire => exact Linked.acquire hmaps h
  | authorize | status => exact h
  | release => exact hkeep.release (by rintro _ ⟨⟩) h fun _ _ hid => hid
  | releaseOwned =>
    dsimp only [step, releaseOwned]
    split
    · rename_i howned
      exact hkeep.release (by rintro _ ⟨⟩) h fun _ _ hid => ⟨hid, howned⟩
    · exact h
  | releaseConnection =>
    dsimp only [step, releaseConnection]
    split
    · exact h
    · rename_i howned
      exact hkeep.release (by rintro _ ⟨⟩) h fun _ _ hid => howned.trans (congrArg some hid.symm)
  | releaseIdentity =>
    dsimp only [step, releaseIdentity]
    split
    · exact h
    · rename_i lease hcurrent
      refine hkeep.release (by rintro _ ⟨⟩) h fun found hfound hid => ?_
      rw [hid, (hmaps.currentAt hcurrent).1] at hfound
      cases hfound
      exact hcurrent
  | requestTransfer => exact Linked.requestTransfer hmaps h
  | expireTransfer => exact h.expireAll [_] fun _ _ _ => False.elim
  | decideTransfer => exact h.decideTransfer hmaps _ _
  | forceTransfer =>
    dsimp only [step]
    fun_cases forceTransfer with
    | case3 hrequester old hcurrent =>
      refine h.handOver hmaps fun hnext lease hlease hid _ _ hget => ?_
      rw [hid, (hmaps.currentAt hcurrent).1] at hlease
      cases hlease
      exact hkeep.free (by rintro _ ⟨⟩) (hmaps.currentAt hcurrent).1
        ⟨Bool.eq_false_of_not_eq_true hrequester, hnext, hcurrent⟩ hget
    | _ => exact h
  | cancelConnectionTransfers => exact h.expireAll _ fun _ _ _ => False.elim
  | releaseGrant grantId =>
    have hreleased : Linked (fun transfer => transfer.grantId = some grantId)
        (s.releaseAll (s.leaseIds fun lease => lease.grantId = some grantId)).2 := by
      refine (h.mono fun _ => False.elim).releaseAll _ fun lease hlease hmem id transfer hget hsplint => ?_
      have hgrant := of_decide_eq_true ((hmaps.mem_leaseIds hlease).mp hmem)
      obtain ⟨_, ⟨⟩, hgrant⟩ := hkeep lease hlease hgrant id transfer hget hsplint
      exact hgrant
    exact hreleased.expireAll _ fun id transfer hget hgrant =>
      (hmaps.releaseAll _).maps.mem_transferIds hget (decide_eq_true hgrant)
  | releaseConnections connectionIds =>
    have hreleased : Linked (fun transfer => transfer.ownerConnectionId ∈ connectionIds) (s.releaseAll
        ((s.leaseIds fun lease => lease.connectionId ∈ connectionIds).mergeSort)).2 := by
      refine (h.mono fun _ => False.elim).releaseAll _ fun lease hlease hmem id transfer hget hsplint => ?_
      -- the transfer is addressed to the connection that loses its lease
      obtain ⟨held, hheld, hsplint', -, howner⟩ := (h id transfer hget).resolve_left not_false
      have hid := hmaps.bySplint.unique hheld hlease (hsplint'.trans hsplint)
      rw [hid, hlease] at hheld
      cases hheld
      rw [← howner]
      exact of_decide_eq_true ((hmaps.mem_leaseIds hlease).mp (List.mem_mergeSort.mp hmem))
    exact hreleased.expireAll _ fun id transfer hget howner => List.mem_mergeSort.mpr
      ((hmaps.releaseAll _).maps.mem_transferIds hget (decide_eq_true (.inl howner)))
  | cancelIdentityTransfer =>
    dsimp only [step]
    fun_cases cancelIdentityTransfer with
    | case2 => exact h.expireAll [_] fun _ _ _ => False.elim
    | _ => exact h

/-- In every run that takes no lease while a transfer is pending for it, every pending transfer is addressed to
the connection that holds the lease, only that connection decides it, and no other transfer stands in the way of
a request. -/
theorem transfers_follow_the_lease (calls : List Call)
    (hkeep : Along (fun s call => step call s) KeepsTransfers calls default) :
    let s := run calls default
    (∀ id transfer, s.transfers.get? id = some transfer → s.Held transfer) ∧
    (∀ connectionId id decision result, (s.decideTransfer connectionId id decision).1 = .ok result →
      s.transfers.get? id = some result.1 ∧ result.1.ownerConnectionId = connectionId ∧ s.Held result.1) ∧
    ∀ splintId id, s.transferBySplint.get? splintId = some id →
      ∃ transfer, s.transfers.get? id = some transfer ∧ transfer.splintId = splintId ∧ s.Held transfer := by
  intro s
  obtain ⟨hmaps, hlinked⟩ : MapsAgree s ∧ Linked (fun _ => False) s := by
    refine hkeep.foldl (fun s => MapsAgree s ∧ Linked (fun _ => False) s) ?_ ⟨mapsAgree_default, ?_⟩
    · intro s call h hcall
      exact ⟨(h.1.step call).maps, h.2.step h.1 hcall⟩
    · rintro _ _ ⟨⟩
  have hheld : ∀ id transfer, s.transfers.get? id = some transfer → s.Held transfer :=
    fun id transfer hget => (hlinked id transfer hget).resolve_left not_false
  refine ⟨hheld, fun connectionId id decision result hok => ?_, fun splintId id hget => ?_⟩
  · have hfound : s.transfers.get? id = some result.1 ∧ result.1.ownerConnectionId = connectionId := by
      obtain ⟨e, heq⟩ | ⟨transfer, hget, howner, ⟨outcome, -, heq⟩ | ⟨-, old, -, -, -, heq⟩⟩ :=
        @decideTransfer_cases s connectionId id decision
      all_goals rw [heq] at hok
      · cases hok
      · cases hok
        exact ⟨hget, howner⟩
      · dsimp only at hok
        generalize (handOver _ _ _ _ _ _).1 = moved at hok
        cases moved with
        | error => cases hok
        | ok lease =>
          cases hok
          exact ⟨hget, howner⟩
    exact ⟨hfound.1, hfound.2, hheld id _ hfound.1⟩
  · obtain ⟨transfer, hget, hsplint⟩ := (hmaps.transferBySplint splintId id).mp hget
    exact ⟨transfer, hget, hsplint, hheld id transfer hget⟩

/-- A lease is asked for: the transfer is addressed to its holder. -/
theorem asked_follows_the_lease :
    let s := run [.acquire 10 ⟨7⟩ 3 none, .requestTransfer 20 ⟨7⟩ 3 none] default
    s.transfers.get? 1 = some ⟨1, 10, 20, ⟨7⟩, 3, none⟩ ∧ s.Held ⟨1, 10, 20, ⟨7⟩, 3, none⟩ :=
  ⟨by decide, (transfers_follow_the_lease [.acquire 10 ⟨7⟩ 3 none, .requestTransfer 20 ⟨7⟩ 3 none]
    ⟨fun _ _ => False.elim, fun _ _ => False.elim, trivial⟩).1 1 _ (by decide)⟩

/-- The holder releases its lease while it is asked for, and another connection acquires one. The old transfer
keeps the new holder from being asked, the new holder may not decide it and the former one still does. -/
theorem released_lease_leaves_its_transfer :
    let s := run [.acquire 10 ⟨7⟩ 3 none, .requestTransfer 20 ⟨7⟩ 3 none, .releaseOwned 10 1,
      .acquire 30 ⟨7⟩ 3 none] default
    s.current ⟨7⟩ = some ⟨2, 30, ⟨7⟩, 3, none⟩ ∧ s.transfers.get? 1 = some ⟨1, 10, 20, ⟨7⟩, 3, none⟩ ∧
    ¬ s.Held ⟨1, 10, 20, ⟨7⟩, 3, none⟩ ∧ (s.decideTransfer 30 1 .deny).1 =
      .error (.new .unauthorized "only the current controller may decide a transfer") ∧
    (s.decideTransfer 10 1 .deny).1 = .ok (⟨1, 10, 20, ⟨7⟩, 3, none⟩, .denied, none) ∧
    (s.requestTransfer 40 ⟨7⟩ 3 none).1 =
      .error (.new .controlTransferUnavailable "control transfer is unavailable") := by
  intro s
  refine ⟨by decide, by decide, ?_, by decide, by decide, by decide⟩
  rintro ⟨lease, hlease, hsplint, -, howner⟩
  have hmaps := (mapsAgree_default.run [.acquire 10 ⟨7⟩ 3 none, .requestTransfer 20 ⟨7⟩ 3 none,
    .releaseOwned 10 1, .acquire 30 ⟨7⟩ 3 none]).maps
  have hid : lease.id = 2 := hmaps.bySplint.unique hlease (show s.byId.get? 2 = some _ from rfl) hsplint
  rw [hid] at hlease
  cases hlease
  cases howner

end Splinterm.Daemon.ControllerState
