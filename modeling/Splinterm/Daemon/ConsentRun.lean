import Splinterm.Daemon.Consent

/-!
# Authority over a run of the grant store

The calls made to a store, oldest first, say by themselves which scopes a peer may
use: those a grant call named and whose grant was in force from that call on
(`InForce`). The store agrees as long as no call extends a grant that is past its
expiry. It removes expired Splint grants before it extends one, but it keeps
expired Lair grants, so `grant_lair_named` can bring expired scopes back.
-/

namespace Splinterm.Daemon

open Core Lib List Nat

/-- What a call was and what it returned, as far as authority depends on it. -/
inductive Call where
  /-- A grant call that returned `grantId` and set the expiry from `reading`. -/
  | grant (peer : PeerIdentity) (resource : GrantResource) (scopes : List AccessScope)
      (grantId : Nat) (reading : Instant)
  /-- A revocation that returned the revoked grant. -/
  | revoke (grantId : Nat)
  | revokeAll
  | revokeLair (lairId : LairId)
  | revokeIdentity (target : SplintTarget)
  | other
deriving DecidableEq

/-- What a call leaves of a grant for `resource`, given as its id and its expiry: a revocation ends
it, and a grant call for the same peer and resource moves the expiry of a grant not past it. -/
def Call.survives (peer : PeerIdentity) (resource : GrantResource) (held : Nat × Instant) :
    Call → Option (Nat × Instant)
  | .grant p r _ _ reading =>
    if p = peer ∧ r = resource then
      if reading < held.2 then some (held.1, reading + grantLifetime) else none
    else some held
  | .revoke grantId => if grantId = held.1 then none else some held
  | .revokeAll => none
  | .revokeLair lairId => if resource = .lair lairId then none else some held
  | .revokeIdentity target => if resource = .splint target then none else some held
  | .other => some held

/-- Some grant call named the scope, and from that call on its grant was neither revoked nor past
its expiry, which lies after `now`. -/
def InForce (peer : PeerIdentity) (resource : GrantResource) (scope : AccessScope)
    (trace : List Call) (now : Instant) : Prop :=
  ∃ pre scopes grantId reading post held,
    trace = pre ++ .grant peer resource scopes grantId reading :: post ∧ scope ∈ scopes ∧
    post.foldlM (Call.survives peer resource) (grantId, reading + grantLifetime) = some held ∧ now < held.2

/-! ## The grants that last -/

/-- A grant call named the scope, and its grant has lasted with this id and expiry. -/
def Lasts (peer : PeerIdentity) (resource : GrantResource) (scope : AccessScope) (trace : List Call)
    (held : Nat × Instant) : Prop :=
  ∃ pre scopes grantId reading post,
    trace = pre ++ .grant peer resource scopes grantId reading :: post ∧ scope ∈ scopes ∧
    post.foldlM (Call.survives peer resource) (grantId, reading + grantLifetime) = some held

namespace Lasts

variable {peer : PeerIdentity} {resource : GrantResource} {scope : AccessScope}
  {trace : List Call} {held : Nat × Instant}

theorem inForce {now : Instant} (h : Lasts peer resource scope trace held) (hnow : now < held.2) :
    InForce peer resource scope trace now := by
  obtain ⟨pre, scopes, grantId, reading, post, heq, hscope, hpost⟩ := h
  exact ⟨pre, scopes, grantId, reading, post, held, heq, hscope, hpost, hnow⟩

theorem survives {call : Call} {held' : Nat × Instant} (h : Lasts peer resource scope trace held)
    (hcall : call.survives peer resource held = some held') : Lasts peer resource scope (trace ++ [call]) held' := by
  obtain ⟨pre, scopes, grantId, reading, post, rfl, hscope, hpost⟩ := h
  refine ⟨pre, scopes, grantId, reading, post ++ [call], by simp, hscope, ?_⟩
  rw [foldlM_append, hpost]
  simpa using hcall

theorem of_grant {scopes : List AccessScope} {grantId : Nat} {reading : Instant} (hscope : scope ∈ scopes) :
    Lasts peer resource scope (trace ++ [.grant peer resource scopes grantId reading])
      (grantId, reading + grantLifetime) :=
  ⟨trace, scopes, grantId, reading, [], rfl, hscope, rfl⟩

end Lasts

/-! ## The grants a store holds -/

def OnceGrant.onto {κ : Type} (resource : κ → GrantResource) (grant : OnceGrant κ) : OnceGrant GrantResource :=
  { grant with target := resource grant.target }

def OnceGrant.key {κ : Type} (grant : OnceGrant κ) : PeerIdentity × κ := (grant.peer, grant.target)

def heldOf (grants : List Grant) (lairGrants : List LairGrant) : List (OnceGrant GrantResource) :=
  grants.map (·.onto .splint) ++ lairGrants.map (·.onto .lair)

def GrantStore.held (s : GrantStore) : List (OnceGrant GrantResource) :=
  heldOf s.grants s.lairGrants

theorem heldOf_sublist {grants grants' : List Grant} {lairGrants lairGrants' : List LairGrant}
    (h : grants'.Sublist grants) (h' : lairGrants'.Sublist lairGrants) :
    (heldOf grants' lairGrants').Sublist (heldOf grants lairGrants) :=
  (h.map _).append (h'.map _)

variable {κ : Type} {grant : OnceGrant κ}

/-- One of the store's two lists, next to the other. -/
structure Part (κ : Type) where
  resource : κ → GrantResource
  view : List (OnceGrant κ) → List (OnceGrant GrantResource)
  injective : Function.Injective resource
  perm (pre : List (OnceGrant κ)) (grant : OnceGrant κ) (post : List (OnceGrant κ)) :
    (view (pre ++ grant :: post)).Perm (grant.onto resource :: view (pre ++ post))
  sublist {grants grants' : List (OnceGrant κ)} (h : grants'.Sublist grants) :
    (view grants').Sublist (view grants)
  only {grants : List (OnceGrant κ)} {other : OnceGrant GrantResource} (h : other ∈ view grants)
    {target : κ} (htarget : other.target = resource target) :
    ∃ grant ∈ grants, other = grant.onto resource

def splintPart (lairGrants : List LairGrant) : Part SplintTarget where
  resource := .splint
  view grants := heldOf grants lairGrants
  injective _ _ h := GrantResource.splint.inj h
  perm pre grant post := by
    unfold heldOf
    rw [map_append, map_cons, map_append]
    exact perm_middle.append_right _
  sublist h := heldOf_sublist h (.refl _)
  only h _ htarget := by
    rcases mem_append.mp h with h | h <;> obtain ⟨grant, hgrant, rfl⟩ := mem_map.mp h
    · exact ⟨grant, hgrant, rfl⟩
    · exact GrantResource.noConfusion htarget

def lairPart (grants : List Grant) : Part LairId where
  resource := .lair
  view lairGrants := heldOf grants lairGrants
  injective _ _ h := GrantResource.lair.inj h
  perm pre grant post := by
    unfold heldOf
    rw [map_append, map_cons, map_append, ← append_assoc, ← append_assoc]
    exact perm_middle
  sublist h := heldOf_sublist (.refl _) h
  only h _ htarget := by
    rcases mem_append.mp h with h | h <;> obtain ⟨grant, hgrant, rfl⟩ := mem_map.mp h
    · exact GrantResource.noConfusion htarget
    · exact ⟨grant, hgrant, rfl⟩

theorem retainLive_sublist (now : Nat → Instant) (grants : List (OnceGrant κ)) :
    (retainLive now grants).Sublist grants := by
  have h := (filter_sublist (l := grants.zipIdx) (p := fun entry => entry.1.expires > now entry.2)).map (·.1)
  rwa [zipIdx_map_fst] at h

/-- What is kept was live at its own reading. -/
theorem mem_retainLive {now : Nat → Instant} {grants : List (OnceGrant κ)} (h : grant ∈ retainLive now grants) :
    ∃ i, grants[i]? = some grant ∧ now i < grant.expires := by
  obtain ⟨⟨_, i⟩, hmem, rfl⟩ := mem_map.mp h
  obtain ⟨hmem, hlive⟩ := mem_filter.mp hmem
  exact ⟨i, mem_zipIdx_iff_getElem?.mp hmem, of_decide_eq_true hlive⟩

theorem findLive_eq_some {now : Nat → Instant} {p : OnceGrant κ → Bool}
    {grants : List (OnceGrant κ)} (h : findLive now p grants = some grant) :
    grant ∈ grants ∧ p grant = true ∧ ∃ i, now i < grant.expires := by
  obtain ⟨⟨grant, i⟩, hfind, rfl⟩ := Option.map_eq_some_iff.mp h
  have hmem := mem_zipIdx_iff_getElem?.mp (mem_of_find?_eq_some hfind)
  have haccepted := find?_some hfind
  rw [decide_eq_true_eq] at haccepted
  obtain ⟨hp, hlive⟩ := haccepted
  exact ⟨mem_of_getElem? hmem, hp, i, hlive⟩

/-! ## The invariant -/

/-- Ids and targets are unique, and every scope held is one the trace accounts for. -/
structure Accounted (trace : List Call) (held : List (OnceGrant GrantResource)) (next : Nat) : Prop where
  ids : (held.map (·.id)).Nodup
  keys : (held.map (·.key)).Nodup
  below : ∀ grant ∈ held, grant.id ≤ next
  named : ∀ grant ∈ held, ∀ scope ∈ grant.scopes, Lasts grant.peer grant.target scope trace (grant.id, grant.expires)

namespace Accounted

variable {trace : List Call} {held held' rest : List (OnceGrant GrantResource)} {next next' : Nat}
  {grant grant' : OnceGrant GrantResource} {call : Call}

section

variable (h : Accounted trace held next)

include h

theorem perm (hperm : held.Perm held') : Accounted trace held' next where
  ids := (hperm.map _).nodup_iff.mp h.ids
  keys := (hperm.map _).nodup_iff.mp h.keys
  below := fun grant hgrant => h.below grant (hperm.mem_iff.mpr hgrant)
  named := fun grant hgrant => h.named grant (hperm.mem_iff.mpr hgrant)

theorem sublist (hsub : held'.Sublist held) (hnext : next ≤ next') :
    Accounted trace held' next' where
  ids := h.ids.sublist (hsub.map _)
  keys := h.keys.sublist (hsub.map _)
  below := fun grant hgrant => (h.below grant (hsub.mem hgrant)).trans hnext
  named := fun grant hgrant => h.named grant (hsub.mem hgrant)

/-- A call that leaves every held grant as it was. -/
theorem unaffected
    (hcall : ∀ grant ∈ held, Call.survives grant.peer grant.target (grant.id, grant.expires) call =
      some (grant.id, grant.expires)) : Accounted (trace ++ [call]) held next where
  ids := h.ids
  keys := h.keys
  below := h.below
  named grant hgrant scope hscope := (h.named grant hgrant scope hscope).survives (hcall grant hgrant)

theorem other : Accounted (trace ++ [.other]) held next :=
  h.unaffected fun _ _ => rfl

/-- One more grant, of which the call accounts for every scope. -/
theorem cons (hnext : next ≤ next') (hid : grant.id ∉ held.map (·.id))
    (hkey : grant.key ∉ held.map (·.key)) (hbelow : grant.id ≤ next')
    (hcall : ∀ other ∈ held, Call.survives other.peer other.target (other.id, other.expires) call =
      some (other.id, other.expires)) (hnamed : ∀ scope ∈ grant.scopes,
      Lasts grant.peer grant.target scope (trace ++ [call]) (grant.id, grant.expires)) :
    Accounted (trace ++ [call]) (grant :: held) next' :=
  have hrest := (h.sublist (.refl _) hnext).unaffected hcall
  ⟨nodup_cons.mpr ⟨hid, hrest.ids⟩, nodup_cons.mpr ⟨hkey, hrest.keys⟩,
    forall_mem_cons.mpr ⟨hbelow, hrest.below⟩, forall_mem_cons.mpr ⟨hnamed, hrest.named⟩⟩

/-- A grant call makes a new grant with the next id. -/
theorem push {scopes : List AccessScope} {reading : Instant}
    (hid : grant.id = next + 1) (hnew : ∀ other ∈ held, ¬ (grant.peer = other.peer ∧ grant.target = other.target))
    (hexpires : grant.expires = reading + grantLifetime) (hscopes : ∀ scope ∈ grant.scopes, scope ∈ scopes) :
    Accounted (trace ++ [.grant grant.peer grant.target scopes grant.id reading]) (grant :: held) (next + 1) := by
  refine h.cons (le_succ _) (fun hmem => ?_) (fun hmem => ?_) hid.le (fun other hother => ?_)
    fun scope hscope => ?_
  · obtain ⟨other, hother, hsame⟩ := mem_map.mp hmem
    have hle := h.below other hother
    omega
  · obtain ⟨other, hother, hsame⟩ := mem_map.mp hmem
    obtain ⟨hpeer, htarget⟩ := Prod.mk.inj hsame
    exact hnew other hother ⟨hpeer.symm, htarget.symm⟩
  · rw [Call.survives, if_neg (hnew other hother)]
  · rw [hexpires]
    exact .of_grant (hscopes scope hscope)

end

section

variable (h : Accounted trace (grant :: rest) next) {other : OnceGrant GrantResource}

include h

theorem key_ne (hother : other ∈ rest) : ¬ (grant.peer = other.peer ∧ grant.target = other.target) := by
  have hkeys := h.keys
  rw [map_cons, nodup_cons] at hkeys
  intro hsame
  have hkey : grant.key = other.key := Prod.ext hsame.1 hsame.2
  exact hkeys.1 (hkey ▸ mem_map_of_mem hother)

theorem id_ne (hother : other ∈ rest) : grant.id ≠ other.id := by
  have hids := h.ids
  rw [map_cons, nodup_cons] at hids
  exact fun hsame => hids.1 (hsame ▸ mem_map_of_mem hother)

theorem revoke : Accounted (trace ++ [.revoke grant.id]) rest next := by
  refine (h.sublist (sublist_cons_self _ _) (le_refl _)).unaffected fun other hother => ?_
  rw [Call.survives, if_neg (h.id_ne hother)]

/-- A grant call extends a grant that is not past its expiry. -/
theorem extend {scopes : List AccessScope}
    {reading : Instant} (hlive : reading < grant.expires) (hid : grant'.id = grant.id)
    (hkey : grant'.key = grant.key) (hexpires : grant'.expires = reading + grantLifetime)
    (hscopes : ∀ scope ∈ grant'.scopes, scope ∈ grant.scopes ∨ scope ∈ scopes) :
    Accounted (trace ++ [.grant grant.peer grant.target scopes grant.id reading]) (grant' :: rest) next := by
  refine (h.sublist (sublist_cons_self _ _) (le_refl _)).cons (le_refl _)
    (hid ▸ (nodup_cons.mp h.ids).1) (hkey ▸ (nodup_cons.mp h.keys).1)
    (hid ▸ h.below grant mem_cons_self) (fun other hother => ?_) fun scope hscope => ?_
  · rw [Call.survives, if_neg (h.key_ne hother)]
  · obtain ⟨hpeer, htarget⟩ := Prod.mk.inj hkey
    rw [hid, hexpires, hpeer, htarget]
    rcases hscopes scope hscope with hold | hnew
    · refine (h.named grant mem_cons_self scope hold).survives ?_
      rw [Call.survives, if_pos ⟨rfl, rfl⟩, if_pos hlive]
    · exact .of_grant hnew

end

end Accounted

/-- No entry is there to extend, so the call draws an id. -/
def Draws (peer : PeerIdentity) (target : κ) (grants : List (OnceGrant κ)) : Prop :=
  ∀ other ∈ grants, ¬ (peer = other.peer ∧ target = other.target)

theorem grantIn_cases [DecidableEq κ] (peer : PeerIdentity) (target : κ)
    (scopes : List AccessScope) (displayName : Option String) (clock : Clock)
    (grants : List (OnceGrant κ)) (ids : GrantIds) :
    let result := grantIn peer target scopes displayName clock grants ids
    (∃ pre grant post, grants = pre ++ grant :: post ∧ grant.peer = peer ∧ grant.target = target ∧
      result = (grant.extend scopes displayName clock, pre ++ grant.extend scopes displayName clock :: post, ids)) ∨
    ∃ grant, Draws peer target grants ∧ grant.peer = peer ∧ grant.target = target ∧ grant.scopes = scopeSet scopes ∧
      grant.expires = clock.later 0 + grantLifetime ∧ grant.id = ids.draw.1 ∧
      result = (grant, grants ++ [grant], ids.draw.2) := by
  intro result
  have hresult : result = grantIn peer target scopes displayName clock grants ids := rfl
  unfold grantIn at hresult
  split at hresult
  · rename_i pre grant post hsplit
    obtain ⟨hgrants, hkey, -⟩ := splitFirst_eq_some hsplit
    obtain ⟨hpeer, htarget⟩ := of_decide_eq_true hkey
    exact .inl ⟨pre, grant, post, hgrants, hpeer, htarget, hresult⟩
  · rename_i hsplit
    refine .inr ⟨_, fun other hother hsame => ?_, rfl, rfl, rfl, rfl, rfl, hresult⟩
    have hnone := splitFirst_eq_none.mp hsplit other hother
    exact of_decide_eq_false hnone ⟨hsame.1.symm, hsame.2.symm⟩

theorem GrantIds.draw_eq {ids : GrantIds} (h : ids.next < u64Max) :
    ids.draw.1 = ids.next + 1 ∧ ids.draw.2.next = ids.next + 1 := by
  unfold u64Max at h
  constructor
  · exact min_eq_left (by unfold u64Max; omega)
  · exact mod_eq_of_lt (by omega)

section Part

variable (part : Part κ) {trace : List Call} {grants : List (OnceGrant κ)} {next : Nat}

theorem Accounted.grantIn [DecidableEq κ] {ids : GrantIds} {peer : PeerIdentity} {target : κ}
    {scopes : List AccessScope} {displayName : Option String} {clock : Clock}
    (h : Accounted trace (part.view grants) ids.next)
    (hlive : ∀ grant ∈ grants, grant.peer = peer → grant.target = target →
      clock.later 0 < grant.expires) (hroom : Draws peer target grants → ids.next < u64Max) :
    let result := Daemon.grantIn peer target scopes displayName clock grants ids
    Accounted (trace ++ [.grant peer (part.resource target) scopes result.1.id (clock.later 0)])
      (part.view result.2.1) result.2.2.next := by
  intro result
  have hcases := grantIn_cases peer target scopes displayName clock grants ids
  obtain ⟨pre, grant, post, rfl, rfl, rfl, heq⟩ | ⟨grant, hnew, rfl, rfl, hscopes, hexpires, hid, heq⟩ := hcases
  · have hextended : Accounted _ ((grant.extend scopes displayName clock).onto part.resource :: _) _ :=
      (h.perm (part.perm pre grant post)).extend (hlive grant (by simp) rfl rfl) rfl rfl rfl
        fun scope hscope => mem_append.mp (mem_scopeSet.mp hscope)
    rw [show result = _ from heq]
    exact hextended.perm (part.perm pre _ post).symm
  · obtain ⟨hdraw, hdrawn⟩ := GrantIds.draw_eq (hroom hnew)
    have hpushed : Accounted
        (trace ++ [.grant grant.peer (part.resource grant.target) scopes grant.id (clock.later 0)])
        (grant.onto part.resource :: part.view grants) (ids.next + 1) := by
      refine @Accounted.push _ _ _ (grant.onto part.resource) h scopes (clock.later 0)
        (hid.trans hdraw) (fun other hother hsame => ?_) hexpires fun scope hscope => ?_
      · obtain ⟨former, hformer, rfl⟩ := part.only hother hsame.2.symm
        exact hnew former hformer ⟨hsame.1, part.injective hsame.2⟩
      · exact mem_scopeSet.mp (hscopes ▸ hscope)
    rw [show result = _ from heq]
    have hperm := (part.perm grants grant []).symm
    rw [append_nil] at hperm
    exact hdrawn ▸ hpushed.perm hperm

theorem Accounted.revokeIn (h : Accounted trace (part.view grants) next) {grantId : Nat} {pre post : List (OnceGrant κ)}
    (hsplit : GrantStore.position grantId grants = some (pre, grant, post)) :
    Accounted (trace ++ [.revoke grantId]) (part.view (pre ++ post)) next := by
  obtain ⟨rfl, hid, -⟩ := splitFirst_eq_some hsplit
  obtain rfl := of_decide_eq_true hid
  exact (h.perm (part.perm pre grant post)).revoke

/-- A call that ends every grant for the target. -/
theorem Accounted.revokeTarget [DecidableEq κ] (h : Accounted trace (part.view grants) next) {target : κ}
    {call : Call} (hcall : ∀ peer resource held, call.survives peer resource held =
      if resource = part.resource target then none else some held) :
    Accounted (trace ++ [call]) (part.view (grants.filter fun grant => grant.target ≠ target)) next := by
  refine (h.sublist (part.sublist filter_sublist) (le_refl _)).unaffected fun grant hgrant => ?_
  rw [hcall]
  refine if_neg fun htarget => ?_
  obtain ⟨former, hformer, rfl⟩ := part.only hgrant htarget
  exact of_decide_eq_true (mem_filter.mp hformer).2 (part.injective htarget)

end Part

namespace GrantStore

variable {trace : List Call} {s : GrantStore} {clock : Clock}

def Inv (trace : List Call) (s : GrantStore) : Prop := Accounted trace s.held s.ids.next

theorem Inv.recordRevoked {κ : Type} {resource : κ → GrantResource} {reason : String} (h : Inv trace s)
    (grants : List (OnceGrant κ)) : Inv trace (recordRevoked resource reason clock grants s) := by
  induction grants generalizing s with
  | nil => exact h
  | cons grant grants ih => exact ih (s := s.record _ _ _ _ _ _) h

theorem removeExpired_frame (s : GrantStore) (clock : Clock) :
    (s.removeExpired clock).grants = retainLive clock.pass s.grants ∧
      (s.removeExpired clock).lairGrants = s.lairGrants ∧ (s.removeExpired clock).ids.next = s.ids.next := by
  unfold removeExpired
  dsimp only
  split <;> exact ⟨rfl, rfl, rfl⟩

section

variable (h : Inv trace s)

include h

theorem Inv.removeExpired : Inv trace (s.removeExpired clock) := by
  obtain ⟨hgrants, hlair, hnext⟩ := removeExpired_frame s clock
  unfold Inv held
  rw [hgrants, hlair, hnext]
  exact h.sublist (heldOf_sublist (retainLive_sublist _ _) (.refl _)) (le_refl _)

theorem Inv.remove {s' : GrantStore} (hgrants : s'.grants.Sublist s.grants)
    (hlair : s'.lairGrants.Sublist s.lairGrants) (hnext : s'.ids.next = s.ids.next) : Inv trace s' := by
  unfold Inv
  rw [hnext]
  exact Accounted.sublist h (heldOf_sublist hgrants hlair) (le_refl _)

/-! ## Runs -/

inductive Op where
  | grant (peer : PeerIdentity) (target : SplintTarget) (scopes : List AccessScope)
  | grantLairNamed (peer : PeerIdentity) (lairId : LairId) (scopes : List AccessScope)
      (displayName : Option String)
  | authorize (peer : PeerIdentity) (target : SplintTarget) (required : List AccessScope)
  | authorizeLair (peer : PeerIdentity) (lairId : LairId) (required : List AccessScope)
  | status (target : SplintTarget)
  | lairStatus (lairId : LairId)
  | inventory
  | liveCount
  | grantWithRevision (grantId : Nat)
  | lairGrantWithRevision (grantId : Nat)
  | deny (peer : PeerIdentity) (resource : GrantResource) (scopes : List AccessScope)
      (reason : String)
  | revoke (grantId : Nat)
  | revokeAny (grantId : Nat)
  | revokeAll (reason : String)
  | revokeLair (lairId : LairId) (reason : String)
  | revokeIdentity (target : SplintTarget) (reason : String)
  | endIfExpired (grantId : Nat)
  | revokeLairIfExpired (grantId : Nat)
  | drawId

/-- The call as the trace records it, and the store it leaves. -/
def step (op : Op) (clock : Clock) (s : GrantStore) : Call × GrantStore :=
  match op with
  | .grant peer target scopes =>
    let (mutation, s) := s.grant peer target scopes clock
    (.grant peer (.splint target) scopes mutation.grant.grantId (clock.later 0), s)
  | .grantLairNamed peer lairId scopes displayName =>
    let (mutation, s) := s.grantLairNamed peer lairId scopes displayName clock
    (.grant peer (.lair lairId) scopes mutation.grant.grantId (clock.later 0), s)
  | .authorize peer target required => (.other, (s.authorize peer target required clock).2)
  | .authorizeLair peer lairId required => (.other, (s.authorizeLair peer lairId required clock).2)
  | .status target => (.other, (s.status target clock).2)
  | .lairStatus lairId => (.other, (s.lairStatus lairId clock).2)
  | .inventory => (.other, (s.inventory clock).2)
  | .liveCount => (.other, (s.liveCount clock).2)
  | .grantWithRevision grantId => (.other, (s.grantWithRevision grantId clock).2)
  | .lairGrantWithRevision grantId => (.other, (s.lairGrantWithRevision grantId clock).2)
  | .deny peer resource scopes reason => (.other, s.deny peer resource scopes reason clock)
  | .revoke grantId =>
    let (revoked, s) := s.revoke grantId clock
    (bif revoked.isSome then .revoke grantId else .other, s)
  | .revokeAny grantId =>
    let (revoked, s) := s.revokeAny grantId clock
    (bif revoked.isSome then .revoke grantId else .other, s)
  | .revokeAll reason => (.revokeAll, (s.revokeAll reason clock).2)
  | .revokeLair lairId reason => (.revokeLair lairId, (s.revokeLair lairId reason clock).2)
  | .revokeIdentity target reason => (.revokeIdentity target, (s.revokeIdentity target reason clock).2)
  | .endIfExpired grantId => (.other, (s.endIfExpired grantId clock).2)
  | .revokeLairIfExpired grantId => (.other, (s.revokeLairIfExpired grantId clock).2)
  | .drawId => (.other, s.drawId.2)

/-- No grant call extends a grant past its expiry, and the counter is not used up where an id is drawn. -/
def Careful (clock : Clock) (s : GrantStore) : Op → Prop
  | .grant peer target _ =>
    (∀ i grant, s.grants[i]? = some grant → grant.peer = peer → grant.target = target →
      clock.pass i < grant.expires → clock.later 0 < grant.expires) ∧
      (Draws peer target (s.removeExpired clock).grants → s.ids.next < u64Max)
  | .grantLairNamed peer lairId _ _ =>
    (∀ grant ∈ s.lairGrants, grant.peer = peer → grant.target = lairId →
      clock.later 0 < grant.expires) ∧ (Draws peer lairId s.lairGrants → s.ids.next < u64Max)
  | .drawId => s.ids.next < u64Max
  | _ => True

/-- The traces and stores reached at a time by operations made with non-decreasing readings. -/
inductive Runs : Instant → List Call → GrantStore → Prop
  | new (time : Instant) : Runs time [] new
  | step {time time' : Instant} {trace : List Call} {s : GrantStore} (op : Op) (clock : Clock)
      (h : Runs time trace s) (hfrom : time ≤ clock.pass 0) (hto : ∀ i, clock.later i ≤ time')
      (hcareful : Careful clock s op) :
      Runs time' (trace ++ [(step op clock s).1]) (step op clock s).2

theorem Inv.step_revokeAll (reason : String) : Inv (trace ++ [.revokeAll]) (s.revokeAll reason clock).2 := by
  have hempty : Inv (trace ++ [.revokeAll]) { s.removeExpired clock with grants := [], lairGrants := [] } :=
    (Accounted.sublist h.removeExpired (nil_sublist _) (le_refl _)).unaffected
      fun _ hmem => absurd hmem not_mem_nil
  unfold GrantStore.revokeAll
  dsimp only
  split <;> exact (hempty.recordRevoked _).recordRevoked _

theorem Inv.step_revokeLair (lairId : LairId) (reason : String) :
    Inv (trace ++ [.revokeLair lairId]) (s.revokeLair lairId reason clock).2 := by
  refine Inv.recordRevoked ?_ _
  split <;> exact Accounted.revokeTarget (lairPart s.grants) h fun _ _ _ => rfl

theorem Inv.step_revokeIdentity (target : SplintTarget) (reason : String) :
    Inv (trace ++ [.revokeIdentity target]) (s.revokeIdentity target reason clock).2 := by
  refine Inv.recordRevoked ?_ _
  split <;> exact Accounted.revokeTarget (splintPart s.lairGrants) h fun _ _ _ => rfl

theorem Inv.revokeLairIfExpired (grantId : Nat) : Inv trace (s.revokeLairIfExpired grantId clock).2 := by
  unfold GrantStore.revokeLairIfExpired
  split
  · exact h
  · rename_i pre grant i post hsplit
    obtain ⟨hzip, -, -⟩ := splitFirst_eq_some hsplit
    have hlist : s.lairGrants = pre.map (·.1) ++ grant :: post.map (·.1) := by
      have hmap := congrArg (List.map Prod.fst) hzip
      rwa [zipIdx_map_fst, map_append] at hmap
    refine h.remove (.refl _) ?_ rfl
    rw [hlist]
    exact (List.Sublist.refl _).append (sublist_cons_self _ _)

theorem Inv.endIfExpired (grantId : Nat) : Inv trace (s.endIfExpired grantId clock).2 := by
  unfold GrantStore.endIfExpired
  split
  · rename_i pre grant post hsplit
    split
    · exact h
    · obtain ⟨hgrants, -, -⟩ := splitFirst_eq_some hsplit
      refine h.remove ?_ (.refl _) rfl
      rw [hgrants]
      exact (List.Sublist.refl _).append (sublist_cons_self _ _)
  · split
    · split
      · exact h
      · exact h.revokeLairIfExpired grantId
    · exact h.revokeLairIfExpired grantId

theorem Inv.step (op : Op) (hcareful : Careful clock s op) :
    Inv (trace ++ [(step op clock s).1]) (step op clock s).2 := by
  cases op with
  | grant =>
    obtain ⟨hgrants, -, hnext⟩ := removeExpired_frame s clock
    refine Accounted.grantIn (splintPart (s.removeExpired clock).lairGrants) h.removeExpired
      (fun grant hgrant hpeer htarget => ?_) (hnext ▸ hcareful.2)
    rw [hgrants] at hgrant
    obtain ⟨i, hi, hpass⟩ := mem_retainLive hgrant
    exact hcareful.1 i grant hi hpeer htarget hpass
  | grantLairNamed =>
    obtain ⟨-, hlair, hnext⟩ := removeExpired_frame s clock
    exact Accounted.grantIn (lairPart (s.removeExpired clock).grants) h.removeExpired (hlair ▸ hcareful.1)
      (hnext ▸ hlair ▸ hcareful.2)
  | authorize | authorizeLair | status | lairStatus | inventory | liveCount | grantWithRevision
  | lairGrantWithRevision => exact Accounted.other h.removeExpired
  | deny => exact Accounted.other h
  | revoke grantId =>
    dsimp only [GrantStore.step, GrantStore.revoke]
    split
    · exact Accounted.other h
    · rename_i hsplit
      exact Accounted.revokeIn (splintPart s.lairGrants) h hsplit
  | revokeAny grantId =>
    dsimp only [GrantStore.step, GrantStore.revokeAny, GrantStore.revoke]
    -- the Splint grants are searched first
    cases hsplit : position grantId s.grants with
    | some found => exact Accounted.revokeIn (splintPart s.lairGrants) h hsplit
    | none =>
      dsimp only
      cases hlair : position grantId s.lairGrants with
      | some found => exact Accounted.revokeIn (lairPart s.grants) h hlair
      | none => exact Accounted.other h
  | revokeAll reason => exact h.step_revokeAll reason
  | revokeLair lairId reason => exact h.step_revokeLair lairId reason
  | revokeIdentity target reason => exact h.step_revokeIdentity target reason
  | endIfExpired grantId => exact Accounted.other (h.endIfExpired grantId)
  | revokeLairIfExpired grantId => exact Accounted.other (h.revokeLairIfExpired grantId)
  | drawId =>
    have hdrawn := (GrantIds.draw_eq hcareful).2
    exact Accounted.other (Accounted.sublist h (.refl _) (hdrawn ▸ le_succ _))

end

theorem Runs.inv {time : Instant} (h : Runs time trace s) : Inv trace s := by
  induction h with
  | new time => exact ⟨.nil, .nil, fun _ hmem => absurd hmem not_mem_nil, fun _ hmem => absurd hmem not_mem_nil⟩
  | step op clock _ _ _ hcareful ih => exact ih.step op hcareful

/-- In a run in which no grant call extends a grant past its expiry, every authorized scope was
named by a grant call whose grant has been in force since. -/
theorem authorized_scopes_are_in_force {time : Instant} (h : Runs time trace s) :
    (∀ peer target required clock grantId, (s.authorize peer target required clock).1 = some grantId →
      ∀ scope ∈ required, ∃ i, InForce peer (.splint target) scope trace (clock.pass i)) ∧
    ∀ peer lairId required clock grantId, (s.authorizeLair peer lairId required clock).1 = some grantId →
      ∀ scope ∈ required, ∃ i, InForce peer (.lair lairId) scope trace (clock.later i) := by
  have hinv := h.inv
  constructor
  · intro peer target required clock grantId hauthorize scope hscope
    obtain ⟨grant, hfind, -⟩ := Option.map_eq_some_iff.mp hauthorize
    have haccepted := find?_some hfind
    rw [decide_eq_true_eq] at haccepted
    obtain ⟨rfl, rfl, hscopes⟩ := haccepted
    have hmem := mem_of_find?_eq_some hfind
    rw [(removeExpired_frame s clock).1] at hmem
    obtain ⟨i, hi, hlive⟩ := mem_retainLive hmem
    have hheld : grant.onto .splint ∈ s.held := mem_append_left _ (mem_map_of_mem (mem_of_getElem? hi))
    exact ⟨i, (hinv.named _ hheld scope (hscopes scope hscope)).inForce hlive⟩
  · intro peer lairId required clock grantId hauthorize scope hscope
    obtain ⟨grant, hfind, -⟩ := Option.map_eq_some_iff.mp hauthorize
    obtain ⟨hmem, haccepted, i, hlive⟩ := findLive_eq_some hfind
    obtain ⟨rfl, rfl, hscopes⟩ := of_decide_eq_true haccepted
    rw [(removeExpired_frame s clock).2.1] at hmem
    have hheld : grant.onto .lair ∈ s.held := mem_append_right _ (mem_map_of_mem hmem)
    exact ⟨i, (hinv.named _ hheld scope (hscopes scope hscope)).inForce hlive⟩

def agentPeer : PeerIdentity := ⟨1000, 7, "agent", 1, 2, 0, none, none, some 5, none⟩

/-- A grant of two scopes for one Lair, at time zero. -/
def twoScopes : Call × GrantStore :=
  step (.grantLairNamed agentPeer ⟨1⟩ [.observe, .input] none) (.at 0) new

theorem twoScopes_runs : Runs 0 [twoScopes.1] twoScopes.2 :=
  .step (.grantLairNamed agentPeer ⟨1⟩ [.observe, .input] none) (.at 0) (.new 0) (le_refl 0)
    (fun _ => le_refl 0) ⟨fun _ hmem => absurd hmem not_mem_nil, fun _ => by decide⟩

theorem observe_is_in_force : (twoScopes.2.authorizeLair agentPeer ⟨1⟩ [.observe] (.at (fromSecs 299))).1 = some 1 ∧
    InForce agentPeer (.lair ⟨1⟩) .observe [twoScopes.1] (fromSecs 299) := by
  have hauthorize :
      (twoScopes.2.authorizeLair agentPeer ⟨1⟩ [.observe] (.at (fromSecs 299))).1 = some 1 := by
    decide
  obtain ⟨-, hlair⟩ := authorized_scopes_are_in_force twoScopes_runs
  obtain ⟨i, hi⟩ := hlair _ _ _ _ _ hauthorize .observe mem_cons_self
  exact ⟨hauthorize, hi⟩

/-- The same peer is granted another scope after the first grant has expired. -/
def anotherScope : Call × GrantStore :=
  step (.grantLairNamed agentPeer ⟨1⟩ [.scrollback] none) (.at (fromSecs 301)) twoScopes.2

/-- The expired scopes are authorized again. -/
theorem expired_scopes_come_back :
    (anotherScope.2.authorizeLair agentPeer ⟨1⟩ [.observe] (.at (fromSecs 301))).1 = some 1 ∧
    ¬ InForce agentPeer (.lair ⟨1⟩) .observe [twoScopes.1, anotherScope.1] (fromSecs 301) := by
  refine ⟨by decide, ?_⟩
  rintro ⟨pre, scopes, grantId, reading, post, held, heq, hscope, hpost, -⟩
  have htrace : [twoScopes.1, anotherScope.1] = [.grant agentPeer (.lair ⟨1⟩) [.observe, .input] 1 0,
      .grant agentPeer (.lair ⟨1⟩) [.scrollback] 1 (fromSecs 301)] := by decide
  rcases pre with _ | ⟨_, _ | ⟨_, pre⟩⟩
  · -- the first call named the scope, and its grant is past its expiry at the second
    obtain ⟨⟨-, -, -, rfl, rfl⟩, rfl⟩ := heq
    cases show none = some held from hpost
  · simp only [cons_append, nil_append, List.cons.injEq] at heq
    obtain ⟨-, ⟨-, -, rfl, -⟩, -⟩ := heq
    exact absurd hscope (by decide)
  · simp at heq

end GrantStore

end Splinterm.Daemon
