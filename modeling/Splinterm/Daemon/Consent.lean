import Splinterm.Daemon.Types

/-!
# "Just this once" grants

`GrantStore` holds the grants a person gave for one Splint incarnation or one Lair.
An operation reads the clock several times: once for every Splint grant while it
removes the expired ones, and then again as it goes on. `Clock` gives it those
readings. The two kinds of grant differ in their target only, so they share
`OnceGrant` and the functions on it.
-/

namespace Splinterm.Daemon

open Core Lib

def grantLifetimeSeconds : Nat := 5 * 60

def grantLifetime : Nat := fromSecs grantLifetimeSeconds

def maxAuditRecords : Nat := 256

/-- The readings one operation takes: `pass i` for the `i`-th Splint grant of the removal pass,
`later i` afterwards. -/
structure Clock where
  pass : Nat → Instant
  later : Nat → Instant
  unixSeconds : Nat
  pass_mono : ∀ i j, i ≤ j → pass i ≤ pass j
  later_mono : ∀ i j, i ≤ j → later i ≤ later j
  pass_le_later : ∀ i j, pass i ≤ later j

/-- A clock that stands still during the operation. -/
def Clock.at (now : Instant) : Clock where
  pass := fun _ => now
  later := fun _ => now
  unixSeconds := now / nanosPerSecond
  pass_mono := fun _ _ _ => Nat.le_refl _
  later_mono := fun _ _ _ => Nat.le_refl _
  pass_le_later := fun _ _ => Nat.le_refl _

structure SplintTarget where
  splintId : SplintId
  incarnation : Nat
deriving DecidableEq

/-- A once grant for one target of type `κ`. -/
structure OnceGrant (κ : Type) where
  id : Nat
  peer : PeerIdentity
  target : κ
  scopes : List AccessScope
  expires : Instant
  expiresAtUnixSeconds : Nat
  createdUnixSeconds : Nat
  displayName : Option String

abbrev Grant := OnceGrant SplintTarget

abbrev LairGrant := OnceGrant LairId

inductive GrantResource where
  | splint (target : SplintTarget)
  | lair (lairId : LairId)
deriving DecidableEq

structure AccessGrant where
  grantId : Nat
  splintId : SplintId
  incarnation : Nat
  scopes : List AccessScope
  requester : String
  expiresAtUnixSeconds : Nat

inductive AccessGrantSource where
  | ephemeral
  | persistentPolicy
  | development
  | workspaceSession
  | remembered

structure LairAccessGrant where
  grantId : Nat
  source : AccessGrantSource
  lairId : LairId
  scopes : List AccessScope
  requester : String
  expiresAtUnixSeconds : Nat

def Grant.wire (grant : Grant) : AccessGrant where
  grantId := grant.id
  splintId := grant.target.splintId
  incarnation := grant.target.incarnation
  scopes := grant.scopes
  requester := grant.peer.executableLabel
  expiresAtUnixSeconds := grant.expiresAtUnixSeconds

def LairGrant.wire (grant : LairGrant) : LairAccessGrant where
  grantId := grant.id
  source := .ephemeral
  lairId := grant.target
  scopes := grant.scopes
  requester := grant.peer.executableLabel
  expiresAtUnixSeconds := grant.expiresAtUnixSeconds

inductive AuditDecision where
  | granted
  | denied
  | revoked

structure AuditRecord where
  order : Nat
  unixSeconds : Nat
  peerUid : Nat
  peerPid : Nat
  requester : String
  resource : GrantResource
  scopes : List AccessScope
  decision : AuditDecision
  reason : String

structure AuthorizationMutation where
  grant : AccessGrant
  authorizationRevision : Nat

structure LairAuthorizationMutation where
  grant : LairAccessGrant
  authorizationRevision : Nat

inductive RevokedAuthorization where
  | splint (mutation : AuthorizationMutation)
  | lair (mutation : LairAuthorizationMutation)

structure GrantStore where
  ids : GrantIds
  nextAuditOrder : Nat
  grants : List Grant
  lairGrants : List LairGrant
  audit : List AuditRecord

/-- Keeps the `i`-th element when it has not expired at the reading `now i`. -/
def retainLive {κ : Type} (now : Nat → Instant) (grants : List (OnceGrant κ)) : List (OnceGrant κ) :=
  (grants.zipIdx.filter fun (grant, i) => grant.expires > now i).map (·.1)

/-- The first element accepted at its own reading. -/
def findLive {κ : Type} (now : Nat → Instant) (p : OnceGrant κ → Bool)
    (grants : List (OnceGrant κ)) : Option (OnceGrant κ) :=
  (grants.zipIdx.find? fun (grant, i) => p grant ∧ grant.expires > now i).map (·.1)

/-- Merges a grant call into the grant already held. -/
def OnceGrant.extend {κ : Type} (grant : OnceGrant κ) (scopes : List AccessScope)
    (displayName : Option String) (clock : Clock) : OnceGrant κ :=
  { grant with
    scopes := scopeSet (grant.scopes ++ scopes)
    expires := clock.later 0 + grantLifetime
    expiresAtUnixSeconds := clock.unixSeconds + grantLifetimeSeconds
    displayName := displayName <|> grant.displayName }

/-- The grant a call returns, the list it leaves and the counters: the grant held for the same peer
and target is extended, otherwise a new one is pushed. -/
def grantIn {κ : Type} [DecidableEq κ] (peer : PeerIdentity) (target : κ)
    (scopes : List AccessScope) (displayName : Option String) (clock : Clock)
    (grants : List (OnceGrant κ)) (ids : GrantIds) : OnceGrant κ × List (OnceGrant κ) × GrantIds :=
  match splitFirst (fun grant : OnceGrant κ => grant.peer = peer ∧ grant.target = target) grants with
  | some (pre, grant, post) =>
    let grant := grant.extend scopes displayName clock
    (grant, pre ++ grant :: post, ids)
  | none =>
    let (id, ids) := ids.draw
    let grant : OnceGrant κ :=
      { id
        peer
        target
        scopes := scopeSet scopes
        expires := clock.later 0 + grantLifetime
        expiresAtUnixSeconds := clock.unixSeconds + grantLifetimeSeconds
        createdUnixSeconds := clock.unixSeconds
        displayName }
    (grant, grants ++ [grant], ids)

namespace GrantStore

def new : GrantStore where
  ids := ⟨0, 0⟩
  nextAuditOrder := 0
  grants := []
  lairGrants := []
  audit := []

variable (s : GrantStore)

def advanceAuthorizationRevision : GrantStore :=
  { s with ids := s.ids.advanceRevision }

def record (peer : PeerIdentity) (resource : GrantResource) (scopes : List AccessScope)
    (decision : AuditDecision) (reason : String) (clock : Clock) (s : GrantStore) : GrantStore :=
  let order := saturatingAdd s.nextAuditOrder 1
  { s with
    nextAuditOrder := order
    audit := (if s.audit.length = maxAuditRecords then s.audit.tail else s.audit) ++
      [{ order
         unixSeconds := clock.unixSeconds
         peerUid := peer.uid
         peerPid := peer.pid
         requester := peer.executableLabel
         resource
         scopes := scopeSet scopes
         decision
         reason }] }

variable (grantId : Nat) (clock : Clock)

def removeExpired : GrantStore :=
  let grants := retainLive clock.pass s.grants
  if grants.length ≠ s.grants.length then
    advanceAuthorizationRevision { s with grants }
  else { s with grants }

/-- Records the end of each grant in turn. -/
def recordRevoked {κ : Type} (resource : κ → GrantResource) (reason : String) (clock : Clock)
    (grants : List (OnceGrant κ)) (s : GrantStore) : GrantStore :=
  grants.foldl
    (fun s grant => s.record grant.peer (resource grant.target) grant.scopes .revoked reason clock) s

def revokeAll (reason : String) (clock : Clock) (s : GrantStore) : List Nat × GrantStore :=
  let s := s.removeExpired clock
  let lairGrants := s.lairGrants.filter fun grant => grant.expires > clock.later 0
  let revoked := s.grants.map (·.id) ++ lairGrants.map (·.id)
  let s := recordRevoked .lair reason clock lairGrants
    (recordRevoked .splint reason clock s.grants { s with grants := [], lairGrants := [] })
  (revoked, if revoked = [] then s else s.advanceAuthorizationRevision)

/-- One grant as the access inventory shows it. -/
structure OnceGrantView where
  grantId : Nat
  peer : PeerIdentity
  target : GrantResource
  scopes : List AccessScope
  displayName : Option String
  createdUnixSeconds : Nat
  expiresAtUnixSeconds : Nat

def view {κ : Type} (resource : κ → GrantResource) (grant : OnceGrant κ) : OnceGrantView where
  grantId := grant.id
  peer := grant.peer
  target := resource grant.target
  scopes := grant.scopes
  displayName := grant.displayName
  createdUnixSeconds := grant.createdUnixSeconds
  expiresAtUnixSeconds := grant.expiresAtUnixSeconds

def inventory : List OnceGrantView × GrantStore :=
  let s := s.removeExpired clock
  (s.grants.map (view .splint) ++ (s.lairGrants.filter fun grant => grant.expires > clock.later 0).map (view .lair), s)

def liveCount : Nat × GrantStore :=
  let s := s.removeExpired clock
  (s.grants.length + (s.lairGrants.filter fun grant => grant.expires > clock.later 0).length, s)

def authorize (peer : PeerIdentity) (target : SplintTarget) (required : List AccessScope)
    (clock : Clock) (s : GrantStore) : Option Nat × GrantStore :=
  let s := s.removeExpired clock
  ((s.grants.find? fun grant =>
      grant.peer = peer ∧ grant.target = target ∧ ∀ scope ∈ required, scope ∈ grant.scopes).map
    (·.id), s)

def authorizeLair (peer : PeerIdentity) (lairId : LairId) (required : List AccessScope)
    (clock : Clock) (s : GrantStore) : Option Nat × GrantStore :=
  let s := s.removeExpired clock
  ((findLive clock.later (fun grant =>
      grant.peer = peer ∧ grant.target = lairId ∧ ∀ scope ∈ required, scope ∈ grant.scopes)
      s.lairGrants).map (·.id), s)

def status (target : SplintTarget) (clock : Clock) (s : GrantStore) : List AccessGrant × GrantStore :=
  let s := s.removeExpired clock
  ((s.grants.filter fun grant => grant.target = target).map Grant.wire, s)

def lairStatus (lairId : LairId) (clock : Clock) (s : GrantStore) : List LairAccessGrant × GrantStore :=
  let s := s.removeExpired clock
  (((retainLive clock.later s.lairGrants).filter fun grant => grant.target = lairId).map LairGrant.wire, s)

def grant (peer : PeerIdentity) (target : SplintTarget) (scopes : List AccessScope) (clock : Clock)
    (s : GrantStore) : AuthorizationMutation × GrantStore :=
  let s := s.removeExpired clock
  let (grant, grants, ids) := grantIn peer target scopes none clock s.grants s.ids
  let s := record peer (.splint target) scopes .granted "grant once" clock
    (advanceAuthorizationRevision { s with grants, ids })
  (⟨Grant.wire grant, s.ids.revision⟩, s)

def grantLairNamed (peer : PeerIdentity) (lairId : LairId) (scopes : List AccessScope)
    (displayName : Option String) (clock : Clock) (s : GrantStore) : LairAuthorizationMutation × GrantStore :=
  let s := s.removeExpired clock
  let (grant, lairGrants, ids) := grantIn peer lairId scopes displayName clock s.lairGrants s.ids
  let s := record peer (.lair lairId) scopes .granted "grant Lair once" clock
    (advanceAuthorizationRevision { s with lairGrants, ids })
  (⟨LairGrant.wire grant, s.ids.revision⟩, s)

def deny (peer : PeerIdentity) (resource : GrantResource) (scopes : List AccessScope)
    (reason : String) (clock : Clock) (s : GrantStore) : GrantStore :=
  s.record peer resource scopes .denied reason clock

def position {κ : Type} (grantId : Nat) (grants : List (OnceGrant κ)) :
    Option (List (OnceGrant κ) × OnceGrant κ × List (OnceGrant κ)) :=
  splitFirst (fun grant => grant.id = grantId) grants

def revoke : Option AuthorizationMutation × GrantStore :=
  match position grantId s.grants with
  | none => (none, s)
  | some (pre, grant, post) =>
    let s := record grant.peer (.splint grant.target) grant.scopes .revoked
      "explicit local revocation" clock
      (advanceAuthorizationRevision { s with grants := pre ++ post })
    (some ⟨Grant.wire grant, s.ids.revision⟩, s)

def revokeAny : Option RevokedAuthorization × GrantStore :=
  match s.revoke grantId clock with
  | (some revoked, s) => (some (.splint revoked), s)
  | (none, s) =>
    match position grantId s.lairGrants with
    | none => (none, s)
    | some (pre, grant, post) =>
      let s := record grant.peer (.lair grant.target) grant.scopes .revoked
        "explicit local revocation" clock
        (advanceAuthorizationRevision { s with lairGrants := pre ++ post })
      (some (.lair ⟨LairGrant.wire grant, s.ids.revision⟩), s)

/-- The position is looked for with one reading per Lair grant, from the second reading on. -/
def revokeLairIfExpired : Option LairAuthorizationMutation × GrantStore :=
  match splitFirst (fun entry : LairGrant × Nat =>
      entry.1.id = grantId ∧ entry.1.expires ≤ clock.later (entry.2 + 1)) s.lairGrants.zipIdx with
  | none => (none, s)
  | some (pre, (grant, _), post) =>
    let s := record grant.peer (.lair grant.target) grant.scopes .revoked "grant expired" clock
      (advanceAuthorizationRevision { s with lairGrants := pre.map (·.1) ++ post.map (·.1) })
    (some ⟨LairGrant.wire grant, s.ids.revision⟩, s)

def endIfExpired : Bool × GrantStore :=
  match position grantId s.grants with
  | some (pre, grant, post) =>
    if grant.expires > clock.later 0 then (false, s)
    else
      (true, record grant.peer (.splint grant.target) grant.scopes .revoked "grant expired" clock
        (advanceAuthorizationRevision { s with grants := pre ++ post }))
  | none =>
    match s.lairGrants.find? fun grant => grant.id = grantId with
    | some grant =>
      if grant.expires > clock.later 0 then (false, s)
      else (true, (s.revokeLairIfExpired grantId clock).2)
    | none => (true, (s.revokeLairIfExpired grantId clock).2)

def grantWithRevision : Option AuthorizationMutation × GrantStore :=
  let s := s.removeExpired clock
  ((s.grants.find? fun grant => grant.id = grantId).map fun grant => ⟨Grant.wire grant, s.ids.revision⟩, s)

def lairGrantWithRevision : Option LairAuthorizationMutation × GrantStore :=
  let s := s.removeExpired clock
  ((s.lairGrants.find? fun grant => grant.id = grantId).map fun grant => ⟨LairGrant.wire grant, s.ids.revision⟩, s)

def revokeLair (lairId : LairId) (reason : String) (clock : Clock) (s : GrantStore) : List Nat × GrantStore :=
  let removed := s.lairGrants.filter fun grant => grant.target = lairId
  let s := { s with lairGrants := s.lairGrants.filter fun grant => grant.target ≠ lairId }
  let s := if removed = [] then s else s.advanceAuthorizationRevision
  (removed.map (·.id), recordRevoked .lair reason clock removed s)

def revokeIdentity (target : SplintTarget) (reason : String) (clock : Clock) (s : GrantStore) : List Nat × GrantStore :=
  let removed := s.grants.filter fun grant => grant.target = target
  let s := { s with grants := s.grants.filter fun grant => grant.target ≠ target }
  let s := if removed = [] then s else s.advanceAuthorizationRevision
  (removed.map (·.id), recordRevoked .splint reason clock removed s)

/-- Another source of authority draws an id from the shared counter. -/
def drawId : Nat × GrantStore :=
  let (id, ids) := s.ids.draw
  (id, { s with ids })

end GrantStore

end Splinterm.Daemon
