import Mathlib.Data.String.Basic
import Splinterm.Lib.Json
import Splinterm.Daemon.Types

/-!
# Automation policy documents

A document lists rules: which executable may use which scopes on which resources,
within which limits. When a document is published, its selectors are expanded over
the topology of that moment; later requests are compared with the expansion. The opening
and reading of the policy file and the decoding of its JSON are not modelled:
`inspectFile` starts from their result.
-/

namespace Splinterm.Policy

open Core Daemon Lib Hoare

def maxRules : Nat := 64

def maxResources : Nat := 64

def maxRuleIdBytes : Nat := 64

def maxRuleScopes : Nat := 19

def maxPathBytes : Nat := 4096

def maxDiagnosticBytes : Nat := 512

def maxResolvedResourcesPerRule : Nat := 512

/-- `AutomationScope` of the protocol. -/
inductive OperationScope where
  | topologyMetadataRead
  | topologySubscribe
  | terminalVisibleRead
  | terminalSubscribe
  | scrollbackRead
  | scrollbackSearch
  | controllerAcquire
  | controllerTransfer
  | input
  | resize
  | processSpawn
  | processRestore
  | processTerminate
  | topologyLayoutMutate
  | topologyNameMutate
  | authorizationInspect
  | authorizationRevoke
  | auditInspect
  | agentStatusReport
deriving DecidableEq

/-! ## Paths -/

inductive Component where
  | rootDir
  | curDir
  | parentDir
  | normal (name : List UInt8)
deriving DecidableEq

/-- A piece between two slashes; empty pieces and inner dots do not count. -/
def Component.of (name : List UInt8) : Option Component :=
  if name = [] ∨ name = [0x2E] then none
  else if name = [0x2E, 0x2E] then some .parentDir
  else some (.normal name)

def components (path : PathBuf) : List Component :=
  let pieces := path.splitOn 0x2F
  let start : List Component :=
    if path.head? = some 0x2F then [.rootDir]
    else if pieces.head? = some [0x2E] then [.curDir] else []
  start ++ pieces.filterMap Component.of

/-- Paths are equal when their components are. -/
def samePath (a b : PathBuf) : Bool := components a = components b

def isAbsolute (path : PathBuf) : Bool := path.head? = some 0x2F

def validatePolicyPath (path : PathBuf) : Except String Unit := do
  rejectIf (path = [] ∨ path.length > maxPathBytes ∨ ¬ isAbsolute path)
    "policy path must be a bounded absolute path"
  rejectIf ((components path).any fun component => component = .curDir ∨ component = .parentDir)
    "policy path must be canonical"

/-! ## Rules -/

structure ExecutableMatcher where
  path : PathBuf
  sha256 : String
deriving DecidableEq

inductive IncarnationSelector where
  | exact (value : Nat)
  | current (text : String)
deriving DecidableEq

inductive ResourceSelector where
  | daemon
  | lair (lairId : LairId)
  | dojo (dojoId : DojoId)
  | splint (splintId : SplintId) (incarnation : IncarnationSelector)
deriving DecidableEq

inductive ResolvedResourceSelector where
  | daemon
  | lair (lairId : LairId)
  | dojo (dojoId : DojoId)
  | splint (splintId : SplintId) (incarnation : IncarnationSelector)
deriving DecidableEq

structure PolicyLimits where
  maxReturnedRows : Option Nat
  maxResults : Option Nat
  maxReturnedBytes : Option Nat
  maxLiveSubscriptions : Option Nat
  maxSpawnCount : Option Nat
  deadlineMs : Option Nat
deriving DecidableEq

structure RequestedLimits where
  returnedRows : Option Nat
  results : Option Nat
  returnedBytes : Option Nat
  liveSubscriptions : Option Nat
  spawnCount : Option Nat
  deadlineMs : Option Nat

inductive PolicyResource where
  | daemon
  | lair (lairId : LairId)
  | dojo (lairId : LairId) (dojoId : DojoId)
  | splint (lairId : LairId) (dojoId : DojoId) (splintId : SplintId) (incarnation : Option Nat)

structure PolicyRequest where
  requiredScopes : List OperationScope
  anyScope : List OperationScope
  resources : List PolicyResource
  limits : RequestedLimits

structure PolicyRule where
  id : String
  executable : ExecutableMatcher
  expiresAtUnixSeconds : Option Nat
  scopes : List OperationScope
  resources : List ResourceSelector
  limits : PolicyLimits
deriving DecidableEq

structure PolicyMatch where
  ruleId : String
  maxSpawnCount : Option Nat
  maxReturnedBytes : Option Nat
deriving DecidableEq

structure PolicyDocument where
  schema : String
  rules : List PolicyRule
  resolvedResources : OrdMap String (List ResolvedResourceSelector)

def policySchema : String := "splinterm.policy.v2"

def PolicyDocument.denyAll : PolicyDocument := ⟨policySchema, [], .empty⟩

/-! ## Matching -/

def limitAllows (allowed requested : Option Nat) : Bool :=
  match requested with
  | none => true
  | some requested => allowed.any fun allowed => requested ≤ allowed

def PolicyLimits.allows (limits : PolicyLimits) (requested : RequestedLimits) : Bool :=
  limitAllows limits.maxReturnedRows requested.returnedRows && limitAllows limits.maxResults requested.results &&
  limitAllows limits.maxReturnedBytes requested.returnedBytes &&
  limitAllows limits.maxLiveSubscriptions requested.liveSubscriptions &&
  limitAllows limits.maxSpawnCount requested.spawnCount && limitAllows limits.deadlineMs requested.deadlineMs

def IncarnationSelector.selects (requested : Option Nat) : IncarnationSelector → Bool
  | .exact expected => some expected = requested
  | .current value => value = "current"

def ResolvedResourceSelector.selects : ResolvedResourceSelector → PolicyResource → Bool
  | .daemon, .daemon => true
  | .lair expected, .lair lairId => expected = lairId
  | .dojo expected, .dojo _ dojoId => expected = dojoId
  | .splint splintId incarnation, .splint _ _ requestedId requested =>
    splintId = requestedId && incarnation.selects requested
  | _, _ => false

def PolicyRule.unexpired (now : Nat) (rule : PolicyRule) : Bool :=
  rule.expiresAtUnixSeconds.all fun expiration => expiration > now

def PolicyRule.isFor (executable : ExecutableIdentity) (rule : PolicyRule) : Bool :=
  samePath rule.executable.path executable.path && rule.executable.sha256 = executable.sha256

/-- `PolicyRule::matches`. -/
def PolicyRule.admits (executable : ExecutableIdentity) (request : PolicyRequest)
    (resolved : List ResolvedResourceSelector) (now : Nat) (rule : PolicyRule) : Bool :=
  rule.isFor executable && rule.unexpired now && !request.resources.isEmpty &&
  request.requiredScopes.all (fun scope => scope ∈ rule.scopes) &&
  (request.anyScope.isEmpty || request.anyScope.any fun scope => scope ∈ rule.scopes) &&
  request.resources.all (fun resource => resolved.any fun selector => selector.selects resource) &&
  rule.limits.allows request.limits

def PolicyDocument.authorize (executable : ExecutableIdentity) (request : PolicyRequest)
    (now : Nat) (document : PolicyDocument) : Option PolicyMatch :=
  document.rules.findSome? fun rule =>
    match document.resolvedResources.get? rule.id with
    | none => none
    | some resources =>
      if rule.admits executable request resources now then
        some ⟨rule.id, rule.limits.maxSpawnCount, rule.limits.maxReturnedBytes⟩
      else none

structure PersistentAuthorizationStatus where
  policyRuleId : String
  scopes : List OperationScope
  expiresAtUnixSeconds : Option Nat

def PolicyRule.status (rule : PolicyRule) : PersistentAuthorizationStatus :=
  ⟨rule.id, rule.scopes, rule.expiresAtUnixSeconds⟩

def PolicyDocument.status (executable : ExecutableIdentity) (resource : PolicyResource)
    (now : Nat) (document : PolicyDocument) : List PersistentAuthorizationStatus :=
  (document.rules.filter fun rule =>
    rule.isFor executable && rule.unexpired now &&
      (document.resolvedResources.get? rule.id).any fun resources =>
        resources.any fun selector => selector.selects resource).map PolicyRule.status

/-! ## Expansion -/

def insertResolved (resource : ResolvedResourceSelector) (resources : List ResolvedResourceSelector) :
    Except String (List ResolvedResourceSelector) := do
  let resources := if resource ∈ resources then resources else resources ++ [resource]
  rejectIf (resources.length > maxResolvedResourcesPerRule)
    "policy rule expands beyond 512 snapshot resources"
  .ok resources

def resolveLayout : LayoutNode → List ResolvedResourceSelector → Except String (List ResolvedResourceSelector)
  | .leaf splint, resources => insertResolved (.splint splint.id (.current "current")) resources
  | .branch _ _ first second, resources => do
    let resources ← resolveLayout first resources
    resolveLayout second resources

def resolveDojo (resources : List ResolvedResourceSelector) (dojo : Dojo) :
    Except String (List ResolvedResourceSelector) := do
  let resources ← insertResolved (.dojo dojo.id) resources
  resolveLayout dojo.root resources

def resolveSelector (topology : Topology) (resources : List ResolvedResourceSelector) :
    ResourceSelector → Except String (List ResolvedResourceSelector)
  | .daemon => insertResolved .daemon resources
  | .lair lairId =>
    match topology.findLair lairId with
    | none => .error "policy Lair selector is not present in the topology snapshot"
    | some lair => do
      let resources ← insertResolved (.lair lair.id) resources
      lair.dojos.foldlM resolveDojo resources
  | .dojo dojoId =>
    match topology.findDojo dojoId with
    | none => .error "policy Dojo selector is not present in the topology snapshot"
    | some dojo => resolveDojo resources dojo
  | .splint splintId incarnation =>
    match topology.findSplint splintId with
    | none => .error "policy Splint selector is not present in the topology snapshot"
    | some _ => insertResolved (.splint splintId incarnation) resources

def resolveRule (topology : Topology) (rule : PolicyRule) : Except String (List ResolvedResourceSelector) :=
  rule.resources.foldlM (resolveSelector topology) []

def resolveRules (topology : Topology) (rules : List PolicyRule) :
    Except String (OrdMap String (List ResolvedResourceSelector)) :=
  rules.foldlM (fun resolved rule => do
    let resources ← resolveRule topology rule
    .ok (resolved.insert rule.id resources)) .empty

def PolicyDocument.resolveAgainst (topology : Topology) (document : PolicyDocument) : Except String PolicyDocument := do
  let resolved ← resolveRules topology document.rules
  .ok { document with resolvedResources := resolved }

/-! ## Validation -/

def bounded (value : Option Nat) (maximum : Nat) (name : String) : Except String Unit :=
  rejectIf (value.any fun value => value = 0 ∨ value > maximum)
    (name ++ " is outside policy bounds")

def PolicyLimits.populatedFields (limits : PolicyLimits) : Nat :=
  [limits.maxReturnedRows.isSome, limits.maxResults.isSome, limits.maxReturnedBytes.isSome,
    limits.maxLiveSubscriptions.isSome, limits.maxSpawnCount.isSome, limits.deadlineMs.isSome].count true

def PolicyLimits.validate (limits : PolicyLimits) : Except String Unit := do
  rejectIf (limits.populatedFields = 0) "policy limits must contain at least one bound"
  bounded limits.maxReturnedRows 80 "max_returned_rows"
  bounded limits.maxResults 64 "max_results"
  bounded limits.maxReturnedBytes (8 * 1024 * 1024) "max_returned_bytes"
  bounded limits.maxLiveSubscriptions 4 "max_live_subscriptions"
  bounded limits.maxSpawnCount 64 "max_spawn_count"
  bounded limits.deadlineMs 300000 "deadline_ms"

def isAsciiLowercase (byte : UInt8) : Bool := 0x61 ≤ byte ∧ byte ≤ 0x7A

def isAsciiDigit (byte : UInt8) : Bool := 0x30 ≤ byte ∧ byte ≤ 0x39

def validRuleId (id : String) : Bool :=
  let bytes := Json.utf8 id
  bytes.length ≤ maxRuleIdBytes && bytes.head?.any isAsciiLowercase &&
    bytes.all fun byte => isAsciiLowercase byte || isAsciiDigit byte || byte = 0x2D

def validSha256 (sha256 : String) : Bool :=
  let bytes := Json.utf8 sha256
  bytes.length = 64 && bytes.all fun byte => isAsciiDigit byte || (0x61 ≤ byte && byte ≤ 0x66)

def validateSelector : ResourceSelector → Except String Unit
  | .splint _ (.exact value) => rejectIf (value = 0) "policy Splint incarnation must be nonzero"
  | .splint _ (.current value) => rejectIf (value ≠ "current") "policy current incarnation selector is invalid"
  | _ => .ok ()

def validateRule (rule : PolicyRule) (now : Nat) : Except String Unit := do
  rejectIf (¬ validRuleId rule.id) "policy rule ID is invalid"
  match validatePolicyPath rule.executable.path with
  | .error _ => .error "invalid executable policy path"
  | .ok () => .ok ()
  rejectIf (¬ validSha256 rule.executable.sha256) "policy executable SHA-256 is invalid"
  rejectIf (rule.expiresAtUnixSeconds.any fun expiration => expiration ≤ now)
    "policy contains an expired rule"
  rejectIf (rule.scopes = [] ∨ rule.scopes.length > maxRuleScopes)
    "policy rule scopes are empty or exceed limits"
  rejectIf (¬ rule.scopes.Nodup) "policy rule scopes must be unique"
  rejectIf (rule.resources = [] ∨ rule.resources.length > maxResources)
    "policy rule resources are empty or exceed limits"
  rejectIf (¬ rule.resources.Nodup) "policy rule resources must be unique"
  rule.resources.forM validateSelector
  rule.limits.validate

/-- The rules one after the other, with the ids seen so far. -/
def validateRules (now : Nat) : List String → List PolicyRule → Except String Unit
  | _, [] => .ok ()
  | ids, rule :: rules => do
    validateRule rule now
    rejectIf (rule.id ∈ ids) "policy rule IDs must be unique"
    validateRules now (rule.id :: ids) rules

def validateDocument (document : PolicyDocument) (now : Nat) : Except String Unit := do
  rejectIf (document.schema ≠ policySchema) "unsupported policy schema"
  rejectIf (document.rules.length > maxRules) "policy contains too many rules"
  validateRules now [] document.rules

/-- `inspect_file` from the decoded document on; `resolved_resources` is not part of the file. -/
def inspectFile (decoded : Except String PolicyDocument) (now : Nat) : Except String PolicyDocument := do
  let document ← decoded
  validateDocument document now
  .ok { document with resolvedResources := .empty }

end Splinterm.Policy
