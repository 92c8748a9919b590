import Mathlib
import OpenShell.Prover.RestPath
import OpenShell.Prover.Structural
import OpenShell.Util.Utf8

/-!
# Checking a candidate against a boundary

`check_within_boundary` of `containment.rs`: limits, validation, process and
Landlock settings, filesystem paths, and the network in both identity modes. The
caller passes no cancellation flag.

The solver is a parameter, `Solver`. It answers a query or gives up, for want of
time or for any other reason; an answer it does give is right. Counters are
natural numbers, which a `usize` that saturates above the limits cannot be told
from.
-/

namespace OpenShell.Prover

open OpenShell.Core OpenShell.Schema

inductive FilesystemAccess
  | read | write
  deriving DecidableEq

def FilesystemAccess.asStr : FilesystemAccess → String
  | .read => "read"
  | .write => "write"

/-- `Counterexample::Network`. -/
structure NetworkWitness where
  binary : Option String
  ancestorBinary : Option String
  binaryIdentityRequired : Bool
  host : String
  destinationIp : IpAddr
  trustedGateway : Bool
  port : UInt16
  protocol : Protocol
  method : Option String
  path : Option String
  deriving DecidableEq

/-- Concrete action showing why containment failed. -/
inductive Counterexample
  | process (field boundary candidate : String)
  | landlock (boundary candidate : String)
  | filesystem (access : FilesystemAccess) (path : String)
  | network (witness : NetworkWitness)
  deriving DecidableEq

/-- Result of a boundary proof attempt. -/
inductive CheckResult
  | within
  | exceeds (counterexample : Counterexample)
  | unsupported (code : ReasonCode) (reason : String)
  | inconclusive (code : ReasonCode) (reason : String)
  deriving DecidableEq

/-! ## Resource limits -/

def maxRules : Nat := 1024
def maxEndpoints : Nat := 4096
def maxBinaries : Nat := 4096
def maxPortEntries : Nat := 65536
def maxL7Rules : Nat := 16384
def maxIpRanges : Nat := 4096
def maxPatternBytes : Nat := 4 * 1024
def maxTotalPatternBytes : Nat := 1024 * 1024

def resourceLimitDetail (metric : String) (observed limit : Nat) : String :=
  s!"containment model exceeds resource limit ({metric}={observed}, limit={limit})"

/-- The counters of the pass over both policies. -/
structure LimitState where
  portEntries : Nat := 0
  l7Rules : Nat := 0
  ipRanges : Nat := 0
  patternBytes : Nat := 0

def accountPatternBytes (st : LimitState) (value : String) : Except String LimitState := do
  rejectIf (byteLen value > maxPatternBytes)
    (resourceLimitDetail "longest_pattern" (byteLen value) maxPatternBytes)
  let st := { st with patternBytes := st.patternBytes + byteLen value }
  rejectIf (st.patternBytes > maxTotalPatternBytes)
    (resourceLimitDetail "pattern_bytes" st.patternBytes maxTotalPatternBytes)
  return st

def accountEndpoint (st : LimitState) (endpoint : NetworkEndpoint) : Except String LimitState := do
  let entries := max (if endpoint.ports.isEmpty && endpoint.port != 0 then 1 else 0)
    endpoint.ports.length
  let st := { st with portEntries := st.portEntries + entries }
  rejectIf (st.portEntries > maxPortEntries)
    (resourceLimitDetail "port_entries" st.portEntries maxPortEntries)
  let st := { st with l7Rules := st.l7Rules + endpoint.rules.length + endpoint.denyRules.length }
  rejectIf (st.l7Rules > maxL7Rules) (resourceLimitDetail "l7_rules" st.l7Rules maxL7Rules)
  let st := { st with ipRanges := st.ipRanges + endpoint.allowedIps.length }
  rejectIf (st.ipRanges > maxIpRanges) (resourceLimitDetail "ip_ranges" st.ipRanges maxIpRanges)
  let st ← [endpoint.host, endpoint.path].foldlM accountPatternBytes st
  let st ← endpoint.allowedIps.foldlM accountPatternBytes st
  let st ← endpoint.rules.foldlM
    (fun st rule => [rule.allow.path, rule.allow.method].foldlM accountPatternBytes st) st
  endpoint.denyRules.foldlM
    (fun st rule => [rule.path, rule.method].foldlM accountPatternBytes st) st

def accountRule (st : LimitState) (rule : NetworkPolicyRule) : Except String LimitState := do
  let st ← rule.binaries.foldlM (fun st binary => accountPatternBytes st binary.path) st
  rule.endpoints.foldlM accountEndpoint st

def accountPolicy (st : LimitState) (policy : ContainmentPolicy) : Except String LimitState := do
  let st ← (policy.filesystemPolicy.readOnly ++ policy.filesystemPolicy.readWrite).foldlM
    accountPatternBytes st
  policy.rules.foldlM accountRule st

section Checks
variable (boundary candidate : ContainmentPolicy)

/-- `resource_limit_reason`, as the error of a pass. -/
def accountPolicies : Except String LimitState := do
  let rules := boundary.rules ++ candidate.rules
  rejectIf (rules.length > maxRules) (resourceLimitDetail "rules" rules.length maxRules)
  let endpointCount := (rules.map (·.endpoints.length)).sum
  rejectIf (endpointCount > maxEndpoints)
    (resourceLimitDetail "endpoints" endpointCount maxEndpoints)
  let binaryCount := (rules.map (·.binaries.length)).sum
  rejectIf (binaryCount > maxBinaries) (resourceLimitDetail "binaries" binaryCount maxBinaries)
  [boundary, candidate].foldlM accountPolicy {}

def resourceLimitReason : Option String :=
  match accountPolicies boundary candidate with
  | .error reason => some reason
  | .ok _ => none

def preflightAndValidatePolicies (timeout : Nat) : Option CheckResult :=
  match resourceLimitReason boundary candidate with
  | some reason => some (.inconclusive .resourceLimit reason)
  | none =>
    if timeout = 0 then some (.inconclusive .solverTimeout "solver timeout must be positive")
    else match validateSupportedPolicy boundary, validateSupportedPolicy candidate with
      | .error feature, _ =>
        some (.unsupported feature.reasonCode ("boundary policy " ++ feature.detail))
      | .ok _, .error feature =>
        some (.unsupported feature.reasonCode ("candidate policy " ++ feature.detail))
      | .ok _, .ok _ => none

/-! ## Process and Landlock -/

def isRoot (identity : String) : Bool := identity == "root" || identity == "0"

/-- One turn of the loop over the process identities. -/
def identityChange (field boundary candidate : String) : Option CheckResult :=
  if boundary = candidate ∨ (isRoot boundary ∧ isRoot candidate) then none
  else if !isEmptyStr boundary && !isRoot boundary && isRoot candidate then
    some (.exceeds (.process field boundary candidate))
  else some (.unsupported .unsupportedPolicyShape
    (s!"process {field} changes from '{boundary}' to '{candidate}'; " ++
      "identity resolution and ordering require execution-environment evidence"))

def runAsUser (policy : ContainmentPolicy) : String := (policy.process.map (·.runAsUser)).getD ""

def runAsGroup (policy : ContainmentPolicy) : String := (policy.process.map (·.runAsGroup)).getD ""

def hardRequirement (policy : ContainmentPolicy) : Bool :=
  policy.landlock.any (·.compatibility == .hardRequirement)

def CheckResult.isExceeds : CheckResult → Bool
  | .exceeds _ => true
  | _ => false

/-- `execution::check`. -/
def executionCheck : Option CheckResult :=
  let user := identityChange "run_as_user" (runAsUser boundary) (runAsUser candidate)
  let group := identityChange "run_as_group" (runAsGroup boundary) (runAsGroup candidate)
  if user.any (·.isExceeds) then user
  else if group.any (·.isExceeds) then group
  else if hardRequirement boundary && !hardRequirement candidate then
    some (.exceeds (.landlock "hard_requirement" "best_effort"))
  else user.or group

/-! ## Filesystem -/

def workdirSymbol : String := "<OCI_WORKDIR>"

def pathIsCovered (candidate : String) (boundaryPaths : List String) : Bool :=
  boundaryPaths.any fun boundary => boundary == "/" || candidate == boundary

def unresolvedWorkdirReason : Option String :=
  let boundaryWrites := boundary.filesystemPolicy.readWrite
  let boundaryReads := boundary.filesystemPolicy.readOnly ++ boundaryWrites
  if candidate.filesystemPolicy.includeWorkdir && !boundary.filesystemPolicy.includeWorkdir &&
      !boundaryWrites.any (· == "/") then
    some "candidate filesystem authority depends on an unresolved image workdir"
  else if boundary.filesystemPolicy.includeWorkdir &&
      (candidate.filesystemPolicy.readWrite.any (!pathIsCovered · boundaryWrites) ||
        candidate.filesystemPolicy.readOnly.any (!pathIsCovered · boundaryReads)) then
    some "boundary filesystem authority depends on an unresolved image workdir"
  else none

/-- What a boundary lets a sandbox write. -/
def writeMaxima (boundary : ContainmentPolicy) : List String :=
  boundary.filesystemPolicy.readWrite ++
    if boundary.filesystemPolicy.includeWorkdir then [workdirSymbol] else []

/-- What a boundary lets a sandbox read. -/
def readMaxima (boundary : ContainmentPolicy) : List String :=
  boundary.filesystemPolicy.readOnly ++ writeMaxima boundary

/-- One turn of the inner loop: an early return, or the finding so far. -/
def checkPath (access : FilesystemAccess) (maxima : List String) (unresolved : Option CheckResult)
    (path : String) : Except CheckResult (Option CheckResult) :=
  if pathIsCovered path maxima then .ok unresolved
  else if maxima.isEmpty then .error (.exceeds (.filesystem access path))
  else
    let accessText := access.asStr
    .ok (some (.unsupported .unresolvedFilesystemPath
      (s!"filesystem {accessText} containment for '{path}' " ++
        "depends on sandbox path resolution; use matching paths in candidate and boundary")))

def checkFilesystem : Option CheckResult :=
  let run : Except CheckResult (Option CheckResult) := do
    let unresolved ← candidate.filesystemPolicy.readWrite.foldlM
      (checkPath .write (writeMaxima boundary)) none
    candidate.filesystemPolicy.readOnly.foldlM (checkPath .read (readMaxima boundary)) unresolved
  match run with
  | .error result => some result
  | .ok unresolved => unresolved

end Checks

theorem checkFilesystem_of_ok {boundary candidate : ContainmentPolicy}
    {unresolved unresolved' : Option CheckResult}
    (hwrites : candidate.filesystemPolicy.readWrite.foldlM (checkPath .write (writeMaxima boundary))
      none = .ok unresolved)
    (hreads : candidate.filesystemPolicy.readOnly.foldlM (checkPath .read (readMaxima boundary))
      unresolved = .ok unresolved') :
    checkFilesystem boundary candidate = unresolved' := by
  simp only [checkFilesystem, hwrites, hreads, bind, Except.bind]

/-! ## Binary paths that depend on the image -/

def endpointAuthorityMayOverlap (left right : NetworkEndpoint) : Bool :=
  left.effectivePorts.any (right.effectivePorts.contains ·) &&
    (eqIgnoreAsciiCase left.host right.host || containsChar left.host '*' ||
      containsChar right.host '*')

def endpointAuthoritySetsOverlap (left right : List NetworkEndpoint) : Bool :=
  left.any fun endpoint => right.any (endpointAuthorityMayOverlap endpoint ·)

def endpointAuthorityEqual (left right : NetworkEndpoint) : Bool :=
  left.rules.all (right.rules.contains ·) && right.rules.all (left.rules.contains ·) &&
    left.denyRules.all (right.denyRules.contains ·) &&
    right.denyRules.all (left.denyRules.contains ·) &&
    { left with rules := [], denyRules := [] } == { right with rules := [], denyRules := [] }

def endpointAuthoritySetsEqual (left right : List NetworkEndpoint) : Bool :=
  left.all (fun endpoint => right.any (endpointAuthorityEqual endpoint ·)) &&
    right.all fun endpoint => left.any (endpointAuthorityEqual endpoint ·)

/-- A pattern that may match a path: the `glob` crate refuses some patterns the
runtime supports, and those count as matching. -/
def globMayMatch (glob : Glob) (pattern path : String) : Bool :=
  match glob.new pattern with
  | .error _ => true
  | .ok _ => glob.isMatch pattern path

def hasAmbiguousCandidateBinaryPath (glob : Glob) (boundary candidate : ContainmentPolicy) : Bool :=
  boundary.rules.any fun boundaryRule =>
    (boundaryRule.binaries.filter fun b => containsChar b.path '*' && b.path != "/**").any
      fun boundaryBinary =>
        candidate.rules.any fun candidateRule =>
          endpointAuthoritySetsOverlap candidateRule.endpoints boundaryRule.endpoints &&
            candidateRule.binaries.any fun candidateBinary =>
              !containsChar candidateBinary.path '*' &&
                globMayMatch glob boundaryBinary.path candidateBinary.path &&
                !boundary.rules.any fun exactRule =>
                  endpointAuthoritySetsEqual candidateRule.endpoints exactRule.endpoints &&
                    exactRule.binaries.any fun exactBinary =>
                      exactBinary.path == candidateBinary.path

def unresolvedExactDenySymlink (glob : Glob) (boundary candidate : ContainmentPolicy) : Bool :=
  boundary.rules.any fun boundaryRule =>
    let boundaryDenyEndpoints := boundaryRule.endpoints.filter fun e => !e.denyRules.isEmpty
    if boundaryDenyEndpoints.isEmpty then false
    else
      (boundaryRule.binaries.filter fun b => !containsChar b.path '*').any fun boundaryBinary =>
        candidate.rules.any fun candidateRule =>
          ((candidateRule.endpoints.filter fun e => !e.denyRules.isEmpty).any
              fun candidateEndpoint =>
                boundaryDenyEndpoints.any (endpointAuthorityMayOverlap candidateEndpoint ·)) &&
            candidateRule.binaries.any fun candidateBinary =>
              containsChar candidateBinary.path '*' && candidateBinary.path != "/**" &&
                globMayMatch glob candidateBinary.path boundaryBinary.path

/-! ## Concrete requests -/

def isCanonicalRuntimeBinaryPath (path : String) : Bool :=
  byteLen path ≤ 4 * 1024 && isCanonicalPatternPath path && !path.toList.any isControl

def isCanonicalDnsHost (host : String) : Bool :=
  !isEmptyStr host && byteLen host ≤ 253 &&
    (splitChar host '.').all fun label =>
      !isEmptyStr label && byteLen label ≤ 63 &&
        label.toList.all (fun c =>
          ('a' ≤ c && c ≤ 'z') || ('0' ≤ c && c ≤ '9') || c == '-' || c == '_') &&
        label.toList.head?.any (· != '-') && label.toList.getLast?.any (· != '-')

def isHttpMethod (method : String) : Bool :=
  !isEmptyStr method && method.toList.all fun c =>
    isAsciiAlphanumericChar c ||
      ['!', '#', '$', '%', '&', '\x27', '*', '+', '-', '.', '^', '_', '\x60', '|', '~'].contains c

/-- The action a counterexample describes. -/
def NetworkWitness.action (witness : NetworkWitness) : Action :=
  { binary := witness.binary.getD ""
    ancestorBinary := witness.ancestorBinary.getD ""
    host := witness.host
    port := witness.port.toNat
    layer := witness.protocol.asStr
    method := witness.method.getD "GET"
    path := witness.path.getD "/"
    ip := .concrete witness.destinationIp
    trustedGateway := witness.trustedGateway }

/-- `replace("**", "a")`. -/
def replaceDoubleStars : List Char → List Char
  | [] => []
  | '*' :: '*' :: rest => 'a' :: replaceDoubleStars rest
  | c :: rest => c :: replaceDoubleStars rest

/-- `replace("**", "a").replace('*', "a")`. -/
def replaceStars (pattern : String) : String :=
  replaceChar (String.ofList (replaceDoubleStars pattern.toList)) '*' "a"

def witnessHost (endpoint : NetworkEndpoint) : String :=
  replaceStars (toAsciiLowercase endpoint.host)

def witnessBinary (rule : NetworkPolicyRule) (binaryIdentityRequired : Bool) : Option String :=
  if binaryIdentityRequired then
    some (match rule.binaries.head? with
      | none => "/usr/bin/worker"
      | some binary => replaceStars binary.path)
  else none

def witnessMethod (endpoint : NetworkEndpoint) : String :=
  toAsciiUppercase ((endpoint.rules.head?.map (·.allow.method)).getD "GET")

def witnessPath (endpoint : NetworkEndpoint) : String :=
  let path := (endpoint.rules.head?.map (·.allow.path)).getD endpoint.path
  if isEmptyStr path then "/" else replaceStars path

/-- The request tried for an endpoint at one address. -/
def endpointWitness (rule : NetworkPolicyRule) (endpoint : NetworkEndpoint)
    (binaryIdentityRequired : Bool) (port : UInt16) (destinationIp : IpAddr) : NetworkWitness :=
  { binary := witnessBinary rule binaryIdentityRequired
    ancestorBinary := witnessBinary rule binaryIdentityRequired
    binaryIdentityRequired
    host := witnessHost endpoint
    destinationIp
    trustedGateway := false
    port
    protocol := protocolKind endpoint
    method := if protocolKind endpoint = .rest then some (witnessMethod endpoint) else none
    path := if protocolKind endpoint = .rest then some (witnessPath endpoint) else none }

/-- The requests tried for one endpoint of the candidate. -/
def endpointWitnesses (rule : NetworkPolicyRule) (endpoint : NetworkEndpoint)
    (binaryIdentityRequired : Bool) : List NetworkWitness :=
  if !isCanonicalDnsHost (witnessHost endpoint) ||
      !isCanonicalRestPath (utf8Bytes (witnessPath endpoint)) ||
      !isHttpMethod (witnessMethod endpoint) then []
  else
    -- `effective_ports()[0]`: a validated endpoint has a port
    endpoint.effectivePorts.head?.toList.flatMap fun port =>
      (sampleAddresses endpoint).map (endpointWitness rule endpoint binaryIdentityRequired port)

/-- The requests tried for the first endpoints of the candidate, in order. -/
def concreteWitnesses (candidate : ContainmentPolicy) (binaryIdentityRequired : Bool) :
    List NetworkWitness :=
  ((candidate.rules.flatMap fun rule => rule.endpoints.map fun endpoint => (rule, endpoint)).take
    8).flatMap fun (rule, endpoint) => endpointWitnesses rule endpoint binaryIdentityRequired

/-! ## The solver -/

/-- What became of a query. -/
inductive SolverAnswer
  | timeout
  | unsat
  | unknown (reason : Option String)
  /-- The action of the model, where it could be read back. -/
  | sat (model : Option Action)

/-- The solver: its simplifier, also on closed formulas, and its answers. What it
answers is right. -/
structure Solver (glob : Glob) extends Simplifier where
  ground : ContainmentPolicy → ContainmentPolicy → Action → Bool → Option Bool
  ground_sound : ∀ boundary candidate action mode answer,
    ground boundary candidate action mode = some answer →
    (policyAllows glob toSimplifier candidate action mode &&
      !policyAllows glob toSimplifier boundary action mode) = answer
  query : ContainmentPolicy → ContainmentPolicy → Bool → SolverAnswer
  unsat_sound : ∀ boundary candidate mode, query boundary candidate mode = .unsat →
    NetworkContained glob toSimplifier boundary candidate mode
  sat_sound : ∀ boundary candidate mode action,
    query boundary candidate mode = .sat (some action) →
    actionDomain action mode = true ∧ policyAllows glob toSimplifier candidate action mode = true ∧
      policyAllows glob toSimplifier boundary action mode = false

section
variable {glob : Glob} (solver : Solver glob) (boundary candidate : ContainmentPolicy)

def counterexampleSatisfiesPredicate (witness : NetworkWitness) : Bool :=
  solver.ground boundary candidate witness.action witness.binaryIdentityRequired == some true

def concreteNetworkWitness (mode : Bool) : Option NetworkWitness :=
  (concreteWitnesses candidate mode).find?
    (counterexampleSatisfiesPredicate solver boundary candidate)

/-- A binary of a model, where one is required. -/
def binaryFromModel (path : String) (binaryIdentityRequired : Bool) : Option (Option String) :=
  if binaryIdentityRequired then
    if isCanonicalRuntimeBinaryPath path then some (some path) else none
  else some none

def counterexampleFromModel (action : Action) (binaryIdentityRequired : Bool) :
    Option NetworkWitness := do
  let binary ← binaryFromModel action.binary binaryIdentityRequired
  let ancestorBinary ← binaryFromModel action.ancestorBinary binaryIdentityRequired
  guard (isCanonicalDnsHost action.host)
  let protocol := if action.layer = "l4" then Protocol.l4 else .rest
  guard (protocol = .l4 ∨
    (isHttpMethod action.method ∧ isCanonicalRestPath (utf8Bytes action.path)))
  let destinationIp ← action.ip.decode
  guard (0 ≤ action.port ∧ action.port < 65536)
  return {
    binary, ancestorBinary, binaryIdentityRequired
    host := action.host
    destinationIp
    trustedGateway := action.trustedGateway
    port := UInt16.ofNat action.port.toNat
    protocol
    method := if protocol = .rest then some action.method else none
    path := if protocol = .rest then some action.path else none }

inductive NetworkSolve
  | within
  | exceeds (counterexample : NetworkWitness)
  | incomplete (result : CheckResult)

def solveNetworkMode (mode : Bool) : NetworkSolve :=
  if networkIsStructurallyContained boundary candidate mode then .within
  else match concreteNetworkWitness solver boundary candidate mode with
    | some witness => .exceeds witness
    | none =>
      match solver.query boundary candidate mode with
      | .timeout => .incomplete (.inconclusive .solverTimeout "solver timeout elapsed")
      | .unsat => .within
      | .unknown reason =>
        let reason := reason.getD "Z3 returned unknown"
        .incomplete (.inconclusive
          (if containsStr (toAsciiLowercase reason) "timeout" then .solverTimeout else
            .solverUnknown)
          reason)
      | .sat model =>
        match (model.bind (counterexampleFromModel · mode)).filter
            (counterexampleSatisfiesPredicate solver boundary candidate) with
        | none => .incomplete (.inconclusive .invalidWitness
            "solver returned a model that could not be decoded")
        | some witness => .exceeds witness

/-- The loop over the identity modes: an early return, or none. -/
def checkModes (boundary candidate : ContainmentPolicy) : List Bool → Option CheckResult
  | [] => none
  | mode :: modes =>
    if mode && hasAmbiguousCandidateBinaryPath glob boundary candidate then
      some (.unsupported .unresolvedBinaryPath
        "network containment depends on image-specific binary symlink resolution")
    else match solveNetworkMode solver boundary candidate mode with
      | .within => checkModes boundary candidate modes
      | .exceeds witness => some (.exceeds (.network witness))
      | .incomplete result => some result

def checkWithinBoundary (timeout : Nat) (boundary candidate : ContainmentPolicy) : CheckResult :=
  match preflightAndValidatePolicies boundary candidate timeout with
  | some result => result
  | none =>
  match unresolvedWorkdirReason boundary candidate with
  | some reason => .unsupported .unresolvedWorkdir reason
  | none =>
  match (executionCheck boundary candidate).filter (·.isExceeds) with
  | some result => result
  | none =>
  if boundary = candidate then .within
  else
  match (checkFilesystem boundary candidate).filter (·.isExceeds) with
  | some result => result
  | none =>
  match checkModes solver boundary candidate [false, true] with
  | some result => result
  | none =>
  if unresolvedExactDenySymlink glob boundary candidate then
    .unsupported .unresolvedBinaryPath
      "network deny containment depends on image-specific exact binary symlink resolution"
  else ((executionCheck boundary candidate).or (checkFilesystem boundary candidate)).getD .within

end

end OpenShell.Prover
