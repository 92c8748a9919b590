import Mathlib
import OpenShell.Prover.AttributeIndex
import OpenShell.Prover.Predicate

/-!
# Policies the containment prover supports

`validate_supported_policy` of `containment.rs`: a policy outside the model is
refused with a reason, never approximated. The checks run without a cancellation
flag. What later proofs need from an accepted policy is collected at the end: one
lemma about each endpoint, and one about each pair of endpoints that some
connection may both match (`agree_of_validateNoCrossProtocolOverlap`).
-/

namespace OpenShell.Prover

open OpenShell.Core OpenShell.Schema
open OpenShell.Policy (AccessPreset Map)

/-- Stable reason identifiers for automation. -/
inductive ReasonCode
  | unsupportedPolicyShape | unresolvedWorkdir | unresolvedBinaryPath | unresolvedFilesystemPath
  | solverTimeout | solverUnknown | resourceLimit | invalidWitness
  deriving DecidableEq

structure UnsupportedFeature where
  reasonCode : ReasonCode
  detail : String
  deriving DecidableEq

def UnsupportedFeature.policyShape (detail : String) : UnsupportedFeature :=
  { reasonCode := .unsupportedPolicyShape, detail }

/-- Refuse with the reason a check gives, if it gives one. -/
def refuseFor (reason : Option String) (context : String) : Except UnsupportedFeature Unit :=
  match reason with
  | some reason => .error (.policyShape (context ++ reason))
  | none => .ok ()

/-! ## Texts and patterns -/

def unsupportedNetworkLiteral (value : String) : Option String :=
  if !value.toList.all (fun c => c.toNat < 128) then some "contains a non-ASCII literal"
  else if containsChar value '\x00' then some "contains an embedded NUL byte"
  else none

def isCanonicalPatternPath (path : String) : Bool :=
  startsWith path "/" && !containsStr path "//" &&
    !(splitChar path '/').any fun segment => segment == "." || segment == ".."

def unsupportedGlob (pattern : String) : Bool :=
  pattern.toList.any fun c => ['?', '[', ']', '\x7b', '\x7d', '\\'].contains c

def isAsciiAlphanumericChar (c : Char) : Bool :=
  ('0' ≤ c && c ≤ '9') || ('A' ≤ c && c ≤ 'Z') || ('a' ≤ c && c ≤ 'z')

/-- The least number of bytes of a label a pattern label can match. -/
def minimumLabelLen (label : String) : Nat :=
  max (byteLen (String.ofList (label.toList.filter (· != '*')))) 1

def unsupportedHostGlob (pattern : String) : Bool :=
  if unsupportedGlob pattern || pattern == "*" || pattern == "**" ||
      pattern.toList.any isWhitespace || (splitChar pattern '.').any isEmptyStr then true
  else
    let labels := splitChar pattern '.'
    let minimumNameLen := (labels.map minimumLabelLen).sum + (labels.length - 1)
    minimumNameLen > 253 ||
      labels.zipIdx.any fun (label, index) =>
        minimumLabelLen label > 63 ||
          !label.toList.all (fun c =>
            isAsciiAlphanumericChar c || c == '-' || c == '_' || c == '*') ||
          label.toList.head? == some '-' || label.toList.getLast? == some '-' ||
          (containsStr label "**" && label != "**") ||
          (index > 0 && containsChar label '*' && label != "*" && label != "**")

/-! ## Process and rules -/

/-- `execution::unsupported_reason`. -/
def unsupportedReason (policy : ContainmentPolicy) : Option String :=
  policy.process.bind fun process =>
    [process.runAsUser, process.runAsGroup].findSome? fun identity =>
      if !isEmptyStr identity &&
        !(identity == "sandbox" || identity == "root" || identity == "0") &&
          !(parseU32 identity).any (fun id => 1 ≤ id && id < 2 ^ 32 - 1) then
        some ("uses unsupported process identity '" ++ identity ++ "'")
      else none

def validateSupportedCommonPolicy (policy : ContainmentPolicy) :
    Except UnsupportedFeature Unit := do
  refuseFor (unsupportedReason policy) ""
  rejectIf (policy.networkMiddlewares.isEmpty = false)
    (.policyShape "uses network middleware controls")

def validateSupportedBinary (ruleName : String) (binary : NetworkBinary) :
    Except UnsupportedFeature Unit := do
  refuseFor (unsupportedNetworkLiteral binary.path) s!"rule '{ruleName}' binary path "
  rejectIf (isEmptyStr binary.path || !isCanonicalPatternPath binary.path ||
      unsupportedGlob binary.path)
    (.policyShape s!"rule '{ruleName}' uses an unsupported binary")

/-! ## Endpoints -/

section Endpoint
variable (context : String) (endpoint : NetworkEndpoint)

def validateSharedEndpoint : Except UnsupportedFeature Unit := do
  refuseFor (unsupportedNetworkLiteral endpoint.host) s!"{context} endpoint host "
  refuseFor (unsupportedNetworkLiteral endpoint.path) s!"{context} endpoint path "
  rejectIf (isEmptyStr endpoint.host || endpoint.effectivePorts.isEmpty ||
      (endpoint.port != 0 && !endpoint.ports.isEmpty))
    (.policyShape s!"{context} has no unambiguous host and port")
  rejectIf (unsupportedHostGlob endpoint.host)
    (.policyShape s!"{context} endpoint host uses an unsupported pattern")
  rejectIf (unsupportedGlob endpoint.path ||
      (!isEmptyStr endpoint.path && !isCanonicalPatternPath endpoint.path))
    (.policyShape s!"{context} uses an unsupported glob")
  rejectIf (!isEmptyStr endpoint.path && !startsWith endpoint.path "/")
    (.policyShape s!"{context} uses a non-canonical endpoint path")
  rejectIf (containsChar endpoint.host ':')
    (.policyShape s!"{context} uses an IP-literal shape outside the DNS host model")

/-- The refusal shared by the extensions of an endpoint. -/
def unsupportedEndpointExtension : UnsupportedFeature :=
  .policyShape s!"{context} uses authority outside the initial model"

def validateSupportedGraphql : Except UnsupportedFeature Unit :=
  rejectIf (!isEmptyStr endpoint.persistedQueries || !endpoint.graphqlPersistedQueries.isEmpty ||
      endpoint.graphqlMaxBodyBytes != 0)
    (unsupportedEndpointExtension context)

def validateSupportedCredentials : Except UnsupportedFeature Unit :=
  rejectIf (!isEmptyStr endpoint.credentialSigning || !isEmptyStr endpoint.signingService ||
      !isEmptyStr endpoint.signingRegion || endpoint.credentialBinding.isSome)
    (unsupportedEndpointExtension context)

def validateSupportedJsonRpc : Except UnsupportedFeature Unit :=
  rejectIf (endpoint.jsonRpc.isSome) (unsupportedEndpointExtension context)

def validateSupportedMcp : Except UnsupportedFeature Unit :=
  rejectIf (endpoint.mcp.isSome) (unsupportedEndpointExtension context)

def validateSupportedEndpointExtensions : Except UnsupportedFeature Unit := do
  rejectIf (!isEmptyStr endpoint.tls || endpoint.allowEncodedSlash ||
      endpoint.websocketCredentialRewrite || endpoint.requestBodyCredentialRewrite ||
      endpoint.allowUninspectedCredentials)
    (unsupportedEndpointExtension context)
  refuseFor (unsupportedEndpoint endpoint) s!"{context} "
  validateSupportedGraphql context endpoint
  validateSupportedCredentials context endpoint
  validateSupportedJsonRpc context endpoint
  validateSupportedMcp context endpoint

def validateSupportedProtocol : Except UnsupportedFeature Protocol :=
  let protocol := toAsciiLowercase endpoint.protocol
  if protocol = "" ∨ protocol = "tcp" then .ok .l4
  else if protocol = "rest" then .ok .rest
  else .error (.policyShape
    (s!"{context} uses protocol '" ++ endpoint.protocol ++ "'; only L4 TCP and REST are modeled"))

def validateSupportedL4 : Except UnsupportedFeature Unit := do
  rejectIf (eqIgnoreAsciiCase endpoint.protocol "tcp" && (parseIpAddr endpoint.host).isSome)
    (.policyShape s!"{context} uses an IP literal with explicit TCP semantics")
  rejectIf (!isEmptyStr endpoint.enforcement || !isEmptyStr endpoint.access ||
      !isEmptyStr endpoint.path || !endpoint.rules.isEmpty || !endpoint.denyRules.isEmpty)
    (.policyShape s!"{context} mixes REST controls into L4 authority")

/-- What a REST rule may not say, allow or deny alike. -/
def unsupportedRestRule (method path : String) (otherControls : Bool) : Bool :=
  isEmptyStr method || otherControls || (!isEmptyStr path && !startsWith path "/") ||
    (!isEmptyStr path && !isCanonicalPatternPath path) || unsupportedGlob path

def unsupportedAllow (rule : L7Allow) : Bool :=
  unsupportedRestRule rule.method rule.path
    (!isEmptyStr rule.command || !rule.query.isEmpty || !isEmptyStr rule.operationType ||
      !isEmptyStr rule.operationName || !rule.fields.isEmpty || rule.tool.isSome ||
      !rule.params.isEmpty)

def unsupportedDeny (rule : L7DenyRule) : Bool :=
  unsupportedRestRule rule.method rule.path
    (!isEmptyStr rule.command || !rule.query.isEmpty || !isEmptyStr rule.operationType ||
      !isEmptyStr rule.operationName || !rule.fields.isEmpty || rule.tool.isSome ||
      !rule.params.isEmpty)

def validateRestAllow (rule : L7Rule) : Except UnsupportedFeature Unit := do
  refuseFor (unsupportedNetworkLiteral rule.allow.method) s!"{context} REST allow method "
  refuseFor (unsupportedNetworkLiteral rule.allow.path) s!"{context} REST allow path "
  rejectIf (unsupportedAllow rule.allow)
    (.policyShape s!"{context} uses an unsupported REST allow rule")

def validateRestDeny (rule : L7DenyRule) : Except UnsupportedFeature Unit := do
  refuseFor (unsupportedNetworkLiteral rule.method) s!"{context} REST deny method "
  refuseFor (unsupportedNetworkLiteral rule.path) s!"{context} REST deny path "
  rejectIf (unsupportedDeny rule) (.policyShape s!"{context} uses an unsupported REST deny rule")

def validateSupportedRest : Except UnsupportedFeature Unit := do
  rejectIf (endpoint.enforcement != "enforce")
    (.policyShape s!"{context} uses REST without enforced inspection")
  rejectIf ((!isEmptyStr endpoint.access && !endpoint.rules.isEmpty) ||
      (isEmptyStr endpoint.access && endpoint.rules.isEmpty) ||
      (!isEmptyStr endpoint.access && (AccessPreset.parse endpoint.access).isNone))
    (.policyShape s!"{context} has an unsupported REST allow shape")
  endpoint.rules.forM (validateRestAllow context)
  endpoint.denyRules.forM (validateRestDeny context)

end Endpoint

def validateSupportedEndpoint (ruleName : String) (endpoint : NetworkEndpoint) :
    Except UnsupportedFeature Unit := do
  let context := s!"rule '{ruleName}'"
  validateSharedEndpoint context endpoint
  validateSupportedEndpointExtensions context endpoint
  match ← validateSupportedProtocol context endpoint with
  | .l4 => validateSupportedL4 context endpoint
  | .rest => validateSupportedRest context endpoint

def validateSupportedNetworkRule (ruleName : String) (rule : NetworkPolicyRule) :
    Except UnsupportedFeature Unit := do
  rule.binaries.forM (validateSupportedBinary ruleName)
  rule.endpoints.forM (validateSupportedEndpoint ruleName)

/-! ## Overlapping endpoints -/

/-- The state of the pass over all endpoints. Each distinct address list is
numbered by its position in `allowedIpValues`. -/
structure OverlapState where
  protocols : AuthorityAttributeIndex Protocol := {}
  allowedIps : AuthorityAttributeIndex Nat := {}
  allowedIpValues : List (List String) := []
  implicitModes : AuthorityAttributeIndex Bool := {}
  differentAllowedIps : Bool := false
  differentImplicitIpModes : Bool := false
  differentProtocols : Bool := false

/-- `entry(allowed_ips).or_insert(next_id)`. -/
def numberAllowedIps (values : List (List String)) (ips : List String) : List (List String) :=
  if ips ∈ values then values else values ++ [ips]

def overlapStep (st : OverlapState) (endpoint : NetworkEndpoint) : OverlapState :=
  let host := toAsciiLowercase endpoint.host
  let ports := endpoint.effectivePorts
  let protocol := protocolKind endpoint
  let values := numberAllowedIps st.allowedIpValues endpoint.allowedIps
  let id := values.idxOf endpoint.allowedIps
  let implicit := endpoint.allowedIps.isEmpty
  let wildcard := containsChar endpoint.host '*'
  { protocols := st.protocols.record host ports protocol
    allowedIps := st.allowedIps.record host ports id
    allowedIpValues := values
    implicitModes :=
      if implicit then st.implicitModes.record host ports wildcard else st.implicitModes
    differentAllowedIps :=
      st.differentAllowedIps || st.allowedIps.overlapsWithDifferent host ports id
    differentImplicitIpModes :=
      st.differentImplicitIpModes ||
        (implicit && st.implicitModes.overlapsWithDifferent host ports wildcard)
    differentProtocols :=
      st.differentProtocols || st.protocols.overlapsWithDifferent host ports protocol }

def ContainmentPolicy.endpoints (policy : ContainmentPolicy) : List NetworkEndpoint :=
  policy.rules.flatMap (·.endpoints)

def validateNoCrossProtocolOverlap (policy : ContainmentPolicy) :
    Except UnsupportedFeature Unit := do
  let st := policy.endpoints.foldl overlapStep {}
  rejectIf (st.differentAllowedIps)
    (.policyShape
      ("has overlapping endpoints with different allowed_ips; " ++
        "runtime first-endpoint selection is not modeled"))
  rejectIf (st.differentImplicitIpModes)
    (.policyShape
      "has overlapping exact and wildcard endpoints with different implicit destination IP modes")
  rejectIf (st.differentProtocols)
    (.policyShape
      "contains overlapping L4 and REST endpoints whose inspection selection is not modeled")

def validateSupportedPolicy (policy : ContainmentPolicy) : Except UnsupportedFeature Unit := do
  validateSupportedCommonPolicy policy
  policy.networkPolicies.toList.forM fun (ruleName, rule) =>
    validateSupportedNetworkRule ruleName rule
  validateNoCrossProtocolOverlap policy

/-! ## What an accepted policy satisfies -/

theorem refuseFor_bind {β : Type} {reason : Option String} {context : String}
    {f : Unit → Except UnsupportedFeature β} {y : β} :
    (refuseFor reason context >>= f) = .ok y ↔ reason = none ∧ f () = .ok y := by
  cases reason with
  | none => exact ⟨fun h => ⟨rfl, h⟩, fun h => h.2⟩
  | some reason => exact ⟨(nomatch ·), fun h => nomatch h.1⟩

/-- The checks of an endpoint that the address model rests on. -/
structure SupportedEndpoint (endpoint : NetworkEndpoint) : Prop where
  noColon : ':' ∉ endpoint.host.toList
  addresses : unsupportedEndpoint endpoint = none

variable {ruleName : String} {endpoint : NetworkEndpoint}

theorem supported_of_validateSupportedEndpoint
    (h : validateSupportedEndpoint ruleName endpoint = .ok ()) : SupportedEndpoint endpoint := by
  obtain ⟨_, hshared, h⟩ := bind_eq_ok h
  obtain ⟨_, hextensions, _⟩ := bind_eq_ok h
  simp only [validateSharedEndpoint, refuseFor_bind, rejectIf_bind, rejectIf_eq_ok] at hshared
  simp only [validateSupportedEndpointExtensions, rejectIf_bind, refuseFor_bind] at hextensions
  obtain ⟨-, -, -, -, -, -, hcolon⟩ := hshared
  exact ⟨fun hmem => hcolon (containsChar_iff.mpr hmem), hextensions.2.1⟩

/-- A binary of a supported policy is an absolute path pattern. -/
theorem startsWith_of_validateSupportedBinary {binary : NetworkBinary}
    (h : validateSupportedBinary ruleName binary = .ok ()) : startsWith binary.path "/" = true := by
  simp only [validateSupportedBinary, refuseFor_bind, rejectIf_eq_ok, Bool.or_eq_true,
    isCanonicalPatternPath] at h
  grind

variable {policy : ContainmentPolicy} {rule : NetworkPolicyRule}

theorem validateSupportedNetworkRule_of_mem
    (h : validateSupportedPolicy policy = .ok ()) (hrule : rule ∈ policy.rules) :
    ∃ name, validateSupportedNetworkRule name rule = .ok () := by
  obtain ⟨⟨name, _⟩, hmem, rfl⟩ := List.mem_map.mp hrule
  obtain ⟨_, _, h⟩ := bind_eq_ok h
  obtain ⟨_, hrules, _⟩ := bind_eq_ok h
  exact ⟨name, forM_eq_ok.mp hrules _ hmem⟩

theorem supportedEndpoint_of_mem (h : validateSupportedPolicy policy = .ok ())
    (hrule : rule ∈ policy.rules) (hendpoint : endpoint ∈ rule.endpoints) :
    SupportedEndpoint endpoint := by
  obtain ⟨name, hok⟩ := validateSupportedNetworkRule_of_mem h hrule
  obtain ⟨_, _, hendpoints⟩ := bind_eq_ok hok
  exact supported_of_validateSupportedEndpoint (forM_eq_ok.mp hendpoints _ hendpoint)

/-- The connections of two endpoints may overlap. -/
def EndpointsMayOverlap (endpoint other : NetworkEndpoint) : Prop :=
  MayOverlap (toAsciiLowercase endpoint.host) endpoint.effectivePorts
    (toAsciiLowercase other.host) other.effectivePorts

/-- The attributes on which overlapping endpoints of a supported policy agree. -/
structure Agree (endpoint other : NetworkEndpoint) : Prop where
  allowedIps : endpoint.allowedIps = other.allowedIps
  protocol : protocolKind endpoint = protocolKind other
  implicitMode : endpoint.allowedIps = [] →
    containsChar endpoint.host '*' = containsChar other.host '*'

/-- What the pass knows once it has seen the endpoints `seen`. -/
structure OverlapInv (st : OverlapState) (seen : List NetworkEndpoint) : Prop where
  protocols : ∀ host ports value, st.protocols.overlapsWithDifferent host ports value = true ↔
    ∃ e ∈ seen, MayOverlap (toAsciiLowercase e.host) e.effectivePorts host ports ∧
      protocolKind e ≠ value
  numbered : ∀ e ∈ seen, e.allowedIps ∈ st.allowedIpValues
  allowedIps : ∀ host ports value, st.allowedIps.overlapsWithDifferent host ports value = true ↔
    ∃ e ∈ seen, MayOverlap (toAsciiLowercase e.host) e.effectivePorts host ports ∧
      st.allowedIpValues.idxOf e.allowedIps ≠ value
  implicitModes : ∀ host ports value,
    st.implicitModes.overlapsWithDifferent host ports value = true ↔
      ∃ e ∈ seen, e.allowedIps = [] ∧
        MayOverlap (toAsciiLowercase e.host) e.effectivePorts host ports ∧
        containsChar e.host '*' ≠ value
  agree : st.differentAllowedIps = false → st.differentImplicitIpModes = false →
    st.differentProtocols = false → seen.Pairwise fun e e' => EndpointsMayOverlap e e' → Agree e e'

variable {values : List (List String)} {ips other : List String}

/-- Numbering one more list keeps the numbers given before. -/
theorem idxOf_numberAllowedIps
    (h : other ∈ values) : (numberAllowedIps values ips).idxOf other = values.idxOf other := by
  unfold numberAllowedIps
  split
  next => rfl
  next => exact List.idxOf_append_of_mem h

theorem mem_numberAllowedIps (values : List (List String)) (ips : List String) :
    ips ∈ numberAllowedIps values ips := by
  unfold numberAllowedIps
  split
  next h => exact h
  next => exact List.mem_concat_self ..

theorem subset_numberAllowedIps (h : other ∈ values) : other ∈ numberAllowedIps values ips := by
  unfold numberAllowedIps
  split
  next => exact h
  next => exact List.mem_append_left _ h

theorem overlapInv_nil : OverlapInv {} [] where
  protocols := by simp [AuthorityAttributeIndex.overlapsWithDifferent_empty]
  numbered := by simp
  allowedIps := by simp [AuthorityAttributeIndex.overlapsWithDifferent_empty]
  implicitModes := by simp [AuthorityAttributeIndex.overlapsWithDifferent_empty]
  agree := by simp

theorem overlapInv_step {st : OverlapState} {seen : List NetworkEndpoint} (h : OverlapInv st seen)
    (endpoint : NetworkEndpoint) : OverlapInv (overlapStep st endpoint) (seen ++ [endpoint]) where
  protocols := by
    intro host ports value
    simp only [overlapStep, AuthorityAttributeIndex.overlapsWithDifferent_record, h.protocols]
    simp [or_and_right, exists_or]
  numbered := by
    intro e he
    obtain he | rfl := by simpa using he
    · exact subset_numberAllowedIps (h.numbered e he)
    · exact mem_numberAllowedIps ..
  allowedIps := by
    intro host ports value
    simp only [overlapStep, AuthorityAttributeIndex.overlapsWithDifferent_record, h.allowedIps]
    have hsame : ∀ e ∈ seen, (numberAllowedIps st.allowedIpValues endpoint.allowedIps).idxOf
        e.allowedIps = st.allowedIpValues.idxOf e.allowedIps :=
      fun e he => idxOf_numberAllowedIps (h.numbered e he)
    simp only [List.mem_append, List.mem_singleton]
    grind
  implicitModes := by
    intro host ports value
    simp only [overlapStep]
    by_cases himplicit : endpoint.allowedIps = []
    · simp only [himplicit, List.isEmpty_nil, if_true,
        AuthorityAttributeIndex.overlapsWithDifferent_record, h.implicitModes]
      grind
    · have hfalse : endpoint.allowedIps.isEmpty = false := by simpa using himplicit
      simp only [hfalse, Bool.false_eq_true, if_false, h.implicitModes]
      grind
  agree := by
    intro hips hmodes hprotocols
    simp only [overlapStep, Bool.or_eq_false_iff] at hips hmodes hprotocols
    rw [List.pairwise_append]
    refine ⟨h.agree hips.1 hmodes.1 hprotocols.1, List.pairwise_singleton _ _, ?_⟩
    intro e he e' he' hoverlap
    obtain rfl := List.mem_singleton.mp he'
    -- no index reports `e` when the new endpoint is compared with it
    have hlist : e.allowedIps = e'.allowedIps := by
      by_contra hne
      refine Bool.eq_false_iff.mp hips.2 ((h.allowedIps _ _ _).mpr ⟨e, he, hoverlap, fun hid => ?_⟩)
      rw [← idxOf_numberAllowedIps (h.numbered e he)] at hid
      exact hne ((List.idxOf_inj (subset_numberAllowedIps (h.numbered e he))).mp hid)
    refine ⟨hlist, ?_, fun hempty => ?_⟩
    · by_contra hne
      exact absurd ((h.protocols _ _ _).mpr ⟨e, he, hoverlap, hne⟩)
        (Bool.eq_false_iff.mp hprotocols.2)
    · by_contra hne
      have hmode := hmodes.2
      rw [← hlist, hempty, List.isEmpty_nil, Bool.true_and] at hmode
      exact absurd ((h.implicitModes _ _ _).mpr ⟨e, he, hempty, hoverlap, hne⟩)
        (Bool.eq_false_iff.mp hmode)

theorem overlapInv_run (endpoints : List NetworkEndpoint) :
    ∀ {st : OverlapState} {seen : List NetworkEndpoint}, OverlapInv st seen →
      OverlapInv (endpoints.foldl overlapStep st) (seen ++ endpoints) := by
  induction endpoints with
  | nil => simp
  | cons endpoint endpoints ih =>
    intro st seen h
    have hrest := ih (overlapInv_step h endpoint)
    rwa [List.append_assoc] at hrest

variable {e e' : NetworkEndpoint}

theorem Agree.symm (h : Agree e e') : Agree e' e :=
  ⟨h.allowedIps.symm, h.protocol.symm, fun hempty => (h.implicitMode (h.allowedIps ▸ hempty)).symm⟩

theorem EndpointsMayOverlap.symm (h : EndpointsMayOverlap e e') :
    EndpointsMayOverlap e' e := by
  obtain ⟨⟨port, hport, hport'⟩, hhost⟩ := h
  refine ⟨⟨port, hport', hport⟩, ?_⟩
  grind

theorem agree_of_validateNoCrossProtocolOverlap (h : validateNoCrossProtocolOverlap policy = .ok ())
    (he : e ∈ policy.endpoints) (he' : e' ∈ policy.endpoints)
    (hoverlap : EndpointsMayOverlap e e') :
    Agree e e' := by
  have hinv := overlapInv_run policy.endpoints overlapInv_nil
  simp only [validateNoCrossProtocolOverlap, rejectIf_bind, rejectIf_eq_ok,
    Bool.not_eq_true] at h
  have hpair := hinv.agree h.1 h.2.1 h.2.2
  have : Std.Symm fun e e' => EndpointsMayOverlap e e' → Agree e e' :=
    ⟨fun e e' h hoverlap => (h hoverlap.symm).symm⟩
  exact List.Pairwise.forall_of_forall (fun e _ _ => ⟨rfl, rfl, fun _ => rfl⟩) hpair he he'
    hoverlap

theorem agree_of_mem {rule' : NetworkPolicyRule} (h : validateSupportedPolicy policy = .ok ())
    (hrule : rule ∈ policy.rules) (he : e ∈ rule.endpoints) (hrule' : rule' ∈ policy.rules)
    (he' : e' ∈ rule'.endpoints) (hoverlap : EndpointsMayOverlap e e') : Agree e e' := by
  obtain ⟨_, _, h⟩ := bind_eq_ok h
  obtain ⟨_, _, h⟩ := bind_eq_ok h
  exact agree_of_validateNoCrossProtocolOverlap h (List.mem_flatMap.mpr ⟨rule, hrule, he⟩)
    (List.mem_flatMap.mpr ⟨rule', hrule', he'⟩) hoverlap

/-! ## The pairwise check -/

/-- The two endpoints share a port, and their hosts are the same or one is a pattern. -/
def SharePortAndHost (e e' : NetworkEndpoint) : Prop :=
  (∃ port ∈ e.effectivePorts, port ∈ e'.effectivePorts) ∧
    (toAsciiLowercase e.host = toAsciiLowercase e'.host ∨ containsChar e.host '*' = true ∨
      containsChar e'.host '*' = true)

/-- Both endpoints leave the addresses to their hosts, of which only one is a pattern. -/
def ImplicitModesDiffer (e e' : NetworkEndpoint) : Prop :=
  e.allowedIps = [] ∧ e'.allowedIps = [] ∧ containsChar e.host '*' ≠ containsChar e'.host '*'

theorem endpointsMayOverlap_iff : EndpointsMayOverlap e e' ↔ SharePortAndHost e e' := by
  rw [EndpointsMayOverlap, MayOverlap, containsChar_star_toAsciiLowercase,
    containsChar_star_toAsciiLowercase]
  refine and_congr_right fun _ => ?_
  rw [← or_assoc, or_comm]

/-- What one more endpoint does to the three flags. -/
theorem overlapStep_flags {st : OverlapState} {seen : List NetworkEndpoint}
    (h : OverlapInv st seen) :
    ((overlapStep st e).differentAllowedIps = true ↔ st.differentAllowedIps = true ∨
        ∃ e' ∈ seen, SharePortAndHost e' e ∧ e'.allowedIps ≠ e.allowedIps) ∧
      ((overlapStep st e).differentImplicitIpModes = true ↔ st.differentImplicitIpModes = true ∨
        ∃ e' ∈ seen, SharePortAndHost e' e ∧ ImplicitModesDiffer e' e) ∧
      ((overlapStep st e).differentProtocols = true ↔ st.differentProtocols = true ∨
        ∃ e' ∈ seen, SharePortAndHost e' e ∧ protocolKind e' ≠ protocolKind e) := by
  simp only [← endpointsMayOverlap_iff, overlapStep, Bool.or_eq_true, Bool.and_eq_true,
    h.allowedIps, h.implicitModes, h.protocols, List.isEmpty_iff]
  refine ⟨or_congr_right ?_, or_congr_right ?_, Iff.rfl⟩
  · -- two lists have the same number exactly if they are the same
    refine exists_congr fun e' => and_congr_right fun he' => and_congr_right fun _ => not_congr ?_
    have hsame : (numberAllowedIps st.allowedIpValues e.allowedIps).idxOf e'.allowedIps = _ :=
      idxOf_numberAllowedIps (h.numbered e' he')
    rw [← hsame]
    exact List.idxOf_inj (subset_numberAllowedIps (h.numbered e' he'))
  · constructor
    · rintro ⟨hempty, e', he', hempty', hoverlap, hmode⟩
      exact ⟨e', he', hoverlap, hempty', hempty, hmode⟩
    · rintro ⟨e', he', hoverlap, hempty', hempty, hmode⟩
      exact ⟨hempty, e', he', hempty', hoverlap, hmode⟩

/-- A flag that each endpoint raises on meeting a clash with an earlier one is raised, once
all are seen, exactly if two of them clash. -/
theorem flag_run (flag : OverlapState → Bool) {Clash : NetworkEndpoint → NetworkEndpoint → Prop}
    (hstep : ∀ {st seen e}, OverlapInv st seen →
      (flag (overlapStep st e) = true ↔ flag st = true ∨ ∃ e' ∈ seen, Clash e' e))
    (hsymm : ∀ {e e'}, Clash e e' → Clash e' e) (hirrefl : ∀ {e}, ¬ Clash e e)
    (endpoints : List NetworkEndpoint) :
    ∀ {st seen}, OverlapInv st seen → (flag st = true ↔ ∃ e ∈ seen, ∃ e' ∈ seen, Clash e e') →
      (flag (endpoints.foldl overlapStep st) = true ↔
        ∃ e ∈ seen ++ endpoints, ∃ e' ∈ seen ++ endpoints, Clash e e') := by
  induction endpoints with
  | nil =>
    intro st seen _ hflag
    rwa [List.append_nil]
  | cons endpoint endpoints ih =>
    intro st seen hinv hflag
    have hrest := ih (overlapInv_step hinv endpoint) ?_
    · rwa [List.append_assoc] at hrest
    rw [hstep hinv, hflag]
    constructor
    · rintro (⟨e, he, e', he', hclash⟩ | ⟨e', he', hclash⟩)
      · exact ⟨e, List.mem_append_left _ he, e', List.mem_append_left _ he', hclash⟩
      · exact ⟨e', List.mem_append_left _ he', endpoint, List.mem_concat_self .., hclash⟩
    · rintro ⟨e, he, e', he', hclash⟩
      rw [List.mem_append, List.mem_singleton] at he he'
      rcases he with he | rfl
      · rcases he' with he' | rfl
        · exact Or.inl ⟨e, he, e', he', hclash⟩
        · exact Or.inr ⟨e, he, hclash⟩
      · rcases he' with he' | rfl
        · exact Or.inr ⟨e', he', hsymm hclash⟩
        · exact absurd hclash hirrefl

theorem SharePortAndHost.symm (h : SharePortAndHost e e') : SharePortAndHost e' e :=
  endpointsMayOverlap_iff.mp (endpointsMayOverlap_iff.mpr h).symm

/-- The flags once all endpoints are seen. -/
theorem flags_run (endpoints : List NetworkEndpoint) :
    ((endpoints.foldl overlapStep {}).differentAllowedIps = true ↔
        ∃ e ∈ endpoints, ∃ e' ∈ endpoints, SharePortAndHost e e' ∧ e.allowedIps ≠ e'.allowedIps) ∧
      ((endpoints.foldl overlapStep {}).differentImplicitIpModes = true ↔
        ∃ e ∈ endpoints, ∃ e' ∈ endpoints, SharePortAndHost e e' ∧ ImplicitModesDiffer e e') ∧
      ((endpoints.foldl overlapStep {}).differentProtocols = true ↔
        ∃ e ∈ endpoints, ∃ e' ∈ endpoints, SharePortAndHost e e' ∧
          protocolKind e ≠ protocolKind e') := by
  refine ⟨?_, ?_, ?_⟩
  · exact flag_run (·.differentAllowedIps) (fun h => (overlapStep_flags h).1)
      (fun h => ⟨h.1.symm, h.2.symm⟩) (fun h => h.2 rfl) endpoints overlapInv_nil (by simp)
  · exact flag_run (·.differentImplicitIpModes) (fun h => (overlapStep_flags h).2.1)
      (fun h => ⟨h.1.symm, h.2.2.1, h.2.1, h.2.2.2.symm⟩) (fun h => h.2.2.2 rfl)
      endpoints overlapInv_nil (by simp)
  · exact flag_run (·.differentProtocols) (fun h => (overlapStep_flags h).2.2)
      (fun h => ⟨h.1.symm, h.2.symm⟩) (fun h => h.2 rfl) endpoints overlapInv_nil (by simp)

/-- The pass over the index gives the verdict of the comparison of all pairs of endpoints,
and so the same one, with the same error, in whatever order the endpoints come. -/
theorem validateNoCrossProtocolOverlap_pairwise (policy : ContainmentPolicy) :
    (validateNoCrossProtocolOverlap policy = .ok () ↔
      ∀ e ∈ policy.endpoints, ∀ e' ∈ policy.endpoints, SharePortAndHost e e' →
        protocolKind e = protocolKind e' ∧ e.allowedIps = e'.allowedIps ∧
          ¬ ImplicitModesDiffer e e') ∧
      ∀ reordered : ContainmentPolicy, reordered.endpoints.Perm policy.endpoints →
        validateNoCrossProtocolOverlap reordered = validateNoCrossProtocolOverlap policy := by
  obtain ⟨hips, hmodes, hprotocols⟩ := flags_run policy.endpoints
  constructor
  · simp only [validateNoCrossProtocolOverlap, rejectIf_bind, rejectIf_eq_ok, hips, hmodes,
      hprotocols, not_exists, not_and, not_not]
    constructor
    · rintro ⟨hips, hmodes, hprotocols⟩ e he e' he' hshare
      exact ⟨hprotocols e he e' he' hshare, hips e he e' he' hshare, hmodes e he e' he' hshare⟩
    · intro h
      exact ⟨fun e he e' he' hshare => (h e he e' he' hshare).2.1, fun e he e' he' hshare =>
        (h e he e' he' hshare).2.2, fun e he e' he' hshare => (h e he e' he' hshare).1⟩
  · intro reordered hperm
    obtain ⟨hips', hmodes', hprotocols'⟩ := flags_run reordered.endpoints
    simp only [hperm.mem_iff, ← hips, ← hmodes, ← hprotocols, ← Bool.eq_iff_iff]
      at hips' hmodes' hprotocols'
    simp only [validateNoCrossProtocolOverlap, hips', hmodes', hprotocols']

end OpenShell.Prover
