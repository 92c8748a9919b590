import OpenShell.Policy.Merge.Coverage
import OpenShell.Policy.Merge.Types
import OpenShell.Policy.Presets

/-!
# Merging one endpoint into another

`merge_endpoint` in its three passes: fields the merge retains, the allow rules
and access preset, and fields it widens. `Merged` says what each field of the
result is, as far as anything downstream looks at it; `mergeEndpoint_quiet` says
what the absence of warnings adds.
-/

namespace OpenShell.Policy

/-! ## Retained fields -/

/-- Take the incoming value if there is none yet; warn about a different one. -/
def mergeField {α : Type} [DecidableEq α] (isUnset : α → Bool) (existing incoming : α)
    (warning : PolicyMergeWarning) : α × List PolicyMergeWarning :=
  if isUnset incoming then (existing, [])
  else if isUnset existing then (incoming, [])
  else if existing ≠ incoming then (existing, [warning])
  else (existing, [])

def mergeStringField (existing incoming : String) (warning : PolicyMergeWarning) :
    String × List PolicyMergeWarning :=
  mergeField isEmptyStr existing incoming warning

def mergeEnumField (existing incoming : Int) (warning : PolicyMergeWarning) :
    Int × List PolicyMergeWarning :=
  mergeField (· == 0) existing incoming warning

section Merge
variable (existing incoming : NetworkEndpoint)

/-- Only an endpoint without an established inspection contract can adopt the
incoming MCP contract. -/
def promotesL4EndpointToMcp : Bool :=
  isEmptyStr existing.protocol && existing.mcp.isNone && existing.jsonRpcMaxBodyBytes == 0 &&
    (effectiveMcpContract incoming).isSome

/-- The debug form of a list of texts. The revisions of a validated policy have
nothing to escape. -/
def debugStrings (values : List String) : String :=
  "[" ++ joinWith ", " (values.map fun value => "\"" ++ value ++ "\"") ++ "]"

def describeMcpContract (endpoint : NetworkEndpoint) : String :=
  match effectiveMcpContract endpoint with
  | none => "non-mcp(protocol='" ++ endpoint.protocol ++ "')"
  | some contract =>
    "mcp(versions=" ++ debugStrings contract.versions ++
      ", strict_tool_names=" ++ toString contract.strictToolNames ++
      ", allow_all_known_mcp_methods=" ++ toString contract.allowAllKnownMcpMethods ++
      ", max_body_bytes=" ++ toString contract.maxBodyBytes ++ ")"

def ensureMcpContractCompatible (operationIndex : Nat) (host : String) (port : Nat) :
    Except PolicyMergeError Unit :=
  if promotesL4EndpointToMcp existing incoming || mcpContractsMatch existing incoming then .ok ()
  else .error (.mcpContractConflict operationIndex host port (describeMcpContract existing)
    (describeMcpContract incoming))

def mergeEndpointPorts : NetworkEndpoint :=
  withPorts existing (sortDedup (appendUnique (canonicalPorts existing) (canonicalPorts incoming)))

/-- The fields that keep their existing value, with a warning for each that the
operation asks to change. -/
def mergeRetained (host : String) (port : Nat) (existing incoming : NetworkEndpoint) :
    NetworkEndpoint × List PolicyMergeWarning :=
  let promotes := promotesL4EndpointToMcp existing incoming
  let protocol := mergeStringField existing.protocol incoming.protocol
    (.existingProtocolRetained host port existing.protocol incoming.protocol)
  let enforcement := mergeEnumField existing.enforcement incoming.enforcement
    (.existingEnforcementRetained host port (enforcementLabel existing.enforcement)
      (enforcementLabel incoming.enforcement))
  let tls := mergeEnumField existing.tls incoming.tls
    (.existingTlsRetained host port (tlsLabel existing.tls) (tlsLabel incoming.tls))
  ({ mergeEndpointPorts existing incoming with
      host := if isEmptyStr existing.host then incoming.host else existing.host
      path := if isEmptyStr existing.path then incoming.path else existing.path
      protocol := protocol.1
      mcp := if promotes then incoming.mcp else existing.mcp
      jsonRpcMaxBodyBytes :=
        if promotes then incoming.jsonRpcMaxBodyBytes else existing.jsonRpcMaxBodyBytes
      enforcement := enforcement.1
      tls := tls.1 },
    protocol.2 ++ enforcement.2 ++ tls.2)

/-! ## Allow rules and access presets -/

/-- Replace the access preset by its rules. -/
def expandExistingAccess (endpoint : NetworkEndpoint) (host : String) (port : Nat) :
    Except PolicyMergeError (NetworkEndpoint × List PolicyMergeWarning) :=
  if endpoint.access = 0 then .ok (endpoint, [])
  else
    let access := accessLabel endpoint.access
    match expandAccessPreset endpoint.protocol access with
    | none => .error (.unsupportedAccessPreset host port access)
    | some expanded =>
      .ok ({ endpoint with access := 0, rules := appendUnique endpoint.rules expanded },
        [.expandedAccessPreset host port access])

/-- Incoming rules make the preset explicit; an incoming preset only fills a gap. -/
def mergeAllowed (host : String) (port : Nat) (existing incoming : NetworkEndpoint) :
    Except PolicyMergeError (NetworkEndpoint × List PolicyMergeWarning) :=
  let ignored := PolicyMergeWarning.ignoredIncomingAccessBecauseRulesExist host port
    (accessLabel incoming.access)
  if !incoming.rules.isEmpty then do
    let (existing, warnings) ← expandExistingAccess existing host port
    return ({ existing with rules := appendUnique existing.rules incoming.rules },
      warnings ++ if incoming.access ≠ 0 then [ignored] else [])
  else if incoming.access ≠ 0 then
    if !existing.rules.isEmpty then .ok (existing, [ignored])
    else if existing.access = 0 then .ok ({ existing with access := incoming.access }, [])
    else if existing.access ≠ incoming.access then
      .ok (existing, [.existingAccessRetained host port (accessLabel existing.access)
        (accessLabel incoming.access)])
    else .ok (existing, [])
  else .ok (existing, [])

/-! ## Widened fields -/

def mergeWidened : NetworkEndpoint :=
  { existing with
    denyRules := appendUnique existing.denyRules incoming.denyRules
    allowedIps := appendUnique existing.allowedIps incoming.allowedIps
    allowEncodedSlash := existing.allowEncodedSlash || incoming.allowEncodedSlash
    websocketCredentialRewrite :=
      existing.websocketCredentialRewrite || incoming.websocketCredentialRewrite
    requestBodyCredentialRewrite :=
      existing.requestBodyCredentialRewrite || incoming.requestBodyCredentialRewrite
    allowUninspectedCredentials :=
      existing.allowUninspectedCredentials || incoming.allowUninspectedCredentials
    -- explicit on either side makes the endpoint explicit
    advisorProposed := existing.advisorProposed && incoming.advisorProposed }

/-- The port a report about a merge names: the first common one. -/
def reportedPort : Nat :=
  (((canonicalPorts existing).find? fun port => (canonicalPorts incoming).contains port).or
    (canonicalPorts incoming).head?).getD 0

def mergeEndpoint (operationIndex : Nat) :
    Except PolicyMergeError (NetworkEndpoint × List PolicyMergeWarning) := do
  let host := if isEmptyStr existing.host then incoming.host else existing.host
  let port := reportedPort existing incoming
  ensureMcpContractCompatible existing incoming operationIndex host port
  let (retained, retainedWarnings) := mergeRetained host port existing incoming
  let (allowed, allowedWarnings) ← mergeAllowed host port retained incoming
  return (normalizeEndpoint (mergeWidened allowed incoming), retainedWarnings ++ allowedWarnings)

end Merge

/-! ## What a merge produces -/

/-- The first value that is set. -/
def firstSet {α : Type} (isUnset : α → Bool) (existing incoming : α) : α :=
  if isUnset existing then incoming else existing

/-- The preset rules that incoming rules make explicit. -/
def ExpandedRule (existing incoming : NetworkEndpoint) (protocol : String) (rule : L7Rule) : Prop :=
  incoming.rules ≠ [] ∧ existing.access ≠ 0 ∧
    ∃ expanded, expandAccessPreset protocol (accessLabel existing.access) = some expanded ∧
      rule ∈ expanded

/-- The result of merging `incoming` into `existing`, field by field. -/
structure Merged (existing incoming merged : NetworkEndpoint) : Prop where
  host : merged.host = firstSet isEmptyStr existing.host incoming.host
  path : merged.path = firstSet isEmptyStr existing.path incoming.path
  ports : ∀ port, port ∈ canonicalPorts merged ↔
    port ∈ canonicalPorts existing ∨ port ∈ canonicalPorts incoming
  protocol : merged.protocol = firstSet isEmptyStr existing.protocol incoming.protocol
  tls : merged.tls = firstSet (· == 0) existing.tls incoming.tls
  enforcement : merged.enforcement = firstSet (· == 0) existing.enforcement incoming.enforcement
  mcp : merged.mcp = (if promotesL4EndpointToMcp existing incoming then incoming.mcp
    else existing.mcp).map canonicalizeMcpOptions
  jsonRpcMaxBodyBytes : merged.jsonRpcMaxBodyBytes =
    if promotesL4EndpointToMcp existing incoming then incoming.jsonRpcMaxBodyBytes
    else existing.jsonRpcMaxBodyBytes
  access : merged.access = if incoming.rules ≠ [] then 0
    else if existing.rules = [] ∧ existing.access = 0 then incoming.access else existing.access
  rules : ∀ rule, rule ∈ merged.rules ↔ rule ∈ existing.rules ∨ rule ∈ incoming.rules ∨
    ExpandedRule existing incoming merged.protocol rule
  denyRules : ∀ rule, rule ∈ merged.denyRules ↔
    rule ∈ existing.denyRules ∨ rule ∈ incoming.denyRules
  allowedIps : ∀ ip, ip ∈ merged.allowedIps ↔ ip ∈ existing.allowedIps ∨ ip ∈ incoming.allowedIps
  allowEncodedSlash :
    merged.allowEncodedSlash = (existing.allowEncodedSlash || incoming.allowEncodedSlash)
  websocketCredentialRewrite : merged.websocketCredentialRewrite =
    (existing.websocketCredentialRewrite || incoming.websocketCredentialRewrite)
  requestBodyCredentialRewrite : merged.requestBodyCredentialRewrite =
    (existing.requestBodyCredentialRewrite || incoming.requestBodyCredentialRewrite)
  allowUninspectedCredentials : merged.allowUninspectedCredentials =
    (existing.allowUninspectedCredentials || incoming.allowUninspectedCredentials)
  advisorProposed :
    merged.advisorProposed = (existing.advisorProposed && incoming.advisorProposed)
  persistedQueries : merged.persistedQueries = existing.persistedQueries
  graphqlPersistedQueries : merged.graphqlPersistedQueries = existing.graphqlPersistedQueries

variable {warning : PolicyMergeWarning}

theorem mergeField_fst {α : Type} [DecidableEq α] {isUnset : α → Bool} {existing incoming : α}
    (hunset : isUnset existing = true → isUnset incoming = true → existing = incoming) :
    (mergeField isUnset existing incoming warning).1 = firstSet isUnset existing incoming := by
  unfold mergeField firstSet
  by_cases hi : isUnset incoming = true
  · rw [if_pos hi]
    split
    next he => exact hunset he hi
    next => rfl
  · rw [if_neg hi]
    split
    next => rfl
    next => split <;> rfl

/-- What the rules-and-access pass produces. -/
structure AllowedMerge (existing incoming allowed : NetworkEndpoint) : Prop where
  same : allowed = { existing with rules := allowed.rules, access := allowed.access }
  access : allowed.access = if incoming.rules ≠ [] then 0
    else if existing.rules = [] ∧ existing.access = 0 then incoming.access else existing.access
  rules : ∀ rule, rule ∈ allowed.rules ↔ rule ∈ existing.rules ∨ rule ∈ incoming.rules ∨
    ExpandedRule existing incoming existing.protocol rule

variable {existing incoming : NetworkEndpoint} {warnings : List PolicyMergeWarning}

theorem mergeAllowed_spec {host : String} {port : Nat} {allowed : NetworkEndpoint}
    (h : mergeAllowed host port existing incoming = .ok (allowed, warnings)) :
    AllowedMerge existing incoming allowed := by
  unfold mergeAllowed at h
  dsimp only at h
  split at h
  next hrules =>
    have hne : incoming.rules ≠ [] := by simpa using hrules
    obtain ⟨⟨expanded, expandedWarnings⟩, hexp, ⟨⟩⟩ := bind_ok_eq_ok h
    unfold expandExistingAccess at hexp
    split at hexp
    next hacc =>
      cases hexp
      exact ⟨rfl, by simp [hne, hacc], fun rule => by simp [ExpandedRule, hacc]⟩
    next hacc =>
      dsimp only at hexp
      split at hexp
      next => cases hexp
      next rules hpreset =>
        cases hexp
        refine ⟨rfl, by simp [hne], fun rule => ?_⟩
        simp only [mem_appendUnique, ExpandedRule, hpreset, Option.some.injEq, exists_eq_left', hne,
          hacc, ne_eq, not_false_eq_true, true_and]
        tauto
  next hrules =>
    have hnil : incoming.rules = [] := by simpa using hrules
    have hkeep : ∀ rule, rule ∈ existing.rules ↔ rule ∈ existing.rules ∨ rule ∈ incoming.rules ∨
        ExpandedRule existing incoming existing.protocol rule := by
      intro rule
      simp [hnil, ExpandedRule]
    split at h
    next hacc =>
      split at h
      next hex =>
        cases h
        exact ⟨rfl, by simp_all, hkeep⟩
      next hex =>
        split at h
        next hzero =>
          cases h
          exact ⟨rfl, by simp_all, hkeep⟩
        next hzero =>
          split at h <;> obtain ⟨rfl, -⟩ := ok_pair_inj h <;>
            exact ⟨rfl, by simp_all, hkeep⟩
    next hacc =>
      cases h
      exact ⟨rfl, by simp_all, hkeep⟩

variable {merged : NetworkEndpoint} {operationIndex : Nat}
  (h : mergeEndpoint existing incoming operationIndex = .ok (merged, warnings))
include h

/-- The passes of a successful merge. -/
theorem mergeEndpoint_eq_ok :
    (promotesL4EndpointToMcp existing incoming = true ∨
        mcpContractsMatch existing incoming = true) ∧
      ∃ host port allowed allowedWarnings,
        mergeAllowed host port (mergeRetained host port existing incoming).1 incoming
          = .ok (allowed, allowedWarnings) ∧
        merged = normalizeEndpoint (mergeWidened allowed incoming) ∧
        warnings = (mergeRetained host port existing incoming).2 ++ allowedWarnings := by
  obtain ⟨_, hcompat, h⟩ := bind_eq_ok h
  obtain ⟨⟨allowed, allowedWarnings⟩, hallowed, ⟨⟩⟩ := bind_ok_eq_ok h
  refine ⟨?_, _, _, allowed, allowedWarnings, hallowed, rfl, rfl⟩
  unfold ensureMcpContractCompatible at hcompat
  obtain ⟨hor, hcompat⟩ := then_of_ite hcompat nofun
  simpa using hor

theorem mergeEndpoint_merged :
    Merged existing incoming merged := by
  obtain ⟨-, host, port, allowed, allowedWarnings, hallowed, rfl, -⟩ := mergeEndpoint_eq_ok h
  obtain ⟨hsame, haccess, hrules⟩ := mergeAllowed_spec hallowed
  have hrest : normalizeEndpoint (mergeWidened allowed incoming)
      = normalizeEndpoint (mergeWidened
        { (mergeRetained host port existing incoming).1 with
          rules := allowed.rules, access := allowed.access } incoming) := by rw [← hsame]
  rw [hrest]
  exact {
    host := rfl
    path := rfl
    ports := by
      intro p
      rw [mem_canonicalPorts_normalizeEndpoint]
      show p ∈ canonicalPorts (mergeEndpointPorts existing incoming) ↔ _
      rw [mergeEndpointPorts, canonicalPorts_withPorts, mem_sortDedup, mem_appendUnique]
    protocol := mergeField_fst fun he hi => (isEmptyStr_iff.mp he).trans (isEmptyStr_iff.mp hi).symm
    tls := mergeField_fst fun he hi => (eq_of_beq he).trans (eq_of_beq hi).symm
    enforcement := mergeField_fst fun he hi => (eq_of_beq he).trans (eq_of_beq hi).symm
    mcp := rfl
    jsonRpcMaxBodyBytes := rfl
    access := haccess
    rules := fun rule => mem_dedupFirst.trans (hrules rule)
    denyRules := fun rule => mem_dedupFirst.trans mem_appendUnique
    allowedIps := fun ip => mem_dedupFirst.trans mem_appendUnique
    allowEncodedSlash := rfl
    websocketCredentialRewrite := rfl
    requestBodyCredentialRewrite := rfl
    allowUninspectedCredentials := rfl
    advisorProposed := rfl
    persistedQueries := rfl
    graphqlPersistedQueries := rfl }

/-- A checked endpoint merged into a checked endpoint is checked. -/
theorem mergeEndpoint_checked (he : Checked existing) (hi : Checked incoming) : Checked merged := by
  obtain ⟨hcompat, -⟩ := mergeEndpoint_eq_ok h
  have hm := mergeEndpoint_merged h
  have hmcp := hm.mcp
  by_cases hpro : promotesL4EndpointToMcp existing incoming = true
  · -- the whole contract is the incoming one
    rw [if_pos hpro] at hmcp
    refine hi.of_mcp_eq ?_ hmcp
    simp only [promotesL4EndpointToMcp, Bool.and_eq_true] at hpro
    rw [hm.protocol, firstSet, if_pos hpro.1.1.1]
  · rw [if_neg hpro] at hmcp
    refine he.of_mcp_eq ?_ hmcp
    rw [hm.protocol, firstSet]
    split
    next hempty =>
      have hnone : isMcpProtocol existing.protocol = false := by
        rw [isEmptyStr_iff.mp hempty]
        decide
      have heq := (mcpContractsMatch_iff he hi).mp (hcompat.resolve_left hpro)
      rw [he.effectiveMcpContract_eq_none.mpr hnone] at heq
      rw [hi.effectiveMcpContract_eq_none.mp heq.symm, hnone]
    next => rfl

end OpenShell.Policy
