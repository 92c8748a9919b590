import OpenShell.Policy.Merge.Normalize

/-!
# Coverage

Whether a loaded endpoint authorizes what a proposed one asks for. A field that
merging widens is compared by containment, a field it retains only if the
proposal sets it, and the MCP contract exactly. `Covers` names the parts of the
answer.
-/

namespace OpenShell.Policy

/-! ## Authorization units -/

/-- The authorization units an endpoint declares, one per port; an endpoint
without ports declares one unit without a port. -/
def authorizationPorts (endpoint : NetworkEndpoint) : List (Option Nat) :=
  let ports := canonicalPorts endpoint
  if ports.isEmpty then [none] else ports.map some

/-- A port is a unit's port, or the unit has none. -/
def portIn (port : Option Nat) (ports : List Nat) : Prop := ∀ p, port = some p → p ∈ ports

def binaryScopeCovers (rule : NetworkPolicyRule) (proposed : NetworkBinary) : Bool :=
  rule.binaries.isEmpty || rule.binaries.any (·.path == proposed.path)

/-! ## MCP contracts -/

def defaultJsonRpcMaxBodyBytes : Nat := 64 * 1024

/-- The MCP contract an endpoint stands for, with defaults filled in. -/
structure EffectiveMcpContract where
  versions : List String
  strictToolNames : Bool
  allowAllKnownMcpMethods : Bool
  maxBodyBytes : Nat
  deriving DecidableEq

def effectiveJsonRpcMaxBodyBytes (value : Nat) : Nat :=
  if value = 0 then defaultJsonRpcMaxBodyBytes else value

def effectiveMcpContract (endpoint : NetworkEndpoint) : Option EffectiveMcpContract :=
  if !isMcpProtocol endpoint.protocol then none
  else endpoint.mcp.map fun options =>
    { versions := (canonicalizeMcpOptions options).versions
      strictToolNames := options.strictToolNames.getD true
      allowAllKnownMcpMethods := options.allowAllKnownMcpMethods.getD false
      maxBodyBytes := effectiveJsonRpcMaxBodyBytes endpoint.jsonRpcMaxBodyBytes }

def endpointUsesMcp (endpoint : NetworkEndpoint) : Bool :=
  isMcpProtocol endpoint.protocol || endpoint.mcp.isSome

def mcpContractsMatch (left right : NetworkEndpoint) : Bool :=
  match effectiveMcpContract left, effectiveMcpContract right with
  | none, none => !endpointUsesMcp left && !endpointUsesMcp right
  | some left, some right => left == right
  | _, _ => false

/-! ## Attributes -/

def protocolsMatch (left right : String) : Bool :=
  if isMcpProtocol left || isMcpProtocol right then isMcpProtocol left && isMcpProtocol right
  else left == right

/-- Audit is the default. -/
def effectiveEnforcement (value : Int) : Int := if value = 0 then 2 else value

/-- An unset proposal value expresses no requirement. -/
def unsetOrEqual {α : Type} [DecidableEq α] (proposed loaded : α) (isUnset : α → Bool) : Bool :=
  isUnset proposed || proposed == loaded

/-- Every proposed entry is loaded. -/
def containsAll {α : Type} [DecidableEq α] (loaded proposed : List α) : Bool :=
  proposed.all fun item => loaded.contains item

def flagCovers (loaded proposed : Bool) : Bool := loaded || !proposed

/-- Coverage for everything about an endpoint except its ports. -/
def endpointAttributesCover (loaded proposed : NetworkEndpoint) : Bool :=
  eqIgnoreAsciiCase loaded.host proposed.host && loaded.path == proposed.path &&
  -- retained by a merge: compared if the proposal sets them
  (isEmptyStr proposed.protocol || protocolsMatch loaded.protocol proposed.protocol) &&
  (proposed.tls == 0 || loaded.tls == proposed.tls) &&
  (proposed.enforcement == 0 ||
    effectiveEnforcement loaded.enforcement == effectiveEnforcement proposed.enforcement) &&
  (proposed.access == 0 || loaded.access == proposed.access) &&
  mcpContractsMatch loaded proposed &&
  -- widened by a merge: compared by containment
  containsAll loaded.rules proposed.rules &&
  containsAll loaded.denyRules proposed.denyRules &&
  containsAll loaded.allowedIps proposed.allowedIps &&
  flagCovers loaded.allowEncodedSlash proposed.allowEncodedSlash &&
  flagCovers loaded.websocketCredentialRewrite proposed.websocketCredentialRewrite &&
  flagCovers loaded.requestBodyCredentialRewrite proposed.requestBodyCredentialRewrite &&
  flagCovers loaded.allowUninspectedCredentials proposed.allowUninspectedCredentials &&
  -- dropped by a merge
  unsetOrEqual proposed.persistedQueries loaded.persistedQueries isEmptyStr &&
  unsetOrEqual proposed.graphqlPersistedQueries loaded.graphqlPersistedQueries (·.isEmpty) &&
  unsetOrEqual proposed.graphqlMaxBodyBytes loaded.graphqlMaxBodyBytes (· == 0) &&
  unsetOrEqual proposed.credentialSigning loaded.credentialSigning isEmptyStr &&
  unsetOrEqual proposed.signingService loaded.signingService isEmptyStr &&
  unsetOrEqual proposed.signingRegion loaded.signingRegion isEmptyStr &&
  (endpointUsesMcp loaded ||
    unsetOrEqual proposed.jsonRpcMaxBodyBytes loaded.jsonRpcMaxBodyBytes (· == 0))

/-- Coverage of one authorization unit. -/
def endpointAuthorizationCoversPort (loaded proposed : NetworkEndpoint) (port : Option Nat) :
    Bool :=
  match port with
  | some port =>
    if !(canonicalPorts loaded).contains port then false
    else endpointAttributesCover loaded proposed
  | none => endpointAttributesCover loaded proposed

/-- The entries of the fields that a merge widens. -/
structure Widens (loaded proposed : NetworkEndpoint) : Prop where
  rules : ∀ rule ∈ proposed.rules, rule ∈ loaded.rules
  denyRules : ∀ rule ∈ proposed.denyRules, rule ∈ loaded.denyRules
  allowedIps : ∀ ip ∈ proposed.allowedIps, ip ∈ loaded.allowedIps
  allowEncodedSlash : proposed.allowEncodedSlash = true → loaded.allowEncodedSlash = true
  websocketCredentialRewrite :
    proposed.websocketCredentialRewrite = true → loaded.websocketCredentialRewrite = true
  requestBodyCredentialRewrite :
    proposed.requestBodyCredentialRewrite = true → loaded.requestBodyCredentialRewrite = true
  allowUninspectedCredentials :
    proposed.allowUninspectedCredentials = true → loaded.allowUninspectedCredentials = true

/-- The fields that a merge drops. -/
structure KeepsDropped (loaded proposed : NetworkEndpoint) : Prop where
  persistedQueries :
    proposed.persistedQueries = "" ∨ proposed.persistedQueries = loaded.persistedQueries
  graphqlPersistedQueries : proposed.graphqlPersistedQueries.isEmpty = true ∨
    proposed.graphqlPersistedQueries = loaded.graphqlPersistedQueries
  graphqlMaxBodyBytes :
    proposed.graphqlMaxBodyBytes = 0 ∨ proposed.graphqlMaxBodyBytes = loaded.graphqlMaxBodyBytes
  credentialSigning :
    proposed.credentialSigning = "" ∨ proposed.credentialSigning = loaded.credentialSigning
  signingService : proposed.signingService = "" ∨ proposed.signingService = loaded.signingService
  signingRegion : proposed.signingRegion = "" ∨ proposed.signingRegion = loaded.signingRegion
  jsonRpcMaxBodyBytes : endpointUsesMcp loaded = true ∨ proposed.jsonRpcMaxBodyBytes = 0 ∨
    proposed.jsonRpcMaxBodyBytes = loaded.jsonRpcMaxBodyBytes

/-- Coverage of everything but the ports. -/
structure Covers (loaded proposed : NetworkEndpoint) : Prop where
  host : eqIgnoreAsciiCase loaded.host proposed.host = true
  path : loaded.path = proposed.path
  protocol : proposed.protocol ≠ "" → protocolsMatch loaded.protocol proposed.protocol = true
  tls : proposed.tls ≠ 0 → loaded.tls = proposed.tls
  enforcement : proposed.enforcement ≠ 0 →
    effectiveEnforcement loaded.enforcement = effectiveEnforcement proposed.enforcement
  access : proposed.access ≠ 0 → loaded.access = proposed.access
  mcp : mcpContractsMatch loaded proposed = true
  widens : Widens loaded proposed
  dropped : KeepsDropped loaded proposed

theorem flagCovers_iff {loaded proposed : Bool} :
    flagCovers loaded proposed = true ↔ (proposed = true → loaded = true) := by
  cases loaded <;> cases proposed <;> decide

theorem containsAll_iff {α : Type} [DecidableEq α] {loaded proposed : List α} :
    containsAll loaded proposed = true ↔ ∀ item ∈ proposed, item ∈ loaded := by
  simp [containsAll]

theorem unsetOrEqual_iff {α : Type} [DecidableEq α] {proposed loaded : α} {isUnset : α → Bool} :
    unsetOrEqual proposed loaded isUnset = true ↔ isUnset proposed = true ∨ proposed = loaded := by
  simp [unsetOrEqual]

variable {loaded proposed : NetworkEndpoint}

theorem endpointAttributesCover_iff :
    endpointAttributesCover loaded proposed = true ↔ Covers loaded proposed := by
  simp only [endpointAttributesCover, Bool.and_eq_true, Bool.or_eq_true, beq_iff_eq,
    flagCovers_iff, containsAll_iff, unsetOrEqual_iff, isEmptyStr_iff]
  constructor
  · rintro ⟨⟨⟨⟨⟨⟨⟨⟨⟨⟨⟨⟨⟨⟨⟨⟨⟨⟨⟨⟨host, path⟩, protocol⟩, tls⟩, enforcement⟩, access⟩, mcp⟩, rules⟩,
      denyRules⟩, ips⟩, slash⟩, websocket⟩, body⟩, uninspected⟩, queries⟩, registered⟩, graphql⟩,
      signing⟩, service⟩, region⟩, bytes⟩
    exact ⟨host, path, protocol.resolve_left, tls.resolve_left, enforcement.resolve_left,
      access.resolve_left, mcp, ⟨rules, denyRules, ips, slash, websocket, body, uninspected⟩,
      ⟨queries, registered, graphql, signing, service, region, bytes⟩⟩
  · rintro ⟨host, path, protocol, tls, enforcement, access, mcp,
      ⟨rules, denyRules, ips, slash, websocket, body, uninspected⟩,
      ⟨queries, registered, graphql, signing, service, region, bytes⟩⟩
    exact ⟨⟨⟨⟨⟨⟨⟨⟨⟨⟨⟨⟨⟨⟨⟨⟨⟨⟨⟨⟨host, path⟩, or_iff_not_imp_left.mpr protocol⟩,
      or_iff_not_imp_left.mpr tls⟩, or_iff_not_imp_left.mpr enforcement⟩,
      or_iff_not_imp_left.mpr access⟩, mcp⟩, rules⟩, denyRules⟩, ips⟩, slash⟩, websocket⟩, body⟩,
      uninspected⟩, queries⟩, registered⟩, graphql⟩, signing⟩, service⟩, region⟩, bytes⟩

variable {port : Option Nat}

theorem endpointAuthorizationCoversPort_iff :
    endpointAuthorizationCoversPort loaded proposed port = true ↔
      portIn port (canonicalPorts loaded) ∧ Covers loaded proposed := by
  unfold endpointAuthorizationCoversPort portIn
  cases port with
  | none => simp [endpointAttributesCover_iff]
  | some p =>
    by_cases h : p ∈ canonicalPorts loaded <;> simp [h, endpointAttributesCover_iff]

variable {endpoint : NetworkEndpoint}

theorem mem_authorizationPorts {port : Nat} :
    some port ∈ authorizationPorts endpoint ↔ port ∈ canonicalPorts endpoint := by
  unfold authorizationPorts
  cases h : canonicalPorts endpoint with
  | nil => simp
  | cons p ports => simp

/-- A unit of an endpoint is a unit at one of its ports. -/
theorem portIn_of_mem_authorizationPorts
    (h : port ∈ authorizationPorts endpoint) : portIn port (canonicalPorts endpoint) := by
  rintro p rfl
  exact mem_authorizationPorts.mp h

/-! ## Coverage and normalization -/

/-- The contract is a matter of the protocol, the options and the body limit. -/
theorem effectiveMcpContract_congr {endpoint' : NetworkEndpoint}
    (hp : endpoint'.protocol = endpoint.protocol)
    (hm : endpoint'.mcp = endpoint.mcp.map canonicalizeMcpOptions)
    (hb : endpoint'.jsonRpcMaxBodyBytes = endpoint.jsonRpcMaxBodyBytes) :
    effectiveMcpContract endpoint' = effectiveMcpContract endpoint := by
  unfold effectiveMcpContract
  rw [hp, hm, hb]
  cases endpoint.mcp with
  | none => rfl
  | some options => simp [canonicalizeMcpOptions, canonicalizeMcpVersions_idem]

@[simp] theorem effectiveMcpContract_normalizeEndpoint (endpoint : NetworkEndpoint) :
    effectiveMcpContract (normalizeEndpoint endpoint) = effectiveMcpContract endpoint :=
  effectiveMcpContract_congr rfl rfl rfl

@[simp] theorem endpointUsesMcp_normalizeEndpoint (endpoint : NetworkEndpoint) :
    endpointUsesMcp (normalizeEndpoint endpoint) = endpointUsesMcp endpoint := by
  simp [endpointUsesMcp, normalizeEndpoint, withPorts]

theorem containsAll_congr {α : Type} [DecidableEq α] {loaded loaded' proposed proposed' : List α}
    (hl : ∀ item, item ∈ loaded ↔ item ∈ loaded')
    (hp : ∀ item, item ∈ proposed ↔ item ∈ proposed') :
    containsAll loaded proposed = containsAll loaded' proposed' := by
  rw [Bool.eq_iff_iff, containsAll_iff, containsAll_iff]
  simp only [hl, hp]

/-- Normalizing the loaded endpoint does not change what it covers. -/
theorem covers_normalizeEndpoint_left :
    Covers (normalizeEndpoint loaded) proposed ↔ Covers loaded proposed := by
  have hlists {α : Type} [DecidableEq α] (l p : List α) : containsAll (dedupFirst l) p =
      containsAll l p :=
    containsAll_congr (fun _ => mem_dedupFirst) fun _ => Iff.rfl
  simp only [← endpointAttributesCover_iff, endpointAttributesCover, mcpContractsMatch,
    effectiveMcpContract_normalizeEndpoint, endpointUsesMcp_normalizeEndpoint]
  simp only [normalizeEndpoint, withPorts, hlists]

/-- Normalizing the proposed endpoint does not change what covers it. -/
theorem covers_normalizeEndpoint_right :
    Covers loaded (normalizeEndpoint proposed) ↔ Covers loaded proposed := by
  have hlists {α : Type} [DecidableEq α] (l p : List α) : containsAll l (dedupFirst p) =
      containsAll l p :=
    containsAll_congr (fun _ => Iff.rfl) fun _ => mem_dedupFirst
  simp only [← endpointAttributesCover_iff, endpointAttributesCover, mcpContractsMatch,
    effectiveMcpContract_normalizeEndpoint, endpointUsesMcp_normalizeEndpoint]
  simp only [normalizeEndpoint, withPorts, hlists]

/-! ## Checked endpoints -/

variable {left right : NetworkEndpoint}

/-- An endpoint of a validated policy in canonical form: its MCP options are
canonical, and there are none on an endpoint that is not MCP. -/
structure Checked (endpoint : NetworkEndpoint) : Prop extends McpCanonical endpoint where
  onlyMcp : endpoint.mcp ≠ none → isMcpProtocol endpoint.protocol = true

variable (h : Checked endpoint)
include h

/-- Being checked is a matter of the protocol and the options. -/
theorem Checked.of_mcp_eq {endpoint' : NetworkEndpoint}
    (hp : isMcpProtocol endpoint'.protocol = isMcpProtocol endpoint.protocol)
    (hm : endpoint'.mcp = endpoint.mcp.map canonicalizeMcpOptions) : Checked endpoint' where
  materialized := by
    intro hmcp
    obtain ⟨options, ho, hne⟩ := h.materialized (hp ▸ hmcp)
    exact ⟨canonicalizeMcpOptions options, by rw [hm, ho]; rfl, canonicalizeMcpVersions_ne_nil hne⟩
  sorted := by
    intro options ho
    rw [hm] at ho
    obtain ⟨o, -, rfl⟩ := Option.map_eq_some_iff.mp ho
    exact canonicalizeMcpVersions_idem o.versions
  onlyMcp := by
    intro hsome
    rw [hp]
    refine h.onlyMcp ?_
    intro hnone
    rw [hm, hnone] at hsome
    exact hsome rfl

theorem Checked.normalizeEndpoint :
    Checked (normalizeEndpoint endpoint) :=
  h.of_mcp_eq rfl rfl

theorem Checked.effectiveMcpContract_eq_none :
    effectiveMcpContract endpoint = none ↔ isMcpProtocol endpoint.protocol = false := by
  unfold effectiveMcpContract
  cases hp : isMcpProtocol endpoint.protocol with
  | false => simp
  | true =>
    obtain ⟨options, hm, -⟩ := h.materialized hp
    simp [hm]

theorem Checked.endpointUsesMcp :
    endpointUsesMcp endpoint = isMcpProtocol endpoint.protocol := by
  unfold Policy.endpointUsesMcp
  cases hp : isMcpProtocol endpoint.protocol with
  | true => rfl
  | false =>
    cases hm : endpoint.mcp with
    | none => rfl
    | some options =>
      rw [h.onlyMcp (by simp [hm])] at hp
      cases hp

omit h in
/-- Checked endpoints match exactly if their effective contracts are equal. -/
theorem mcpContractsMatch_iff (hl : Checked left)
    (hr : Checked right) :
    mcpContractsMatch left right = true ↔
      effectiveMcpContract left = effectiveMcpContract right := by
  unfold mcpContractsMatch
  cases h₁ : effectiveMcpContract left with
  | none =>
    cases h₂ : effectiveMcpContract right with
    | none =>
      rw [hl.endpointUsesMcp, hr.endpointUsesMcp, hl.effectiveMcpContract_eq_none.mp h₁,
        hr.effectiveMcpContract_eq_none.mp h₂]
      simp
    | some c => simp
  | some c =>
    cases h₂ : effectiveMcpContract right with
    | none => simp
    | some c' => simp

omit h in
theorem protocolsMatch_refl (protocol : String) : protocolsMatch protocol protocol = true := by
  unfold protocolsMatch
  cases h : isMcpProtocol protocol <;> simp

theorem Covers.refl :
    Covers endpoint endpoint where
  host := eqIgnoreAsciiCase_iff.mpr rfl
  path := rfl
  protocol _ := protocolsMatch_refl _
  tls _ := rfl
  enforcement _ := rfl
  access _ := rfl
  mcp := (mcpContractsMatch_iff h h).mpr rfl
  widens := ⟨fun _ => id, fun _ => id, fun _ => id, id, id, id, id⟩
  dropped := ⟨.inr rfl, .inr rfl, .inr rfl, .inr rfl, .inr rfl, .inr rfl, .inr (.inr rfl)⟩

end OpenShell.Policy
