import OpenShell.Policy.Validate
import OpenShell.Schema.Convert

/-!
# Serialization round trips

A policy message that came from an authored document goes back to a document and
from there to a message again. `kept` says what that second message is: the first
one without an empty process section, and without the tool matcher of the MCP
rules that lose it (`losesTool`). Everything else comes back as it was.
-/

namespace OpenShell.Schema

open OpenShell.Core OpenShell.Policy

/-! ## Maps -/

/-- Entries that come back one by one come back together. -/
theorem map_map_eq_self {α β : Type} {map : Map α} {f : String → α → β} {g : String → β → α}
    (h : ∀ k v, map[k]? = some v → g k (f k v) = v) : (map.map f).map g = map := by
  refine Std.ExtTreeMap.ext_getElem? fun k => ?_
  rw [Std.ExtTreeMap.getElem?_map, Std.ExtTreeMap.getElem?_map]
  cases hk : map[k]? with
  | none => rfl
  | some v => rw [Option.map_some, Option.map_some, h k v hk]

theorem map_eq_self_iff {α : Type} {map : Map α} {f : String → α → α} :
    map.map f = map ↔ ∀ k v, map[k]? = some v → f k v = v := by
  constructor
  · intro h k v hv
    have hk := congrArg (·[k]?) h
    simpa [hv] using hk
  · intro h
    refine Std.ExtTreeMap.ext_getElem? fun k => ?_
    rw [Std.ExtTreeMap.getElem?_map]
    cases hk : map[k]? with
    | none => rfl
    | some v => rw [Option.map_some, h k v hk]

/-- Every matcher of the map is in one of the authored forms. -/
def AuthoredMatchers (map : Map L7QueryMatcher) : Prop :=
  ∀ (k : String) m, map[k]? = some m → Authored m

/-- What is written as matchers is authored. -/
theorem authoredMatchers_map (map : Map QueryMatcher) :
    AuthoredMatchers (map.map fun _ => matcherDefToProto) := by
  intro k m hm
  rw [Std.ExtTreeMap.getElem?_map] at hm
  obtain ⟨matcher, -, rfl⟩ := Option.map_eq_some_iff.mp hm
  exact authored_matcherDefToProto matcher

theorem AuthoredMatchers.map_map {map : Map L7QueryMatcher} (h : AuthoredMatchers map) :
    (map.map fun _ => matcherProtoToDef).map (fun _ => matcherDefToProto) = map :=
  map_map_eq_self fun k m hm => matcherDefToProto_matcherProtoToDef (h k m hm)

theorem losesTool_map {α β : Type} (map : Map α) (f : String → α → β) :
    losesTool (map.map f) = losesTool map := by
  unfold losesTool
  rw [Std.ExtTreeMap.contains_map, Std.ExtTreeMap.keys_map]

theorem erase_map {α β : Type} (map : Map α) (f : String → α → β) (key : String) :
    (map.map f).erase key = (map.erase key).map f := by
  refine Std.ExtTreeMap.ext_getElem? fun k => ?_
  simp only [Std.ExtTreeMap.getElem?_erase, Std.ExtTreeMap.getElem?_map]
  split <;> rfl

/-! ## Rules -/

/-- The params of a rule after the round trip. -/
def keptParams (protocol : String) (params : Map L7QueryMatcher) : Map L7QueryMatcher :=
  if isMcpProtocol protocol && losesTool params then params.erase "name" else params

/-- The method of an MCP rule that an authored rule leaves out. -/
def rewritesMethod (protocol method : String) (params : Map L7QueryMatcher)
    (allowAllKnownMcpMethods : Bool) : Bool :=
  isMcpProtocol protocol &&
    ((method == "*" && !params.contains "name") ||
      (method == "tools/call" && params.contains "name" && allowAllKnownMcpMethods))

section
variable {protocol method : String} {params : Map L7QueryMatcher} {allowAll : Bool}

/-- The params of a rule come back as `keptParams`. -/
theorem AuthoredMatchers.params_eq (h : AuthoredMatchers params) :
    let split := splitToolParam protocol (params.map fun _ => matcherProtoToDef)
    (flattenParamMatchers (paramsWithTool (flatParamsToDef protocol split.2) split.1)).map
        (fun _ => matcherDefToProto) = keptParams protocol params := by
  dsimp only
  rw [flatten_split, losesTool_map]
  unfold keptParams
  split
  · rw [erase_map, AuthoredMatchers.map_map]
    intro k m hm
    rw [Std.ExtTreeMap.getElem?_erase] at hm
    split at hm
    · cases hm
    · exact h k m hm
  · exact h.map_map

/-- A method that is not left out comes back. -/
theorem yamlMcpMethod_eq (h : rewritesMethod protocol method params allowAll = false) :
    yamlMcpMethod protocol method
      (splitToolParam protocol (params.map fun _ => matcherProtoToDef)).1.isSome allowAll
        = method := by
  unfold rewritesMethod at h
  unfold yamlMcpMethod splitToolParam
  cases hmcp : isMcpProtocol protocol with
  | false => simp
  | true =>
    rw [hmcp] at h
    simp only [Std.ExtTreeMap.getElem?_map, Option.isSome_map,
      ← Std.ExtTreeMap.contains_eq_isSome_getElem?, Bool.not_true, Bool.false_eq_true, if_false]
    cases hname : params.contains "name" <;> simp_all

end

variable {protocol : String} {allowAll : Bool}

theorem allowDefToProto_allowProtoToDef {allow : Policy.L7Allow}
    (hquery : AuthoredMatchers allow.query) (hparams : AuthoredMatchers allow.params)
    (hmethod : rewritesMethod protocol allow.method allow.params allowAll = false) :
    allowDefToProto (allowProtoToDef protocol allow allowAll)
      = { allow with params := keptParams protocol allow.params } := by
  unfold allowDefToProto allowProtoToDef
  dsimp only
  rw [yamlMcpMethod_eq hmethod, hparams.params_eq, hquery.map_map]

variable {deny : Policy.L7DenyRule}

theorem denyDefToProto_denyProtoToDef (hquery : AuthoredMatchers deny.query)
    (hparams : AuthoredMatchers deny.params)
    (hmethod : rewritesMethod protocol deny.method deny.params allowAll = false) :
    denyDefToProto (denyProtoToDef protocol deny allowAll)
      = { deny with params := keptParams protocol deny.params } := by
  unfold denyDefToProto denyProtoToDef
  dsimp only
  rw [yamlMcpMethod_eq hmethod, hparams.params_eq, hquery.map_map]

/-! ## Endpoints -/

/-- The endpoints that authored endpoints convert to. -/
structure AuthoredEndpoint (endpoint : Policy.NetworkEndpoint) : Prop where
  port : endpoint.port = endpoint.ports.headD 0
  ports : ∀ port ∈ endpoint.ports, port < 65536
  tls : endpoint.tls = 0 ∨ endpoint.tls = 1
  enforcement : endpoint.enforcement = 0 ∨ endpoint.enforcement = 1 ∨ endpoint.enforcement = 2
  access : endpoint.access = 0 ∨ endpoint.access = 1 ∨ endpoint.access = 2 ∨ endpoint.access = 3
  rules : ∀ rule ∈ endpoint.rules, ∃ allow, rule.allow = some allow ∧
    AuthoredMatchers allow.query ∧ AuthoredMatchers allow.params
  denyRules : ∀ deny ∈ endpoint.denyRules,
    AuthoredMatchers deny.query ∧ AuthoredMatchers deny.params
  unowned : endpoint.providerCredentialed = false ∧ endpoint.tokenGrantOwner = "" ∧
    endpoint.advisorProposed = false
  mcp : if isMcpProtocol endpoint.protocol then ∃ options, endpoint.mcp = some options ∧
      options.versions ≠ [] ∧ canonicalizeMcpVersions options.versions = options.versions
    else endpoint.mcp = none

/-- The modes of an authored endpoint are among the known ones. -/
theorem modes_of_validateEndpointModes {tls enforcement access : String}
    (h : validateEndpointModes tls enforcement access = []) :
    (tls = "" ∨ tls = "skip") ∧
      (enforcement = "" ∨ enforcement = "enforce" ∨ enforcement = "audit") ∧
      (access = "" ∨ access = "read-only" ∨ access = "read-write" ∨ access = "full") := by
  simp only [validateEndpointModes, unknownTlsValue, List.append_eq_nil_iff, errorIf_eq_nil,
    Bool.not_eq_false', Bool.or_eq_true, beq_iff_eq] at h
  obtain ⟨⟨htls, henforcement⟩, haccess⟩ := h
  exact ⟨htls, or_assoc.mp henforcement, by simpa [or_assoc] using haccess⟩

variable {name : String}

theorem validateMcpConfig_ne_nil {config : McpConfig}
    (h : validateMcpConfig name config = .ok ()) {versions : List String}
    (hversions : config.versions = some versions) : versions ≠ [] := by
  unfold validateMcpConfig at h
  rw [hversions] at h
  dsimp only at h
  exact (rejectIf_bind.mp h).1

theorem authored_mcpOptions {endpoint : NetworkEndpoint}
    (h : validateEndpoint name endpoint = .ok ()) :
    if isMcpProtocol endpoint.protocol then
      ∃ options, mcpOptions endpoint.protocol endpoint.mcp = some options ∧
        options.versions ≠ [] ∧ canonicalizeMcpVersions options.versions = options.versions
    else mcpOptions endpoint.protocol endpoint.mcp = none := by
  unfold mcpOptions
  split
  next hmcp =>
    rw [hmcp]
    refine ⟨_, rfl, ?_, canonicalizeMcpVersions_idem _⟩
    refine canonicalizeMcpVersions_ne_nil ?_
    cases hversions : endpoint.mcp.bind (·.versions) with
    | none => exact List.cons_ne_nil _ _
    | some versions =>
      obtain ⟨config, hconfig, hversions⟩ := Option.bind_eq_some_iff.mp hversions
      unfold validateEndpoint at h
      rw [hconfig] at h
      simp only [hmcp, if_true] at h
      exact validateMcpConfig_ne_nil h hversions
  next hmcp => simp [hmcp]

variable {port : Nat}

theorem lt_of_mem_normalizedPorts {endpoint : NetworkEndpoint}
    (h : port ∈ normalizedPorts endpoint) : port < 65536 := by
  unfold normalizedPorts at h
  split at h
  · obtain ⟨port, -, rfl⟩ := List.mem_map.mp h
    exact port.toNat_lt
  · split at h
    · obtain rfl := List.mem_singleton.mp h
      exact endpoint.port.toNat_lt
    · cases h

variable {endpoint : Policy.NetworkEndpoint}

/-- A valid endpoint of a document converts to an authored one. -/
theorem authoredEndpoint_of_toProto {definition : NetworkEndpoint}
    (hvalid : validateEndpoint name definition = .ok ())
    (hmodes : validateEndpointModes definition.tls definition.enforcement definition.access = [])
    (h : endpointToProto definition = .ok endpoint) : AuthoredEndpoint endpoint := by
  unfold endpointToProto at h
  obtain ⟨tls, htls, h⟩ := bind_eq_ok h
  obtain ⟨enforcement, henforcement, h⟩ := bind_eq_ok h
  obtain ⟨access, haccess, rfl⟩ := bind_ok_eq_ok h
  obtain ⟨ht, he, ha⟩ := modes_of_validateEndpointModes hmodes
  constructor
  case port => rfl
  case ports =>
    intro port hport
    exact lt_of_mem_normalizedPorts hport
  case tls =>
    dsimp only
    obtain ht | ht := ht <;> rw [ht] at htls <;> cases htls <;> decide
  case enforcement =>
    dsimp only
    obtain he | he | he := he <;> rw [he] at henforcement <;> cases henforcement <;> decide
  case access =>
    dsimp only
    obtain ha | ha | ha | ha := ha <;> rw [ha] at haccess <;> cases haccess <;> decide
  case rules =>
    intro rule hrule
    obtain ⟨rule', -, rfl⟩ := List.mem_map.mp hrule
    exact ⟨_, rfl, authoredMatchers_map _, authoredMatchers_map _⟩
  case denyRules =>
    intro deny hdeny
    obtain ⟨deny', -, rfl⟩ := List.mem_map.mp hdeny
    exact ⟨authoredMatchers_map _, authoredMatchers_map _⟩
  case unowned => exact ⟨rfl, rfl, rfl⟩
  case mcp => exact authored_mcpOptions hvalid

/-- The endpoint after the round trip. -/
def keptEndpoint (endpoint : Policy.NetworkEndpoint) : Policy.NetworkEndpoint :=
  { endpoint with
    rules := endpoint.rules.map fun rule =>
      { allow := rule.allow.map fun allow =>
          { allow with params := keptParams endpoint.protocol allow.params } }
    denyRules := endpoint.denyRules.map fun deny =>
      { deny with params := keptParams endpoint.protocol deny.params } }

/-- No rule of the endpoint has a method that an authored rule leaves out. -/
def MethodsKept (endpoint : Policy.NetworkEndpoint) : Prop :=
  (∀ rule ∈ endpoint.rules, ∀ allow ∈ rule.allow, rewritesMethod endpoint.protocol allow.method
    allow.params (allowsAllKnownMethods endpoint) = false) ∧
  ∀ deny ∈ endpoint.denyRules, rewritesMethod endpoint.protocol deny.method
    deny.params (allowsAllKnownMethods endpoint) = false

section

theorem checkedPort_eq {host : String} (h : port < 65536) :
    checkedPort host port = .ok (UInt16.ofNat port) := if_pos h

variable (h : AuthoredEndpoint endpoint)
include h

/-- The ports come back: a single one through `port`, several through `ports`. -/
theorem AuthoredEndpoint.ports_roundTrip (hports : endpoint.ports ≠ [0]) :
    ∃ ports, portsFromProto endpoint = .ok ports ∧
      ∀ definition : NetworkEndpoint, definition.port = ports.1 → definition.ports = ports.2 →
        normalizedPorts definition = endpoint.ports := by
  have hbound := h.ports
  have hport := h.port
  unfold portsFromProto normalizedPorts
  cases hlist : endpoint.ports with
  | nil =>
    rw [hlist] at hport
    rw [hport]
    refine ⟨(0, []), rfl, fun definition hport hports => ?_⟩
    simp [hport, hports]
  | cons port rest =>
    rw [hlist] at hbound
    have hlt := hbound port List.mem_cons_self
    cases rest with
    | nil =>
      refine ⟨(UInt16.ofNat port, []), by simp [checkedPort_eq hlt]; rfl,
        fun definition hp hps => ?_⟩
      have hpos : 0 < UInt16.ofNat port := by
        rw [UInt16.lt_iff_toNat_lt, UInt16.toNat_ofNat_of_lt' hlt]
        refine Nat.pos_of_ne_zero fun hzero => hports ?_
        rw [hlist, hzero]
      simp [hp, hps, hpos, UInt16.toNat_ofNat_of_lt' hlt]
    | cons next rest =>
      have hmapM : (port :: next :: rest).mapM (checkedPort endpoint.host)
          = .ok ((port :: next :: rest).map UInt16.ofNat) :=
        mapM_of_forall fun value hvalue => checkedPort_eq (hbound value hvalue)
      refine ⟨(0, (port :: next :: rest).map UInt16.ofNat), ?_, fun definition hp hps => ?_⟩
      · rw [if_pos (by simp), hmapM]
        rfl
      · have hself : (port :: next :: rest).map (UInt16.toNat ∘ UInt16.ofNat)
            = port :: next :: rest :=
          (List.map_congr_left fun value hvalue =>
            UInt16.toNat_ofNat_of_lt' (hbound value hvalue)).trans (List.map_id _)
        rw [hps, List.map_map, hself, if_pos (by simp)]

/-- The MCP options come back: their versions are in canonical order already. -/
theorem AuthoredEndpoint.mcp_roundTrip (hmcp : isMcpProtocol endpoint.protocol = true) :
    ∃ config, mcpConfigFromProto endpoint.jsonRpcMaxBodyBytes endpoint.mcp = some config ∧
      config.maxBodyBytes = endpoint.jsonRpcMaxBodyBytes ∧
      mcpOptions endpoint.protocol (some config) = endpoint.mcp := by
  have hoptions := h.mcp
  rw [if_pos hmcp] at hoptions
  obtain ⟨options, hoptions, hne, hcanonical⟩ := hoptions
  unfold mcpConfigFromProto mcpOptions
  rw [hoptions]
  simp only [Option.map_some, Option.getD_some, hcanonical, Option.bind_some]
  refine ⟨_, if_pos (by simp [hne]), rfl, ?_⟩
  simp [hmcp, hcanonical]

theorem AuthoredEndpoint.tls_roundTrip :
    ∃ text mode, networkTlsModeToStr endpoint.tls = some text ∧ unknownTlsValue text = [] ∧
      networkTlsModeFromStr text = some mode ∧ mode.toInt = endpoint.tls := by
  obtain htls | htls := h.tls <;> rw [htls]
  · exact ⟨"", .unspecified, by decide⟩
  · exact ⟨"skip", .skip, by decide⟩

theorem AuthoredEndpoint.enforcement_roundTrip :
    ∃ text mode, networkEnforcementModeToStr endpoint.enforcement = some text ∧
      (text == "" || text == "enforce" || text == "audit") = true ∧
      networkEnforcementModeFromStr text = some mode ∧ mode.toInt = endpoint.enforcement := by
  obtain h | h | h := h.enforcement <;> rw [h]
  · exact ⟨"", .unspecified, by decide⟩
  · exact ⟨"enforce", .enforce, by decide⟩
  · exact ⟨"audit", .audit, by decide⟩

theorem AuthoredEndpoint.access_roundTrip :
    ∃ text preset, networkAccessPresetToStr endpoint.access = some text ∧
      (text == "" || text == "read-only" || text == "read-write" || text == "full") = true ∧
      networkAccessPresetFromStr text = some preset ∧ preset.toInt = endpoint.access := by
  obtain h | h | h | h := h.access <;> rw [h]
  · exact ⟨"", .unspecified, by decide⟩
  · exact ⟨"read-only", .readOnly, by decide⟩
  · exact ⟨"read-write", .readWrite, by decide⟩
  · exact ⟨"full", .full, by decide⟩

theorem AuthoredEndpoint.rules_roundTrip (hmethods : MethodsKept endpoint) :
    (endpoint.rules.map fun rule => ({ allow := some (allowDefToProto (allowProtoToDef
        endpoint.protocol (rule.allow.getD {}) (allowsAllKnownMethods endpoint))) } :
      Policy.L7Rule))
      = (keptEndpoint endpoint).rules := by
  refine List.map_congr_left fun rule hrule => ?_
  obtain ⟨allow, hallow, hquery, hparams⟩ := h.rules rule hrule
  rw [hallow, Option.getD_some, Option.map_some, allowDefToProto_allowProtoToDef hquery hparams
    (hmethods.1 rule hrule allow hallow)]

theorem AuthoredEndpoint.denyRules_roundTrip (hmethods : MethodsKept endpoint) :
    (endpoint.denyRules.map fun deny => denyDefToProto (denyProtoToDef endpoint.protocol deny
        (allowsAllKnownMethods endpoint))) = (keptEndpoint endpoint).denyRules := by
  refine List.map_congr_left fun deny hdeny => ?_
  obtain ⟨hquery, hparams⟩ := h.denyRules deny hdeny
  exact denyDefToProto_denyProtoToDef hquery hparams (hmethods.2 deny hdeny)

/-- The body limit and the MCP options come back from their stanzas. -/
theorem AuthoredEndpoint.stanzas_roundTrip :
    let jsonRpc := if isMcpProtocol endpoint.protocol then none
      else jsonRpcConfigFromProto endpoint.jsonRpcMaxBodyBytes
    let mcp := if isMcpProtocol endpoint.protocol then
        mcpConfigFromProto endpoint.jsonRpcMaxBodyBytes endpoint.mcp
      else none
    jsonRpcMaxBodyBytes jsonRpc mcp = endpoint.jsonRpcMaxBodyBytes ∧
      mcpOptions endpoint.protocol mcp = endpoint.mcp := by
  cases hmcp : isMcpProtocol endpoint.protocol with
  | true =>
    obtain ⟨config, hconfig, hbytes, hoptions⟩ := h.mcp_roundTrip hmcp
    simp only [if_true, hconfig]
    exact ⟨hbytes, hoptions⟩
  | false =>
    have hnone := h.mcp
    rw [if_neg (by simp [hmcp])] at hnone
    simp only [Bool.false_eq_true, if_false, jsonRpcMaxBodyBytes,
      jsonRpcConfigFromProto, mcpOptions, hmcp, Bool.not_false, if_true, hnone, and_true]
    split
    next => rfl
    next hzero => exact (Nat.eq_zero_of_not_pos hzero).symm

/-- **An endpoint comes back**, without the tool matchers that are lost. -/
theorem AuthoredEndpoint.roundTrip (hports : endpoint.ports ≠ [0])
    (hmethods : MethodsKept endpoint) :
    ∃ definition, endpointFromProto endpoint = .ok definition ∧
      validateEndpointModes definition.tls definition.enforcement definition.access = [] ∧
      endpointToProto definition = .ok (keptEndpoint endpoint) := by
  obtain ⟨ports, hports, hnormalized⟩ := h.ports_roundTrip hports
  obtain ⟨tls, tlsMode, htls, htls', htlsMode, htlsInt⟩ := h.tls_roundTrip
  obtain ⟨enforcement, enforcementMode, henf, henf', henfMode, henfInt⟩ := h.enforcement_roundTrip
  obtain ⟨access, preset, haccess, haccess', hpreset, hpresetInt⟩ := h.access_roundTrip
  obtain ⟨hbytes, hmcp⟩ := h.stanzas_roundTrip
  unfold endpointFromProto
  rw [hports, htls, henf, haccess]
  refine ⟨_, rfl, ?_, ?_⟩
  · simp only [validateEndpointModes, htls', henf', haccess', errorIf]
    rfl
  · unfold endpointToProto
    rw [hnormalized _ rfl rfl, htlsMode, henfMode, hpreset]
    refine congrArg Except.ok ?_
    obtain ⟨hprovider, howner, hproposed⟩ := h.unowned
    have hqueries : (endpoint.graphqlPersistedQueries.map fun _ => graphqlOperationFromProto).map
        (fun _ => graphqlOperationToProto) = endpoint.graphqlPersistedQueries :=
      map_map_eq_self fun _ _ _ => rfl
    have hbinding : (endpoint.credentialBinding.map fun binding =>
        ({ provider := binding.provider } : NetworkCredentialBinding)).map (fun binding =>
          ({ provider := binding.provider } : Policy.NetworkCredentialBinding))
            = endpoint.credentialBinding := by
      cases endpoint.credentialBinding <;> rfl
    simp only [List.map_map, Function.comp_def, h.rules_roundTrip hmethods,
      h.denyRules_roundTrip hmethods, hqueries, hbinding, hbytes, hmcp, htlsInt,
      henfInt, hpresetInt, ← h.port]
    simp only [keptEndpoint, hprovider, howner, hproposed]

end

/-! ## Rules and middlewares -/

variable {key : String}

theorem effectiveName_eq (h : isEmptyStr name = true → name = key) :
    (if isEmptyStr name then key else name) = name := by
  split
  next hempty => exact (h hempty).symm
  next => rfl

theorem eq_key_of_effectiveName :
    isEmptyStr (if isEmptyStr name then key else name) = true →
      (if isEmptyStr name then key else name) = key := by
  split
  next => exact fun _ => rfl
  next hempty => exact fun h => absurd h hempty

/-- A rule of an authored document, under the key it has there. -/
structure AuthoredRule (key : String) (rule : Policy.NetworkPolicyRule) : Prop where
  name : isEmptyStr rule.name = true → rule.name = key
  endpoints : ∀ endpoint ∈ rule.endpoints, AuthoredEndpoint endpoint

/-- The rule after the round trip. -/
def keptRule (rule : Policy.NetworkPolicyRule) : Policy.NetworkPolicyRule :=
  { rule with endpoints := rule.endpoints.map keptEndpoint }

variable {rule : Policy.NetworkPolicyRule}

/-- A rule comes back, endpoint by endpoint. -/
theorem AuthoredRule.roundTrip
    (h : AuthoredRule key rule) (hports : ∀ endpoint ∈ rule.endpoints, endpoint.ports ≠ [0])
    (hmethods : ∀ endpoint ∈ rule.endpoints, MethodsKept endpoint) :
    ∃ definition, ruleFromProto key rule = .ok definition ∧
      (∀ endpoint ∈ definition.endpoints,
        validateEndpointModes endpoint.tls endpoint.enforcement endpoint.access = []) ∧
      ruleToProto key definition = .ok (keptRule rule) := by
  obtain ⟨endpoints, hfrom, hmodes, hto⟩ := mapM_mapM fun endpoint he =>
    (h.endpoints endpoint he).roundTrip (hports endpoint he) (hmethods endpoint he)
  unfold ruleFromProto
  rw [hfrom]
  refine ⟨_, rfl, hmodes, ?_⟩
  unfold ruleToProto
  dsimp only
  rw [hto]
  refine congrArg Except.ok ?_
  have hname := effectiveName_eq h.name
  have hbinaries : (rule.binaries.map fun binary => ({ path := binary.path } : NetworkBinary)).map
      (fun binary => ({ path := binary.path } : Policy.NetworkBinary)) = rule.binaries := by
    rw [List.map_map]
    exact List.map_id _
  rw [hname, hbinaries]
  rfl

/-- A middleware of an authored document, under the key it has there. -/
structure AuthoredMiddleware (key : String) (middleware : NetworkMiddlewareConfig) : Prop where
  name : isEmptyStr middleware.name = true → middleware.name = key
  config : ∃ json struct, middleware.config = some struct ∧ jsonObjectToStruct json = .ok struct

variable {middleware : NetworkMiddlewareConfig}

/-- A middleware comes back as it was. -/
theorem AuthoredMiddleware.roundTrip (h : AuthoredMiddleware key middleware) :
    ∃ definition, middlewareFromProto key middleware = .ok definition ∧
      middlewareToProto key definition = .ok middleware := by
  obtain ⟨json, struct, hconfig, hstruct⟩ := h.config
  refine ⟨_, rfl, ?_⟩
  unfold middlewareToProto configToStruct
  simp only [hconfig, Option.map_some, Option.getD_some,
    jsonObjectToStruct_structToJsonObject hstruct]
  refine congrArg Except.ok ?_
  have hname := effectiveName_eq h.name
  obtain ⟨name, implementation, onError, selector, order, config⟩ := middleware
  cases selector <;> simp_all

/-! ## Policies -/

/-- The policies that authored documents convert to. -/
structure AuthoredPolicy (policy : SandboxPolicy) : Prop where
  version : policy.version = 1
  landlock : ∀ landlock ∈ policy.landlock, ∃ compatibility,
    landlock.compatibility = landlockText compatibility
  rules : ∀ key rule, policy.networkPolicies[key]? = some rule → AuthoredRule key rule
  middlewares : ∀ key middleware, policy.networkMiddlewares[key]? = some middleware →
    AuthoredMiddleware key middleware

theorem authoredRule_of_toProto {definition : NetworkPolicyRule}
    (hvalid : ∀ endpoint ∈ definition.endpoints, validateEndpoint name endpoint = .ok ())
    (hmodes : ∀ endpoint ∈ definition.endpoints,
      validateEndpointModes endpoint.tls endpoint.enforcement endpoint.access = [])
    (h : ruleToProto key definition = .ok rule) : AuthoredRule key rule := by
  unfold ruleToProto at h
  obtain ⟨endpoints, hendpoints, rfl⟩ := bind_ok_eq_ok h
  refine ⟨eq_key_of_effectiveName, fun endpoint he => ?_⟩
  obtain ⟨source, hsource, hto⟩ := exists_of_mem_mapM hendpoints endpoint he
  exact authoredEndpoint_of_toProto (hvalid source hsource) (hmodes source hsource) hto

theorem authoredMiddleware_of_toProto {definition : NetworkMiddleware}
    (h : middlewareToProto key definition = .ok middleware) :
    AuthoredMiddleware key middleware := by
  unfold middlewareToProto configToStruct at h
  obtain ⟨struct, hstruct, rfl⟩ := bind_ok_eq_ok h
  refine ⟨eq_key_of_effectiveName, definition.config, struct, rfl, ?_⟩
  cases hjson : jsonObjectToStruct definition.config with
  | error number => rw [hjson] at hstruct; cases hstruct
  | ok value => rw [hjson] at hstruct; exact congrArg Except.ok (Except.ok.inj hstruct)

variable {policy : SandboxPolicy}

/-- A valid document converts to an authored policy. -/
theorem authoredPolicy_of_toProto {document : PolicyDocument}
    (hvalid : validatePolicy document = .ok ()) (h : toProto document = .ok policy) :
    AuthoredPolicy policy := by
  obtain ⟨hversion, hvalid⟩ := rejectIf_bind.mp hvalid
  unfold toProto at h
  obtain ⟨u, hmodes, h⟩ := bind_eq_ok h
  obtain ⟨middlewares, hmiddlewares, h⟩ := bind_eq_ok h
  obtain ⟨policies, hpolicies, rfl⟩ := bind_ok_eq_ok h
  constructor
  case version => exact not_not.mp hversion
  case landlock =>
    intro landlock hlandlock
    obtain ⟨source, -, rfl⟩ := Option.map_eq_some_iff.mp hlandlock
    exact ⟨source.compatibility, rfl⟩
  case middlewares =>
    intro key middleware hkey
    obtain ⟨definition, -, hto⟩ := (traverse_eq_ok hmiddlewares key middleware).mp hkey
    exact authoredMiddleware_of_toProto hto
  case rules =>
    intro key rule hkey
    obtain ⟨definition, hdefinition, hto⟩ := (traverse_eq_ok hpolicies key rule).mp hkey
    have hentry := mem_toList_iff.mpr hdefinition
    refine authoredRule_of_toProto (forM_eq_ok.mp (forM_eq_ok.mp hvalid _ hentry))
      (fun endpoint he => ?_) hto
    obtain ⟨index, hi, hget⟩ := List.getElem_of_mem he
    have hmem : (endpoint, index) ∈ definition.endpoints.zipIdx :=
      List.mem_zipIdx_iff_getElem?.mpr (by rw [List.getElem?_eq_getElem hi, hget])
    have hcheck := forM_eq_ok.mp (forM_eq_ok.mp hmodes _ hentry) _ hmem
    exact not_not.mp (rejectIf_eq_ok.mp hcheck)

/-- An empty process section counts as none. -/
def dropEmptyProcess (policy : SandboxPolicy) : SandboxPolicy :=
  { policy with
    process := policy.process.filter fun process =>
      !(isEmptyStr process.runAsUser && isEmptyStr process.runAsGroup) }

/-- The policy after the round trip. -/
def kept (policy : SandboxPolicy) : SandboxPolicy :=
  { dropEmptyProcess policy with
    networkPolicies := policy.networkPolicies.map fun _ => keptRule }

theorem AuthoredPolicy.landlock_roundTrip (h : AuthoredPolicy policy) :
    ∃ landlock, policy.landlock.mapM landlockFromProto = .ok landlock ∧
      landlock.map (fun landlock => ({ compatibility := landlockText landlock.compatibility } :
        Policy.LandlockPolicy)) = policy.landlock := by
  have hlandlock := h.landlock
  cases hpolicy : policy.landlock with
  | none => exact ⟨none, rfl, rfl⟩
  | some landlock =>
    obtain ⟨compatibility, htext⟩ := hlandlock landlock hpolicy
    obtain ⟨text⟩ := landlock
    obtain rfl : text = landlockText compatibility := htext
    exact ⟨some { compatibility }, by cases compatibility <;> rfl, rfl⟩

theorem processFromProto_map (process : Option Policy.ProcessPolicy) :
    (process.bind processFromProto).map processToProto
      = process.filter fun process =>
          !(isEmptyStr process.runAsUser && isEmptyStr process.runAsGroup) := by
  cases process with
  | none => rfl
  | some process =>
    rw [Option.bind_some, Option.filter_some, processFromProto]
    cases isEmptyStr process.runAsUser && isEmptyStr process.runAsGroup <;> rfl

/-- The endpoints of a policy. -/
def HasEndpoint (policy : SandboxPolicy) (endpoint : Policy.NetworkEndpoint) : Prop :=
  ∃ entry ∈ policy.networkPolicies.toList, endpoint ∈ entry.2.endpoints

theorem hasEndpoint_of_mem (hkey : policy.networkPolicies[key]? = some rule)
    (he : endpoint ∈ rule.endpoints) : HasEndpoint policy endpoint :=
  ⟨(key, rule), mem_toList_iff.mpr hkey, he⟩

/-- **What comes back.** -/
theorem AuthoredPolicy.roundTrip (h : AuthoredPolicy policy)
    (hports : ∀ endpoint, HasEndpoint policy endpoint → endpoint.ports ≠ [0])
    (hmethods : ∀ endpoint, HasEndpoint policy endpoint → MethodsKept endpoint) :
    (fromProto policy >>= toProto) = .ok (kept policy) := by
  obtain ⟨landlock, hlandlock, hlandlock'⟩ := h.landlock_roundTrip
  have hrule : ∀ key rule, policy.networkPolicies[key]? = some rule → _ := fun key rule hkey =>
    (h.rules key rule hkey).roundTrip (fun endpoint he => hports _ (hasEndpoint_of_mem hkey he))
      (fun endpoint he => hmethods _ (hasEndpoint_of_mem hkey he))
  obtain ⟨policies, hfrom, hto⟩ := traverse_traverse (h := fun _ => keptRule)
    fun key rule hkey => (hrule key rule hkey).imp fun _ hd => ⟨hd.1, hd.2.2⟩
  obtain ⟨middlewares, hfrom', hto'⟩ := traverse_traverse (h := fun _ middleware => middleware)
    fun key middleware hkey => (h.middlewares key middleware hkey).roundTrip
  -- the modes are checked once more
  have hmodes : checkModes policies = .ok () := by
    refine forM_eq_ok.mpr fun entry hentry => forM_eq_ok.mpr fun indexed hindexed => ?_
    obtain ⟨rule, hkey, hfromRule⟩ := (traverse_eq_ok hfrom _ _).mp (mem_toList_iff.mp hentry)
    obtain ⟨definition, hdefinition, hchecked, -⟩ := hrule _ _ hkey
    rw [hfromRule] at hdefinition
    cases hdefinition
    have hmem : indexed.1 ∈ entry.2.endpoints :=
      List.fst_mem_of_mem_zipIdx hindexed
    exact rejectIf_eq_ok.mpr (not_not.mpr (hchecked _ hmem))
  have hversion : (if policy.version = 0 then 1 else policy.version) = policy.version := by
    rw [h.version]
    rfl
  have hfilesystem : (policy.filesystem.map filesystemFromProto).map filesystemToProto
      = policy.filesystem := by
    cases policy.filesystem <;> rfl
  unfold fromProto
  rw [hlandlock, hfrom, hfrom']
  change toProto _ = _
  unfold toProto
  dsimp only
  rw [hmodes, hto', hto]
  refine congrArg Except.ok ?_
  rw [hversion, hfilesystem, hlandlock', processFromProto_map, map_eq_self_iff.mpr fun _ _ _ => rfl]
  rfl

/-! ## Nothing lost -/

/-- No MCP rule of the endpoint loses its tool matcher. -/
def KeepsTools (endpoint : Policy.NetworkEndpoint) : Prop :=
  isMcpProtocol endpoint.protocol = true →
    (∀ rule ∈ endpoint.rules, ∀ allow ∈ rule.allow, losesTool allow.params = false) ∧
      ∀ deny ∈ endpoint.denyRules, losesTool deny.params = false

theorem keptParams_eq_self_iff {params : Map L7QueryMatcher} :
    keptParams protocol params = params ↔
      (isMcpProtocol protocol = true → losesTool params = false) := by
  unfold keptParams
  cases hmcp : isMcpProtocol protocol <;> cases hloses : losesTool params <;> simp
  -- the matcher that is lost was there
  intro heq
  have hname : params.contains "name" = true := by
    simp only [losesTool, Bool.and_eq_true] at hloses
    exact hloses.1.1
  rw [← heq] at hname
  simp at hname

theorem map_eq_self_iff_list {α : Type} {f : α → α} {l : List α} :
    l.map f = l ↔ ∀ a ∈ l, f a = a := by
  induction l with
  | nil => simp
  | cons a l ih => simp [ih]

theorem keptAllow_eq_self_iff {rule : Policy.L7Rule} :
    ({ allow := rule.allow.map fun allow =>
        { allow with params := keptParams protocol allow.params } } : Policy.L7Rule) = rule ↔
      (isMcpProtocol protocol = true → ∀ allow ∈ rule.allow, losesTool allow.params = false) := by
  obtain ⟨allow⟩ := rule
  cases allow with
  | none => simp
  | some allow =>
    obtain ⟨method, path, command, query, operationType, operationName, fields, params⟩ := allow
    simp [keptParams_eq_self_iff]

theorem keptDeny_eq_self_iff :
    { deny with params := keptParams protocol deny.params } = deny ↔
      (isMcpProtocol protocol = true → losesTool deny.params = false) := by
  obtain ⟨method, path, command, query, operationType, operationName, fields, params⟩ := deny
  simp [keptParams_eq_self_iff]

/-- An endpoint is what it was where its rules keep their tools. -/
theorem keptEndpoint_eq_self_iff :
    keptEndpoint endpoint = endpoint ↔ KeepsTools endpoint := by
  have hfields : keptEndpoint endpoint = endpoint ↔
      (keptEndpoint endpoint).rules = endpoint.rules ∧
        (keptEndpoint endpoint).denyRules = endpoint.denyRules := by
    refine ⟨fun h => ⟨congrArg _ h, congrArg _ h⟩, fun h => ?_⟩
    change { endpoint with
      rules := (keptEndpoint endpoint).rules
      denyRules := (keptEndpoint endpoint).denyRules } = endpoint
    rw [h.1, h.2]
  rw [hfields]
  simp only [keptEndpoint, map_eq_self_iff_list, keptAllow_eq_self_iff, keptDeny_eq_self_iff,
    KeepsTools]
  exact ⟨fun h hmcp =>
    ⟨fun rule hrule => h.1 rule hrule hmcp, fun deny hdeny => h.2 deny hdeny hmcp⟩,
    fun h => ⟨fun rule hrule hmcp => (h hmcp).1 rule hrule, fun deny hdeny hmcp =>
      (h hmcp).2 deny hdeny⟩⟩

/-- A policy is what it was where every endpoint is. -/
theorem kept_eq_iff :
    kept policy = dropEmptyProcess policy ↔
      ∀ endpoint, HasEndpoint policy endpoint → KeepsTools endpoint := by
  have hpolicies : kept policy = dropEmptyProcess policy ↔
      policy.networkPolicies.map (fun _ => keptRule) = policy.networkPolicies := by
    refine ⟨fun h => congrArg SandboxPolicy.networkPolicies h, fun h => ?_⟩
    unfold kept
    rw [h]
    rfl
  have hrule : ∀ rule : Policy.NetworkPolicyRule, keptRule rule = rule ↔
      ∀ endpoint ∈ rule.endpoints, KeepsTools endpoint := by
    intro rule
    obtain ⟨name, endpoints, binaries⟩ := rule
    simp [keptRule, map_eq_self_iff_list, keptEndpoint_eq_self_iff]
  rw [hpolicies, map_eq_self_iff]
  simp only [hrule]
  constructor
  · rintro h endpoint ⟨entry, hentry, he⟩
    exact h _ _ (mem_toList_iff.mp hentry) endpoint he
  · exact fun h key rule hkey endpoint he => h endpoint (hasEndpoint_of_mem hkey he)

/-- **Serialization loses nothing but tool matchers.** A valid policy that an authored
document converts to, none of whose methods is left out in writing, comes back from
the document it is written as, if and only if none of its MCP rules has a matcher for
`name` besides one below `name` in params that nest. -/
theorem toProto_fromProto_iff {ext : External} {document : PolicyDocument} {policy : SandboxPolicy}
    (hauthored : validatePolicy document = .ok ()) (hproto : toProto document = .ok policy)
    (hvalid : validateSandboxPolicy ext policy = .ok ())
    (hmethods : ∀ endpoint, HasEndpoint policy endpoint → MethodsKept endpoint) :
    (fromProto policy >>= toProto) = .ok (dropEmptyProcess policy) ↔
      ∀ endpoint, HasEndpoint policy endpoint → KeepsTools endpoint := by
  have hpolicy := authoredPolicy_of_toProto hauthored hproto
  have hports : ∀ endpoint, HasEndpoint policy endpoint → endpoint.ports ≠ [0] := by
    rintro endpoint ⟨entry, hentry, he⟩ hzero
    obtain ⟨index, hnone⟩ := endpointViolations_of_policyViolations
      (policyViolations_of_valid hvalid) (mem_toList_iff.mp hentry) he
    simp only [endpointViolations, List.append_eq_nil_iff] at hnone
    have hport := hnone.1.1.1.1.2
    simp [portViolations, effectivePorts, hzero, violationIf] at hport
  rw [hpolicy.roundTrip hports hmethods, Except.ok.injEq, kept_eq_iff]

/-- A document with one MCP endpoint and one rule. -/
def toolDocument (params : List (String × ParameterMatcher)) : PolicyDocument where
  version := 1
  networkPolicies := (∅ : Map NetworkPolicyRule).insert "tools"
    { endpoints := [{ host := "mcp.example.com", port := 443, protocol := "mcp",
                      enforcement := "enforce",
                      rules := [{ allow := { method := "tools/call", params } }] }]
      binaries := [{ path := "/usr/bin/agent" }] }

/-- The policy it converts to. -/
def toolPolicy (params : Map L7QueryMatcher) : SandboxPolicy where
  version := 1
  networkPolicies := (∅ : Map Policy.NetworkPolicyRule).insert "tools"
    { name := "tools"
      endpoints := [{ host := "mcp.example.com", port := 443, ports := [443], protocol := "mcp",
                      enforcement := 1,
                      rules := [{ allow := some { method := "tools/call", params } }]
                      mcp := some { versions := defaultMcpVersions } }]
      binaries := [{ path := "/usr/bin/agent" }] }

theorem methodsKept_toolPolicy (params : Map L7QueryMatcher) :
    ∀ endpoint, HasEndpoint (toolPolicy params) endpoint → MethodsKept endpoint := by
  rintro endpoint ⟨entry, hentry, he⟩
  have hrule := mem_toList_iff.mp hentry
  simp only [toolPolicy, Std.ExtTreeMap.getElem?_insert] at hrule
  split at hrule
  · obtain rfl := List.mem_singleton.mp (Option.some.inj hrule ▸ he)
    refine ⟨fun rule hr allow ha => ?_, fun deny hd => absurd hd List.not_mem_nil⟩
    obtain rfl := List.mem_singleton.mp hr
    cases ha
    simp [rewritesMethod, allowsAllKnownMethods, show isMcpProtocol "mcp" = true by decide]
  · simp at hrule

theorem toProto_fromProto_search :
    let policy := toolPolicy (((∅ : Map L7QueryMatcher).insert "arguments.query"
      { any := ["a", "b"] }).insert "name" { glob := "search_*" })
    (fromProto policy >>= toProto) = .ok (dropEmptyProcess policy) ↔
      ∀ endpoint, HasEndpoint policy endpoint → KeepsTools endpoint :=
  @toProto_fromProto_iff plainExternal
    (toolDocument [("arguments", .object [("query", .matcher (.any ["a", "b"]))]),
      ("name", .matcher (.glob "search_*"))]) _
    (by decide) (by decide) (by decide) (methodsKept_toolPolicy _)

/-- Params `name` and `name.x` side by side: the matcher of `name` does not come back. -/
theorem not_toProto_fromProto_nameBelow :
    let document := toolDocument [("name", .matcher (.glob "search_*")),
      ("name.x", .matcher (.glob "y"))]
    let policy := toolPolicy (((∅ : Map L7QueryMatcher).insert "name" { glob := "search_*" }).insert
      "name.x" { glob := "y" })
    validatePolicy document = .ok () ∧ toProto document = .ok policy ∧
      validateSandboxPolicy plainExternal policy = .ok () ∧
      (∀ endpoint, HasEndpoint policy endpoint → MethodsKept endpoint) ∧
      (fromProto policy >>= toProto)
        = .ok (toolPolicy ((∅ : Map L7QueryMatcher).insert "name.x" { glob := "y" })) ∧
      toolPolicy ((∅ : Map L7QueryMatcher).insert "name.x" { glob := "y" })
        ≠ dropEmptyProcess policy :=
  ⟨by decide, by decide, by decide, methodsKept_toolPolicy _,
    by decide +kernel, by decide⟩

end OpenShell.Schema
