import OpenShell.L7.EndpointData
import OpenShell.Policy.Merge.Absorb

/-!
# Expanding a preset keeps its meaning

A merge that brings rules to an endpoint with an access preset writes the preset
out. The schema chooses the rules by the protocol as it is spelled, and for the
protocol the endpoint has by then; the runtime chooses them by the normalized
protocol of the endpoint as it was. `mergePolicy_presetKept_iff` says when the
two agree: not for GraphQL, for WebSocket only if it is spelled in lower case,
and for an endpoint without a protocol depending on the one it is given.
-/

namespace OpenShell.L7

open OpenShell.Policy

/-! ## Method rules -/

section Rules

variable {rego : RegoBuiltins} {endpoint : NetworkEndpoint} {request : L7Request}

theorem anyAllow_iff {p : L7Allow → Bool} :
    anyAllow endpoint p = true ↔
      ∃ rule ∈ endpoint.rules, ∃ allow, rule.allow = some allow ∧ p allow = true := by
  simp [anyAllow, Option.any_eq_true]

theorem restAllowMatches_methodRule {method : String} (h : method ≠ "") :
    restAllowMatches rego request { method, path := "**" }
      = methodMatches rego request.method method := by
  have hm : isEmptyStr method = false := by
    rw [← Bool.not_eq_true, isEmptyStr_iff]
    exact h
  have hpath : isEmptyStr "**" = false := by decide
  have hquery : queryParamsMatch rego request { method, path := "**" } = true := rfl
  simp [restAllowMatches, hm, hpath, pathMatches, hquery]

/-- Rules are looked up by membership. -/
theorem rulesAllow_congr {left right : NetworkEndpoint} (hprotocol : left.protocol = right.protocol)
    (hqueries : left.persistedQueries = right.persistedQueries)
    (hregistry : left.graphqlPersistedQueries = right.graphqlPersistedQueries)
    (hrules : ∀ rule, rule ∈ left.rules ↔ rule ∈ right.rules) :
    rulesAllow rego left request = rulesAllow rego right request := by
  have hany : ∀ p, anyAllow left p = anyAllow right p := by
    intro p
    rw [Bool.eq_iff_iff, anyAllow_iff, anyAllow_iff]
    simp only [hrules]
  have hgraphql : ∀ op, graphqlAllowMatches rego left op = graphqlAllowMatches rego right op := by
    intro op
    unfold graphqlAllowMatches graphqlEffectiveOperation graphqlRegistered
    rw [hregistry]
  have hjsonrpc : ∀ jsonrpc method, jsonrpcAllowMatches rego left jsonrpc method
      = jsonrpcAllowMatches rego right jsonrpc method := by
    intro jsonrpc method
    unfold jsonrpcAllowMatches jsonrpcRuleMethodMatches jsonrpcAllowRuleClassificationAllowed
    rw [hprotocol]
  have hregistered : ∀ op,
      graphqlRegisteredOperation left op = graphqlRegisteredOperation right op := by
    intro op
    unfold graphqlRegisteredOperation graphqlRegistered
    rw [hqueries, hregistry]
  have hfamily : jsonrpcFamilyEndpoint left = jsonrpcFamilyEndpoint right := by
    unfold jsonrpcFamilyEndpoint
    rw [hprotocol]
  simp only [rulesAllow, jsonrpcRequestAllowed, graphqlRequestAllowed, hany, hgraphql, hjsonrpc,
    hregistered, hfamily]

section Split

variable {methods : List String} {others : List L7Rule}
  (hrules : ∀ rule, rule ∈ endpoint.rules ↔ rule ∈ methods.map methodRule ∨ rule ∈ others)

include hrules

theorem anyAllow_methodRules {p : L7Allow → Bool} :
    anyAllow endpoint p = true ↔ (∃ method ∈ methods, p { method, path := "**" } = true) ∨
      anyAllow { endpoint with rules := others } p = true := by
  rw [anyAllow_iff, anyAllow_iff]
  constructor
  · rintro ⟨rule, hmem, allow, hallow, hp⟩
    rcases (hrules rule).mp hmem with hmethod | hother
    · obtain ⟨method, hin, rfl⟩ := List.mem_map.mp hmethod
      cases hallow
      exact Or.inl ⟨method, hin, hp⟩
    · exact Or.inr ⟨rule, hother, allow, hallow, hp⟩
  · rintro (⟨method, hin, hp⟩ | ⟨rule, hother, allow, hallow, hp⟩)
    · exact ⟨methodRule method, (hrules _).mpr (Or.inl (List.mem_map_of_mem hin)), _, rfl, hp⟩
    · exact ⟨rule, (hrules rule).mpr (Or.inr hother), allow, hallow, hp⟩

/-- Method rules allow requests by their method, and no GraphQL operation. -/
theorem rulesAllow_methodRules (hne : "" ∉ methods)
    (hfam : jsonrpcFamilyEndpoint endpoint = false) :
    rulesAllow rego endpoint request = true ↔
      (∃ method ∈ methods, methodMatches rego request.method method = true) ∨
        rulesAllow rego { endpoint with rules := others } request = true := by
  have hgraphql : graphqlRequestAllowed rego request endpoint
      = graphqlRequestAllowed rego request { endpoint with rules := others } := by
    have hop : ∀ op, anyAllow endpoint (graphqlAllowMatches rego endpoint op)
        = anyAllow { endpoint with rules := others }
          (graphqlAllowMatches rego { endpoint with rules := others } op) := by
      intro op
      rw [Bool.eq_iff_iff, anyAllow_methodRules hrules, or_iff_right]
      · rfl
      · rintro ⟨method, -, hmatch⟩
        cases hmatch
    simp only [graphqlRequestAllowed, hop]
    rfl
  have hfam' : jsonrpcFamilyEndpoint { endpoint with rules := others } = false := hfam
  have hmethods :
      (∃ method ∈ methods, restAllowMatches rego request { method, path := "**" } = true) ↔
      ∃ method ∈ methods, methodMatches rego request.method method = true := by
    refine exists_congr fun method => and_congr_right fun hin => ?_
    rw [restAllowMatches_methodRule (fun hempty => hne (hempty ▸ hin))]
  simp only [rulesAllow, hfam, hfam', Bool.false_eq_true, if_false, Bool.or_eq_true, hgraphql,
    anyAllow_methodRules hrules, hmethods, or_assoc]

end Split

/-- Without rules nothing is allowed. -/
theorem rulesAllow_nil (hrules : endpoint.rules = []) :
    rulesAllow rego endpoint request = false := by
  have hany : ∀ p, anyAllow endpoint p = false := by
    intro p
    simp [anyAllow, hrules]
  have hgraphql : graphqlRequestAllowed rego request endpoint = false := by
    unfold graphqlRequestAllowed
    cases request.graphql with
    | none => rfl
    | some graphql =>
      cases hops : graphql.operations with
      | nil => simp [hops]
      | cons op ops => simp [hops, hany]
  have hjsonrpc : jsonrpcRequestAllowed rego request endpoint = false := by
    simp [jsonrpcRequestAllowed, hany]
  simp [rulesAllow, hany, hgraphql, hjsonrpc]

/-- A plain request never reaches a rule of the JSON-RPC family. -/
theorem rulesAllow_plain (hfam : jsonrpcFamilyEndpoint endpoint = true) (method path : String) :
    rulesAllow rego endpoint { method, path } = false := by
  simp [rulesAllow, hfam, jsonrpcRequestAllowed, graphqlRequestAllowed]

end Rules

/-! ## Endpoints with a preset -/

/-- The wire value of a preset. -/
def presetValue : AccessPreset → Int
  | .readOnly => 1
  | .readWrite => 2
  | .full => 3

/-- What acceptance says of an endpoint with an access preset. -/
structure HasPreset (endpoint : NetworkEndpoint) (preset : AccessPreset) : Prop where
  access : endpoint.access = presetValue preset
  rules : endpoint.rules = []
  protocol : endpoint.protocol = "" ∨
    ∃ protocol, L7Protocol.parse endpoint.protocol = some protocol ∧
      protocol.isJsonrpcFamily = false

theorem presetValue_injective {a b : AccessPreset} (h : presetValue a = presetValue b) : a = b := by
  cases a <;> cases b <;> first | rfl | cases h

theorem exists_presetValue {access : Int} (h : (networkAccessPresetToStr access).isNone = false)
    (hne : access ≠ 0) : ∃ preset, access = presetValue preset := by
  unfold networkAccessPresetToStr NetworkAccessPreset.ofInt at h
  by_cases h1 : access = 1
  · exact ⟨.readOnly, h1⟩
  by_cases h2 : access = 2
  · exact ⟨.readWrite, h2⟩
  by_cases h3 : access = 3
  · exact ⟨.full, h3⟩
  simp [hne, h1, h2, h3] at h

theorem hasPreset_of_violations {ext : External} {presence : McpVersionPresence} {name : String}
    {index : Nat} {endpoint : NetworkEndpoint}
    (h : endpointViolations ext presence name index endpoint = []) (hacc : endpoint.access ≠ 0) :
    ∃ preset, HasPreset endpoint preset := by
  have herrors : l7Errors endpoint = [] := by
    have happ := (List.append_eq_nil_iff.mp (List.append_eq_nil_iff.mp h).1).2
    exact List.map_eq_nil_iff.mp happ
  simp only [l7Errors, List.append_eq_nil_iff, validateEndpointModeValues,
    errorIf_eq_nil] at herrors
  obtain ⟨⟨⟨⟨⟨⟨hsem, hmodes⟩, -⟩, -⟩, -⟩, -⟩, -⟩ := herrors
  obtain ⟨preset, hpreset⟩ := exists_presetValue hmodes.2 hacc
  have hlabel : isEmptyStr (l7EndpointFields endpoint).access = false := by
    show isEmptyStr ((networkAccessPresetToStr endpoint.access).getD "") = false
    rw [hpreset]
    cases preset <;> decide
  simp only [validateL7EndpointSemantics, List.append_eq_nil_iff, errorIf_eq_nil, hlabel,
    Bool.not_false, Bool.and_true, Bool.true_or] at hsem
  obtain ⟨⟨⟨⟨⟨⟨⟨⟨⟨⟨-, hknown⟩, htcp⟩, hrules⟩, hfamily⟩, -⟩, -⟩, -⟩, -⟩, -⟩, -⟩ := hsem
  refine ⟨preset, hpreset, ?_, ?_⟩
  · simpa [l7EndpointFields] using hrules
  · change (!isEmptyStr endpoint.protocol && (L7Protocol.parse endpoint.protocol).isNone &&
      !isExplicitTcpProtocol endpoint.protocol) = false at hknown
    change isExplicitTcpProtocol endpoint.protocol = false at htcp
    change (L7Protocol.parse endpoint.protocol).any L7Protocol.isJsonrpcFamily = false at hfamily
    cases hparse : L7Protocol.parse endpoint.protocol with
    | none =>
      rw [hparse, htcp] at hknown
      exact Or.inl (isEmptyStr_iff.mp (by simpa using hknown))
    | some protocol =>
      rw [hparse] at hfamily
      exact Or.inr ⟨protocol, rfl, hfamily⟩

section Preset

variable {rego : RegoBuiltins} {endpoint : NetworkEndpoint} {preset : AccessPreset}

theorem expandAccessPreset_preset (protocol : String) (preset : AccessPreset) :
    expandAccessPreset protocol (accessLabel (presetValue preset))
      = some ((preset.methods protocol).map methodRule) := by
  cases preset <;> rfl

theorem accessText_preset (preset : AccessPreset) :
    accessText (presetValue preset) = accessLabel (presetValue preset) := by
  cases preset <;> rfl

/-- Apart from GraphQL, the runtime's presets are the schema's. -/
theorem accessPresetRules_preset {protocol : String} (h : protocol ≠ "graphql")
    (preset : AccessPreset) :
    accessPresetRules protocol (accessLabel (presetValue preset))
      = some ((preset.methods protocol).map methodRule) := by
  unfold accessPresetRules
  rw [if_neg h]
  by_cases hws : protocol = "websocket"
  · subst hws
    cases preset <;> rfl
  · rw [if_neg hws]
    cases preset with
    | readOnly | readWrite =>
      simp [AccessPreset.methods, hws, accessLabel, presetValue, networkAccessPresetToStr,
        NetworkAccessPreset.ofInt]
    | full => rfl

theorem empty_not_mem_methods (preset : AccessPreset) (protocol : String) :
    "" ∉ preset.methods protocol := by
  cases preset with
  | full => simp [AccessPreset.methods]
  | readOnly | readWrite =>
    by_cases h : protocol = "websocket" <;> simp [AccessPreset.methods, h]

/-- The protocol the runtime chooses the rules of a preset by. -/
def presetProtocol (protocol : String) : String :=
  protocolOrRest (normalizeEndpointProtocol protocol)

theorem runtimeEndpoint_protocol (endpoint : NetworkEndpoint) :
    (runtimeEndpoint endpoint).protocol = normalizeEndpointProtocol endpoint.protocol := by
  unfold runtimeEndpoint expandAccessPresets
  dsimp only
  split
  next => rfl
  next => split <;> rfl

theorem HasPreset.runtimeEndpoint_eq (h : HasPreset endpoint preset) :
    runtimeEndpoint endpoint = { endpoint with
      protocol := normalizeEndpointProtocol endpoint.protocol
      rules := (accessPresetRules (presetProtocol endpoint.protocol)
        (accessLabel (presetValue preset))).getD [] } := by
  have htext : isEmptyStr (accessText endpoint.access) = false := by
    rw [h.access]
    cases preset <;> decide
  unfold runtimeEndpoint expandAccessPresets
  dsimp only
  rw [if_neg (by simp [htext]), if_neg (by simp [htext, h.rules]), h.access,
    accessText_preset, h.rules]
  rfl

theorem HasPreset.not_family (h : HasPreset endpoint preset) :
    jsonrpcFamilyEndpoint (runtimeEndpoint endpoint) = false := by
  unfold jsonrpcFamilyEndpoint
  rw [runtimeEndpoint_protocol]
  unfold normalizeEndpointProtocol
  split
  next => decide
  next =>
    rcases h.protocol with hempty | ⟨protocol, hparse, hfam⟩
    · rw [hempty]
      decide
    · rw [hparse]
      cases protocol <;> first | rfl | cases hfam

/-- Explicit rules are taken as they are, except by MCP. -/
theorem runtimeEndpoint_explicit (hacc : endpoint.access = 0)
    (hfam : jsonrpcFamilyEndpoint (runtimeEndpoint endpoint) = false) :
    runtimeEndpoint endpoint
      = { endpoint with protocol := normalizeEndpointProtocol endpoint.protocol } := by
  have hmcp : normalizeEndpointProtocol endpoint.protocol ≠ "mcp" := by
    intro heq
    rw [jsonrpcFamilyEndpoint, runtimeEndpoint_protocol, heq] at hfam
    cases hfam
  have halias : ∀ rule, normalizeL7RuleAliases
      { endpoint with protocol := normalizeEndpointProtocol endpoint.protocol } rule = rule := by
    intro rule
    unfold normalizeL7RuleAliases
    rw [if_neg (fun hand => hmcp hand.1)]
  have hno : protocolOrRest (normalizeEndpointProtocol endpoint.protocol) ≠ "mcp" := by
    unfold protocolOrRest
    split
    next => decide
    next => exact hmcp
  unfold runtimeEndpoint expandAccessPresets
  dsimp only
  rw [if_neg (fun hand => hno hand.1), if_pos (by simp [hacc, accessText, isEmptyStr]),
    List.map_congr_left fun rule _ => halias rule, List.map_id']

/-! ## Comparing the two expansions -/

theorem methods_congr {p q : String}
    (h : preset = .full ∨ (p = "websocket" ↔ q = "websocket")) :
    preset.methods p = preset.methods q := by
  rcases h with rfl | hiff
  · rfl
  · cases preset <;> simp only [AccessPreset.methods, hiff]

theorem HasPreset.mem_rules_iff (h : HasPreset endpoint preset)
    (hg : presetProtocol endpoint.protocol ≠ "graphql") (method : String) :
    methodRule method ∈ (runtimeEndpoint endpoint).rules ↔
      method ∈ preset.methods (presetProtocol endpoint.protocol) := by
  rw [h.runtimeEndpoint_eq, accessPresetRules_preset hg]
  show methodRule method ∈ List.map methodRule _ ↔ _
  rw [List.mem_map_of_injective (f := methodRule) fun _ _ h =>
    congrArg L7Allow.method (Option.some.inj (congrArg L7Rule.allow h))]

section Methods

variable {p q : String}

theorem methods_websocket (h : p = "websocket") (preset : AccessPreset) :
    preset.methods p = match preset with
      | .full => ["*"]
      | .readOnly => ["GET"]
      | .readWrite => ["GET", "WEBSOCKET_TEXT"] := by
  cases preset <;> simp [AccessPreset.methods, h]

theorem methods_other (h : p ≠ "websocket") (preset : AccessPreset) :
    preset.methods p = match preset with
      | .full => ["*"]
      | .readOnly => ["GET", "HEAD", "OPTIONS"]
      | .readWrite => ["GET", "HEAD", "OPTIONS", "POST", "PUT", "PATCH"] := by
  cases preset <;> simp [AccessPreset.methods, h]

/-- Where the lists differ, only the WebSocket one of read-only is contained in
the other. -/
theorem readOnly_of_methods_subset (hiff : ¬ (p = "websocket" ↔ q = "websocket"))
    (hfull : preset ≠ .full) (hsub : ∀ method ∈ preset.methods q, method ∈ preset.methods p) :
    p ≠ "websocket" ∧ q = "websocket" ∧ preset = .readOnly := by
  by_cases hp : p = "websocket"
  · -- `HEAD` is not a WebSocket method
    have hq : q ≠ "websocket" := fun hq => hiff ⟨fun _ => hq, fun _ => hp⟩
    have hhead := hsub "HEAD"
    rw [methods_websocket hp, methods_other hq] at hhead
    cases preset <;> simp at hfull hhead
  · have hq : q = "websocket" := by
      by_contra hq
      exact hiff ⟨fun h => absurd h hp, fun h => absurd h hq⟩
    have htext := hsub "WEBSOCKET_TEXT"
    rw [methods_websocket hq, methods_other hp] at htext
    cases preset <;> simp at hfull htext ⊢
    exact ⟨hp, hq⟩

end Methods

/-- What the preset of an endpoint allows at run time. -/
theorem HasPreset.rulesAllow_iff (h : HasPreset endpoint preset)
    (hg : presetProtocol endpoint.protocol ≠ "graphql") (request : L7Request) :
    rulesAllow rego (runtimeEndpoint endpoint) request = true ↔
      ∃ method ∈ preset.methods (presetProtocol endpoint.protocol),
        methodMatches rego request.method method = true := by
  have hrules : ∀ rule, rule ∈ (runtimeEndpoint endpoint).rules ↔
      rule ∈ (preset.methods (presetProtocol endpoint.protocol)).map methodRule ∨
        rule ∈ ([] : List L7Rule) := by
    intro rule
    rw [h.runtimeEndpoint_eq, accessPresetRules_preset hg]
    simp
  rw [rulesAllow_methodRules hrules (empty_not_mem_methods _ _) h.not_family, rulesAllow_nil rfl]
  simp

/-- Every preset lets `GET` through. -/
theorem exists_get_methods (rego : RegoBuiltins) (preset : AccessPreset) (protocol : String) :
    ∃ method ∈ preset.methods protocol, methodMatches rego "GET" method = true := by
  cases preset with
  | full => exact ⟨"*", by simp [AccessPreset.methods], by simp [methodMatches]⟩
  | readOnly | readWrite =>
    refine ⟨"GET", ?_, by simp [methodMatches]⟩
    by_cases h : protocol = "websocket" <;> simp [AccessPreset.methods, h]

/-- A GraphQL preset has no method rules. -/
theorem HasPreset.methodRule_not_mem (h : HasPreset endpoint preset)
    (hg : presetProtocol endpoint.protocol = "graphql") {method : String} (hne : method ≠ "") :
    methodRule method ∉ (runtimeEndpoint endpoint).rules := by
  rw [h.runtimeEndpoint_eq, hg]
  have hrule : ∀ operationType, methodRule method ≠ graphqlRule operationType := by
    intro operationType heq
    exact hne (congrArg L7Allow.method (Option.some.inj (congrArg L7Rule.allow heq)))
  cases preset with
  | readWrite =>
    intro hmem
    rcases List.mem_cons.mp hmem with heq | hmem
    · exact hrule _ heq
    · exact hrule _ (List.mem_singleton.mp hmem)
  | readOnly | full => exact fun hmem => hrule _ (List.mem_singleton.mp hmem)

end Preset

/-! ## The expansion of a merge -/

/-- The expansion keeps the meaning of a preset: the merged endpoint allows what
the preset did, and the rules written out are the runtime's. -/
structure PresetKept (rego : RegoBuiltins) (endpoint merged : NetworkEndpoint) (protocol : String) :
    Prop where
  admitted : ∀ request, rulesAllow rego (runtimeEndpoint endpoint) request = true →
    rulesAllow rego (runtimeEndpoint merged) request = true
  added : ∀ expanded, expandAccessPreset protocol (accessLabel endpoint.access) = some expanded →
    ∀ rule ∈ expanded, rule ∈ (runtimeEndpoint endpoint).rules

/-- The endpoint as it would be with the operation's rules alone. -/
def operationEndpoint (endpoint : NetworkEndpoint) (incoming : List NetworkEndpoint) :
    NetworkEndpoint :=
  { endpoint with
    access := 0
    protocol := mergedProtocol endpoint.protocol incoming
    rules := incoming.flatMap (·.rules) }

/-- Schema and runtime expand the preset alike, for the endpoints merged in. The
odd case is a read-only preset of REST that is written out for WebSocket: what it
loses is `OPTIONS`, which the operation may allow itself. -/
def ExpansionAgrees (rego : RegoBuiltins) (endpoint : NetworkEndpoint)
    (incoming : List NetworkEndpoint) : Prop :=
  presetProtocol endpoint.protocol ≠ "graphql" ∧
  jsonrpcFamilyEndpoint (runtimeEndpoint (operationEndpoint endpoint incoming)) = false ∧
  (endpoint.access = presetValue .full ∨
    (presetProtocol endpoint.protocol = "websocket" ↔
      expansionProtocol endpoint.protocol incoming = "websocket") ∨
    presetProtocol endpoint.protocol ≠ "websocket" ∧ endpoint.access = presetValue .readOnly ∧
      ∀ request, rego.upper request.method = "OPTIONS" →
        rulesAllow rego (runtimeEndpoint (operationEndpoint endpoint incoming)) request = true)

section Expansion

variable {rego : RegoBuiltins} {endpoint merged : NetworkEndpoint} {preset : AccessPreset}
  {incoming : List NetworkEndpoint}

/-- What the merge leaves of an endpoint whose preset it wrote out. -/
structure Expanded (endpoint merged : NetworkEndpoint) (preset : AccessPreset)
    (incoming : List NetworkEndpoint) : Prop where
  access : merged.access = 0
  protocol : merged.protocol = mergedProtocol endpoint.protocol incoming
  persistedQueries : merged.persistedQueries = endpoint.persistedQueries
  graphqlPersistedQueries : merged.graphqlPersistedQueries = endpoint.graphqlPersistedQueries
  rules : ∀ rule, rule ∈ merged.rules ↔
    rule ∈ (preset.methods (expansionProtocol endpoint.protocol incoming)).map methodRule ∨
      rule ∈ incoming.flatMap (·.rules)

theorem Expanded.family_eq (h : Expanded endpoint merged preset incoming) :
    jsonrpcFamilyEndpoint (runtimeEndpoint merged)
      = jsonrpcFamilyEndpoint (runtimeEndpoint (operationEndpoint endpoint incoming)) := by
  unfold jsonrpcFamilyEndpoint
  rw [runtimeEndpoint_protocol, runtimeEndpoint_protocol, h.protocol]
  rfl

/-- What the merged endpoint allows: the methods written out, and what the
operation's rules allow. -/
theorem Expanded.rulesAllow_iff (h : Expanded endpoint merged preset incoming)
    (hfam : jsonrpcFamilyEndpoint (runtimeEndpoint (operationEndpoint endpoint incoming)) = false)
    (request : L7Request) :
    rulesAllow rego (runtimeEndpoint merged) request = true ↔
      (∃ method ∈ preset.methods (expansionProtocol endpoint.protocol incoming),
        methodMatches rego request.method method = true) ∨
      rulesAllow rego (runtimeEndpoint (operationEndpoint endpoint incoming)) request = true := by
  have hfam' : jsonrpcFamilyEndpoint (runtimeEndpoint merged) = false := h.family_eq.trans hfam
  have hrules : ∀ rule, rule ∈ (runtimeEndpoint merged).rules ↔
      rule ∈ (preset.methods (expansionProtocol endpoint.protocol incoming)).map methodRule ∨
        rule ∈ incoming.flatMap (·.rules) := by
    intro rule
    rw [runtimeEndpoint_explicit h.access hfam']
    exact h.rules rule
  rw [rulesAllow_methodRules hrules (empty_not_mem_methods _ _) hfam',
    runtimeEndpoint_explicit rfl hfam, runtimeEndpoint_explicit h.access hfam']
  refine or_congr_right (Eq.congr_left (rulesAllow_congr ?_ ?_ ?_ fun _ => Iff.rfl))
  · show normalizeEndpointProtocol merged.protocol = _
    rw [h.protocol]
    rfl
  · exact h.persistedQueries
  · exact h.graphqlPersistedQueries

/-- Either the lists are the same, or it is the odd case. -/
theorem ExpansionAgrees.methods_cases (h : ExpansionAgrees rego endpoint incoming)
    (hp : HasPreset endpoint preset) :
    preset.methods (presetProtocol endpoint.protocol)
        = preset.methods (expansionProtocol endpoint.protocol incoming) ∨
      presetProtocol endpoint.protocol ≠ "websocket" ∧
        expansionProtocol endpoint.protocol incoming = "websocket" ∧ preset = .readOnly ∧
        ∀ request, rego.upper request.method = "OPTIONS" →
          rulesAllow rego (runtimeEndpoint (operationEndpoint endpoint incoming))
            request = true := by
  rcases h.2.2 with hfull | hiff | ⟨hpreset, hro, hoptions⟩
  · exact Or.inl (methods_congr (Or.inl (presetValue_injective (hp.access.symm.trans hfull))))
  · exact Or.inl (methods_congr (Or.inr hiff))
  · by_cases hexpansion : expansionProtocol endpoint.protocol incoming = "websocket"
    · exact Or.inr ⟨hpreset, hexpansion, presetValue_injective (hp.access.symm.trans hro), hoptions⟩
    · exact Or.inl (methods_congr (Or.inr (iff_of_false hpreset hexpansion)))

section Laws

variable (hlaws : rego.Laws) (hp : HasPreset endpoint preset)
  (h : Expanded endpoint merged preset incoming)

include hlaws hp h

theorem expansionAgrees_of_presetKept
    (hkept : PresetKept rego endpoint merged (expansionProtocol endpoint.protocol incoming)) :
    ExpansionAgrees rego endpoint incoming := by
  have hadded : ∀ method ∈ preset.methods (expansionProtocol endpoint.protocol incoming),
      methodRule method ∈ (runtimeEndpoint endpoint).rules := by
    intro method hmem
    refine hkept.added _ ?_ _ (List.mem_map_of_mem hmem)
    rw [hp.access, expandAccessPreset_preset]
  have hg : presetProtocol endpoint.protocol ≠ "graphql" := by
    intro hg
    obtain ⟨method, hmem, -⟩ := exists_get_methods rego preset
      (expansionProtocol endpoint.protocol incoming)
    refine hp.methodRule_not_mem hg ?_ (hadded method hmem)
    exact fun hempty => empty_not_mem_methods _ _ (hempty ▸ hmem)
  have hfam : jsonrpcFamilyEndpoint (runtimeEndpoint (operationEndpoint endpoint incoming))
      = false := by
    rw [← h.family_eq, ← Bool.not_eq_true]
    intro hfam
    have hget := hkept.admitted { method := "GET", path := "/" }
      ((hp.rulesAllow_iff hg _).mpr (exists_get_methods rego preset _))
    rw [rulesAllow_plain hfam] at hget
    cases hget
  simp only [hp.mem_rules_iff hg] at hadded
  refine ⟨hg, hfam, ?_⟩
  by_cases hiff : presetProtocol endpoint.protocol = "websocket" ↔
      expansionProtocol endpoint.protocol incoming = "websocket"
  · exact Or.inr (Or.inl hiff)
  by_cases hfull : preset = .full
  · exact Or.inl (hfull ▸ hp.access)
  obtain ⟨hpreset, hexpansion, rfl⟩ := readOnly_of_methods_subset hiff hfull hadded
  refine Or.inr (Or.inr ⟨hpreset, hp.access, fun request hoptions => ?_⟩)
  have hallowed : rulesAllow rego (runtimeEndpoint merged) request = true := by
    refine hkept.admitted request ((hp.rulesAllow_iff hg request).mpr ⟨"OPTIONS", ?_, ?_⟩)
    · simp [methods_other hpreset]
    · simp [methodMatches, hoptions, hlaws.upper_eq "OPTIONS" (by decide)]
  -- the one method written out is `GET`, so the operation's rules allow it
  refine ((h.rulesAllow_iff hfam request).mp hallowed).resolve_left ?_
  rintro ⟨method, hmem, hmatch⟩
  rw [methods_websocket hexpansion, List.mem_singleton] at hmem
  subst hmem
  simp [methodMatches, hoptions, hlaws.upper_eq "GET" (by decide)] at hmatch

/-- The methods the preset allowed are written out or allowed by the operation. -/
theorem rulesAllow_of_agrees (hagrees : ExpansionAgrees rego endpoint incoming)
    {request : L7Request}
    {method : String} (hmem : method ∈ preset.methods (presetProtocol endpoint.protocol))
    (hmatch : methodMatches rego request.method method = true) :
    rulesAllow rego (runtimeEndpoint merged) request = true := by
  rw [h.rulesAllow_iff hagrees.2.1]
  rcases hagrees.methods_cases hp with hsame | ⟨hpreset, hexpansion, rfl, hoptions⟩
  · rw [hsame] at hmem
    exact Or.inl ⟨method, hmem, hmatch⟩
  · have hget : "GET" ∈ AccessPreset.readOnly.methods
        (expansionProtocol endpoint.protocol incoming) := by simp [methods_websocket hexpansion]
    have hupper := fun method => hlaws.upper_eq method
    simp only [methods_other hpreset, List.mem_cons, List.not_mem_nil, or_false] at hmem
    rcases hmem with rfl | rfl | rfl
    · exact Or.inl ⟨"GET", hget, hmatch⟩
    · refine Or.inl ⟨"GET", hget, ?_⟩
      simp [methodMatches, hupper "HEAD" (by decide)] at hmatch
      simp [methodMatches, hmatch, hupper "GET" (by decide)]
    · refine Or.inr (hoptions request ?_)
      simpa [methodMatches, hupper "OPTIONS" (by decide)] using hmatch

theorem presetKept_iff :
    PresetKept rego endpoint merged (expansionProtocol endpoint.protocol incoming) ↔
      ExpansionAgrees rego endpoint incoming := by
  refine ⟨expansionAgrees_of_presetKept hlaws hp h, fun hagrees => ⟨?_, ?_⟩⟩
  · intro request hallowed
    obtain ⟨method, hmem, hmatch⟩ := (hp.rulesAllow_iff hagrees.1 request).mp hallowed
    exact rulesAllow_of_agrees hlaws hp h hagrees hmem hmatch
  · intro expanded hexpanded rule hrule
    rw [hp.access, expandAccessPreset_preset] at hexpanded
    cases hexpanded
    obtain ⟨method, hmem, rfl⟩ := List.mem_map.mp hrule
    rw [hp.mem_rules_iff hagrees.1]
    rcases hagrees.methods_cases hp with hsame | ⟨hpreset, hexpansion, rfl, -⟩
    · rw [hsame]
      exact hmem
    · rw [methods_websocket hexpansion, List.mem_singleton] at hmem
      simp [methods_other hpreset, hmem]

end Laws

end Expansion

/-! ## The theorem -/

/-- **Preset expansion.** A merge that writes a preset out keeps its meaning
exactly when schema and runtime agree on it. -/
theorem mergePolicy_presetKept_iff {rego : RegoBuiltins} (hlaws : rego.Laws) {ext : External}
    {policy : SandboxPolicy} {ruleName key : String} {rule before after : NetworkPolicyRule}
    {result : PolicyMergeResult} {position : Nat} {endpoint merged : NetworkEndpoint}
    (h : mergePolicy ext policy [.addRule ruleName rule] = .ok result)
    (hbefore : policy.networkPolicies[key]? = some before)
    (hafter : result.policy.networkPolicies[key]? = some after)
    (he : before.endpoints[position]? = some endpoint)
    (hm : after.endpoints[position]? = some merged)
    (hpreset : endpoint.access ≠ 0) (hgone : merged.access = 0) :
    PresetKept rego endpoint merged
        (expansionProtocol endpoint.protocol (landed position before.endpoints rule.endpoints)) ↔
      ExpansionAgrees rego endpoint (landed position before.endpoints rule.endpoints) := by
  obtain ⟨index, hviolations⟩ := (mergePolicy_addRule h).input.endpoint hbefore
    (List.mem_of_getElem? he)
  obtain ⟨preset, hp⟩ := hasPreset_of_violations hviolations hpreset
  rcases mergePolicy_at h hbefore hafter with rfl | hmerge
  · -- nothing was merged into the rule
    rw [canonicalizeRule, List.getElem?_map, he, Option.map_some, canonicalizeEndpoint_eq] at hm
    rw [← Option.some.inj hm] at hgone
    exact absurd hgone hpreset
  · obtain ⟨found, hfound, hall⟩ := hmerge.exists_mergedAll he
    obtain rfl := Option.mem_unique hfound hm
    -- canonical form leaves the fields read here as they are
    rw [canonicalizeEndpoint_eq] at hall
    refine presetKept_iff hlaws hp ⟨hgone, ?_, hall.persistedQueries.1, hall.persistedQueries.2, ?_⟩
    · rw [hall.protocol_eq]
      simp only [mergedProtocol, List.foldl_map, foldedEndpoint_protocol]
    · intro r
      have hexp := expandAccessPreset_preset
        (expansionProtocol endpoint.protocol (landed position before.endpoints rule.endpoints))
        preset
      rw [← expansionProtocol_map_foldedEndpoint, ← hp.access] at hexp
      rw [hall.rules_of_preset hpreset hp.rules hgone hexp, expansionProtocol_map_foldedEndpoint]
      simp [mem_rules_foldedEndpoint]

/-! ## A preset that is kept, and one that is not -/

/-- Built-ins that are right on ASCII text and literal patterns. -/
def plainRego : RegoBuiltins where
  globMatch pattern _ value := pattern == value
  upper s := String.ofList (s.toList.map Char.toUpper)
  lower := toAsciiLowercase

theorem plainRego_laws : plainRego.Laws where
  upper_eq := by
    intro s h
    have hchar : ∀ c ∈ s.toList, c.toUpper = c := by
      intro c hc
      have hrange := List.all_eq_true.mp h c hc
      simp only [Bool.and_eq_true, decide_eq_true_eq, Char.le_def, UInt32.le_iff_toNat_le] at hrange
      unfold Char.toUpper
      rw [dif_neg]
      simp only [UInt32.le_iff_toNat_le, not_and, not_le]
      have h2 : c.val.toNat ≤ 95 := hrange.2
      have h3 : 'a'.val.toNat = 97 := rfl
      omega
    show String.ofList (s.toList.map Char.toUpper) = s
    rw [List.map_congr_left hchar, List.map_id', String.ofList_toList]

/-- One endpoint with a preset. -/
def presetRule (protocol : String) (access : Int) : NetworkPolicyRule where
  endpoints := [{ host := "api.example.com", port := 443, protocol, access }]
  binaries := [⟨"/usr/bin/node"⟩]

/-- The same endpoint with a rule. -/
def explicitRule (protocol : String) (allow : L7Allow) : NetworkPolicyRule where
  endpoints :=
    [{  host := "api.example.com"
        port := 443
        protocol
        rules := [{ allow := some allow }] }]
  binaries := [⟨"/usr/bin/node"⟩]

/-- A WebSocket preset, spelled as the schema spells it, is kept. -/
theorem mergePolicy_presetKept_websocket :
    ∃ result after merged,
      mergePolicy plainExternal (singleRule "api" (presetRule "websocket" 2))
        [.addRule "api" (explicitRule "websocket" { method := "GET", path := "/feed" })]
        = .ok result ∧
      result.policy.networkPolicies["api"]? = some after ∧ after.endpoints[0]? = some merged ∧
      merged.access = 0 ∧
      PresetKept plainRego
        { host := "api.example.com", port := 443, protocol := "websocket", access := 2 } merged
        "websocket" := by
  obtain ⟨result, h⟩ := exists_ok_of_isSome (x := mergePolicy plainExternal
    (singleRule "api" (presetRule "websocket" 2))
    [.addRule "api" (explicitRule "websocket" { method := "GET", path := "/feed" })])
    (by decide)
  have hafter : result.policy.networkPolicies["api"]? = some { presetRule "websocket" 2 with
      endpoints := [
        { host := "api.example.com"
          port := 443
          ports := [443]
          protocol := "websocket"
          rules := [methodRule "GET", methodRule "WEBSOCKET_TEXT",
            { allow := some { method := "GET", path := "/feed" } }] }] } :=
    apply_of_toOption_map (f := (·.policy.networkPolicies["api"]?)) h (by decide)
  have hbefore : (singleRule "api" (presetRule "websocket" 2)).networkPolicies["api"]?
      = some (presetRule "websocket" 2) := by
    rw [singleRule, getElem?_insertRule, if_pos rfl]
  have he : (presetRule "websocket" 2).endpoints[0]? = some
      { host := "api.example.com", port := 443, protocol := "websocket", access := 2 } := rfl
  refine ⟨result, _, _, h, hafter, rfl, rfl, ?_⟩
  refine (mergePolicy_presetKept_iff plainRego_laws h hbefore hafter he rfl (by decide) rfl).mpr ?_
  exact ⟨by decide, by decide, Or.inr (Or.inl (by decide))⟩

/-- A GraphQL preset in another spelling loses its queries. -/
theorem not_presetKept_graphql :
    ∃ result after merged,
      mergePolicy plainExternal (singleRule "api" (presetRule "GraphQL" 1))
        [.addRule "api" (explicitRule "GraphQL" { operationType := "mutation" })] = .ok result ∧
      result.policy.networkPolicies["api"]? = some after ∧ after.endpoints[0]? = some merged ∧
      merged.access = 0 ∧
      ¬ PresetKept plainRego
        { host := "api.example.com", port := 443, protocol := "GraphQL", access := 1 } merged
        "GraphQL" := by
  obtain ⟨result, h⟩ := exists_ok_of_isSome (x := mergePolicy plainExternal
    (singleRule "api" (presetRule "GraphQL" 1))
    [.addRule "api" (explicitRule "GraphQL" { operationType := "mutation" })])
    (by decide)
  have hafter : result.policy.networkPolicies["api"]? = some { presetRule "GraphQL" 1 with
      endpoints := [
        { host := "api.example.com"
          port := 443
          ports := [443]
          protocol := "GraphQL"
          rules := [methodRule "GET", methodRule "HEAD", methodRule "OPTIONS",
            graphqlRule "mutation"] }] } :=
    apply_of_toOption_map (f := (·.policy.networkPolicies["api"]?)) h (by decide)
  refine ⟨result, _, _, h, hafter, rfl, rfl, fun hkept => ?_⟩
  have hquery := hkept.admitted
    { method := "POST"
      path := "/graphql"
      graphql := some { operations := [{ operationType := "query", fields := ["viewer"] }] } }
    (by decide)
  revert hquery
  decide

end OpenShell.L7
