import OpenShell.Policy.Merge.Grants

/-!
# Restrictive operations

Removing an endpoint, a rule or a binary and adding deny rules never widen a
policy: every rule that is left is narrower than the rule it comes from, the
removals take effect, and what an operation does not address stays as it is, in
canonical form.
-/

namespace OpenShell.Policy

def PolicyMergeOp.isRestrictive : PolicyMergeOp → Bool
  | .removeEndpoint .. | .removeRule _ | .removeBinary .. | .addDenyRules .. => true
  | .addRule .. | .addAllowRules .. => false

/-! ## Narrower rules -/

/-- An endpoint at fewer ports and with more deny rules, otherwise the same. -/
structure EndpointNarrowed (before after : NetworkEndpoint) : Prop where
  host : after.host = before.host
  path : after.path = before.path
  ports : ∀ port ∈ canonicalPorts after, port ∈ canonicalPorts before
  rules : after.rules = before.rules
  access : after.access = before.access
  denyRules : ∀ rule ∈ before.denyRules, rule ∈ after.denyRules

/-- A rule that authorizes fewer binaries to use narrower endpoints. -/
structure RuleNarrowed (before after : NetworkPolicyRule) : Prop where
  binaries : ∀ binary, binaryScopeCovers after binary = true →
    binaryScopeCovers before binary = true
  endpoints : ∀ endpoint ∈ after.endpoints, ∃ old ∈ before.endpoints, EndpointNarrowed old endpoint

theorem EndpointNarrowed.refl (endpoint : NetworkEndpoint) : EndpointNarrowed endpoint endpoint :=
  ⟨rfl, rfl, fun _ => id, rfl, rfl, fun _ => id⟩

theorem RuleNarrowed.refl (rule : NetworkPolicyRule) : RuleNarrowed rule rule :=
  ⟨fun _ => id, fun endpoint he => ⟨endpoint, he, .refl endpoint⟩⟩

variable {endpoint : NetworkEndpoint}

theorem endpointNarrowed_canonicalizeEndpoint {after : NetworkEndpoint}
    (h : EndpointNarrowed (canonicalizeEndpoint endpoint) after) :
    EndpointNarrowed endpoint after := by
  rw [canonicalizeEndpoint_eq] at h
  exact ⟨h.host, h.path, h.ports, h.rules, h.access, h.denyRules⟩

variable {rule : NetworkPolicyRule}

theorem RuleNarrowed.of_canonicalizeRule {after : NetworkPolicyRule}
    (h : RuleNarrowed (canonicalizeRule rule) after) : RuleNarrowed rule after := by
  refine ⟨h.binaries, ?_⟩
  intro endpoint he
  obtain ⟨old, hold, hn⟩ := h.endpoints endpoint he
  obtain ⟨raw, hraw, rfl⟩ := List.mem_map.mp hold
  exact ⟨raw, hraw, endpointNarrowed_canonicalizeEndpoint hn⟩

/-- The rules of a policy, each narrower than the one before under its key. -/
def PolicyNarrowed (before after : SandboxPolicy) : Prop :=
  ∀ (key : String) (rule : NetworkPolicyRule), after.networkPolicies[key]? = some rule →
    ∃ old, before.networkPolicies[key]? = some old ∧ RuleNarrowed old rule

/-! ## Removing a port -/

variable (policy : SandboxPolicy)

theorem getElem?_removeEndpoint (ruleName : Option String) (host : String)
    (port : Nat) (key : String) :
    (removeEndpoint policy ruleName host port).networkPolicies[key]?
      = policy.networkPolicies[key]?.bind fun rule =>
        if ruleName.all (· == key) then removeFromRule host port rule else some rule := by
  rw [removeEndpoint, Std.ExtTreeMap.getElem?_filterMap]
  simp only [Std.ExtTreeMap.getKey_eq, Option.pbind_eq_bind]

variable {host : String} {port : Nat}

theorem removePort_narrowed {after : NetworkEndpoint}
    (h : removePort host port endpoint = some after) :
    EndpointNarrowed endpoint after ∧ endpointMatchesHostPort after host port = false ∧
      after.mcp = endpoint.mcp ∧ after.protocol = endpoint.protocol := by
  unfold removePort at h
  split at h
  next hno =>
    cases h
    exact ⟨.refl _, by simpa using hno, rfl, rfl⟩
  next =>
    dsimp only at h
    obtain ⟨hne, ⟨⟩⟩ := else_of_ite h nofun
    refine ⟨⟨rfl, rfl, ?_, rfl, rfl, fun _ => id⟩, ?_, rfl, rfl⟩
    · intro p hp
      rw [canonicalPorts_withPorts, mem_sortDedup] at hp
      exact (List.mem_filter.mp hp).1
    · rw [endpointMatchesHostPort, canonicalPorts_withPorts]
      simp

/-- An endpoint at another host or port is left alone. -/
theorem removePort_eq_self (h : endpointMatchesHostPort endpoint host port = false) :
    removePort host port endpoint = some endpoint := by
  rw [removePort, if_pos (by simp [h])]

theorem removeFromRule_eq_some {after : NetworkPolicyRule}
    (h : removeFromRule host port rule = some after) :
    after = { rule with endpoints := rule.endpoints.filterMap (removePort host port) } := by
  unfold removeFromRule at h
  dsimp only at h
  obtain ⟨-, h⟩ := else_of_ite h nofun
  exact (Option.some.inj h).symm

/-- An endpoint that stays keeps the rule. -/
theorem removeFromRule_of_mem (he : endpoint ∈ rule.endpoints)
    (h : endpointMatchesHostPort endpoint host port = false) :
    ∃ after, removeFromRule host port rule = some after ∧ endpoint ∈ after.endpoints := by
  have hmem : endpoint ∈ rule.endpoints.filterMap (removePort host port) :=
    List.mem_filterMap.mpr ⟨endpoint, he, removePort_eq_self h⟩
  refine ⟨{ rule with endpoints := rule.endpoints.filterMap (removePort host port) }, ?_, hmem⟩
  rw [removeFromRule]
  exact if_neg (by simpa using List.ne_nil_of_mem hmem)

/-! ## One operation -/

theorem removeEndpoint_narrowed (ruleName : Option String) (host : String)
    (port : Nat) : PolicyNarrowed policy (removeEndpoint policy ruleName host port) := by
  intro key after hafter
  rw [getElem?_removeEndpoint] at hafter
  obtain ⟨rule, hrule, hrem⟩ := Option.bind_eq_some_iff.mp hafter
  refine ⟨rule, hrule, ?_⟩
  split at hrem
  next =>
    obtain rfl := removeFromRule_eq_some hrem
    refine ⟨fun _ => id, ?_⟩
    intro endpoint he
    obtain ⟨old, hold, hr⟩ := List.mem_filterMap.mp he
    exact ⟨old, hold, (removePort_narrowed hr).1⟩
  next =>
    cases hrem
    exact .refl _

theorem getElem?_eraseRule (ruleName key : String) :
    (policy.networkPolicies.erase ruleName)[key]?
      = if ruleName = key then none else policy.networkPolicies[key]? := by
  rw [Std.ExtTreeMap.getElem?_erase]
  by_cases h : ruleName = key <;> simp [h]

theorem eraseRule_narrowed (ruleName : String) :
    PolicyNarrowed policy
      { policy with networkPolicies := policy.networkPolicies.erase ruleName } := by
  intro key rule hrule
  rw [getElem?_eraseRule] at hrule
  exact ⟨rule, (else_of_ite hrule nofun).2, .refl rule⟩

variable {policy : SandboxPolicy} {operationIndex : Nat} {binaryPath ruleName : String}
  {after : SandboxPolicy}

/-- What removing a binary does: the rule loses it, or goes. -/
theorem removeBinary_cases
    (h : removeBinary policy operationIndex ruleName binaryPath = .ok after) :
    (policy.networkPolicies[ruleName]? = none ∧ after = policy) ∨
    (after = { policy with networkPolicies := policy.networkPolicies.erase ruleName }) ∨
    ∃ rule, policy.networkPolicies[ruleName]? = some rule ∧
      (rule.binaries.filter fun binary => binary.path ≠ binaryPath) ≠ [] ∧
      after = insertRule policy ruleName
        { rule with binaries := rule.binaries.filter fun binary => binary.path ≠ binaryPath } := by
  unfold removeBinary at h
  split at h
  next hnone => exact Or.inl ⟨hnone, (Except.ok.inj h).symm⟩
  next rule hrule =>
    obtain ⟨hne, h⟩ := else_of_ite h nofun
    dsimp only at h
    split at h
    next => exact Or.inr (Or.inl (Except.ok.inj h).symm)
    next hkeep =>
      refine Or.inr (Or.inr ⟨rule, hrule, ?_, (Except.ok.inj h).symm⟩)
      intro hnil
      refine hkeep ⟨?_, by rw [hnil]; rfl⟩
      rw [hnil, List.length_nil, Ne, List.length_eq_zero_iff]
      simpa using hne

theorem binaryScopeCovers_filter {path : String}
    (hne : (rule.binaries.filter fun binary => binary.path ≠ path) ≠ []) {binary : NetworkBinary} :
    binaryScopeCovers
        { rule with binaries := rule.binaries.filter fun binary => binary.path ≠ path }
          binary = true
      ↔ binary ∈ rule.binaries ∧ binary.path ≠ path := by
  rw [binaryScopeCovers_iff]
  simp only [hne, false_or, List.mem_filter, decide_eq_true_eq]

theorem insertRule_narrowed {key : String} {old new : NetworkPolicyRule}
    (hold : policy.networkPolicies[key]? = some old)
    (hn : RuleNarrowed old new) : PolicyNarrowed policy (insertRule policy key new) := by
  intro key' rule hrule
  rw [getElem?_insertRule] at hrule
  split at hrule
  next hkey => exact ⟨old, hkey ▸ hold, Option.some.inj hrule ▸ hn⟩
  next => exact ⟨rule, hrule, .refl rule⟩

theorem removeBinary_narrowed
    (h : removeBinary policy operationIndex ruleName binaryPath = .ok after) :
    PolicyNarrowed policy after := by
  rcases removeBinary_cases h with ⟨-, rfl⟩ | rfl | ⟨old, hold, hne, rfl⟩
  · exact fun key rule hrule => ⟨rule, hrule, .refl rule⟩
  · exact eraseRule_narrowed policy ruleName
  · refine insertRule_narrowed hold
      ⟨fun binary hb => ?_, fun endpoint he => ⟨endpoint, he, .refl endpoint⟩⟩
    exact binaryScopeCovers_iff.mpr (Or.inr ((binaryScopeCovers_filter hne).mp hb).1)

variable {warnings : List PolicyMergeWarning}

/-- What adding deny rules does: one endpoint, the only one the target can mean,
gets them. -/
theorem addDenyRules_cases {target : L7RuleTarget} {denyRules : List L7DenyRule}
    (h : applyOperation policy operationIndex (.addDenyRules target denyRules)
      = .ok (after, warnings)) :
    ∃ rule index endpoint, policy.networkPolicies[target.ruleName]? = some rule ∧
      rule.endpoints[index]? = some endpoint ∧ isL7Candidate target endpoint = true ∧
      after = setEndpoint policy target.ruleName rule index
        { endpoint with denyRules := appendUnique endpoint.denyRules denyRules } := by
  obtain ⟨⟨rule, index, endpoint⟩, hres, h⟩ := bind_eq_ok h
  obtain ⟨_, -, h⟩ := bind_eq_ok h
  obtain ⟨-, h⟩ := rejectIf_bind.mp h
  cases h
  unfold resolveL7Target at hres
  dsimp only at hres
  split at hres
  next => cases hres
  next rule' hrule =>
    split at hres
    next => cases hres
    next endpoint' index' hcand =>
      obtain ⟨-, hres⟩ := rejectIf_bind.mp hres
      obtain ⟨-, hres⟩ := rejectIf_bind.mp hres
      obtain ⟨rfl, rfl, rfl⟩ : rule' = rule ∧ index' = index ∧ endpoint' = endpoint := by
        simpa using Except.ok.inj hres
      have hmem : (endpoint', index') ∈ rule'.endpoints.zipIdx.filter
          fun entry => isL7Candidate target entry.1 := by
        rw [hcand]
        exact List.mem_singleton.mpr rfl
      obtain ⟨hzip, hc⟩ := List.mem_filter.mp hmem
      exact ⟨rule', index', endpoint', hrule, List.mem_zipIdx_iff_getElem?.mp hzip, hc, rfl⟩
    next => cases hres

theorem setEndpoint_narrowed {key : String}
    {index : Nat} {old new : NetworkEndpoint} (hrule : policy.networkPolicies[key]? = some rule)
    (hold : rule.endpoints[index]? = some old) (hn : EndpointNarrowed old new) :
    PolicyNarrowed policy (setEndpoint policy key rule index new) := by
  refine insertRule_narrowed hrule ⟨fun _ => id, fun endpoint he => ?_⟩
  rcases List.mem_or_eq_of_mem_set he with he | rfl
  · exact ⟨endpoint, he, .refl endpoint⟩
  · exact ⟨old, List.mem_of_getElem? hold, hn⟩

/-- **Restrictive operations narrow.** -/
theorem applyOperation_narrowed {operation : PolicyMergeOp}
    (hr : operation.isRestrictive = true)
    (h : applyOperation policy operationIndex operation = .ok (after, warnings)) :
    PolicyNarrowed policy after := by
  cases operation with
  | addRule | addAllowRules => cases hr
  | removeEndpoint ruleName host port =>
    cases h
    exact removeEndpoint_narrowed policy ruleName host port
  | removeRule ruleName =>
    cases h
    exact eraseRule_narrowed policy ruleName
  | addDenyRules target denyRules =>
    obtain ⟨rule, index, endpoint, hrule, hget, -, rfl⟩ := addDenyRules_cases h
    refine setEndpoint_narrowed hrule hget ⟨rfl, rfl, fun _ => id, rfl, rfl, ?_⟩
    exact fun deny hd => mem_appendUnique.mpr (Or.inl hd)
  | removeBinary ruleName binaryPath =>
    obtain ⟨policy', hrem, ⟨⟩⟩ := bind_ok_eq_ok h
    exact removeBinary_narrowed hrem

/-! ## What an operation addresses -/

/-- The rules an operation may change. A rule without endpoints counts as emptied
by a removal that looks at it. -/
def PolicyMergeOp.addressesRule (operation : PolicyMergeOp) (key : String)
    (rule : NetworkPolicyRule) : Bool :=
  match operation with
  | .removeEndpoint ruleName host port => ruleName.all (· == key) &&
      (rule.endpoints.isEmpty || rule.endpoints.any fun e => endpointMatchesHostPort e host port)
  | .removeRule ruleName | .addRule ruleName _ | .removeBinary ruleName _ => ruleName == key
  | .addDenyRules target _ | .addAllowRules target _ => target.ruleName == key

/-- The endpoints an operation may change. -/
def PolicyMergeOp.addressesEndpoint (operation : PolicyMergeOp) (key : String)
    (endpoint : NetworkEndpoint) : Bool :=
  match operation with
  | .removeEndpoint ruleName host port =>
    ruleName.all (· == key) && endpointMatchesHostPort endpoint host port
  | .removeRule ruleName | .addRule ruleName _ | .removeBinary ruleName _ => ruleName == key
  | .addDenyRules target _ | .addAllowRules target _ =>
    target.ruleName == key && isL7Candidate target endpoint

section Unaddressed

variable {policy after : SandboxPolicy} {operationIndex : Nat} {operation : PolicyMergeOp}
  {warnings : List PolicyMergeWarning} {key : String} {rule : NetworkPolicyRule}

theorem removeEndpoint_unaddressed {ruleName : Option String}
    (hk : policy.networkPolicies[key]? = some rule)
    (hno : (PolicyMergeOp.removeEndpoint ruleName host port).addressesRule key rule = false) :
    (removeEndpoint policy ruleName host port).networkPolicies[key]? = some rule := by
  rw [getElem?_removeEndpoint, hk, Option.bind_some]
  split
  next htarget =>
    simp only [PolicyMergeOp.addressesRule, htarget, Bool.true_and, Bool.or_eq_false_iff] at hno
    have hself : rule.endpoints.filterMap (removePort host port) = rule.endpoints := by
      refine (List.filterMap_congr fun e he => removePort_eq_self ?_).trans List.filterMap_some
      simpa using List.any_eq_false.mp hno.2 e he
    simp only [removeFromRule, hself, hno.1, Bool.false_eq_true, if_false]
  next => rfl

/-- A rule an operation does not address stays. -/
theorem applyOperation_unaddressedRule (hr : operation.isRestrictive = true)
    (h : applyOperation policy operationIndex operation = .ok (after, warnings))
    (hk : policy.networkPolicies[key]? = some rule)
    (hno : operation.addressesRule key rule = false) :
    after.networkPolicies[key]? = some rule := by
  cases operation with
  | addRule | addAllowRules => cases hr
  | removeEndpoint ruleName host port =>
    cases h
    exact removeEndpoint_unaddressed hk hno
  | removeRule ruleName =>
    cases h
    rw [getElem?_eraseRule, if_neg (beq_eq_false_iff_ne.mp hno), hk]
  | addDenyRules target denyRules =>
    obtain ⟨_, _, _, -, -, -, rfl⟩ := addDenyRules_cases h
    rw [setEndpoint, getElem?_insertRule, if_neg (beq_eq_false_iff_ne.mp hno), hk]
  | removeBinary ruleName binaryPath =>
    obtain ⟨policy', hrem, ⟨⟩⟩ := bind_ok_eq_ok h
    have hne : ruleName ≠ key := beq_eq_false_iff_ne.mp hno
    rcases removeBinary_cases hrem with ⟨-, rfl⟩ | rfl | ⟨_, -, -, rfl⟩
    · exact hk
    · rw [getElem?_eraseRule, if_neg hne, hk]
    · rw [getElem?_insertRule, if_neg hne, hk]

/-- An endpoint an operation does not address stays in its rule, which keeps its
name and its binaries. -/
theorem applyOperation_unaddressedEndpoint (hr : operation.isRestrictive = true)
    (h : applyOperation policy operationIndex operation = .ok (after, warnings))
    (hk : policy.networkPolicies[key]? = some rule)
    (he : endpoint ∈ rule.endpoints) (hno : operation.addressesEndpoint key endpoint = false) :
    ∃ rule', after.networkPolicies[key]? = some rule' ∧ rule'.name = rule.name ∧
      rule'.binaries = rule.binaries ∧ endpoint ∈ rule'.endpoints := by
  have hkept : operation.addressesRule key rule = false → ∃ rule',
      after.networkPolicies[key]? = some rule' ∧ rule'.name = rule.name ∧
        rule'.binaries = rule.binaries ∧ endpoint ∈ rule'.endpoints := fun hrule =>
    ⟨rule, applyOperation_unaddressedRule hr h hk hrule, rfl, rfl, he⟩
  cases operation with
  | addRule | addAllowRules => cases hr
  | removeRule | removeBinary => exact hkept hno
  | removeEndpoint ruleName host port =>
    cases h
    rw [getElem?_removeEndpoint, hk, Option.bind_some]
    split
    next htarget =>
      simp only [PolicyMergeOp.addressesEndpoint, htarget, Bool.true_and] at hno
      obtain ⟨rule', hrem, hmem⟩ := removeFromRule_of_mem he hno
      obtain rfl := removeFromRule_eq_some hrem
      exact ⟨_, hrem, rfl, rfl, hmem⟩
    next => exact ⟨rule, rfl, rfl, rfl, he⟩
  | addDenyRules target denyRules =>
    by_cases hkey : target.ruleName = key
    · obtain ⟨rule', index, old, hrule, hget, hcand, rfl⟩ := addDenyRules_cases h
      subst hkey
      obtain rfl := Option.mem_unique hrule hk
      rw [setEndpoint, getElem?_insertRule, if_pos rfl]
      refine ⟨_, rfl, rfl, rfl, mem_set_of_ne he hget ?_⟩
      rintro rfl
      simp [PolicyMergeOp.addressesEndpoint, hcand] at hno
    · exact hkept (beq_eq_false_iff_ne.mpr hkey)

end Unaddressed

/-! ## The theorem -/

theorem PolicyNarrowed.canonical (h : PolicyNarrowed (canonicalPolicy policy) after) :
    PolicyNarrowed policy (canonicalPolicy after) := by
  intro key rule hrule
  rw [getElem?_canonicalPolicy] at hrule
  obtain ⟨merged, hmerged, rfl⟩ := Option.map_eq_some_iff.mp hrule
  obtain ⟨old, hold, hn⟩ := h key merged hmerged
  rw [getElem?_canonicalPolicy] at hold
  obtain ⟨raw, hraw, rfl⟩ := Option.map_eq_some_iff.mp hold
  refine ⟨raw, hraw, hn.of_canonicalizeRule.binaries, ?_⟩
  intro endpoint he
  obtain ⟨e, hmem, rfl⟩ := List.mem_map.mp he
  obtain ⟨old, hold, hne⟩ := hn.of_canonicalizeRule.endpoints e hmem
  refine ⟨old, hold, ?_⟩
  rw [canonicalizeEndpoint_eq]
  exact ⟨hne.host, hne.path, hne.ports, hne.rules, hne.access, hne.denyRules⟩

theorem addressesEndpoint_canonicalizeEndpoint (operation : PolicyMergeOp) (key : String)
    (endpoint : NetworkEndpoint) :
    operation.addressesEndpoint key (canonicalizeEndpoint endpoint)
      = operation.addressesEndpoint key endpoint := by
  rw [canonicalizeEndpoint_eq]
  cases operation <;> rfl

theorem addressesRule_canonicalizeRule (operation : PolicyMergeOp) (key : String)
    (rule : NetworkPolicyRule) :
    operation.addressesRule key (canonicalizeRule rule) = operation.addressesRule key rule := by
  cases operation with
  | removeEndpoint ruleName host port =>
    have hmatch : ∀ e, endpointMatchesHostPort (canonicalizeEndpoint e) host port
        = endpointMatchesHostPort e host port := by
      intro e
      rw [canonicalizeEndpoint_eq]
      rfl
    simp [PolicyMergeOp.addressesRule, canonicalizeRule, List.any_map, Function.comp_def, hmatch]
  | _ => rfl

/-- What a restrictive operation guarantees. -/
structure Restricted (policy : SandboxPolicy) (operation : PolicyMergeOp) (after : SandboxPolicy) :
    Prop where
  narrowed : PolicyNarrowed policy after
  endpointGone : ∀ host port, operation = .removeEndpoint none host port →
    ∀ (key : String) (rule : NetworkPolicyRule), after.networkPolicies[key]? = some rule →
      ∀ endpoint ∈ rule.endpoints, endpointMatchesHostPort endpoint host port = false
  binaryGone : ∀ ruleName path, operation = .removeBinary ruleName path →
    ∀ rule, after.networkPolicies[ruleName]? = some rule → binaryScopeCovers rule ⟨path⟩ = false
  unaddressedRule : ∀ (key : String) (rule : NetworkPolicyRule),
    policy.networkPolicies[key]? = some rule → operation.addressesRule key rule = false →
      after.networkPolicies[key]? = some (canonicalizeRule rule)
  unaddressedEndpoint : ∀ (key : String) (rule : NetworkPolicyRule),
    policy.networkPolicies[key]? = some rule → ∀ endpoint ∈ rule.endpoints,
      operation.addressesEndpoint key endpoint = false →
      ∃ rule', after.networkPolicies[key]? = some rule' ∧ rule'.name = rule.name ∧
        rule'.binaries = rule.binaries ∧ canonicalizeEndpoint endpoint ∈ rule'.endpoints

/-- **Restrictive operations never widen and are effective.** -/
theorem mergePolicy_restricted {ext : External} {policy : SandboxPolicy}
    {operation : PolicyMergeOp} {result : PolicyMergeResult}
    (hr : operation.isRestrictive = true)
    (h : mergePolicy ext policy [operation] = .ok result) :
    Restricted policy operation result.policy := by
  obtain ⟨canonical, merged, hone⟩ := mergePolicy_eq_ok h
  have happ := hone.applied
  obtain rfl : operation = canonical := by
    have hop := hone.operation
    cases operation with
    | addRule => cases hr
    | _ => exact Except.ok.inj hop
  rw [hone.policy]
  have hlook : ∀ {key : String} {rule : NetworkPolicyRule},
      (canonicalPolicy merged).networkPolicies[key]? = some rule →
      ∃ m, merged.networkPolicies[key]? = some m ∧ canonicalizeRule m = rule := by
    intro key rule hrule
    rw [getElem?_canonicalPolicy] at hrule
    exact Option.map_eq_some_iff.mp hrule
  have hcanonical : ∀ {policy : SandboxPolicy} {key : String} {rule},
      policy.networkPolicies[key]? = some rule →
      (canonicalPolicy policy).networkPolicies[key]? = some (canonicalizeRule rule) := by
    intro policy key rule hrule
    rw [getElem?_canonicalPolicy, hrule, Option.map_some]
  refine ⟨(applyOperation_narrowed hr happ).canonical, ?_, ?_, ?_, ?_⟩
  · rintro host port rfl key rule hrule endpoint he
    obtain ⟨m, hm, rfl⟩ := hlook hrule
    obtain ⟨e, hmem, rfl⟩ := List.mem_map.mp he
    obtain ⟨rfl, -⟩ := ok_pair_inj happ
    rw [getElem?_removeEndpoint] at hm
    obtain ⟨old, -, hrem⟩ := Option.bind_eq_some_iff.mp hm
    rw [Option.all_none, if_pos rfl] at hrem
    obtain rfl := removeFromRule_eq_some hrem
    obtain ⟨o, -, ho⟩ := List.mem_filterMap.mp hmem
    rw [canonicalizeEndpoint_eq]
    exact (removePort_narrowed ho).2.1
  · rintro ruleName path rfl rule hrule
    obtain ⟨m, hm, rfl⟩ := hlook hrule
    obtain ⟨policy', hrem, happ⟩ := bind_eq_ok happ
    obtain ⟨rfl, -⟩ := ok_pair_inj happ
    rw [binaryScopeCovers_canonicalizeRule]
    rcases removeBinary_cases hrem with ⟨hnone, rfl⟩ | rfl | ⟨old, -, hne, rfl⟩
    · cases hnone.symm.trans hm
    · rw [getElem?_eraseRule, if_pos rfl] at hm
      cases hm
    · rw [getElem?_insertRule, if_pos rfl] at hm
      cases hm
      rw [← Bool.not_eq_true, binaryScopeCovers_filter hne]
      exact fun hb => hb.2 rfl
  · intro key rule hrule hno
    rw [← addressesRule_canonicalizeRule] at hno
    rw [hcanonical (applyOperation_unaddressedRule hr happ (hcanonical hrule) hno),
      canonicalizeRule_idem]
  · intro key rule hrule endpoint he hno
    rw [← addressesEndpoint_canonicalizeEndpoint] at hno
    obtain ⟨rule', hrule', hname, hbin, hmem⟩ :=
      applyOperation_unaddressedEndpoint hr happ (hcanonical hrule)
      (List.mem_map_of_mem he) hno
    refine ⟨canonicalizeRule rule', hcanonical hrule', hname, hbin, ?_⟩
    rw [← canonicalizeEndpoint_idem]
    exact List.mem_map_of_mem hmem

/-- A host at two ports. -/
def twoPortRule : NetworkPolicyRule where
  endpoints := [{ host := "api.example.com", ports := [443, 8443] }]
  binaries := [⟨"/usr/bin/curl"⟩]

theorem mergePolicy_restricted_twoPort :
    ∃ result, mergePolicy plainExternal (singleRule "api" twoPortRule)
        [.removeEndpoint none "API.example.com" 8443] = .ok result ∧
      Restricted (singleRule "api" twoPortRule) (.removeEndpoint none "API.example.com" 8443)
        result.policy := by
  exact exists_ok_and (by decide +kernel) fun result h => mergePolicy_restricted rfl h

/-- Even removing an absent rule fills in the options of an MCP endpoint. -/
theorem unaddressedRule_raw :
    ∃ result, mergePolicy plainExternal (singleRule "tools" mcpRule) [.removeRule "absent"]
        = .ok result ∧
      (PolicyMergeOp.removeRule "absent").addressesRule "tools" mcpRule = false ∧
      (singleRule "tools" mcpRule).networkPolicies["tools"]? = some mcpRule ∧
      result.policy.networkPolicies["tools"]? ≠ some mcpRule := by
  refine exists_ok_and (by decide) fun result h => ?_
  have hafter : result.policy.networkPolicies["tools"]? = some (canonicalizeRule mcpRule) :=
    apply_of_toOption_map (f := (·.policy.networkPolicies["tools"]?)) h (by decide)
  refine ⟨by decide, by rw [singleRule, getElem?_insertRule, if_pos rfl], ?_⟩
  rw [hafter]
  decide

end OpenShell.Policy
