import OpenShell.Policy.Merge.Operations

/-!
# Canonical policies

What a checked boundary returns is the canonical form of its input, and every
endpoint of it is checked. Merging keeps endpoints checked, so the second
canonicalization, of the merged policy, changes nothing.
-/

namespace OpenShell.Policy

def canonicalizeRule (rule : NetworkPolicyRule) : NetworkPolicyRule :=
  { rule with endpoints := rule.endpoints.map canonicalizeEndpoint }

variable (rule : NetworkPolicyRule)

theorem canonicalizeRule_idem :
    canonicalizeRule (canonicalizeRule rule) = canonicalizeRule rule := by
  simp [canonicalizeRule, Function.comp_def, canonicalizeEndpoint_idem]

/-- The policy with every endpoint in canonical form. -/
def canonicalPolicy (policy : SandboxPolicy) : SandboxPolicy :=
  mapEndpoints canonicalizeEndpoint policy

variable (policy : SandboxPolicy)

theorem canonicalizeMcpVersionAllowlists_materialize :
    canonicalizeMcpVersionAllowlists (materializeDefaultMcpVersions policy)
      = canonicalPolicy policy := by
  unfold canonicalizeMcpVersionAllowlists materializeDefaultMcpVersions canonicalPolicy mapEndpoints
  congr 1
  apply Std.ExtTreeMap.ext_getElem?
  intro key
  simp only [Std.ExtTreeMap.getElem?_map, Option.map_map]
  cases policy.networkPolicies[key]? with
  | none => rfl
  | some rule => simp [canonicalizeEndpoint]

@[simp] theorem getElem?_canonicalPolicy (key : String) :
    (canonicalPolicy policy).networkPolicies[key]?
      = policy.networkPolicies[key]?.map canonicalizeRule :=
  Std.ExtTreeMap.getElem?_map

@[simp] theorem getElem?_insertRule (key key' : String) :
    (insertRule policy key rule).networkPolicies[key']?
      = if key = key' then some rule else policy.networkPolicies[key']? := by
  rw [insertRule, Std.ExtTreeMap.getElem?_insert]
  by_cases h : key = key' <;> simp [h]

@[simp] theorem binaryScopeCovers_canonicalizeRule
    (binary : NetworkBinary) :
    binaryScopeCovers (canonicalizeRule rule) binary = binaryScopeCovers rule binary := rfl

/-! ## Checked boundaries -/

/-- A policy accepted at a checked boundary. -/
def Accepted (ext : External) (policy : SandboxPolicy) : Prop :=
  policyViolations ext .allowDefaultable policy = []

variable {ext : External} {policy : SandboxPolicy}

theorem validateAndCanonicalizeSandboxPolicy_eq_ok {canonical : SandboxPolicy} :
    validateAndCanonicalizeSandboxPolicy ext policy = .ok canonical ↔
      Accepted ext policy ∧ canonical = canonicalPolicy policy := by
  unfold validateAndCanonicalizeSandboxPolicy validateSandboxPolicyWithMcpPresence Accepted
  rw [canonicalizeMcpVersionAllowlists_materialize]
  dsimp only
  split
  next h =>
    rw [List.isEmpty_iff] at h
    constructor
    · exact fun hok => ⟨h, (Except.ok.inj hok).symm⟩
    · rintro ⟨-, rfl⟩
      rfl
  next h =>
    constructor
    · intro hok
      cases hok
    · exact fun hok => absurd (List.isEmpty_iff.mpr hok.1) h

variable {key : String} {rule : NetworkPolicyRule}

/-- The violations of one endpoint of an accepted policy. -/
theorem Accepted.endpoint (h : Accepted ext policy) (hr : policy.networkPolicies[key]? = some rule)
    {endpoint : NetworkEndpoint} (he : endpoint ∈ rule.endpoints) :
    ∃ index, endpointViolations ext .allowDefaultable (reportedName key rule) index endpoint
      = [] :=
  endpointViolations_of_policyViolations h hr he

/-- An accepted endpoint in canonical form is checked. -/
theorem checked_of_violations {presence : McpVersionPresence} {name : String}
    {index : Nat} {endpoint : NetworkEndpoint}
    (h : endpointViolations ext presence name index endpoint = []) :
    Checked (canonicalizeEndpoint endpoint) where
  toMcpCanonical := canonicalizeEndpoint_canonical endpoint
  onlyMcp := by
    intro hm
    have hmcp := (List.append_eq_nil_iff.mp h).2
    unfold mcpEndpointViolations at hmcp
    dsimp only at hmcp
    rw [canonicalizeEndpoint_eq]
    by_contra hp
    rw [if_neg hp, violationIf_eq_nil, Option.isSome_eq_false_iff,
      Option.isNone_iff_eq_none] at hmcp
    apply hm
    unfold canonicalizeEndpoint canonicalizeAllowlist materializeEndpoint
    rw [if_pos (by simpa using hp), hmcp]
    rfl

/-- Every endpoint of every rule is checked. -/
def CheckedPolicy (policy : SandboxPolicy) : Prop :=
  ∀ (key : String) (rule : NetworkPolicyRule), policy.networkPolicies[key]? = some rule →
    ∀ endpoint ∈ rule.endpoints, Checked endpoint

theorem Accepted.checkedPolicy (h : Accepted ext policy) :
    CheckedPolicy (canonicalPolicy policy) := by
  intro key rule hr endpoint he
  rw [getElem?_canonicalPolicy] at hr
  obtain ⟨raw, hraw, rfl⟩ := Option.map_eq_some_iff.mp hr
  obtain ⟨e, hmem, rfl⟩ := List.mem_map.mp he
  obtain ⟨index, hnil⟩ := h.endpoint hraw hmem
  exact checked_of_violations hnil

theorem canonicalizeRule_eq_self
    (h : ∀ endpoint ∈ rule.endpoints, Checked endpoint) : canonicalizeRule rule = rule := by
  have hmap : rule.endpoints.map canonicalizeEndpoint = rule.endpoints := by
    conv_rhs => rw [← List.map_id rule.endpoints]
    exact List.map_congr_left fun e he => canonicalizeEndpoint_eq_self (h e he).toMcpCanonical
  rw [canonicalizeRule, hmap]

/-- A checked policy is its own canonical form. -/
theorem CheckedPolicy.canonicalPolicy_eq (h : CheckedPolicy policy) :
    canonicalPolicy policy = policy := by
  have hmap : (canonicalPolicy policy).networkPolicies = policy.networkPolicies := by
    apply Std.ExtTreeMap.ext_getElem?
    intro key
    rw [getElem?_canonicalPolicy]
    cases hk : policy.networkPolicies[key]? with
    | none => rfl
    | some rule => rw [Option.map_some, canonicalizeRule_eq_self (h key rule hk)]
  have hrest : canonicalPolicy policy
      = { policy with networkPolicies := (canonicalPolicy policy).networkPolicies } := rfl
  rw [hrest, hmap]

theorem CheckedPolicy.insertRule (h : CheckedPolicy policy)
    (hr : ∀ endpoint ∈ rule.endpoints, Checked endpoint) :
    CheckedPolicy (insertRule policy key rule) := by
  intro key' rule' hk
  rw [getElem?_insertRule] at hk
  split at hk
  next =>
    cases hk
    exact hr
  next => exact h key' rule' hk

/-- A fragment that passes is returned in canonical form, with checked endpoints. -/
theorem validateRuleFragment_eq_ok {ruleName : String}
    {canonical : NetworkPolicyRule}
    (h : validateRuleFragment ext ruleName rule = .ok canonical) :
    canonical = canonicalizeRule rule ∧
      Accepted ext (insertRule restrictiveDefaultPolicy ruleName rule) ∧
      ∀ endpoint ∈ canonical.endpoints, Checked endpoint := by
  obtain ⟨policy, hp, h⟩ := bind_eq_ok h
  obtain ⟨hacc, rfl⟩ := validateAndCanonicalizeSandboxPolicy_eq_ok.mp hp
  cases h
  have hlook :
      (canonicalPolicy (insertRule restrictiveDefaultPolicy ruleName rule)).networkPolicies[
      ruleName]? = some (canonicalizeRule rule) := by simp
  rw [hlook, Option.getD_some]
  exact ⟨rfl, hacc, hacc.checkedPolicy ruleName _ hlook⟩

/-! ## A merge of one operation -/

theorem mapError_eq_ok {ε ε' α : Type} {f : ε → ε'} {x : Except ε α} {y : α}
    (h : x.mapError f = .ok y) : x = .ok y := by
  cases x with
  | error e => cases h
  | ok a => rw [Except.ok.inj h]

/-- The stages of a successful merge of one operation. -/
structure MergedOne (ext : External) (policy : SandboxPolicy) (operation : PolicyMergeOp)
    (result : PolicyMergeResult) (canonical : PolicyMergeOp) (merged : SandboxPolicy) : Prop where
  input : Accepted ext policy
  valid : validateOperation 0 operation = .ok ()
  operation : validateAndCanonicalizeOperation ext 0 operation = .ok canonical
  applied : applyOperation (canonicalPolicy policy) 0 canonical = .ok (merged, result.warnings)
  output : Accepted ext merged
  policy : result.policy = canonicalPolicy merged

theorem mergePolicy_eq_ok {operation : PolicyMergeOp}
    {result : PolicyMergeResult} (h : mergePolicy ext policy [operation] = .ok result) :
    ∃ canonical merged, MergedOne ext policy operation result canonical merged := by
  obtain ⟨input, hin, h⟩ := bind_eq_ok h
  obtain ⟨hacc, rfl⟩ := validateAndCanonicalizeSandboxPolicy_eq_ok.mp (mapError_eq_ok hin)
  obtain ⟨⟨merged, warnings⟩, happly, h⟩ := bind_eq_ok h
  obtain ⟨_, -, h⟩ := bind_eq_ok h
  obtain ⟨output, hout, h⟩ := bind_eq_ok h
  obtain ⟨hacc', rfl⟩ := validateAndCanonicalizeSandboxPolicy_eq_ok.mp (mapError_eq_ok hout)
  cases h
  obtain ⟨_, hvalid, happly⟩ := bind_eq_ok happly
  obtain ⟨canonical, hcanon, happly⟩ := bind_eq_ok happly
  obtain ⟨⟨merged', warnings'⟩, hone, happly⟩ := bind_eq_ok happly
  obtain ⟨⟨merged'', more⟩, hnil, happly⟩ := bind_eq_ok happly
  cases hnil
  obtain ⟨rfl, rfl⟩ := ok_pair_inj happly
  refine ⟨canonical, merged', hacc, hvalid, hcanon, ?_, hacc', rfl⟩
  rw [List.append_nil]
  exact hone

end OpenShell.Policy
