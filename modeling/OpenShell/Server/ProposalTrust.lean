import OpenShell.Policy.Merge.Absorb
import OpenShell.Server.Proposal

/-!
# Proposals and exact-host trust

A binary is trusted with a host and port when a rule that authorizes it declares
exactly that host, outside any advisor proposal: the host may then resolve to a
private address. A proposal must not gain that trust for anyone.

A proposal under a fresh name cannot, since all its endpoints are marked, and one
that takes over a contract of the base policy only repeats what its owner had.
What is left is an observation that no contract is known for. It goes to the rule
of the requested name, and if the base policy has one, merging the two keeps the
declared endpoints declared while they absorb the proposal's ports and gain its
binaries. `evaluateProposalCandidate_trust_iff` says exactly when that shows.
-/

namespace OpenShell.Server

open OpenShell.Policy

/-! ## Trust -/

/-- The endpoint declares exactly this host, at this port. -/
structure DeclaresExactHost (endpoint : NetworkEndpoint) (host : String) (port : Nat) : Prop where
  declared : endpoint.advisorProposed = false
  exact : containsChar endpoint.host '*' = false
  host : eqIgnoreAsciiCase endpoint.host host = true
  port : port ∈ canonicalPorts endpoint

/-- `exact_declared_endpoint_host`. -/
def Trusted (policy : SandboxPolicy) (binary : NetworkBinary) (host : String) (port : Nat) : Prop :=
  ∃ (key : String) (rule : NetworkPolicyRule), policy.networkPolicies[key]? = some rule ∧
    binaryScopeCovers rule binary = true ∧ ∃ endpoint ∈ rule.endpoints,
    DeclaresExactHost endpoint host port

variable {host : String} {port : Nat}

/-- Another declared endpoint of the same host, at the same port, will do. -/
theorem DeclaresExactHost.of_host {left right : NetworkEndpoint}
    (h : DeclaresExactHost left host port) (hdecl : right.advisorProposed = false)
    (hhost : toAsciiLowercase left.host = toAsciiLowercase right.host)
    (hport : port ∈ canonicalPorts right) : DeclaresExactHost right host port where
  declared := hdecl
  exact := by
    rw [← containsChar_star_toAsciiLowercase, ← hhost, containsChar_star_toAsciiLowercase]
    exact h.exact
  host := eqIgnoreAsciiCase_iff.mpr (hhost ▸ eqIgnoreAsciiCase_iff.mp h.host)
  port := hport

variable {endpoint : NetworkEndpoint}

theorem declaresExactHost_canonicalizeEndpoint :
    DeclaresExactHost (canonicalizeEndpoint endpoint) host port ↔
      DeclaresExactHost endpoint host port := by
  rw [canonicalizeEndpoint_eq]
  constructor
  · exact fun h => ⟨h.declared, h.exact, h.host, h.port⟩
  · exact fun h => ⟨h.declared, h.exact, h.host, h.port⟩

variable {policy : SandboxPolicy} {binary : NetworkBinary} {key : String} {rule : NetworkPolicyRule}

/-- Trust may be read on the canonical form of a rule. -/
theorem trusted_of_canonical
    (hr : policy.networkPolicies[key]? = some rule) (hb : binaryScopeCovers rule binary = true)
    (he : endpoint ∈ (canonicalizeRule rule).endpoints)
    (hd : DeclaresExactHost endpoint host port) : Trusted policy binary host port := by
  obtain ⟨e, hmem, rfl⟩ := List.mem_map.mp he
  exact ⟨key, rule, hr, hb, e, hmem, declaresExactHost_canonicalizeEndpoint.mp hd⟩

/-- Trust in a policy with one rule replaced. -/
theorem trusted_insertRule
    (h : Trusted (insertRule (canonicalPolicy policy) key rule) binary host port) :
    Trusted policy binary host port ∨ binaryScopeCovers rule binary = true ∧
      ∃ endpoint ∈ rule.endpoints, DeclaresExactHost endpoint host port := by
  obtain ⟨key', rule', hr, hb, endpoint, he, hd⟩ := h
  rw [getElem?_insertRule] at hr
  split at hr
  next =>
    cases hr
    exact Or.inr ⟨hb, endpoint, he, hd⟩
  next =>
    rw [getElem?_canonicalPolicy] at hr
    obtain ⟨raw, hraw, rfl⟩ := Option.map_eq_some_iff.mp hr
    exact Or.inl (trusted_of_canonical hraw hb he hd)

/-! ## Unchanged units -/

variable {existing : NetworkPolicyRule}

/-- A declared unit that an existing endpoint had before was declared before. -/
theorem exists_declares_of_unchanged (hd : DeclaresExactHost endpoint host port)
    (h : UnitUnchanged existing endpoint (some port)) :
    ∃ e ∈ existing.endpoints, DeclaresExactHost e host port := by
  obtain ⟨e, he, hun⟩ := h
  simp only [authorizationUnitUnchanged, Bool.and_eq_true, beq_iff_eq,
    endpointAuthorizationCoversPort_iff] at hun
  obtain ⟨⟨hadv, hports, hcov⟩, -⟩ := hun
  refine ⟨e, he, hd.of_host (hadv ▸ hd.declared) ?_ (hports port rfl)⟩
  exact (eqIgnoreAsciiCase_iff.mp hcov.host).symm

variable {incoming merged : NetworkPolicyRule} {warnings : List PolicyMergeWarning}

/-- A binary the operation does not authorize gains no trust. -/
theorem exists_declares_of_undeclared (hm : MergedRules existing incoming merged warnings)
    (hb : binaryScopeCovers merged binary = true) (hno : binaryScopeCovers incoming binary = false)
    (he : endpoint ∈ merged.endpoints)
    (hd : DeclaresExactHost endpoint host port) :
    binaryScopeCovers existing binary = true ∧
      ∃ e ∈ existing.endpoints, DeclaresExactHost e host port := by
  have hex := (hm.binaryScopeCovers_or hb).resolve_right (by simp [hno])
  refine ⟨hex, exists_declares_of_unchanged hd ?_⟩
  exact (hm.declared endpoint he).binaries (undeclaredExistingBinaries_ne_nil hex hno) _
    (mem_authorizationPorts.mpr hd.port)

/-! ## Trust after a merge -/

theorem declaresExactHost_iff_of_tracks {absorbed merged : NetworkEndpoint}
    (h : Tracks absorbed merged) :
    DeclaresExactHost merged host port ↔ DeclaresExactHost absorbed host port := by
  have hhost : toAsciiLowercase merged.host = toAsciiLowercase absorbed.host := by rw [h.host]
  constructor
  · exact fun hd => hd.of_host (h.advisorProposed ▸ hd.declared) hhost ((h.ports port).mp hd.port)
  · exact fun hd =>
      hd.of_host (h.advisorProposed ▸ hd.declared) hhost.symm ((h.ports port).mpr hd.port)

section Merge

variable {ext : External} {base : SandboxPolicy} {name : String} {rule : NetworkPolicyRule}
  {result : PolicyMergeResult}

theorem mergePolicy_into (h : mergePolicy ext base [.addRule name rule] = .ok result)
    (hex : base.networkPolicies[name]? = some existing) :
    ∃ merged, MergedRules (canonicalizeRule existing) (preparedRule name (canonicalizeRule rule))
      merged result.warnings ∧ result.policy = insertRule (canonicalPolicy base) name merged := by
  have hlook : (canonicalPolicy base).networkPolicies[name]? =
      some (canonicalizeRule existing) := by
    rw [getElem?_canonicalPolicy, hex, Option.map_some]
  rcases addRule_cases (mergePolicy_addRule h).added with
    ⟨key, found, merged, hfound, hkey, hm, hpolicy⟩ | ⟨hfree, -⟩
  · rcases hkey with rfl | ⟨hfree, -⟩
    · obtain rfl := Option.mem_unique hlook hfound
      exact ⟨merged, hm, hpolicy⟩
    · rw [hlook] at hfree
      cases hfree
  · rw [hlook] at hfree
    cases hfree

/-- A marked rule under a fresh name gains no trust. -/
theorem trusted_of_fresh (h : mergePolicy ext base [.addRule name rule] = .ok result)
    (hfree : base.networkPolicies[name]? = none)
    (hmark : ∀ e ∈ rule.endpoints, e.advisorProposed = true)
    (ht : Trusted result.policy binary host port) :
    Trusted base binary host port := by
  have hadd := mergePolicy_addRule h
  have hmark' : ∀ e ∈ (preparedRule name (canonicalizeRule rule)).endpoints,
      e.advisorProposed = true := by
    intro e he
    obtain ⟨c, hc, rfl⟩ := List.mem_map.mp he
    obtain ⟨raw, hraw, rfl⟩ := List.mem_map.mp hc
    exact (tracks_canonicalizeEndpoint raw).normalizeEndpoint.advisorProposed.trans
      (hmark raw hraw)
  rcases addRule_cases hadd.added with ⟨key, found, merged, hfound, hkey, -, -⟩ | ⟨-, hpolicy⟩
  · -- a marked rule is not folded into a rule of another name
    rcases hkey with rfl | ⟨-, hover⟩
    · rw [getElem?_canonicalPolicy, hfree] at hfound
      cases hfound
    · unfold overlappingKey at hover
      obtain ⟨hall, hover⟩ := then_of_ite hover nofun
      obtain ⟨e, he⟩ := List.exists_mem_of_ne_nil _ hadd.nonempty
      have hmem : normalizeEndpoint (canonicalizeEndpoint e)
          ∈ (preparedRule name (canonicalizeRule rule)).endpoints :=
        List.mem_map_of_mem (List.mem_map_of_mem he)
      have hclear := List.all_eq_true.mp hall _ hmem
      rw [hmark' _ hmem] at hclear
      cases hclear
  · rw [hpolicy] at ht
    rcases trusted_insertRule ht with hbase | ⟨-, e, he, hd⟩
    · exact hbase
    · have hclear := hd.declared
      rw [hmark' e he] at hclear
      cases hclear

/-- Folding the rule into an existing one would show one of its binaries a
declared endpoint, at a port that the policy does not trust the binary with. -/
def ExposesTrust (base : SandboxPolicy) (existing rule : NetworkPolicyRule) : Prop :=
  ∃ endpoint ∈ absorbAll existing.endpoints rule.endpoints, ∃ binary host port,
    DeclaresExactHost endpoint host port ∧ binaryScopeCovers rule binary = true ∧
      ¬ Trusted base binary host port

/-- A rule merged into an existing one gains trust exactly when it exposes a
declared endpoint. -/
theorem trusted_into_iff (h : mergePolicy ext base [.addRule name rule] = .ok result)
    (hex : base.networkPolicies[name]? = some existing) :
    (∀ binary host port, Trusted result.policy binary host port → Trusted base binary host port) ↔
      ¬ ExposesTrust base existing rule := by
  obtain ⟨merged, hm, hpolicy⟩ := mergePolicy_into h hex
  have htracks := hm.forall₂_tracks
  have hscope : ∀ binary, binaryScopeCovers (preparedRule name (canonicalizeRule rule)) binary
      = binaryScopeCovers rule binary := by simp
  constructor
  · rintro hkept ⟨endpoint, he, binary, host, port, hd, hb, hnot⟩
    obtain ⟨m, hmem, ht⟩ := exists_of_forall₂_mem htracks he
    refine hnot (hkept binary host port ⟨name, merged, ?_, ?_, m, hmem, ?_⟩)
    · rw [hpolicy, getElem?_insertRule, if_pos rfl]
    · exact hm.binaryScopeCovers_of_incoming ((hscope binary).trans hb)
    · exact (declaresExactHost_iff_of_tracks ht).mpr hd
  · intro hno binary host port htrust
    rw [hpolicy] at htrust
    rcases trusted_insertRule htrust with hbase | ⟨hb, m, hmem, hd⟩
    · exact hbase
    · by_cases hrule : binaryScopeCovers rule binary = true
      · by_contra hnot
        obtain ⟨endpoint, he, ht⟩ := exists_of_forall₂_mem htracks.flip hmem
        exact hno ⟨endpoint, he, binary, host, port, (declaresExactHost_iff_of_tracks ht).mp hd,
          hrule, hnot⟩
      · have hun := (hscope binary).trans (Bool.not_eq_true _ ▸ hrule)
        obtain ⟨hexb, e, he, hde⟩ := exists_declares_of_undeclared hm hb hun hmem hd
        exact trusted_of_canonical hex hexb he hde

/-- The endpoint repeats one of a rule's, at one of its ports. -/
def Repeats (owner : NetworkPolicyRule) (endpoint : NetworkEndpoint) : Prop :=
  ∃ source ∈ owner.endpoints, endpoint.host = source.host ∧
    endpoint.advisorProposed = source.advisorProposed ∧
    ∃ port, canonicalPorts endpoint = [port] ∧ port ∈ canonicalPorts source

/-- The rule repeats an endpoint of the rule it goes to, for binaries that rule
authorizes already. -/
structure TakesOver (owner rule : NetworkPolicyRule) : Prop where
  repeats : ∃ endpoint, rule.endpoints = [endpoint] ∧ Repeats owner endpoint
  scope : ∀ binary, binaryScopeCovers rule binary = true → binaryScopeCovers owner binary = true

variable {m : NetworkEndpoint}

/-- The one endpoint and port a rule can name. -/
theorem named_of_single {only : Nat}
    (hsingle : rule.endpoints = [endpoint]) (hports : canonicalPorts endpoint = [only])
    (h : operationNamesPort (preparedRule name (canonicalizeRule rule)) m (some port) = true) :
    toAsciiLowercase m.host = toAsciiLowercase endpoint.host ∧ port = only := by
  obtain ⟨d, hd, h⟩ := List.any_eq_true.mp h
  have htr := (tracks_canonicalizeEndpoint endpoint).normalizeEndpoint
  have hmem : d = normalizeEndpoint (canonicalizeEndpoint endpoint) := by
    simpa [preparedRule, normalizeRule, canonicalizeRule, hsingle] using hd
  subst hmem
  simp only [Bool.and_eq_true, Option.all_some, List.contains_iff_mem, htr.ports, hports,
    List.mem_singleton, htr.host] at h
  exact ⟨(eqIgnoreAsciiCase_iff.mp h.1.1).symm, h.2⟩

variable {owner : NetworkPolicyRule}

/-- What a rule that takes over declares after the merge, its owner declared. -/
theorem exists_declares_of_takesOver (ht : TakesOver owner rule)
    (hm : MergedRules (canonicalizeRule owner) (preparedRule name (canonicalizeRule rule)) merged
      warnings) (hmem : m ∈ merged.endpoints)
    (hd : DeclaresExactHost m host port) :
    ∃ e ∈ (canonicalizeRule owner).endpoints, DeclaresExactHost e host port := by
  obtain ⟨endpoint, hsingle, source, hsource, hhost, hadv, only, hports, honly⟩ := ht.repeats
  by_cases hun : UnitUnchanged (canonicalizeRule owner) m (some port)
  · exact exists_declares_of_unchanged hd hun
  · -- a changed unit is at the one port the proposal names
    have hnamed := (hm.declared m hmem).named _ (mem_authorizationPorts.mpr hd.port) hun
    obtain ⟨hsame, rfl⟩ := named_of_single hsingle hports hnamed
    suffices hraw : ∃ e ∈ owner.endpoints, DeclaresExactHost e host port by
      obtain ⟨e, he, hde⟩ := hraw
      exact ⟨_, List.mem_map_of_mem he, declaresExactHost_canonicalizeEndpoint.mpr hde⟩
    by_cases hsadv : source.advisorProposed = false
    · exact ⟨source, hsource, hd.of_host hsadv (hhost ▸ hsame) honly⟩
    · -- the proposal is marked, so what is declared was declared before it
      have hmark : ∀ e ∈ rule.endpoints, e.advisorProposed = true := by
        intro e he
        rw [hsingle] at he
        rw [List.mem_singleton.mp he, hadv]
        simpa using hsadv
      obtain ⟨a, ha, htr⟩ := exists_of_forall₂_mem (hm.forall₂_tracks).flip hmem
      rw [hsingle] at ha
      have hda := (declaresExactHost_iff_of_tracks htr).mp hd
      rcases mem_absorb ha with hin | rfl | ⟨x, hx, hover, rfl⟩
      · exact ⟨a, hin, hda⟩
      · have hclear := hda.declared
        rw [hmark a (hsingle ▸ List.mem_singleton.mpr rfl)] at hclear
        cases hclear
      · obtain ⟨common, hcommon, hcommon'⟩ := List.any_eq_true.mp (Bool.and_eq_true_iff.mp hover).2
        rw [hports, List.contains_iff_mem, List.mem_singleton] at hcommon'
        have hxdecl : x.advisorProposed = false := by
          have hand : (x.advisorProposed && endpoint.advisorProposed) = false := hda.declared
          rwa [hmark endpoint (hsingle ▸ List.mem_singleton.mpr rfl), Bool.and_true] at hand
        exact ⟨x, hx, hda.of_host hxdecl rfl (hcommon' ▸ hcommon)⟩

theorem trusted_of_takesOver (h : mergePolicy ext base [.addRule name rule] = .ok result)
    (hex : base.networkPolicies[name]? = some owner) (ht : TakesOver owner rule)
    (htrust : Trusted result.policy binary host port) : Trusted base binary host port := by
  obtain ⟨merged, hm, hpolicy⟩ := mergePolicy_into h hex
  rw [hpolicy] at htrust
  rcases trusted_insertRule htrust with hbase | ⟨hb, m, hmem, hd⟩
  · exact hbase
  · obtain ⟨e, he, hde⟩ := exists_declares_of_takesOver ht hm hmem hd
    have hscope : binaryScopeCovers owner binary = true := by
      have hor := hm.binaryScopeCovers_or hb
      simp only [binaryScopeCovers_preparedRule, binaryScopeCovers_canonicalizeRule] at hor
      exact hor.elim id (ht.scope binary)
    exact trusted_of_canonical hex hscope he hde

end Merge

/-! ## Where a proposal goes -/

/-- No one contract is known for what the rule observes. -/
def Untied (effective : SandboxPolicy) (rule : NetworkPolicyRule) : Prop :=
  ∀ endpoint port, observedDestination rule = some (endpoint, port) →
    destinationContracts effective endpoint.host port = []

theorem binaries_of_observedDestination {destination : NetworkEndpoint × Nat}
    (h : observedDestination rule = some destination) :
    rule.binaries ≠ [] ∧ rule.endpoints = [destination.1] := by
  unfold observedDestination at h
  split at h
  next endpoint hsingle =>
    obtain ⟨hne, h⟩ := else_of_ite h nofun
    simp only [Bool.or_eq_true, List.isEmpty_iff, not_or] at hne
    split at h
    next => exact ⟨hne.1, by rw [hsingle, ← Option.some.inj h]⟩
    next => cases h
  next => cases h

variable {effective : SandboxPolicy} {contract : NetworkEndpoint}

theorem canonicalPorts_destinationContract
    (h : contract ∈ destinationContracts effective host port) :
    canonicalPorts contract = [port] := by
  obtain ⟨e, -, rfl⟩ := List.mem_map.mp (mem_dedupFirst.mp h)
  rw [canonicalPorts_normalizeEndpoint]
  rfl

variable {base : SandboxPolicy}

/-- The owner has the contract and authorizes the binaries. -/
theorem sandboxOwner_eq_some {binaries : List NetworkBinary} {owner : String}
    (h : sandboxOwner base contract binaries = some (owner, rule)) :
    base.networkPolicies[owner]? = some rule ∧
      (∃ source ∈ rule.endpoints, rule.endpoints.find? (hasContract contract) = some source ∧
        normalizeEndpoint (clearProvenance source) = contract) ∧
      ∀ binary ∈ binaries, binaryScopeCovers rule binary = true := by
  have hlook := Std.ExtTreeMap.mem_toList_iff_getElem?_eq_some.mp (List.mem_of_find?_eq_some h)
  have hfound := List.find?_some h
  simp only [Bool.and_eq_true, List.all_eq_true] at hfound
  obtain ⟨source, hsource⟩ := Option.isSome_iff_exists.mp
    (List.find?_isSome.mpr (List.any_eq_true.mp hfound.1.2))
  have hcontract := List.find?_some hsource
  exact ⟨hlook, ⟨source, List.mem_of_find?_eq_some hsource, hsource, beq_iff_eq.mp hcontract⟩,
    hfound.2⟩

/-- An observation stays as it is, takes a fresh name, or takes over a contract. -/
theorem canonicalizeAdvisorAddRule_cases {requested name : String}
    (hmark : ∀ e ∈ incoming.endpoints, e.advisorProposed = true)
    (h : canonicalizeAdvisorAddRule base effective requested incoming = .ok (name, rule)) :
    (Untied effective incoming ∧ name = requested ∧ rule = incoming) ∨
    (¬ Untied effective incoming ∧
      ((base.networkPolicies[name]? = none ∧ ∀ e ∈ rule.endpoints, e.advisorProposed = true) ∨
        ∃ owner, base.networkPolicies[name]? = some owner ∧ TakesOver owner rule)) := by
  unfold canonicalizeAdvisorAddRule at h
  split at h
  next hnone =>
    cases h
    refine Or.inl ⟨fun e p hd => ?_, rfl, rfl⟩
    rw [hnone] at hd
    cases hd
  next endpoint port hdest =>
    obtain ⟨hbin, hsingle⟩ := binaries_of_observedDestination hdest
    split at h
    next hnil =>
      cases h
      refine Or.inl ⟨fun e p hd => ?_, rfl, rfl⟩
      cases Option.mem_unique hdest hd
      exact hnil
    next contract hone =>
      refine Or.inr ⟨fun huntied => ?_, ?_⟩
      · rw [huntied endpoint port hdest] at hone
        cases hone
      · have hports := canonicalPorts_destinationContract (hone ▸ List.mem_singleton.mpr rfl)
        cases howner : sandboxOwner base contract incoming.binaries with
        | none =>
          rw [howner] at h
          cases h
          refine Or.inl ⟨getElem?_availableProposalRuleName base effective requested, ?_⟩
          intro e he
          rw [List.mem_singleton.mp he]
          exact hmark endpoint (hsingle ▸ List.mem_singleton.mpr rfl)
        | some found =>
          obtain ⟨owner, ownerRule⟩ := found
          obtain ⟨hlook, ⟨source, hmem, hfind, hcontract⟩, hcover⟩ := sandboxOwner_eq_some howner
          rw [howner] at h
          cases h
          refine Or.inr ⟨ownerRule, hlook, ⟨_, rfl, source, hmem, ?_, ?_, port, hports, ?_⟩, ?_⟩
          · show contract.host = source.host
            rw [← hcontract]
            rfl
          · simp [hfind]
          · have hin : port ∈ canonicalPorts (normalizeEndpoint (clearProvenance source)) := by
              rw [hcontract, hports]
              exact List.mem_singleton.mpr rfl
            exact mem_canonicalPorts_normalizeEndpoint.mp hin
          · intro binary hb
            exact hcover binary ((binaryScopeCovers_iff.mp hb).resolve_left hbin)
    next => cases h

/-- **Trust after a proposal.** A proposal that merges gains no trust, unless it
is an observation that no contract is known for, its name is taken in the base
policy, and folding it in exposes a declared endpoint. -/
theorem evaluateProposalCandidate_trust_iff {ext : External} {base effective : SandboxPolicy}
    {requested analysisMode : String} {proposed : NetworkPolicyRule} {result : PolicyMergeResult}
    (h : evaluateProposalCandidate ext base effective requested proposed analysisMode
      = .ok result) :
    (∀ binary host port, Trusted result.policy binary host port → Trusted base binary host port) ↔
      ¬ (analysisMode = "mechanistic" ∧ Untied effective (markAdvisorProposed proposed) ∧
        ∃ existing, base.networkPolicies[requested]? = some existing ∧
          ExposesTrust base existing (markAdvisorProposed proposed)) := by
  obtain ⟨⟨name, rule⟩, hcand, hmerge⟩ := bind_eq_ok h
  replace hcand := mapError_eq_ok hcand
  replace hmerge := mapError_eq_ok hmerge
  have hmark : ∀ e ∈ (markAdvisorProposed proposed).endpoints, e.advisorProposed = true := by
    intro e he
    obtain ⟨raw, -, rfl⟩ := List.mem_map.mp he
    rfl
  unfold proposalCandidate at hcand
  dsimp only at hcand
  split at hcand
  next hmode =>
    rcases canonicalizeAdvisorAddRule_cases hmark hcand with
      ⟨huntied, rfl, rfl⟩ | ⟨htied, ⟨hfree, hmark'⟩ | ⟨owner, hlook, hover⟩⟩
    · cases hex : base.networkPolicies[name]? with
      | none =>
        refine iff_of_true (fun _ _ _ => trusted_of_fresh hmerge hex hmark) ?_
        rintro ⟨-, -, existing, hsome, -⟩
        cases hsome
      | some existing =>
        rw [trusted_into_iff hmerge hex]
        simp [hmode, huntied]
    · exact iff_of_true (fun _ _ _ => trusted_of_fresh hmerge hfree hmark') fun hall =>
        htied hall.2.1
    · exact iff_of_true (fun _ _ _ => trusted_of_takesOver hmerge hlook hover) fun hall =>
        htied hall.2.1
  next hmode =>
    cases hcand
    exact iff_of_true (fun _ _ _ => trusted_of_fresh hmerge
      (getElem?_availableProposalRuleName base effective requested) hmark) fun hall => hmode hall.1

/-! ## Two observations of one host -/

/-- A declared host, for one binary. -/
def webRule : NetworkPolicyRule where
  endpoints := [{ host := "api.example.com", port := 443 }]
  binaries := [⟨"/usr/bin/curl"⟩]

def webPolicy : SandboxPolicy := insertRule restrictiveDefaultPolicy "web" webRule

/-- Another binary was seen at the declared port. -/
def observedRule : NetworkPolicyRule where
  endpoints := [{ host := "api.example.com", port := 443 }]
  binaries := [⟨"/usr/bin/wget"⟩]

/-- Both binaries were seen, at the declared port and at another one. -/
def twoPortObservation : NetworkPolicyRule where
  endpoints := [{ host := "api.example.com", ports := [443, 8443] }]
  binaries := [⟨"/usr/bin/curl"⟩, ⟨"/usr/bin/wget"⟩]

/-- The observation of one port goes to a rule of its own. -/
theorem evaluateProposalCandidate_trust_observed :
    ∃ result,
      evaluateProposalCandidate plainExternal webPolicy webPolicy "web" observedRule "mechanistic"
        = .ok result ∧
      ∀ binary host port, Trusted result.policy binary host port →
        Trusted webPolicy binary host port := by
  refine exists_ok_and (by decide) fun result h => (evaluateProposalCandidate_trust_iff h).mpr ?_
  rintro ⟨-, huntied, -⟩
  have hnil := huntied { host := "api.example.com", port := 443, advisorProposed := true } 443
    (by decide)
  revert hnil
  decide

/-- The observation of two ports goes to the declared endpoint, and gives the new
binary its trust. -/
theorem trusted_twoPortObservation :
    ∃ result,
      evaluateProposalCandidate plainExternal webPolicy webPolicy "web" twoPortObservation
        "mechanistic" = .ok result ∧
      Trusted result.policy ⟨"/usr/bin/wget"⟩ "api.example.com" 443 ∧
      ¬ Trusted webPolicy ⟨"/usr/bin/wget"⟩ "api.example.com" 443 := by
  refine exists_ok_and (by decide) fun result h => ?_
  have hweb : result.policy.networkPolicies["web"]? =
      some { webRule with
        endpoints := [{ host := "api.example.com", port := 443, ports := [443, 8443] }]
        binaries := [⟨"/usr/bin/curl"⟩, ⟨"/usr/bin/wget"⟩] } :=
    apply_of_toOption_map (f := (·.policy.networkPolicies["web"]?)) h (by decide)
  refine ⟨⟨"web", _, hweb, by decide, _, List.mem_singleton.mpr rfl, ?_⟩, ?_⟩
  · exact ⟨rfl, by decide, by decide, by decide⟩
  · rintro ⟨key, rule, hr, hb, -⟩
    rw [webPolicy, getElem?_insertRule] at hr
    split at hr
    next =>
      cases hr
      revert hb
      decide
    next => simp [restrictiveDefaultPolicy] at hr

end OpenShell.Server
