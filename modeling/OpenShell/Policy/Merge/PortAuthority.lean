import OpenShell.Policy.Merge.Grants

/-!
# Authority at a port

Endpoints merge as a whole, so an authority declared for one port of an endpoint
reaches its other ports. The guard bounds that: an authority at a port was there
before, or the operation names the port on that host and path, and then the
authority comes from an endpoint with that host and path, the policy's or the
operation's.
-/

namespace OpenShell.Policy

/-- What an endpoint may carry and a merge may widen. -/
inductive Authority
  | rule (rule : L7Rule)
  | allowedIp (ip : String)
  | allowEncodedSlash
  | websocketCredentialRewrite
  | requestBodyCredentialRewrite
  | allowUninspectedCredentials

def NetworkEndpoint.Carries (endpoint : NetworkEndpoint) : Authority → Prop
  | .rule rule => rule ∈ endpoint.rules
  | .allowedIp ip => ip ∈ endpoint.allowedIps
  | .allowEncodedSlash => endpoint.allowEncodedSlash = true
  | .websocketCredentialRewrite => endpoint.websocketCredentialRewrite = true
  | .requestBodyCredentialRewrite => endpoint.requestBodyCredentialRewrite = true
  | .allowUninspectedCredentials => endpoint.allowUninspectedCredentials = true

/-- The authority is a rule of an access preset, expanded for a protocol. -/
def InPreset (access : Int) (protocol : String) (authority : Authority) : Prop :=
  ∃ rule expanded, authority = .rule rule ∧
    expandAccessPreset protocol (accessLabel access) = some expanded ∧ rule ∈ expanded

/-- Same host, ignoring case, and same path. -/
def SameSite (left right : NetworkEndpoint) : Prop :=
  toAsciiLowercase left.host = toAsciiLowercase right.host ∧ left.path = right.path

/-- Some endpoint of the site carries the authority, or the rules of its access
preset do, expanded for the protocol of an endpoint of the site. -/
def Supplied (endpoints : List NetworkEndpoint) (site : NetworkEndpoint) (authority : Authority) :
    Prop :=
  ∃ source ∈ endpoints, SameSite source site ∧
    (source.Carries authority ∨
      ∃ other ∈ endpoints, SameSite other site ∧ InPreset source.access other.protocol authority)

variable {left right : NetworkEndpoint}

theorem SameSite.symm (h : SameSite left right) :
    SameSite right left :=
  ⟨h.1.symm, h.2.symm⟩

variable {a b c : NetworkEndpoint}

theorem SameSite.trans (hab : SameSite a b) (hbc : SameSite b c) :
    SameSite a c :=
  ⟨hab.1.trans hbc.1, hab.2.trans hbc.2⟩

theorem sameSite_of_overlap (h : endpointsOverlap left right = true) : SameSite left right := by
  simp only [endpointsOverlap, Bool.and_eq_true, beq_iff_eq] at h
  exact ⟨eqIgnoreAsciiCase_iff.mp h.1.1, h.1.2⟩

variable {existing incoming : NetworkEndpoint}

/-- A merged endpoint stays where both were. -/
theorem Merged.sameSite {merged : NetworkEndpoint}
    (h : Merged existing incoming merged) (hs : SameSite existing incoming) :
    SameSite existing merged := by
  constructor
  · rw [h.host, firstSet]
    split
    next => exact hs.1
    next => rfl
  · rw [h.path, firstSet]
    split
    next => exact hs.2
    next => rfl

variable {authority : Authority}

/-- What a merged endpoint carries comes from one of the two, or from the
existing preset. -/
theorem Merged.carries {merged : NetworkEndpoint}
    (h : Merged existing incoming merged)
    (hc : merged.Carries authority) :
    existing.Carries authority ∨ incoming.Carries authority ∨
      existing.access ≠ 0 ∧ InPreset existing.access merged.protocol authority := by
  cases authority with
  | rule rule =>
    rcases (h.rules rule).mp hc with he | hi | ⟨-, hacc, expanded, hexp, hmem⟩
    · exact Or.inl he
    · exact Or.inr (Or.inl hi)
    · exact Or.inr (Or.inr ⟨hacc, rule, expanded, rfl, hexp, hmem⟩)
  | allowedIp ip => exact ((h.allowedIps ip).mp hc).imp_right Or.inl
  | allowEncodedSlash => exact (Bool.or_eq_true_iff.mp (h.allowEncodedSlash ▸ hc)).imp_right Or.inl
  | websocketCredentialRewrite =>
    exact (Bool.or_eq_true_iff.mp (h.websocketCredentialRewrite ▸ hc)).imp_right Or.inl
  | requestBodyCredentialRewrite =>
    exact (Bool.or_eq_true_iff.mp (h.requestBodyCredentialRewrite ▸ hc)).imp_right Or.inl
  | allowUninspectedCredentials =>
    exact (Bool.or_eq_true_iff.mp (h.allowUninspectedCredentials ▸ hc)).imp_right Or.inl

/-! ## Provenance through the fold -/

/-- Where the fields of a folded endpoint come from. -/
structure Sourced (sources : List NetworkEndpoint) (endpoint : NetworkEndpoint) : Prop where
  protocol : ∃ source ∈ sources, SameSite source endpoint ∧ source.protocol = endpoint.protocol
  access : endpoint.access ≠ 0 →
    ∃ source ∈ sources, SameSite source endpoint ∧ source.access = endpoint.access
  carries : ∀ authority, endpoint.Carries authority → Supplied sources endpoint authority

variable {sources : List NetworkEndpoint} {endpoint : NetworkEndpoint}

theorem sourced_of_mem (h : endpoint ∈ sources) : Sourced sources endpoint where
  protocol := ⟨endpoint, h, ⟨rfl, rfl⟩, rfl⟩
  access _ := ⟨endpoint, h, ⟨rfl, rfl⟩, rfl⟩
  carries _ hc := ⟨endpoint, h, ⟨rfl, rfl⟩, Or.inl hc⟩

variable {site : NetworkEndpoint}

theorem Supplied.of_sameSite {site' : NetworkEndpoint} (h : Supplied sources site authority)
    (hs : SameSite site site') :
    Supplied sources site' authority := by
  obtain ⟨source, hmem, hsite, hor⟩ := h
  refine ⟨source, hmem, hsite.trans hs, hor.imp_right ?_⟩
  rintro ⟨other, homem, hosite, hpreset⟩
  exact ⟨other, homem, hosite.trans hs, hpreset⟩

/-- Step: merging a source into a sourced endpoint. -/
theorem Sourced.merged {merged : NetworkEndpoint}
    (h : Sourced sources existing) (hi : incoming ∈ sources)
    (hs : SameSite existing incoming) (hm : Merged existing incoming merged) :
    Sourced sources merged := by
  have hsite := hm.sameSite hs
  have hisite := hs.symm.trans hsite
  have hprotocol : ∃ source ∈ sources, SameSite source merged ∧
      source.protocol = merged.protocol := by
    rw [hm.protocol, firstSet]
    split
    next => exact ⟨incoming, hi, hisite, rfl⟩
    next =>
      obtain ⟨source, hmem, hss, heq⟩ := h.protocol
      exact ⟨source, hmem, hss.trans hsite, heq⟩
  refine ⟨hprotocol, ?_, ?_⟩
  · intro hne
    rw [hm.access] at hne ⊢
    split at hne
    next => exact absurd rfl hne
    next hrules =>
      rw [if_neg hrules]
      split at hne
      next hfill =>
        rw [if_pos hfill]
        exact ⟨incoming, hi, hisite, rfl⟩
      next hfill =>
        rw [if_neg hfill]
        obtain ⟨source, hmem, hss, heq⟩ := h.access hne
        exact ⟨source, hmem, hss.trans hsite, heq⟩
  · intro authority hc
    rcases hm.carries hc with he | hin | ⟨hacc, hpreset⟩
    · exact (h.carries authority he).of_sameSite hsite
    · exact ⟨incoming, hi, hisite, Or.inl hin⟩
    · obtain ⟨source, hmem, hss, heq⟩ := h.access hacc
      obtain ⟨other, homem, hosite, hoeq⟩ := hprotocol
      exact ⟨source, hmem, hss.trans hsite,
        Or.inr ⟨other, homem, hosite, by rwa [heq, hoeq]⟩⟩

variable {existingRule incomingRule : NetworkPolicyRule} {warnings : List PolicyMergeWarning}

/-- Run: every endpoint of a merged rule is sourced from both rules. -/
theorem MergedRules.sourced {merged : NetworkPolicyRule}
    (h : MergedRules existingRule incomingRule merged warnings) :
    ∀ endpoint ∈ merged.endpoints,
      Sourced (existingRule.endpoints ++ incomingRule.endpoints.map normalizeEndpoint)
        endpoint := by
  obtain ⟨index, w, hfold, -⟩ := h.folded
  refine foldEndpoints_invariant ?_ ?_ ?_ hfold
  · exact fun i hi => sourced_of_mem (List.mem_append_right _ (List.mem_map_of_mem hi))
  · intro e i m w he hi hover hm
    exact he.merged (List.mem_append_right _ (List.mem_map_of_mem hi)) (sameSite_of_overlap hover)
      (mergeEndpoint_merged hm)
  · exact fun e he => sourced_of_mem (List.mem_append_left _ he)

/-! ## Back to the endpoints as written -/

/-- What canonicalizing and normalizing an endpoint keep. -/
structure Rewrites (raw endpoint : NetworkEndpoint) : Prop where
  sameSite : SameSite raw endpoint
  protocol : raw.protocol = endpoint.protocol
  access : raw.access = endpoint.access
  carries : ∀ authority, endpoint.Carries authority → raw.Carries authority
  ports : ∀ port, port ∈ canonicalPorts endpoint → port ∈ canonicalPorts raw

theorem Rewrites.trans (hab : Rewrites a b) (hbc : Rewrites b c) :
    Rewrites a c where
  sameSite := hab.sameSite.trans hbc.sameSite
  protocol := hab.protocol.trans hbc.protocol
  access := hab.access.trans hbc.access
  carries authority hc := hab.carries authority (hbc.carries authority hc)
  ports port hp := hab.ports port (hbc.ports port hp)

theorem rewrites_normalizeEndpoint (endpoint : NetworkEndpoint) :
    Rewrites endpoint (normalizeEndpoint endpoint) where
  sameSite := ⟨rfl, rfl⟩
  protocol := rfl
  access := rfl
  carries := by
    intro authority hc
    cases authority with
    | rule rule => exact mem_dedupFirst.mp hc
    | allowedIp ip => exact mem_dedupFirst.mp hc
    | _ => exact hc
  ports _ := mem_canonicalPorts_normalizeEndpoint.mp

theorem rewrites_mcp (endpoint : NetworkEndpoint) (mcp : Option McpOptions) :
    Rewrites endpoint { endpoint with mcp } where
  sameSite := ⟨rfl, rfl⟩
  protocol := rfl
  access := rfl
  carries authority hc := by cases authority <;> exact hc
  ports _ := id

theorem rewrites_canonicalizeEndpoint (endpoint : NetworkEndpoint) :
    Rewrites endpoint (canonicalizeEndpoint endpoint) := by
  rw [canonicalizeEndpoint_eq]
  exact rewrites_mcp _ _

theorem rewrites_preparedEndpoint (endpoint : NetworkEndpoint) :
    Rewrites endpoint (preparedEndpoint endpoint) :=
  (rewrites_canonicalizeEndpoint endpoint).trans (rewrites_normalizeEndpoint _)

variable {rule : NetworkPolicyRule}

/-- A rule as written behind the rule an operation adds. -/
theorem exists_rewrites_prepared {ruleName : String}
    (h : endpoint ∈ (preparedRule ruleName (canonicalizeRule rule)).endpoints) :
    ∃ raw ∈ rule.endpoints, Rewrites raw endpoint := by
  obtain ⟨canonical, hc, rfl⟩ := List.mem_map.mp h
  obtain ⟨raw, hr, rfl⟩ := List.mem_map.mp hc
  exact ⟨raw, hr, (rewrites_canonicalizeEndpoint raw).trans (rewrites_normalizeEndpoint _)⟩

variable {raws : List NetworkEndpoint}

theorem Supplied.of_rewrites (h : Supplied sources site authority)
    (hraw : ∀ source ∈ sources, ∃ raw ∈ raws, Rewrites raw source) :
    Supplied raws site authority := by
  obtain ⟨source, hmem, hsite, hor⟩ := h
  obtain ⟨raw, hrmem, hr⟩ := hraw source hmem
  refine ⟨raw, hrmem, hr.sameSite.trans hsite, hor.imp (hr.carries authority) ?_⟩
  rintro ⟨other, homem, hosite, hpreset⟩
  obtain ⟨raw', hrmem', hr'⟩ := hraw other homem
  exact ⟨raw', hrmem', hr'.sameSite.trans hosite, by rwa [hr.access, hr'.protocol]⟩

/-! ## The theorem -/

/-- An endpoint with the site of `endpoint` names the port. -/
def NamesPort (endpoints : List NetworkEndpoint) (endpoint : NetworkEndpoint) (port : Nat) : Prop :=
  ∃ declared ∈ endpoints, SameSite declared endpoint ∧ port ∈ canonicalPorts declared

/-- Every authority of `after` at a port was there before, or the operation names
the port and an endpoint of the site supplies the authority. -/
def PortAuthorityBounded (before rule after : List NetworkEndpoint) : Prop :=
  ∀ endpoint ∈ after, ∀ port ∈ canonicalPorts endpoint, ∀ authority,
    endpoint.Carries authority →
    (∃ existing ∈ before, SameSite existing endpoint ∧ port ∈ canonicalPorts existing ∧
      existing.Carries authority) ∨
    (NamesPort rule endpoint port ∧ Supplied (before ++ rule) endpoint authority)

/-- The endpoints a policy has under a key. -/
def endpointsAt (policy : SandboxPolicy) (key : String) : List NetworkEndpoint :=
  (policy.networkPolicies[key]?.map (·.endpoints)).getD []

variable {port : Nat}

/-- An unchanged unit carries at its port what it carried before. -/
theorem carries_of_unchanged (h : authorizationUnitUnchanged existing endpoint (some port) = true) :
    SameSite existing endpoint ∧ port ∈ canonicalPorts existing ∧
      ∀ authority, endpoint.Carries authority → existing.Carries authority := by
  simp only [authorizationUnitUnchanged, Bool.and_eq_true] at h
  obtain ⟨hport, hcov⟩ := endpointAuthorizationCoversPort_iff.mp h.1.2
  refine ⟨⟨eqIgnoreAsciiCase_iff.mp hcov.host, hcov.path⟩, hport port rfl, ?_⟩
  intro authority hc
  cases authority with
  | rule rule => exact hcov.widens.rules rule hc
  | allowedIp ip => exact hcov.widens.allowedIps ip hc
  | allowEncodedSlash => exact hcov.widens.allowEncodedSlash hc
  | websocketCredentialRewrite => exact hcov.widens.websocketCredentialRewrite hc
  | requestBodyCredentialRewrite => exact hcov.widens.requestBodyCredentialRewrite hc
  | allowUninspectedCredentials => exact hcov.widens.allowUninspectedCredentials hc

theorem namesPort_of_operation (h : operationNamesPort rule endpoint (some port) = true) :
    NamesPort rule.endpoints endpoint port := by
  obtain ⟨declared, hmem, hd⟩ := List.any_eq_true.mp h
  simp only [Bool.and_eq_true, beq_iff_eq, Option.all_some, List.contains_iff_mem] at hd
  exact ⟨declared, hmem, ⟨eqIgnoreAsciiCase_iff.mp hd.1.1, hd.1.2⟩, hd.2⟩

theorem NamesPort.of_rewrites (h : NamesPort sources site port)
    (hraw : ∀ source ∈ sources, ∃ raw ∈ raws, Rewrites raw source) : NamesPort raws site port := by
  obtain ⟨source, hmem, hsite, hport⟩ := h
  obtain ⟨raw, hrmem, hr⟩ := hraw source hmem
  exact ⟨raw, hrmem, hr.sameSite.trans hsite, hr.ports port hport⟩

/-- The bound for a merged rule, in terms of the endpoints as written. -/
theorem MergedRules.portAuthorityBounded {merged : NetworkPolicyRule}
    {before rule : List NetworkEndpoint} (h : MergedRules existingRule incomingRule merged warnings)
    (hbefore : ∀ e ∈ existingRule.endpoints, ∃ raw ∈ before, Rewrites raw e)
    (hrule : ∀ e ∈ incomingRule.endpoints, ∃ raw ∈ rule, Rewrites raw e) :
    PortAuthorityBounded before rule merged.endpoints := by
  intro endpoint he port hport authority hc
  have hunit : some port ∈ authorizationPorts endpoint := mem_authorizationPorts.mpr hport
  by_cases hun : UnitUnchanged existingRule endpoint (some port)
  · obtain ⟨existing, hex, hun⟩ := hun
    obtain ⟨hsite, hp, hcarries⟩ := carries_of_unchanged hun
    obtain ⟨raw, hraw, hr⟩ := hbefore existing hex
    exact Or.inl ⟨raw, hraw, hr.sameSite.trans hsite, hr.ports port hp,
      hr.carries authority (hcarries authority hc)⟩
  · have hnames := namesPort_of_operation ((h.declared endpoint he).named _ hunit hun)
    have hsupplied := (h.sourced endpoint he).carries authority hc
    refine Or.inr ⟨hnames.of_rewrites hrule, hsupplied.of_rewrites ?_⟩
    refine List.forall_mem_append.mpr ⟨fun source hs => ?_, fun source hs => ?_⟩
    · obtain ⟨raw, hraw, hr⟩ := hbefore source hs
      exact ⟨raw, List.mem_append_left _ hraw, hr⟩
    · obtain ⟨i, hi, rfl⟩ := List.mem_map.mp hs
      obtain ⟨raw, hraw, hr⟩ := hrule i hi
      exact ⟨raw, List.mem_append_right _ hraw, hr.trans (rewrites_normalizeEndpoint i)⟩

/-- Endpoints that are rewritten only keep their authority. -/
theorem portAuthorityBounded_of_rewrites {before rule after : List NetworkEndpoint}
    (h : ∀ e ∈ after, ∃ raw ∈ before, Rewrites raw e) : PortAuthorityBounded before rule after := by
  intro endpoint he port hport authority hc
  obtain ⟨raw, hraw, hr⟩ := h endpoint he
  exact Or.inl ⟨raw, hraw, hr.sameSite, hr.ports port hport, hr.carries authority hc⟩

/-- So do endpoints the operation brings along. -/
theorem portAuthorityBounded_of_declared {before rule after : List NetworkEndpoint}
    (h : ∀ e ∈ after, ∃ raw ∈ rule, Rewrites raw e) : PortAuthorityBounded before rule after := by
  intro endpoint he port hport authority hc
  obtain ⟨raw, hraw, hr⟩ := h endpoint he
  exact Or.inr ⟨⟨raw, hraw, hr.sameSite, hr.ports port hport⟩,
    raw, List.mem_append_right _ hraw, hr.sameSite, Or.inl (hr.carries authority hc)⟩

/-- Every endpoint of a canonical policy stands for one as written. -/
theorem exists_rewrites_at {policy : SandboxPolicy} {key : String}
    (h : (canonicalPolicy policy).networkPolicies[key]? = some rule) :
    ∀ e ∈ rule.endpoints, ∃ raw ∈ endpointsAt policy key, Rewrites raw e := by
  rw [getElem?_canonicalPolicy] at h
  obtain ⟨written, hw, rfl⟩ := Option.map_eq_some_iff.mp h
  rw [endpointsAt, hw]
  intro e he
  obtain ⟨raw, hr, rfl⟩ := List.mem_map.mp he
  exact ⟨raw, hr, rewrites_canonicalizeEndpoint raw⟩

/-- **Authority at a port is bounded.** -/
theorem mergePolicy_portAuthority {ext : External} {policy : SandboxPolicy} {ruleName : String}
    {rule : NetworkPolicyRule} {result : PolicyMergeResult}
    (h : mergePolicy ext policy [.addRule ruleName rule] = .ok result) (key : String)
    (after : NetworkPolicyRule) (hafter : result.policy.networkPolicies[key]? = some after) :
    PortAuthorityBounded (endpointsAt policy key) rule.endpoints after.endpoints := by
  rcases (mergePolicy_addRule h).entry hafter with hsame | ⟨existing, hex, hm⟩ | ⟨-, rfl⟩
  · exact portAuthorityBounded_of_rewrites (exists_rewrites_at hsame)
  · exact hm.portAuthorityBounded (exists_rewrites_at hex) fun e he => exists_rewrites_prepared he
  · exact portAuthorityBounded_of_declared fun e he => exists_rewrites_prepared he

/-! ## Naming a port extends what is there to it -/

/-- The stronger bound: the endpoint that names the port carries the authority
itself. -/
def PortAuthorityDeclared (before rule after : List NetworkEndpoint) : Prop :=
  ∀ endpoint ∈ after, ∀ port ∈ canonicalPorts endpoint, ∀ authority,
    endpoint.Carries authority →
    ∃ source ∈ before ++ rule, SameSite source endpoint ∧ port ∈ canonicalPorts source ∧
      (source.Carries authority ∨ InPreset source.access source.protocol authority)

/-- A REST endpoint that allows one request, at port 443. -/
def getRule : NetworkPolicyRule where
  endpoints :=
    [{  host := "api.example.com"
        port := 443
        protocol := "rest"
        rules := [{ allow := some { method := "GET", path := "/status" } }] }]
  binaries := [⟨"/usr/bin/curl"⟩]

/-- The same host at one more port, without rules. -/
def widerRule : NetworkPolicyRule where
  endpoints := [{ host := "api.example.com", ports := [443, 8443] }]
  binaries := [⟨"/usr/bin/curl"⟩]

/-- The rule the two merge into. -/
def widenedRule : NetworkPolicyRule where
  endpoints :=
    [{  host := "api.example.com"
        port := 443
        ports := [443, 8443]
        protocol := "rest"
        rules := [{ allow := some { method := "GET", path := "/status" } }] }]
  binaries := [⟨"/usr/bin/curl"⟩]

theorem mergePolicy_widerRule :
    ∃ result, mergePolicy plainExternal (singleRule "api" getRule) [.addRule "api" widerRule]
      = .ok result :=
  exists_ok_of_isSome (by decide)

theorem mergePolicy_portAuthority_wider :
    ∃ result, mergePolicy plainExternal (singleRule "api" getRule) [.addRule "api" widerRule]
        = .ok result ∧
      ∀ (key : String) (after : NetworkPolicyRule),
        result.policy.networkPolicies[key]? = some after →
        PortAuthorityBounded (endpointsAt (singleRule "api" getRule) key) widerRule.endpoints
          after.endpoints := by
  obtain ⟨result, h⟩ := mergePolicy_widerRule
  exact ⟨result, h, mergePolicy_portAuthority h⟩

/-- The allowed request reaches port 8443, for which nobody declared it. -/
theorem portAuthorityDeclared_wider :
    ∃ result after, mergePolicy plainExternal (singleRule "api" getRule) [.addRule "api" widerRule]
        = .ok result ∧
      result.policy.networkPolicies["api"]? = some after ∧
      ¬ PortAuthorityDeclared (endpointsAt (singleRule "api" getRule) "api") widerRule.endpoints
        after.endpoints := by
  obtain ⟨result, h⟩ := mergePolicy_widerRule
  have hafter : result.policy.networkPolicies["api"]? = some widenedRule :=
    apply_of_toOption_map (f := (·.policy.networkPolicies["api"]?)) h (by decide)
  refine ⟨result, _, h, hafter, ?_⟩
  intro hdeclared
  obtain ⟨source, hs, -, hport, hor⟩ := hdeclared _ (List.mem_singleton.mpr rfl) 8443 (by decide)
    (.rule { allow := some { method := "GET", path := "/status" } }) (List.mem_singleton.mpr rfl)
  simp only [endpointsAt, singleRule, getElem?_insertRule, if_pos, Option.map_some,
    Option.getD_some,
    getRule, widerRule, List.cons_append, List.nil_append, List.mem_cons, List.not_mem_nil,
    or_false] at hs
  rcases hs with rfl | rfl
  · exact absurd hport (by decide)
  · rcases hor with hc | ⟨rule, expanded, -, hexp, -⟩
    · exact absurd hc List.not_mem_nil
    · have hnone : expandAccessPreset "" (accessLabel 0) = none := by decide
      cases hnone.symm.trans hexp

end OpenShell.Policy
