import OpenShell.Prover.Address

/-!
# The structural fast path

Before the solver is asked, `network_is_structurally_contained` compares two
policies rule by rule: same hosts, ports, binaries and addresses, with the
candidate's method and path patterns each below one of the boundary's. It is
sound for the network predicate (`networkContained_of_structural`): whatever the
candidate allows, the boundary allows.

The step with content is the path comparison. A boundary pattern `prefix/**`
covers every candidate pattern that continues `prefix/`, wildcards in the prefix
included, because both are translated segment by segment
(`mem_pathGlobParts_recursive`).
-/

namespace OpenShell.Prover

open OpenShell.Core OpenShell.Schema

def methodPatternContains (boundary candidate : String) : Bool :=
  boundary == "*" || eqIgnoreAsciiCase boundary candidate ||
    (eqIgnoreAsciiCase boundary "GET" && eqIgnoreAsciiCase candidate "HEAD")

def pathPatternContains (boundary candidate : String) : Bool :=
  let boundary := if isEmptyStr boundary then "**" else boundary
  let candidate := if isEmptyStr candidate then "**" else candidate
  boundary == candidate || boundary == "**" ||
    (stripSuf boundary "/**").any fun pre =>
      (stripPre candidate pre).any fun suffix => startsWith suffix "/"

def restEndpointStructurallyContains (boundary candidate : NetworkEndpoint) : Bool :=
  if protocolKind boundary ≠ .rest ∨ protocolKind candidate ≠ .rest ∨
      eqIgnoreAsciiCase boundary.host candidate.host = false ∨ boundary.path ≠ candidate.path ∨
      boundary.allowedIps ≠ candidate.allowedIps ∨
      candidate.effectivePorts.all (boundary.effectivePorts.contains ·) = false ∨
      isEmptyStr boundary.access = false ∨ isEmptyStr candidate.access = false ∨
      boundary.denyRules ≠ [] ∨ candidate.denyRules ≠ [] then false
  else
    candidate.rules.all fun candidateRule =>
      if isEmptyStr candidateRule.allow.method then false
      else boundary.rules.any fun boundaryRule =>
        methodPatternContains boundaryRule.allow.method candidateRule.allow.method &&
          pathPatternContains boundaryRule.allow.path candidateRule.allow.path

def ruleStructurallyContains (boundary candidate : NetworkPolicyRule)
    (binaryIdentityRequired : Bool) : Bool :=
  (!binaryIdentityRequired || candidate.binaries.all fun candidateBinary =>
      boundary.binaries.any fun boundaryBinary => boundaryBinary.path == candidateBinary.path) &&
    candidate.endpoints.all fun candidateEndpoint =>
      boundary.endpoints.any fun boundaryEndpoint =>
        restEndpointStructurallyContains boundaryEndpoint candidateEndpoint

def networkIsStructurallyContained (boundary candidate : ContainmentPolicy)
    (binaryIdentityRequired : Bool) : Bool :=
  if boundary.endpoints.any fun endpoint => !endpoint.denyRules.isEmpty then false
  else candidate.rules.all fun candidateRule =>
    boundary.rules.any fun boundaryRule =>
      ruleStructurallyContains boundaryRule candidateRule binaryIdentityRequired

/-- Every modelled action the candidate allows, the boundary allows. -/
def NetworkContained (glob : Glob) (z : Simplifier) (boundary candidate : ContainmentPolicy)
    (binaryIdentityRequired : Bool) : Prop :=
  ∀ action, actionDomain action binaryIdentityRequired = true →
    policyAllows glob z candidate action binaryIdentityRequired = true →
    policyAllows glob z boundary action binaryIdentityRequired = true

/-! ## Paths -/

/-- A recursive segment is translated by what its successor is. -/
theorem pathGlobParts_recursive (singleStar : Regexp Char) (next : List Char)
    (segments : List (List Char)) :
    pathGlobParts singleStar (['*', '*'] :: next :: segments) =
      (if next = ['*', '*'] then [] else
        [.union (.literal []) (.concat [.full, .literal ['/']])]) ++
        pathGlobParts singleStar (next :: segments) := by
  rw [pathGlobParts.eq_def]
  dsimp only
  rw [if_pos rfl]
  split <;> rfl

theorem mem_full_last (word : List Char) (singleStar : Regexp Char) :
    word ∈ (Regexp.concat (pathGlobParts singleStar [['*', '*']])).lang :=
  Regexp.mem_concat_cons.mpr ⟨word, Regexp.mem_full _, [], rfl, List.append_nil _⟩

/-- A recursive last segment covers whatever else could follow. -/
theorem mem_pathGlobParts_recursive {singleStar : Regexp Char} {rest : List (List Char)}
    (hrest : rest ≠ []) (common : List (List Char)) :
    ∀ {word : List Char},
      word ∈ (Regexp.concat (pathGlobParts singleStar (common ++ rest))).lang →
      word ∈ (Regexp.concat (pathGlobParts singleStar (common ++ [['*', '*']]))).lang := by
  induction common with
  | nil => exact fun _ => mem_full_last _ _
  | cons segment common ih =>
    intro word hword
    by_cases hseg : segment = ['*', '*']
    · subst hseg
      cases common with
      | nil => exact mem_full_last _ singleStar -- the two recursive segments collapse into one
      | cons next common =>
        simp only [List.cons_append] at hword ih ⊢
        rw [pathGlobParts_recursive] at hword ⊢
        exact Regexp.mem_concat_append_of_imp ih hword
    · rw [List.cons_append, pathGlobParts_literal hseg (by simp [hrest])] at hword
      rw [List.cons_append, pathGlobParts_literal hseg (by simp)]
      exact Regexp.mem_concat_append_of_imp ih hword

theorem pathGlobRegex_of_slash {pattern : String} (h : '/' ∈ pattern.toList) :
    globRegex pattern "/" = pathGlobRegex pattern (.star (nonSeparatorRegex "/")) := by
  rw [globRegex, if_neg (fun heq => ?_), if_pos rfl]
  rw [heq] at h
  exact absurd h (by decide)

/-- The pattern a rule's path stands for. -/
def effectivePath (path : String) : String := if isEmptyStr path then "**" else path

theorem matches_of_pathPatternContains {boundary candidate : String}
    (h : pathPatternContains boundary candidate = true) {text : String}
    (hmatch : regexMatches text (globRegex (effectivePath candidate) "/") = true) :
    regexMatches text (globRegex (effectivePath boundary) "/") = true := by
  unfold pathPatternContains at h
  change (effectivePath boundary == effectivePath candidate || effectivePath boundary == "**" ||
    (stripSuf (effectivePath boundary) "/**").any fun pre =>
      (stripPre (effectivePath candidate) pre).any fun suffix => startsWith suffix "/") = true at h
  generalize effectivePath boundary = boundary at h ⊢
  generalize effectivePath candidate = candidate at h hmatch
  rw [Bool.or_eq_true, Bool.or_eq_true] at h
  obtain (h | h) | h := h
  · rwa [eq_of_beq h]
  · rw [eq_of_beq h, regexMatches_iff, globRegex, if_pos rfl]
    exact Regexp.mem_full _
  · obtain ⟨pre, hpre, h⟩ := (Option.any_eq_true _ _).mp h
    obtain ⟨suffix, hsuffix, h⟩ := (Option.any_eq_true _ _).mp h
    obtain ⟨rest, hrest⟩ := startsWith_iff.mp h
    have hboundary : boundary.toList = pre.toList ++ '/' :: ['*', '*'] := stripSuf_eq_some hpre
    have hcandidate : candidate.toList = pre.toList ++ '/' :: rest := by
      rw [stripPre_eq_some hsuffix, hrest]
      rfl
    rw [regexMatches_iff, pathGlobRegex_of_slash (by simp [hcandidate]), pathGlobRegex, hcandidate,
      List.splitOn_append_cons_self] at hmatch
    rw [regexMatches_iff, pathGlobRegex_of_slash (by simp [hboundary]), pathGlobRegex, hboundary,
      List.splitOn_append_cons_self]
    exact mem_pathGlobParts_recursive (List.splitOn_ne_nil _ _) _ hmatch

/-! ## Methods and endpoints -/

/-- The request methods a rule's method stands for. -/
def MethodAllows (method requestMethod : String) : Prop :=
  method = "*" ∨ requestMethod = toAsciiUppercase method ∨
    (toAsciiLowercase method = toAsciiLowercase "GET" ∧ requestMethod = "HEAD")

theorem methodAndPathMatch_iff {method path : String} {action : Action} :
    methodAndPathMatch method path action = true ↔
      method ≠ "" ∧ MethodAllows method action.method ∧
        regexMatches action.path (globRegex (effectivePath path) "/") = true := by
  unfold methodAndPathMatch MethodAllows
  by_cases hempty : method = ""
  · simp [hempty, isEmptyStr_iff]
  rw [if_neg (by rwa [isEmptyStr_iff])]
  change (if method = "*" then anyMethodMatches action (effectivePath path)
    else if eqIgnoreAsciiCase method "GET" then
      methodsMatch action ["GET", "HEAD"] (effectivePath path)
    else methodsMatch action [method] (effectivePath path)) = true ↔ _
  by_cases hstar : method = "*"
  · simp [hstar, anyMethodMatches]
  rw [if_neg hstar]
  by_cases hget : toAsciiLowercase method = toAsciiLowercase "GET"
  · rw [if_pos (eqIgnoreAsciiCase_iff.mpr hget)]
    have hupper : toAsciiUppercase method = "GET" := toAsciiUppercase_eq hget
    have hGet : toAsciiUppercase "GET" = "GET" := by decide
    have hHead : toAsciiUppercase "HEAD" = "HEAD" := by decide
    simp [methodsMatch, strEqAnyCaseInsensitive, hempty, hstar, hget, hupper, hGet, hHead]
  · rw [if_neg (fun h => hget (eqIgnoreAsciiCase_iff.mp h))]
    simp [methodsMatch, strEqAnyCaseInsensitive, hempty, hstar, hget]

theorem eq_star_of_toAsciiLowercase {method : String}
    (h : toAsciiLowercase method = toAsciiLowercase "*") : method = "*" := by
  have hchars : method.toList.map Char.toLower = ['*'] := by
    rw [← toList_toAsciiLowercase, h]
    rfl
  obtain ⟨c, hc, hlower⟩ := List.map_eq_singleton_iff.mp hchars
  rw [(toLower_eq_iff (by decide) (by decide)).mp hlower] at hc
  exact String.toList_inj.mp hc

theorem MethodAllows.of_contains {method method' requestMethod : String}
    (hmethod : methodPatternContains method method' = true)
    (h : MethodAllows method' requestMethod) : MethodAllows method requestMethod := by
  unfold methodPatternContains at hmethod
  simp only [Bool.or_eq_true, Bool.and_eq_true, beq_iff_eq, eqIgnoreAsciiCase_iff] at hmethod
  obtain (hstar | hsame) | ⟨hget, hhead⟩ := hmethod
  · exact Or.inl hstar
  · obtain rfl | h | ⟨hget, h⟩ := h
    · exact Or.inl (eq_star_of_toAsciiLowercase hsame)
    · exact Or.inr (Or.inl (h.trans (toAsciiUppercase_eq hsame.symm)))
    · exact Or.inr (Or.inr ⟨hsame.trans hget, h⟩)
  · obtain rfl | h | ⟨-, h⟩ := h
    · exact absurd hhead (by decide)
    · refine Or.inr (Or.inr ⟨hget, h.trans ?_⟩)
      exact (toAsciiUppercase_eq hhead).trans (by decide)
    · exact Or.inr (Or.inr ⟨hget, h⟩)

theorem ne_empty_of_methodPatternContains {method method' : String}
    (hmethod : methodPatternContains method method' = true) (h : method' ≠ "") : method ≠ "" := by
  rintro rfl
  unfold methodPatternContains at hmethod
  simp only [Bool.or_eq_true, Bool.and_eq_true, beq_iff_eq, eqIgnoreAsciiCase_iff] at hmethod
  obtain (hstar | hsame) | ⟨hget, -⟩ := hmethod
  · exact absurd hstar (by decide)
  · have hempty : isEmptyStr method' = true := by
      rw [← isEmptyStr_toAsciiLowercase, ← hsame]
      decide
    exact h (isEmptyStr_iff.mp hempty)
  · exact absurd hget (by decide)

theorem methodAndPathMatch_of_contains {method method' path path' : String} {action : Action}
    (hmethod : methodPatternContains method method' = true)
    (hpath : pathPatternContains path path' = true)
    (h : methodAndPathMatch method' path' action = true) :
    methodAndPathMatch method path action = true := by
  obtain ⟨hne, hallows, hmatch⟩ := methodAndPathMatch_iff.mp h
  exact methodAndPathMatch_iff.mpr ⟨ne_empty_of_methodPatternContains hmethod hne,
    hallows.of_contains hmethod, matches_of_pathPatternContains hpath hmatch⟩

section
variable {boundary candidate : NetworkEndpoint} {action : Action}

/-- What a contained endpoint shares with the one that contains it. -/
structure EndpointContained (boundary candidate : NetworkEndpoint) : Prop where
  rest : protocolKind boundary = .rest ∧ protocolKind candidate = .rest
  host : toAsciiLowercase boundary.host = toAsciiLowercase candidate.host
  path : boundary.path = candidate.path
  allowedIps : boundary.allowedIps = candidate.allowedIps
  ports : ∀ port ∈ candidate.effectivePorts, port ∈ boundary.effectivePorts
  access : boundary.access = "" ∧ candidate.access = ""
  rules : ∀ rule ∈ candidate.rules, ∃ rule' ∈ boundary.rules,
    methodPatternContains rule'.allow.method rule.allow.method = true ∧
      pathPatternContains rule'.allow.path rule.allow.path = true

theorem contained_of_restEndpointStructurallyContains
    (h : restEndpointStructurallyContains boundary candidate = true) :
    EndpointContained boundary candidate := by
  unfold restEndpointStructurallyContains at h
  obtain ⟨hshape, h⟩ := else_of_ite h nofun
  simp only [not_or, ne_eq, not_not, Bool.not_eq_false, eqIgnoreAsciiCase_iff, isEmptyStr_iff,
    List.all_eq_true, List.contains_iff_mem] at hshape
  obtain ⟨hrest, hrest', hhost, hpath, hips, hports, haccess, haccess', -, -⟩ := hshape
  refine ⟨⟨hrest, hrest'⟩, hhost, hpath, hips, hports, ⟨haccess, haccess'⟩, fun rule hrule => ?_⟩
  have hcovered := List.all_eq_true.mp h rule hrule
  obtain ⟨-, hcovered⟩ := else_of_ite hcovered nofun
  obtain ⟨rule', hrule', hcovers⟩ := List.any_eq_true.mp hcovered
  exact ⟨rule', hrule', Bool.and_eq_true_iff.mp hcovers⟩

theorem EndpointContained.matchesConnection (h : EndpointContained boundary candidate)
    (hmatch : endpointMatchesConnection candidate action = true) :
    endpointMatchesConnection boundary action = true := by
  unfold endpointMatchesConnection at hmatch ⊢
  obtain ⟨hport, hhost⟩ := Bool.and_eq_true_iff.mp hmatch
  obtain ⟨port, hmem, heq⟩ := List.any_eq_true.mp hport
  rw [h.host, hhost, Bool.and_true]
  exact List.any_eq_true.mpr ⟨port, h.ports port hmem, heq⟩

theorem EndpointContained.allows (h : EndpointContained boundary candidate) {glob : Glob}
    (hallows : endpointAllows glob candidate action = true) :
    endpointAllows glob boundary action = true := by
  unfold endpointAllows at hallows ⊢
  rw [h.rest.2] at hallows
  rw [h.rest.1]
  simp only [Bool.and_eq_true] at hallows ⊢
  obtain ⟨⟨⟨hmatch, hlayer⟩, hpath⟩, hrest⟩ := hallows
  refine ⟨⟨⟨h.matchesConnection hmatch, hlayer⟩, ?_⟩, ?_⟩
  · unfold endpointPathMatches at hpath ⊢
    rwa [h.path]
  · have hnone : Policy.AccessPreset.parse "" = none := by decide
    unfold restEndpointAllows at hrest ⊢
    rw [h.access.2, hnone] at hrest
    rw [h.access.1, hnone]
    obtain ⟨rule, hrule, hmatch⟩ := List.any_eq_true.mp hrest
    obtain ⟨rule', hrule', hmethod, hpath⟩ := h.rules rule hrule
    exact List.any_eq_true.mpr
      ⟨rule', hrule', methodAndPathMatch_of_contains hmethod hpath hmatch⟩

end

/-! ## Policies -/

section
variable {boundary candidate : ContainmentPolicy} {action : Action} {binaryIdentityRequired : Bool}

theorem binariesMatch_of_ruleStructurallyContains {rule rule' : NetworkPolicyRule}
    (h : ruleStructurallyContains rule' rule binaryIdentityRequired = true)
    (hmatch : binariesMatch rule action binaryIdentityRequired = true) :
    binariesMatch rule' action binaryIdentityRequired = true := by
  unfold binariesMatch at hmatch ⊢
  cases binaryIdentityRequired with
  | false => rfl
  | true =>
    obtain ⟨binary, hbinary, hpath⟩ := List.any_eq_true.mp hmatch
    have hall := List.all_eq_true.mp (Bool.and_eq_true_iff.mp h).1
    obtain ⟨binary', hbinary', heq⟩ := List.any_eq_true.mp (hall binary hbinary)
    refine List.any_eq_true.mpr ⟨binary', hbinary', ?_⟩
    rwa [eq_of_beq heq]

theorem exists_contained_endpoint {rule rule' : NetworkPolicyRule}
    (h : ruleStructurallyContains rule' rule binaryIdentityRequired = true)
    {endpoint : NetworkEndpoint} (hendpoint : endpoint ∈ rule.endpoints) :
    ∃ endpoint' ∈ rule'.endpoints, EndpointContained endpoint' endpoint := by
  have hall := List.all_eq_true.mp (Bool.and_eq_true_iff.mp h).2
  obtain ⟨endpoint', hmem, hcontains⟩ := List.any_eq_true.mp (hall endpoint hendpoint)
  exact ⟨endpoint', hmem, contained_of_restEndpointStructurallyContains hcontains⟩

/-- A structurally contained candidate has no deny rule to answer to, and each
of its rules a rule of the boundary. -/
theorem rules_of_networkIsStructurallyContained
    (h : networkIsStructurallyContained boundary candidate binaryIdentityRequired = true) :
    (∀ endpoint ∈ boundary.endpoints, endpoint.denyRules = []) ∧
      ∀ rule ∈ candidate.rules, ∃ rule' ∈ boundary.rules,
        ruleStructurallyContains rule' rule binaryIdentityRequired = true := by
  unfold networkIsStructurallyContained at h
  obtain ⟨hdeny, h⟩ := else_of_ite h nofun
  refine ⟨fun endpoint hendpoint => ?_, fun rule hrule => ?_⟩
  · by_contra hne
    exact hdeny (List.any_eq_true.mpr ⟨endpoint, hendpoint, by simpa using hne⟩)
  · exact List.any_eq_true.mp (List.all_eq_true.mp h rule hrule)

theorem anyRuleDenies_eq_false {glob : Glob} {selected : NetworkPolicyRule → Bool}
    (h : ∀ endpoint ∈ boundary.endpoints, endpoint.denyRules = []) :
    boundary.rules.any (ruleDenies glob selected · action) = false := by
  refine Bool.eq_false_iff.mpr fun hdenies => ?_
  obtain ⟨rule, hrule, -, endpoint, hendpoint, hdeny⟩ := anyRuleDenies_iff.mp hdenies
  have hnone := h endpoint (List.mem_flatMap.mpr ⟨rule, hrule, hendpoint⟩)
  unfold endpointDenies at hdeny
  rw [if_pos (Or.inr (by simp [hnone]))] at hdeny
  cases hdeny

theorem policyAllows_of_structural {glob : Glob} {z : Simplifier}
    (hboundary : validateSupportedPolicy boundary = .ok ())
    (hcandidate : validateSupportedPolicy candidate = .ok ())
    (h : networkIsStructurallyContained boundary candidate binaryIdentityRequired = true)
    (hallows : policyAllows glob z candidate action binaryIdentityRequired = true) :
    policyAllows glob z boundary action binaryIdentityRequired = true := by
  obtain ⟨hdeny, hrules⟩ := rules_of_networkIsStructurallyContained h
  obtain ⟨hallow, -, hdestination⟩ := policyAllowsBy_iff.mp hallows
  refine policyAllowsBy_iff.mpr ⟨?_, anyRuleDenies_eq_false hdeny, ?_⟩
  · obtain ⟨rule, hrule, hbinaries, endpoint, hendpoint, hallows⟩ := anyRuleAllows_iff.mp hallow
    obtain ⟨rule', hrule', hcontains⟩ := hrules rule hrule
    obtain ⟨endpoint', hendpoint', hcontained⟩ := exists_contained_endpoint hcontains hendpoint
    exact anyRuleAllows_iff.mpr ⟨rule', hrule',
      binariesMatch_of_ruleStructurallyContains hcontains hbinaries, endpoint', hendpoint',
      hcontained.allows hallows⟩
  · obtain ⟨rule, hrule, hbinaries, endpoint, hendpoint, hconnection, haddress⟩ :=
      destinationAllowed_iff.mp hdestination
    obtain ⟨rule', hrule', hcontains⟩ := hrules rule hrule
    obtain ⟨endpoint', hendpoint', hcontained⟩ := exists_contained_endpoint hcontains hendpoint
    have hconnection' := hcontained.matchesConnection hconnection
    have hstar : containsChar endpoint.host '*' = containsChar endpoint'.host '*' := by
      rw [Bool.eq_iff_iff, containsChar_iff, containsChar_iff,
        ← mem_toAsciiLowercase (by decide) (by decide), ← hcontained.host,
        mem_toAsciiLowercase (by decide) (by decide)]
    rw [addressAllowed_eq (supportedEndpoint_of_mem hcandidate hrule hendpoint)
      (supportedEndpoint_of_mem hboundary hrule' hendpoint') hconnection hconnection' z z
      hcontained.allowedIps.symm (fun _ => hstar)] at haddress
    exact destinationAllowed_iff.mpr ⟨rule', hrule',
      binariesMatch_of_ruleStructurallyContains hcontains hbinaries, endpoint', hendpoint',
      hconnection', haddress⟩

/-- The structural fast path only answers for contained candidates, in both
identity modes. -/
theorem networkContained_of_structural (glob : Glob) (z : Simplifier)
    (hboundary : validateSupportedPolicy boundary = .ok ())
    (hcandidate : validateSupportedPolicy candidate = .ok ())
    (h : networkIsStructurallyContained boundary candidate binaryIdentityRequired = true) :
    NetworkContained glob z boundary candidate binaryIdentityRequired :=
  fun _ _ => policyAllows_of_structural hboundary hcandidate h

end

/-- One rule for `host`, with its ports and one allow rule. -/
def singleRestRule (host : String) (ports : List UInt16) (method path : String) :
    ContainmentPolicy :=
  { networkPolicies := (∅ : Policy.Map NetworkPolicyRule).insert "api"
      { endpoints := [{ host, ports, protocol := "rest", enforcement := "enforce",
                        rules := [{ allow := { method, path } }] }]
        binaries := [{ path := "/usr/bin/curl" }] } }

theorem networkContained_of_structural_repos :
    networkIsStructurallyContained
      (singleRestRule "API.example.com" [443, 8443] "GET" "/repos/*/**")
        (singleRestRule "api.example.com" [443] "HEAD" "/repos/*/issues") true = true ∧
      NetworkContained { new := fun _ => .ok (), isMatch := fun _ _ => false }
        { simplify := fun _ _ => none, sound := nofun }
        (singleRestRule "API.example.com" [443, 8443] "GET" "/repos/*/**")
        (singleRestRule "api.example.com" [443] "HEAD" "/repos/*/issues") true :=
  ⟨by decide, networkContained_of_structural _ _ (by decide) (by decide) (by decide)⟩

end OpenShell.Prover
