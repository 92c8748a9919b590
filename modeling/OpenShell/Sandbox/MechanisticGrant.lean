import Mathlib
import OpenShell.L7.Admission
import OpenShell.Sandbox.MechanisticMapper

/-!
# What proposals grant

A proposal should grant what was denied and no more. Its rule is read by a
language with wildcards, and the texts in it are the workload's, so this depends
on the texts. `grantsOnlyDenied_iff` says on which.
-/

namespace OpenShell.Sandbox

open OpenShell.Policy OpenShell.Core OpenShell.L7

/-! ## The purpose -/

/-- The denial is one of those the proposal stands for. -/
def PolicyChunk.StandsFor (chunk : PolicyChunk) (denial : DenialSummary) : Prop :=
  denial.binary = chunk.binary ∧ ∃ endpoint ∈ chunk.proposedRule.endpoints,
    endpoint.host = denial.host ∧ endpoint.port = denial.port

instance (chunk : PolicyChunk) (denial : DenialSummary) : Decidable (chunk.StandsFor denial) := by
  unfold PolicyChunk.StandsFor
  infer_instance

def samplesOf (denials : List DenialSummary) : List L7RequestSample :=
  denials.flatMap DenialSummary.l7RequestSamples

/-- The method of a sample up to case, with `HEAD` standing for `GET`. -/
def SampledMethod (rego : RegoBuiltins) (samples : List L7RequestSample) (method : String) : Prop :=
  ∃ sample ∈ samples, rego.upper method = rego.upper sample.method ∨
    (rego.upper method = "HEAD" ∧ rego.upper sample.method = "GET")

/-- The path ends in an identifier after its last slash. -/
def EndsInId (path base last : String) : Prop :=
  '/' ∉ last.toList ∧ looksLikeId last = true ∧ path = base ++ "/" ++ last

/-- The path of a sample, or one that differs from it in an identifier at its end. -/
def SampledPath (samples : List L7RequestSample) (path : String) : Prop :=
  ∃ sample ∈ samples, path = withoutQuery sample.path ∨
    ∃ base last segment, EndsInId (withoutQuery sample.path) base last ∧ '/' ∉ segment.toList ∧
      path = base ++ "/" ++ segment

/-- The chunk grants the denials it stands for, and no more. -/
structure GrantsDenials (rego : RegoBuiltins) (glob : Glob) (denials : List DenialSummary)
    (chunk : PolicyChunk) : Prop where
  connection : ∀ connection, allowConnection rego chunk.proposedRule connection = true →
    ∃ denial ∈ denials, rego.lower connection.host = rego.lower denial.host ∧
      connection.port = denial.port ∧ denial.binary ∈ connection.path :: connection.ancestors
  request : (∃ denial ∈ denials, denial.l7InspectionActive = true ∨ denial.l7RequestSamples ≠ []) →
    ∀ connection request, requestPasses rego glob chunk.proposedRule connection request = true →
      SampledMethod rego (samplesOf denials) request.method ∧
        SampledPath (samplesOf denials) request.path
  sampled : ∀ denial ∈ denials, ∀ sample ∈ denial.l7RequestSamples, ∀ ancestors request,
    request.method = sample.method → request.path = withoutQuery sample.path →
      requestPasses rego glob chunk.proposedRule
        ⟨denial.host, denial.port, denial.binary, ancestors⟩ request = true
  hitCount : chunk.hitCount = ((denials.map DenialSummary.count).sum : Nat)

/-- Every proposal grants the denials it stands for, and no more. -/
def GrantsOnlyDenied (rego : RegoBuiltins) (glob : Glob) (isAlphanumeric : Char → Bool)
    (summaries : List DenialSummary) : Prop :=
  ∀ chunk ∈ generateProposals isAlphanumeric summaries,
    GrantsDenials rego glob (summaries.filter (chunk.StandsFor ·)) chunk

/-! ## The condition -/

/-- Some connection can match the host and the binary of the denial. -/
def Reached (rego : RegoBuiltins) (denial : DenialSummary) : Prop :=
  denial.binary ≠ "" ∧ (∃ host, endpointHostMatches rego denial.host host = true) ∧
    ∃ path, binaryMatches rego denial.binary path = true

/-- What `generalise_path` keeps of a path. -/
def keptPath (raw : String) : String :=
  let path := withoutQuery raw
  let segments := splitChar path '/'
  if segments.length ≤ 1 then path
  else if looksLikeId (segments.getLast?.getD "") then joinWith "/" segments.dropLast
  else path

/-- A sample whose rule is read back as the sample. -/
structure PlainSample (sample : L7RequestSample) : Prop where
  method_ne_empty : sample.method ≠ ""
  method_ne_star : sample.method ≠ "*"
  path_ne_empty : withoutQuery sample.path ≠ ""
  literal : GlobLiteral (keptPath sample.path)

/-- The group of a denial has a rule that says what was denied. -/
structure Expressible (rego : RegoBuiltins) (denial : DenialSummary)
    (denials : List DenialSummary) : Prop where
  count_lt : (denials.map DenialSummary.count).sum < 2 ^ 31
  host : Reached rego denial → '*' ∉ denial.host.toList
  binary : Reached rego denial → '*' ∉ denial.binary.toList
  inspected : Reached rego denial →
    (∃ d ∈ denials, d.l7InspectionActive = true) → samplesOf denials ≠ []
  samples : ∀ sample ∈ samplesOf denials, Reached rego denial ∧ PlainSample sample

/-- A kind of observation: with a list of denials it has each of its samples alone. -/
structure DenialKind where
  holds : List DenialSummary → Prop
  holds_one : ∀ {summaries denial sample}, holds summaries → denial ∈ summaries →
    sample ∈ denial.l7RequestSamples → holds [{ denial with l7RequestSamples := [sample] }]

/-! ## Paths -/

variable {base path : String}

theorem segments_of_endsInId {last : String} (h : EndsInId path base last) :
    1 < (splitChar path '/').length ∧ (splitChar path '/').getLast?.getD "" = last ∧
      joinWith "/" (splitChar path '/').dropLast = base := by
  obtain ⟨hlast, -, rfl⟩ := h
  rw [splitChar_append (a := base) (b := last) (by simp), splitChar_of_notMem hlast]
  have hpos := List.length_pos_of_ne_nil (splitChar_ne_nil base '/')
  refine ⟨?_, ?_, ?_⟩
  · rw [List.length_append, List.length_singleton]
    omega
  · simp
  · rw [List.dropLast_concat]
    exact joinWith_splitChar (by decide) base

/-- A path that ends in no identifier is kept as it is. -/
theorem segments_of_not_endsInId (h : ∀ base last, ¬ EndsInId path base last) :
    (splitChar path '/').length ≤ 1 ∨
      looksLikeId ((splitChar path '/').getLast?.getD "") = false := by
  by_cases hslash : '/' ∈ path.toList
  · obtain ⟨base, last, hlast, rfl⟩ := exists_last_segment hslash
    refine Or.inr (Bool.eq_false_iff.mpr fun hid => h base last ⟨hlast, ?_, rfl⟩)
    rw [splitChar_append (a := base) (b := last) (by simp), splitChar_of_notMem hlast] at hid
    simpa using hid
  · rw [splitChar_of_notMem hslash]
    exact Or.inl (Nat.le_refl _)

/-- The rule of a path, and what it keeps of it. -/
theorem generalisePath_cases (raw : String) :
    (∃ base last, EndsInId (withoutQuery raw) base last ∧ generalisePath raw = base ++ "/*" ∧
        keptPath raw = base) ∨
      (∀ base last, ¬ EndsInId (withoutQuery raw) base last) ∧
        generalisePath raw = withoutQuery raw ∧ keptPath raw = withoutQuery raw := by
  unfold generalisePath keptPath
  by_cases hid : ∃ base last, EndsInId (withoutQuery raw) base last
  · obtain ⟨base, last, hid⟩ := hid
    obtain ⟨hlength, hlast, hbase⟩ := segments_of_endsInId hid
    refine Or.inl ⟨base, last, hid, ?_⟩
    simp only [if_neg (Nat.not_le.mpr hlength), hlast, if_pos hid.2.1, hbase, and_self]
  · simp only [not_exists] at hid
    refine Or.inr ⟨hid, ?_⟩
    rcases segments_of_not_endsInId hid with hlength | hno
    · simp only [if_pos hlength, and_self]
    · simp only [hno, Bool.false_eq_true, if_false, ite_self, and_self]

/-! ## What the rule of a group admits -/

variable {host : String} {connection : Connection}

section Draft

variable {rego : RegoBuiltins} {glob : Glob} {isAlphanumeric : Char → Bool}
  {key : String × Nat × String} {denials : List DenialSummary}

/-- The runtime data of an endpoint that needs no preset and no alias is the endpoint. -/
theorem runtimeEndpoint_eq_self {endpoint : NetworkEndpoint}
    (hprotocol : endpoint.protocol = "rest" ∨ endpoint.protocol = "")
    (haccess : endpoint.access = 0) :
    runtimeEndpoint endpoint = endpoint := by
  have hname : normalizeEndpointProtocol endpoint.protocol = endpoint.protocol := by
    rcases hprotocol with h | h <;> rw [h] <;> decide
  have hmcp : endpoint.protocol ≠ "mcp" := by
    rcases hprotocol with h | h <;> rw [h] <;> decide
  have haliases : endpoint.rules.map (normalizeL7RuleAliases endpoint) = endpoint.rules := by
    refine List.map_id'' (fun rule => ?_) _
    unfold normalizeL7RuleAliases
    rw [if_neg fun h => hmcp h.1]
  have hexpand : expandAccessPresets endpoint = endpoint := by
    have horRest : protocolOrRest endpoint.protocol ≠ "mcp" := by
      rcases hprotocol with h | h <;> rw [h] <;> decide
    have hempty : isEmptyStr (accessText endpoint.access) = true := by
      rw [haccess]
      decide
    unfold expandAccessPresets
    simp only [horRest, hempty, false_and, Bool.true_or, if_false, if_true]
  unfold runtimeEndpoint
  simp only [hname, haliases, hexpand]

theorem buildL7Rules_l7Methods_eq_nil_iff :
    buildL7Rules (l7Methods denials) = [] ↔ samplesOf denials = [] := by
  simp only [List.eq_nil_iff_forall_not_mem, mem_buildL7Rules]
  constructor
  · intro h sample hs
    exact h _ ⟨(sample.method, sample.path), mem_l7Methods.mpr ⟨sample, hs, rfl, rfl⟩, rfl⟩
  · rintro h rule ⟨⟨method, path⟩, hmem, -⟩
    obtain ⟨sample, hs, -⟩ := mem_l7Methods.mp hmem
    exact h sample hs

/-- Without a sample the endpoint is not inspected, even where a denial was. -/
theorem proposedEndpoint_of_nil (h : samplesOf denials = []) (host : String) (port : Nat) :
    proposedEndpoint host port denials =
      { host, port, ports := [port], advisorProposed := true } := by
  unfold proposedEndpoint
  simp only [buildL7Rules_l7Methods_eq_nil_iff.mpr h, List.isEmpty_nil, Bool.not_true,
    Bool.and_false, Bool.false_eq_true, if_false]

theorem proposedEndpoint_of_ne_nil (h : samplesOf denials ≠ []) (host : String) (port : Nat) :
    proposedEndpoint host port denials =
      { host, port, ports := [port], protocol := "rest",
        enforcement := NetworkEnforcementMode.enforce.toInt,
        rules := buildL7Rules (l7Methods denials), advisorProposed := true } := by
  have hrules : (buildL7Rules (l7Methods denials)).isEmpty = false := by
    rw [Bool.eq_false_iff, ne_eq, List.isEmpty_iff, buildL7Rules_l7Methods_eq_nil_iff]
    exact h
  have hl7 : hasL7 denials = true := by
    obtain ⟨sample, hs⟩ := List.exists_mem_of_ne_nil _ h
    obtain ⟨denial, hd, hs⟩ := List.mem_flatMap.mp hs
    refine List.any_eq_true.mpr ⟨denial, hd, ?_⟩
    have hne : denial.l7RequestSamples ≠ [] := List.ne_nil_of_mem hs
    simp [hne]
  unfold proposedEndpoint
  simp only [hrules, hl7, Bool.not_false, Bool.and_true, if_true]

variable {port : Nat}

/-- The endpoint names what was denied, inspected or not. -/
theorem proposedEndpoint_destination :
    (proposedEndpoint host port denials).host = host ∧
      (proposedEndpoint host port denials).port = port ∧
      (proposedEndpoint host port denials).allowedIps = [] ∧
      dataPorts (proposedEndpoint host port denials) = [port] := by
  by_cases h : samplesOf denials = []
  · rw [proposedEndpoint_of_nil h]
    exact ⟨rfl, rfl, rfl, rfl⟩
  · rw [proposedEndpoint_of_ne_nil h]
    exact ⟨rfl, rfl, rfl, rfl⟩

theorem endpointMatchesRequest_proposedEndpoint :
    endpointMatchesRequest rego (proposedEndpoint host port denials) connection = true ↔
      endpointHostMatches rego host connection.host = true ∧ connection.port = port := by
  obtain ⟨hhost, -, hips, hports⟩ := @proposedEndpoint_destination host denials port
  unfold endpointMatchesRequest
  rw [hhost, hips, hports]
  simp

theorem draft_endpoints : (draft isAlphanumeric key denials).proposedRule.endpoints =
    [proposedEndpoint key.1 key.2.1 denials] := rfl

theorem allowConnection_draft :
    allowConnection rego (draft isAlphanumeric key denials).proposedRule connection = true ↔
      endpointHostMatches rego key.1 connection.host = true ∧ connection.port = key.2.1 ∧
        key.2.2 ≠ "" ∧ ∃ path ∈ connection.path :: connection.ancestors,
          binaryMatches rego key.2.2 path = true := by
  have hbinaries : (draft isAlphanumeric key denials).proposedRule.binaries =
      if isEmptyStr key.2.2 then [] else [{ path := key.2.2 }] := rfl
  unfold allowConnection binaryAllowed
  rw [draft_endpoints, hbinaries, Bool.and_eq_true, List.any_cons, List.any_nil, Bool.or_false,
    endpointMatchesRequest_proposedEndpoint, and_assoc]
  by_cases hempty : key.2.2 = ""
  · have hstr : isEmptyStr key.2.2 = true := isEmptyStr_iff.mpr hempty
    rw [hstr]
    simp [hempty]
  · have hstr : isEmptyStr key.2.2 = false := Bool.eq_false_iff.mpr (hempty ∘ isEmptyStr_iff.mp)
    simp [hstr, hempty]

/-- The rule of a sample admits a request. -/
def SampleAdmits (rego : RegoBuiltins) (sample : L7RequestSample) (request : L7Request) : Prop :=
  sample.method ≠ "" ∧ generalisePath sample.path ≠ "" ∧
    methodMatches rego request.method sample.method = true ∧
    pathMatches rego request.path (generalisePath sample.path) = true

variable {request : L7Request}

theorem restAllowMatches_iff {method : String} :
    restAllowMatches rego request { method, path } = true ↔
      method ≠ "" ∧ path ≠ "" ∧ methodMatches rego request.method method = true ∧
        pathMatches rego request.path path = true := by
  have hquery : queryParamsMatch rego request { method, path } = true := by
    simp [queryParamsMatch]
  have hne : ∀ s : String, (!isEmptyStr s) = true ↔ s ≠ "" := by
    intro s
    rw [Bool.not_eq_true', Bool.eq_false_iff, ne_eq, ne_eq, isEmptyStr_iff]
  unfold restAllowMatches
  simp only [Bool.and_eq_true, hquery, hne, and_true, and_assoc]

theorem runtimeEndpoint_proposedEndpoint (host : String) (port : Nat)
    (denials : List DenialSummary) :
    runtimeEndpoint (proposedEndpoint host port denials) = proposedEndpoint host port denials := by
  by_cases h : samplesOf denials = []
  · rw [proposedEndpoint_of_nil h]
    exact runtimeEndpoint_eq_self (Or.inr rfl) rfl
  · rw [proposedEndpoint_of_ne_nil h]
    exact runtimeEndpoint_eq_self (Or.inl rfl) rfl

/-- The rules of a proposal name no GraphQL operation. -/
theorem graphqlRequestAllowed_proposedEndpoint (h : samplesOf denials ≠ []) :
    graphqlRequestAllowed rego request (proposedEndpoint host port denials) = false := by
  have hnone : ∀ op, anyAllow (proposedEndpoint host port denials)
      (graphqlAllowMatches rego (proposedEndpoint host port denials) op) = false := by
    intro op
    refine List.any_eq_false.mpr fun rule hrule => ?_
    rw [proposedEndpoint_of_ne_nil h] at hrule
    obtain ⟨sample, -, rfl⟩ := mem_buildL7Rules.mp hrule
    exact Bool.false_ne_true
  unfold graphqlRequestAllowed
  refine Bool.eq_false_iff.mpr fun hallowed => ?_
  obtain ⟨graphql, -, hallowed⟩ := (Option.any_eq_true _ _).mp hallowed
  simp only [hnone, Bool.and_eq_true, List.all_eq_true, Bool.false_eq_true] at hallowed
  obtain ⟨⟨⟨hne, -⟩, -⟩, hall⟩ := hallowed
  cases hops : graphql.operations with
  | nil =>
    rw [hops] at hne
    cases hne
  | cons op _ => exact hall op (hops ▸ List.mem_cons_self)

/-- Of the explicit rules only those for methods and paths can admit a request. -/
theorem rulesAllow_proposedEndpoint (h : samplesOf denials ≠ []) :
    rulesAllow rego (proposedEndpoint host port denials) request = true ↔
      ∃ sample ∈ samplesOf denials, SampleAdmits rego sample request := by
  have hgraphql : graphqlRequestAllowed rego request (proposedEndpoint host port denials) = false :=
    graphqlRequestAllowed_proposedEndpoint h
  have hfamily : jsonrpcFamilyEndpoint (proposedEndpoint host port denials) = false := by
    rw [proposedEndpoint_of_ne_nil h]
    rfl
  have hrules : (proposedEndpoint host port denials).rules = buildL7Rules (l7Methods denials) := by
    rw [proposedEndpoint_of_ne_nil h]
  unfold rulesAllow anyAllow
  rw [hgraphql, hfamily, hrules]
  simp only [Bool.false_eq_true, if_false, Bool.or_false, List.any_eq_true, mem_buildL7Rules]
  constructor
  · rintro ⟨rule, ⟨⟨method, path⟩, hmem, rfl⟩, hallow⟩
    obtain ⟨sample, hs, rfl, rfl⟩ := mem_l7Methods.mp hmem
    exact ⟨sample, hs, restAllowMatches_iff.mp hallow⟩
  · rintro ⟨sample, hs, hadmits⟩
    exact ⟨_, ⟨(sample.method, sample.path), mem_l7Methods.mpr ⟨sample, hs, rfl, rfl⟩, rfl⟩,
      restAllowMatches_iff.mpr hadmits⟩

theorem requestPasses_draft {engine : GlobEngine} :
    requestPasses engine glob (draft isAlphanumeric key denials).proposedRule connection
        request = true ↔
      allowConnection engine (draft isAlphanumeric key denials).proposedRule
        connection = true ∧
      (samplesOf denials = [] ∨
        ∃ sample ∈ samplesOf denials, SampleAdmits engine sample request) := by
  unfold requestPasses
  rw [Bool.and_eq_true, and_congr_right_iff]
  intro hconnection
  obtain ⟨hhost, hport, -, hbinary⟩ := allowConnection_draft.mp hconnection
  have hmatch : endpointMatchesRequest engine (proposedEndpoint key.1 key.2.1 denials)
      connection = true := endpointMatchesRequest_proposedEndpoint.mpr ⟨hhost, hport⟩
  rw [draft_endpoints, List.all_cons, List.all_nil, Bool.and_true, hmatch, Bool.true_and,
    Bool.or_eq_true]
  by_cases hsamples : samplesOf denials = []
  · have hinspects : inspects engine (proposedEndpoint key.1 key.2.1 denials) = false := by
      unfold inspects
      rw [runtimeEndpoint_proposedEndpoint, proposedEndpoint_of_nil hsamples]
      rfl
    simp [hinspects, hsamples]
  · have hinspects : inspects engine (proposedEndpoint key.1 key.2.1 denials) = true := by
      unfold inspects
      rw [runtimeEndpoint_proposedEndpoint, proposedEndpoint_of_ne_nil hsamples]
      have hlower : engine.lower "rest" = "rest" := engine.lower_eq "rest" (by decide)
      simp only [hlower]
      decide
    have henforce : networkEnforcementModeToStr
        (proposedEndpoint key.1 key.2.1 denials).enforcement = some "enforce" := by
      rw [proposedEndpoint_of_ne_nil hsamples]
      rfl
    have hpath : (proposedEndpoint key.1 key.2.1 denials).path = "" := by
      rw [proposedEndpoint_of_ne_nil hsamples]
    have hallowed : binaryAllowed engine (draft isAlphanumeric key denials).proposedRule
        connection = true := (Bool.and_eq_true_iff.mp hconnection).2
    have hrequest : allowRequest engine glob
        (draft isAlphanumeric key denials).proposedRule connection request =
          rulesAllow engine (proposedEndpoint key.1 key.2.1 denials) request := by
      unfold allowRequest endpointMatchesL7Request
      rw [hallowed, draft_endpoints, List.any_cons, List.any_nil, hmatch, hpath,
        runtimeEndpoint_proposedEndpoint]
      simp [isEmptyStr]
    rw [hrequest, rulesAllow_proposedEndpoint hsamples, hinspects, henforce]
    simp [hsamples]

theorem standsFor_draft_iff {denial : DenialSummary} :
    (draft isAlphanumeric key denials).StandsFor denial ↔ denial.key = key := by
  obtain ⟨hhost, hport, -⟩ := @proposedEndpoint_destination key.1 denials key.2.1
  have hbinary : (draft isAlphanumeric key denials).binary = key.2.2 := rfl
  unfold PolicyChunk.StandsFor DenialSummary.key
  rw [draft_endpoints, hbinary]
  simp only [List.mem_singleton, exists_eq_left, hhost, hport, Prod.ext_iff]
  constructor
  · rintro ⟨hb, hh, hp⟩
    exact ⟨hh.symm, hp.symm, hb⟩
  · rintro ⟨hh, hp, hb⟩
    exact ⟨hb, hh.symm, hp.symm⟩

/-- The proposals are judged group by group. -/
theorem grantsOnlyDenied_iff_groups {summaries : List DenialSummary} :
    GrantsOnlyDenied rego glob isAlphanumeric summaries ↔
      ∀ denial ∈ summaries, isAlwaysBlockedDestination denial.host = false →
        GrantsDenials rego glob (denialsOf summaries denial.key)
          (draft isAlphanumeric denial.key (denialsOf summaries denial.key)) := by
  have hfilter : ∀ k : String × Nat × String,
      (summaries.filter fun d =>
        (draft isAlphanumeric k (denialsOf summaries k)).StandsFor d) = denialsOf summaries k := by
    intro k
    refine List.filter_congr fun d _ => ?_
    rw [Bool.eq_iff_iff, decide_eq_true_iff, standsFor_draft_iff, beq_iff_eq]
  unfold GrantsOnlyDenied
  constructor
  · intro h denial hd hblocked
    have hgrants := h _ (mem_generateProposals.mpr ⟨denial, hd, hblocked, rfl⟩)
    rwa [hfilter] at hgrants
  · intro h chunk hchunk
    obtain ⟨denial, hd, hblocked, rfl⟩ := mem_generateProposals.mp hchunk
    rw [hfilter]
    exact h denial hd hblocked

end Draft

/-! ## Plain texts are read back as themselves -/

variable {rego : RegoBuiltins}

section Plain

variable {engine : GlobEngine} {sample : L7RequestSample} {request : L7Request}

variable {pattern : String}

theorem endpointHostMatches_of_notMem (h : '*' ∉ pattern.toList) :
    endpointHostMatches rego pattern host = true ↔ rego.lower pattern = rego.lower host := by
  unfold endpointHostMatches
  rw [if_neg (mt containsChar_iff.mp h), beq_iff_eq]

theorem binaryMatches_of_notMem
    (h : '*' ∉ pattern.toList) : binaryMatches rego pattern path = true ↔ pattern = path := by
  unfold binaryMatches
  rw [if_neg (mt containsChar_iff.mp h), beq_iff_eq]

theorem pathMatches_of_ne (h : pattern ≠ "**") :
    pathMatches rego path pattern = rego.globMatch pattern ["/"] path := by
  unfold pathMatches
  rw [beq_eq_false_iff_ne.mpr h, Bool.false_or]

theorem pathMatches_of_literal (h : GlobLiteral pattern) :
    pathMatches rego path pattern = rego.globMatch pattern ["/"] path := by
  refine pathMatches_of_ne ?_
  rintro rfl
  exact not_globLiteral_of_mem (by decide) h

theorem pathMatches_slash_star (base : String) :
    pathMatches rego path (base ++ "/*") = rego.globMatch (base ++ "/*") ["/"] path := by
  refine pathMatches_of_ne fun h => ?_
  have hslash : '/' ∈ (base ++ "/*").toList := by
    rw [String.toList_append]
    exact List.mem_append_right _ (by decide)
  rw [h] at hslash
  exact absurd hslash (by decide)

variable {samples : List L7RequestSample} (hplain : PlainSample sample)
include hplain

theorem method_of_sampleAdmits (hs : sample ∈ samples)
    (hadmits : SampleAdmits engine sample request) :
    SampledMethod engine samples request.method := by
  obtain ⟨-, -, hmethod, -⟩ := hadmits
  unfold methodMatches at hmethod
  rw [beq_eq_false_iff_ne.mpr hplain.method_ne_star, Bool.false_or, Bool.or_eq_true,
    Bool.and_eq_true, beq_iff_eq, beq_iff_eq, beq_iff_eq] at hmethod
  exact ⟨sample, hs, hmethod⟩

theorem path_of_sampleAdmits (hs : sample ∈ samples)
    (hadmits : SampleAdmits engine sample request) :
    SampledPath samples request.path := by
  obtain ⟨-, -, -, hpath⟩ := hadmits
  have hliteral := hplain.literal
  refine ⟨sample, hs, ?_⟩
  rcases generalisePath_cases sample.path with ⟨base, last, hid, hrule, hkept⟩ | ⟨-, hrule, hkept⟩
  · rw [hrule, pathMatches_slash_star] at hpath
    obtain ⟨segment, hsegment, hpath⟩ := engine.segment_of_match (hkept ▸ hliteral) hpath
    exact Or.inr ⟨base, last, segment, hid, hsegment, hpath⟩
  · rw [hkept] at hliteral
    rw [hrule, pathMatches_of_literal hliteral] at hpath
    exact Or.inl ((engine.match_literal ["/"] request.path hliteral).mp hpath)

/-- A plain sample is admitted by its own rule. -/
theorem sampleAdmits_self (hmethod : request.method = sample.method)
    (hpath : request.path = withoutQuery sample.path) :
    SampleAdmits engine sample request := by
  have hliteral := hplain.literal
  have hmatches : methodMatches engine request.method sample.method = true := by
    simp [methodMatches, hmethod]
  rcases generalisePath_cases sample.path with ⟨base, last, hid, hrule, hkept⟩ | ⟨-, hrule, hkept⟩
  · have hlast : last ≠ "" := by
      rintro rfl
      exact absurd hid.2.1 (by decide)
    refine ⟨hplain.method_ne_empty, by simp [hrule], hmatches, ?_⟩
    rw [hrule, pathMatches_slash_star, hpath, hid.2.2]
    exact engine.match_segment (hkept ▸ hliteral) hid.1 hlast
  · rw [hkept] at hliteral
    refine ⟨hplain.method_ne_empty, hrule ▸ hplain.path_ne_empty, hmatches, ?_⟩
    rw [hrule, pathMatches_of_literal hliteral, hpath]
    exact (engine.match_literal ["/"] _ hliteral).mpr rfl

end Plain

/-! ## A group -/

section Group

variable {engine : GlobEngine} {glob : Glob} {isAlphanumeric : Char → Bool} {denial : DenialSummary}
  {denials : List DenialSummary}

theorem reached_of_allowConnection
    (h : allowConnection rego (draft isAlphanumeric denial.key denials).proposedRule
      connection = true) :
    Reached rego denial := by
  obtain ⟨hhost, -, hbinary, path, -, hpath⟩ := allowConnection_draft.mp h
  exact ⟨hbinary, ⟨connection.host, hhost⟩, path, hpath⟩

/-- An expressible group has a rule that grants it and no more. -/
theorem grantsDenials_of_expressible (hmem : denial ∈ denials)
    (hkey : ∀ d ∈ denials, d.key = denial.key)
    (h : Expressible engine denial denials) :
    GrantsDenials engine glob denials (draft isAlphanumeric denial.key denials) where
  connection := by
    intro connection hallow
    have hreached := reached_of_allowConnection hallow
    obtain ⟨hhost, hport, -, path, hpath, hbinary⟩ := allowConnection_draft.mp hallow
    refine ⟨denial, hmem,
      ((endpointHostMatches_of_notMem (h.host hreached)).mp hhost).symm, hport, ?_⟩
    have heq : denial.binary = path := (binaryMatches_of_notMem (h.binary hreached)).mp hbinary
    rw [heq]
    exact hpath
  request := by
    rintro ⟨d, hd, hl7⟩ connection request hpasses
    obtain ⟨hallow, hsamples⟩ := requestPasses_draft.mp hpasses
    have hne : samplesOf denials ≠ [] := by
      rcases hl7 with hactive | hsome
      · exact h.inspected (reached_of_allowConnection hallow) ⟨d, hd, hactive⟩
      · obtain ⟨sample, hs⟩ := List.exists_mem_of_ne_nil _ hsome
        exact List.ne_nil_of_mem (List.mem_flatMap.mpr ⟨d, hd, hs⟩)
    obtain ⟨sample, hs, hadmits⟩ := hsamples.resolve_left hne
    have hplain := (h.samples sample hs).2
    exact ⟨method_of_sampleAdmits hplain hs hadmits, path_of_sampleAdmits hplain hs hadmits⟩
  sampled := by
    intro d hd sample hs ancestors request hmethod hpath
    have hsample : sample ∈ samplesOf denials := List.mem_flatMap.mpr ⟨d, hd, hs⟩
    obtain ⟨hreached, hplain⟩ := h.samples sample hsample
    have heq := hkey d hd
    simp only [DenialSummary.key, Prod.mk.injEq] at heq
    obtain ⟨hh, hp, hb⟩ := heq
    refine requestPasses_draft.mpr
      ⟨allowConnection_draft.mpr ⟨?_, hp, hreached.1, d.binary, ?_, ?_⟩,
      Or.inr ⟨sample, hsample, sampleAdmits_self hplain hmethod hpath⟩⟩
    · exact (endpointHostMatches_of_notMem (h.host hreached)).mpr (congrArg _ hh.symm)
    · exact List.mem_cons_self
    · exact (binaryMatches_of_notMem (h.binary hreached)).mpr hb.symm
  hitCount := (castSigned_totalCount_iff denials).mpr h.count_lt

/-- The connection to a host from a binary, on the port of the denial. -/
def connectionFrom (denial : DenialSummary) (host path : String) : Connection :=
  { host, port := denial.port, path }

theorem allowConnection_connectionFrom
    (hbinary : denial.binary ≠ "") (hhost : endpointHostMatches rego denial.host host = true)
    (hpath : binaryMatches rego denial.binary path = true) :
    allowConnection rego (draft isAlphanumeric denial.key denials).proposedRule
      (connectionFrom denial host path) = true :=
  allowConnection_draft.mpr ⟨hhost, rfl, hbinary, path, List.mem_cons_self, hpath⟩

variable (h : GrantsDenials engine glob denials (draft isAlphanumeric denial.key denials))
  (hreached : Reached engine denial)
include h hreached

/-- A wildcard host that matches anything matches a host that was not denied. -/
theorem host_plain_of_grants (hkey : ∀ d ∈ denials, d.key = denial.key) :
    '*' ∉ denial.host.toList := by
  intro hstar
  obtain ⟨hbinary, ⟨host, hhost⟩, path, hpath⟩ := hreached
  have hglob : ∀ host', endpointHostMatches engine denial.host host' =
      engine.globMatch (engine.lower denial.host) ["."] (engine.lower host') :=
    fun _ => if_pos (containsChar_iff.mpr hstar)
  -- every host the pattern matches is the pattern, so the pattern matches itself
  have honly : ∀ host', endpointHostMatches engine denial.host host' = true →
      engine.lower host' = engine.lower denial.host := by
    intro host' hhost'
    obtain ⟨d, hd, hlower, -⟩ :=
      h.connection _ (allowConnection_connectionFrom hbinary hhost' hpath)
    have heq : d.host = denial.host := congrArg Prod.fst (hkey d hd)
    rw [← heq]
    exact hlower
  have hself : engine.globMatch (engine.lower denial.host) ["."]
      (engine.lower denial.host) = true := by
    have hmatch := hhost
    rw [hglob, honly host hhost] at hmatch
    exact hmatch
  obtain ⟨other, hother, hne⟩ := engine.other_host hstar hself
  exact hne (honly other ((hglob other).trans hother))

/-- A wildcard binary that matches anything matches a binary that was not denied. -/
theorem binary_plain_of_grants (hkey : ∀ d ∈ denials, d.key = denial.key) :
    '*' ∉ denial.binary.toList := by
  intro hstar
  obtain ⟨hbinary, ⟨host, hhost⟩, path, hpath⟩ := hreached
  have hglob : ∀ path', binaryMatches engine denial.binary path' =
      engine.globMatch denial.binary ["/"] path' := fun _ => if_pos (containsChar_iff.mpr hstar)
  have honly : ∀ path', binaryMatches engine denial.binary path' = true →
      path' = denial.binary := by
    intro path' hpath'
    obtain ⟨d, hd, -, -, hmem⟩ :=
      h.connection _ (allowConnection_connectionFrom hbinary hhost hpath')
    have heq : d.binary = denial.binary := congrArg (fun k => k.2.2) (hkey d hd)
    rw [heq] at hmem
    exact (List.mem_singleton.mp hmem).symm
  have hself : engine.globMatch denial.binary ["/"] denial.binary = true := by
    have hmatch := hpath
    rw [hglob, honly path hpath] at hmatch
    exact hmatch
  obtain ⟨other, hother, hne⟩ := engine.other_match (not_globLiteral_of_mem hstar) hself
  exact hne (honly other ((hglob other).trans hother))

/-- An inspected group without samples would let every request pass. -/
theorem samples_ne_nil_of_grants (hactive : ∃ d ∈ denials, d.l7InspectionActive = true) :
    samplesOf denials ≠ [] := by
  intro hnil
  obtain ⟨hbinary, ⟨host, hhost⟩, path, hpath⟩ := hreached
  obtain ⟨d, hd, hactive⟩ := hactive
  have hallow : allowConnection engine
      (draft isAlphanumeric denial.key denials).proposedRule
      (connectionFrom denial host path) = true :=
    allowConnection_connectionFrom hbinary hhost hpath
  obtain ⟨⟨sample, hs, -⟩, -⟩ :=
    h.request ⟨d, hd, Or.inl hactive⟩ _ { method := "GET", path := "/" }
    (requestPasses_draft.mpr ⟨hallow, Or.inl hnil⟩)
  rw [hnil] at hs
  cases hs

omit hreached in
/-- A sample that is let through comes from a denial something can match. -/
theorem reached_of_grants {sample : L7RequestSample} (hs : sample ∈ samplesOf denials) :
    Reached engine denial := by
  obtain ⟨d, hd, hs⟩ := List.mem_flatMap.mp hs
  have hpasses := h.sampled d hd sample hs []
    { method := sample.method, path := withoutQuery sample.path } rfl rfl
  exact reached_of_allowConnection (requestPasses_draft.mp hpasses).1

end Group

/-! ## One sample -/

section OneSample

variable {engine : GlobEngine} {glob : Glob} {isAlphanumeric : Char → Bool} {denial : DenialSummary}
  {sample : L7RequestSample}

variable (hone : denial.l7RequestSamples = [sample])
  (h : GrantsDenials engine glob [denial] (draft isAlphanumeric denial.key [denial]))
include hone h

/-- Its own rule admits the sample, and every request it admits is a sampled one. -/
theorem admits_of_grants :
    SampleAdmits engine sample
        { method := sample.method, path := withoutQuery sample.path } ∧
      ∀ request, SampleAdmits engine sample request →
        SampledMethod engine [sample] request.method ∧
          SampledPath [sample] request.path := by
  have hsamples : samplesOf [denial] = [sample] := by
    simp [samplesOf, hone]
  have hmem : sample ∈ denial.l7RequestSamples := hone ▸ List.mem_singleton_self _
  have hpasses := h.sampled denial (List.mem_singleton_self _) sample hmem []
    { method := sample.method, path := withoutQuery sample.path } rfl rfl
  obtain ⟨hallow, hadmits⟩ := requestPasses_draft.mp hpasses
  rw [hsamples] at hadmits
  obtain ⟨s, hs, hadmits⟩ := hadmits.resolve_left (List.cons_ne_nil _ _)
  rw [List.mem_singleton] at hs
  subst hs
  refine ⟨hadmits, fun request hrequest => ?_⟩
  have hl7 : ∃ d ∈ [denial], d.l7InspectionActive = true ∨ d.l7RequestSamples ≠ [] :=
    ⟨denial, List.mem_singleton_self _, Or.inr (List.ne_nil_of_mem hmem)⟩
  have hresult :=
    h.request hl7 _ request (requestPasses_draft.mpr ⟨hallow, Or.inr ⟨s, ?_, hrequest⟩⟩)
  · rwa [hsamples] at hresult
  · rw [hsamples]
    exact List.mem_singleton_self _

/-- A sample whose rule is read back as the sample is plain. -/
theorem plainSample_of_grants : PlainSample sample := by
  obtain ⟨⟨hmethod, hpath, hmatches, hglob⟩, honly⟩ := admits_of_grants hone h
  -- the requests with the sample's method
  have hpaths : ∀ path, pathMatches engine path (generalisePath sample.path) = true →
      path = withoutQuery sample.path ∨ ∃ base last segment,
        EndsInId (withoutQuery sample.path) base last ∧ '/' ∉ segment.toList ∧
          path = base ++ "/" ++ segment := by
    intro path hmatch
    obtain ⟨s, hs, hsampled⟩ :=
      (honly { method := sample.method, path } ⟨hmethod, hpath, hmatches, hmatch⟩).2
    rw [List.mem_singleton] at hs
    exact hs ▸ hsampled
  refine ⟨hmethod, ?_, ?_, ?_⟩
  · intro hstar
    have hany : methodMatches engine "DELETE" sample.method = true := by
      simp [methodMatches, hstar]
    obtain ⟨s, hs, hsampled⟩ :=
      (honly { method := "DELETE", path := withoutQuery sample.path }
        ⟨hmethod, hpath, hany, hglob⟩).1
    rw [List.mem_singleton] at hs
    rw [hs, hstar, engine.upper_eq "DELETE" (by decide),
      engine.upper_eq "*" (by decide)] at hsampled
    exact absurd hsampled (by decide)
  · intro hempty
    rcases generalisePath_cases sample.path with ⟨base, last, ⟨-, -, heq⟩, -⟩ | ⟨-, hrule, -⟩
    · rw [hempty] at heq
      simpa using congrArg String.toList heq
    · exact hpath (hrule.trans hempty)
  · rcases generalisePath_cases sample.path with ⟨base, last, hid, hrule, hkept⟩ | ⟨hid,
      hrule, hkept⟩
    · rw [hrule] at hglob hpaths
      rw [hkept]
      by_contra hliteral
      rw [pathMatches_slash_star, hid.2.2] at hglob
      obtain ⟨text, htext, hother⟩ := engine.other_base hliteral hid.1 hglob
      rcases hpaths text ((pathMatches_slash_star base).trans htext) with heq | hsame
      · exact hother last hid.1 (heq.trans hid.2.2)
      · obtain ⟨base', last', segment, hid', hsegment, heq⟩ := hsame
        -- a path is cut at its last slash in one way
        rw [← (segments_of_endsInId hid').2.2, (segments_of_endsInId hid).2.2] at heq
        exact hother segment hsegment heq
    · rw [hrule] at hglob hpaths
      rw [hkept]
      have hexact : ∀ path, pathMatches engine path (withoutQuery sample.path) = true →
          path = withoutQuery sample.path := by
        intro path hmatch
        rcases hpaths path hmatch with heq | ⟨base, last, -, hid', -⟩
        · exact heq
        · exact absurd hid' (hid base last)
      by_cases hall : withoutQuery sample.path = "**"
      · have hslash := hexact "/" (by rw [hall]; rfl)
        rw [hall] at hslash
        exact absurd hslash (by decide)
      · by_contra hliteral
        rw [pathMatches_of_ne hall] at hglob
        obtain ⟨text, htext, hne⟩ := engine.other_match hliteral hglob
        exact hne (hexact text ((pathMatches_of_ne hall).trans htext))

end OneSample

/-! ## The proposals -/

theorem denialsOf_self (denial : DenialSummary) : denialsOf [denial] denial.key = [denial] := by
  simp [denialsOf]

theorem key_of_mem_denialsOf (summaries : List DenialSummary) (denial : DenialSummary) :
    ∀ d ∈ denialsOf summaries denial.key, d.key = denial.key :=
  fun _ hd => (mem_denialsOf.mp hd).2

/-- The proposals for a list of denials grant what was denied and no more if every group that
gets one is expressible. -/
theorem grantsOnlyDenied_of_expressible {engine : GlobEngine} {glob : Glob}
    {isAlphanumeric : Char → Bool} {summaries : List DenialSummary}
    (h : ∀ denial ∈ summaries, isAlwaysBlockedDestination denial.host = false →
      Expressible engine.toRegoBuiltins denial (denialsOf summaries denial.key)) :
    GrantsOnlyDenied engine.toRegoBuiltins glob isAlphanumeric summaries := by
  refine grantsOnlyDenied_iff_groups.mpr fun denial hd hblocked => ?_
  exact grantsDenials_of_expressible (mem_denialsOf.mpr ⟨hd, rfl⟩)
    (key_of_mem_denialsOf summaries denial) (h denial hd hblocked)

/-- Over a kind of observation, the proposals grant what was denied and no more exactly
if every group that gets a proposal is expressible: its counts add up to less than
`2 ^ 31`; if a connection can match its host and binary, neither has a wildcard and
an inspected group has a sample; and every sample is plain and comes from a denial a
connection can match. -/
theorem grantsOnlyDenied_iff (engine : GlobEngine) (glob : Glob) (isAlphanumeric : Char → Bool)
    (kind : DenialKind) :
    (∀ summaries, kind.holds summaries →
      GrantsOnlyDenied engine.toRegoBuiltins glob isAlphanumeric summaries) ↔
    ∀ summaries, kind.holds summaries → ∀ denial ∈ summaries,
      isAlwaysBlockedDestination denial.host = false →
        Expressible engine.toRegoBuiltins denial (denialsOf summaries denial.key) := by
  constructor
  · intro h summaries hkind denial hd hblocked
    have hgrants := grantsOnlyDenied_iff_groups.mp (h summaries hkind) denial hd hblocked
    have hkey := key_of_mem_denialsOf summaries denial
    refine ⟨(castSigned_totalCount_iff _).mp hgrants.hitCount,
      fun hreached => host_plain_of_grants hgrants hreached hkey,
      fun hreached => binary_plain_of_grants hgrants hreached hkey,
      samples_ne_nil_of_grants hgrants, ?_⟩
    intro sample hs
    refine ⟨reached_of_grants hgrants hs, ?_⟩
    -- the sample alone is an observation of the kind
    obtain ⟨d, hd', hsample⟩ := List.mem_flatMap.mp hs
    obtain ⟨hmem, hdkey⟩ := mem_denialsOf.mp hd'
    have hone := grantsOnlyDenied_iff_groups.mp (h _ (kind.holds_one hkind hmem hsample)) _
      (List.mem_singleton_self _) (by rw [← hblocked]; exact congrArg _ (congrArg Prod.fst hdkey))
    rw [denialsOf_self] at hone
    exact plainSample_of_grants rfl hone
  · intro h summaries hkind
    exact grantsOnlyDenied_of_expressible (h summaries hkind)

/-- A denied request with the method `*`. -/
def starDenial : DenialSummary where
  host := "api.example.com"
  port := 443
  binary := "/usr/bin/curl"
  count := 1
  l7RequestSamples := [{ method := "*", path := "/v1/models" }]
  l7InspectionActive := true

/-- A denied connection to a host with a wildcard, without inspection. -/
def starHostDenial : DenialSummary :=
  { starDenial with host := "*.example.com", l7RequestSamples := [], l7InspectionActive := false }

/-- Approving the proposal for the method lets the binary delete what it asked for, whatever the
engine; approving the one for the host opens other hosts, if the engine reads the pattern at all. -/
theorem not_grantsOnlyDenied_star :
    (¬ ∃ (engine : GlobEngine) (glob : Glob) (isAlphanumeric : Char → Bool),
      GrantsOnlyDenied engine.toRegoBuiltins glob isAlphanumeric [starDenial]) ∧
    ¬ ∃ (engine : GlobEngine) (glob : Glob) (isAlphanumeric : Char → Bool),
      endpointHostMatches engine.toRegoBuiltins "*.example.com" "api.example.com" = true ∧
        GrantsOnlyDenied engine.toRegoBuiltins glob isAlphanumeric [starHostDenial] := by
  constructor
  · rintro ⟨engine, glob, isAlphanumeric, h⟩
    have hgrants :=
      grantsOnlyDenied_iff_groups.mp h starDenial (List.mem_singleton_self _) (by decide)
    rw [denialsOf_self] at hgrants
    exact (plainSample_of_grants rfl hgrants).method_ne_star rfl
  · rintro ⟨engine, glob, isAlphanumeric, hhost, h⟩
    have hgrants :=
      grantsOnlyDenied_iff_groups.mp h starHostDenial (List.mem_singleton_self _) (by decide)
    have hbinary : binaryMatches engine.toRegoBuiltins "/usr/bin/curl" "/usr/bin/curl" = true :=
      (binaryMatches_of_notMem (by decide)).mpr rfl
    have hreached : Reached engine.toRegoBuiltins starHostDenial :=
      ⟨by decide, ⟨_, hhost⟩, _, hbinary⟩
    have hplain := host_plain_of_grants hgrants hreached (key_of_mem_denialsOf _ _)
    exact absurd hplain (by decide)

end OpenShell.Sandbox
