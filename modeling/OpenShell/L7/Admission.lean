import OpenShell.Core.EndpointPath
import OpenShell.L7.EndpointData

/-!
# Admission by one network rule

The part of `sandbox-policy.rego` that admits a connection by host, port and
binary, and the requests of an admitted connection. Deny rules are not part of
it: `allowRequest` is `allow_request` for a rule without them.
-/

namespace OpenShell.L7

open OpenShell.Policy OpenShell.Core

/-- `input.network` and `input.exec`: where a connection goes, and the process it
comes from with that process's ancestors. -/
structure Connection where
  host : String
  port : Nat
  path : String
  ancestors : List String := []

section Admission

variable (rego : RegoBuiltins) (glob : Glob) (rule : NetworkPolicyRule) (connection : Connection)

/-- The ports of the endpoint data: `ports` takes precedence over `port`. -/
def dataPorts (endpoint : NetworkEndpoint) : List Nat :=
  if !endpoint.ports.isEmpty then endpoint.ports
  else if 0 < endpoint.port then [endpoint.port] else []

/-- The host part of `endpoint_matches_request` for an endpoint with a host. -/
def endpointHostMatches (pattern host : String) : Bool :=
  if containsChar pattern '*' then rego.globMatch (rego.lower pattern) ["."] (rego.lower host)
  else rego.lower pattern == rego.lower host

/-- A hostless endpoint with allowed addresses matches on the port only. -/
def endpointMatchesRequest (endpoint : NetworkEndpoint) (connection : Connection) : Bool :=
  (endpointHostMatches rego endpoint.host connection.host ||
      (isEmptyStr endpoint.host && !endpoint.allowedIps.isEmpty)) &&
    (dataPorts endpoint).contains connection.port

/-- Whether a binary of the rule names the executable at a path. -/
def binaryMatches (pattern path : String) : Bool :=
  if containsChar pattern '*' then rego.globMatch pattern ["/"] path else pattern == path

/-- `binary_allowed`, with binary identity required: the process or one of its
ancestors runs a binary of the rule. -/
def binaryAllowed : Bool :=
  rule.binaries.any fun binary =>
    (connection.path :: connection.ancestors).any fun path => binaryMatches rego binary.path path

/-- `network_policy_for_request` for a policy of one rule. -/
def allowConnection : Bool :=
  rule.endpoints.any (endpointMatchesRequest rego · connection) &&
    binaryAllowed rego rule connection

/-- `endpoint_matches_l7_request`. -/
def endpointMatchesL7Request (endpoint : NetworkEndpoint) (connection : Connection)
    (request : L7Request) : Bool :=
  endpointMatchesRequest rego endpoint connection &&
    (isEmptyStr endpoint.path || endpointPathMatches glob endpoint.path request.path)

/-- `allow_request` for a policy of one rule without deny rules. -/
def allowRequest (request : L7Request) : Bool :=
  binaryAllowed rego rule connection && rule.endpoints.any fun endpoint =>
    endpointMatchesL7Request rego glob endpoint connection request &&
      rulesAllow rego (runtimeEndpoint endpoint) request

/-- An endpoint with a protocol other than plain `tcp` has its requests inspected. -/
def inspects (endpoint : NetworkEndpoint) : Bool :=
  let protocol := (runtimeEndpoint endpoint).protocol
  !isEmptyStr protocol && rego.lower protocol != "tcp"

/-- The requests of an admitted connection pass uninspected unless an inspecting
endpoint matches it; an endpoint that only audits lets every request pass. -/
def requestPasses (request : L7Request) : Bool :=
  allowConnection rego rule connection &&
    ((rule.endpoints.all fun endpoint =>
        !(endpointMatchesRequest rego endpoint connection && inspects rego endpoint &&
          networkEnforcementModeToStr endpoint.enforcement == some "enforce")) ||
      allowRequest rego glob rule connection request)

end Admission

/-! ## What is used of `glob.match` -/

/-- The characters `glob.match` does not read as themselves. -/
def isGlobSpecial (c : Char) : Bool := ['*', '?', '[', '{', '}', '\\'].contains c

/-- A text that is its own only match. -/
def GlobLiteral (s : String) : Prop := ∀ c ∈ s.toList, isGlobSpecial c = false

instance (s : String) : Decidable (GlobLiteral s) := by
  unfold GlobLiteral
  infer_instance

/-- The Rego engine with the documented behaviour of its `glob.match`. A literal
pattern matches itself only, and `*` at the end matches one path segment. A
pattern with a special character is not the one-text pattern it looks like: it
does not match its own text, or it matches others as well. -/
structure GlobEngine extends RegoBuiltins where
  match_literal : ∀ {pattern : String} (delimiters : List String) (text : String),
    GlobLiteral pattern → (globMatch pattern delimiters text = true ↔ text = pattern)
  segment_of_match : ∀ {base text : String}, GlobLiteral base →
    globMatch (base ++ "/*") ["/"] text = true →
      ∃ segment : String, '/' ∉ segment.toList ∧ text = base ++ "/" ++ segment
  match_segment : ∀ {base segment : String}, GlobLiteral base → '/' ∉ segment.toList →
    segment ≠ "" → globMatch (base ++ "/*") ["/"] (base ++ "/" ++ segment) = true
  other_match : ∀ {pattern : String}, ¬ GlobLiteral pattern →
    globMatch pattern ["/"] pattern = true →
      ∃ text, globMatch pattern ["/"] text = true ∧ text ≠ pattern
  other_base : ∀ {base segment : String}, ¬ GlobLiteral base → '/' ∉ segment.toList →
    globMatch (base ++ "/*") ["/"] (base ++ "/" ++ segment) = true →
      ∃ text, globMatch (base ++ "/*") ["/"] text = true ∧
        ∀ last : String, '/' ∉ last.toList → text ≠ base ++ "/" ++ last
  other_host : ∀ {pattern : String}, '*' ∈ pattern.toList →
    globMatch (lower pattern) ["."] (lower pattern) = true →
      ∃ host, globMatch (lower pattern) ["."] (lower host) = true ∧ lower host ≠ lower pattern
  upper_eq : ∀ s : String, s.toList.all (fun c => '!' ≤ c && c ≤ '_') = true → upper s = s
  lower_eq : ∀ s : String, s.toList.all (fun c => 'a' ≤ c && c ≤ 'z') = true → lower s = s

instance : Coe GlobEngine RegoBuiltins := ⟨GlobEngine.toRegoBuiltins⟩

/-- Literal patterns, and one segment after a literal base. -/
def SegmentMatch (pattern text : String) : Prop :=
  (GlobLiteral pattern ∧ text = pattern) ∨ ∃ base segment : String,
    GlobLiteral base ∧ '/' ∉ segment.toList ∧ pattern = base ++ "/*" ∧ text = base ++ "/" ++ segment

theorem not_globLiteral_of_mem {s : String} (h : '*' ∈ s.toList) : ¬ GlobLiteral s := by
  intro hliteral
  exact absurd (hliteral '*' h) (by decide)

theorem not_globLiteral_append_star (base : String) : ¬ GlobLiteral (base ++ "/*") := by
  apply not_globLiteral_of_mem
  rw [String.toList_append]
  exact List.mem_append_right _ (by decide)

theorem segmentMatch_base {base text : String} :
    SegmentMatch (base ++ "/*") text ↔
      GlobLiteral base ∧ ∃ segment : String, '/' ∉ segment.toList ∧
        text = base ++ "/" ++ segment := by
  have hspecial := not_globLiteral_append_star base
  constructor
  · rintro (⟨hliteral, -⟩ | ⟨base', segment, hbase, hsegment, heq, htext⟩)
    · exact absurd hliteral hspecial
    · obtain rfl : base = base' := by
        have hlist := congrArg String.toList heq
        rw [String.toList_append, String.toList_append] at hlist
        exact String.toList_inj.mp (List.append_cancel_right hlist)
      exact ⟨hbase, segment, hsegment, htext⟩
  · rintro ⟨hbase, segment, hsegment, htext⟩
    exact Or.inr ⟨base, segment, hbase, hsegment, rfl, htext⟩

/-- A pattern that is no literal has two matches if it has one. -/
theorem exists_other_segmentMatch {pattern text : String} (hspecial : ¬ GlobLiteral pattern)
    (h : SegmentMatch pattern text) : ∃ other, SegmentMatch pattern other ∧ other ≠ pattern := by
  obtain ⟨hliteral, -⟩ | ⟨base, -, hbase, -, rfl, -⟩ := h
  · exact absurd hliteral hspecial
  · refine ⟨base ++ "/" ++ "a", segmentMatch_base.mpr ⟨hbase, "a", by decide, rfl⟩, fun heq => ?_⟩
    have hlist := congrArg String.toList heq
    simp only [String.toList_append, List.append_assoc] at hlist
    exact absurd (List.append_cancel_left hlist) (by decide)

/-- Some engine behaves as documented. -/
theorem nonempty_globEngine : Nonempty GlobEngine := by
  classical
  have hother : ∀ {pattern : String}, ¬ GlobLiteral pattern →
      decide (SegmentMatch pattern pattern) = true →
      ∃ text, decide (SegmentMatch pattern text) = true ∧ text ≠ pattern := fun hspecial h => by
    obtain ⟨other, hother, hne⟩ := exists_other_segmentMatch hspecial (of_decide_eq_true h)
    exact ⟨other, decide_eq_true hother, hne⟩
  refine ⟨{
    globMatch := fun pattern _ text => decide (SegmentMatch pattern text)
    upper := id
    lower := id
    match_literal := ?_
    segment_of_match := fun _ h => (segmentMatch_base.mp (of_decide_eq_true h)).2
    match_segment := fun hbase hsegment _ =>
      decide_eq_true (segmentMatch_base.mpr ⟨hbase, _, hsegment, rfl⟩)
    other_match := hother
    other_base := fun hbase _ h => absurd (segmentMatch_base.mp (of_decide_eq_true h)).1 hbase
    other_host := fun hstar => hother (not_globLiteral_of_mem hstar)
    upper_eq := fun _ _ => rfl
    lower_eq := fun _ _ => rfl }⟩
  · intro pattern _ text hliteral
    rw [decide_eq_true_iff]
    constructor
    · rintro (⟨-, htext⟩ | ⟨base, -, -, -, rfl, -⟩)
      · exact htext
      · exact absurd hliteral (not_globLiteral_append_star base)
    · exact fun htext => Or.inl ⟨hliteral, htext⟩

end OpenShell.L7
