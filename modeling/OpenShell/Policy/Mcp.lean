import Mathlib.Data.List.Sort
import Mathlib.Data.String.Basic
import OpenShell.Policy.Types
import OpenShell.Util.Text

/-!
# MCP options in canonical form

An MCP endpoint may omit its protocol revisions on the wire. Every checked
boundary fills in the pinned default and sorts the allowlist, so that two
policies that mean the same are stored alike. `canonicalizeEndpoint` is what
that does to one endpoint; it changes nothing but `mcp`, and nothing at all on
an endpoint that is already canonical (`canonicalizeEndpoint_eq_self`).
-/

namespace OpenShell.Policy

/-! ## Protocol revisions -/

/-- The MCP protocol revisions the policy schema supports. -/
inductive McpProtocolVersion
  | v20250326 | v20250618 | v20251125 | v20260728
  deriving DecidableEq

def McpProtocolVersion.asStr : McpProtocolVersion → String
  | .v20250326 => "2025-03-26"
  | .v20250618 => "2025-06-18"
  | .v20251125 => "2025-11-25"
  | .v20260728 => "2026-07-28"

/-- Canonical semantic order, the order of the declaration. -/
def McpProtocolVersion.rank : McpProtocolVersion → Nat
  | .v20250326 => 0
  | .v20250618 => 1
  | .v20251125 => 2
  | .v20260728 => 3

def McpProtocolVersion.parse (value : String) : Option McpProtocolVersion :=
  if value = "2025-03-26" then some .v20250326
  else if value = "2025-06-18" then some .v20250618
  else if value = "2025-11-25" then some .v20251125
  else if value = "2026-07-28" then some .v20260728
  else none

def defaultMcpProtocolVersion : McpProtocolVersion := .v20251125

/-- The comparison the allowlist is sorted by: supported revisions first, in
semantic order, then the others as text. -/
def mcpVersionLe (left right : String) : Bool :=
  match McpProtocolVersion.parse left, McpProtocolVersion.parse right with
  | some l, some r => decide (l.rank ≤ r.rank)
  | some _, none => true
  | none, some _ => false
  | none, none => decide (left ≤ right)

theorem mcpVersionLe_total (left right : String) :
    mcpVersionLe left right = true ∨ mcpVersionLe right left = true := by
  unfold mcpVersionLe
  cases McpProtocolVersion.parse left <;> cases McpProtocolVersion.parse right
  · simpa using le_total left right
  · exact Or.inr rfl
  · exact Or.inl rfl
  · simpa using le_total _ _

theorem mcpVersionLe_trans {a b c : String} (hab : mcpVersionLe a b = true)
    (hbc : mcpVersionLe b c = true) : mcpVersionLe a c = true := by
  revert hab hbc
  unfold mcpVersionLe
  cases McpProtocolVersion.parse a <;> cases McpProtocolVersion.parse b <;>
    cases McpProtocolVersion.parse c <;> simp only [decide_eq_true_eq] <;> intro hab hbc
  all_goals first | exact trivial | exact absurd hab (by decide) | exact absurd hbc (by decide) |
    exact le_trans hab hbc

/-- The order as a relation. -/
def McpVersionLe (left right : String) : Prop := mcpVersionLe left right = true

instance : DecidableRel McpVersionLe := fun left right =>
  inferInstanceAs (Decidable (mcpVersionLe left right = true))

instance : Std.Total McpVersionLe := ⟨mcpVersionLe_total⟩

instance : IsTrans String McpVersionLe := ⟨fun _ _ _ => mcpVersionLe_trans⟩

def canonicalizeMcpVersions (versions : List String) : List String :=
  versions.insertionSort McpVersionLe

theorem canonicalizeMcpVersions_idem (versions : List String) :
    canonicalizeMcpVersions (canonicalizeMcpVersions versions)
      = canonicalizeMcpVersions versions :=
  (List.pairwise_insertionSort McpVersionLe versions).insertionSort_eq

/-! ## Endpoints -/

def isMcpProtocol (protocol : String) : Bool := eqIgnoreAsciiCase protocol "mcp"

def defaultMcpVersions : List String := [defaultMcpProtocolVersion.asStr]

def canonicalizeMcpOptions (options : McpOptions) : McpOptions :=
  { options with versions := canonicalizeMcpVersions options.versions }

/-- The body of `materialize_default_mcp_versions`, for one endpoint. -/
def materializeEndpoint (endpoint : NetworkEndpoint) : NetworkEndpoint :=
  if !isMcpProtocol endpoint.protocol then endpoint
  else
    let options := endpoint.mcp.getD {}
    { endpoint with
      mcp := some (if options.versions.isEmpty then { options with versions := defaultMcpVersions }
        else options) }

/-- The body of `canonicalize_mcp_version_allowlists`, for one endpoint. -/
def canonicalizeAllowlist (endpoint : NetworkEndpoint) : NetworkEndpoint :=
  { endpoint with mcp := endpoint.mcp.map canonicalizeMcpOptions }

/-- Apply a function to every endpoint of a policy. -/
def mapEndpoints (f : NetworkEndpoint → NetworkEndpoint) (policy : SandboxPolicy) :
    SandboxPolicy :=
  { policy with
    networkPolicies := policy.networkPolicies.map fun _ rule =>
      { rule with endpoints := rule.endpoints.map f } }

def materializeDefaultMcpVersions (policy : SandboxPolicy) : SandboxPolicy :=
  mapEndpoints materializeEndpoint policy

def canonicalizeMcpVersionAllowlists (policy : SandboxPolicy) : SandboxPolicy :=
  mapEndpoints canonicalizeAllowlist policy

/-- What both passes together do to one endpoint. -/
def canonicalizeEndpoint (endpoint : NetworkEndpoint) : NetworkEndpoint :=
  canonicalizeAllowlist (materializeEndpoint endpoint)

/-! ## Canonical endpoints -/

/-- MCP options as a checked boundary leaves them: materialized on an MCP
endpoint, and sorted. -/
structure McpCanonical (endpoint : NetworkEndpoint) : Prop where
  materialized : isMcpProtocol endpoint.protocol = true →
    ∃ options, endpoint.mcp = some options ∧ options.versions ≠ []
  sorted : ∀ options, endpoint.mcp = some options →
    canonicalizeMcpVersions options.versions = options.versions

theorem canonicalizeMcpVersions_ne_nil {versions : List String} (h : versions ≠ []) :
    canonicalizeMcpVersions versions ≠ [] := by
  intro he
  have hlen := List.length_insertionSort McpVersionLe versions
  rw [show versions.insertionSort McpVersionLe = [] from he] at hlen
  exact h (List.length_eq_zero_iff.mp hlen.symm)

variable (endpoint : NetworkEndpoint)

/-- Nothing but the MCP options changes. -/
theorem canonicalizeEndpoint_eq :
    canonicalizeEndpoint endpoint
      = { endpoint with mcp := (canonicalizeEndpoint endpoint).mcp } := by
  unfold canonicalizeEndpoint canonicalizeAllowlist materializeEndpoint
  split <;> rfl

theorem canonicalizeEndpoint_canonical :
    McpCanonical (canonicalizeEndpoint endpoint) := by
  have hsorted : ∀ e : NetworkEndpoint, ∀ options, (canonicalizeAllowlist e).mcp = some options →
      canonicalizeMcpVersions options.versions = options.versions := by
    intro e options h
    obtain ⟨o, -, rfl⟩ := Option.map_eq_some_iff.mp h
    exact canonicalizeMcpVersions_idem o.versions
  refine ⟨?_, hsorted _⟩
  intro hmcp
  rw [canonicalizeEndpoint_eq] at hmcp
  have hp : ¬ (!isMcpProtocol endpoint.protocol) = true := by
    rw [show isMcpProtocol endpoint.protocol = true from hmcp]
    decide
  unfold canonicalizeEndpoint canonicalizeAllowlist materializeEndpoint
  rw [if_neg hp]
  refine ⟨_, rfl, canonicalizeMcpVersions_ne_nil ?_⟩
  split
  next => simp [defaultMcpVersions]
  next hne => simpa using hne

/-- A canonical endpoint is left alone. -/
theorem canonicalizeEndpoint_eq_self {endpoint : NetworkEndpoint} (h : McpCanonical endpoint) :
    canonicalizeEndpoint endpoint = endpoint := by
  have hallow : canonicalizeAllowlist endpoint = endpoint := by
    unfold canonicalizeAllowlist
    cases hm : endpoint.mcp with
    | none => rw [Option.map_none, ← hm]
    | some options =>
      have hs := h.sorted options hm
      rw [Option.map_some, canonicalizeMcpOptions, hs, ← hm]
  have hmat : materializeEndpoint endpoint = endpoint := by
    unfold materializeEndpoint
    split
    next => rfl
    next hp =>
      obtain ⟨options, hm, hne⟩ := h.materialized (by simpa using hp)
      simp only [hm, Option.getD_some]
      rw [if_neg (by simpa using hne), ← hm]
  rw [canonicalizeEndpoint, hmat, hallow]

theorem canonicalizeEndpoint_idem :
    canonicalizeEndpoint (canonicalizeEndpoint endpoint) = canonicalizeEndpoint endpoint :=
  canonicalizeEndpoint_eq_self (canonicalizeEndpoint_canonical endpoint)

end OpenShell.Policy
