import OpenShell.Policy.Mcp

/-!
# Endpoints in merge form

Ports as one list, sorted and without repetitions, and list fields without
repetitions.
-/

namespace OpenShell.Policy

/-- The ports of an endpoint: `ports`, or `port` if that list is empty. -/
def canonicalPorts (endpoint : NetworkEndpoint) : List Nat :=
  if !endpoint.ports.isEmpty then endpoint.ports
  else if endpoint.port > 0 then [endpoint.port]
  else []

/-- Set the ports of an endpoint to a sorted list. -/
def withPorts (endpoint : NetworkEndpoint) (ports : List Nat) : NetworkEndpoint :=
  { endpoint with port := ports.headD 0, ports }

def normalizeEndpoint (endpoint : NetworkEndpoint) : NetworkEndpoint :=
  let endpoint := withPorts endpoint (sortDedup (canonicalPorts endpoint))
  { endpoint with
    allowedIps := dedupFirst endpoint.allowedIps
    rules := dedupFirst endpoint.rules
    denyRules := dedupFirst endpoint.denyRules
    mcp := endpoint.mcp.map canonicalizeMcpOptions }

def normalizeRule (rule : NetworkPolicyRule) : NetworkPolicyRule :=
  { rule with
    endpoints := rule.endpoints.map normalizeEndpoint
    binaries := dedupFirst rule.binaries }

theorem canonicalPorts_withPorts (endpoint : NetworkEndpoint) (ports : List Nat) :
    canonicalPorts (withPorts endpoint ports) = ports := by
  unfold canonicalPorts withPorts
  cases ports with
  | nil => rfl
  | cons port rest => rfl

theorem canonicalPorts_normalizeEndpoint (endpoint : NetworkEndpoint) :
    canonicalPorts (normalizeEndpoint endpoint) = sortDedup (canonicalPorts endpoint) :=
  canonicalPorts_withPorts endpoint _

@[simp] theorem mem_canonicalPorts_normalizeEndpoint {endpoint : NetworkEndpoint} {port : Nat} :
    port ∈ canonicalPorts (normalizeEndpoint endpoint) ↔ port ∈ canonicalPorts endpoint := by
  rw [canonicalPorts_normalizeEndpoint, mem_sortDedup]

end OpenShell.Policy
