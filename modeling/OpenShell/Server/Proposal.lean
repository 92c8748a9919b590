import OpenShell.Policy.Merge.Operations
import OpenShell.Util.Fresh
import Std.Data.String.ToNat

/-!
# Advisor proposals

The gateway marks every endpoint of a proposal as proposed by the advisor, picks
the rule the proposal goes to, and merges it into the base policy. A mechanistic
proposal is an observation: if the effective policy has one contract for its
destination, the proposal takes that contract over.
-/

namespace OpenShell.Server

open OpenShell.Policy

/-! ## Choosing the rule -/

/-- The requested name, then the name with a number. -/
def numberedName (requested : String) : Nat → String
  | 0 => requested
  | i + 1 => requested ++ "_" ++ toString (i + 2)

def isTaken (base effective : SandboxPolicy) (name : String) : Bool :=
  base.networkPolicies.contains name || effective.networkPolicies.contains name

def availableProposalRuleName (base effective : SandboxPolicy) (requested : String) : String :=
  firstFree (isTaken base effective) (numberedName requested)
    (base.networkPolicies.keys ++ effective.networkPolicies.keys).length 0

theorem numberedName_injective (requested : String) :
    Function.Injective (numberedName requested) := by
  have hne : ∀ i, numberedName requested (i + 1) ≠ requested := by
    intro i h
    have hlen := congrArg (fun s => s.toList.length) h
    simp [numberedName] at hlen
  intro i j h
  match i, j, h with
  | 0, 0, _ => rfl
  | 0, j + 1, h => exact absurd h.symm (hne j)
  | i + 1, 0, h => exact absurd h (hne i)
  | i + 1, j + 1, h =>
    have hs := congrArg String.toList h
    simp only [numberedName, String.toList_append, List.append_assoc,
      List.append_cancel_left_eq] at hs
    have hij := Nat.repr_inj.mp (String.toList_inj.mp hs)
    omega

/-- The chosen name is free in both policies. -/
theorem availableProposalRuleName_free (base effective : SandboxPolicy) (requested : String) :
    isTaken base effective (availableProposalRuleName base effective requested) = false := by
  have hkeys : ∀ name, isTaken base effective name = true →
      name ∈ base.networkPolicies.keys ++ effective.networkPolicies.keys := by
    intro name htaken
    simp only [isTaken, Bool.or_eq_true, Std.ExtTreeMap.contains_iff_mem] at htaken
    rw [List.mem_append, Std.ExtTreeMap.mem_keys, Std.ExtTreeMap.mem_keys]
    exact htaken
  exact firstFree_not_taken (numberedName_injective requested) hkeys (by omega) (by omega)

theorem getElem?_availableProposalRuleName (base effective : SandboxPolicy) (requested : String) :
    base.networkPolicies[availableProposalRuleName base effective requested]? = none := by
  have hfree := availableProposalRuleName_free base effective requested
  simp only [isTaken, Bool.or_eq_false_iff] at hfree
  exact Std.ExtTreeMap.getElem?_eq_none_of_contains_eq_false hfree.1

/-! ## Canonicalizing an observation -/

/-- An endpoint without the marks of its provenance. -/
def clearProvenance (endpoint : NetworkEndpoint) : NetworkEndpoint :=
  { endpoint with providerCredentialed := false, advisorProposed := false, tokenGrantOwner := "" }

/-- The one endpoint and port an observation is about. -/
def observedDestination (rule : NetworkPolicyRule) : Option (NetworkEndpoint × Nat) :=
  match rule.endpoints with
  | [endpoint] =>
    if rule.binaries.isEmpty || isEmptyStr (trim endpoint.host) then none
    else
      match canonicalPorts endpoint with
      | [port] => some (endpoint, port)
      | _ => none
  | _ => none

/-- The distinct contracts of a destination, each at this one port. -/
def destinationContracts (effective : SandboxPolicy) (host : String) (port : Nat) :
    List NetworkEndpoint :=
  dedupFirst
    (((effective.networkPolicies.toList.flatMap fun entry => entry.2.endpoints).filter
      fun endpoint => endpointMatchesHostPort endpoint host port).map fun endpoint =>
        normalizeEndpoint { clearProvenance endpoint with port, ports := [port] })

/-- The endpoint has this contract. -/
def hasContract (contract endpoint : NetworkEndpoint) : Bool :=
  normalizeEndpoint (clearProvenance endpoint) == contract

/-- The first sandbox-owned rule, by name, that has the contract and authorizes
the binaries already. -/
def sandboxOwner (base : SandboxPolicy) (contract : NetworkEndpoint)
    (binaries : List NetworkBinary) : Option (String × NetworkPolicyRule) :=
  base.networkPolicies.toList.find? fun entry =>
    !isProviderRuleName entry.1 && entry.2.endpoints.any (hasContract contract) &&
      binaries.all (binaryScopeCovers entry.2)

/-- Rewrite an observation against the effective policy. -/
def canonicalizeAdvisorAddRule (base effective : SandboxPolicy) (requested : String)
    (incoming : NetworkPolicyRule) : Except String (String × NetworkPolicyRule) :=
  match observedDestination incoming with
  | none => .ok (requested, incoming)
  | some (endpoint, port) =>
    match destinationContracts effective endpoint.host port with
    | [] => .ok (requested, incoming)
    | [contract] =>
      let (name, advisorProposed) :=
        match sandboxOwner base contract incoming.binaries with
        | some (owner, rule) =>
          (owner, ((rule.endpoints.find? (hasContract contract)).map (·.advisorProposed)).getD
            contract.advisorProposed)
        | none => (availableProposalRuleName base effective requested, endpoint.advisorProposed)
      .ok (name, { incoming with name, endpoints := [{ contract with advisorProposed }] })
    | _ =>
      .error s!"cannot infer one existing endpoint contract for {endpoint.host}:{port}"

/-! ## Evaluating a proposal -/

inductive ProposalError
  | canonicalization (error : String)
  | merge (error : PolicyMergeError)

def markAdvisorProposed (rule : NetworkPolicyRule) : NetworkPolicyRule :=
  { rule with endpoints := rule.endpoints.map fun e => { e with advisorProposed := true } }

/-- The rule and key a proposal is merged under. -/
def proposalCandidate (base effective : SandboxPolicy) (requested : String)
    (proposed : NetworkPolicyRule) (analysisMode : String) :
    Except String (String × NetworkPolicyRule) :=
  let proposed := markAdvisorProposed proposed
  if analysisMode = "mechanistic" then
    canonicalizeAdvisorAddRule base effective requested proposed
  else
    let name := availableProposalRuleName base effective requested
    .ok (name, { proposed with name })

/-- `evaluate_proposal_candidate` up to the merged base policy. -/
def evaluateProposalCandidate (ext : External) (base effective : SandboxPolicy)
    (requested : String) (proposed : NetworkPolicyRule) (analysisMode : String) :
    Except ProposalError PolicyMergeResult := do
  let (name, rule) ←
    (proposalCandidate base effective requested proposed analysisMode).mapError .canonicalization
  (mergePolicy ext base [.addRule name rule]).mapError .merge

end OpenShell.Server
