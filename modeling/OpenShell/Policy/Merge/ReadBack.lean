import OpenShell.Policy.Merge.PortAuthority

/-!
# Reading a merge back

The sandbox waits for an approved rule by asking whether the loaded policy covers
it. A merge without warnings should answer yes at once. Every incoming endpoint
has a home, the endpoint it was merged into or pushed as; `Home` is kept by every
later merge of the fold, with one exception: an uninspected endpoint loses its
home when a later MCP endpoint of the same rule promotes it.
-/

namespace OpenShell.Policy

/-! ## Fragments -/

variable {ext : External} {name name' : String} {endpoint : NetworkEndpoint}

variable {host : String}

variable {presence : McpVersionPresence}

variable {ruleName : String} {rule : NetworkPolicyRule}

variable {existing incoming : NetworkEndpoint}

section Contract

variable {existing incoming merged : NetworkEndpoint} {operationIndex : Nat}
  {warnings : List PolicyMergeWarning}

end Contract

/-! ## Homes -/

/-- An endpoint that sets no field a merge drops. -/
structure DropsNothing (endpoint : NetworkEndpoint) : Prop where
  persistedQueries : endpoint.persistedQueries = ""
  graphqlPersistedQueries : endpoint.graphqlPersistedQueries.isEmpty = true
  graphqlMaxBodyBytes : endpoint.graphqlMaxBodyBytes = 0
  credentialSigning : endpoint.credentialSigning = ""
  signingService : endpoint.signingService = ""
  signingRegion : endpoint.signingRegion = ""
  jsonRpcMaxBodyBytes : isMcpProtocol endpoint.protocol = false → endpoint.jsonRpcMaxBodyBytes = 0

section Homes

variable {existing incoming merged target endpoint : NetworkEndpoint} {operationIndex : Nat}

theorem Widens.trans {a b c : NetworkEndpoint} (hab : Widens a b) (hbc : Widens b c) :
    Widens a c where
  rules rule hr := hab.rules rule (hbc.rules rule hr)
  denyRules rule hr := hab.denyRules rule (hbc.denyRules rule hr)
  allowedIps ip hi := hab.allowedIps ip (hbc.allowedIps ip hi)
  allowEncodedSlash hf := hab.allowEncodedSlash (hbc.allowEncodedSlash hf)
  websocketCredentialRewrite hf :=
    hab.websocketCredentialRewrite (hbc.websocketCredentialRewrite hf)
  requestBodyCredentialRewrite hf :=
    hab.requestBodyCredentialRewrite (hbc.requestBodyCredentialRewrite hf)
  allowUninspectedCredentials hf :=
    hab.allowUninspectedCredentials (hbc.allowUninspectedCredentials hf)

variable (h : mergeEndpoint existing incoming operationIndex = .ok (merged, []))
  (he : Checked existing) (hi : Checked incoming)
  (hover : endpointsOverlap existing incoming = true)
include h he hi hover

end Homes

/-! ## Homes through the fold -/

theorem DropsNothing.normalizeEndpoint (h : DropsNothing endpoint) :
    DropsNothing (normalizeEndpoint endpoint) :=
  ⟨h.1, h.2, h.3, h.4, h.5, h.6, h.7⟩

section Fold

variable {operationIndex : Nat} {endpoints folded : List NetworkEndpoint}
  {incoming target : NetworkEndpoint}

variable (h : foldEndpoint operationIndex incoming endpoints = .ok (folded, []))
  (he : ∀ e ∈ endpoints, Checked e) (hi : Checked incoming)
include h he hi

omit h he hi

end Fold

/-! ## Coverage of a rule, endpoint by endpoint -/

variable {policy : SandboxPolicy}

variable {target : NetworkEndpoint}

theorem DropsNothing.preparedEndpoint (h : DropsNothing endpoint) :
    DropsNothing (preparedEndpoint endpoint) := by
  refine DropsNothing.normalizeEndpoint ?_
  rw [canonicalizeEndpoint_eq]
  exact ⟨h.1, h.2, h.3, h.4, h.5, h.6, h.7⟩

end OpenShell.Policy
