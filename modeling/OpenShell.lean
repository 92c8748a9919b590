import OpenShell.Prover.NetworkRanges
import OpenShell.Policy.MiddlewareTls
import OpenShell.Policy.FilesystemPath
import OpenShell.Policy.Merge.ReadBack
import OpenShell.Policy.Merge.Restrict
import OpenShell.Server.ProposalTrust
import OpenShell.L7.PresetExpansion
import OpenShell.Schema.RoundTrip
import OpenShell.Prover.Ancestor
import OpenShell.Prover.Compose
import OpenShell.Secrets.Decoders
import OpenShell.Secrets.NoResolver
import OpenShell.Secrets.QueryShape
import OpenShell.PolicyDns.StoreSafe
import OpenShell.Server.LeaseFencing
import OpenShell.Server.MutationReplayRun
import OpenShell.Compute.MutationLockSafe
import OpenShell.Server.ProviderEnvRevision
import OpenShell.Server.ProposalUndo
import OpenShell.Server.TokenGrantAmbiguity
import OpenShell.Server.CredentialedEndpoints
import OpenShell.Sandbox.ConnectionOwner
import OpenShell.Server.SupervisorOwnerTerms
import OpenShell.Supervisor.ConfigRuntime
import OpenShell.Sandbox.MechanisticGrant
import OpenShell.Server.PolicyApply
import OpenShell.Server.GatewayRing
import OpenShell.Secrets.BodyStream
