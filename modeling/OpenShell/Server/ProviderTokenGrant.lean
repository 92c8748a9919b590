import OpenShell.L7.TokenGrantInjection

/-!
# Ambiguous token grants at the gateway

Before providers are attached, the gateway lists the endpoint bindings of their
token grants and refuses two that could tie for a request (`provider.rs`). It
compares the patterns themselves: ports and scores must be equal, and hosts and
paths must be able to overlap. The dynamic credentials it later sends to the
supervisor are keyed by the same selectors.
-/

namespace OpenShell.Server

open OpenShell.Core OpenShell.L7

/-! ## Overlap of host patterns -/

/-- `**` stands for any number of labels, `*` for one; other labels stand for themselves. -/
def hostPatternLabelsMatch : List String → List String → Bool
  | [], host => host.isEmpty
  | label :: rest, host =>
    if label = "**" then
      hostPatternLabelsMatch rest host ||
        match host with
        | [] => false
        | _ :: host => hostPatternLabelsMatch (label :: rest) host
    else
      match host with
      | [] => false
      | first :: host => (label = "*" || first = label) && hostPatternLabelsMatch rest host
  termination_by pattern host => pattern.length + host.length

def hostPatternMatches (pattern host : String) : Bool :=
  let pattern := toAsciiLowercase pattern
  let host := toAsciiLowercase host
  if pattern = host then true
  else if !containsChar pattern '*' then false
  else hostPatternLabelsMatch (splitChar pattern '.') (splitChar host '.')

def hostPatternLabelsCanOverlap : List String → List String → Bool
  | [], [] => true
  | [], label :: rest => label = "**" && hostPatternLabelsCanOverlap [] rest
  | label :: rest, [] => label = "**" && hostPatternLabelsCanOverlap rest []
  | first :: firstRest, second :: secondRest =>
    if first = "**" then
      hostPatternLabelsCanOverlap firstRest (second :: secondRest) ||
        hostPatternLabelsCanOverlap (first :: firstRest) secondRest
    else if second = "**" then
      hostPatternLabelsCanOverlap (first :: firstRest) secondRest ||
        hostPatternLabelsCanOverlap firstRest (second :: secondRest)
    else
      (first = "*" || second = "*" || first = second) &&
        hostPatternLabelsCanOverlap firstRest secondRest
  termination_by first second => first.length + second.length

def hostPatternsCanOverlap (first second : String) : Bool :=
  let first := toAsciiLowercase first
  let second := toAsciiLowercase second
  if !containsChar first '*' then hostPatternMatches second first
  else if !containsChar second '*' then hostPatternMatches first second
  else hostPatternLabelsCanOverlap (splitChar first '.') (splitChar second '.')

/-! ## Overlap of path patterns -/

def pathPrefixPattern (path : String) : Option String := stripSuf path "/**"

def pathPatternsCanOverlap (glob : Glob) (first second : String) : Bool :=
  if pathMatchesAll first || pathMatchesAll second then true
  else if !containsChar first '*' then endpointPathMatches glob second first
  else if !containsChar second '*' then endpointPathMatches glob first second
  else
    match pathPrefixPattern first, pathPrefixPattern second with
    | some firstPrefix, some secondPrefix =>
      firstPrefix == secondPrefix || startsWith firstPrefix (secondPrefix ++ "/") ||
        startsWith secondPrefix (firstPrefix ++ "/")
    | _, _ => true

/-! ## Bindings -/

structure DynamicTokenGrantBinding where
  providerName : String
  credentialName : String
  headerName : String
  host : String
  port : Nat
  path : String
  score : Nat
  deriving DecidableEq

/-- The gateway has the same two scoring functions as the supervisor. -/
def dynamicTokenGrantMatchScore (host path : String) : Nat := selectorScore host path

/-- A credential with a token grant, at an endpoint of a provider. -/
structure Grant where
  providerName : String
  credential : ProviderProfileCredential
  host : String
  port : Nat
  path : String
  owner : String
  granted : credential.tokenGrant.isSome = true

/-- The binding `push_dynamic_token_grant_binding` makes. -/
def Grant.binding (grant : Grant) : DynamicTokenGrantBinding where
  providerName := grant.providerName
  credentialName := grant.credential.name
  headerName :=
    if isEmptyStr (trim grant.credential.headerName) then "authorization"
    else toAsciiLowercase (trim grant.credential.headerName)
  host := toAsciiLowercase grant.host
  port := grant.port
  path := grant.path
  score := dynamicTokenGrantMatchScore grant.host grant.path

/-- `resolved_dynamic_credential` without an override. -/
def resolvedDynamicCredential (credential : ProviderProfileCredential) (owner : String) :
    ProviderProfileCredential :=
  { credential with
    tokenGrantOwners := [owner]
    tokenGrant := credential.tokenGrant.map fun grant => { grant with audienceOverrides := [] } }

/-- The entry the grant has among the dynamic credentials. -/
def Grant.entry (grant : Grant) : Except String (String × ProviderProfileCredential) := do
  let key ← DynamicCredentialKey.new grant.host grant.port grant.path grant.owner grant.providerName
      grant.credential.name
  return (key.encode, resolvedDynamicCredential grant.credential grant.owner)

end OpenShell.Server
