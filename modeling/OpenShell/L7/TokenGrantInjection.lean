import OpenShell.Core.DynamicCredentialKey
import OpenShell.Core.EndpointPath

/-!
# Choosing token grants for a request

The supervisor keeps dynamic credentials in a map from endpoint-bound keys. For a
request it collects those whose endpoint selector matches, ranks them by a score
read off the selector's spelling, and picks one for each header
(`token_grant_injection.rs`). A tie between credentials is refused.
-/

namespace OpenShell.L7

open OpenShell.Core

structure TokenGrantAudienceOverride where
  host : String := ""
  port : Nat := 0
  path : String := ""
  audience : String := ""
  scopes : List String := []
  deriving DecidableEq

structure ProviderCredentialTokenGrant where
  audience : String := ""
  scopes : List String := []
  audienceOverrides : List TokenGrantAudienceOverride := []
  deriving DecidableEq

structure ProviderProfileCredential where
  name : String
  authStyle : String := ""
  headerName : String := ""
  tokenGrant : Option ProviderCredentialTokenGrant := none
  tokenGrantOwners : List String := []
  deriving DecidableEq

def isHeaderNameChar (c : Char) : Bool :=
  c.isAlphanum ||
    c ∈ ['!', '#', '$', '%', '&', '\x27', '*', '+', '-', '.', '^', '_', '\x60', '|', '~']

def validateHeaderName (headerName : String) : Bool :=
  !isEmptyStr headerName && headerName.toList.all isHeaderNameChar &&
    !decide (toAsciiLowercase headerName ∈ ["host", "content-length", "transfer-encoding",
      "connection"])

def tokenGrantHeaderName (credential : ProviderProfileCredential) : Option String :=
  let style := toAsciiLowercase (trim credential.authStyle)
  let named := trim credential.headerName
  let headerName? :=
    if style = "" ∨ style = "bearer" then some (if isEmptyStr named then "Authorization" else named)
    -- header auth names its own header, there is no default
    else if style = "header" ∧ isEmptyStr named = false then some named
    else none
  headerName?.filter validateHeaderName

/-! ## Scores -/

/-- The values of a `u32`. -/
def u32Size : Nat := 2 ^ 32

def saturate (n : Nat) : Nat := min n (u32Size - 1)

def countAsU32 (count : Nat) : Nat := saturate count

def hostPatternSpecificity (pattern : String) : Nat :=
  let wildcardPenalty := countAsU32 (pattern.toList.count '*')
  let labelCount :=
    countAsU32 ((splitChar pattern '.').filter fun label => !isEmptyStr label).length
  let literalChars := countAsU32 (pattern.toList.filter (· != '*')).length
  saturate (saturate (100000 - saturate (wildcardPenalty * 10000) + saturate (labelCount * 100)) +
    literalChars)

def endpointPathSpecificity (path : String) : Nat :=
  if isEmptyStr path || path == "**" then 0
  else saturate (1000000 + countAsU32 (path.toList.filter (· != '*')).length)

/-- The score of a selector. The sum wraps, as it does without overflow checks. -/
def selectorScore (host path : String) : Nat :=
  (hostPatternSpecificity host + endpointPathSpecificity path) % u32Size

def selectorMatches (glob : Glob) (selector : EndpointSelector) (host path : String) : Bool :=
  (hostMatches glob selector.host host).toOption.getD false &&
    endpointPathMatches glob selector.path path

end OpenShell.L7
