import Mathlib
import OpenShell.Secrets.Resolver
import OpenShell.Util.Lines

/-!
# Rewriting request text

Placeholders are replaced in text, in path segments, in query values, in header
values and in the decoded token of Basic authentication; a header block is
rewritten line by line and scanned once more at the end. The Base64 engine is a
parameter.
-/

namespace OpenShell.Secrets

/-- The standard Base64 engine: what it decodes and encodes is left open. -/
structure Base64 where
  decode : Bytes → Option Bytes
  encode : Bytes → Bytes

/-! ## White space -/

/-- The characters of `char::is_whitespace`, encoded. -/
def whitespaceChars : List Bytes :=
  [[0x09], [0x0A], [0x0B], [0x0C], [0x0D], [0x20], [0xC2, 0x85], [0xC2, 0xA0], [0xE1, 0x9A, 0x80],
    [0xE2, 0x80, 0x80], [0xE2, 0x80, 0x81], [0xE2, 0x80, 0x82], [0xE2, 0x80, 0x83],
    [0xE2, 0x80, 0x84],
    [0xE2, 0x80, 0x85], [0xE2, 0x80, 0x86], [0xE2, 0x80, 0x87], [0xE2, 0x80, 0x88],
    [0xE2, 0x80, 0x89],
    [0xE2, 0x80, 0x8A], [0xE2, 0x80, 0xA8], [0xE2, 0x80, 0xA9], [0xE2, 0x80, 0xAF],
    [0xE2, 0x81, 0x9F], [0xE3, 0x80, 0x80]]

/-- Drop leading characters of a list of encodings, at most `fuel` of them. -/
def trimLeading (chars : List Bytes) : Nat → Bytes → Bytes
  | 0, text => text
  | fuel + 1, text =>
    match chars.find? (·.isPrefixOf text) with
    | some char => trimLeading chars fuel (text.drop char.length)
    | none => text

/-- `str::trim`: from the front, and, read backwards, from the end. -/
def trimBytes (text : Bytes) : Bytes :=
  let front := trimLeading whitespaceChars text.length text
  (trimLeading (whitespaceChars.map List.reverse) front.length front.reverse).reverse

/-- `str::find(char::is_whitespace)`. -/
def findWhitespace : Bytes → Option Nat
  | [] => none
  | b :: rest =>
    if whitespaceChars.any (·.isPrefixOf (b :: rest)) then some 0 else
      (findWhitespace rest).map (· + 1)

/-! ## Text and path segments -/

namespace SecretResolver

variable (r : SecretResolver) (now : Int)

/-- The secret of a token, or the reason there is none. -/
def replaceToken (location : String) (tokenEnd : Nat) (token : Bytes) : Rewrite (Nat × Bytes) := do
  match ← r.resolvePlaceholder now token with
  | some secret => return (tokenEnd, secret)
  | none => throw (.failed (← r.unresolvedFor location token))

/-- The token at a start in text. -/
def tokenInText (text : Bytes) (absStart : Nat) : Option (Nat × Bytes) :=
  if placeholderPrefix.isPrefixOf (text.drop absStart) then r.credentialTokenAt text absStart
  else aliasTokenAt text absStart

/-- The token at a start in text, and its secret. -/
def textToken (location : String) (text : Bytes) (absStart : Nat) : Rewrite (Nat × Bytes) :=
  match r.tokenInText text absStart with
  | some (tokenEnd, token) => r.replaceToken now location tokenEnd token
  | none => .error (.failed (unresolved location))

def textScanner (location : String) (text : Bytes) : Scanner Bytes UnresolvedPlaceholderError where
  text := text
  next := nextStart text
  token := r.textToken now location text

/-- Text that is kept, next to a count of replacements. -/
def appendLiteral (st : Bytes × Nat) (literal : Bytes) : Bytes × Nat := (st.1 ++ literal, st.2)

def appendSecret (st : Bytes × Nat) (secret : Bytes) : Bytes × Nat := (st.1 ++ secret, st.2 + 1)

/-- The rewritten text and the number of replacements. -/
def rewriteTextPlaceholdersAtLocation (text : Bytes) (location : String) :
    Rewrite (Bytes × Nat) := do
  if !containsRawReservedMarker text then return (text, 0)
  let (rewritten, replacements) ←
    (r.textScanner now location text).loop appendLiteral appendSecret text.length 0 ([], 0)
  if containsRawReservedMarker rewritten then throw (.failed (unresolved location))
  return (rewritten, replacements)

end SecretResolver

/-- Path traversal, control characters, separators and delimiters are refused. -/
def validateCredentialForPath (value : Bytes) : Bool :=
  !(containsSub (utf8Bytes "../") value || containsSub [0x2E, 0x2E, 0x5C] value ||
    value == utf8Bytes ".." ||
    value.any fun b => b == 0 || b == 0x0D || b == 0x0A || b == 0x2F || b == 0x5C ||
    b == 0x3F || b == 0x23)

/-- The token at a start in a path segment, or in a target being redacted. -/
def tokenInSegment (segment : Bytes) (absStart : Nat) : Option (Nat × Bytes) :=
  canonicalTokenAt segment absStart <|> aliasTokenAt segment absStart

/-- The token at a start in a path segment, and its secret. -/
def segmentToken (r : SecretResolver) (now : Int) (segment : Bytes) (absStart : Nat) :
    Rewrite (Nat × Bytes) := do
  match tokenInSegment segment absStart with
  | none => throw (.failed (unresolved "path"))
  | some (tokenEnd, fullPlaceholder) =>
    match ← r.resolvePlaceholder now fullPlaceholder with
    | some secret =>
      if validateCredentialForPath secret then return (tokenEnd, secret)
      else throw (.failed (unresolved "path"))
    | none => throw (.failed (← r.unresolvedFor "path" fullPlaceholder))

def segmentScanner (r : SecretResolver) (now : Int) (segment : Bytes) :
    Scanner Bytes UnresolvedPlaceholderError where
  text := segment
  next := nextStart segment
  token := segmentToken r now segment

/-- What stands for a secret in a redacted target. -/
def credentialMark : Bytes := utf8Bytes "[CREDENTIAL]"

/-- Text that stands both in the resolved and in the redacted segment. -/
def appendBoth (st : Bytes × Bytes) (literal : Bytes) : Bytes × Bytes :=
  (st.1 ++ literal, st.2 ++ literal)

def appendRedacted (st : Bytes × Bytes) (secret : Bytes) : Bytes × Bytes :=
  (st.1 ++ secret, st.2 ++ credentialMark)

/-- The resolved and the redacted segment. -/
def rewritePathSegment (segment : Bytes) (r : SecretResolver) (now : Int) :
    Rewrite (Bytes × Bytes) :=
  (segmentScanner r now segment).loop appendBoth appendRedacted segment.length 0 ([], [])

/-! ## Request targets -/

/-- A part of a target: resolved, redacted, and whether it was rewritten. -/
structure Part where
  resolved : Bytes
  redacted : Bytes
  rewritten : Bool

/-- The parts joined, if any was rewritten. -/
def joinParts (sep : Bytes) (parts : List Part) : Option (Bytes × Bytes) :=
  if parts.any (·.rewritten) then
    some (sep.intercalate (parts.map (·.resolved)), sep.intercalate (parts.map (·.redacted)))
  else none

def rewriteUriSegment (r : SecretResolver) (now : Int) (segment : Bytes) : Rewrite Part :=
  let decoded := percentDecode segment
  if containsRawReservedMarker decoded then do
    let (resolved, redacted) ← rewritePathSegment decoded r now
    return ⟨percentEncodePathSegment resolved, redacted, true⟩
  else return ⟨segment, segment, false⟩

def rewriteUriPath (path : Bytes) (r : SecretResolver) (now : Int) :
    Rewrite (Option (Bytes × Bytes)) := do
  let r := r.withRequestLocation (.path (percentDecode path))
  let parts ← (path.splitOn 0x2F).mapM (rewriteUriSegment r now)
  return joinParts [0x2F] parts

/-- `str::replace('+', " ")`. -/
def plusToSpace (key : Bytes) : Bytes := key.map fun b => if b == 0x2B then 0x20 else b

def rewriteUriParam (r : SecretResolver) (now : Int) (param : Bytes) : Rewrite Part :=
  match splitOnce 0x3D param with
  | some (key, value) =>
    let decodedValue := percentDecode value
    if containsRawReservedMarker decodedValue then do
      let decodedKey := percentDecode (plusToSpace key)
      let (rewritten, replacements) ←
        (r.withRequestLocation (.queryParam decodedKey)).rewriteTextPlaceholdersAtLocation now
        decodedValue
          "query_param"
      if replacements == 0 || containsRawReservedMarker rewritten then
        throw (.failed (unresolved "query_param"))
      return ⟨key ++ [0x3D] ++ percentEncodeQuery rewritten, key ++ [0x3D] ++ credentialMark, true⟩
    else return ⟨param, param, false⟩
  | none => return ⟨param, param, false⟩

def rewriteUriQueryParams (query : Bytes) (r : SecretResolver) (now : Int) :
    Rewrite (Option (Bytes × Bytes)) := do
  if !containsReservedCredentialMarker query then return none
  let parts ← (query.splitOn 0x26).mapM (rewriteUriParam r now)
  return joinParts [0x26] parts

/-- Path and query of a target, both rewritten and joined again: the resolved and
the redacted target. -/
def rewriteTarget (target : Bytes) (r : SecretResolver) (now : Int) : Rewrite (Bytes × Bytes) :=
  match splitOnce 0x3F target with
  | some (path, query) => do
    let (resolvedPath, redactedPath) := (← rewriteUriPath path r now).getD (path, path)
    let (resolvedQuery, redactedQuery) := (← rewriteUriQueryParams query r now).getD (query, query)
    return (resolvedPath ++ [0x3F] ++ resolvedQuery, redactedPath ++ [0x3F] ++ redactedQuery)
  | none => do return (← rewriteUriPath target r now).getD (target, target)

structure RewriteLineResult where
  line : Bytes
  redactedTarget : Option Bytes

def rewriteRequestLine (line : Bytes) (r : SecretResolver) (now : Int) :
    Rewrite RewriteLineResult :=
  match splitOnce 0x20 line with
  | none => .ok ⟨line, none⟩
  | some (method, rest) =>
    match splitOnce 0x20 rest with
    | none => .ok ⟨line, none⟩
    | some (uri, version) =>
      if containsReservedCredentialMarker uri then do
        let (resolved, redacted) ← rewriteTarget uri r now
        return ⟨method ++ [0x20] ++ resolved ++ [0x20] ++ version, some redacted⟩
      else .ok ⟨line, none⟩

structure RewriteTargetResult where
  resolved : Bytes
  redacted : Bytes

def rewriteTargetForEval (target : Bytes) (r : SecretResolver) (now : Int) :
    Rewrite RewriteTargetResult :=
  if containsReservedCredentialMarker target then do
    let (resolved, redacted) ← rewriteTarget target r now
    return ⟨resolved, redacted⟩
  else .ok ⟨target, target⟩

/-! ## Headers -/

/-- What follows the Basic scheme in a header value. -/
def basicAuthToken (value : Bytes) : Option Bytes :=
  (stripBytes (utf8Bytes "Basic ") value <|> stripBytes (utf8Bytes "basic ") value).map trimBytes

def decodeBasicAuthToken (base64 : Base64) (encoded : Bytes) : Option Bytes := do
  let decoded ← base64.decode encoded
  if isUtf8 decoded then some decoded else none

namespace SecretResolver

variable (base64 : Base64) (r : SecretResolver) (now : Int)

def rewriteBasicAuthToken (encoded : Bytes) : Rewrite (Option Bytes) :=
  match decodeBasicAuthToken base64 (trimBytes encoded) with
  | none => .ok none
  | some decoded =>
    if containsRawReservedMarker decoded then do
      let (rewritten, replacements) ← r.rewriteTextPlaceholdersAtLocation now decoded "header"
      return if replacements == 0 then none else some (base64.encode rewritten)
    else .ok none

/-- A scheme and a placeholder, or no placeholder at all. -/
def rewritePrefixedValue (trimmed : Bytes) : Rewrite (Option Bytes) :=
  match findWhitespace trimmed with
  | none => do
    if containsReservedCredentialMarker trimmed then
      throw (.failed (← r.unresolvedFor "header" trimmed))
    return none
  | some splitAt => do
    let candidate := trimBytes (trimmed.drop splitAt)
    match ← r.resolvePlaceholder now candidate with
    | some secret => return some (trimmed.take splitAt ++ [0x20] ++ secret)
    | none =>
      if containsReservedCredentialMarker candidate then
        throw (.failed (← r.unresolvedFor "header" candidate))
      return none

def rewriteHeaderValue (value : Bytes) : Rewrite (Option Bytes) := do
  let trimmed := trimBytes value
  match ← r.resolvePlaceholder now trimmed with
  | some secret => return some secret
  | none =>
    match basicAuthToken trimmed with
    | none => r.rewritePrefixedValue now trimmed
    | some encoded =>
      match ← r.rewriteBasicAuthToken base64 now encoded with
      | some rewritten => return some (utf8Bytes "Basic " ++ rewritten)
      | none => r.rewritePrefixedValue now trimmed

def rewriteHeaderValueForName (name value : Bytes) : Rewrite (Option Bytes) :=
  (r.withRequestLocation (.header name)).rewriteHeaderValue base64 now value

end SecretResolver

def rewriteHeaderLineChecked (base64 : Base64) (line : Bytes) (r : SecretResolver) (now : Int) :
    Rewrite Bytes :=
  match splitOnce 0x3A line with
  | none => .ok line
  | some (name, value) => do
    match ← r.rewriteHeaderValueForName base64 now name (trimBytes value) with
    | some rewritten => return name ++ utf8Bytes ": " ++ rewritten
    | none => return line

structure RewriteResult where
  rewritten : Bytes
  redactedTarget : Option Bytes

/-- How far past the end of the header section the final scan reads. -/
def scanMargin : Nat := 256

/-- The end of the header section, its empty line included. -/
def headerEnd (raw : Bytes) : Option Nat := (findSub (crlf ++ crlf) raw).map (· + 4)

/-- The scan of a block with no resolver. -/
def rewriteWithoutResolver (raw : Bytes) : Rewrite RewriteResult :=
  let scanEnd := match headerEnd raw with
    | some stop => min raw.length (stop + scanMargin)
    | none => raw.length
  if containsReservedCredentialMarker (fromUtf8Lossy (raw.take scanEnd)) then
    .error (.failed (unresolved "header"))
  else .ok ⟨raw, none⟩

/-- The header lines up to the first empty one, each rewritten and ended. -/
def rewriteHeaderLines (base64 : Base64) (lines : List Bytes) (r : SecretResolver) (now : Int) :
    Rewrite (List Bytes) :=
  (lines.takeWhile fun line => !line.isEmpty).mapM fun line =>
    rewriteHeaderLineChecked base64 line r now

def rewriteHttpHeaderBlock (base64 : Base64) (raw : Bytes) (resolver : Option SecretResolver)
    (now : Int) :
    Rewrite RewriteResult :=
  match resolver with
  | none => rewriteWithoutResolver raw
  | some r =>
    match headerEnd raw with
    | none => .ok ⟨raw, none⟩
    | some stop =>
      match splitLines (fromUtf8Lossy (raw.take stop)) with
      | [] => .ok ⟨raw, none⟩
      | requestLine :: lines => do
        let rlResult ← rewriteRequestLine requestLine r now
        let headerLines ← rewriteHeaderLines base64 lines r now
        let output := terminated (rlResult.line :: headerLines) ++ crlf ++ raw.drop stop
        if containsReservedCredentialMarker (fromUtf8Lossy (output.take (stop + scanMargin))) then
          throw (.failed (unresolved "header"))
        return ⟨output, rlResult.redactedTarget⟩

/-! ## Redaction -/

/-- Placeholders being issued. -/
abbrev PlaceholderMap :=
  { map : TextMap SecretValue // ∀ placeholder, placeholder ∈ map →
    placeholderPrefix <+: placeholder }

def PlaceholderMap.empty : PlaceholderMap := ⟨∅, placeholderPrefix_of_mem_empty⟩

/-- Register the placeholder with a given text after the lead-in. -/
def PlaceholderMap.issue (issued : PlaceholderMap) (suffix : Bytes) (secret : SecretValue) :
    PlaceholderMap :=
  ⟨issued.1.insert (placeholderPrefix ++ suffix) secret, fun placeholder h => by
    rcases Std.ExtTreeMap.mem_insert.mp h with h | h
    · rw [← Std.LawfulEqCmp.eq_of_compare h]
      exact List.prefix_append ..
    · exact issued.2 placeholder h⟩

/-- `SecretResolver::from_provider_env`, for entries in the order the map yields
them; a key in the reserved namespace is skipped. -/
def SecretResolver.fromProviderEnv (providerEnv : List (Bytes × Bytes)) : Option SecretResolver :=
  let issued := providerEnv.foldl (fun (issued : PlaceholderMap) entry =>
    if usesReservedRevisionNamespace entry.1 then issued else issued.issue entry.1 ⟨entry.2, 0⟩)
    PlaceholderMap.empty
  if issued.1.isEmpty then none else some (.ofPlaceholders issued.1 issued.2)

/-- The keys a decoded target refers to. The loop slices at its own position only,
so a token that starts behind it does not stop it. -/
def referencedKeys (decoded : Bytes) : Nat → Nat → TextMap Bytes → Rewrite (TextMap Bytes)
  | 0, pos, env => if pos < decoded.length then .error .diverged else .ok env
  | fuel + 1, pos, env =>
    if pos < decoded.length then do
      let _ ← slice decoded pos decoded.length
      match nextStart decoded pos with
      | none => return env
      | some start =>
        match tokenInSegment decoded start with
        | none => throw (.failed (unresolved "request_target"))
        | some (stop, token) =>
          match placeholderEnvKey token with
          | none => throw (.failed (unresolved "request_target"))
          | some key => referencedKeys decoded fuel stop (env.insert key credentialMark)
    else .ok env

/-- The secret-free resolver of the policy projection. -/
def redactionResolver (env : TextMap Bytes) : Option SecretResolver :=
  (SecretResolver.fromProviderEnv env.toList).map fun r => { r with policyRedactionOnly := true }

def redactTargetForPolicy (target : Bytes) (now : Int) : Rewrite Bytes :=
  if containsReservedCredentialMarker target then do
    let decoded := percentDecode target
    let env ← referencedKeys decoded decoded.length 0 ∅
    match redactionResolver env with
    | none => throw (.failed (unresolved "request_target"))
    | some r => return (← rewriteTargetForEval target r now).redacted
  else .ok target

end OpenShell.Secrets
