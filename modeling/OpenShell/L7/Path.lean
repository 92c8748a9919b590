import OpenShell.Util.Bytes
import OpenShell.Util.Result

/-!
# Request-target canonicalization

The proxy evaluates policy against a request path and forwards the request; both
must see the same path, so `canonicalizeRequestTarget` turns every accepted
target into one canonical path: percent-escapes decoded where the byte may stand
literally and upper-cased elsewhere, `;params` stripped, dot segments resolved,
repeated slashes collapsed.

The steps are those of `l7/path.rs`, in its order. Absolute-form targets are
recognised by the `http` crate's URI parser, which is a parameter here
(`parseUri`): the canonicalizer asks it only whether the text has a scheme and
what its path is.
-/

namespace OpenShell.L7

/-- Reasons a request-target is rejected at the canonicalization boundary. -/
inductive CanonicalizeError
  | nullOrControlByte
  | invalidPercentEncoding
  | encodedSlashNotAllowed
  | fragmentInRequestTarget
  | nonAscii
  | traversalAboveRoot
  | residualDotSegment
  | pathTooLong
  | malformedTarget
  deriving DecidableEq, Repr

/-- Options controlling canonicalization strictness. -/
structure CanonicalizeOptions where
  allowEncodedSlash : Bool := false
  stripPathParameters : Bool := true
  deriving DecidableEq, Repr

/-- Result of a successful canonicalization. -/
structure CanonicalPath where
  path : Bytes
  rewritten : Bool
  deriving DecidableEq, Repr

/-- What the canonicalizer reads off a parsed `http::Uri`. -/
structure HttpUri where
  scheme : Option Bytes
  path : Bytes
  deriving DecidableEq, Repr

/-- Maximum accepted length of an origin-form path (bytes). -/
def maxPathLen : Nat := 4 * 1024

/-- The byte that stands for a `%2F`-decoded slash inside a segment. -/
def encodedSlashSentinel : UInt8 := 0x01

/-- `/`. -/
abbrev slash : UInt8 := 0x2F

/-- `%`. -/
abbrev percent : UInt8 := 0x25

/-- `;`. -/
abbrev semicolon : UInt8 := 0x3B

/-- `.`. -/
abbrev dot : UInt8 := 0x2E

/-- `?`. -/
abbrev question : UInt8 := 0x3F

/-- `#`. -/
abbrev hash : UInt8 := 0x23

/-! ## Bytes and escapes -/

/-- Bytes emitted literally: RFC 3986 pchar without the escape slot. -/
def isPcharUnreserved (b : UInt8) : Bool :=
  isAsciiAlphanumeric b ||
    -- - . _ ~ ! $ & ' ( ) * + , ; = : @
    [0x2D, 0x2E, 0x5F, 0x7E, 0x21, 0x24, 0x26, 0x27, 0x28, 0x29, 0x2A, 0x2B, 0x2C, 0x3B, 0x3D,
      0x3A, 0x40].contains b

def decodeHex (b : UInt8) : Option UInt8 :=
  if 0x30 ≤ b && b ≤ 0x39 then some (b - 0x30)
  else if 0x61 ≤ b && b ≤ 0x66 then some (b - 0x61 + 10)
  else if 0x41 ≤ b && b ≤ 0x46 then some (b - 0x41 + 10)
  else none

def upperHexNibble (n : UInt8) : UInt8 :=
  if n ≤ 9 then 0x30 + n else 0x41 + (n - 10)

/-- The control-byte and non-ASCII sweep over the whole target. -/
def sweepTarget : Bytes → Except CanonicalizeError Unit
  | [] => .ok ()
  | b :: rest =>
    if b == 0 || b == 0x0A || b == 0x0D || b == 0x09 || b == 0x7F then .error .nullOrControlByte
    else if b < 0x20 then .error .nullOrControlByte
    else if 0x80 ≤ b then .error .nonAscii
    else sweepTarget rest

/-- What the escape of `decoded` contributes: a slash becomes the sentinel where
it is allowed at all, and escaped control bytes are still control bytes. -/
def escapedByte (allowEncodedSlash : Bool) (decoded : UInt8) : Except CanonicalizeError UInt8 :=
  if decoded == slash then
    if !allowEncodedSlash then .error .encodedSlashNotAllowed else .ok encodedSlashSentinel
  else if decoded == 0 || decoded == 0x7F || (decoded < 0x20 && decoded != 0x09) then
    .error .nullOrControlByte
  else if decoded == 0x0A || decoded == 0x0D || decoded == 0x09 then .error .nullOrControlByte
  else .ok decoded

/-- Percent-decode into bytes; `%2F` becomes the sentinel so that splitting on
`/` cannot confuse it with a separator. -/
def percentDecodeWithSentinel (allowEncodedSlash : Bool) : Bytes → Except CanonicalizeError Bytes
  | [] => .ok []
  | b :: rest =>
    if b == encodedSlashSentinel then .error .nullOrControlByte
    else if b == percent then
      match rest with
      | h :: l :: rest' =>
        match decodeHex h, decodeHex l with
        | some hi, some lo => do
          let out ← escapedByte allowEncodedSlash ((hi <<< 4) ||| lo)
          (out :: ·) <$> percentDecodeWithSentinel allowEncodedSlash rest'
        | _, _ => .error .invalidPercentEncoding
      | _ => .error .invalidPercentEncoding
    else (b :: ·) <$> percentDecodeWithSentinel allowEncodedSlash rest

/-! ## Segments -/

/-- Drop a trailing `;params` suffix from one segment. -/
def stripPathParameters (seg : Bytes) : Bytes := seg.takeWhile (· != semicolon)

/-- Skip the leading `/` and split on the others. -/
def splitPathSegments (decoded : Bytes) : List Bytes := decoded.tail.splitOn slash

/-- One turn of the dot-segment loop; `last` is `idx == last`. -/
def resolveSegment (last : Bool) (stack : List Bytes) (seg : Bytes) :
    Except CanonicalizeError (List Bytes) :=
  if seg == [dot, dot] then
    if stack.isEmpty then .error .traversalAboveRoot
    -- a trailing `..` leaves a directory, hence a trailing slash
    else .ok (if last then stack.dropLast ++ [[]] else stack.dropLast)
  else if seg == [dot] then
    .ok (if last then stack ++ [[]] else stack)
  else if seg.isEmpty && !last then
    -- repeated slashes collapse, except the one that ends the path
    .ok stack
  else .ok (stack ++ [seg])

/-- The dot-segment loop over the remaining segments, with the stack so far. -/
def resolveDotSegments (stack : List Bytes) : List Bytes → Except CanonicalizeError (List Bytes)
  | [] => .ok stack
  | seg :: rest => do
    let stack' ← resolveSegment rest.isEmpty stack seg
    resolveDotSegments stack' rest

/-- The residual guard: a part of a segment between sentinels that is a dot
segment. -/
def hasResidualDot (seg : Bytes) : Bool :=
  (seg.splitOn encodedSlashSentinel).any fun part => part == [dot, dot] || part == [dot]

/-! ## Reconstruction -/

/-- How one byte of a segment is written out. -/
def encodeByte (b : UInt8) : Bytes :=
  if b == encodedSlashSentinel then [percent, 0x32, 0x46]
  else if isPcharUnreserved b then [b]
  else [percent, upperHexNibble (b >>> 4), upperHexNibble (b &&& 0x0F)]

def encodeSegment (seg : Bytes) : Bytes := seg.flatMap encodeByte

/-- The segments joined on `/`, parameters stripped once more if requested. -/
def buildCanonicalPath (segments : List Bytes) (opts : CanonicalizeOptions) : Bytes :=
  slash :: [slash].intercalate (segments.map fun seg =>
    encodeSegment (if opts.stripPathParameters then stripPathParameters seg else seg))

/-! ## The canonicalizer -/

/-- Split off the query at the first `?`. -/
def splitQuery (target : Bytes) : Bytes × Option Bytes :=
  match splitOnce question target with
  | some (p, q) => (p, some q)
  | none => (target, none)

/-- Absolute-form targets lose their authority; an origin-form target is its own
raw path. The result is never empty. -/
def rawPath (parseUri : Bytes → Option HttpUri) (pathPart : Bytes) : Bytes :=
  let absoluteFormUri := (parseUri pathPart).filter (·.scheme.isSome)
  let raw :=
    ((absoluteFormUri.map (·.path)).filter (!·.isEmpty)).getD
      (if absoluteFormUri.isSome then [slash] else pathPart)
  if raw.isEmpty then [slash] else raw

/-- Decode, split, strip and resolve: the segments of the canonical path. -/
def canonicalSegments (opts : CanonicalizeOptions) (raw : Bytes) :
    Except CanonicalizeError (List Bytes) := do
  let decoded ← percentDecodeWithSentinel opts.allowEncodedSlash raw
  let segments := splitPathSegments decoded
  let segments := if opts.stripPathParameters then segments.map stripPathParameters else segments
  let resolved ← resolveDotSegments [] segments
  rejectIf (resolved.any hasResidualDot) .residualDotSegment
  return resolved

/-- Canonicalize a request-target's path component; the query is returned as
supplied. -/
def canonicalizeRequestTarget (parseUri : Bytes → Option HttpUri) (target : Bytes)
    (opts : CanonicalizeOptions) : Except CanonicalizeError (CanonicalPath × Option Bytes) := do
  sweepTarget target
  rejectIf (target.contains hash) .fragmentInRequestTarget
  let (pathPart, queryPart) := splitQuery target
  let raw := rawPath parseUri pathPart
  rejectIf (raw.head? ≠ some slash) .malformedTarget
  rejectIf (raw.length > maxPathLen) .pathTooLong
  let resolved ← canonicalSegments opts raw
  let canonical := buildCanonicalPath resolved opts
  return (⟨canonical, canonical != raw⟩, queryPart)

end OpenShell.L7
