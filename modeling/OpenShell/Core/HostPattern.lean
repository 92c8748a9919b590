import OpenShell.Util.Result
import OpenShell.Util.Text
import OpenShell.Util.Worklist

/-!
# Host patterns and selectors

DNS-label-aware host patterns, after `host_pattern.rs`: `*` stays within a
label, a label `**` stands for one or more labels. Labels are matched by the
`glob` crate, which is a parameter here (`Glob`): a compiled pattern is
determined by its text, so a label pattern keeps the text.
-/

namespace OpenShell.Core

open OpenShell.Worklist

/-- The `glob` crate: whether a pattern compiles, and what it matches. -/
structure Glob where
  /-- `glob::Pattern::new`, with the text of its error. -/
  new : String → Except String Unit
  /-- `glob::Pattern::matches` of the compiled pattern. -/
  isMatch : String → String → Bool

/-- One label of a host pattern. -/
inductive HostLabelPattern
  | recursive
  | label (source : String) (literal : Bool)
  deriving DecidableEq

/-- A validated, compiled DNS host pattern. -/
structure HostPattern where
  source : String
  labels : List HostLabelPattern
  deriving DecidableEq

/-- A validated destination host selector. -/
structure HostSelector where
  includes : List HostPattern
  excludes : List HostPattern
  deriving DecidableEq

/-- No character the `glob` crate reads as a wildcard. -/
def isLiteralLabel (label : String) : Bool :=
  !label.toList.any fun ch => ch == '*' || ch == '?' || ch == '['

variable (glob : Glob)

def HostLabelPattern.new (label : String) : Except String HostLabelPattern :=
  if label = "**" then .ok .recursive
  else
    match glob.new label with
    | .error error => .error s!"invalid host pattern: {error}"
    | .ok () => .ok (.label label (isLiteralLabel label))

def HostPattern.new (pattern : String) : Except String HostPattern := do
  rejectIf (isEmptyStr pattern) "host pattern must not be empty"
  rejectIf (pattern.toList.any isWhitespace) "host pattern must not contain whitespace"
  -- the glob crate reads braces literally while endpoint matching expands them
  rejectIf (pattern.toList.any fun ch => ch == '\x7b' || ch == '\x7d')
    "host pattern must not contain brace alternates; list each host pattern separately"
  let source := toAsciiLowercase pattern
  rejectIf ((splitChar source '.').any isEmptyStr) "host pattern must not contain empty DNS labels"
  let labels ← (splitChar source '.').mapM (HostLabelPattern.new glob)
  return ⟨source, labels⟩

/-! ## Matching a host -/

/-- The states that follow in the matcher's search. -/
def matchStep (labels : List HostLabelPattern) (host : List String) (s : Nat × Nat) :
    List (Nat × Nat) :=
  match labels[s.1]?, host[s.2]? with
  | some .recursive, some _ => [(s.1 + 1, s.2 + 1), (s.1, s.2 + 1)]
  | some (.label source _), some label =>
    if glob.isMatch source label then [(s.1 + 1, s.2 + 1)] else []
  | _, _ => []

/-- Match pre-split lowercase DNS labels. -/
def HostPattern.matchesNormalizedLabels (pattern : HostPattern) (host : List String) : Bool :=
  if host.any isEmptyStr then false
  else searchPairs stack pattern.labels.length host.length (matchStep glob pattern.labels host)

def HostPattern.matches (pattern : HostPattern) (host : String) : Bool :=
  pattern.matchesNormalizedLabels glob (splitChar (toAsciiLowercase host) '.')

/-! ## Overlap of two patterns -/

def HostLabelPattern.isLiteral : HostLabelPattern → Bool
  | .recursive => false
  | .label _ literal => literal

/-- The pattern's text, if it denotes one host. -/
def HostPattern.literal (pattern : HostPattern) : Option String :=
  if pattern.labels.all HostLabelPattern.isLiteral then some pattern.source else none

def HostPattern.isUniversal (pattern : HostPattern) : Bool :=
  pattern.labels == [.recursive]

def labelPatternsMayOverlap : HostLabelPattern → HostLabelPattern → Bool
  | .label leftSource leftLiteral, .label rightSource rightLiteral =>
    match leftLiteral, rightLiteral with
    | true, true => leftSource == rightSource
    | true, false => glob.isMatch rightSource leftSource
    | false, true => glob.isMatch leftSource rightSource
    | false, false => true
  | _, _ => true

/-- The states that follow in the overlap search; every transition consumes one
shared host label. -/
def overlapStep (left right : List HostLabelPattern) (s : Nat × Nat) : List (Nat × Nat) :=
  match left[s.1]?, right[s.2]? with
  | some .recursive, some .recursive =>
    [(s.1 + 1, s.2 + 1), (s.1, s.2 + 1), (s.1 + 1, s.2)]
  | some .recursive, some (.label ..) => [(s.1 + 1, s.2 + 1), (s.1, s.2 + 1)]
  | some (.label ..), some .recursive => [(s.1 + 1, s.2 + 1), (s.1 + 1, s.2)]
  | some l@(.label ..), some r@(.label ..) =>
    if labelPatternsMayOverlap glob l r then [(s.1 + 1, s.2 + 1)] else []
  | _, _ => []

def HostPattern.overlaps (left right : HostPattern) : Bool :=
  searchPairs queue left.labels.length right.labels.length
    (overlapStep glob left.labels right.labels)

def hostMatches (pattern host : String) : Except String Bool :=
  (fun pattern => pattern.matches glob host) <$> HostPattern.new glob pattern

def HostSelector.new (incl excl : List String) : Except String HostSelector := do
  rejectIf incl.isEmpty "endpoint selector must include at least one host pattern"
  let includes ← incl.mapM (HostPattern.new glob)
  let excludes ← excl.mapM (HostPattern.new glob)
  return ⟨includes, excludes⟩

def HostSelector.matches (selector : HostSelector) (host : String) : Bool :=
  selector.includes.any (fun pattern => pattern.matches glob host) &&
    !selector.excludes.any (fun pattern => pattern.matches glob host)

/-- Conservatively determine whether the selector can match a host admitted by
`candidate`. -/
def HostSelector.mayMatchPattern (selector : HostSelector) (candidate : HostPattern) : Bool :=
  selector.includes.any fun incl =>
    if !incl.overlaps glob candidate then false
    else
      let excluded :=
        match candidate.literal.or incl.literal with
        | none =>
          selector.excludes.any fun excluded =>
            excluded.isUniversal || excluded.source == incl.source ||
              excluded.source == candidate.source
        | some host => selector.excludes.any fun excluded => excluded.matches glob host
      !excluded

end OpenShell.Core
