import OpenShell.Core.HostPatternSpec

/-!
# Endpoint path patterns

Path selectors of provider endpoints, after `endpoint_path.rs`. Three spellings
match every path, a trailing `/**` selects a path and what is below it, and any
other pattern is a glob. A glob that does not compile matches its own text only.
-/

namespace OpenShell.Core

inductive EndpointPathPatternKind
  | any
  | subtree (pre : String)
  | glob
  | invalid
  deriving DecidableEq

structure EndpointPathPattern where
  source : String
  kind : EndpointPathPatternKind
  deriving DecidableEq

/-- The spellings that match every path. -/
def pathMatchesAll (pattern : String) : Bool :=
  isEmptyStr pattern || pattern == "**" || pattern == "/**"

def EndpointPathPattern.new (glob : Glob) (pattern : String) : EndpointPathPattern where
  source := pattern
  kind :=
    if pathMatchesAll pattern then .any
    else
      match stripSuf pattern "/**" with
      | some pre => .subtree pre
      | none =>
        match glob.new pattern with
        | .ok () => .glob
        | .error _ => .invalid

def EndpointPathPattern.matches (glob : Glob) (pattern : EndpointPathPattern)
    (path : String) : Bool :=
  pattern.source == path ||
    match pattern.kind with
    | .any => true
    | .subtree pre => path == pre || (stripPre path pre).any (startsWith · "/")
    | .glob => glob.isMatch pattern.source path
    | .invalid => false

def endpointPathMatches (glob : Glob) (pattern path : String) : Bool :=
  (EndpointPathPattern.new glob pattern).matches glob path

/-! ## What patterns match -/

section Matching
variable {glob : Glob} {pattern path pre : String}

/-- A path is below another one. -/
def Below (pre path : String) : Prop := ∃ rest, path.toList = pre.toList ++ '/' :: rest

/-- A subtree is its root and what is below it. -/
theorem endpointPathMatches_subtree (hall : pathMatchesAll pattern = false)
    (hpre : stripSuf pattern "/**" = some pre) :
    endpointPathMatches glob pattern path = true ↔ path = pre ∨ Below pre path := by
  have hsource : pattern.toList = pre.toList ++ '/' :: ['*', '*'] := stripSuf_eq_some hpre
  have hbelow : (stripPre path pre).any (startsWith · "/") = true ↔ Below pre path := by
    rw [Option.any_eq_true]
    constructor
    · rintro ⟨rest, hrest, hslash⟩
      obtain ⟨tail, htail⟩ := startsWith_iff.mp hslash
      exact ⟨tail, by rw [stripPre_eq_some hrest, htail]; rfl⟩
    · rintro ⟨rest, hrest⟩
      refine ⟨String.ofList ('/' :: rest), ?_, startsWith_iff.mpr ⟨rest, by simp⟩⟩
      rw [stripPre, if_pos (startsWith_iff.mpr ⟨_, hrest⟩), hrest, List.drop_left]
  unfold endpointPathMatches EndpointPathPattern.matches EndpointPathPattern.new
  simp only [hall, Bool.false_eq_true, if_false, hpre, Bool.or_eq_true, beq_iff_eq, hbelow]
  constructor
  · rintro (rfl | h)
    · exact .inr ⟨_, hsource⟩
    · exact h
  · exact .inr

/-- Any other pattern matches its own text, and what the compiled glob matches. -/
theorem endpointPathMatches_glob (hall : pathMatchesAll pattern = false)
    (hpre : stripSuf pattern "/**" = none) :
    endpointPathMatches glob pattern path = true ↔
      path = pattern ∨ (glob.new pattern = .ok () ∧ glob.isMatch pattern path = true) := by
  unfold endpointPathMatches EndpointPathPattern.matches EndpointPathPattern.new
  simp only [hall, Bool.false_eq_true, if_false, hpre, Bool.or_eq_true, beq_iff_eq]
  rw [eq_comm (a := path)]
  cases hnew : glob.new pattern with
  | error e => simp
  | ok u => simp

/-- A pattern without wildcards matches its own text only. -/
theorem eq_of_endpointPathMatches (laws : GlobLaws glob) (hall : pathMatchesAll pattern = false)
    (hliteral : isLiteralLabel pattern = true) (h : endpointPathMatches glob pattern path = true) :
    path = pattern := by
  have hpre : stripSuf pattern "/**" = none := by
    cases hstrip : stripSuf pattern "/**" with
    | none => rfl
    | some pre => simp [isLiteralLabel, stripSuf_eq_some hstrip] at hliteral
  rcases (endpointPathMatches_glob hall hpre).mp h with h | ⟨-, h⟩
  · exact h
  · exact (laws.literal hliteral).mp h

end Matching

/-! ## A glob without character classes -/

end OpenShell.Core
