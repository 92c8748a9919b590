import Std.Data.ExtTreeMap
import OpenShell.Util.Text

/-!
# The authority attribute index

Containment is only modelled for policies whose overlapping endpoints agree on
some attributes. `AuthorityAttributeIndex` finds disagreements in one pass: it
keeps, for each port and kind of host, whether one value or several have been
seen. Reading the index after a recording is one lemma,
`overlapsWithDifferent_record`; nothing else is used about it.
-/

namespace OpenShell.Prover

/-- The values seen so far: none, one, or several. -/
structure AttributeSummary (T : Type) where
  first : Option T := none
  mixed : Bool := false
  isSome_of_mixed : mixed = true → first.isSome = true := by simp

namespace AttributeSummary

variable {T : Type} [DecidableEq T]

def conflicts (summary : AttributeSummary T) (value : T) : Bool :=
  summary.mixed || summary.first.any (· ≠ value)

def insert (summary : AttributeSummary T) (value : T) : AttributeSummary T :=
  match summary.first with
  | some first => { first := some first, mixed := summary.mixed || first ≠ value }
  | none => { first := some value, mixed := summary.mixed }

/-- A summary conflicts with every value different from one it has seen. -/
theorem conflicts_insert (summary : AttributeSummary T) (value other : T) :
    (summary.insert value).conflicts other = true ↔
      summary.conflicts other = true ∨ value ≠ other := by
  obtain ⟨first, mixed, hmixed⟩ := summary
  cases first with
  | none =>
    have hfalse : mixed = false := Bool.eq_false_iff.mpr fun h => by simpa using hmixed h
    simp [insert, conflicts, hfalse]
  | some first =>
    cases mixed with
    | true => simp [insert, conflicts]
    | false =>
      by_cases hv : first = value
      · subst hv
        simp [insert, conflicts]
      · by_cases ho : first = other
        · subst ho
          simp [insert, conflicts, hv, Ne.symm hv]
        · simp [insert, conflicts, hv, ho]

end AttributeSummary

/-- `BTreeMap<u16, AttributeSummary<T>>`. -/
abbrev PortSummaries (T : Type) := Std.ExtTreeMap UInt16 (AttributeSummary T)

namespace PortSummaries

variable {T : Type} [DecidableEq T]

def conflicts (summaries : PortSummaries T) (port : UInt16) (value : T) : Bool :=
  summaries[port]?.any (·.conflicts value)

/-- `entry(port).or_default().insert(value)`, for each port. -/
def record (summaries : PortSummaries T) (ports : List UInt16) (value : T) : PortSummaries T :=
  ports.foldl (fun summaries port =>
    summaries.insert port ((summaries[port]?.getD {}).insert value)) summaries

theorem conflicts_default (value : T) : ({} : AttributeSummary T).conflicts value = false := rfl

theorem conflicts_insert (summaries : PortSummaries T) (recorded port : UInt16) (value other : T) :
    conflicts (summaries.insert recorded ((summaries[recorded]?.getD {}).insert value)) port other =
        true ↔
      conflicts summaries port other = true ∨ (port = recorded ∧ value ≠ other) := by
  unfold conflicts
  rw [Std.ExtTreeMap.getElem?_insert]
  by_cases hport : recorded = port
  · subst hport
    rw [if_pos Std.ReflCmp.compare_self, Option.any_some, AttributeSummary.conflicts_insert]
    cases summaries[recorded]? with
    | none => simp [conflicts_default]
    | some summary => simp
  · rw [if_neg (fun h => hport (Std.LawfulEqCmp.eq_of_compare h))]
    simp [Ne.symm hport]

theorem conflicts_record (ports : List UInt16) (value other : T) (port : UInt16) :
    ∀ summaries : PortSummaries T,
      conflicts (summaries.record ports value) port other = true ↔
        conflicts summaries port other = true ∨ (port ∈ ports ∧ value ≠ other) := by
  induction ports with
  | nil => simp [record]
  | cons recorded ports ih =>
    intro summaries
    show conflicts (record (summaries.insert recorded _) ports value) port other = true ↔ _
    rw [ih, conflicts_insert]
    grind

end PortSummaries

/-- The values seen for all hosts, for host patterns and for each exact host. -/
structure AuthorityAttributeIndex (T : Type) where
  all : PortSummaries T := ∅
  wildcards : PortSummaries T := ∅
  exact : Std.ExtTreeMap String (PortSummaries T) := ∅

/-- Two endpoints that some connection may both match: a common port, and the
same host unless one of them is a pattern. -/
def MayOverlap (host : String) (ports : List UInt16) (host' : String) (ports' : List UInt16) :
    Prop :=
  (∃ port ∈ ports, port ∈ ports') ∧
    (containsChar host '*' = true ∨ containsChar host' '*' = true ∨ host = host')

namespace AuthorityAttributeIndex

variable {T : Type} [DecidableEq T]

def overlapsWithDifferent (index : AuthorityAttributeIndex T) (host : String)
    (ports : List UInt16) (value : T) : Bool :=
  ports.any fun port =>
    if containsChar host '*' then index.all.conflicts port value
    else index.wildcards.conflicts port value ||
      index.exact[host]?.any (·.conflicts port value)

/-- `insert`, each map in turn. -/
def record (index : AuthorityAttributeIndex T) (host : String) (ports : List UInt16) (value : T) :
    AuthorityAttributeIndex T :=
  { all := index.all.record ports value
    wildcards :=
      if containsChar host '*' then index.wildcards.record ports value else index.wildcards
    exact :=
      if containsChar host '*' then index.exact
      else index.exact.insert host ((index.exact[host]?.getD ∅).record ports value) }

theorem overlapsWithDifferent_empty (host : String) (ports : List UInt16) (value : T) :
    ({} : AuthorityAttributeIndex T).overlapsWithDifferent host ports value = false := by
  simp [overlapsWithDifferent, PortSummaries.conflicts]

/-- The part of the index consulted for a host that is no pattern. -/
theorem exact_record (index : AuthorityAttributeIndex T) (recorded host : String)
    (ports : List UInt16) (value other : T) (port : UInt16)
    (hrecorded : containsChar recorded '*' = false) :
    (index.record recorded ports value).exact[host]?.any (·.conflicts port other) = true ↔
      index.exact[host]?.any (·.conflicts port other) = true ∨
        (recorded = host ∧ port ∈ ports ∧ value ≠ other) := by
  simp only [record, hrecorded, Bool.false_eq_true, if_false]
  rw [Std.ExtTreeMap.getElem?_insert]
  by_cases hhost : recorded = host
  · subst hhost
    rw [if_pos Std.ReflCmp.compare_self, Option.any_some, PortSummaries.conflicts_record]
    cases index.exact[recorded]? with
    | none => simp [PortSummaries.conflicts]
    | some summaries => simp
  · rw [if_neg (fun h => hhost (Std.LawfulEqCmp.eq_of_compare h))]
    simp [hhost]

/-- What recording one endpoint adds to the index. -/
theorem overlapsWithDifferent_record (index : AuthorityAttributeIndex T) (recorded host : String)
    (recordedPorts ports : List UInt16) (value other : T) :
    (index.record recorded recordedPorts value).overlapsWithDifferent host ports other = true ↔
      index.overlapsWithDifferent host ports other = true ∨
        (MayOverlap recorded recordedPorts host ports ∧ value ≠ other) := by
  unfold overlapsWithDifferent MayOverlap
  rw [List.any_eq_true, List.any_eq_true]
  by_cases hhost : containsChar host '*' = true
  · simp only [hhost, if_true, record, PortSummaries.conflicts_record]
    grind
  · simp only [hhost, Bool.false_eq_true, if_false, Bool.or_eq_true]
    by_cases hrecorded : containsChar recorded '*' = true
    · simp only [record, hrecorded, if_true, PortSummaries.conflicts_record]
      grind
    · have hrecorded := Bool.eq_false_iff.mpr hrecorded
      simp only [exact_record index recorded host recordedPorts value other _ hrecorded]
      simp only [record, hrecorded, Bool.false_eq_true, if_false]
      grind

end AuthorityAttributeIndex

end OpenShell.Prover
