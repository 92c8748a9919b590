import OpenShell.Core.HostPattern

/-!
# What host patterns match

`LabelsMatch` is the meaning of a host pattern, label by label; the matcher's
search decides it (`matchesNormalizedLabels_iff`). Two patterns that match a
common host are found to overlap (`overlaps_of_common`): walking the host's
labels drives the product search through its states, and the one pair of moves
that has no transition, `**` against `**` with both staying, is a state the
search is already in.

From the `glob` crate only the documented meaning of plain text is needed: a
label without wildcard characters matches itself and nothing else.
-/

namespace OpenShell.Core

open OpenShell.Worklist

/-- What is assumed of the `glob` crate for host labels: text without wildcards
matches itself only, and a `?` also matches a `?`. -/
structure GlobLaws (glob : Glob) : Prop where
  literal : ∀ {p s : String}, isLiteralLabel p = true → (glob.isMatch p s = true ↔ s = p)
  question : ∀ {p : String}, '*' ∉ p.toList → '[' ∉ p.toList → glob.isMatch p p = true

/-- The first of the laws: text without wildcards matches itself only. -/
def MatchesOnlyItself (glob : Glob) : Prop :=
  ∀ p s : String, isLiteralLabel p = true → (glob.isMatch p s = true ↔ s = p)

/-- Labels that match themselves only: the crate on labels without wildcards. -/
def plainGlob : Glob where
  new _ := .ok ()
  isMatch p s := p == s

theorem plainGlob_laws : GlobLaws plainGlob where
  literal := by
    intro p s _
    rw [plainGlob, beq_iff_eq]
    exact eq_comm
  question := by
    intro p _ _
    rw [plainGlob, beq_iff_eq]

/-- The meaning of a pattern's labels. -/
inductive LabelsMatch (glob : Glob) : List HostLabelPattern → List String → Prop
  | nil : LabelsMatch glob [] []
  | label {source literal patterns h hs} : glob.isMatch source h = true →
      LabelsMatch glob patterns hs → LabelsMatch glob (.label source literal :: patterns) (h :: hs)
  | last {patterns h hs} : LabelsMatch glob patterns hs →
      LabelsMatch glob (.recursive :: patterns) (h :: hs)
  | more {patterns h hs} : LabelsMatch glob (.recursive :: patterns) hs →
      LabelsMatch glob (.recursive :: patterns) (h :: hs)

variable {i : Nat}

/-- Position `i` of a list is the head of what is left there. -/
theorem getElem?_of_drop {α : Type} {l rest : List α} {a : α}
    (h : l.drop i = a :: rest) : l[i]? = some a ∧ l.drop (i + 1) = rest := by
  constructor
  · have h0 : (l.drop i)[0]? = some a := by rw [h]; rfl
    simpa using h0
  · rw [← List.tail_drop, h, List.tail_cons]

theorem drop_of_getElem? {α : Type} {l : List α} {a : α} (h : l[i]? = some a) :
    l.drop i = a :: l.drop (i + 1) := by
  obtain ⟨hi, rfl⟩ := List.getElem?_eq_some_iff.mp h
  exact List.drop_eq_getElem_cons hi

theorem lt_of_getElem? {α : Type} {l : List α} {a : α} (h : l[i]? = some a) :
    i < l.length :=
  (List.getElem?_eq_some_iff.mp h).1

variable {j : Nat} {hs : List String} {pattern : HostPattern}

section Matching

variable {glob : Glob} {labels : List HostLabelPattern} {host : List String}

/-- What a transition of the matcher means for the labels that are left. -/
theorem matchStep_cases {t : Nat × Nat} (h : t ∈ matchStep glob labels host (i, j)) :
    ∃ l, labels[i]? = some l ∧ ∃ hl, host[j]? = some hl ∧
      ((l = .recursive ∧ (t = (i + 1, j + 1) ∨ t = (i, j + 1))) ∨
        ∃ source literal, l = .label source literal ∧ glob.isMatch source hl = true ∧
          t = (i + 1, j + 1)) := by
  unfold matchStep at h
  split at h
  next hl hh =>
    refine ⟨_, hl, _, hh, Or.inl ⟨rfl, ?_⟩⟩
    simpa using h
  next source literal label hl hh =>
    split at h
    next hm => exact ⟨_, hl, _, hh, Or.inr ⟨source, literal, rfl, hm, by simpa using h⟩⟩
    next => exact absurd h List.not_mem_nil
  next => exact absurd h List.not_mem_nil

theorem matchStep_length (s : Nat × Nat) : (matchStep glob labels host s).length ≤ 3 := by
  unfold matchStep
  split
  · simp
  · split <;> simp
  · simp

theorem matchStep_le (_ : i ≤ labels.length) (_ : j ≤ host.length) :
    ∀ t ∈ matchStep glob labels host (i, j), t.1 ≤ labels.length ∧ t.2 ≤ host.length := by
  intro t ht
  obtain ⟨l, hl, hl', hh, hcase⟩ := matchStep_cases ht
  have hi := lt_of_getElem? hl
  have hj := lt_of_getElem? hh
  rcases hcase with ⟨-, rfl | rfl⟩ | ⟨_, _, -, -, rfl⟩
  · exact ⟨hi, hj⟩
  · exact ⟨by omega, hj⟩
  · exact ⟨hi, hj⟩

/-- A run of the matcher to the ends is a match of what is left. -/
theorem labelsMatch_of_reachable {s : Nat × Nat}
    (h : Reachable (matchStep glob labels host) s (labels.length, host.length)) :
    LabelsMatch glob (labels.drop s.1) (host.drop s.2) := by
  induction h using Relation.ReflTransGen.head_induction_on with
  | refl =>
    rw [List.drop_length, List.drop_length]
    exact .nil
  | head hstep _ ih =>
    obtain ⟨l, hl, hl', hh, hcase⟩ := matchStep_cases hstep
    rw [drop_of_getElem? hl, drop_of_getElem? hh]
    rcases hcase with ⟨rfl, rfl | rfl⟩ | ⟨_, _, rfl, hm, rfl⟩
    · exact .last ih
    · rw [drop_of_getElem? hl] at ih
      exact .more ih
    · exact .label hm ih

/-- A match of what is left drives the matcher to the ends. -/
theorem reachable_of_labelsMatch {patterns : List HostLabelPattern}
    (h : LabelsMatch glob patterns hs) :
    ∀ {i j : Nat}, i ≤ labels.length → j ≤ host.length → labels.drop i = patterns →
      host.drop j = hs →
      Reachable (matchStep glob labels host) (i, j) (labels.length, host.length) := by
  induction h with
  | nil =>
    intro i j hi hj hp hh
    have hi' : labels.length ≤ i := List.drop_eq_nil_iff.mp hp
    have hj' : host.length ≤ j := List.drop_eq_nil_iff.mp hh
    rw [Nat.le_antisymm hi hi', Nat.le_antisymm hj hj']
  | label hm _ ih =>
    intro i j _ _ hp hh
    obtain ⟨hp, hp'⟩ := getElem?_of_drop hp
    obtain ⟨hh, hh'⟩ := getElem?_of_drop hh
    refine .head ?_ (ih (lt_of_getElem? hp) (lt_of_getElem? hh) hp' hh')
    simp only [matchStep, hp, hh, if_pos hm]
    exact List.mem_singleton.mpr rfl
  | last _ ih =>
    intro i j _ _ hp hh
    obtain ⟨hp, hp'⟩ := getElem?_of_drop hp
    obtain ⟨hh, hh'⟩ := getElem?_of_drop hh
    refine .head ?_ (ih (lt_of_getElem? hp) (lt_of_getElem? hh) hp' hh')
    simp [matchStep, hp, hh]
  | more _ ih =>
    intro i j hi _ hp hh
    obtain ⟨hp1, -⟩ := getElem?_of_drop hp
    obtain ⟨hh, hh'⟩ := getElem?_of_drop hh
    refine .head ?_ (ih hi (lt_of_getElem? hh) hp hh')
    simp [matchStep, hp1, hh]

/-- **The matcher decides the meaning of the pattern** on hosts with non-empty
labels. -/
theorem matchesNormalizedLabels_iff :
    pattern.matchesNormalizedLabels glob host = true ↔
      (∀ label ∈ host, isEmptyStr label = false) ∧ LabelsMatch glob pattern.labels host := by
  unfold HostPattern.matchesNormalizedLabels
  split
  next hempty =>
    obtain ⟨label, hl, he⟩ := List.any_eq_true.mp hempty
    constructor
    · intro h
      cases h
    · rintro ⟨hall, -⟩
      rw [hall label hl] at he
      cases he
  next hempty =>
    have hall : ∀ label ∈ host, isEmptyStr label = false := by simpa using hempty
    rw [searchPairs_iff (fun i j hi hj => matchStep_le hi hj) matchStep_length]
    constructor
    · exact fun h => ⟨hall, labelsMatch_of_reachable h⟩
    · exact fun h => reachable_of_labelsMatch h.2 (Nat.zero_le _) (Nat.zero_le _) rfl rfl

end Matching

/-! ## Overlap -/

/-- The flag of a label pattern tells whether its text is free of wildcards. -/
def LabelsCompiled (labels : List HostLabelPattern) : Prop :=
  ∀ source literal, .label source literal ∈ labels → literal = isLiteralLabel source

section Overlap

variable {glob : Glob} {left right : List HostLabelPattern}

theorem overlapStep_length (s : Nat × Nat) : (overlapStep glob left right s).length ≤ 3 := by
  unfold overlapStep
  split
  · simp
  · simp
  · simp
  · split <;> simp
  · simp

/-- All that a transition of the overlap search can be: both patterns go on, or one of them
stays at its `**`. -/
theorem mem_overlapStep {t : Nat × Nat} : t ∈ overlapStep glob left right (i, j) ↔
    ∃ l, left[i]? = some l ∧ ∃ r, right[j]? = some r ∧
      (t = (i + 1, j + 1) ∧ labelPatternsMayOverlap glob l r = true ∨ t = (i, j + 1) ∧
        l = .recursive ∨ t = (i + 1, j) ∧ r = .recursive) := by
  cases hl : left[i]? with
  | none => simp [overlapStep, hl]
  | some l =>
    cases hr : right[j]? with
    | none => simp [overlapStep, hl, hr]
    | some r =>
      cases l with
      | recursive => cases r <;> simp [overlapStep, hl, hr, labelPatternsMayOverlap]
      | label =>
        cases r with
        | recursive => simp [overlapStep, hl, hr, labelPatternsMayOverlap]
        | label =>
          simp only [overlapStep, hl, hr]
          split <;> simp [*]

theorem overlapStep_le (_ : i ≤ left.length) (_ : j ≤ right.length) :
    ∀ t ∈ overlapStep glob left right (i, j), t.1 ≤ left.length ∧ t.2 ≤ right.length := by
  intro t ht
  obtain ⟨l, hl, r, hr, hcase⟩ := mem_overlapStep.mp ht
  have hi := lt_of_getElem? hl
  have hj := lt_of_getElem? hr
  rcases hcase with ⟨rfl, -⟩ | ⟨rfl, -⟩ | ⟨rfl, -⟩
  · exact ⟨hi, hj⟩
  · exact ⟨by omega, hj⟩
  · exact ⟨hi, by omega⟩

/-- Matching, with every label also a match of its own text. -/
def Glob.orSame (glob : Glob) : Glob where
  new := glob.new
  isMatch pattern text := glob.isMatch pattern text || pattern == text

/-- Two labels that match the same text, or are it, may overlap. -/
theorem labelPatternsMayOverlap_of_common (hliteral : MatchesOnlyItself glob) {ls rs h : String}
    (hl : glob.orSame.isMatch ls h = true) (hr : glob.orSame.isMatch rs h = true) :
    labelPatternsMayOverlap glob (.label ls (isLiteralLabel ls)) (.label rs (isLiteralLabel rs))
      = true := by
  have hself : ∀ {p}, isLiteralLabel p = true → glob.isMatch p h = true ∨ p = h → h = p :=
    fun hp hm => hm.elim (hliteral _ _ hp).mp Eq.symm
  rw [Glob.orSame, Bool.or_eq_true, beq_iff_eq] at hl hr
  unfold labelPatternsMayOverlap
  -- a label with wildcards is not the text of one without
  cases hll : isLiteralLabel ls <;> cases hrl : isLiteralLabel rs
  · rfl
  · obtain rfl := hself hrl hr
    exact hl.resolve_right fun hsame => absurd (hsame ▸ hll) (by simp [hrl])
  · obtain rfl := hself hll hl
    exact hr.resolve_right fun hsame => absurd (hsame ▸ hrl) (by simp [hll])
  · exact beq_iff_eq.mpr ((hself hll hl).symm.trans (hself hrl hr))

theorem LabelsMatch.orSame {labels : List HostLabelPattern} (h : LabelsMatch glob labels hs) :
    LabelsMatch glob.orSame labels hs := by
  induction h with
  | nil => exact .nil
  | label hm _ ih => exact .label (Bool.or_eq_true_iff.mpr (.inl hm)) ih
  | last _ ih => exact .last ih
  | more _ ih => exact .more ih

/-- How the first label of a host is taken: the pattern goes on, or stays at a `**`. -/
theorem LabelsMatch.head {labels : List HostLabelPattern} {h : String}
    (hm : LabelsMatch glob (labels.drop i) (h :: hs)) :
    ∃ l, labels[i]? = some l ∧
      ((∀ source literal, l = .label source literal → glob.isMatch source h = true) ∧
          LabelsMatch glob (labels.drop (i + 1)) hs ∨
        l = .recursive ∧ LabelsMatch glob (labels.drop i) hs) := by
  generalize hdrop : labels.drop i = patterns at hm
  cases hm with
  | label htext hrest =>
    obtain ⟨hl, rfl⟩ := getElem?_of_drop hdrop
    refine ⟨_, hl, Or.inl ⟨?_, hrest⟩⟩
    rintro source literal heq
    exact (HostLabelPattern.label.inj heq).1 ▸ htext
  | last hrest =>
    obtain ⟨hl, rfl⟩ := getElem?_of_drop hdrop
    exact ⟨_, hl, Or.inl ⟨nofun, hrest⟩⟩
  | more hrest => exact ⟨_, (getElem?_of_drop hdrop).1, Or.inr ⟨rfl, hrest⟩⟩

/-- Walking a common host drives the product search to the ends. -/
theorem reachable_of_common (hliteral : MatchesOnlyItself glob) (hcl : LabelsCompiled left)
    (hcr : LabelsCompiled right) (hs : List String) :
    ∀ {i j : Nat}, i ≤ left.length → j ≤ right.length →
      LabelsMatch glob.orSame (left.drop i) hs → LabelsMatch glob.orSame (right.drop j) hs →
      Reachable (overlapStep glob left right) (i, j) (left.length, right.length) := by
  induction hs with
  | nil =>
    intro i j hi hj hl hr
    generalize hld : left.drop i = lp at hl
    generalize hrd : right.drop j = rp at hr
    cases hl
    cases hr
    have hi' : left.length ≤ i := List.drop_eq_nil_iff.mp hld
    have hj' : right.length ≤ j := List.drop_eq_nil_iff.mp hrd
    rw [Nat.le_antisymm hi hi', Nat.le_antisymm hj hj']
  | cons h hs ih =>
    intro i j hi hj hl hr
    obtain ⟨l, hle, hl⟩ := hl.head
    obtain ⟨r, hre, hr⟩ := hr.head
    have hi' := lt_of_getElem? hle
    have hj' := lt_of_getElem? hre
    have hstep :=
      fun t hcase => (@mem_overlapStep _ _ glob left right t).mpr ⟨l, hle, r, hre, hcase⟩
    rcases hl with ⟨hlm, hl⟩ | ⟨hlrec, hl⟩
    · rcases hr with ⟨hrm, hr⟩ | ⟨hrrec, hr⟩
      · have hmay : labelPatternsMayOverlap glob l r = true := by
          cases l with
          | recursive => rfl
          | label =>
            cases r with
            | recursive => rfl
            | label =>
              rw [hcl _ _ (List.mem_of_getElem? hle), hcr _ _ (List.mem_of_getElem? hre)]
              exact labelPatternsMayOverlap_of_common hliteral (hlm _ _ rfl) (hrm _ _ rfl)
        exact .head (hstep _ (Or.inl ⟨rfl, hmay⟩)) (ih hi' hj' hl hr)
      · exact .head (hstep _ (Or.inr (Or.inr ⟨rfl, hrrec⟩))) (ih hi' hj hl hr)
    · rcases hr with ⟨-, hr⟩ | ⟨-, hr⟩
      · exact .head (hstep _ (Or.inr (Or.inl ⟨rfl, hlrec⟩))) (ih hi hj' hl hr)
      · -- both `**` stay: the product state is the one the search is in
        exact ih hi hj hl hr

end Overlap

variable {glob : Glob}

/-- **Overlap is complete**: patterns that match a common host, or are it, are found to
overlap. -/
theorem overlaps_of_common (hliteral : MatchesOnlyItself glob) {left right : HostPattern}
    (hcl : LabelsCompiled left.labels) (hcr : LabelsCompiled right.labels)
    (hl : LabelsMatch glob.orSame left.labels hs) (hr : LabelsMatch glob.orSame right.labels hs) :
    left.overlaps glob right = true := by
  unfold HostPattern.overlaps
  rw [searchPairs_iff (fun i j hi hj => overlapStep_le hi hj) overlapStep_length]
  exact reachable_of_common hliteral hcl hcr hs (Nat.zero_le _) (Nat.zero_le _) hl hr

/-! ## Compiled patterns -/

/-- The label pattern of a label's text. -/
def HostLabelPattern.ofText (label : String) : HostLabelPattern :=
  if label = "**" then .recursive else .label label (isLiteralLabel label)

/-- The text of a label pattern. -/
def HostLabelPattern.text : HostLabelPattern → String
  | .recursive => "**"
  | .label source _ => source

theorem HostLabelPattern.text_ofText (label : String) : (ofText label).text = label := by
  unfold ofText
  split
  next h => rw [h]; rfl
  next => rfl

theorem ofText_eq_recursive {label : String} : HostLabelPattern.ofText label = .recursive ↔
    label = "**" := by
  unfold HostLabelPattern.ofText
  split
  next h => exact iff_of_true rfl h
  next h => exact iff_of_false nofun h

theorem map_text_ofText (texts : List String) :
    (texts.map HostLabelPattern.ofText).map HostLabelPattern.text = texts := by
  simp [Function.comp_def, HostLabelPattern.text_ofText]

theorem labelsCompiled_ofText (texts : List String) : LabelsCompiled (texts.map .ofText) := by
  intro source literal hmem
  obtain ⟨label, -, he⟩ := List.mem_map.mp hmem
  unfold HostLabelPattern.ofText at he
  obtain ⟨-, he⟩ := else_of_ite he nofun
  obtain ⟨rfl, rfl⟩ := HostLabelPattern.label.inj he
  rfl

/-- A pattern as the constructor builds it: lower-case, with the labels of its
text. -/
structure Compiled (pattern : HostPattern) : Prop where
  lower : toAsciiLowercase pattern.source = pattern.source
  labels : pattern.labels = (splitChar pattern.source '.').map HostLabelPattern.ofText

theorem HostLabelPattern.new_eq_ok {label : String} {l : HostLabelPattern}
    (h : HostLabelPattern.new glob label = .ok l) : l = .ofText label := by
  unfold HostLabelPattern.new at h
  unfold HostLabelPattern.ofText
  split at h
  next hr => rw [if_pos hr, Except.ok.inj h]
  next hr =>
    rw [if_neg hr]
    split at h
    next => cases h
    next => rw [Except.ok.inj h]

/-- What a successful construction gives: a compiled pattern of the lower-cased
text, which has no empty label. -/
theorem HostPattern.new_eq_ok {text : String}
    (h : HostPattern.new glob text = .ok pattern) :
    Compiled pattern ∧ pattern.source = toAsciiLowercase text ∧
      ∀ label ∈ splitChar (toAsciiLowercase text) '.', isEmptyStr label = false := by
  obtain ⟨-, h⟩ := rejectIf_bind.mp h
  obtain ⟨-, h⟩ := rejectIf_bind.mp h
  obtain ⟨-, h⟩ := rejectIf_bind.mp h
  obtain ⟨hlabels, h⟩ := rejectIf_bind.mp h
  obtain ⟨labels, hmap, rfl⟩ := bind_ok_eq_ok h
  have hmap' := mapM_eq_map (fun _ _ => HostLabelPattern.new_eq_ok) hmap
  exact ⟨⟨toAsciiLowercase_idem text, hmap'⟩, rfl, by simpa using hlabels⟩

variable {host : String}

section Patterns

variable {glob : Glob} {pattern other : HostPattern}

theorem Compiled.labelsCompiled (h : Compiled pattern) : LabelsCompiled pattern.labels :=
  h.labels ▸ labelsCompiled_ofText _

/-- A pattern is a match of its own text, up to wildcards. -/
theorem Compiled.orSame (h : Compiled pattern) :
    LabelsMatch glob.orSame pattern.labels (splitChar pattern.source '.') := by
  rw [h.labels]
  induction splitChar pattern.source '.' with
  | nil => exact .nil
  | cons text texts ih =>
    rw [List.map_cons, HostLabelPattern.ofText]
    split
    · exact .last ih
    · exact .label (Bool.or_eq_true_iff.mpr (.inr (beq_iff_eq.mpr rfl))) ih

theorem Compiled.ext (h : Compiled pattern) (h' : Compiled other)
    (hs : pattern.source = other.source) : pattern = other := by
  have hl : pattern.labels = other.labels := by rw [h.labels, h'.labels, hs]
  cases pattern
  cases other
  simp_all

/-- Matching a host, unfolded to labels. -/
theorem matches_iff :
    pattern.matches glob host = true ↔
      (∀ label ∈ splitChar (toAsciiLowercase host) '.', isEmptyStr label = false) ∧
        LabelsMatch glob pattern.labels (splitChar (toAsciiLowercase host) '.') :=
  matchesNormalizedLabels_iff

/-- Matching only looks at the lower-cased host. -/
theorem matches_congr {h₁ h₂ : String} (h : toAsciiLowercase h₁ = toAsciiLowercase h₂) :
    pattern.matches glob h₁ = pattern.matches glob h₂ := by
  unfold HostPattern.matches
  rw [h]

/-- Literal labels match their own texts only. -/
theorem map_text_of_literal (laws : GlobLaws glob) {labels : List HostLabelPattern}
    (hm : LabelsMatch glob labels hs) :
    labels.all HostLabelPattern.isLiteral = true → LabelsCompiled labels →
      labels.map HostLabelPattern.text = hs := by
  induction hm with
  | nil => exact fun _ _ => rfl
  | @label source literal patterns h hs hm _ ih =>
    intro hall hcomp
    simp only [List.all_cons, HostLabelPattern.isLiteral, Bool.and_eq_true] at hall
    have hflag := hcomp source literal List.mem_cons_self
    rw [hall.1] at hflag
    rw [List.map_cons, (laws.literal hflag.symm).mp hm,
      ih hall.2 fun s l hm => hcomp s l (List.mem_cons_of_mem _ hm)]
    rfl
  | last | more =>
    intro hall
    simp [HostLabelPattern.isLiteral] at hall

/-- A pattern of literal labels matches its own text only. -/
theorem eq_source_of_literal (laws : GlobLaws glob) (hc : Compiled pattern)
    {source : String} (hlit : pattern.literal = some source)
    (hm : pattern.matches glob host = true) :
    source = pattern.source ∧ toAsciiLowercase host = source := by
  unfold HostPattern.literal at hlit
  obtain ⟨hall, ⟨⟩⟩ := then_of_ite hlit nofun
  refine ⟨rfl, ?_⟩
  have hsplit := map_text_of_literal laws (matches_iff.mp hm).2 hall hc.labelsCompiled
  rw [hc.labels, map_text_ofText] at hsplit
  exact (joined_of_splitChar hsplit).symm

/-- A `**` takes one or more labels: all of them but the last keep it. -/
theorem LabelsMatch.recursive {patterns : List HostLabelPattern}
    (h : LabelsMatch glob patterns hs) :
    ∀ {group : List String}, group ≠ [] → LabelsMatch glob (.recursive :: patterns) (group ++ hs)
  | [], hne => absurd rfl hne
  | [_], _ => .last h
  | _ :: next :: group, _ => .more (h.recursive (List.cons_ne_nil next group))

/-- `**` alone matches every host with non-empty labels. -/
theorem matches_of_universal (h : pattern.isUniversal = true)
    (hne : ∀ label ∈ splitChar (toAsciiLowercase host) '.', isEmptyStr label = false) :
    pattern.matches glob host = true := by
  have hl : pattern.labels = [.recursive] := by simpa [HostPattern.isUniversal] using h
  have hall := (@LabelsMatch.nil glob).recursive (splitChar_ne_nil (toAsciiLowercase host) '.')
  rw [List.append_nil] at hall
  rw [matches_iff, hl]
  exact ⟨hne, hall⟩

/-- What one label of a pattern's text takes of the host: a `**` one or more labels, any
other label one that it matches. -/
def Consumes (glob : Glob) (label : String) (group : List String) : Prop :=
  if label = "**" then group ≠ [] else ∃ h, group = [h] ∧ glob.isMatch label h = true

/-- The meaning of the labels, as a way to split the host among them. -/
theorem labelsMatch_iff_split {texts hs : List String} :
    LabelsMatch glob (texts.map HostLabelPattern.ofText) hs ↔
      ∃ groups : List (List String), groups.flatten = hs ∧
        List.Forall₂ (Consumes glob) texts groups := by
  constructor
  · intro h
    generalize hlabels : texts.map HostLabelPattern.ofText = labels at h
    induction h generalizing texts with
    | nil =>
      obtain rfl := List.map_eq_nil_iff.mp hlabels
      exact ⟨[], rfl, .nil⟩
    | @label source _ _ h _ hm _ ih =>
      obtain ⟨text, texts, rfl, htext, hrest⟩ := List.map_eq_cons_iff.mp hlabels
      obtain ⟨groups, rfl, hgroups⟩ := ih hrest
      refine ⟨[h] :: groups, rfl, .cons ?_ hgroups⟩
      unfold HostLabelPattern.ofText at htext
      obtain ⟨hstars, htext⟩ := else_of_ite htext nofun
      rw [Consumes, if_neg hstars]
      exact ⟨h, rfl, (HostLabelPattern.label.inj htext).1 ▸ hm⟩
    | @last _ h _ _ ih =>
      obtain ⟨text, texts, rfl, htext, hrest⟩ := List.map_eq_cons_iff.mp hlabels
      obtain ⟨groups, rfl, hgroups⟩ := ih hrest
      refine ⟨[h] :: groups, rfl, .cons ?_ hgroups⟩
      rw [Consumes, if_pos (ofText_eq_recursive.mp htext)]
      exact List.cons_ne_nil _ _
    | @more _ h _ _ ih =>
      -- the `**` takes one label more than the group it has in what is left
      obtain ⟨text, texts, rfl, htext, -⟩ := List.map_eq_cons_iff.mp hlabels
      obtain ⟨groups, rfl, hgroups⟩ := ih hlabels
      cases hgroups with
      | @cons _ group _ groups hgroup hgroups =>
        refine ⟨(h :: group) :: groups, rfl, .cons ?_ hgroups⟩
        rw [Consumes, if_pos (ofText_eq_recursive.mp htext)]
        exact List.cons_ne_nil _ _
  · rintro ⟨groups, rfl, hgroups⟩
    induction hgroups with
    | nil => exact .nil
    | @cons text group texts groups hgroup _ ih =>
      rw [Consumes] at hgroup
      rw [List.map_cons, HostLabelPattern.ofText]
      split at hgroup
      next hstars =>
        rw [if_pos hstars]
        exact ih.recursive hgroup
      next hstars =>
        obtain ⟨h, rfl, hm⟩ := hgroup
        rw [if_neg hstars]
        exact .label hm ih

/-- A host is matched by the labels of the pattern's text, and two patterns that match one
host are found to overlap. -/
theorem hostPattern_meaning (hliteral : MatchesOnlyItself glob) {text : String}
    (h : HostPattern.new glob text = .ok pattern) :
    (∀ host, pattern.matches glob host = true ↔
      (∀ label ∈ splitChar (toAsciiLowercase host) '.', isEmptyStr label = false) ∧
        ∃ groups : List (List String), groups.flatten = splitChar (toAsciiLowercase host) '.' ∧
          List.Forall₂ (Consumes glob) (splitChar (toAsciiLowercase text) '.') groups) ∧
      ∀ otherText other, HostPattern.new glob otherText = .ok other →
        (∃ host, pattern.matches glob host = true ∧ other.matches glob host = true) →
          pattern.overlaps glob other = true := by
  obtain ⟨hcompiled, hsource, -⟩ := HostPattern.new_eq_ok h
  constructor
  · intro host
    rw [matches_iff, hcompiled.labels, labelsMatch_iff_split, hsource]
  · rintro otherText other hother ⟨host, hm, hm'⟩
    exact overlaps_of_common hliteral hcompiled.labelsCompiled
      (HostPattern.new_eq_ok hother).1.labelsCompiled
      (matches_iff.mp hm).2.orSame (matches_iff.mp hm').2.orSame

/-- `**.example` takes two labels of `a.b.example`. -/
theorem hostPattern_meaning_example : MatchesOnlyItself plainGlob ∧
    ∃ pattern, HostPattern.new plainGlob "**.example" = .ok pattern ∧
      pattern.matches plainGlob "a.b.example" = true ∧
        pattern.overlaps plainGlob pattern = true := by
  have hlaw : MatchesOnlyItself plainGlob := fun _ _ => plainGlob_laws.literal
  have hnew : HostPattern.new plainGlob "**.example" =
      .ok ⟨"**.example", [.recursive, .label "example" true]⟩ := by decide
  have hmeaning := hostPattern_meaning hlaw hnew
  have hmatch : HostPattern.matches plainGlob ⟨"**.example", [.recursive, .label "example" true]⟩
      "a.b.example" = true := by
    have htext : splitChar (toAsciiLowercase "**.example") '.' = ["**", "example"] := by decide
    rw [hmeaning.1, htext]
    refine ⟨by decide, [["a", "b"], ["example"]], by decide, ?_⟩
    simp [Consumes, plainGlob]
  exact ⟨hlaw, _, hnew, hmatch, hmeaning.2 _ _ hnew ⟨_, hmatch, hmatch⟩⟩

end Patterns

/-! ## Selectors -/

variable {selector : HostSelector}

theorem HostSelector.new_eq_ok {incl excl : List String}
    (h : HostSelector.new glob incl excl = .ok selector) :
    (∀ p ∈ selector.includes, Compiled p) ∧ ∀ p ∈ selector.excludes, Compiled p := by
  obtain ⟨-, h⟩ := rejectIf_bind.mp h
  obtain ⟨includes, hincl, h⟩ := bind_eq_ok h
  obtain ⟨excludes, hexcl, rfl⟩ := bind_ok_eq_ok h
  have hcomp : ∀ {texts : List String} {patterns : List HostPattern},
      texts.mapM (HostPattern.new glob) = .ok patterns → ∀ p ∈ patterns, Compiled p := by
    intro texts patterns hm p hp
    obtain ⟨text, -, ht⟩ := exists_of_mem_mapM hm p hp
    exact (HostPattern.new_eq_ok ht).1
  exact ⟨hcomp hincl, hcomp hexcl⟩

/-- **The intersection test is conservative.** A selector that matches some host
of the candidate is reported as possibly matching it. -/
theorem mayMatchPattern_of_common (laws : GlobLaws glob)
    (hincl : ∀ p ∈ selector.includes, Compiled p) (hexcl : ∀ p ∈ selector.excludes, Compiled p)
    {candidate : HostPattern} (hcand : Compiled candidate)
    (hm : candidate.matches glob host = true) (hsel : selector.matches glob host = true) :
    selector.mayMatchPattern glob candidate = true := by
  simp only [HostSelector.matches, Bool.and_eq_true, Bool.not_eq_true', List.any_eq_true,
    List.any_eq_false, Bool.not_eq_true] at hsel
  obtain ⟨⟨incl, hin, hinm⟩, hnone⟩ := hsel
  have hoverlap : incl.overlaps glob candidate = true :=
    overlaps_of_common (fun _ _ => laws.literal)
      (hincl incl hin).labelsCompiled hcand.labelsCompiled
      (matches_iff.mp hinm).2.orSame (matches_iff.mp hm).2.orSame
  unfold HostSelector.mayMatchPattern
  rw [List.any_eq_true]
  refine ⟨incl, hin, ?_⟩
  rw [if_neg (by simp [hoverlap]), Bool.not_eq_true']
  -- an exclusion that would suppress the report matches `host` itself
  split
  next =>
    rw [List.any_eq_false]
    intro ex hex hsuppress
    simp only [Bool.or_eq_true, beq_iff_eq] at hsuppress
    have hmatch : ex.matches glob host = true := by
      rcases hsuppress with (huniv | hsrc) | hsrc
      · exact matches_of_universal huniv (matches_iff.mp hm).1
      · rw [(hexcl ex hex).ext (hincl incl hin) hsrc]
        exact hinm
      · rw [(hexcl ex hex).ext hcand hsrc]
        exact hm
    rw [hnone ex hex] at hmatch
    cases hmatch
  next source hlit =>
    have hhost : toAsciiLowercase host = toAsciiLowercase source := by
      rcases Option.or_eq_some_iff.mp hlit with hl | ⟨-, hl⟩
      · obtain ⟨rfl, he⟩ := eq_source_of_literal laws hcand hl hm
        rw [he, hcand.lower]
      · obtain ⟨rfl, he⟩ := eq_source_of_literal laws (hincl incl hin) hl hinm
        rw [he, (hincl incl hin).lower]
    rw [List.any_eq_false]
    intro ex hex
    rw [← matches_congr hhost, hnone ex hex]
    decide

end OpenShell.Core
