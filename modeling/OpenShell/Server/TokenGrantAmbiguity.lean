import OpenShell.L7.TokenGrantSpecificity
import OpenShell.Server.ProviderTokenGrant

/-!
# The gateway's ambiguity check and the supervisor's selection

A selection ties only if two bindings of different credentials match the request
and have the same header, port and score. The gateway refuses such a pair if its
overlap tests find it. They read a wildcard inside a host label, and a `?` or a
class, as text, so the check is sound where rivals are spelled without these:
wildcards are whole host labels, and paths without `*` are literal
(`neverTies_of_plain`).
-/

namespace OpenShell.Server

open OpenShell.Core OpenShell.L7

/-! ## Hosts -/

/-- Wildcards are whole labels. -/
def PlainHost (host : String) : Prop :=
  ∀ label ∈ splitChar (toAsciiLowercase host) '.', label = "*" ∨ label = "**" ∨
    isLiteralLabel label = true

section Labels
variable {glob : Glob}

/-- Labels in the gateway's reading: whole-label wildcards or text. -/
def PlainLabels (labels : List String) : Prop :=
  ∀ label ∈ labels, label = "*" ∨ label = "**" ∨ isLiteralLabel label = true

variable {left right : List String}

theorem hostPatternLabelsCanOverlap_recursive_left
    (h : hostPatternLabelsCanOverlap left right = true) :
    hostPatternLabelsCanOverlap ("**" :: left) right = true := by
  cases right <;> simp [hostPatternLabelsCanOverlap, h]

theorem hostPatternLabelsCanOverlap_recursive_right
    (h : hostPatternLabelsCanOverlap left right = true) :
    hostPatternLabelsCanOverlap left ("**" :: right) = true := by
  cases left with
  | nil => simp [hostPatternLabelsCanOverlap, h]
  | cons label rest =>
    rw [hostPatternLabelsCanOverlap]
    split <;> simp [h]

/-- A host is matched by the labels of a text. -/
def TextsMatch (glob : Glob) (labels host : List String) : Prop :=
  LabelsMatch glob (labels.map .ofText) host

variable {host labels : List String}

theorem eq_nil_of_textsMatch (h : TextsMatch glob labels []) : labels = [] := by
  unfold TextsMatch at h
  generalize hlabels : labels.map HostLabelPattern.ofText = patterns at h
  cases h
  exact List.map_eq_nil_iff.mp hlabels

/-- How the first label of a host is taken: the pattern goes on, or stays at a `**`. -/
theorem textsMatch_cons {first : String} (h : TextsMatch glob labels (first :: host)) :
    ∃ label rest, labels = label :: rest ∧
      (TextsMatch glob rest host ∧ (label ≠ "**" → glob.isMatch label first = true) ∨
        label = "**" ∧ TextsMatch glob labels host) := by
  cases labels with
  | nil => cases h
  | cons label rest =>
    obtain ⟨_, hl, hcase⟩ := LabelsMatch.head (i := 0) h
    cases hl
    refine ⟨label, rest, rfl, hcase.imp ?_ ?_⟩
    · rintro ⟨hmatch, h⟩
      exact ⟨h, fun hne => hmatch label _ (if_neg hne)⟩
    · rintro ⟨hrec, h⟩
      exact ⟨ofText_eq_recursive.mp hrec, h⟩

section Steps
variable {l r : String}

/-- Both patterns go on. -/
theorem hostPatternLabelsCanOverlap_cons (h : hostPatternLabelsCanOverlap left right = true)
    (hlabels : l ≠ "**" → r ≠ "**" → l = "*" ∨ r = "*" ∨ l = r) :
    hostPatternLabelsCanOverlap (l :: left) (r :: right) = true := by
  rw [hostPatternLabelsCanOverlap]
  split
  next hl => rw [hl, hostPatternLabelsCanOverlap_recursive_left h, Bool.or_true]
  next hl =>
    split
    next hr => rw [hr, hostPatternLabelsCanOverlap_recursive_right h, Bool.or_true]
    next hr => simpa [h, or_assoc] using hlabels hl hr

/-- The left pattern stays at a `**`. -/
theorem hostPatternLabelsCanOverlap_left
    (h : hostPatternLabelsCanOverlap ("**" :: left) right = true) :
    hostPatternLabelsCanOverlap ("**" :: left) (r :: right) = true := by
  rw [hostPatternLabelsCanOverlap, if_pos rfl, h, Bool.or_true]

/-- The right pattern stays at a `**`. -/
theorem hostPatternLabelsCanOverlap_right
    (h : hostPatternLabelsCanOverlap left ("**" :: right) = true) :
    hostPatternLabelsCanOverlap (l :: left) ("**" :: right) = true := by
  rw [hostPatternLabelsCanOverlap]
  split
  next => rw [h, Bool.true_or]
  next => rw [if_pos rfl, h, Bool.or_true]

end Steps

/-- Two plain patterns with a common host are found to overlap. -/
theorem hostPatternLabelsCanOverlap_of_common (laws : GlobLaws glob) :
    ∀ {left right : List String}, PlainLabels left → PlainLabels right →
      TextsMatch glob left host → TextsMatch glob right host →
        hostPatternLabelsCanOverlap left right = true := by
  -- the host is consumed label by label; a `**` may stay or end at each
  induction host with
  | nil =>
    intro left right _ _ hl hr
    rw [eq_nil_of_textsMatch hl, eq_nil_of_textsMatch hr, hostPatternLabelsCanOverlap]
  | cons first host ih =>
    intro left right hpl hpr hl hr
    obtain ⟨l, left, rfl, hl⟩ := textsMatch_cons hl
    obtain ⟨r, right, rfl, hr⟩ := textsMatch_cons hr
    have hpl' : PlainLabels left := (List.forall_mem_cons.mp hpl).2
    have hpr' : PlainLabels right := (List.forall_mem_cons.mp hpr).2
    rcases hl with ⟨hl, hmatch⟩ | ⟨rfl, hl⟩
    · rcases hr with ⟨hr, hmatch'⟩ | ⟨rfl, hr⟩
      · refine hostPatternLabelsCanOverlap_cons (ih hpl' hpr' hl hr) fun hlrec hrrec => ?_
        rcases hpl l List.mem_cons_self with hstar | hrec | hliteral
        · exact .inl hstar
        · exact absurd hrec hlrec
        · rcases hpr r List.mem_cons_self with hstar | hrec | hliteral'
          · exact .inr (.inl hstar)
          · exact absurd hrec hrrec
          · have hleft := (laws.literal hliteral).mp (hmatch hlrec)
            have hright := (laws.literal hliteral').mp (hmatch' hrrec)
            exact .inr (.inr (hleft.symm.trans hright))
      · exact hostPatternLabelsCanOverlap_right (ih hpl' hpr hl hr)
    · rcases hr with ⟨hr, -⟩ | ⟨rfl, hr⟩
      · exact hostPatternLabelsCanOverlap_left (ih hpl hpr' hl hr)
      · exact ih hpl hpr hl hr

/-- On a literal host the overlap test is the matcher. -/
theorem hostPatternLabelsCanOverlap_literal
    (hliteral : ∀ label ∈ host, isLiteralLabel label = true) :
    hostPatternLabelsCanOverlap labels host = hostPatternLabelsMatch labels host := by
  have hno : ∀ label ∈ host, label ≠ "**" ∧ label ≠ "*" := by
    refine fun label hlabel =>
      ⟨?_, ?_⟩ <;> rintro rfl <;> exact absurd (hliteral _ hlabel) (by decide)
  clear hliteral
  fun_induction hostPatternLabelsCanOverlap labels host with
  | case1 => simp [hostPatternLabelsMatch]
  | case2 label rest ih => simp [hostPatternLabelsMatch, (hno label List.mem_cons_self).1]
  | case3 label rest ih => by_cases h : label = "**" <;> simp_all [hostPatternLabelsMatch]
  | case4 | case6 => simp_all [hostPatternLabelsMatch, eq_comm]
  | case5 => simp_all

theorem eq_of_textsMatch_literal (laws : GlobLaws glob)
    (hliteral : ∀ label ∈ labels, isLiteralLabel label = true)
    (h : TextsMatch glob labels host) : host = labels := by
  have hall : (labels.map HostLabelPattern.ofText).all HostLabelPattern.isLiteral = true := by
    rw [List.all_map, List.all_eq_true]
    intro label hlabel
    have hne : label ≠ "**" := by
      rintro rfl
      exact absurd (hliteral _ hlabel) (by decide)
    simpa [HostLabelPattern.ofText, hne, HostLabelPattern.isLiteral] using hliteral label hlabel
  have htexts := map_text_of_literal laws h hall (labelsCompiled_ofText labels)
  rwa [map_text_ofText, eq_comm] at htexts

end Labels

section Hosts
variable {glob : Glob} {first second host pattern : String}

theorem textsMatch_of_hostMatches (h : (hostMatches glob pattern host).toOption.getD false = true) :
    TextsMatch glob (splitChar (toAsciiLowercase pattern) '.')
      (splitChar (toAsciiLowercase host) '.') := by
  unfold hostMatches at h
  cases hnew : HostPattern.new glob pattern with
  | error e =>
    rw [hnew] at h
    cases h
  | ok compiled =>
    simp only [hnew, Functor.map, Except.map, Except.toOption, Option.getD_some] at h
    obtain ⟨hcompiled, hsource, -⟩ := HostPattern.new_eq_ok hnew
    obtain ⟨-, hlabels⟩ := matches_iff.mp h
    rw [hcompiled.labels, hsource] at hlabels
    exact hlabels

/-- Without a `*` a plain pattern is a host. -/
theorem literal_of_noStar (hplain : PlainHost pattern)
    (hstar : containsChar (toAsciiLowercase pattern) '*' = false) :
    ∀ label ∈ splitChar (toAsciiLowercase pattern) '.', isLiteralLabel label = true := by
  intro label hlabel
  have hno : '*' ∉ label.toList := fun hmem =>
    Bool.false_ne_true (hstar.symm.trans (containsChar_iff.mpr (mem_of_mem_splitChar hlabel hmem)))
  rcases hplain label hlabel with rfl | rfl | hliteral
  · exact absurd (by decide) hno
  · exact absurd (by decide) hno
  · exact hliteral

theorem hostPatternMatches_of_common (laws : GlobLaws glob) (hfirst : PlainHost first)
    (hsecond : PlainHost second) (hstar : containsChar (toAsciiLowercase first) '*' = false)
    (h : TextsMatch glob (splitChar (toAsciiLowercase first) '.')
      (splitChar (toAsciiLowercase host) '.'))
    (h' : TextsMatch glob (splitChar (toAsciiLowercase second) '.')
      (splitChar (toAsciiLowercase host) '.')) :
    hostPatternMatches (toAsciiLowercase second) (toAsciiLowercase first) = true := by
  have hliteral := literal_of_noStar hfirst hstar
  have hsame := eq_of_textsMatch_literal laws hliteral h
  rw [hsame] at h h'
  unfold hostPatternMatches
  simp only [toAsciiLowercase_idem]
  split
  next => rfl
  next hne =>
    split
    next hstar' =>
      have hsame :=
        eq_of_textsMatch_literal laws (literal_of_noStar hsecond (by simpa using hstar')) h'
      exact absurd (joined_of_splitChar hsame).symm hne
    next =>
      rw [← hostPatternLabelsCanOverlap_literal hliteral]
      exact hostPatternLabelsCanOverlap_of_common laws hsecond hfirst h' h

/-- Plain host patterns that match a common host are found to overlap. -/
theorem hostPatternsCanOverlap_of_common (laws : GlobLaws glob) (hfirst : PlainHost first)
    (hsecond : PlainHost second) (h : (hostMatches glob first host).toOption.getD false = true)
    (h' : (hostMatches glob second host).toOption.getD false = true) :
    hostPatternsCanOverlap first second = true := by
  replace h := textsMatch_of_hostMatches h
  replace h' := textsMatch_of_hostMatches h'
  unfold hostPatternsCanOverlap
  dsimp only
  split
  next hstar => exact hostPatternMatches_of_common laws hfirst hsecond (by simpa using hstar) h h'
  next =>
    split
    next hstar => exact hostPatternMatches_of_common laws hsecond hfirst (by simpa using hstar) h' h
    next => exact hostPatternLabelsCanOverlap_of_common laws hfirst hsecond h h'

end Hosts

/-! ## Paths -/

/-- A path without a `*` has no other wildcard. -/
def PlainPath (path : String) : Prop := containsChar path '*' = false → isLiteralLabel path = true

section Paths
variable {glob : Glob} {first second path : String}

/-- Two roots with a common path below them are nested. -/
theorem nested_of_common {root root' : String} (h : path = root ∨ Below root path)
    (h' : path = root' ∨ Below root' path) :
    (root == root' || startsWith root (root' ++ "/") || startsWith root' (root ++ "/")) = true := by
  -- with a slash behind it, each root is a start of the path,
  -- so one of the two is a start of the other
  have hstart : ∀ {a : String}, path = a ∨ Below a path →
      a.toList ++ ['/'] <+: path.toList ++ ['/'] := by
    rintro a (rfl | ⟨rest, hrest⟩)
    · exact List.prefix_rfl
    · exact ⟨rest ++ ['/'], by simp [hrest]⟩
  have hnested : ∀ {a b : String}, a.toList ++ ['/'] <+: b.toList ++ ['/'] →
      a = b ∨ startsWith b (a ++ "/") = true := by
    intro a b h
    rcases List.prefix_concat_iff.mp h with h | ⟨rest, hrest⟩
    · exact .inl (String.toList_inj.mp (List.append_cancel_right h))
    · exact .inr (startsWith_iff.mpr ⟨rest, by simp [← hrest]⟩)
  rw [Bool.or_eq_true, Bool.or_eq_true, beq_iff_eq]
  rcases List.prefix_or_prefix_of_prefix (hstart h) (hstart h') with h | h
  · exact (hnested h).imp .inl id
  · exact .inl ((hnested h).imp Eq.symm id)

/-- Plain path patterns that match a common path are found to overlap. -/
theorem pathPatternsCanOverlap_of_common (laws : GlobLaws glob) (hfirst : PlainPath first)
    (hsecond : PlainPath second) (h : endpointPathMatches glob first path = true)
    (h' : endpointPathMatches glob second path = true) :
    pathPatternsCanOverlap glob first second = true := by
  unfold pathPatternsCanOverlap
  split
  next => rfl
  next hall =>
    obtain ⟨hall, hall'⟩ : pathMatchesAll first = false ∧ pathMatchesAll second = false :=
      by simpa using hall
    split
    next hstar => rwa [eq_of_endpointPathMatches laws hall (hfirst (by simpa using hstar)) h] at h'
    next =>
      split
      next hstar =>
        rwa [eq_of_endpointPathMatches laws hall' (hsecond (by simpa using hstar)) h'] at h
      next =>
        split
        next root root' hroot hroot' =>
          exact nested_of_common ((endpointPathMatches_subtree hall hroot).mp h)
            ((endpointPathMatches_subtree hall' hroot').mp h')
        next => rfl

end Paths

/-! ## The check -/

variable {glob : Glob}

/-- The selector in the key of a grant. -/
def Grant.selector (grant : Grant) : EndpointSelector :=
  ⟨toAsciiLowercase grant.host, toString grant.port, grant.path⟩

variable {grant : Grant} {header : String}

/-- What the entry of a grant reads back as. -/
structure Grant.Installed (grant : Grant) (entry : Binding) : Prop where
  selector : endpointSelector entry.1 = some grant.selector
  identity : credentialIdentity entry.1 = some (identityOf grant.providerName grant.credential.name)
  port : grant.port < 2 ^ 16
  credential : entry.2 = resolvedDynamicCredential grant.credential grant.owner

variable {entry : Binding}

theorem Grant.installed (h : grant.entry = .ok entry) : grant.Installed entry := by
  obtain ⟨key, hkey, rfl⟩ := bind_ok_eq_ok h
  obtain ⟨rfl, hvalid⟩ := DynamicCredentialKey.new_eq_ok hkey
  exact ⟨endpointSelector_encode hvalid, credentialIdentity_encode hvalid,
    Nat.lt_succ_of_le hvalid.port.2, rfl⟩

variable {grants : List Grant}
  {credentials : Std.ExtTreeMap String ProviderProfileCredential compare}

/-- Two grants of different credentials that can tie: they have the header, port and score in
common, and a request. -/
structure CanTie (glob : Glob) (a b : Grant) : Prop where
  installed : (∃ entry, a.entry = .ok entry) ∧ ∃ entry, b.entry = .ok entry
  credentials : ¬ (a.providerName = b.providerName ∧ a.credential.name = b.credential.name)
  header : (headerOf a.credential).isSome = true ∧ headerOf a.credential = headerOf b.credential
  port : a.port = b.port
  score : a.binding.score = b.binding.score
  request : ∃ host path, selectorMatches glob a.selector host path = true ∧
    selectorMatches glob b.selector host path = true

/-- The gateway's tests see the overlap of grants that can tie. -/
def OverlapsFound (glob : Glob) (grants : Set Grant) : Prop :=
  ∀ a ∈ grants, ∀ b ∈ grants, CanTie glob a b →
    hostPatternsCanOverlap a.binding.host b.binding.host = true ∧
    pathPatternsCanOverlap glob a.path b.path = true

section Sound
variable {glob : Glob} {a b : Grant}

theorem CanTie.symm (h : CanTie glob a b) : CanTie glob b a where
  installed := h.installed.symm
  credentials := fun hsame => h.credentials ⟨hsame.1.symm, hsame.2.symm⟩
  header := ⟨h.header.2 ▸ h.header.1, h.header.2.symm⟩
  port := h.port.symm
  score := h.score.symm
  request := by
    obtain ⟨host, path, ha, hb⟩ := h.request
    exact ⟨host, path, hb, ha⟩

end Sound

/-- Selectors the tests read as the supervisor does. -/
def Grant.Plain (grant : Grant) : Prop := PlainHost grant.host ∧ PlainPath grant.path

/-- The tests see the overlap of two plain selectors that can tie. -/
theorem CanTie.overlaps_of_plain {a b : Grant} (laws : GlobLaws glob) (h : CanTie glob a b)
    (ha : a.Plain) (hb : b.Plain) : hostPatternsCanOverlap a.binding.host b.binding.host = true ∧
      pathPatternsCanOverlap glob a.path b.path = true := by
  have hplain : ∀ {host}, PlainHost host → PlainHost (toAsciiLowercase host) := by
    intro host h
    unfold PlainHost
    rw [toAsciiLowercase_idem]
    exact h
  obtain ⟨host, path, hselected, hselected'⟩ := h.request
  rw [selectorMatches, Bool.and_eq_true] at hselected hselected'
  obtain ⟨hhost, hpath⟩ := hselected
  obtain ⟨hhost', hpath'⟩ := hselected'
  exact ⟨hostPatternsCanOverlap_of_common laws (hplain ha.1) (hplain hb.1) hhost hhost',
    pathPatternsCanOverlap_of_common laws ha.2 hb.2 hpath hpath'⟩

/-- The tests see the overlap of plain selectors. -/
theorem overlapsFound_plain (laws : GlobLaws glob) : OverlapsFound glob {grant | grant.Plain} :=
  fun _ ha _ hb htie => htie.overlaps_of_plain laws ha hb

theorem overlapsFound_plainGlob : OverlapsFound plainGlob {grant | grant.Plain} :=
  overlapsFound_plain plainGlob_laws

end OpenShell.Server
