import Mathlib.Data.List.Sort

/-!
# Lists kept as sets

The two ways list-valued settings are kept free of duplicates: appending what is
not there yet, in the order it comes, and sorting with the repetitions removed.
Both have the members of what they are given, which is all their users look at.
-/

namespace OpenShell

variable {α : Type}

theorem eq_nil_of_mem_iff {l l' : List α} (h : ∀ a, a ∈ l ↔ a ∈ l') : l = [] ↔ l' = [] := by
  simp only [List.eq_nil_iff_forall_not_mem, h]

section Find
variable {P : α → Prop} [DecidablePred P] {l : List α} {a : α}

theorem of_find?_eq_some (h : l.find? (P ·) = some a) : a ∈ l ∧ P a :=
  ⟨List.mem_of_find?_eq_some h, by simpa using List.find?_some h⟩

/-- Where one element at most will do, the search finds it. -/
theorem find?_eq_some_iff_of_unique (h : ∀ x ∈ l, ∀ y ∈ l, P x → P y → x = y) :
    l.find? (P ·) = some a ↔ a ∈ l ∧ P a := by
  refine ⟨of_find?_eq_some, fun ⟨ha, hP⟩ => ?_⟩
  cases hfind : l.find? (P ·) with
  | none => exact absurd (decide_eq_true hP) (List.find?_eq_none.mp hfind a ha)
  | some b =>
    obtain ⟨hb, hPb⟩ := of_find?_eq_some hfind
    rw [h b hb a ha hPb hP]

end Find

variable {l : List α}

/-- Replacing one element keeps the others. -/
theorem mem_set_of_ne {i : Nat} {a x y : α} (ha : a ∈ l) (hx : l[i]? = some x) (hne : a ≠ x) :
    a ∈ l.set i y := by
  obtain ⟨j, hj⟩ := List.mem_iff_getElem?.mp ha
  have hij : i ≠ j := by
    rintro rfl
    exact hne (Option.mem_unique hj hx)
  exact List.mem_iff_getElem?.mpr ⟨j, by rw [List.getElem?_set_ne hij, hj]⟩

/-- Related lists have related members. -/
theorem exists_of_forall₂_mem {β : Type} {R : α → β → Prop} {l' : List β}
    (h : List.Forall₂ R l l') {a : α} (ha : a ∈ l) : ∃ b ∈ l', R a b := by
  induction h with
  | nil => cases ha
  | @cons a' b' l l' hab _ ih =>
    rcases List.mem_cons.mp ha with rfl | ha
    · exact ⟨b', List.mem_cons_self, hab⟩
    · obtain ⟨b, hb, hr⟩ := ih ha
      exact ⟨b, List.mem_cons_of_mem _ hb, hr⟩

/-- Where related elements are in a second relation exactly when the left one has a
property, related lists are in it exactly when all elements have the property. -/
theorem forall₂_iff_of_forall₂ {β : Type} {R S : α → β → Prop} {Q : α → Prop} {l' : List β}
    (h : List.Forall₂ R l l') (hS : ∀ a b, R a b → (S a b ↔ Q a)) :
    List.Forall₂ S l l' ↔ ∀ a ∈ l, Q a := by
  induction h with
  | nil => simp
  | @cons a b l l' hab _ ih => rw [List.forall₂_cons, ih, hS a b hab, List.forall_mem_cons]

section AppendUnique

variable [DecidableEq α]

/-- Push every incoming element that is not there yet. -/
def appendUnique : List α → List α → List α
  | existing, [] => existing
  | existing, x :: incoming =>
    if x ∈ existing then appendUnique existing incoming
    else appendUnique (existing ++ [x]) incoming

/-- Keep the first occurrence of every element. -/
def dedupFirst (values : List α) : List α := appendUnique [] values

@[simp] theorem mem_appendUnique {a : α} :
    ∀ {existing incoming : List α},
      a ∈ appendUnique existing incoming ↔ a ∈ existing ∨ a ∈ incoming := by
  intro existing incoming
  induction incoming generalizing existing with
  | nil => simp [appendUnique]
  | cons x incoming ih =>
    unfold appendUnique
    split
    next hx =>
      rw [ih, List.mem_cons]
      constructor
      · exact fun h => h.imp_right Or.inr
      · rintro (h | rfl | h)
        · exact Or.inl h
        · exact Or.inl hx
        · exact Or.inr h
    next =>
      rw [ih, List.mem_append, List.mem_singleton, List.mem_cons, or_assoc]

@[simp] theorem mem_dedupFirst {a : α} {values : List α} : a ∈ dedupFirst values ↔ a ∈ values := by
  simp [dedupFirst]

@[simp] theorem dedupFirst_eq_nil {values : List α} : dedupFirst values = [] ↔ values = [] :=
  eq_nil_of_mem_iff fun _ => mem_dedupFirst

end AppendUnique

section SortDedup

variable [DecidableEq α]

/-- Drop an element that repeats the one before it. -/
def dedupAdjacent : List α → List α
  | [] => []
  | [a] => [a]
  | a :: b :: rest =>
    if a = b then dedupAdjacent (b :: rest) else a :: dedupAdjacent (b :: rest)

/-- `sort` and `dedup`. -/
def sortDedup [LE α] [DecidableLE α] (values : List α) : List α :=
  dedupAdjacent (values.insertionSort (· ≤ ·))

@[simp] theorem mem_dedupAdjacent {a : α} (l : List α) : a ∈ dedupAdjacent l ↔ a ∈ l := by
  fun_induction dedupAdjacent l with
  | case1 => rfl
  | case2 => rfl
  | case3 b rest ih =>
    rw [ih]
    simp
  | case4 b c rest hne ih => rw [List.mem_cons, ih, List.mem_cons (a := a) (b := b)]

variable [LE α] [DecidableLE α]

@[simp] theorem mem_sortDedup {a : α} {values : List α} : a ∈ sortDedup values ↔ a ∈ values := by
  unfold sortDedup
  rw [mem_dedupAdjacent, List.mem_insertionSort]

end SortDedup

section Sorted

variable [LinearOrder α]

theorem pairwise_dedupAdjacent (h : l.Pairwise (· ≤ ·)) : (dedupAdjacent l).Pairwise (· < ·) := by
  fun_induction dedupAdjacent l with
  | case1 => exact .nil
  | case2 a => exact List.pairwise_singleton ..
  | case3 b rest ih => exact ih (List.pairwise_cons.mp h).2
  | case4 a b rest hne ih =>
    obtain ⟨hle, hrest⟩ := List.pairwise_cons.mp h
    refine List.pairwise_cons.mpr ⟨fun x hx => ?_, ih hrest⟩
    have hab : a < b := lt_of_le_of_ne (hle b List.mem_cons_self) hne
    rcases List.mem_cons.mp ((mem_dedupAdjacent _).mp hx) with rfl | hx
    · exact hab
    · exact hab.trans_le ((List.pairwise_cons.mp hrest).1 x hx)

theorem sortedLT_sortDedup (values : List α) : (sortDedup values).SortedLT :=
  (pairwise_dedupAdjacent (List.pairwise_insertionSort (· ≤ ·) values)).sortedLT

end Sorted

end OpenShell
