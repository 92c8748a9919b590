import Mathlib.Data.List.Nodup
import Mathlib.Data.List.Perm.Subperm

/-!
# The first free name

Numbered names are tried until one is free. Finitely many names are taken and
the names are distinct, so as many steps as there are taken names find a free
one.
-/

namespace OpenShell

variable {α : Type}

/-- The first name from `i` on that is not taken, after at most `fuel` that are. -/
def firstFree (taken : α → Bool) (name : Nat → α) : Nat → Nat → α
  | 0, i => name i
  | fuel + 1, i => if taken (name i) then firstFree taken name fuel (i + 1) else name i

theorem firstFree_not_taken {taken : α → Bool} {name : Nat → α} (hname : Function.Injective name)
    {keys : List α} (hkeys : ∀ a, taken a = true → a ∈ keys) :
    ∀ {fuel i : Nat}, (∀ j < i, taken (name j) = true) → keys.length ≤ i + fuel →
      taken (firstFree taken name fuel i) = false
  | 0, i, hall, hfuel => by
    unfold firstFree
    by_contra htaken
    -- one more distinct name than there are keys
    have hsub : (List.range (i + 1)).map name ⊆ keys := by
      intro a ha
      obtain ⟨j, hj, rfl⟩ := List.mem_map.mp ha
      refine hkeys _ ?_
      rcases Nat.lt_succ_iff_lt_or_eq.mp (List.mem_range.mp hj) with hlt | rfl
      · exact hall j hlt
      · simpa using htaken
    have hlen := (List.subperm_of_subset (List.Nodup.map hname List.nodup_range) hsub).length_le
    rw [List.length_map, List.length_range] at hlen
    omega
  | fuel + 1, i, hall, hfuel => by
    unfold firstFree
    split
    next htaken =>
      refine firstFree_not_taken hname hkeys ?_ (by omega)
      intro j hj
      rcases Nat.lt_succ_iff_lt_or_eq.mp hj with hlt | rfl
      · exact hall j hlt
      · exact htaken
    next htaken => simpa using htaken

end OpenShell
