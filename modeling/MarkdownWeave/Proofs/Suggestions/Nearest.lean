import Mathlib.Data.List.Sigma
import MarkdownWeave.Compile.Substitution
import MarkdownWeave.Proofs.Suggestions.Distance

/-!
# The nearest names are suggested

Names are sorted by their distance from the one that was meant, those that are too far away are left
out, and what comes first is taken.  As the sorting is stable, this takes the best names in a strict
order, in which the nearer name comes first, and of two equally near ones that which stands first in
the metadata.

## Main definitions

* `Nearer name` — the strict order of names with their places.
* `ranked name available`, `nearest name available` — all names with their places, and the suggested
  ones, in this order.

## Main results

* `pairwise_ranked` — **the ranking is in the strict order.**
* `nearer_of_not_mem_nearest` — what is near enough and left out comes behind three others.
* `similarNames_nearest` — the suggestions are the best names, and none that is left out is better.
-/

namespace MarkdownWeave

/-! ### The ranking -/

section Ranking

variable (name : Text)

/-- Of two names with their places, the first is nearer, or as near and in front of the other. -/
def Nearer (p q : Text × Nat) : Prop :=
  Text.distance name p.1 < Text.distance name q.1 ∨
    Text.distance name p.1 = Text.distance name q.1 ∧ p.2 < q.2

/-- All names with their places, the nearest first. -/
def ranked (available : List Text) : List (Text × Nat) :=
  available.zipIdx.mergeSort
    (List.zipIdxLE fun a b => Text.distance name a ≤ Text.distance name b)

variable {name} {available : List Text}

theorem mem_ranked {p : Text × Nat} : p ∈ ranked name available ↔ p ∈ available.zipIdx :=
  List.mem_mergeSort

/-- Without their places, the names are ranked as they are sorted. -/
theorem map_ranked (name : Text) (available : List Text) :
    (ranked name available).map Prod.fst =
      available.mergeSort fun a b => Text.distance name a ≤ Text.distance name b :=
  List.mergeSort_zipIdx

/-- **The ranking is in the strict order.**  No two names have the same place, and so none are
equally good. -/
theorem pairwise_ranked (name : Text) (available : List Text) :
    (ranked name available).Pairwise (Nearer name) := by
  have htrans (a b c : Text) : decide (Text.distance name a ≤ Text.distance name b) = true →
      decide (Text.distance name b ≤ Text.distance name c) = true →
      decide (Text.distance name a ≤ Text.distance name c) = true := by
    simp only [decide_eq_true_eq]
    exact Nat.le_trans
  have htotal (a b : Text) : (decide (Text.distance name a ≤ Text.distance name b) ||
      decide (Text.distance name b ≤ Text.distance name a)) = true := by
    simpa using Nat.le_total (Text.distance name a) (Text.distance name b)
  have hsorted := List.pairwise_mergeSort (List.zipIdxLE_trans htrans)
    (List.zipIdxLE_total htotal) available.zipIdx
  have hplaces : (ranked name available).Pairwise fun p q => p.2 ≠ q.2 := by
    have hnodup := List.nodup_zipIdx_map_snd available
    rw [List.Nodup, List.pairwise_map] at hnodup
    exact (List.mergeSort_perm _ _).symm.pairwise hnodup fun h => Ne.symm h
  refine (hsorted.and hplaces).imp ?_
  rintro p q ⟨hle, hne⟩
  simp only [List.zipIdxLE, decide_eq_true_eq] at hle
  unfold Nearer
  split at hle
  · next h =>
    split at hle
    · have := of_decide_eq_true hle
      omega
    · omega
  · cases hle

end Ranking

/-! ### The beginning of the ranking -/

section Beginning

variable {α : Type*} {R : α → α → Prop} {l : List α} {x : α}

/-- What is left out of the beginning of an ordered list comes behind its last entry. -/
theorem pairwise_take_of_not_mem (h : l.Pairwise R) (n : Nat) (hx : x ∈ l) (hout : x ∉ l.take n) :
    (l.take n).length = n ∧ ∀ last ∈ (l.take n).getLast?, R last x := by
  have hdrop : x ∈ l.drop n := by
    rw [← List.take_append_drop n l, List.mem_append] at hx
    exact hx.resolve_left hout
  constructor
  · have : 0 < (l.drop n).length := List.length_pos_of_mem hdrop
    rw [List.length_drop] at this
    rw [List.length_take]
    omega
  · intro last hlast
    rw [← List.take_append_drop n l, List.pairwise_append] at h
    exact h.2.2 last (List.mem_of_getLast? hlast) x hdrop

end Beginning

section Nearest

variable (name : Text) (available : List Text)

/-- The names that are suggested, with their places. -/
def nearest : List (Text × Nat) :=
  ((ranked name available).filter fun p => Text.distance name p.1 ≤ maxDistance name).take
    maxSuggestions

theorem similarNames_eq : similarNames name available = (nearest name available).map Prod.fst := by
  rw [similarNames, ← map_ranked, List.filter_map, nearest, List.map_take]
  rfl

theorem length_nearest_le : (nearest name available).length ≤ 3 := List.length_take_le 3 _

theorem pairwise_nearest : (nearest name available).Pairwise (Nearer name) :=
  ((pairwise_ranked name available).filter _).take

variable {name available} {p : Text × Nat}

theorem of_mem_nearest (h : p ∈ nearest name available) :
    p ∈ available.zipIdx ∧ Text.distance name p.1 ≤ name.length / 2 := by
  obtain ⟨hp, hclose⟩ := List.mem_filter.1 (List.mem_of_mem_take h)
  exact ⟨mem_ranked.1 hp, of_decide_eq_true hclose⟩

/-- A name that is near enough and left out comes behind the last of three others. -/
theorem nearer_of_not_mem_nearest (hp : p ∈ available.zipIdx)
    (hclose : Text.distance name p.1 ≤ name.length / 2) (hout : p ∉ nearest name available) :
    (nearest name available).length = 3 ∧
      ∀ last ∈ (nearest name available).getLast?, Nearer name last p := by
  have hsorted := (pairwise_ranked name available).filter
    fun p => Text.distance name p.1 ≤ maxDistance name
  exact pairwise_take_of_not_mem hsorted 3
    (List.mem_filter.2 ⟨mem_ranked.2 hp, decide_eq_true hclose⟩) hout

end Nearest

/-- **The suggestions are the best names.**  The distance is the least number of characters that
have to be inserted, deleted or replaced.  There are at most three suggestions, none further away
than half the length of the name, the nearer first and of equally near ones that which stands first
among the names.  Every name that is left out is too far away, or it comes behind the last of three
suggestions. -/
theorem similarNames_nearest (name : Text) (available : List Text) :
    (∀ a, IsLeast {n | Text.Edits n name a} (Text.distance name a)) ∧
      ∃ chosen : List (Text × Nat), similarNames name available = chosen.map Prod.fst ∧
        (∀ p ∈ chosen, p ∈ available.zipIdx) ∧ chosen.length ≤ 3 ∧
        (∀ p ∈ chosen, Text.distance name p.1 ≤ name.length / 2) ∧
        chosen.Pairwise (Nearer name) ∧
        ∀ p ∈ available.zipIdx, p ∉ chosen →
          name.length / 2 < Text.distance name p.1 ∨
            chosen.length = 3 ∧ ∀ last ∈ chosen.getLast?, Nearer name last p := by
  refine ⟨Text.isLeast_distance name, nearest name available, similarNames_eq name available,
    fun p hp => (of_mem_nearest hp).1, length_nearest_le name available,
    fun p hp => (of_mem_nearest hp).2, pairwise_nearest name available, ?_⟩
  intro p hp hout
  rcases Nat.lt_or_ge (name.length / 2) (Text.distance name p.1) with hfar | hclose
  · exact Or.inl hfar
  · exact Or.inr (nearer_of_not_mem_nearest hp hclose hout)

end MarkdownWeave
