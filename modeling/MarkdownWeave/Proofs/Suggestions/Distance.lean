import Mathlib.Order.Bounds.Basic
import MarkdownWeave.Text.Distance

/-!
# The distance of two texts is the least number of edits

The table of distances is filled row by row.  An entry is the least cost of an alignment of one
beginning of the first text with one beginning of the second; and an alignment costs as much as the
edits that it stands for, of which there are never fewer.

## Main definitions

* `Text.Edit`, `Text.Edits` — one character is inserted, deleted or replaced; and a number of times.
* `Text.Aligned` — two texts put side by side, at a cost.
* `Text.Costs` — the entries of a row from some place on.

## Main results

* `Text.exists_aligned_of_edits` — no number of edits is below the cost of all alignments.
* `Text.costs_distanceRest` — a row is computed from the one above it.
* `Text.isLeast_distance` — **the distance is the least number of edits.**
-/

namespace MarkdownWeave

namespace Text

variable {s t u : Text} {n k : Nat}

/-! ### Edits -/

/-- One character is inserted, deleted or replaced. -/
inductive Edit : Text → Text → Prop
  /-- A character is inserted. -/
  | insert (a : Text) (c : Char) (b : Text) : Edit (a ++ b) (a ++ c :: b)
  /-- A character is deleted. -/
  | delete (a : Text) (c : Char) (b : Text) : Edit (a ++ c :: b) (a ++ b)
  /-- A character is replaced. -/
  | replace (a : Text) (c d : Char) (b : Text) : Edit (a ++ c :: b) (a ++ d :: b)

/-- A text becomes another one by a number of edits. -/
inductive Edits : Nat → Text → Text → Prop
  /-- Without an edit a text stays what it is. -/
  | none (s : Text) : Edits 0 s s
  /-- One edit, and then others. -/
  | more {n : Nat} {s t u : Text} (first : Edit s t) (others : Edits n t u) : Edits (n + 1) s u

theorem Edit.behind (c : Char) (h : Edit s t) : Edit (c :: s) (c :: t) := by
  cases h with
  | insert a d b => exact .insert (c :: a) d b
  | delete a d b => exact .delete (c :: a) d b
  | replace a d e b => exact .replace (c :: a) d e b

theorem Edits.behind (c : Char) (h : Edits n s t) : Edits n (c :: s) (c :: t) := by
  induction h with
  | none s => exact .none (c :: s)
  | more first _ ih => exact .more (first.behind c) ih

theorem Edit.reverse (h : Edit s t) : Edit s.reverse t.reverse := by
  cases h with
  | insert a c b => simpa using Edit.insert b.reverse c a.reverse
  | delete a c b => simpa using Edit.delete b.reverse c a.reverse
  | replace a c d b => simpa using Edit.replace b.reverse c d a.reverse

theorem Edits.reverse (h : Edits n s t) : Edits n s.reverse t.reverse := by
  induction h with
  | none s => exact .none s.reverse
  | more first _ ih => exact .more first.reverse ih

/-- From which end texts are read does not matter. -/
theorem edits_reverse_iff : Edits n s.reverse t.reverse ↔ Edits n s t := by
  constructor
  · intro h
    simpa using h.reverse
  · exact Edits.reverse

/-! ### Alignments -/

/-- Two texts are put side by side.  A character of one is kept, or replaced by one of the other, or
stands alone, and all but the first costs one. -/
inductive Aligned : Nat → Text → Text → Prop
  /-- Nothing is left. -/
  | nil : Aligned 0 [] []
  /-- A character is kept. -/
  | keep {n : Nat} {s t : Text} (c : Char) (h : Aligned n s t) : Aligned n (c :: s) (c :: t)
  /-- It is replaced. -/
  | replace {n : Nat} {s t : Text} (c d : Char) (h : Aligned n s t) :
      Aligned (n + 1) (c :: s) (d :: t)
  /-- It is only in the first text. -/
  | delete {n : Nat} {s t : Text} (c : Char) (h : Aligned n s t) : Aligned (n + 1) (c :: s) t
  /-- It is only in the second. -/
  | insert {n : Nat} {s t : Text} (d : Char) (h : Aligned n s t) : Aligned (n + 1) s (d :: t)

theorem aligned_self (s : Text) : Aligned 0 s s := by
  induction s with
  | nil => exact .nil
  | cons c s ih => exact .keep c ih

/-- An alignment stands for as many edits as it costs. -/
theorem Aligned.edits (h : Aligned n s t) : Edits n s t := by
  induction h with
  | nil => exact .none []
  | keep c _ ih => exact ih.behind c
  | @replace n s t c d _ ih => exact .more (.replace [] c d s) (ih.behind d)
  | @delete n s t c _ ih => exact .more (.delete [] c s) ih
  | @insert n s t d _ ih => exact .more (.insert [] d s) (ih.behind d)

/-- A character less at the beginning costs at most one more. -/
theorem Aligned.exists_tail {c : Char} (h : Aligned n (c :: s) t) :
    ∃ k ≤ n + 1, Aligned k s t := by
  generalize hs : c :: s = s' at h
  induction h with
  | nil => cases hs
  | keep d h => cases hs; exact ⟨_, le_refl _, .insert c h⟩
  | replace d e h => cases hs; exact ⟨_, by omega, .insert e h⟩
  | delete d h => cases hs; exact ⟨_, by omega, h⟩
  | insert d _ ih =>
    obtain ⟨k, hk, h⟩ := ih hs
    exact ⟨k + 1, by omega, .insert d h⟩

/-- So does another character there. -/
theorem Aligned.exists_replace {c : Char} (d : Char) (h : Aligned n (c :: s) t) :
    ∃ k ≤ n + 1, Aligned k (d :: s) t := by
  generalize hs : c :: s = s' at h
  induction h with
  | nil => cases hs
  | keep _ h => cases hs; exact ⟨_, le_refl _, .replace d c h⟩
  | replace _ e h => cases hs; exact ⟨_, by omega, .replace d e h⟩
  | delete _ h => cases hs; exact ⟨_, by omega, .delete d h⟩
  | insert e _ ih =>
    obtain ⟨k, hk, h⟩ := ih hs
    exact ⟨k + 1, by omega, .insert e h⟩

/-- What changes the cost of the rest by at most one does so behind a character, too. -/
theorem Aligned.exists_behind {c : Char} (h : Aligned n (c :: s) t)
    (hrest : ∀ {m : Nat} {v : Text}, Aligned m s v → ∃ k ≤ m + 1, Aligned k u v) :
    ∃ k ≤ n + 1, Aligned k (c :: u) t := by
  generalize hs : c :: s = s' at h
  induction h with
  | nil => cases hs
  | keep _ h =>
    cases hs
    obtain ⟨k, hk, h⟩ := hrest h
    exact ⟨k, hk, .keep c h⟩
  | replace _ d h =>
    cases hs
    obtain ⟨k, hk, h⟩ := hrest h
    exact ⟨k + 1, by omega, .replace c d h⟩
  | delete _ h =>
    cases hs
    obtain ⟨k, hk, h⟩ := hrest h
    exact ⟨k + 1, by omega, .delete c h⟩
  | insert d _ ih =>
    obtain ⟨k, hk, h⟩ := ih hs
    exact ⟨k + 1, by omega, .insert d h⟩

/-- One edit more costs at most one more. -/
theorem Edit.exists_aligned (h : Edit s t) {n : Nat} {u : Text} (hu : Aligned n t u) :
    ∃ k ≤ n + 1, Aligned k s u := by
  -- the beginning that is left as it is comes first, for all three edits alike
  have before : ∀ (a b b' : Text), (∀ {m : Nat} {v : Text}, Aligned m b v →
      ∃ k ≤ m + 1, Aligned k b' v) → ∀ {n : Nat} {u : Text}, Aligned n (a ++ b) u →
      ∃ k ≤ n + 1, Aligned k (a ++ b') u := by
    intro a b b' hb
    induction a with
    | nil => exact hb
    | cons c a ih => exact fun h => h.exists_behind ih
  cases h with
  | insert a c b => exact before a (c :: b) b Aligned.exists_tail hu
  | delete a c b =>
    exact before a b (c :: b) (fun h => ⟨_, le_refl _, .delete c h⟩) hu
  | replace a c d b => exact before a (d :: b) (c :: b) (Aligned.exists_replace c) hu

/-- **No number of edits is below the cost of all alignments.** -/
theorem exists_aligned_of_edits (h : Edits n s t) : ∃ k ≤ n, Aligned k s t := by
  induction h with
  | none s => exact ⟨0, le_refl _, aligned_self s⟩
  | more first _ ih =>
    obtain ⟨m, hm, h⟩ := ih
    obtain ⟨k, hk, h⟩ := first.exists_aligned h
    exact ⟨k, by omega, h⟩

/-! ### The least cost -/

/-- The least cost of an alignment. -/
def IsCost (n : Nat) (s t : Text) : Prop := IsLeast {k | Aligned k s t} n

theorem IsCost.isLeast_edits (h : IsCost n s t) : IsLeast {k | Edits k s t} n := by
  refine ⟨h.1.edits, fun m hm => ?_⟩
  obtain ⟨k, hk, hal⟩ := exists_aligned_of_edits hm
  exact (h.2 hal).trans hk

theorem isCost_nil : IsCost 0 [] [] := ⟨.nil, fun _ _ => Nat.zero_le _⟩

theorem IsCost.cons_nil (h : IsCost n s []) (c : Char) : IsCost (n + 1) (c :: s) [] := by
  refine ⟨.delete c h.1, fun k hk => ?_⟩
  cases hk with
  | delete _ hk => exact Nat.succ_le_succ (h.2 hk)

theorem IsCost.nil_cons (h : IsCost n [] t) (d : Char) : IsCost (n + 1) [] (d :: t) := by
  refine ⟨.insert d h.1, fun k hk => ?_⟩
  cases hk with
  | insert _ hk => exact Nat.succ_le_succ (h.2 hk)

theorem Aligned.min (h : Aligned n s t) (h' : Aligned k s t) : Aligned (min n k) s t := by
  rcases Nat.le_total n k with hnk | hnk
  · rwa [Nat.min_eq_left hnk]
  · rwa [Nat.min_eq_right hnk]

/-- The cost for one character more in both texts, from the costs without it in the first, in the
second, and in both. -/
theorem isCost_cons_cons {above left corner : Nat} {c d : Char} (habove : IsCost above s (d :: t))
    (hleft : IsCost left (c :: s) t) (hcorner : IsCost corner s t) :
    IsCost (min (min (above + 1) (left + 1)) (if c = d then corner else corner + 1))
      (c :: s) (d :: t) := by
  constructor
  · have hboth : Aligned (if c = d then corner else corner + 1) (c :: s) (d :: t) := by
      split
      · next h => subst h; exact .keep c hcorner.1
      · exact .replace c d hcorner.1
    exact ((Aligned.delete c habove.1).min (.insert d hleft.1)).min hboth
  · intro k hk
    cases hk with
    | keep _ hk =>
      have := hcorner.2 hk
      rw [if_pos rfl]
      omega
    | replace _ _ hk =>
      have := hcorner.2 hk
      split <;> omega
    | delete _ hk =>
      have := habove.2 hk
      omega
    | insert _ hk =>
      have := hleft.2 hk
      omega

/-! ### Rows -/

/-- The entries of a row from some place on: the costs of the text `s` against `t` with more and
more characters of another text.  All texts are given from their ends. -/
inductive Costs (s : Text) : Text → Text → List Nat → Prop
  /-- There is no character left. -/
  | nil (t : Text) : Costs s t [] []
  /-- The cost with one character more, and the costs after it. -/
  | cons {t ds : Text} {d : Char} {n : Nat} {row : List Nat} (h : IsCost n s (d :: t))
      (hrow : Costs s (d :: t) ds row) : Costs s t (d :: ds) (n :: row)

/-- **A row is computed from the one above it.** -/
theorem costs_distanceRest {c : Char} {ds : Text} {row : List Nat} (hrow : Costs s t ds row)
    {left corner : Nat} (hleft : IsCost left (c :: s) t) (hcorner : IsCost corner s t) :
    Costs (c :: s) t ds (distanceRest c left corner ds row) := by
  induction hrow generalizing left corner with
  | nil t => exact .nil t
  | cons h _ ih =>
    have here := isCost_cons_cons h hleft hcorner
    exact .cons here (ih here h)

/-- The row of the empty text counts the characters. -/
theorem costs_range' (ds : Text) (h : IsCost n [] t) :
    Costs [] t ds (List.range' (n + 1) ds.length) := by
  induction ds generalizing t n with
  | nil => exact .nil t
  | cons d ds ih => exact .cons (h.nil_cons d) (ih (h.nil_cons d))

/-- The last entry of a row is the cost against the whole text. -/
theorem Costs.isCost_getLastD {ds : Text} {row : List Nat} (hrow : Costs s t ds row)
    (h : IsCost n s t) : IsCost (row.getLastD n) s (ds.reverse ++ t) := by
  induction hrow generalizing n with
  | nil t => exact h
  | @cons t ds d n' row h' _ ih =>
    rw [List.getLastD_cons]
    simpa using ih h'

/-- The rows, one after the other. -/
theorem exists_foldl_distanceRow (t : Text) (cs : Text) {s : Text} {n : Nat} {row : List Nat}
    (h : IsCost n s []) (hrow : Costs s [] t row) :
    ∃ n' row', cs.foldl (fun row c => distanceRow c t row) (n :: row) = n' :: row' ∧
      IsCost n' (cs.reverse ++ s) [] ∧ Costs (cs.reverse ++ s) [] t row' := by
  induction cs generalizing s n row with
  | nil => exact ⟨n, row, rfl, h, hrow⟩
  | cons c cs ih =>
    have hfirst := h.cons_nil c
    obtain ⟨n', row', he, hn', hrow'⟩ := ih hfirst (costs_distanceRest hrow hfirst h)
    refine ⟨n', row', he, ?_, ?_⟩
    · simpa using hn'
    · simpa using hrow'

/-- **The distance is the least number of edits** that make one text out of the other. -/
theorem isLeast_distance (s t : Text) : IsLeast {n | Edits n s t} (distance s t) := by
  have hstart : List.range (t.length + 1) = 0 :: List.range' 1 t.length := by
    rw [List.range_eq_range', List.range'_succ]
  obtain ⟨n, row, he, hn, hrow⟩ := exists_foldl_distanceRow t s isCost_nil
    (costs_range' t isCost_nil)
  have hcost : IsCost (distance s t) s.reverse t.reverse := by
    rw [distance, hstart, he, List.getLastD_cons]
    simpa using hrow.isCost_getLastD hn
  simpa only [edits_reverse_iff] using hcost.isLeast_edits

end Text

end MarkdownWeave
