import Mathlib.Data.List.Induction

/-!
# First and last entries of lists

Names are asked for in the order in which they are met first, and the value that is put in last
counts.  Both are read off a list that has one more entry at its end.  A reader takes entries from
the beginning of a list as long as they pass a test.

## Main results

* `eraseDups_concat_of_mem`, `eraseDups_concat_of_not_mem` — one more entry.
* `find?_reverse_eq_some_iff` — the last entry that passes a test.
* `takeWhile_dropWhile_append` — the first entries that do.
-/

namespace MarkdownWeave

/-! ### Each entry once -/

section EraseDups

variable {α : Type} [BEq α] [LawfulBEq α]

/-- An entry that is there already is passed over. -/
theorem eraseDups_concat_of_mem {l : List α} {a : α} (ha : a ∈ l) :
    (l ++ [a]).eraseDups = l.eraseDups := by
  rw [List.eraseDups_append]
  simp [List.removeAll, ha]

/-- A new entry comes last. -/
theorem eraseDups_concat_of_not_mem {l : List α} {a : α} (ha : a ∉ l) :
    (l ++ [a]).eraseDups = l.eraseDups ++ [a] := by
  have hnew : [a].removeAll l = [a] := by simp [List.removeAll, ha]
  rw [List.eraseDups_append, hnew, List.eraseDups_cons]
  simp

theorem nodup_eraseDups (l : List α) : l.eraseDups.Nodup := by
  induction l using List.reverseRecOn with
  | nil => simp
  | append_singleton l a ih =>
    by_cases ha : a ∈ l
    · rwa [eraseDups_concat_of_mem ha]
    · rw [eraseDups_concat_of_not_mem ha, List.nodup_append]
      refine ⟨ih, List.pairwise_singleton _ a, ?_⟩
      rintro b hb c hc rfl
      rw [List.mem_eraseDups, List.mem_singleton.1 hc] at hb
      exact ha hb

/-- The first entry that passes a test is the same, whether others are there once or more often. -/
theorem find?_eraseDups (p : α → Bool) (l : List α) : l.eraseDups.find? p = l.find? p := by
  induction l using List.reverseRecOn with
  | nil => simp
  | append_singleton l a ih =>
    by_cases ha : a ∈ l
    · rw [eraseDups_concat_of_mem ha, ih, List.find?_append]
      cases hl : l.find? p with
      | some b => rfl
      | none =>
        have hp : ¬ p a = true := List.find?_eq_none.1 hl a ha
        simp [hp]
    · rw [eraseDups_concat_of_not_mem ha, List.find?_append, List.find?_append, ih]

end EraseDups

/-! ### The last entry -/

/-- The last entry that passes a test: it passes, and none behind it does. -/
theorem find?_reverse_eq_some_iff {α : Type} {p : α → Bool} {l : List α} {a : α} :
    l.reverse.find? p = some a ↔
      p a = true ∧ ∃ before after, l = before ++ a :: after ∧ ∀ b ∈ after, p b = false := by
  rw [List.find?_eq_some_iff_append]
  refine and_congr_right fun _ => ?_
  constructor
  · rintro ⟨behind, before, he, hbehind⟩
    refine ⟨before.reverse, behind.reverse, ?_, fun b hb => ?_⟩
    · rw [← List.reverse_reverse l, he]
      simp
    · exact (Bool.not_eq_true' (p b)).mp (hbehind b (List.mem_reverse.1 hb))
  · rintro ⟨before, after, rfl, hafter⟩
    refine ⟨after.reverse, before.reverse, by simp, fun b hb => ?_⟩
    rw [hafter b (List.mem_reverse.1 hb)]
    rfl

/-! ### The first entries -/

/-- What stands before the first entry that fails a test is taken, and the rest is left. -/
theorem takeWhile_dropWhile_append {α : Type} {p : α → Bool} {a b : List α}
    (ha : ∀ c ∈ a, p c = true) (hb : ∀ c, b.head? = some c → p c = false) :
    (a ++ b).takeWhile p = a ∧ (a ++ b).dropWhile p = b := by
  rw [List.takeWhile_append_of_pos ha, List.dropWhile_append_of_pos ha]
  cases b with
  | nil => simp
  | cons c b => simp [hb c rfl]

end MarkdownWeave
