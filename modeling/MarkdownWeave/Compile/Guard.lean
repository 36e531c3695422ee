import MarkdownWeave.Failure

/-!
# Guards against cycles

The paths that led to the document at hand.  A path on the guard must not be followed once more.

## Main definitions

* `Guard` — the paths, the outermost first.
* `Guard.check` — refuses a path that is on the guard.
* `Guard.extend` — the guard with one more path.
-/

namespace MarkdownWeave

/-- The paths that led to the document at hand, the outermost first. -/
structure Guard where
  /-- The paths. -/
  chain : List Text
deriving DecidableEq

namespace Guard

/-- The guard at the document that everything starts from. -/
def empty : Guard := ⟨[]⟩

/-- Whether a path is on the guard. -/
def contains (g : Guard) (path : Text) : Bool := g.chain.contains path

/-- The guard with one more path. -/
def extend (g : Guard) (path : Text) : Guard := ⟨g.chain ++ [path]⟩

/-- Refuses a path that is on the guard. -/
def check (g : Guard) (path : Text) : Except Failure Unit :=
  if g.contains path then .error (.circularReference path g.chain) else .ok ()

/-- How many paths are on the guard. -/
def depth (g : Guard) : Nat := g.chain.length

/-- The paths of a list that are not on the guard. -/
def fresh (g : Guard) (paths : List Text) : List Text := paths.filter fun p => !g.contains p

@[simp] theorem contains_eq_true {g : Guard} {path : Text} :
    g.contains path = true ↔ path ∈ g.chain := by
  simp [contains]

@[simp] theorem mem_extend {g : Guard} {path q : Text} :
    q ∈ (g.extend path).chain ↔ q ∈ g.chain ∨ q = path := by
  simp [extend]

/-- A path that is not on the guard does not make it repeat itself. -/
theorem nodup_extend {g : Guard} {path : Text} (hg : g.chain.Nodup) (hp : path ∉ g.chain) :
    (g.extend path).chain.Nodup := by
  rw [extend, List.nodup_append]
  refine ⟨hg, by simp, ?_⟩
  rintro a ha b hb rfl
  exact hp (List.mem_singleton.1 hb ▸ ha)

theorem check_of_mem {g : Guard} {path : Text} (h : path ∈ g.chain) :
    g.check path = .error (.circularReference path g.chain) :=
  if_pos (contains_eq_true.2 h)

theorem check_eq_ok {g : Guard} {path : Text} : g.check path = .ok () ↔ path ∉ g.chain := by
  simp [check]

theorem contains_of_check {g : Guard} {path : Text} (h : g.check path = .ok ()) :
    g.contains path = false :=
  Bool.eq_false_iff.2 fun hc => check_eq_ok.1 h (contains_eq_true.1 hc)

/-- All that a check finds fault with is a path that is on the guard. -/
theorem mem_of_check {g : Guard} {path : Text} {f : Failure} (h : g.check path = .error f) :
    path ∈ g.chain := by
  apply Decidable.byContradiction
  intro hg
  rw [check_eq_ok.2 hg] at h
  cases h

theorem contains_extend (g : Guard) (path q : Text) :
    (g.extend path).contains q = (g.contains q || q == path) := by
  rw [Bool.eq_iff_iff]
  simp

/-- A longer guard takes its new path away from the fresh ones. -/
theorem fresh_extend (g : Guard) (path : Text) (paths : List Text) :
    (g.extend path).fresh paths = (g.fresh paths).filter (· != path) := by
  rw [fresh, fresh, List.filter_filter]
  refine List.filter_congr fun q _ => ?_
  rw [contains_extend, Bool.not_or, Bool.and_comm]
  rfl

/-- A longer guard leaves no more paths fresh. -/
theorem length_fresh_extend_le (g : Guard) (path : Text) (paths : List Text) :
    ((g.extend path).fresh paths).length ≤ (g.fresh paths).length := by
  rw [fresh_extend]
  exact List.length_filter_le _ _

/-- It leaves fewer, if its new path was fresh. -/
theorem length_fresh_extend_lt {g : Guard} {path : Text} {paths : List Text}
    (hm : path ∈ paths) (hg : g.contains path = false) :
    ((g.extend path).fresh paths).length < (g.fresh paths).length := by
  rw [fresh_extend]
  refine List.length_filter_lt_length_iff_exists.2 ⟨path, ?_, by simp⟩
  simp [fresh, hm, hg]

end Guard

end MarkdownWeave
