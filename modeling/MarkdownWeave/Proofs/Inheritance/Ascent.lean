import MarkdownWeave.Compile.Inheritance

/-!
# The way up and the way down

`inherit` is a recursion that fetches a parent, completes it, and merges the child into it on the
way back.  It does the same as two loops: one that goes up from parent to parent and collects the
documents, and one that comes down again and merges them, the topmost two first.  The merge is not
associative, so the order matters.

## Main definitions

* `Inherits r g d x calls` — under the guard `g`, the document comes to `x`, and `calls` are the
  guards that are handed down on the way.
* `Walk`, `Walk.next` — a place on the way up, and one step from there.
* `Walk.climb`, `descend` — the two loops.

## Main results

* `inherits_inherit`, `Inherits.eq_inherit` — every run of `inherit` is a finite derivation.
* `Inherits.climb` — from every place on the way, the loops do what the recursion does.
* `inherit_eq_climb_descend` — **the recursion is the two loops**, in its result, its failures and
  its requests.
-/

namespace MarkdownWeave

/-! ### The parent of a document -/

section Parent

variable {d : Document}

/-- What comes of the entry for the parent, for each thing that it can be. -/
theorem Document.parent?_cases (d : Document) :
    (d.parent? = .ok none ∧ (d.get? extendsKey = none ∨ d.get? extendsKey = some .null ∨
        d.get? extendsKey = some (.bool false) ∨ d.get? extendsKey = some (.text []))) ∨
      (∃ path, d.parent? = .ok (some path) ∧ d.get? extendsKey = some (.text path) ∧ path ≠ []) ∨
      ∃ v, d.parent? = .error (.invalidExtends (v.faithfulJson?.getD v.outline)) ∧
        d.get? extendsKey = some v ∧ v ≠ .null ∧ v ≠ .bool false ∧ ∀ t, v ≠ .text t := by
  unfold Document.parent?
  cases d.get? extendsKey with
  | none => simp
  | some v =>
    cases v with
    | null => simp
    | bool b =>
      cases b with
      | false => simp
      | true => exact Or.inr (Or.inr ⟨_, rfl, rfl, by simp, by simp, by simp⟩)
    | text t => cases t <;> simp
    -- every other value is refused, by its faithful form or, without one, by its outline
    | _ => exact Or.inr (Or.inr ⟨_, rfl, rfl, by simp, by simp, by simp⟩)

/-- A document has no parent if the entry for it is missing, null, `false` or the empty text. -/
theorem Document.parent?_eq_none_iff :
    d.parent? = .ok none ↔ d.get? extendsKey = none ∨ d.get? extendsKey = some .null ∨
      d.get? extendsKey = some (.bool false) ∨ d.get? extendsKey = some (.text []) := by
  rcases d.parent?_cases with ⟨hp, h⟩ | ⟨path, hp, h, hne⟩ | ⟨v, hp, h, hnull, hfalse, htext⟩
  · exact iff_of_true hp h
  · simp [hp, h, hne]
  · simp [hp, h, hnull, hfalse, htext]

/-- It has one if the entry is any other text. -/
theorem Document.parent?_eq_some_iff {path : Text} :
    d.parent? = .ok (some path) ↔ d.get? extendsKey = some (.text path) ∧ path ≠ [] := by
  rcases d.parent?_cases with ⟨hp, h⟩ | ⟨q, hp, h, hne⟩ | ⟨v, hp, h, hnull, hfalse, htext⟩
  · rcases h with h | h | h | h <;> simp [hp, h]
  · simp only [hp, h, Except.ok.injEq, Option.some.injEq, Value.text.injEq]
    exact ⟨fun he => ⟨he, he ▸ hne⟩, fun he => he.1⟩
  · simp [hp, h, htext]

/-- It is refused if the entry is anything else. -/
theorem Document.parent?_eq_error_iff {f : Failure} :
    d.parent? = .error f ↔ ∃ v, d.get? extendsKey = some v ∧ v ≠ .null ∧ v ≠ .bool false ∧
      (∀ t, v ≠ .text t) ∧ f = .invalidExtends (v.faithfulJson?.getD v.outline) := by
  rcases d.parent?_cases with ⟨hp, h⟩ | ⟨path, hp, h, -⟩ | ⟨v, hp, h, hnull, hfalse, htext⟩
  · rcases h with h | h | h | h <;> simp [hp, h]
  · simp [hp, h]
  · simp only [hp, h, Except.error.injEq, Option.some.injEq]
    constructor
    · intro he
      exact ⟨v, rfl, hnull, hfalse, htext, he.symm⟩
    · rintro ⟨w, rfl, -, -, -, rfl⟩
      rfl

end Parent

/-! ### Derivations -/

/-- The events when a parent is followed: the notice, and the request. -/
def extendingEvents (path : Text) (depth : Nat) : List Event :=
  [.notice .debug (extendingNotice path depth), .fetch path]

/-- Under the guard, the document comes to a result, and the guards of the last argument are handed
down on the way, in order. -/
inductive Inherits (r : Resolver) : Guard → Document → Traced Document → List Guard → Prop
  /-- A document without a parent is complete. -/
  | top {g : Guard} {d : Document} (hp : d.parent? = .ok none) : Inherits r g d (.done d) []
  /-- What is no path is refused. -/
  | invalid {g : Guard} {d : Document} {f : Failure} (hp : d.parent? = .error f) :
      Inherits r g d (.fail f) []
  /-- A path on the guard must not be followed, and is not even asked for. -/
  | circular {g : Guard} {d : Document} {path : Text} (hp : d.parent? = .ok (some path))
      (hg : path ∈ g.chain) : Inherits r g d (.fail (.circularReference path g.chain)) []
  /-- A parent that is not there is an error. -/
  | missing {g : Guard} {d : Document} {path : Text} {f : Failure}
      (hp : d.parent? = .ok (some path)) (hg : path ∉ g.chain) (ha : r.answer path = .error f) :
      Inherits r g d ⟨.error f, extendingEvents path g.depth⟩ []
  /-- A parent that is no document is an error. -/
  | malformed {g : Guard} {d : Document} {path t : Text} {f : Failure}
      (hp : d.parent? = .ok (some path)) (hg : path ∉ g.chain) (ha : r.answer path = .ok t)
      (hd : Document.parse t = .error f) :
      Inherits r g d ⟨.error f, extendingEvents path g.depth⟩ []
  /-- The document is put into its parent, when that is complete. -/
  | parent {g : Guard} {d e : Document} {path : Text} {x : Traced Document} {calls : List Guard}
      (hp : d.parent? = .ok (some path)) (hg : path ∉ g.chain) (he : r.Supplies path e)
      (above : Inherits r (g.extend path) e x calls) :
      Inherits r g d ⟨x.outcome.bind (merge · d), extendingEvents path g.depth ++ x.events⟩
        (g.extend path :: calls)

section Agreement

variable {r : Resolver} {g : Guard} {d : Document} {path : Text}

theorem inherit_top (hp : d.parent? = .ok none) : inherit r d g = .done d := by
  rw [inherit]
  split
  · next h => rw [hp] at h; cases h
  · rfl
  · next h => rw [hp] at h; cases h

theorem inherit_invalid {f : Failure} (hp : d.parent? = .error f) : inherit r d g = .fail f := by
  rw [inherit]
  split
  · next h => rw [hp] at h; cases h; rfl
  · next h => rw [hp] at h; cases h
  · next h => rw [hp] at h; cases h

theorem inherit_circular (hp : d.parent? = .ok (some path)) (hg : path ∈ g.chain) :
    inherit r d g = .fail (.circularReference path g.chain) := by
  rw [inherit]
  split
  · next h => rw [hp] at h; cases h
  · next h => rw [hp] at h; cases h
  · next h =>
    rw [hp] at h
    cases h
    split
    · next f hf =>
      rw [Guard.check_of_mem hg] at hf
      cases hf
      rfl
    · next hf => exact absurd hg (Guard.check_eq_ok.1 hf)

/-- A parent that may be followed is loaded and completed, and the document merged into it. -/
theorem inherit_parent (hp : d.parent? = .ok (some path)) (hg : path ∉ g.chain) :
    inherit r d g =
      Traced.debug (extendingNotice path g.depth) >>= fun _ => r.load path >>= fun e =>
        inherit r e.1 (g.extend path) >>= fun complete => Traced.ofExcept (merge complete d) := by
  rw [inherit]
  split
  · next h => rw [hp] at h; cases h
  · next h => rw [hp] at h; cases h
  · next h =>
    rw [hp] at h
    cases h
    split
    · next f hf => exact absurd (Guard.mem_of_check hf) hg
    · rfl

/-- A derivation ends with what `inherit` gives. -/
theorem Inherits.eq_inherit {x : Traced Document} {calls : List Guard}
    (h : Inherits r g d x calls) : inherit r d g = x := by
  induction h with
  | top hp => exact inherit_top hp
  | invalid hp => exact inherit_invalid hp
  | circular hp hg => exact inherit_circular hp hg
  | missing hp hg ha =>
    rw [inherit_parent hp hg, Resolver.load_of_error ha]
    rfl
  | malformed hp hg ha hd =>
    rw [inherit_parent hp hg, Resolver.load_of_malformed ha hd]
    rfl
  | @parent g d e path x calls hp hg he _ ih =>
    rw [inherit_parent hp hg, Resolver.load_of_supplies he, Traced.debug, Traced.event_bind,
      Traced.bind_of_ok rfl]
    simp only [ih]
    cases hx : x.outcome with
    | error f => rw [Traced.bind_of_error hx]; rfl
    | ok complete =>
      rw [Traced.bind_of_ok hx]
      simp [Traced.ofExcept, extendingEvents, Except.bind]

/-- A document is merged into a parent that has none itself. -/
theorem inherit_of_top_parent {e : Document} (hp : d.parent? = .ok (some path))
    (he : r.Supplies path e) (htop : e.parent? = .ok none) :
    inherit r d .empty = ⟨merge e d, extendingEvents path 0⟩ := by
  have hg : path ∉ Guard.empty.chain := by simp [Guard.empty]
  have hrun : Inherits r .empty d ⟨merge e d, extendingEvents path 0 ++ []⟩ _ :=
    .parent hp hg he (.top htop)
  rw [hrun.eq_inherit, List.append_nil]

/-- **Every run of `inherit` is a finite derivation.** -/
theorem inherits_inherit (r : Resolver) : ∀ (g : Guard) (d : Document),
    ∃ calls, Inherits r g d (inherit r d g) calls := by
  -- the result is left open here, so that the rules of the derivation can fill it in
  have key : ∀ (d : Document) (g : Guard), ∃ x calls, Inherits r g d x calls := by
    intro d g
    induction d, g using inherit.induct r with
    | case1 d g f hp => exact ⟨_, _, .invalid hp⟩
    | case2 d g hp => exact ⟨_, _, .top hp⟩
    | case3 d g path hp f hg => exact ⟨_, _, .circular hp (Guard.mem_of_check hg)⟩
    | case4 d g path hp hg ih =>
      have hg' : path ∉ g.chain := Guard.check_eq_ok.1 hg
      cases ha : r.answer path with
      | error f => exact ⟨_, _, .missing hp hg' ha⟩
      | ok t =>
        cases hd : Document.parse t with
        | error f => exact ⟨_, _, .malformed hp hg' ha hd⟩
        | ok e =>
          have he : r.Supplies path e := ⟨t, ha, hd⟩
          obtain ⟨x, calls, h⟩ := ih ⟨e, he.mem_documents⟩
          exact ⟨_, _, .parent hp hg' he h⟩
  intro g d
  obtain ⟨x, calls, h⟩ := key d g
  exact ⟨calls, h.eq_inherit.symm ▸ h⟩

end Agreement

/-! ### The way up -/

/-- A place on the way up through the parents. -/
structure Walk where
  /-- The documents that have been left behind, the last of them first. -/
  below : List Document
  /-- The paths that have been asked for, in order. -/
  asked : List Text
  /-- The document at hand. -/
  here : Document

/-- Where one step up leads. -/
inductive Walk.Next
  /-- There is no parent, and the way up ends. -/
  | top
  /-- It ends with a failure, after the given requests. -/
  | lost (f : Failure) (asked : List Text)
  /-- There is a parent to go on from. -/
  | up (w : Walk)

/-- Where the way up ends. -/
structure Climb where
  /-- The paths that have been asked for, in order. -/
  asked : List Text
  /-- The topmost document and those below it, from the top down; or why there is none. -/
  found : Except Failure (Document × List Document)

namespace Walk

/-- The place before the first step. -/
def start (d : Document) : Walk := ⟨[], [], d⟩

/-- One step up.  The paths of `visited` and those already asked for must not be followed. -/
def next (r : Resolver) (visited : List Text) (w : Walk) : Next :=
  match w.here.get? extendsKey with
  | none | some .null | some (.bool false) | some (.text []) => .top
  | some (.text path) =>
    if path ∈ visited ++ w.asked then
      .lost (.circularReference path (visited ++ w.asked)) w.asked
    else
      match r.answer path with
      | .error f => .lost f (w.asked ++ [path])
      | .ok t =>
        match Document.parse t with
        | .error f => .lost f (w.asked ++ [path])
        | .ok e => .up ⟨w.here :: w.below, w.asked ++ [path], e⟩
  | some v => .lost (.invalidExtends (v.faithfulJson?.getD v.outline)) w.asked

section Step

variable {r : Resolver} {visited : List Text} {w : Walk}

theorem next_of_top (hp : w.here.parent? = .ok none) : w.next r visited = .top := by
  rcases Document.parent?_eq_none_iff.1 hp with h | h | h | h <;> simp only [next, h]

theorem next_of_invalid {f : Failure} (hp : w.here.parent? = .error f) :
    w.next r visited = .lost f w.asked := by
  obtain ⟨v, h, hnull, hfalse, htext, rfl⟩ := Document.parent?_eq_error_iff.1 hp
  cases v with
  | null => exact absurd rfl hnull
  | bool b =>
    cases b with
    | false => exact absurd rfl hfalse
    | true => simp only [next, h]
  | text t => exact absurd rfl (htext t)
  | int n => simp only [next, h]
  | float x => simp only [next, h]
  | sequence vs => simp only [next, h]
  | mapping m => simp only [next, h]
  | tagged t v => simp only [next, h]

/-- A step to a parent, if nothing stands against it. -/
theorem next_of_path (r : Resolver) (visited : List Text) {path : Text}
    (hp : w.here.parent? = .ok (some path)) :
    w.next r visited =
      if path ∈ visited ++ w.asked then
        .lost (.circularReference path (visited ++ w.asked)) w.asked
      else
        match r.answer path with
        | .error f => .lost f (w.asked ++ [path])
        | .ok t =>
          match Document.parse t with
          | .error f => .lost f (w.asked ++ [path])
          | .ok e => .up ⟨w.here :: w.below, w.asked ++ [path], e⟩ := by
  obtain ⟨h, hne⟩ := Document.parent?_eq_some_iff.1 hp
  cases path with
  | nil => exact absurd rfl hne
  | cons c cs => simp only [next, h]

theorem next_of_circular {path : Text} (hp : w.here.parent? = .ok (some path))
    (hv : path ∈ visited ++ w.asked) :
    w.next r visited = .lost (.circularReference path (visited ++ w.asked)) w.asked := by
  rw [next_of_path r visited hp, if_pos hv]

theorem next_of_missing {path : Text} {f : Failure} (hp : w.here.parent? = .ok (some path))
    (hv : path ∉ visited ++ w.asked) (ha : r.answer path = .error f) :
    w.next r visited = .lost f (w.asked ++ [path]) := by
  rw [next_of_path r visited hp, if_neg hv, ha]

theorem next_of_malformed {path t : Text} {f : Failure} (hp : w.here.parent? = .ok (some path))
    (hv : path ∉ visited ++ w.asked) (ha : r.answer path = .ok t)
    (hd : Document.parse t = .error f) : w.next r visited = .lost f (w.asked ++ [path]) := by
  rw [next_of_path r visited hp, if_neg hv, ha]
  simp only [hd]

theorem next_of_supplies {path : Text} {e : Document} (hp : w.here.parent? = .ok (some path))
    (hv : path ∉ visited ++ w.asked) (he : r.Supplies path e) :
    w.next r visited = .up ⟨w.here :: w.below, w.asked ++ [path], e⟩ := by
  obtain ⟨t, ha, hd⟩ := he
  rw [next_of_path r visited hp, if_neg hv, ha]
  simp only [hd]

/-- A step up leads to the parent, along a path that has not been followed before. -/
theorem next_eq_up {w' : Walk} (h : w.next r visited = .up w') :
    ∃ path, w.here.parent? = .ok (some path) ∧ path ∉ visited ++ w.asked ∧
      r.Supplies path w'.here ∧ w'.asked = w.asked ++ [path] := by
  cases hp : w.here.parent? with
  | error f => rw [next_of_invalid hp] at h; cases h
  | ok o =>
    cases o with
    | none => rw [next_of_top hp] at h; cases h
    | some path =>
      rw [next_of_path r visited hp] at h
      split at h
      · cases h
      · next hv =>
        split at h
        · cases h
        · next t ha =>
          split at h
          · cases h
          · next e hd =>
            cases h
            exact ⟨path, rfl, hv, ⟨t, ha, hd⟩, rfl⟩

end Step

/-- The first loop: up from parent to parent, until there is none. -/
def climb (r : Resolver) (visited : List Text) (w : Walk) : Climb :=
  match _h : w.next r visited with
  | .top => ⟨w.asked, .ok (w.here, w.below)⟩
  | .lost f asked => ⟨asked, .error f⟩
  | .up w' => w'.climb r visited
termination_by inheritMeasure r w.here ⟨visited ++ w.asked⟩
decreasing_by
  obtain ⟨path, hp, hv, he, hasked⟩ := next_eq_up _h
  -- the paths asked for so far, behind those of `visited`, are the guard of the recursion
  have hlt := inheritMeasure_extend_lt (g := ⟨visited ++ w.asked⟩) hp
    (by simpa [Guard.contains] using hv) he.mem_documents
  rw [Guard.extend] at hlt
  rw [hasked, ← List.append_assoc]
  exact hlt

section Run

variable {r : Resolver} {visited : List Text} {w : Walk}

theorem climb_of_top (h : w.next r visited = .top) :
    w.climb r visited = ⟨w.asked, .ok (w.here, w.below)⟩ := by
  rw [climb]
  split <;> simp_all

theorem climb_of_lost {f : Failure} {asked : List Text} (h : w.next r visited = .lost f asked) :
    w.climb r visited = ⟨asked, .error f⟩ := by
  rw [climb]
  split <;> simp_all

theorem climb_of_up {w' : Walk} (h : w.next r visited = .up w') :
    w.climb r visited = w'.climb r visited := by
  rw [climb]
  split <;> simp_all

end Run

end Walk

/-! ### The way down -/

/-- The second loop: down again from the topmost document, each document merged into what has come
out above it. -/
def descend (complete : Document) : List Document → Except Failure Document
  | [] => .ok complete
  | d :: below =>
    match mergeBodies complete.body d.body with
    | .error f => .error f
    | .ok body => descend ⟨mergeMetadata complete.metadata d.metadata, body⟩ below

theorem descend_cons (complete d : Document) (below : List Document) :
    descend complete (d :: below) = (merge complete d).bind (descend · below) := by
  rw [descend, merge]
  cases mergeBodies complete.body d.body <;> rfl

/-- **From every place on the way, the loops do what the recursion does**: what is fetched there is
asked for, and what the document there comes to is what the documents below are merged into. -/
theorem Inherits.climb {r : Resolver} {g : Guard} {d : Document} {x : Traced Document}
    {calls : List Guard} (h : Inherits r g d x calls) :
    ∀ (visited : List Text) (w : Walk), w.here = d → g.chain = visited ++ w.asked →
      (w.climb r visited).asked = w.asked ++ x.fetched ∧
        ((w.climb r visited).found.bind fun found => descend found.1 found.2) =
          x.outcome.bind (descend · w.below) := by
  induction h with
  | top hp =>
    rintro visited w rfl hg
    rw [Walk.climb_of_top (Walk.next_of_top hp)]
    exact ⟨by simp [Traced.fetched, Traced.done], rfl⟩
  | invalid hp =>
    rintro visited w rfl hg
    rw [Walk.climb_of_lost (Walk.next_of_invalid hp)]
    exact ⟨by simp [Traced.fetched, Traced.fail], rfl⟩
  | circular hp hm =>
    rintro visited w rfl hg
    rw [Walk.climb_of_lost (Walk.next_of_circular hp (hg ▸ hm)), hg]
    exact ⟨by simp [Traced.fetched, Traced.fail], rfl⟩
  | missing hp hm ha =>
    rintro visited w rfl hg
    rw [Walk.climb_of_lost (Walk.next_of_missing hp (hg ▸ hm) ha)]
    exact ⟨rfl, rfl⟩
  | malformed hp hm ha hd =>
    rintro visited w rfl hg
    rw [Walk.climb_of_lost (Walk.next_of_malformed hp (hg ▸ hm) ha hd)]
    exact ⟨rfl, rfl⟩
  | @parent g d e path x calls hp hm he _ ih =>
    rintro visited w rfl hg
    rw [Walk.climb_of_up (Walk.next_of_supplies hp (hg ▸ hm) he)]
    -- one step up, the document at hand is the first one to come down to again
    obtain ⟨hasked, hfound⟩ := ih visited ⟨w.here :: w.below, w.asked ++ [path], e⟩ rfl
      (by rw [Guard.extend, hg, List.append_assoc])
    refine ⟨?_, ?_⟩
    · rw [hasked, List.append_assoc]
      rfl
    · rw [hfound]
      cases x.outcome with
      | error f => rfl
      | ok complete => exact descend_cons complete w.here w.below

/-- **The recursion is the two loops**: up from parent to parent, and only then, if there is a
topmost document, down again.  They have the same result or failure, and make the same requests in
the same order. -/
theorem inherit_eq_climb_descend (r : Resolver) (d : Document) (g : Guard) :
    (inherit r d g).outcome =
        (((Walk.start d).climb r g.chain).found.bind fun found => descend found.1 found.2) ∧
      (inherit r d g).fetched = ((Walk.start d).climb r g.chain).asked := by
  obtain ⟨calls, h⟩ := inherits_inherit r g d
  obtain ⟨hasked, hfound⟩ := h.climb g.chain (Walk.start d) rfl (List.append_nil _).symm
  refine ⟨?_, ?_⟩
  · rw [hfound]
    cases (inherit r d g).outcome <;> rfl
  · rw [hasked]
    rfl

end MarkdownWeave
