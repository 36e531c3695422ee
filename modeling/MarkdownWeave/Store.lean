import MarkdownWeave.Resolver

/-!
# Stores

Documents that are kept in memory, each text at a path of its own.  A path counts as it is written,
so that two spellings of one place are two paths.

## Main definitions

* `Store` — texts at paths.
* `Store.insert`, `Store.ofList` — putting texts into a store.
* `Store.resolver` — the resolver of the texts in a store.
-/

namespace MarkdownWeave

/-- Texts at paths. -/
structure Store where
  /-- The paths with their texts. -/
  entries : List (Text × Text)
  /-- No path has two texts. -/
  nodup : (entries.map Prod.fst).Nodup

namespace Store

/-- The store without any texts. -/
def empty : Store := ⟨[], List.nodup_nil⟩

/-- The store with a text at a path, in place of the one that is there. -/
def insert (path t : Text) (s : Store) : Store where
  entries := (path, t) :: s.entries.filter (·.1 != path)
  nodup := by
    rw [List.map_cons, List.nodup_cons]
    exact ⟨by simp, s.nodup.sublist (List.filter_sublist.map _)⟩

/-- The store of a list of texts; of two at the same path the last one counts. -/
def ofList (texts : List (Text × Text)) : Store :=
  texts.foldl (fun s e => s.insert e.1 e.2) empty

/-- The text at a path. -/
def get? (s : Store) (path : Text) : Option Text := s.entries.lookup path

/-- The number of texts. -/
def size (s : Store) : Nat := s.entries.length

/-- Whether there are no texts. -/
def isEmpty (s : Store) : Bool := s.entries.isEmpty

/-- The resolver of the texts in a store. -/
def resolver (s : Store) : Resolver := .ofAnswers (s.entries.map fun e => (e.1, .ok e.2))

theorem get?_insert_self (s : Store) (path t : Text) : (s.insert path t).get? path = some t := by
  simp [get?, insert]

theorem get?_insert_of_ne (s : Store) {path other : Text} (t : Text) (h : other ≠ path) :
    (s.insert path t).get? other = s.get? other := by
  have hb : (other == path) = false := by simpa using h
  simp only [get?, insert, List.lookup_cons, hb]
  induction s.entries with
  | nil => rfl
  | cons e es ih =>
    by_cases he : e.1 = path
    · have ho : (other == e.1) = false := by simpa [he] using h
      rw [List.filter_cons_of_neg (by simp [he]), ih, List.lookup_cons, ho]
    · rw [List.filter_cons_of_pos (by simp [he]), List.lookup_cons, List.lookup_cons, ih]

theorem lookup_map_ok (path : Text) (entries : List (Text × Text)) :
    (entries.map fun e => (e.1, (.ok e.2 : Except Failure Text))).lookup path =
      (entries.lookup path).map .ok := by
  induction entries with
  | nil => rfl
  | cons e es ih =>
    rw [List.map_cons, List.lookup_cons, List.lookup_cons, ih]
    cases path == e.1 <;> rfl

/-- The resolver answers with the text at the path, or with the failure that there is none. -/
theorem resolver_answer (s : Store) (path : Text) :
    s.resolver.answer path =
      match s.get? path with
      | some t => .ok t
      | none => .error (.documentNotFound path) := by
  simp only [resolver, Resolver.ofAnswers, lookup_map_ok, get?]
  cases s.entries.lookup path <;> rfl

end Store

end MarkdownWeave
