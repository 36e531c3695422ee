import MarkdownWeave.Proofs.FileTree.Listing
import MarkdownWeave.Proofs.FileTree.Writing

/-!
# What is reached from a base directory

A path of names, put behind the path of a base directory, is walked from the place of the directory,
and each name leads one step down.  Such a walk fails in one way only, where the next name is not
there, as long as no file stands on the way.

## Main definitions

* `FileTree.IsOpen` — no file stands on the way that names lead.
* `FileTree.IsBase` — the path of a base leads to a directory.
* `FileTree.Acceptable` — a path that can be looked for below a base.

## Main results

* `FileTree.walk_of_names` — names lead down one by one.
* `FileTree.exists_parts_join` — the parts of a path behind a base.
* `FileTree.look_join` — **looking at a path behind the base is looking into the base directory.**
-/

namespace MarkdownWeave

namespace FileTree

variable {t : FileTree} {here place : List Text} {base path : Text}
  {entries : List (Text × FileTree)}

/-! ### Ways down -/

/-- Whether a tree is a file. -/
def isFile : FileTree → Bool
  | file _ => true
  | directory _ => false

/-- No file stands on the way that names lead, except maybe at its end. -/
def IsOpen (t : FileTree) (names : List Text) : Prop :=
  ∀ n < names.length, (t.find? (names.take n)).any isFile = false

instance (t : FileTree) (names : List Text) : Decidable (t.IsOpen names) := Nat.decidableBallLT ..

theorem IsOpen.exists_entries {name : Text} {names : List Text} (h : t.IsOpen (name :: names)) :
    ∃ entries, t = directory entries := by
  have hstart : isFile t = false := h 0 (Nat.succ_pos _)
  cases t with
  | file b => cases hstart
  | directory entries => exact ⟨entries, rfl⟩

theorem IsOpen.below {u : FileTree} {name : Text} {names : List Text}
    (h : t.IsOpen (name :: names)) (hu : t.child? name = some u) : u.IsOpen names := by
  intro n hn
  have hnext := h (n + 1) (Nat.succ_lt_succ hn)
  rw [List.take_succ_cons, find?, hu] at hnext
  exact hnext

/-- **Names lead down one by one**, as far as they are there. -/
theorem walk_of_names {u : FileTree} {names : List Text} (hu : t.find? place = some u)
    (hnames : ∀ name ∈ names, Path.isName name = true)
    (hsizes : ∀ name ∈ names, Text.byteSize name ≤ maxNameSize) (hopen : u.IsOpen names) :
    t.walk place names =
      if (u.find? names).isSome then .ok (place ++ names) else .error .notFound := by
  induction names generalizing place u with
  | nil => simp [walk, find?]
  | cons name names ih =>
    obtain ⟨entries, rfl⟩ := hopen.exists_entries
    rw [List.forall_mem_cons] at hnames hsizes
    obtain ⟨hidle, hup, -⟩ := Path.isName_iff.1 hnames.1
    have hup : (name == ['.', '.']) = false := beq_eq_false_iff_ne.2 hup
    rw [walk, hu]
    dsimp only
    rw [hidle, hup, if_neg Bool.false_ne_true, if_neg Bool.false_ne_true,
      if_neg (Nat.not_lt.2 hsizes.1), find?, child?]
    cases hchild : entries.lookup name with
    | none => rfl
    | some v =>
      have hv : t.find? (place ++ [name]) = some v := by
        rw [find?_append, hu]
        show (directory entries).find? [name] = some v
        rw [find?, child?, hchild]
        rfl
      rw [Option.isSome_some, if_pos rfl, ih hv hnames.2 hsizes.2 (hopen.below hchild),
        List.append_assoc, List.singleton_append, Option.bind_some]

/-! ### Paths behind a base -/

/-- The path of a base leads to a directory with these entries. -/
def IsBase (t : FileTree) (here : List Text) (base : Text) (entries : List (Text × FileTree)) :
    Prop :=
  ∃ place, t.walk (origin here base) (Path.parts base) = .ok place ∧
    t.find? place = some (directory entries)

/-- A path can be looked for below a base: it is made of names, no file stands on its way through
the tree below the base, and the system accepts the names and the path behind the base. -/
structure Acceptable (t : FileTree) (base path : Text) : Prop where
  /-- The path is made of names, so that it is relative and does not lead up. -/
  names : ∀ part ∈ Path.parts path, Path.isName part = true
  /-- No file stands on its way. -/
  way : t.IsOpen (Path.parts path)
  /-- No name is too long. -/
  sizes : ∀ part ∈ Path.parts path, Text.byteSize part ≤ maxNameSize
  /-- A walk along the whole path can begin. -/
  allowed : checkPath (Path.join base path) = .ok ()

theorem acceptable_iff : t.Acceptable base path ↔
    (∀ part ∈ Path.parts path, Path.isName part = true ∧ Text.byteSize part ≤ maxNameSize) ∧
      t.IsOpen (Path.parts path) ∧ checkPath (Path.join base path) = .ok () := by
  constructor
  · rintro ⟨hnames, hway, hsizes, hallowed⟩
    exact ⟨fun part hpart => ⟨hnames part hpart, hsizes part hpart⟩, hway, hallowed⟩
  · rintro ⟨hparts, hway, hallowed⟩
    exact ⟨fun part hpart => (hparts part hpart).1, hway, fun part hpart => (hparts part hpart).2,
      hallowed⟩

instance (t : FileTree) (base path : Text) : Decidable (t.Acceptable base path) :=
  decidable_of_iff' _ acceptable_iff

theorem Acceptable.isAbsolute (h : t.Acceptable base path) : Path.isAbsolute path = false := by
  cases path with
  | nil => rfl
  | cons c rest =>
    have hc : c ≠ '/' := by
      rintro rfl
      have hfirst : ([] : Text) ∈ Path.parts ('/' :: rest) := by
        rw [Path.parts, Text.splitOn, if_pos rfl]
        exact List.mem_cons_self
      cases h.names [] hfirst
    simpa [Path.isAbsolute] using hc

/-- **The parts of a path behind a base are those of the base and then its own**; a base that ends
with a slash, or that is empty, has an empty part at its end that is not among them. -/
theorem exists_parts_join (base : Text) (hpath : Path.isAbsolute path = false) :
    ∃ before, Path.parts (Path.join base path) = before ++ Path.parts path ∧
      (Path.parts base = before ∨ Path.parts base = before ++ [[]]) := by
  rw [Path.join, hpath, if_neg Bool.false_ne_true]
  by_cases hend : Text.endsWith '/' base = true
  · obtain ⟨front, rfl⟩ := List.getLast?_eq_some_iff.1 (beq_iff_eq.1 hend)
    refine ⟨Path.parts front, ?_, .inr ?_⟩
    · rw [hend, Bool.or_true, if_pos rfl, List.append_assoc, List.singleton_append]
      exact Text.splitOn_append_cons '/' front path
    · exact Text.splitOn_append_cons '/' front []
  · rw [Bool.not_eq_true] at hend
    rw [hend, Bool.or_false]
    cases base with
    | nil => exact ⟨[], rfl, .inr rfl⟩
    | cons c base =>
      refine ⟨Path.parts (c :: base), ?_, .inl rfl⟩
      rw [List.isEmpty_cons, if_neg Bool.false_ne_true]
      exact Text.splitOn_append_cons '/' (c :: base) path

theorem origin_join (here : List Text) (base : Text) (hpath : Path.isAbsolute path = false) :
    origin here (Path.join base path) = origin here base := by
  have habsolute : Path.isAbsolute (Path.join base path) = Path.isAbsolute base := by
    rw [Path.join, hpath, if_neg Bool.false_ne_true]
    cases base with
    | nil => exact hpath
    | cons c base => split_ifs <;> rfl
  rw [origin, origin, habsolute]

/-- The way to the base does not need the empty part at its end. -/
theorem IsBase.leads (h : t.IsBase here base entries) {before : List Text}
    (hbefore : Path.parts base = before ∨ Path.parts base = before ++ [[]]) :
    ∃ place, t.walk (origin here base) before = .ok place ∧
      t.find? place = some (directory entries) := by
  obtain ⟨place, hwalk, hplace⟩ := h
  rcases hbefore with rfl | hlast
  · exact ⟨place, hwalk, hplace⟩
  · rw [hlast, walk_append] at hwalk
    cases hfront : t.walk (origin here base) before with
    | error p =>
      rw [hfront] at hwalk
      cases hwalk
    | ok q =>
      rw [hfront] at hwalk
      have hstay : t.walk q [] = .ok place := (walk_cons_eq_ok_iff.1 hwalk).2
      obtain rfl : q = place := Except.ok.inj hstay
      exact ⟨q, rfl, hplace⟩

/-- **Looking at a path behind the base is looking into the base directory**, wherever that is. -/
theorem look_join (hbase : t.IsBase here base entries)
    (hpath : (directory entries).Acceptable base path) :
    t.look here (Path.join base path) = (directory entries).lookAt (Path.parts path) := by
  have hrelative := hpath.isAbsolute
  obtain ⟨before, hparts, hbefore⟩ := exists_parts_join base hrelative
  obtain ⟨place, hwalk, hplace⟩ := hbase.leads hbefore
  have hlocate : t.locate here (Path.join base path) = t.walk place (Path.parts path) := by
    have hsplit : t.locate here (Path.join base path) =
        t.walk (origin here (Path.join base path)) (Path.parts (Path.join base path)) := by
      rw [locate, hpath.allowed]
      rfl
    rw [hsplit, origin_join here base hrelative, hparts, walk_append, hwalk]
    rfl
  rw [look_eq_lookAt, hlocate, walk_of_names hplace hpath.names hpath.sizes hpath.way]
  cases hfind : (directory entries).find? (Path.parts path) with
  | none => rw [lookAt, hfind]; rfl
  | some u =>
    rw [Option.isSome_some, if_pos rfl]
    dsimp only
    rw [lookAt, lookAt, find?_append, hplace, Option.bind_some, hfind]

end FileTree

end MarkdownWeave
