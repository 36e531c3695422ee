import MarkdownWeave.FileTree.Path
import MarkdownWeave.Text.Utf8

/-!
# File trees

A tree of directories and files, and the walk along a path in it.

## Main definitions

* `FileTree` — a file with its bytes, or a directory with its entries.
* `FileProblem` — why a file could not be used.
* `FileTree.walk` — where a path leads.
* `FileTree.look` — what is there.
* `FileTree.write` — the tree with a file written.
-/

namespace MarkdownWeave

/-- Why a file could not be used. -/
inductive FileProblem
  /-- There is nothing of that name. -/
  | notFound
  /-- A file stands where a directory is needed. -/
  | notDirectory
  /-- A directory stands where a file is needed. -/
  | isDirectory
  /-- A name, or the whole path, is too long. -/
  | nameTooLong
  /-- The path has a null character. -/
  | nullByte
  /-- The bytes are no UTF-8. -/
  | notUtf8
  /-- Anything else, in the words of the system. -/
  | other (message : Text)
deriving DecidableEq

namespace FileProblem

/-- A problem in the words of the system. -/
def message : FileProblem → Text
  | notFound => "No such file or directory (os error 2)"
  | notDirectory => "Not a directory (os error 20)"
  | isDirectory => "Is a directory (os error 21)"
  | nameTooLong => "File name too long (os error 36)"
  | nullByte => "file name contained an unexpected NUL byte"
  | notUtf8 => "stream did not contain valid UTF-8"
  | other m => m

end FileProblem

/-- What is at a path. -/
inductive Look
  /-- A file with its bytes. -/
  | file (bytes : List UInt8)
  /-- A directory. -/
  | directory
  /-- Nothing that could be looked at. -/
  | problem (p : FileProblem)
deriving DecidableEq

/-- The text of the file that was seen, or why it cannot be read. -/
def Look.read : Look → Except FileProblem Text
  | file bytes =>
    match Text.ofUtf8? bytes with
    | some t => .ok t
    | none => .error .notUtf8
  | directory => .error .isDirectory
  | problem p => .error p

/-- A file with its bytes, or a directory with its entries. -/
inductive FileTree
  /-- A file. -/
  | file (bytes : List UInt8)
  /-- A directory. -/
  | directory (entries : List (Text × FileTree))
deriving Inhabited

namespace FileTree

/-! ### Parts of a tree -/

/-- The tree under a name. -/
def child? : FileTree → Text → Option FileTree
  | file _, _ => none
  | directory entries, name => entries.lookup name

/-- The tree that names lead to, from the root down. -/
def find? : FileTree → List Text → Option FileTree
  | t, [] => some t
  | t, name :: names => (t.child? name).bind fun u => u.find? names

mutual

/-- The bytes of all files of a tree. -/
def contents : FileTree → List (List UInt8)
  | file bytes => [bytes]
  | directory entries => contentsOf entries
termination_by structural t => t

/-- The bytes of all files of some entries. -/
def contentsOf : List (Text × FileTree) → List (List UInt8)
  | [] => []
  | e :: es => contentsOfEntry e ++ contentsOf es
termination_by structural es => es

/-- The bytes of all files of an entry. -/
def contentsOfEntry : Text × FileTree → List (List UInt8)
  | (_, t) => contents t
termination_by structural e => e

end

mutual

/-- The files of a tree with their paths, where `above` is the path of the tree. -/
def files (above : Text) : FileTree → List (Text × List UInt8)
  | file bytes => [(above, bytes)]
  | directory entries => filesOf above entries
termination_by structural t => t

/-- The files of some entries with their paths. -/
def filesOf (above : Text) : List (Text × FileTree) → List (Text × List UInt8)
  | [] => []
  | e :: es => filesOfEntry above e ++ filesOf above es
termination_by structural es => es

/-- The files of an entry with their paths. -/
def filesOfEntry (above : Text) : Text × FileTree → List (Text × List UInt8)
  | (name, t) => files (if above.isEmpty then name else above ++ '/' :: name) t
termination_by structural e => e

end

theorem contents_subset_of_mem {e : Text × FileTree} {es : List (Text × FileTree)} (h : e ∈ es)
    {b : List UInt8} (hb : b ∈ e.2.contents) : b ∈ contentsOf es := by
  induction es with
  | nil => simp at h
  | cons x es ih =>
    obtain ⟨n, t⟩ := x
    rw [contentsOf, contentsOfEntry, List.mem_append]
    rcases List.mem_cons.1 h with rfl | h
    · exact .inl hb
    · exact .inr (ih h)

/-- The bytes of a file that names lead to are among those of the tree. -/
theorem mem_contents_of_find? {t : FileTree} {names : List Text} {b : List UInt8}
    (h : t.find? names = some (file b)) : b ∈ t.contents := by
  induction names generalizing t with
  | nil =>
    simp only [find?, Option.some.injEq] at h
    simp [h, contents]
  | cons name names ih =>
    cases t with
    | file c => simp [find?, child?] at h
    | directory entries =>
      simp only [find?, child?] at h
      obtain ⟨u, hu, hf⟩ := Option.bind_eq_some_iff.1 h
      obtain ⟨l, r, rfl, _⟩ := List.lookup_eq_some_iff.1 hu
      rw [contents]
      exact contents_subset_of_mem (e := (name, u)) (by simp) (ih hf)

/-! ### Walking -/

/-- The most bytes that a name can have. -/
def maxNameSize : Nat := 255

/-- The number of bytes that a path must not reach. -/
def maxPathSize : Nat := 4096

/-- Where parts of a path lead from a place in the tree.  Empty parts and single dots stay there, two
dots lead up, and each of these needs a directory just as a name does. -/
def walk (t : FileTree) : (place : List Text) → List Text → Except FileProblem (List Text)
  | place, [] => .ok place
  | place, part :: parts =>
    match t.find? place with
    | some (directory entries) =>
      if Path.isIdle part then t.walk place parts
      else if part == ['.', '.'] then t.walk place.dropLast parts
      else if maxNameSize < Text.byteSize part then .error .nameTooLong
      else if (entries.lookup part).isSome then t.walk (place ++ [part]) parts
      else .error .notFound
    | some (file _) => .error .notDirectory
    | none => .error .notFound

/-- Refuses paths that no walk can begin with. -/
def checkPath (path : Text) : Except FileProblem Unit :=
  if path.contains '\x00' then .error .nullByte
  else if path.isEmpty then .error .notFound
  else if maxPathSize ≤ Text.byteSize path then .error .nameTooLong
  else .ok ()

/-- Where a path leads, seen from the current directory `here`. -/
def locate (t : FileTree) (here : List Text) (path : Text) : Except FileProblem (List Text) := do
  checkPath path
  t.walk (if Path.isAbsolute path then [] else here) (Path.parts path)

/-- What is at a path, seen from the current directory `here`. -/
def look (t : FileTree) (here : List Text) (path : Text) : Look :=
  match t.locate here path with
  | .error p => .problem p
  | .ok place =>
    match t.find? place with
    | some (file bytes) => .file bytes
    | some (directory _) => .directory
    | none => .problem .notFound

theorem mem_contents_of_look {t : FileTree} {here : List Text} {path : Text} {b : List UInt8}
    (h : t.look here path = .file b) : b ∈ t.contents := by
  unfold look at h
  split at h
  · cases h
  · split at h
    · rename_i hf
      cases h
      exact mem_contents_of_find? hf
    · cases h
    · cases h

/-! ### Writing -/

/-- The entries with a tree under a name, in place of the one that is there. -/
def setEntry (name : Text) (u : FileTree) : List (Text × FileTree) → List (Text × FileTree)
  | [] => [(name, u)]
  | e :: es => if e.1 == name then (name, u) :: es else e :: setEntry name u es

/-- The tree with a file at a place, if the directories on the way are there. -/
def put (bytes : List UInt8) : List Text → FileTree → FileTree
  | [], _ => file bytes
  | _ :: _, file b => file b
  | [name], directory entries => directory (setEntry name (file bytes) entries)
  | name :: more :: names, directory entries =>
    match entries.lookup name with
    | some u => directory (setEntry name (put bytes (more :: names) u) entries)
    | none => directory entries

/-- Where a file can be written that a path names: the last part has to be a name, and what is
before it a directory. -/
def target (t : FileTree) (here : List Text) (path : Text) : Except FileProblem (List Text) := do
  checkPath path
  let ps := Path.parts path
  let named := (ps.reverse.dropWhile List.isEmpty).reverse
  let start := if Path.isAbsolute path then [] else here
  match named.getLast? with
  | none => .error .isDirectory
  | some name =>
    let place ← t.walk start named.dropLast
    match t.find? place with
    | some (directory entries) =>
      if named.length < ps.length || Path.isIdle name || name == ['.', '.'] then
        .error .isDirectory
      else if maxNameSize < Text.byteSize name then .error .nameTooLong
      else
        match entries.lookup name with
        | some (directory _) => .error .isDirectory
        | _ => .ok (place ++ [name])
    | some (file _) => .error .notDirectory
    | none => .error .notFound

/-- The tree with a file written, or why it cannot be. -/
def write (t : FileTree) (here : List Text) (path : Text) (bytes : List UInt8) :
    Except FileProblem FileTree :=
  (t.target here path).map fun place => t.put bytes place

end FileTree

end MarkdownWeave
