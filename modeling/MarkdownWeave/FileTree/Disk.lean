import MarkdownWeave.FileTree.Basic
import MarkdownWeave.Resolver

/-!
# Disks

What a program sees of the files around it: an answer for every path.  A disk gives rise to a
resolver for the documents below a base directory.

## Main definitions

* `Disk` — what is at each path.
* `Disk.ofTree`, `Disk.ofTable` — the disk of a file tree, and one of known answers.
* `Disk.resolver` — the documents below a base directory, up to a size limit.
-/

namespace MarkdownWeave

/-- What is at each path, with finitely many different files. -/
structure Disk where
  /-- What is at a path. -/
  look : Text → Look
  /-- The bytes of all files, and maybe others. -/
  contents : List (List UInt8)
  /-- Every file that can be looked at is among them. -/
  look_mem : ∀ {path : Text} {bytes : List UInt8}, look path = .file bytes → bytes ∈ contents

namespace Disk

/-- The disk of a file tree, seen from a current directory. -/
def ofTree (t : FileTree) (here : List Text) : Disk where
  look := t.look here
  contents := t.contents
  look_mem := FileTree.mem_contents_of_look

/-- The bytes of the file that was seen. -/
def bytes? : Look → Option (List UInt8)
  | .file b => some b
  | _ => none

/-- The disk on which some paths have known answers and nothing else is found. -/
def ofTable (table : List (Text × Look)) : Disk where
  look path := (table.lookup path).getD (.problem .notFound)
  contents := table.filterMap fun e => bytes? e.2
  look_mem := by
    intro path bytes h
    cases hl : table.lookup path with
    | none => simp [hl] at h
    | some l =>
      rw [hl, Option.getD_some] at h
      subst h
      obtain ⟨before, after, rfl, _⟩ := List.lookup_eq_some_iff.1 hl
      exact List.mem_filterMap.2 ⟨(path, .file bytes), by simp, rfl⟩

/-- The text at a path, or why it cannot be read. -/
def read (d : Disk) (path : Text) : Except FileProblem Text := (d.look path).read

/-- Whether a file is larger than a limit. -/
def exceeds (limit : Option Nat) (size : Nat) : Bool := limit.any (· < size)

/-- The document that was seen at `full`, which was asked for as `path`.  A directory is no
document, and neither is a file that is too large. -/
def document (limit : Option Nat) (path full : Text) : Look → Except Failure Text
  | .directory => .error (.documentNotFound path)
  | .problem .notFound => .error (.documentNotFound path)
  | .problem p => .error (.unreadable full p.message)
  | .file bytes =>
    if exceeds limit bytes.length then
      .error (.documentTooLarge path bytes.length (limit.getD 0))
    else
      match Text.ofUtf8? bytes with
      | some t => .ok t
      | none => .error (.unreadable full FileProblem.notUtf8.message)

theorem document_eq_ok {limit : Option Nat} {path full t : Text} {l : Look}
    (h : document limit path full l = .ok t) : ∃ bytes, l = .file bytes ∧ Text.ofUtf8? bytes = some t := by
  unfold document at h
  split at h
  · cases h
  · cases h
  · cases h
  · rename_i bytes
    split at h
    · cases h
    · split at h
      · rename_i ht
        cases h
        exact ⟨bytes, rfl, ht⟩
      · cases h

/-- The resolver of the documents below a base directory. -/
def resolver (d : Disk) (base : Text) (limit : Option Nat) : Resolver where
  answer path := document limit path (Path.join base path) (d.look (Path.join base path))
  texts := d.contents.filterMap Text.ofUtf8?
  answer_mem := by
    intro path text h
    obtain ⟨bytes, hl, ht⟩ := document_eq_ok h
    exact List.mem_filterMap.2 ⟨bytes, d.look_mem hl, ht⟩

end Disk

end MarkdownWeave
