import MarkdownWeave.Proofs.FailingAlike
import MarkdownWeave.Proofs.FileTree.Reaching

/-!
# Files and the same files in memory

A compilation with the files below a base directory does the same as one with these files in
memory, as long as it asks for paths that can be looked for.  The two tell apart one thing alone: a
file that is too large is there for the one, and has to be refused, and is not there for the other.

## Main definitions

* `FileTree.oversize?` — the size of a file that is larger than a limit.
* `FileTree.Keeps` — a base directory whose files can be kept in memory.
* `Failure.asMissing` — a failure as it is when files that are too large are not there.

## Main results

* `FileTree.Keeps.answer_eq` — what there is at a path, as a file and in memory.
* `compile_store` — **a compilation with files is one with these files in memory**, up to what is
  said of files that are too large.
-/

namespace MarkdownWeave

/-- A failure as it is when files that are too large are not there. -/
def Failure.asMissing : Failure → Failure
  | .documentTooLarge path _ _ => .documentNotFound path
  | f => f

theorem Failure.asMissing_of_isOwn {f : Failure} (h : f.isOwn) : f.asMissing = f := by
  cases f with
  | documentTooLarge path size limit => cases h
  | _ => rfl

namespace FileTree

/-! ### Files that are too large -/

/-- The size of the file that the parts of a path lead to, and the limit, if the file is larger. -/
def oversize? (limit : Option Nat) (t : FileTree) (path : Text) : Option (Nat × Nat) :=
  match limit, t.find? (Path.parts path) with
  | some max, some (file b) => if max < b.length then some (b.length, max) else none
  | _, _ => none

theorem oversize?_eq_some_iff {limit : Option Nat} {t : FileTree} {path : Text} {size max : Nat} :
    t.oversize? limit path = some (size, max) ↔
      limit = some max ∧ max < size ∧
        ∃ b, t.find? (Path.parts path) = some (file b) ∧ b.length = size := by
  unfold oversize?
  split
  · next m b hfind =>
    rw [hfind]
    by_cases hlarge : m < b.length
    · rw [if_pos hlarge, Option.some.injEq, Prod.mk.injEq]
      constructor
      · rintro ⟨rfl, rfl⟩
        exact ⟨rfl, hlarge, b, rfl, rfl⟩
      · rintro ⟨hm, -, c, hc, rfl⟩
        cases hm
        cases hc
        exact ⟨rfl, rfl⟩
    · rw [if_neg hlarge]
      constructor
      · intro h
        cases h
      · rintro ⟨hm, hsize, c, hc, rfl⟩
        cases hm
        cases hc
        exact absurd hsize hlarge
  · next hno =>
    constructor
    · intro h
      cases h
    · rintro ⟨rfl, -, b, hb, -⟩
      exact absurd hb (hno max b rfl)

theorem oversize?_eq_none {limit : Option Nat} {t : FileTree} {path : Text}
    (h : ∀ b, t.find? (Path.parts path) = some (file b) → Disk.exceeds limit b.length = false) :
    t.oversize? limit path = none := by
  cases hlarge : t.oversize? limit path with
  | none => rfl
  | some e =>
    obtain ⟨size, max⟩ := e
    obtain ⟨rfl, hsize, b, hfind, rfl⟩ := oversize?_eq_some_iff.1 hlarge
    have hexceeds : Disk.exceeds (some max) b.length = true := decide_eq_true hsize
    rw [h b hfind] at hexceeds
    cases hexceeds

/-! ### What there is at a path -/

/-- The path of a base leads to a directory with these entries, and what is below it can be kept in
memory: no two entries of a directory have the same name, and all files are texts. -/
structure Keeps (t : FileTree) (here : List Text) (base : Text)
    (entries : List (Text × FileTree)) : Prop where
  /-- The path of the base leads to the directory. -/
  base : t.IsBase here base entries
  /-- All entries below it have names, and different ones. -/
  proper : (directory entries).isProper = true
  /-- All files below it are texts. -/
  texts : ∀ b ∈ (directory entries).contents, (Text.ofUtf8? b).isSome = true

/-- Where there is no file there is no document. -/
theorem document_lookAt_of_no_file {t : FileTree} {place : List Text}
    (h : ∀ b, t.find? place ≠ some (file b)) (limit : Option Nat) (path full : Text) :
    Disk.document limit path full (t.lookAt place) = .error (.documentNotFound path) := by
  rw [lookAt]
  split
  · next b hfind => exact absurd hfind (h b)
  · rfl
  · rfl

section Answers

variable {t : FileTree} {here : List Text} {base path : Text} {entries : List (Text × FileTree)}
  {limit : Option Nat}

/-- In memory there is nothing at a path that does not lead to a file, and nothing in place of files
that are too large. -/
theorem store_answer_of_no_file (h : (directory entries).isProper = true)
    (hno : ∀ b, (directory entries).find? (Path.parts path) = some (file b) →
      Disk.exceeds limit b.length = true) :
    ((directory entries).store limit).resolver.answer path = .error (.documentNotFound path) := by
  rw [Store.resolver_answer]
  cases hget : ((directory entries).store limit).get? path with
  | none => rfl
  | some text =>
    obtain ⟨b, hfind, hsize, -⟩ := (get?_store_eq_some_iff h).1 hget
    rw [hno b hfind] at hsize
    cases hsize

theorem store_answer_of_oversize (h : (directory entries).isProper = true) {size max : Nat}
    (hlarge : (directory entries).oversize? limit path = some (size, max)) :
    ((directory entries).store limit).resolver.answer path = .error (.documentNotFound path) := by
  obtain ⟨rfl, hsize, b, hfind, rfl⟩ := oversize?_eq_some_iff.1 hlarge
  refine store_answer_of_no_file h fun c hc => ?_
  rw [hfind] at hc
  cases hc
  exact decide_eq_true hsize

/-- **At a path that can be looked for there is the same as a file and in memory**, unless the file
is too large. -/
theorem Keeps.answer_eq (h : t.Keeps here base entries)
    (hpath : (directory entries).Acceptable base path) :
    ((Disk.ofTree t here).resolver base limit).answer path =
      match (directory entries).oversize? limit path with
      | some (size, max) => .error (.documentTooLarge path size max)
      | none => ((directory entries).store limit).resolver.answer path := by
  have hanswer : ((Disk.ofTree t here).resolver base limit).answer path =
      Disk.document limit path (Path.join base path)
        ((directory entries).lookAt (Path.parts path)) := by
    rw [← look_join h.base hpath]
    rfl
  rw [hanswer]
  by_cases hfile : ∃ b, (directory entries).find? (Path.parts path) = some (file b)
  · obtain ⟨b, hfind⟩ := hfile
    obtain ⟨text, htext⟩ := Option.isSome_iff_exists.1 (h.texts b (mem_contents_of_find? hfind))
    have hlook : (directory entries).lookAt (Path.parts path) = .file b := by rw [lookAt, hfind]
    rw [hlook, Disk.document]
    cases hsize : Disk.exceeds limit b.length with
    | true =>
      obtain ⟨max, rfl, hmax⟩ := (Option.any_eq_true _ _).1 hsize
      have hlarge := oversize?_eq_some_iff.2 ⟨rfl, of_decide_eq_true hmax, b, hfind, rfl⟩
      rw [hlarge, if_pos rfl]
      rfl
    | false =>
      have hsmall : (directory entries).oversize? limit path = none := by
        refine oversize?_eq_none fun c hc => ?_
        rw [hfind] at hc
        cases hc
        exact hsize
      have hget : ((directory entries).store limit).get? path = some text :=
        (get?_store_eq_some_iff h.proper).2 ⟨b, hfind, hsize, htext⟩
      rw [hsmall, Store.resolver_answer, hget, if_neg Bool.false_ne_true, htext]
  · have hno : ∀ b, (directory entries).find? (Path.parts path) ≠ some (file b) :=
      fun b hb => hfile ⟨b, hb⟩
    rw [document_lookAt_of_no_file hno, oversize?_eq_none fun b hb => absurd hb (hno b)]
    exact (store_answer_of_no_file h.proper fun b hb => absurd hb (hno b)).symm

/-- In memory there is the same as in files, if files that are too large are left out. -/
theorem Keeps.store_answer_eq (h : t.Keeps here base entries)
    (hpath : (directory entries).Acceptable base path) :
    ((directory entries).store limit).resolver.answer path =
      (((Disk.ofTree t here).resolver base limit).answer path).mapError Failure.asMissing := by
  rw [h.answer_eq hpath]
  cases hlarge : (directory entries).oversize? limit path with
  | some e =>
    obtain ⟨size, max⟩ := e
    exact store_answer_of_oversize h.proper hlarge
  | none =>
    dsimp only
    rw [Store.resolver_answer]
    cases ((directory entries).store limit).get? path <;> rfl

/-- A path is refused because of the size of the file there. -/
theorem Keeps.oversize?_of_answer (h : t.Keeps here base entries)
    (hpath : (directory entries).Acceptable base path) {other : Text} {size max : Nat}
    (ha : ((Disk.ofTree t here).resolver base limit).answer path =
      .error (.documentTooLarge other size max)) :
    other = path ∧ (directory entries).oversize? limit path = some (size, max) := by
  rw [h.answer_eq hpath] at ha
  cases hlarge : (directory entries).oversize? limit path with
  | some e =>
    rw [hlarge] at ha
    cases ha
    exact ⟨rfl, rfl⟩
  | none =>
    rw [hlarge] at ha
    dsimp only at ha
    rw [Store.resolver_answer] at ha
    cases hget : ((directory entries).store limit).get? path with
    | some text => rw [hget] at ha; cases ha
    | none => rw [hget] at ha; cases ha

end Answers

end FileTree

/-! ### Compilations -/

/-- A compilation with files, and one with the files of a directory in memory, do the same, but for
files that are larger than a limit. -/
structure Mirrored (files store : Resolver) (dir : FileTree) (limit : Option Nat) (source : Text)
    (vars : Metadata) : Prop where
  /-- They ask for the same paths in the same order. -/
  fetched : (compile store source vars).fetched = (compile files source vars).fetched
  /-- They come to the same, but where one fails because a file is too large, the other fails
  because it is not there. -/
  outcome : (compile store source vars).outcome =
    (compile files source vars).outcome.mapError Failure.asMissing
  /-- Of the files that are asked for, those that are too large are refused with their size and the
  limit, and are not there in memory. -/
  refused : ∀ p ∈ (compile files source vars).fetched, ∀ size max,
    dir.oversize? limit p = some (size, max) →
      files.answer p = .error (.documentTooLarge p size max) ∧
        store.answer p = .error (.documentNotFound p)
  /-- If a file is too large for a compilation, it is one that is asked for, with its size and the
  limit. -/
  tooLarge : ∀ p size max,
    (compile files source vars).outcome = .error (.documentTooLarge p size max) →
      p ∈ (compile files source vars).fetched ∧ dir.oversize? limit p = some (size, max)
  /-- If no parent and no value is a file that is too large, they come to the same. -/
  same : ParentsAndValues (fun p => dir.oversize? limit p = none) files source vars →
    (compile store source vars).outcome = (compile files source vars).outcome

/-- **A compilation with the files below a base directory is one with these files in memory.**  All
paths that it asks for have to be relative and made of names, no file may stand on their way, and
the system has to accept them. -/
theorem compile_store {t : FileTree} {here : List Text} {base : Text}
    {entries : List (Text × FileTree)} (h : t.Keeps here base entries) (limit : Option Nat)
    (source : Text) (vars : Metadata)
    (hpaths : ∀ p ∈ (compile ((Disk.ofTree t here).resolver base limit) source vars).fetched,
      (FileTree.directory entries).Acceptable base p) :
    Mirrored ((Disk.ofTree t here).resolver base limit)
      ((FileTree.directory entries).store limit).resolver (.directory entries) limit source
      vars := by
  have halike : ∀ p ∈ (compile ((Disk.ofTree t here).resolver base limit) source vars).fetched,
      Resolver.FailAlike (fun _ _ => True) ((Disk.ofTree t here).resolver base limit)
        ((FileTree.directory entries).store limit).resolver p := by
    intro p hp
    rw [Resolver.FailAlike, h.store_answer_eq (hpaths p hp)]
    cases ((Disk.ofTree t here).resolver base limit).answer p with
    | ok text => exact .ok rfl
    | error f => exact .error trivial
  obtain ⟨hfetched, hout⟩ := compile_parallel halike
  refine ⟨hfetched, ?_, ?_, ?_, ?_⟩
  · cases hend : (compile ((Disk.ofTree t here).resolver base limit) source vars).outcome with
    | ok text =>
      rw [hend] at hout
      exact hout.eq_ok
    | error f =>
      rw [hend] at hout
      obtain ⟨f', hend', hf⟩ := hout.exists_error
      rw [hend']
      -- only an answer can be that a file is too large
      cases hf with
      | own hown => exact congrArg Except.error (Failure.asMissing_of_isOwn hown).symm
      | answers hp ha ha' =>
        rw [h.store_answer_eq (hpaths _ hp), ha] at ha'
        exact ha'.symm
  · intro p hp size max hlarge
    refine ⟨?_, FileTree.store_answer_of_oversize h.proper hlarge⟩
    rw [h.answer_eq (hpaths p hp), hlarge]
  · intro p size max hfail
    rw [hfail] at hout
    obtain ⟨f', -, hf⟩ := hout.exists_error
    cases hf with
    | own hown => cases hown
    | answers hq ha _ =>
      obtain ⟨rfl, hlarge⟩ := h.oversize?_of_answer (hpaths _ hq) ha
      exact ⟨hq, hlarge⟩
  · intro hsmall
    apply compile_outcome_eq_of_parentsAndValues halike
    refine hsmall.imp fun p hp hnone => ?_
    rw [h.answer_eq (hpaths p hp), hnone]

/-- The text of a parent; its slot has a document for its value. -/
def shelvedBase : Text := "---\nv: '@note.md'\n---\n{{ v }}\n{{ content }}"

/-- The text of a child of that parent, which refers to a document in a directory, to one that is
too large, to a directory, and to nothing. -/
def shelvedSource : Text :=
  "---\nextends: base.md\n---\n@parts/a.md\n@big.md\n@parts\n@none.md"

/-- The files for that source. -/
def shelvedEntries : List (Text × FileTree) :=
  [("base.md", .file (Text.utf8 shelvedBase)), ("note.md", .file (Text.utf8 "N")),
    ("big.md", .file (List.replicate 44 120)),
    ("parts", .directory [("a.md", .file (Text.utf8 "A\nB"))])]

/-- A tree with these files in one of its directories. -/
def shelvedTree : FileTree :=
  .directory [("other", .file [255]), ("docs", .directory shelvedEntries)]

/-- The files of that directory, where none may be larger than the text of the parent. -/
def shelvedFiles : Resolver := (Disk.ofTree shelvedTree []).resolver "docs/" (some 43)

/-- The parent. -/
def shelvedParent : Document := ⟨[(.text "v", .text "@note.md")], "{{ v }}\n{{ content }}"⟩

/-- The child. -/
def shelvedChild : Document :=
  ⟨[(.text "extends", .text "base.md")], "@parts/a.md\n@big.md\n@parts\n@none.md"⟩

/-- What the child and its parent come to. -/
def shelvedComplete : Document :=
  ⟨[(.text "v", .text "@note.md")], "{{ v }}\n@parts/a.md\n@big.md\n@parts\n@none.md"⟩

/-- The same with its slot filled. -/
def shelvedFilled : Document := ⟨[], "N\n@parts/a.md\n@big.md\n@parts\n@none.md"⟩

theorem parse_shelvedSource : Document.parse shelvedSource = .ok shelvedChild := by
  decide +kernel

theorem inherit_shelvedChild :
    (inherit shelvedFiles shelvedChild .empty).outcome = .ok shelvedComplete ∧
      (inherit shelvedFiles shelvedChild .empty).fetched = (["base.md"] : List Text) := by
  have below : shelvedChild.parent? = .ok (some "base.md") := by decide +kernel
  have above : shelvedParent.parent? = .ok none := by decide +kernel
  have supplied : shelvedFiles.Supplies "base.md" shelvedParent :=
    ⟨shelvedBase, by decide +kernel, by decide +kernel⟩
  rw [inherit_of_top_parent below supplied above]
  exact ⟨by decide +kernel, by decide +kernel⟩

theorem substitute_shelvedComplete :
    (substitute shelvedFiles shelvedComplete).outcome = .ok shelvedFilled ∧
      (substitute shelvedFiles shelvedComplete).fetched = (["note.md"] : List Text) :=
  ⟨by decide +kernel, by decide +kernel⟩

theorem compile_shelvedSource_fetched :
    (compile shelvedFiles shelvedSource []).fetched =
      (["base.md", "note.md", "parts/a.md", "big.md", "parts", "none.md"] : List Text) := by
  obtain ⟨hcomplete, hparents⟩ := inherit_shelvedChild
  obtain ⟨hfilled, hvalues⟩ := substitute_shelvedComplete
  have hvars : applyOverrides shelvedComplete [] = shelvedComplete := rfl
  have hincluded : (transclude shelvedFiles shelvedFilled .empty).fetched =
      (["parts/a.md", "big.md", "parts", "none.md"] : List Text) := by
    rw [Traced.fetched, transclude_events,
      (expands_of_expandWithin 6 .empty _ _ [⟨["parts/a.md"]⟩] (by rfl)).eq_transcludeLines]
    decide +kernel
  rw [← hvars] at hfilled
  rw [compile_fetched_of_stages parse_shelvedSource hcomplete hfilled, hparents, hvars, hvalues,
    hincluded]
  rfl

/-- Neither the parent nor the value of the slot is too large. -/
theorem parentsAndValues_shelvedSource :
    ParentsAndValues (fun p => (FileTree.directory shelvedEntries).oversize? (some 43) p = none)
      shelvedFiles shelvedSource [] := by
  refine ⟨?_, ?_⟩
  · intro d hd p hp
    rw [parse_shelvedSource] at hd
    cases hd
    rw [inherit_shelvedChild.2, List.mem_singleton] at hp
    rw [hp]
    decide +kernel
  · intro d hd complete hcomplete p hp
    rw [parse_shelvedSource] at hd
    cases hd
    rw [inherit_shelvedChild.1] at hcomplete
    cases hcomplete
    have hvars : applyOverrides shelvedComplete [] = shelvedComplete := rfl
    rw [hvars, substitute_shelvedComplete.2, List.mem_singleton] at hp
    rw [hp]
    decide +kernel

/-- A file that is one byte too large is left as a reference in both, and the parent, which is as
large as it may be, is taken. -/
theorem compile_shelvedStore :
    (FileTree.directory shelvedEntries).oversize? (some 43) "big.md" = some (44, 43) ∧
      (compile shelvedFiles shelvedSource []).fetched =
        (["base.md", "note.md", "parts/a.md", "big.md", "parts", "none.md"] : List Text) ∧
      Mirrored shelvedFiles ((FileTree.directory shelvedEntries).store (some 43)).resolver
        (.directory shelvedEntries) (some 43) shelvedSource [] ∧
      (compile ((FileTree.directory shelvedEntries).store (some 43)).resolver shelvedSource
        []).outcome = (compile shelvedFiles shelvedSource []).outcome := by
  have hkeeps : shelvedTree.Keeps [] "docs/" shelvedEntries :=
    ⟨⟨["docs"], by decide +kernel, rfl⟩, by decide +kernel, by decide +kernel⟩
  have hpaths : ∀ p ∈ (compile shelvedFiles shelvedSource []).fetched,
      (FileTree.directory shelvedEntries).Acceptable "docs/" p := by
    rw [compile_shelvedSource_fetched]
    decide +kernel
  have hmirrored : Mirrored shelvedFiles
      ((FileTree.directory shelvedEntries).store (some 43)).resolver (.directory shelvedEntries)
      (some 43) shelvedSource [] :=
    compile_store hkeeps (some 43) shelvedSource [] hpaths
  exact ⟨by decide +kernel, compile_shelvedSource_fetched, hmirrored,
    hmirrored.same parentsAndValues_shelvedSource⟩

end MarkdownWeave
