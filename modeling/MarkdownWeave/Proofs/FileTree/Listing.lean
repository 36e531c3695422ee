import Mathlib.Data.List.Induction
import MarkdownWeave.FileTree.Disk
import MarkdownWeave.Store

/-!
# The files of a directory, listed

A directory can be kept in memory: every file below it becomes a text in a store, at the names that
lead to the file with slashes between them.  Such a path can be taken apart again, since there are
no slashes in names, so that the store has a text at a path exactly if the parts of the path lead to
a file.

## Main definitions

* `Path.isName` — whether a text can be the name of an entry.
* `FileTree.isProper` — whether the entries of all directories have names, and different ones.
* `FileTree.store` — the texts of the files of a tree, up to a size limit.

## Main results

* `FileTree.mem_files_iff` — **the files that are listed are those that the parts of a path lead
  to.**
* `Store.get?_ofList_eq_some_iff` — what a store has that is made from a list.
* `FileTree.get?_store_eq_some_iff` — the texts in the store of a directory.
-/

namespace MarkdownWeave

/-! ### Names -/

namespace Path

/-- Whether a text can be the name of an entry: it says something, is not two dots, and has no slash
in it. -/
def isName (name : Text) : Bool := !isIdle name && name != ['.', '.'] && !name.contains '/'

theorem isName_iff {name : Text} :
    isName name = true ↔ isIdle name = false ∧ name ≠ ['.', '.'] ∧ '/' ∉ name := by
  simp [isName, and_assoc]

theorem ne_nil_of_isName {name : Text} (h : isName name = true) : name ≠ [] := by
  rintro rfl
  cases h

/-- A name as seen from a directory with a path. -/
def under (above name : Text) : Text := if above.isEmpty then name else above ++ '/' :: name

theorem foldl_under {above : Text} (h : above ≠ []) (names : List Text) :
    names.foldl under above = Text.joinWith ['/'] (above :: names) := by
  induction names generalizing above with
  | nil => rfl
  | cons name names ih =>
    have hne : under above name ≠ [] := by simp [under, h]
    have hunder : under above name = above ++ '/' :: name := if_neg (by simpa using h)
    rw [List.foldl_cons, ih hne, hunder, Text.joinWith_cons_cons]
    cases names <;> simp

/-- Names one below the other are joined with slashes. -/
theorem foldl_under_nil {names : List Text} (h : ∀ name ∈ names, name ≠ []) :
    names.foldl under [] = Text.joinWith ['/'] names := by
  cases names with
  | nil => rfl
  | cons name names =>
    obtain ⟨hname, -⟩ := List.forall_mem_cons.1 h
    exact foldl_under hname names

/-- A path of names has these names for its parts. -/
theorem parts_joinWith {names : List Text} (hne : names ≠ [])
    (h : ∀ name ∈ names, isName name = true) : parts (Text.joinWith ['/'] names) = names := by
  apply Text.splitOn_joinWith hne
  intro name hname
  exact (isName_iff.1 (h name hname)).2.2

theorem joinWith_parts (path : Text) : Text.joinWith ['/'] (parts path) = path :=
  Text.joinWith_splitOn '/' path

end Path

/-! ### Proper trees -/

namespace FileTree

mutual

/-- Whether the entries of all directories have names, and no two of one directory the same. -/
def isProper : FileTree → Bool
  | file _ => true
  | directory entries => decide (entries.map Prod.fst).Nodup && areProper entries
termination_by structural t => t

/-- Whether entries have names, and proper trees under them. -/
def areProper : List (Text × FileTree) → Bool
  | [] => true
  | e :: es => isProperEntry e && areProper es
termination_by structural es => es

/-- Whether an entry has a name, and a proper tree under it. -/
def isProperEntry : Text × FileTree → Bool
  | (name, t) => Path.isName name && isProper t
termination_by structural e => e

end

theorem areProper_iff {entries : List (Text × FileTree)} :
    areProper entries = true ↔ ∀ e ∈ entries, Path.isName e.1 = true ∧ e.2.isProper = true := by
  induction entries with
  | nil => simp [areProper]
  | cons e entries ih =>
    obtain ⟨name, t⟩ := e
    rw [areProper, isProperEntry, Bool.and_eq_true, Bool.and_eq_true, ih, List.forall_mem_cons]

theorem isProper_directory {entries : List (Text × FileTree)} :
    (directory entries).isProper = true ↔ (entries.map Prod.fst).Nodup ∧
      ∀ e ∈ entries, Path.isName e.1 = true ∧ e.2.isProper = true := by
  rw [isProper, Bool.and_eq_true, decide_eq_true_eq, areProper_iff]

/-- What holds of files, and of a directory if it holds of the trees in it, holds of all trees. -/
@[elab_as_elim]
theorem induction {P : FileTree → Prop} (file : ∀ bytes, P (.file bytes))
    (directory : ∀ entries, (∀ e ∈ entries, P e.2) → P (.directory entries)) (t : FileTree) :
    P t := by
  refine @FileTree.rec P (fun entries => ∀ e ∈ entries, P e.2) (fun e => P e.2) file directory
    ?_ ?_ ?_ t
  · simp
  · intro e entries he hentries
    exact List.forall_mem_cons.2 ⟨he, hentries⟩
  · exact fun _ _ h => h

section Entries

variable {entries : List (Text × FileTree)} {name : Text} {u : FileTree}

theorem mem_of_lookup (h : entries.lookup name = some u) : (name, u) ∈ entries := by
  obtain ⟨before, after, rfl, -⟩ := List.lookup_eq_some_iff.1 h
  simp

/-- Where no two entries have the same name, every entry is found. -/
theorem lookup_of_mem (hn : (entries.map Prod.fst).Nodup) (h : (name, u) ∈ entries) :
    entries.lookup name = some u := by
  obtain ⟨before, after, rfl⟩ := List.append_of_mem h
  refine List.lookup_eq_some_iff.2 ⟨before, after, rfl, ?_⟩
  intro e he
  rw [List.map_append, List.map_cons, List.nodup_append] at hn
  have hne : e.1 ≠ name :=
    hn.2.2 _ (List.mem_map_of_mem he) _ List.mem_cons_self
  simpa using Ne.symm hne

end Entries

/-- The names that lead somewhere in a proper tree are names. -/
theorem isName_of_find? {t u : FileTree} {names : List Text} (ht : t.isProper = true)
    (h : t.find? names = some u) : ∀ name ∈ names, Path.isName name = true := by
  induction names generalizing t with
  | nil => simp
  | cons name names ih =>
    rw [find?] at h
    obtain ⟨child, hchild, hfind⟩ := Option.bind_eq_some_iff.1 h
    cases t with
    | file b => cases hchild
    | directory entries =>
      obtain ⟨-, hentries⟩ := isProper_directory.1 ht
      obtain ⟨hname, hproper⟩ := hentries _ (mem_of_lookup hchild)
      exact List.forall_mem_cons.2 ⟨hname, ih hproper hfind⟩

/-! ### The list of all files -/

theorem mem_filesOf {above : Text} {entries : List (Text × FileTree)} {x : Text × List UInt8} :
    x ∈ filesOf above entries ↔ ∃ e ∈ entries, x ∈ e.2.files (Path.under above e.1) := by
  induction entries with
  | nil => simp [filesOf]
  | cons e entries ih =>
    obtain ⟨name, t⟩ := e
    have hentry : filesOfEntry above (name, t) = t.files (Path.under above name) := rfl
    rw [filesOf, List.mem_append, ih, hentry]
    simp

/-- A file is listed at the names that lead to it. -/
theorem mem_files {t : FileTree} (ht : t.isProper = true) {above p : Text} {b : List UInt8} :
    (p, b) ∈ t.files above ↔
      ∃ names, t.find? names = some (file b) ∧ p = names.foldl Path.under above := by
  induction t using induction generalizing above with
  | file bytes =>
    rw [files, List.mem_singleton, Prod.mk.injEq]
    constructor
    · rintro ⟨rfl, rfl⟩
      exact ⟨[], rfl, rfl⟩
    · rintro ⟨names, hfind, rfl⟩
      cases names with
      | nil => cases hfind; exact ⟨rfl, rfl⟩
      | cons name names => cases hfind
  | directory entries ih =>
    obtain ⟨hnodup, hentries⟩ := isProper_directory.1 ht
    rw [files, mem_filesOf]
    constructor
    · rintro ⟨⟨name, child⟩, he, hmem⟩
      obtain ⟨names, hfind, rfl⟩ := (ih _ he (hentries _ he).2).1 hmem
      refine ⟨name :: names, ?_, rfl⟩
      rw [find?, child?, lookup_of_mem hnodup he]
      exact hfind
    · rintro ⟨names, hfind, rfl⟩
      cases names with
      | nil => cases hfind
      | cons name names =>
        rw [find?] at hfind
        obtain ⟨child, hchild, hfind⟩ := Option.bind_eq_some_iff.1 hfind
        have he : (name, child) ∈ entries := mem_of_lookup hchild
        exact ⟨_, he, (ih _ he (hentries _ he).2).2 ⟨names, hfind, rfl⟩⟩

/-- **The files of a directory are listed at the paths whose parts lead to them**, and at no
others. -/
theorem mem_files_iff {entries : List (Text × FileTree)} (h : (directory entries).isProper = true)
    {p : Text} {b : List UInt8} :
    (p, b) ∈ (directory entries).files [] ↔
      (directory entries).find? (Path.parts p) = some (file b) := by
  rw [mem_files h]
  constructor
  · rintro ⟨names, hfind, rfl⟩
    have hnames := isName_of_find? h hfind
    have hne : names ≠ [] := by
      rintro rfl
      cases hfind
    rw [Path.foldl_under_nil fun name hname => Path.ne_nil_of_isName (hnames name hname),
      Path.parts_joinWith hne hnames]
    exact hfind
  · intro hfind
    have hnames := isName_of_find? h hfind
    refine ⟨Path.parts p, hfind, ?_⟩
    rw [Path.foldl_under_nil fun name hname => Path.ne_nil_of_isName (hnames name hname),
      Path.joinWith_parts]

end FileTree

/-! ### Stores made from lists -/

namespace Store

theorem get?_ofList_concat (texts : List (Text × Text)) (e : Text × Text) (path : Text) :
    (ofList (texts ++ [e])).get? path =
      if path = e.1 then some e.2 else (ofList texts).get? path := by
  have hinsert : ofList (texts ++ [e]) = (ofList texts).insert e.1 e.2 := by
    rw [ofList, List.foldl_append]
    rfl
  rw [hinsert]
  by_cases h : path = e.1
  · rw [if_pos h, h, get?_insert_self]
  · rw [if_neg h, get?_insert_of_ne _ _ h]

/-- A store that is made from a list, in which no path has two texts, has what is in the list. -/
theorem get?_ofList_eq_some_iff {texts : List (Text × Text)}
    (h : ∀ path t u, (path, t) ∈ texts → (path, u) ∈ texts → t = u) {path t : Text} :
    (ofList texts).get? path = some t ↔ (path, t) ∈ texts := by
  induction texts using List.reverseRecOn with
  | nil => simp [ofList, empty, get?]
  | append_singleton texts e ih =>
    have hbefore : ∀ path t u, (path, t) ∈ texts → (path, u) ∈ texts → t = u := by
      intro path t u ht hu
      exact h path t u (List.mem_append_left _ ht) (List.mem_append_left _ hu)
    rw [get?_ofList_concat]
    by_cases he : path = e.1
    · rw [if_pos he, Option.some.injEq]
      have hlast : (path, e.2) ∈ texts ++ [e] := by simp [he]
      constructor
      · rintro rfl
        exact hlast
      · intro ht
        exact h path e.2 t hlast ht
    · rw [if_neg he, ih hbefore, List.mem_append, List.mem_singleton]
      have hno : (path, t) ≠ e := fun heq => he (congrArg Prod.fst heq)
      simp [hno]

end Store

/-! ### A directory as a store -/

namespace FileTree

/-- The text of a file with its path, unless the file is too large or is no text. -/
def storedText? (limit : Option Nat) (e : Text × List UInt8) : Option (Text × Text) :=
  if Disk.exceeds limit e.2.length then none else (Text.ofUtf8? e.2).map (e.1, ·)

/-- The texts of the files of a tree that are not too large, at their paths. -/
def store (limit : Option Nat) (t : FileTree) : Store :=
  .ofList ((t.files []).filterMap (storedText? limit))

theorem storedText?_eq_some_iff {limit : Option Nat} {e : Text × List UInt8} {p t : Text} :
    storedText? limit e = some (p, t) ↔
      Disk.exceeds limit e.2.length = false ∧ Text.ofUtf8? e.2 = some t ∧ e.1 = p := by
  unfold storedText?
  cases Disk.exceeds limit e.2.length with
  | true => simp
  | false => simp [and_comm]

/-- **The store of a directory has a text at a path, if the parts of the path lead to a file with
this text that is not too large.** -/
theorem get?_store_eq_some_iff {entries : List (Text × FileTree)}
    (h : (directory entries).isProper = true) {limit : Option Nat} {p t : Text} :
    ((directory entries).store limit).get? p = some t ↔
      ∃ b, (directory entries).find? (Path.parts p) = some (file b) ∧
        Disk.exceeds limit b.length = false ∧ Text.ofUtf8? b = some t := by
  have hmem : ∀ p t, (p, t) ∈ ((directory entries).files []).filterMap (storedText? limit) ↔
      ∃ b, (directory entries).find? (Path.parts p) = some (file b) ∧
        Disk.exceeds limit b.length = false ∧ Text.ofUtf8? b = some t := by
    intro p t
    rw [List.mem_filterMap]
    constructor
    · rintro ⟨⟨q, b⟩, hfile, hstored⟩
      obtain ⟨hsize, htext, rfl⟩ := storedText?_eq_some_iff.1 hstored
      exact ⟨b, (mem_files_iff h).1 hfile, hsize, htext⟩
    · rintro ⟨b, hfind, hsize, htext⟩
      exact ⟨(p, b), (mem_files_iff h).2 hfind, storedText?_eq_some_iff.2 ⟨hsize, htext, rfl⟩⟩
  rw [store, Store.get?_ofList_eq_some_iff, hmem]
  -- a path leads to one file, and that has one text
  intro p t u ht hu
  obtain ⟨b, hfind, -, htext⟩ := (hmem p t).1 ht
  obtain ⟨c, hfind', -, htext'⟩ := (hmem p u).1 hu
  rw [hfind] at hfind'
  cases hfind'
  rw [htext] at htext'
  exact Option.some.inj htext'

end FileTree

end MarkdownWeave
