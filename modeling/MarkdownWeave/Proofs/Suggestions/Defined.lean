import MarkdownWeave.Proofs.Metadata.Canonical
import MarkdownWeave.Proofs.Slots.Requests
import MarkdownWeave.Proofs.Suggestions.Nearest

/-!
# Which names are suggested

Names to suggest are taken from all keys that are texts under any number of tags, but only a text
without a tag is found by its name.  So what is suggested can be put in the place of the missing
name if none of the keys behind the suggestions has a tag; and there it is listed once, and is never
the missing name itself.

## Main definitions

* `Metadata.spelledNames` — the texts of all keys that are texts, under tags or not.

## Main results

* `Answers.exists_undefined_of_substitute` — a substitution that fails before it asks for anything
  fails because of a missing name.
* `mem_similarNames_self` — a name that is there is suggested in its own place.
* `suggestions_defined` — **without tags, every suggestion is defined, is listed once, and is not
  the missing name.**
-/

namespace MarkdownWeave

namespace Metadata

/-- The texts of all keys that are texts, under tags or not, in order. -/
def spelledNames (m : Metadata) : List Text := m.filterMap fun e => e.1.textUnderTags?

theorem mem_spelledNames {m : Metadata} {s : Text} :
    s ∈ m.spelledNames ↔ ∃ e ∈ m, e.1.textUnderTags? = some s :=
  List.mem_filterMap

/-- A text is found under itself. -/
theorem has_of_mem {m : Metadata} {e : Value × Value} {name : Text} (he : e ∈ m)
    (hk : e.1 = .text name) : m.has name = true := by
  have hfind : (m.find? fun e => isNamed name e.1).isSome = true := by
    rw [List.find?_isSome]
    exact ⟨e, he, by simp [hk, isNamed]⟩
  simpa [has, get?] using hfind

/-- If all keys with a text have no tags, only one of them has it. -/
theorem count_spelledNames_le_one {m : Metadata} (hm : m.Distinct) {s : Text}
    (hs : ∀ e ∈ m, e.1.textUnderTags? = some s → e.1 = .text s) : m.spelledNames.count s ≤ 1 := by
  induction m with
  | nil => simp [spelledNames]
  | cons e m ih =>
    obtain ⟨hother, hm⟩ := List.pairwise_cons.1 hm
    obtain ⟨he, hrest⟩ := List.forall_mem_cons.1 hs
    by_cases hspelled : e.1.textUnderTags? = some s
    · -- then no key behind it has the text
      have hnone : s ∉ spelledNames m := by
        intro hmem
        obtain ⟨f, hf, hfs⟩ := mem_spelledNames.1 hmem
        have hsame := hother f hf
        rw [he hspelled, hrest f hf hfs] at hsame
        simp at hsame
      have hnames : spelledNames (e :: m) = s :: spelledNames m := by
        rw [spelledNames, List.filterMap_cons, hspelled]
        rfl
      rw [hnames, List.count_cons_self]
      exact Nat.succ_le_succ (List.count_eq_zero.2 hnone).le
    · have hcount : (spelledNames (e :: m)).count s = (spelledNames m).count s := by
        rw [spelledNames, List.filterMap_cons]
        split
        · rfl
        · next t ht =>
          refine List.count_cons_of_ne ?_
          rintro rfl
          exact hspelled ht
      rw [hcount]
      exact ih hm hrest

end Metadata

/-! ### Names that are found -/

section Names

variable {name s : Text} {available : List Text}

/-- Names that are in order stay in order. -/
theorem similarNames_of_pairwise
    (h : available.Pairwise fun a b => Text.distance name a ≤ Text.distance name b) :
    similarNames name available =
      (available.filter fun a => Text.distance name a ≤ maxDistance name).take maxSuggestions := by
  rw [similarNames, List.mergeSort_of_pairwise (h.imp decide_eq_true)]

/-- Suggestions are among the names that there are, none more often than there. -/
theorem similarNames_subperm (name : Text) (available : List Text) :
    (similarNames name available).Subperm available :=
  ((List.take_sublist _ _).trans List.filter_sublist).subperm.trans
    (List.mergeSort_perm _ _).subperm

/-- Only the name itself is at no distance from it. -/
theorem distance_eq_zero_iff {t : Text} : Text.distance name t = 0 ↔ name = t := by
  have hleast := Text.isLeast_distance name t
  constructor
  · intro h
    rw [h] at hleast
    cases hleast.1
    rfl
  · rintro rfl
    exact Nat.le_zero.1 (hleast.2 (.none name))

/-- **A name that is there is suggested in its own place**: nothing is nearer. -/
theorem mem_similarNames_self (h : name ∈ available) : name ∈ similarNames name available := by
  obtain ⟨i, hi⟩ := List.mem_iff_getElem?.1 h
  have hself : Text.distance name name = 0 := distance_eq_zero_iff.2 rfl
  rw [similarNames_eq, List.mem_map]
  by_cases hmem : (name, i) ∈ nearest name available
  · exact ⟨(name, i), hmem, rfl⟩
  · -- otherwise the last of three others is at no distance either
    obtain ⟨hlength, hlast⟩ := nearer_of_not_mem_nearest (List.mk_mem_zipIdx_iff_getElem?.2 hi)
      (by rw [hself]; exact Nat.zero_le _) hmem
    cases hl : (nearest name available).getLast? with
    | none =>
      rw [List.getLast?_eq_none_iff.1 hl] at hlength
      cases hlength
    | some last =>
      have hnearer := hlast last hl
      have hzero : Text.distance name last.1 = 0 := by
        simp only [Nearer, hself] at hnearer
        omega
      exact ⟨last, List.mem_of_getLast? hl, (distance_eq_zero_iff.1 hzero).symm⟩

end Names

/-! ### Names that are missing -/

/-- **A substitution that fails before it asks for anything** fails because of a missing name. -/
theorem Answers.exists_undefined_of_substitute {answers : Answers} {d : Document} {f : Failure}
    (h : answers.substitute d = .fail f) :
    ∃ name, d.metadata.has name = false ∧ f = undefinedName name d.metadata := by
  cases hfind : (Slot.names d.body).find? fun name => !d.metadata.has name with
  | some name =>
    have hmissing := List.find?_some (p := fun name => !d.metadata.has name) hfind
    rw [substitute_of_undefined hfind] at h
    have hf : undefinedName name d.metadata = f :=
      Except.error.inj (congrArg Traced.outcome h)
    exact ⟨name, by simpa using hmissing, hf.symm⟩
  | none =>
    have hall : ∀ name ∈ Slot.names d.body, d.metadata.has name := by
      intro name hname
      simpa using List.find?_eq_none.1 hfind name hname
    -- a request comes before every other failure
    have hout : (answers.substitute d).outcome = .error f := by rw [h]; rfl
    have hfetched : (answers.substitute d).fetched = [] := by rw [h]; rfl
    have hasks := answers.substitute_asks hall
    generalize d.metadata.requests (Slot.names d.body) = paths at hasks
    cases hasks with
    | all _ _ ho =>
      obtain ⟨a, ho⟩ := ho
      rw [hout] at ho
      cases ho
    | missing _ _ hf _ => simp [hfetched] at hf
    | malformed _ _ _ hf _ => simp [hfetched] at hf

/-- **Without tags, every suggestion is defined, is listed once, and is not the missing name.**
Suggestions are texts of keys, whether under tags or not, and the missing name is one of them as
soon as a key has it under a tag.  If no key behind a suggestion has a tag, then every suggestion is
found by its name, none is the missing name, and none is listed twice. -/
theorem suggestions_defined (answers : Answers) {d : Document} {name : Text}
    {suggestions : List Text} (hd : d.metadata.Distinct)
    (h : answers.substitute d = .fail (.undefinedVariable name suggestions)) :
    (∀ s ∈ suggestions, ∃ e ∈ d.metadata, e.1.textUnderTags? = some s) ∧
      (name ∈ suggestions ↔ ∃ e ∈ d.metadata, e.1.textUnderTags? = some name) ∧
      ((∀ e ∈ d.metadata, ∀ s ∈ suggestions, e.1.textUnderTags? = some s → e.1 = .text s) →
        (∀ s ∈ suggestions, d.metadata.has s = true) ∧ name ∉ suggestions ∧
          suggestions.Nodup) := by
  obtain ⟨missing, hmissing, he⟩ := Answers.exists_undefined_of_substitute h
  obtain ⟨rfl, hsuggestions⟩ := Failure.undefinedVariable.inj he
  have hsubperm : suggestions.Subperm d.metadata.spelledNames := by
    rw [hsuggestions]
    exact similarNames_subperm name _
  have hspelled : ∀ s ∈ suggestions, ∃ e ∈ d.metadata, e.1.textUnderTags? = some s := by
    intro s hs
    exact Metadata.mem_spelledNames.1 (hsubperm.subset hs)
  refine ⟨hspelled, ⟨hspelled name, ?_⟩, ?_⟩
  · intro hname
    rw [hsuggestions]
    exact mem_similarNames_self (Metadata.mem_spelledNames.2 hname)
  · intro huntagged
    have hhas : ∀ s ∈ suggestions, d.metadata.has s = true := by
      intro s hs
      obtain ⟨e, hmem, hes⟩ := hspelled s hs
      exact Metadata.has_of_mem hmem (huntagged e hmem s hs hes)
    refine ⟨hhas, ?_, ?_⟩
    · intro hname
      rw [hhas name hname] at hmissing
      cases hmissing
    · rw [List.nodup_iff_count_le_one]
      intro s
      by_cases hs : s ∈ suggestions
      · exact (hsubperm.count_le s).trans
          (Metadata.count_spelledNames_le_one hd fun e hmem => huntagged e hmem s hs)
      · rw [List.count_eq_zero.2 hs]
        exact Nat.zero_le 1

/-- No document is there to be asked for. -/
def noAnswers : Answers := fun path => .error (.documentNotFound path)

/-- A document with a slip in the name in its body.  One of its keys is a number, and one is a text
under a tag. -/
def slippedDocument : Document :=
  ⟨[(.text "author", .text "a"), (.int 7, .int 7), (.text "authors", .sequence []),
    (.tagged "t" (.text "title"), .null)], "{{ author_ }}"⟩

/-- The two names that are near have no tags, and so they are defined, and listed once. -/
theorem suggestions_slippedDocument :
    noAnswers.substitute slippedDocument =
        .fail (.undefinedVariable "author_" ["author", "authors"]) ∧
      (∀ s ∈ (["author", "authors"] : List Text), slippedDocument.metadata.has s = true) ∧
      ("author_" : Text) ∉ (["author", "authors"] : List Text) ∧
      (["author", "authors"] : List Text).Nodup := by
  have hfind : (Slot.names slippedDocument.body).find?
      (fun name => !slippedDocument.metadata.has name) = some "author_" := by
    decide +kernel
  have hsimilar : undefinedName "author_" slippedDocument.metadata =
      .undefinedVariable "author_" ["author", "authors"] := by
    rw [undefinedName, similarNames_of_pairwise (by decide +kernel)]
    decide +kernel
  have hfail : noAnswers.substitute slippedDocument =
      .fail (.undefinedVariable "author_" ["author", "authors"]) := by
    rw [Answers.substitute_of_undefined hfind, hsimilar]
  have hdistinct : slippedDocument.metadata.Distinct := by
    unfold Metadata.Distinct
    decide +kernel
  exact ⟨hfail, (suggestions_defined noAnswers hdistinct hfail).2.2 (by decide +kernel)⟩

/-- The text of a document in which the same text is a key twice, under different tags. -/
def twiceTagged : Text := "---\n!a user: 1\n!b user: 2\n---\n{{ user }}"

/-- The document. -/
def twiceTaggedDocument : Document :=
  ⟨[(.tagged "a" (.text "user"), .int 1), (.tagged "b" (.text "user"), .int 2)], "{{ user }}"⟩

/-- The missing name is suggested for itself, twice, and it is not defined. -/
theorem suggestions_twiceTagged :
    Document.parse twiceTagged = .ok twiceTaggedDocument ∧
      noAnswers.substitute twiceTaggedDocument =
        .fail (.undefinedVariable "user" ["user", "user"]) ∧
      twiceTaggedDocument.metadata.has "user" = false ∧
      ¬ (["user", "user"] : List Text).Nodup := by
  have hfind : (Slot.names twiceTaggedDocument.body).find?
      (fun name => !twiceTaggedDocument.metadata.has name) = some "user" := by
    decide +kernel
  have hsimilar : undefinedName "user" twiceTaggedDocument.metadata =
      .undefinedVariable "user" ["user", "user"] := by
    rw [undefinedName, similarNames_of_pairwise (by decide +kernel)]
    decide +kernel
  refine ⟨by decide +kernel, ?_, by decide, by decide⟩
  rw [Answers.substitute_of_undefined hfind, hsimilar]

end MarkdownWeave
