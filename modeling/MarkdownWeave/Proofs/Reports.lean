import Mathlib.Data.List.Infix
import MarkdownWeave.Report

/-!
# What reports keep

A problem comes with what was being done when it came up.  The outermost description is the message
of the report, and the others ought to be in the details, together with the problem itself.  They
are, unless the problem is one of the file system: then the details are its own words, and what was
being done inside of something else is left out, however much of it there is.

## Main definitions

* `Report.Details`, `Report.Shows` — what stands in the details, and in a report as it is read.
* `Trouble.Echoed` — leaving that out loses nothing.

## Main results

* `Report.failure_of` — the message is the outermost link.
* `Report.details_of_unnamed`, `Report.details_of_system` — what the details are, for each kind of
  problem.
* `Report.keeps_links_iff` — **when a report keeps the whole chain.**
-/

namespace MarkdownWeave

/-- What is joined stands in the join. -/
theorem Text.isInfix_joinWith (sep : Text) {p : Text} {ps : List Text} (h : p ∈ ps) :
    p <:+: Text.joinWith sep ps := by
  induction ps with
  | nil => simp at h
  | cons q ps ih =>
    cases ps with
    | nil => rw [List.mem_singleton.1 h, joinWith_singleton]
    | cons r ps =>
      rw [joinWith_cons_cons]
      rcases List.mem_cons.1 h with rfl | h
      · rw [List.append_assoc]
        exact (List.prefix_append p _).isInfix
      · exact (ih h).trans (List.suffix_append _ _).isInfix

/-! ### Chains -/

namespace Trouble

/-- Every description but the outermost one is part of the words of the file system, if the problem
is one of the file system. -/
def Echoed (t : Trouble) : Prop :=
  ∀ m, t.problem = .system m → ∀ context ∈ t.contexts.dropLast, context <:+: m

/-- The links behind the outermost one. -/
theorem mem_tail_links {t : Trouble} {link : Text} :
    link ∈ t.links.tail ↔
      t.contexts ≠ [] ∧ (link ∈ t.contexts.dropLast ∨ link = t.problem.message) := by
  obtain ⟨problem, contexts⟩ := t
  rcases List.eq_nil_or_concat contexts with rfl | ⟨inner, outer, rfl⟩ <;> simp [links]

end Trouble

namespace Report

/-! ### Reading a report -/

/-- A text stands in the details of a report. -/
def Details (r : Report) (link : Text) : Prop := ∃ d, r.details = some d ∧ link <:+: d

/-- A text stands in a report, as plain text and as it is shown on a terminal. -/
def Shows (r : Report) (link : Text) : Prop :=
  link <:+: r.text ∧ ∀ colored, link <:+: r.shown colored

theorem shows_message (r : Report) : r.Shows r.failure.message := by
  constructor
  · rw [text, List.append_assoc]
    exact (List.prefix_append _ _).isInfix
  · intro colored
    have hline : r.failure.message <:+:
        label colored "1;31" "error" ++ ": ".toList ++ r.failure.message ++ ['\n'] :=
      List.infix_append _ _ _
    rw [shown, List.append_assoc]
    exact hline.trans (List.prefix_append _ _).isInfix

theorem Details.shows {r : Report} {link : Text} (h : r.Details link) : r.Shows link := by
  obtain ⟨d, hd, hlink⟩ := h
  constructor
  · rw [text, hd]
    exact hlink.trans ((List.suffix_append _ d).isInfix.trans (List.infix_append _ _ _))
  · intro colored
    have hline : d <:+: label colored "33" "details" ++ ": ".toList ++ d ++ ['\n'] :=
      List.infix_append _ _ _
    rw [shown, hd]
    exact hlink.trans (hline.trans (List.infix_append _ _ _))

/-! ### Reports of problems -/

section Of

variable {t : Trouble} {m link : Text}

/-- The message of a report is the outermost link. -/
theorem failure_of (h : ∀ f, t.problem ≠ .failure f) :
    t.links.head? = some (of t).failure.message := by
  obtain ⟨problem, contexts⟩ := t
  have hhead : ∀ m : Text, (contexts.reverse ++ [m]).head? =
      some ((contexts.reverse ++ [m]).headD []) := by
    intro m
    cases contexts.reverse <;> rfl
  cases problem with
  | failure f => exact absurd rfl (h f)
  | system m => exact hhead m
  | unnamed m => exact hhead m

/-- Of an unnamed problem the details are all other links. -/
theorem details_of_unnamed (hm : t.problem = .unnamed m) (hlink : link ∈ t.links.tail) :
    (of t).Details link := by
  obtain ⟨problem, contexts⟩ := t
  subst hm
  have hne : contexts.isEmpty = false := by
    rw [List.isEmpty_eq_false_iff]
    exact (Trouble.mem_tail_links.1 hlink).1
  refine ⟨_, ?_, Text.isInfix_joinWith ['\n'] hlink⟩
  show (if contexts.isEmpty then none else some _) = _
  rw [hne, List.drop_one]
  rfl

/-- Of a problem of the file system they are its own words. -/
theorem details_of_system (hm : t.problem = .system m) : (of t).Details link ↔ link <:+: m := by
  obtain ⟨problem, contexts⟩ := t
  subst hm
  constructor
  · rintro ⟨d, hd, hlink⟩
    obtain rfl : m = d := Option.some.inj hd
    exact hlink
  · intro hlink
    exact ⟨m, rfl, hlink⟩

/-- The details have every other link in them exactly if the descriptions are echoed. -/
theorem details_links_iff (h : ∀ f, t.problem ≠ .failure f) :
    (∀ link ∈ t.links.tail, (of t).Details link) ↔ t.Echoed := by
  cases hp : t.problem with
  | failure f => exact absurd hp (h f)
  | unnamed m =>
    constructor
    · intro _ m' hm'
      rw [hp] at hm'
      cases hm'
    · intro _ link hlink
      exact details_of_unnamed hp hlink
  | system m =>
    constructor
    · intro hall m' hm' context hc
      obtain rfl : m = m' := Problem.system.inj (hp.symm.trans hm')
      have hne : t.contexts ≠ [] := by
        intro hnil
        simp [hnil] at hc
      exact (details_of_system hp).1 (hall context (Trouble.mem_tail_links.2 ⟨hne, Or.inl hc⟩))
    · intro hechoed link hlink
      rw [details_of_system hp]
      rcases (Trouble.mem_tail_links.1 hlink).2 with hc | rfl
      · exact hechoed m hp link hc
      · rw [hp]
        exact List.infix_rfl

/-- The problem itself is in the details, or it is the message. -/
theorem shows_problem (h : ∀ f, t.problem ≠ .failure f) : (of t).Shows t.problem.message := by
  cases hp : t.problem with
  | failure f => exact absurd hp (h f)
  | system m => exact ((details_of_system hp).2 List.infix_rfl).shows
  | unnamed m =>
    by_cases hc : t.contexts = []
    · have hhead := failure_of h
      rw [Trouble.links, hc, hp] at hhead
      rw [Option.some.inj hhead]
      exact shows_message _
    · have hlink : (Problem.unnamed m).message ∈ t.links.tail :=
        Trouble.mem_tail_links.2 ⟨hc, Or.inr (by rw [hp])⟩
      exact (details_of_unnamed hp hlink).shows

end Of

/-- **A report keeps the whole chain of an unnamed problem, and that of a problem of the file system
if its own words tell what was being done.**  The message is always the outermost link.  The
details have every other link in them exactly if each description that is neither the outermost one
nor the problem can be found in the words of the file system, where the problem is one of these; so
they do around an unnamed problem, and where there is at most one description.  Then the report
shows every link, and in any case it shows the problem. -/
theorem keeps_links_iff (t : Trouble) (h : ∀ f, t.problem ≠ .failure f) :
    t.links.head? = some (of t).failure.message ∧
      ((∀ link ∈ t.links.tail, (of t).Details link) ↔ t.Echoed) ∧
      (t.Echoed → ∀ link ∈ t.links, (of t).Shows link) ∧
      (of t).Shows t.problem.message := by
  have hhead : t.links.head? = some (of t).failure.message := failure_of h
  refine ⟨hhead, details_links_iff h, ?_, shows_problem h⟩
  intro hechoed link hlink
  rw [List.eq_cons_of_mem_head? hhead] at hlink
  rcases List.mem_cons.1 hlink with rfl | hlink
  · exact shows_message _
  · exact ((details_links_iff h).2 hechoed link hlink).shows

/-- An unnamed problem far inside of other work. -/
def nestedTrouble : Trouble :=
  ⟨.unnamed "root cause", ["reading input", "compiling page", "building site"]⟩

/-- A problem of the file system with one description around it. -/
def singleTrouble : Trouble := ⟨.system "disk full", ["reading input"]⟩

/-- All that is known of the two stands in their reports. -/
theorem keeps_nestedTrouble :
    (of nestedTrouble).failure.message = ("building site" : Text) ∧
      (of nestedTrouble).Details "compiling page" ∧ (of nestedTrouble).Details "reading input" ∧
      (∀ link ∈ nestedTrouble.links, (of nestedTrouble).Shows link) ∧
      (∀ link ∈ singleTrouble.links, (of singleTrouble).Shows link) := by
  have hnested : nestedTrouble.Echoed := by
    intro m hm
    cases hm
  have hsingle : singleTrouble.Echoed := by
    intro m _ context hc
    simp [singleTrouble] at hc
  obtain ⟨hhead, hdetails, hshows, -⟩ := keeps_links_iff nestedTrouble (by rintro f ⟨⟩)
  obtain ⟨-, -, hshows', -⟩ := keeps_links_iff singleTrouble (by rintro f ⟨⟩)
  refine ⟨(Option.some.inj hhead).symm, ?_, ?_, hshows hnested, hshows' hsingle⟩
  · exact hdetails.2 hnested _ (by decide)
  · exact hdetails.2 hnested _ (by decide)

/-- A problem of the file system with two descriptions around it. -/
def muffledTrouble : Trouble := ⟨.system "disk full", ["reading page", "building site"]⟩

/-- What was being done inside is nowhere in its report. -/
theorem loses_muffledTrouble :
    muffledTrouble.links = ["building site", "reading page", "disk full"] ∧
      (of muffledTrouble).details = some ("disk full" : Text) ∧
      ¬ (of muffledTrouble).Details "reading page" ∧
      ¬ ("reading page" : Text) <:+: (of muffledTrouble).text ∧
      ∀ colored, ¬ ("reading page" : Text) <:+: (of muffledTrouble).shown colored := by
  refine ⟨rfl, rfl, ?_, ?_, ?_⟩
  · rw [details_of_system rfl]
    decide +kernel
  · decide +kernel
  · decide +kernel

end Report

end MarkdownWeave
