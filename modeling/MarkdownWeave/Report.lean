import MarkdownWeave.Failure

/-!
# Reports

What a user is told when something fails: a failure, details, and what to do about it.

## Main definitions

* `Report` — a failure with details and a suggestion.
* `Trouble` — a failure, or another problem, wrapped in descriptions of what was being done.
* `Report.of` — what the user is told about it.
* `Report.text`, `Report.shown` — a report in words.
-/

namespace MarkdownWeave

/-- A failure with what a user is told about it. -/
structure Report where
  /-- The failure. -/
  failure : Failure
  /-- What can be done about it. -/
  suggestion : Option Text
  /-- What else is known about it. -/
  details : Option Text

/-- The problem that something ended with. -/
inductive Problem
  /-- A failure of the library. -/
  | failure (f : Failure)
  /-- A failure of the file system, in its own words. -/
  | system (message : Text)
  /-- Any other problem. -/
  | unnamed (message : Text)

/-- A problem, and what was being done when it came up, the innermost first. -/
structure Trouble where
  /-- The problem. -/
  problem : Problem
  /-- What was being done. -/
  contexts : List Text

namespace Problem

/-- A problem in words. -/
def message : Problem → Text
  | failure f => f.message
  | system m => m
  | unnamed m => m

end Problem

namespace Trouble

/-- A failure of the library by itself. -/
def ofFailure (f : Failure) : Trouble := ⟨.failure f, []⟩

/-- All that is known in words: what was being done, the outermost first, and the problem. -/
def links (t : Trouble) : List Text := t.contexts.reverse ++ [t.problem.message]

/-- All that is known on one line. -/
def chain (t : Trouble) : Text := Text.joinWith [':', ' '] t.links

end Trouble

namespace Report

/-- A failure and nothing else. -/
def bare (f : Failure) : Report := ⟨f, none, none⟩

/-- A report with another suggestion. -/
def withSuggestion (t : Text) (r : Report) : Report := { r with suggestion := some t }

/-- A report with other details. -/
def withDetails (t : Text) (r : Report) : Report := { r with details := some t }

/-- What a user is told about a failure. -/
def ofFailure (f : Failure) : Report :=
  match f with
  | .documentNotFound path =>
    ⟨f, some ("Check that '" ++ path ++ "' exists relative to the input document's directory"),
      some "Paths in \x60extends\x60 and \x60@\x60 variable values must resolve"⟩
  | .circularReference path chain =>
    ⟨f, some "Remove one of the references so the chain terminates",
      some ("Resolution chain: " ++ Text.joinWith " -> " (chain ++ [path]))⟩
  | .multipleContentSlots _ =>
    ⟨f, some "Keep a single \x7b\x7b content \x7d\x7d marker in the parent template", none⟩
  | .undefinedVariable name suggestions =>
    ⟨f, some (if suggestions.isEmpty then
        "Define '" ++ name ++ "' in the frontmatter or pass it with --var " ++ name ++ "=value"
      else "Did you mean: " ++ Text.joinWith [',', ' '] suggestions ++ ['?']), none⟩
  | .invalidExtends _ =>
    ⟨f, some "Set \x60extends\x60 to the path of the parent document, e.g. extends: base.md", none⟩
  | .invalidHeader _ =>
    ⟨f, some "Check the YAML between the --- delimiters",
      some "Frontmatter must be a YAML mapping of keys to values"⟩
  | .documentTooLarge .. =>
    ⟨f, some "Raise max_document_size in ~/.premark/config.toml", none⟩
  | .invalidVariable .. => ⟨f, some "Use --var key=value", none⟩
  | .invalidSettings _ =>
    ⟨f, some "Check ~/.premark/config.toml or the path given with --config", none⟩
  | .unreadable .. => bare f
  | .unwritable _ => bare f
  | .other _ => bare f

/-- What a user is told about a problem.  A failure of the library speaks for itself, whatever was
being done.  Of other problems the outermost description is the message, and the rest is kept in
the details. -/
def of (t : Trouble) : Report :=
  match t.problem with
  | .failure f => ofFailure f
  | .system m =>
    ⟨.other (t.links.headD []),
      some "Check that the file exists and that you have the required permissions", some m⟩
  | .unnamed _ =>
    ⟨.other (t.links.headD []), none,
      if t.contexts.isEmpty then none else some (Text.joinWith ['\n'] (t.links.drop 1))⟩

/-- A report as plain text. -/
def text (r : Report) : Text :=
  r.failure.message ++
    (match r.details with
    | some d => "\nDetails: " ++ d
    | none => []) ++
    (match r.suggestion with
    | some s => "\nSuggestion: " ++ s
    | none => [])

/-- A label in a colour that is given by its code. -/
def label (colored : Bool) (code name : Text) : Text :=
  if colored then '\x1b' :: '[' :: code ++ 'm' :: name ++ ['\x1b', '[', '0', 'm'] else name

/-- A report as it is shown on a terminal: the failure, the details and the suggestion, each on
lines of its own. -/
def shown (colored : Bool) (r : Report) : Text :=
  label colored "1;31" "error" ++ ": " ++ r.failure.message ++ ['\n'] ++
    (match r.details with
    | some d => label colored "33" "details" ++ ": " ++ d ++ ['\n']
    | none => []) ++
    (match r.suggestion with
    | some s => label colored "32" "suggestion" ++ ": " ++ s ++ ['\n']
    | none => [])

end Report

end MarkdownWeave
