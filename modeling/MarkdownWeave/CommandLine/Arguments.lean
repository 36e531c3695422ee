import MarkdownWeave.Text.Basic

/-!
# Arguments

What the arguments of the command line ask for.  A switch can be given by a name after two hyphens,
or by a letter after one; several letters can share one hyphen.  The value of a switch follows an
equals sign, or is the next argument.  One argument that is no switch is the input.

## Main definitions

* `Arguments` — what has been asked for.
* `UsageProblem` — why arguments are not accepted.
* `Arguments.parse` — reading the arguments.
-/

namespace MarkdownWeave

/-- Something that arguments can give. -/
inductive Target
  /-- The path of the source. -/
  | input
  /-- A variable. -/
  | variable
  /-- The path of the result. -/
  | output
  /-- The path of the settings. -/
  | settings
deriving DecidableEq

/-- A switch that has no value. -/
inductive Toggle
  /-- All notices are shown. -/
  | verbose
  /-- Only failures are shown. -/
  | quiet
  /-- Help is asked for. -/
  | help
  /-- The version is asked for. -/
  | version
deriving DecidableEq

/-- A switch, with or without a value. -/
inductive Switch
  /-- One that has a value. -/
  | valued (t : Target)
  /-- One that has none. -/
  | plain (t : Toggle)

/-- Why arguments are not accepted, or that help or the version is asked for. -/
inductive UsageProblem
  /-- There is no such switch, or more than one input. -/
  | unknownArgument
  /-- A value is missing, or empty where it must not be. -/
  | invalidValue
  /-- Something is given twice, or together with what excludes it. -/
  | argumentConflict
  /-- A switch without a value is given one. -/
  | tooManyValues
  /-- Help is asked for. -/
  | displayHelp
  /-- The version is asked for. -/
  | displayVersion
deriving DecidableEq

/-- What has been asked for. -/
structure Arguments where
  /-- The path of the source. -/
  input : Option Text
  /-- Variables, each as one text. -/
  vars : List Text
  /-- The path of the result. -/
  output : Option Text
  /-- The path of the settings. -/
  settings : Option Text
  /-- Whether all notices are shown. -/
  verbose : Bool
  /-- Whether only failures are shown. -/
  quiet : Bool
deriving DecidableEq

/-- Which notices are shown. -/
inductive Verbosity
  /-- All. -/
  | debug
  /-- Warnings. -/
  | warnings
  /-- None. -/
  | errors
deriving DecidableEq

namespace Switch

/-- The switch with a name. -/
def ofName? (name : Text) : Option Switch :=
  if name == ("var" : Text) then some (.valued .variable)
  else if name == ("output" : Text) then some (.valued .output)
  else if name == ("config" : Text) then some (.valued .settings)
  else if name == ("verbose" : Text) then some (.plain .verbose)
  else if name == ("quiet" : Text) then some (.plain .quiet)
  else if name == ("help" : Text) then some (.plain .help)
  else if name == ("version" : Text) then some (.plain .version)
  else none

/-- The switch with a letter. -/
def ofLetter? : Char → Option Switch
  | 'o' => some (.valued .output)
  | 'c' => some (.valued .settings)
  | 'v' => some (.plain .verbose)
  | 'q' => some (.plain .quiet)
  | 'h' => some (.plain .help)
  | 'V' => some (.plain .version)
  | _ => none

end Switch

namespace Arguments

/-- Nothing has been asked for. -/
def none : Arguments := ⟨.none, [], .none, .none, false, false⟩

/-- Which notices are shown. -/
def verbosity (a : Arguments) : Verbosity :=
  if a.verbose then .debug else if a.quiet then .errors else .warnings

/-- The arguments with one more value.  Only variables can be given more than once, and the paths of
the source and the result must not be empty. -/
def give (a : Arguments) (target : Target) (value : Text) : Except UsageProblem Arguments :=
  match target with
  | .input =>
    if a.input.isSome then .error .argumentConflict
    else if value.isEmpty then .error .invalidValue
    else .ok { a with input := value }
  | .variable => .ok { a with vars := a.vars ++ [value] }
  | .output =>
    if a.output.isSome then .error .argumentConflict
    else if value.isEmpty then .error .invalidValue
    else .ok { a with output := value }
  | .settings =>
    if a.settings.isSome then .error .argumentConflict else .ok { a with settings := value }

/-- The arguments with a switch that has no value. -/
def turnOn (a : Arguments) : Toggle → Except UsageProblem Arguments
  | .verbose => if a.verbose then .error .argumentConflict else .ok { a with verbose := true }
  | .quiet => if a.quiet then .error .argumentConflict else .ok { a with quiet := true }
  | .help => .error .displayHelp
  | .version => .error .displayVersion

end Arguments

/-! ### Reading -/

/-- Arguments of which some have been read. -/
structure ArgumentReader where
  /-- What they have asked for. -/
  given : Arguments
  /-- What the next value is for, or the last one if it has been read; it counts only when
  something follows that is known. -/
  pending : Option (Target × Option Text)
  /-- Whether there has been an input. -/
  hasInput : Bool
  /-- Whether two hyphens have been read, after which there are no switches. -/
  plainOnly : Bool

namespace ArgumentReader

/-- Nothing has been read. -/
def start : ArgumentReader := ⟨.none, none, false, false⟩

/-- Lets the pending value count; that is an error if it is missing. -/
def settle (r : ArgumentReader) : Except UsageProblem ArgumentReader :=
  match r.pending with
  | none => .ok r
  | some (_, none) => .error .invalidValue
  | some (t, some v) => (r.given.give t v).map fun a => { r with given := a, pending := none }

/-- Reads a switch that may have a value attached to it. -/
def switch (r : ArgumentReader) (s : Switch) (attached : Option Text) :
    Except UsageProblem ArgumentReader :=
  match s, attached with
  | .valued t, some v => do
    let r ← r.settle
    return { r with given := ← r.given.give t v }
  | .valued t, none => do
    let r ← r.settle
    return { r with pending := some (t, none) }
  | .plain _, some _ => .error .tooManyValues
  | .plain t, none => do
    let r ← r.settle
    return { r with given := ← r.given.turnOn t }

/-- Reads a switch by its name, with its value behind an equals sign. -/
def named (r : ArgumentReader) (body : Text) : Except UsageProblem ArgumentReader :=
  let (name, attached) :=
    match Text.splitAt? '=' body with
    | some (name, value) => (name, some value)
    | none => (body, none)
  match Switch.ofName? name with
  | some s => r.switch s attached
  | none => .error .unknownArgument

/-- Reads switches by their letters.  What follows the letter of a switch that has a value is the
value, with or without an equals sign before it. -/
def letters (r : ArgumentReader) : Text → Except UsageProblem ArgumentReader
  | [] => .ok r
  | c :: cs =>
    match Switch.ofLetter? c with
    | none => .error .unknownArgument
    | some (.plain t) => do
      let r ← r.switch (.plain t) none
      r.letters cs
    | some (.valued t) =>
      match cs with
      | [] => r.switch (.valued t) none
      | '=' :: value => r.switch (.valued t) (some value)
      | value => r.switch (.valued t) (some value)

/-- Reads an argument that is no switch and no value of one. -/
def positional (r : ArgumentReader) (arg : Text) : Except UsageProblem ArgumentReader :=
  if r.hasInput then .error .unknownArgument
  else do
    let r ← r.settle
    return { r with pending := some (.input, some arg), hasInput := true }

/-- Reads an argument. -/
def next (r : ArgumentReader) (arg : Text) : Except UsageProblem ArgumentReader :=
  if r.plainOnly then r.positional arg
  else
    match arg with
    | ['-', '-'] => .ok { r with plainOnly := true }
    | '-' :: '-' :: body => r.named body
    | '-' :: c :: cs => r.letters (c :: cs)
    | _ =>
      match r.pending with
      | some (t, none) => .ok { r with pending := some (t, some arg) }
      | _ => r.positional arg

end ArgumentReader

/-- What arguments ask for.  Showing all notices and showing none exclude each other. -/
def Arguments.parse (args : List Text) : Except UsageProblem Arguments := do
  let r ← args.foldlM ArgumentReader.next .start
  let r ← r.settle
  if r.given.verbose && r.given.quiet then .error .argumentConflict else return r.given

end MarkdownWeave
