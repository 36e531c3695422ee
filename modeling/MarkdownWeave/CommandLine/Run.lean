import MarkdownWeave.CommandLine.Arguments
import MarkdownWeave.CommandLine.Variable
import MarkdownWeave.Compile.Pipeline
import MarkdownWeave.Settings

/-!
# Runs of the command line

One run reads the settings, the variables and the source, compiles the source, and writes the
result to a file or to the standard output.  Nothing is written before everything has succeeded.
The writing itself can fail, too; a standard output that breaks off keeps what it has taken.  The
standard error stream is supposed to take all that it is given.

What a path names is a file in a tree, but for the paths at which a process finds its own standard
output: what is saved there is printed.

## Main definitions

* `CommandLine.plan` — what a run is going to write, and what it has to say before it does.
* `CommandLine.consulted` — the paths that a run looks at.
* `OutputStream` — a stream that takes everything, or breaks off.
* `CommandLine.write` — what comes of writing a result.
* `Run` — the exit code of a run, what it wrote to its two output streams, and the tree after it.
* `CommandLine.runOn`, `CommandLine.run` — a run on a file tree, with arguments that have been
  accepted and with any arguments.
-/

namespace MarkdownWeave

/-- What a run writes in the end. -/
inductive Delivery
  /-- A text to the standard output. -/
  | print (t : Text)
  /-- A text to a file. -/
  | save (path t : Text)
deriving DecidableEq

/-- What a run has to say, and what it is going to write. -/
structure Plan where
  /-- What came before. -/
  events : List Event
  /-- What is going to be written, or why nothing is. -/
  outcome : Except Trouble Delivery

namespace CommandLine

/-! ### Planning -/

/-- The failure of settings that cannot be used. -/
def settingsFailure (t : Trouble) : Trouble := .ofFailure (.invalidSettings t.chain)

/-- The source: the text of a file, or of the standard input. -/
def readSource (disk : Disk) (input : Option Text) (stdin : List UInt8) : Except Trouble Text :=
  match input with
  | some path =>
    match disk.read path with
    | .ok t => .ok t
    | .error p => .error ⟨.system p.message, ["Failed to read input file " ++ path]⟩
  | none =>
    match Text.ofUtf8 stdin with
    | .ok t => .ok t
    | .error f => .error ⟨.system f.message, ["Failed to read source from stdin"]⟩

/-- The directory that the references of a source start from: the one that its file is in, or the
current one. -/
def baseDirectory (env : Environment) (input : Option Text) : Except Trouble Text :=
  match input with
  | some path => .ok (Path.parent path)
  | none =>
    match env.currentDirectory with
    | .ok path => .ok path
    | .error p => .error ⟨.system p.message, ["Failed to determine current directory"]⟩

/-- The variables of the settings and then those of the arguments. -/
def collectVars (settings : Settings) (a : Arguments) : Except Trouble (List (Text × Text)) :=
  match Variable.parseAll a.vars with
  | .ok vars => .ok (settings.vars ++ vars)
  | .error f => .error (.ofFailure f)

/-- Where a result goes. -/
def deliver (output : Option Text) (t : Text) : Delivery :=
  match output with
  | some path => .save path t
  | none => .print t

/-- The compilation of a source below a base directory. -/
def compileBelow (disk : Disk) (limit : Option Nat) (vars : List (Text × Text))
    (source base : Text) : Traced Text := do
  Traced.debug ("Resolving documents from " ++ base)
  compile (disk.resolver base limit) source (textVariables vars)

/-- What a run is going to write, and what it has to say before it does. -/
def plan (disk : Disk) (env : Environment) (a : Arguments) (stdin : List UInt8) : Plan :=
  match Settings.load disk env a.settings with
  | .error t => ⟨[], .error (settingsFailure t)⟩
  | .ok (settings, notice) =>
    let first := [Event.notice .debug notice]
    match collectVars settings a with
    | .error t => ⟨first, .error t⟩
    | .ok vars =>
      match readSource disk a.input stdin with
      | .error t => ⟨first, .error t⟩
      | .ok source =>
        match baseDirectory env a.input with
        | .error t => ⟨first, .error t⟩
        | .ok base =>
          let x := compileBelow disk settings.sizeLimit vars source base
          ⟨first ++ x.events,
            match x.outcome with
            | .ok t => .ok (deliver a.output t)
            | .error f => .error (.ofFailure f)⟩

/-! ### Consulted paths -/

/-- Where the settings of a run are. -/
def settingsPath? (env : Environment) (named : Option Text) : Option Text :=
  match named with
  | some path => some (Path.expandHome env.home path)
  | none => (Settings.usualPath env).toOption

/-- The paths of the documents that are asked for. -/
def askedFor (env : Environment) (a : Arguments) (p : Plan) : List Text :=
  match baseDirectory env a.input with
  | .ok base => (p.events.filterMap Event.path?).map (Path.join base)
  | .error _ => []

/-- The paths that a run with some arguments looks at, in order: the settings, the source, and the
documents that are asked for. -/
def consulted (env : Environment) (a : Arguments) (p : Plan) : List Text :=
  (settingsPath? env a.settings).toList ++ a.input.toList ++ askedFor env a p

/-! ### Notices and reports -/

/-- What is written where the version is asked for. -/
def versionText : Text := "premark 0.3.0\n"

/-- What is written where help is asked for. -/
def helpText : Text :=
  Text.unlines
    ["Compiles markdown documents with layout inheritance, variables and references.",
      "",
      "Usage: premark [OPTIONS] [INPUT]",
      "",
      "Arguments:",
      "  [INPUT]  Input document; the standard input if omitted",
      "",
      "Options:",
      "      --var <KEY=VALUE>  Override a variable (repeatable)",
      "  -o, --output <PATH>    Write the result to a file instead of the standard output",
      "  -c, --config <PATH>    Path of a settings file",
      "  -v, --verbose          Show all notices",
      "  -q, --quiet            Only report failures",
      "  -h, --help             Print help",
      "  -V, --version          Print version",
      ""]

/-- Whether a notice is shown. -/
def shows : Verbosity → Level → Bool
  | .debug, _ => true
  | .warnings, .warning => true
  | .warnings, .debug => false
  | .errors, _ => false

/-- The name of a level. -/
def levelName : Level → Text
  | .debug => "DEBUG"
  | .warning => "WARN"

/-- A character of a notice.  One that could steer a terminal is written by its code point. -/
def noticeChar (c : Char) : Text :=
  let n := c.toNat
  if [0x07, 0x08, 0x0C, 0x1B, 0x7F].contains n then '\\' :: 'x' :: Text.hexLower 2 n
  else if 0x80 ≤ n && n ≤ 0x9F then ['\\', 'u', '{'] ++ Nat.toDigits 16 n ++ ['}']
  else [c]

/-- A notice as a line. -/
def noticeLine (level : Level) (t : Text) : Text :=
  levelName level ++ ' ' :: t.flatMap noticeChar ++ ['\n']

/-- The notices that are shown, as lines. -/
def noticeLines (v : Verbosity) (events : List Event) : Text :=
  (events.filterMap Event.notice?).flatMap fun (level, t) =>
    if shows v level then noticeLine level t else []

/-- The failure of a result that could not be written. -/
def writeTrouble (d : Delivery) (p : FileProblem) : Trouble :=
  match d with
  | .print _ => ⟨.system p.message, ["Failed to write to stdout"]⟩
  | .save path _ => ⟨.system p.message, ["Failed to write output to " ++ path]⟩

/-- The line that tells where a result went that has been saved. -/
def savedLine (colored quiet : Bool) (d : Delivery) : Text :=
  match d with
  | .print _ => []
  | .save path _ =>
    if quiet then [] else Report.label colored "32" "✓" ++ " Compiled to " ++ path ++ ['\n']

/-- What is written about arguments that are not accepted. -/
def usageText (u : UsageProblem) : Text :=
  let problem : Text :=
    match u with
    | .unknownArgument => "unexpected argument found"
    | .invalidValue => "a value is required for an argument"
    | .argumentConflict => "an argument cannot be used with another one"
    | .tooManyValues => "unexpected value for an argument found"
    | .displayHelp => []
    | .displayVersion => []
  "error: " ++ problem ++ "\n\nUsage: premark [OPTIONS] [INPUT]\n\n" ++
    "For more information, try '--help'.\n"

end CommandLine

/-! ### Output streams -/

/-- A stream that takes what is printed. -/
inductive OutputStream
  /-- It takes everything. -/
  | sound
  /-- It takes some bytes, and has a problem with all further ones. -/
  | broken (room : Nat) (p : FileProblem)

namespace OutputStream

/-- What a stream takes of some bytes, and its problem if that is not all of them. -/
def print : OutputStream → List UInt8 → List UInt8 × Except FileProblem Unit
  | sound, bytes => (bytes, .ok ())
  | broken room p, bytes => (bytes.take room, if bytes.length ≤ room then .ok () else .error p)

end OutputStream

/-! ### Runs -/

/-- What a run on a file tree comes to. -/
structure Run where
  /-- The exit code. -/
  code : Nat
  /-- What the standard output has taken. -/
  printed : List UInt8
  /-- What it wrote to the standard error stream. -/
  stderr : Text
  /-- What came before the result. -/
  events : List Event
  /-- The report of the failure, if it failed. -/
  report : Option Report
  /-- The file tree after it. -/
  tree : FileTree

/-- What a run has printed, as a text; nothing if it ends within a character. -/
def Run.stdout (r : Run) : Text := (Text.ofUtf8? r.printed).getD []

namespace CommandLine

/-! ### Writing the result -/

/-- Whether a process finds its own standard output at a path. -/
def isStdout (path : Text) : Bool :=
  path == "/dev/stdout" || path == "/dev/fd/1" || path == "/proc/self/fd/1"

/-- What comes of printing a text: what the standard output has taken, and the tree, which stays as
it is, or the problem. -/
def print (tree : FileTree) (out : OutputStream) (t : Text) :
    List UInt8 × Except FileProblem FileTree :=
  match out.print (Text.utf8 t) with
  | (taken, .ok ()) => (taken, .ok tree)
  | (taken, .error problem) => (taken, .error problem)

/-- What comes of writing a result: what the standard output has taken, and the tree after it or the
problem. -/
def write (tree : FileTree) (here : List Text) (out : OutputStream) (d : Delivery) :
    List UInt8 × Except FileProblem FileTree :=
  match d with
  | .print t => print tree out t
  | .save path t =>
    if isStdout path then print tree out t else ([], tree.write here path (Text.utf8 t))

/-- The run that ends with a problem: it reports it and leaves the tree as it is. -/
def failed (tree : FileTree) (printed : List UInt8) (events : List Event) (t : Trouble) : Run :=
  ⟨1, printed, (Report.of t).shown false, events, some (Report.of t), tree⟩

/-- Writes the result of a run, to a file of a tree or to the standard output `out`. -/
def finish (tree : FileTree) (here : List Text) (out : OutputStream) (quiet : Bool) (p : Plan) :
    Run :=
  match p.outcome with
  | .error t => failed tree [] p.events t
  | .ok d =>
    match write tree here out d with
    | (printed, .ok tree') => ⟨0, printed, savedLine false quiet d, p.events, none, tree'⟩
    | (printed, .error problem) => failed tree printed p.events (writeTrouble d problem)

/-- A run with accepted arguments on a file tree, in the current directory `here` and with the
standard output `out`. -/
def runOn (tree : FileTree) (here : List Text) (env : Environment) (a : Arguments)
    (stdin : List UInt8) (out : OutputStream := .sound) : Run :=
  finish tree here out a.quiet (plan (.ofTree tree here) env a stdin)

/-- The run with arguments that are not accepted.  It ends in the same way if what it says cannot be
printed. -/
def refused (tree : FileTree) (out : OutputStream) (u : UsageProblem) : Run :=
  match u with
  | .displayHelp => ⟨0, (out.print (Text.utf8 helpText)).1, [], [], none, tree⟩
  | .displayVersion => ⟨0, (out.print (Text.utf8 versionText)).1, [], [], none, tree⟩
  | _ => ⟨2, [], usageText u, [], none, tree⟩

/-- A run with any arguments on a file tree, in the current directory `here` and with the standard
output `out`.  The notices that are shown come before everything else on the standard error
stream. -/
def run (tree : FileTree) (here : List Text) (env : Environment) (args : List Text)
    (stdin : List UInt8) (out : OutputStream := .sound) : Run :=
  match Arguments.parse args with
  | .error u => refused tree out u
  | .ok a =>
    let r := runOn tree here env a stdin out
    { r with stderr := noticeLines a.verbosity r.events ++ r.stderr }

end CommandLine

end MarkdownWeave
