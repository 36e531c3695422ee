import MarkdownWeave.CommandLine.Run

/-!
# The command line program

Reads the files that a run looks at, and writes what the run comes to.  Everything in between is
`CommandLine.plan`: it is worked out again whenever one more file is known, until it looks at no
file that is not.

## Main definitions

* `Console.plan` — the plan of a run on the files of the system.
* `main` — the program.
-/

namespace MarkdownWeave

namespace Console

/-- The code and the words in which the system reports a problem. -/
def osError? : IO.Error → Option (UInt32 × String)
  | .alreadyExists _ code m => some (code, m)
  | .otherError code m => some (code, m)
  | .resourceBusy code m => some (code, m)
  | .resourceVanished code m => some (code, m)
  | .unsupportedOperation code m => some (code, m)
  | .hardwareFault code m => some (code, m)
  | .unsatisfiedConstraints code m => some (code, m)
  | .illegalOperation code m => some (code, m)
  | .protocolError code m => some (code, m)
  | .timeExpired code m => some (code, m)
  | .interrupted _ code m => some (code, m)
  | .noFileOrDirectory _ code m => some (code, m)
  | .invalidArgument _ code m => some (code, m)
  | .permissionDenied _ code m => some (code, m)
  | .resourceExhausted _ code m => some (code, m)
  | .inappropriateType _ code m => some (code, m)
  | .noSuchThing _ code m => some (code, m)
  | .unexpectedEof => none
  | .userError _ => none

/-- The problem with a file that the system reports.  Some calls report the negative of a code. -/
def fileProblem (e : IO.Error) : FileProblem :=
  match (osError? e).map fun r => ((min r.1 (-r.1)).toNat, r.2) with
  | some (2, _) => .notFound
  | some (20, _) => .notDirectory
  | some (21, _) => .isDirectory
  | some (36, _) => .nameTooLong
  | some (code, m) =>
    .other (m.capitalize.toList ++ " (os error " ++ Text.ofNat code ++ [')'])
  | none => .other e.toString.toList

/-- What is at a path. -/
def look (path : Text) : BaseIO Look := do
  if path.contains '\x00' then return .problem .nullByte
  match ← (IO.FS.readBinFile (String.ofList path)).toBaseIO with
  | .ok bytes => return .file bytes.toList
  | .error e =>
    match fileProblem e with
    | .isDirectory => return .directory
    | problem => return .problem problem

/-- The plan of a run, where what is at some paths is known already. -/
partial def plan (env : Environment) (a : Arguments) (stdin : List UInt8)
    (known : List (Text × Look)) : IO Plan := do
  let p := CommandLine.plan (.ofTable known) env a stdin
  match (CommandLine.consulted env a p).find? fun path => (known.lookup path).isNone with
  | none => return p
  | some path =>
    let seen ← look path
    plan env a stdin ((path, seen) :: known)

/-- What is known about the user and the process. -/
def environment : IO Environment := do
  let home ← IO.getEnv "HOME"
  let settings ← IO.getEnv "PREMARK_CONFIG_PATH"
  let here ← IO.currentDir.toBaseIO
  return ⟨(home.filter (· != "")).map String.toList, settings.map String.toList,
    match here with
    | .ok path => .ok path.toString.toList
    | .error e => .error (fileProblem e)⟩

/-- Whether the two output streams may be coloured. -/
def isColored : IO Bool := do
  let unwanted ← IO.getEnv "NO_COLOR"
  return (← (← IO.getStdout).isTty) && unwanted.isNone

/-- Writes to the standard error stream. -/
def complain (t : Text) : IO Unit := IO.eprint (String.ofList t)

/-- Reports a problem. -/
def fail (colored : Bool) (t : Trouble) : IO UInt32 := do
  complain ((Report.of t).shown colored)
  return 1

/-- Writes a result. -/
def write : Delivery → IO Unit
  | .print t => do
    IO.print (String.ofList t)
    (← IO.getStdout).flush
  | .save path t => IO.FS.writeBinFile (String.ofList path) (String.ofList t).toUTF8

/-- Writes the result of a run. -/
def finish (colored quiet : Bool) (p : Plan) : IO UInt32 := do
  match p.outcome with
  | .error t => fail colored t
  | .ok d =>
    match ← (write d).toBaseIO with
    | .ok () =>
      complain (CommandLine.savedLine colored quiet d)
      return 0
    | .error e => fail colored (CommandLine.writeTrouble d (fileProblem e))

/-- Carries out a run with arguments that have been accepted. -/
def carryOut (a : Arguments) : IO UInt32 := do
  let env ← environment
  let stdin ←
    if a.input.isNone then pure (← (← IO.getStdin).readBinToEnd).toList else pure []
  let p ← plan env a stdin []
  complain (CommandLine.noticeLines a.verbosity p.events)
  finish (← isColored) a.quiet p

/-- Says why arguments are not accepted, or what else they ask for. -/
def refuse (u : UsageProblem) : IO UInt32 := do
  let r := CommandLine.refused (.directory []) .sound u
  let _ ← (write (.print r.stdout)).toBaseIO
  complain r.stderr
  return r.code.toUInt32

end Console

end MarkdownWeave

/-- The program: compiles a document as its arguments ask. -/
def main (args : List String) : IO UInt32 := do
  match MarkdownWeave.Arguments.parse (args.map String.toList) with
  | .error u => MarkdownWeave.Console.refuse u
  | .ok a => MarkdownWeave.Console.carryOut a
