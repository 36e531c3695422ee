import MarkdownWeave.FileTree.Disk
import MarkdownWeave.Report
import MarkdownWeave.Toml.Reading

/-!
# Settings

What a user has set once for all documents: the largest size of a document, and variables.  The
settings are kept in a TOML file at a place of their own.

## Main definitions

* `Settings` — the settings.
* `Settings.ofTable?` — the settings in a TOML table.
* `Environment` — what is known about the user and the process.
* `Settings.load` — the settings that a program starts with.
-/

namespace MarkdownWeave

/-- What a user has set for all documents. -/
structure Settings where
  /-- The size in bytes that no document may exceed; zero for no limit. -/
  maxDocumentSize : Nat
  /-- Variables with their values, in the order of their names. -/
  vars : List (Text × Text)
deriving DecidableEq

/-- A path that is known has been found without a problem. -/
instance : Coe Text (Except FileProblem Text) := ⟨.ok⟩

/-- What is known about the user and the process. -/
structure Environment where
  /-- The home directory, if there is one. -/
  home : Option Text
  /-- Where the settings are, if they are not at their usual place. -/
  settingsPath : Option Text
  /-- The path of the current directory, or why it cannot be found. -/
  currentDirectory : Except FileProblem Text

namespace Settings

/-- The settings of a user who has not set anything: documents of one mebibyte and no variables. -/
def default : Settings := ⟨1024 * 1024, []⟩

/-- The size that no document may exceed, if there is a limit. -/
def sizeLimit (s : Settings) : Option Nat :=
  if s.maxDocumentSize = 0 then none else some s.maxDocumentSize

/-! ### Reading -/

/-- Whether one name comes before another, by code points. -/
def nameBefore : Text → Text → Bool
  | [], _ => true
  | _ :: _, [] => false
  | a :: as, b :: bs => if a = b then nameBefore as bs else a < b

/-- The text that a TOML value is. -/
def text? : Text × Toml.Value → Option (Text × Text)
  | (name, .text t) => some (name, t)
  | _ => none

/-- The limit in a table: an integer of 64 bits without a sign, or the usual limit if there is
none. -/
def limit? (table : Toml.Table) : Option Nat :=
  match Toml.Table.get? table "max_document_size" with
  | none => some default.maxDocumentSize
  | some (.int n) => if 0 ≤ n ∧ n < Int.pow 2 64 then some n.toNat else none
  | some _ => none

/-- The variables in a table: a table of texts, in the order of their names. -/
def vars? (table : Toml.Table) : Option (List (Text × Text)) :=
  match Toml.Table.get? table "vars" with
  | none => some []
  | some (.table _ entries) =>
    (entries.mapM text?).map fun vars => vars.mergeSort fun a b => nameBefore a.1 b.1
  | some _ => none

/-- The settings in a table, of which other keys are passed over. -/
def ofTable? (table : Toml.Table) : Option Settings := do
  return ⟨← limit? table, ← vars? table⟩

/-- The settings in a TOML text. -/
def parse? (t : Text) : Option Settings := (Toml.read? t).bind ofTable?

/-! ### Loading -/

/-- Where the settings are if the user does not say so: at the path in the environment, or in a
directory of the home directory. -/
def usualPath (env : Environment) : Except Trouble Text :=
  match env.settingsPath with
  | some (c :: cs) => .ok (Path.expandHome env.home (c :: cs))
  | _ =>
    match env.home with
    | some home => .ok (Path.join (Path.join home ".premark") "config.toml")
    | none => .error ⟨.unnamed "Unable to determine home directory", []⟩

/-- The settings in the file at a path, with the notice about them. -/
def loadFrom (disk : Disk) (path : Text) : Except Trouble (Settings × Text) :=
  match disk.read path with
  | .error p => .error ⟨.system p.message, ["Failed to read global config from " ++ path]⟩
  | .ok t =>
    match parse? t with
    | some s => .ok (s, "Loaded config from " ++ path)
    | none =>
      .error ⟨.unnamed "TOML parse error", ["Failed to parse global config from " ++ path]⟩

/-- Whether there is a file or a directory at a path. -/
def isThere (disk : Disk) (path : Text) : Bool :=
  match disk.look path with
  | .problem _ => false
  | _ => true

/-- The settings that a program starts with, with the notice about them.  A file that the user
names has to be there; at the usual place there need not be one. -/
def load (disk : Disk) (env : Environment) (named : Option Text) :
    Except Trouble (Settings × Text) :=
  match named with
  | some path => loadFrom disk (Path.expandHome env.home path)
  | none => do
    let path ← usualPath env
    if isThere disk path then loadFrom disk path
    else return (default, "No config at " ++ path ++ ", using defaults")

end Settings

end MarkdownWeave
