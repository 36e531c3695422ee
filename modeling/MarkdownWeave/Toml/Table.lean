import MarkdownWeave.Text.Basic

/-!
# TOML tables

The tables of a TOML document and how its statements fill them.  A table must not be defined twice:
one that a header or a value has defined is closed for the headers and dotted keys that come later,
while one that was only passed through on the way to another can still be defined.

## Main definitions

* `Toml.Value` — a TOML value; `Toml.Table` is a table with its entries.
* `Toml.Statement` — a line of a document.
* `Toml.build?` — the table that the statements of a document make.
-/

namespace MarkdownWeave

namespace Toml

/-- How a table came to be. -/
inductive Origin
  /-- By a header of its own. -/
  | header
  /-- On the way to another table in a header. -/
  | passed
  /-- On the way to the last part of a dotted key. -/
  | dotted
  /-- By braces. -/
  | braces
deriving DecidableEq

/-- A TOML value. -/
inductive Value
  /-- A string. -/
  | text (t : Text)
  /-- An integer. -/
  | int (n : Int)
  /-- A floating-point number, as it is written. -/
  | float (t : Text)
  /-- A truth value. -/
  | bool (b : Bool)
  /-- A date, a time or both, as it is written. -/
  | moment (t : Text)
  /-- A list in square brackets. -/
  | array (items : List Value)
  /-- A table. -/
  | table (origin : Origin) (entries : List (Text × Value))
  /-- Tables that headers in double brackets have begun, the last one first. -/
  | tables (list : List (List (Text × Value)))
deriving Inhabited

/-- The entries of a table. -/
abbrev Table := List (Text × Value)

/-- A dotted key. -/
abbrev Path := List Text

namespace Table

/-- The value under a key. -/
def get? (t : Table) (key : Text) : Option Value := t.lookup key

/-- Puts a value under a key, in place of the one that is there. -/
def set (t : Table) (key : Text) (v : Value) : Table :=
  if t.any (·.1 == key) then t.map fun e => if e.1 == key then (key, v) else e
  else t ++ [(key, v)]

end Table

/-- Changes the table that a path leads to, through the last one of every list of tables.  `may`
tells which existing tables may be passed, and `origin` how missing ones come to be. -/
def change? (may : Origin → Bool) (origin : Origin) (f : Table → Option Table) :
    Path → Table → Option Table
  | [], t => f t
  | key :: path, t =>
    match t.lookup key with
    | none => (change? may origin f path []).map fun u => t.set key (.table origin u)
    | some (.table o u) =>
      if may o then (change? may origin f path u).map fun u => t.set key (.table o u) else none
    | some (.tables (u :: us)) =>
      if may .header then (change? may origin f path u).map fun u => t.set key (.tables (u :: us))
      else none
    | some _ => none

/-- Whether headers may lead through a table. -/
def passable (o : Origin) : Bool := o != .braces

/-- Whether dotted keys may lead through a table. -/
def extensible (o : Origin) : Bool := o == .passed || o == .dotted

/-- Puts a value under a dotted key. -/
def assign? (path : Path) (v : Value) (t : Table) : Option Table :=
  match path.getLast? with
  | none => none
  | some key =>
    change? extensible .dotted
      (fun u => if (u.lookup key).isSome then none else some (u ++ [(key, v)])) path.dropLast t

/-- Begins the table with a header. -/
def openTable? (path : Path) (t : Table) : Option Table :=
  match path.getLast? with
  | none => none
  | some key =>
    change? passable .passed
      (fun u =>
        match u.lookup key with
        | none => some (u ++ [(key, .table .header [])])
        | some (.table .passed entries) => some (u.set key (.table .header entries))
        | some _ => none) path.dropLast t

/-- Begins one more table of a list. -/
def openItem? (path : Path) (t : Table) : Option Table :=
  match path.getLast? with
  | none => none
  | some key =>
    change? passable .passed
      (fun u =>
        match u.lookup key with
        | none => some (u ++ [(key, .tables [[]])])
        | some (.tables us) => some (u.set key (.tables ([] :: us)))
        | some _ => none) path.dropLast t

/-- A line of a document. -/
inductive Statement
  /-- The header of a table. -/
  | table (path : Path)
  /-- The header of one more table of a list. -/
  | item (path : Path)
  /-- A key with its value. -/
  | assign (path : Path) (v : Value)

/-- The table that statements make of one that is there already, where `current` is the path of the
last header. -/
def run? : List Statement → Path → Table → Option Table
  | [], _, t => some t
  | .table path :: rest, _, t => (openTable? path t).bind (run? rest path)
  | .item path :: rest, _, t => (openItem? path t).bind (run? rest path)
  | .assign path v :: rest, current, t =>
    (change? (fun _ => true) .header (assign? path v) current t).bind (run? rest current)

/-- The table that the statements of a document make, unless one of them defines something twice. -/
def build? (statements : List Statement) : Option Table := run? statements [] []

/-- The table in braces with some entries, unless something is defined twice. -/
def inline? (entries : List (Path × Value)) : Option Value :=
  (entries.foldlM (fun t e => assign? e.1 e.2 t) []).map (.table .braces)

end Toml

end MarkdownWeave
