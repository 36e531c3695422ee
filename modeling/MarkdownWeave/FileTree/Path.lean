import MarkdownWeave.Text.Basic

/-!
# Paths

A path is a text whose parts stand between slashes.  Paths are kept as they are written; only when
a tree is walked do their parts mean something.

## Main definitions

* `Path.join` — a path behind another one.
* `Path.parent` — the directory that a path is in.
* `Path.expandHome` — a path with the home directory in place of a tilde.
-/

namespace MarkdownWeave

namespace Path

/-- The parts of a path; an absolute path begins with an empty one. -/
def parts (path : Text) : List Text := Text.splitOn '/' path

/-- Whether a path begins at the root of the tree. -/
def isAbsolute (path : Text) : Bool := path.head? == some '/'

/-- A path as seen from a base directory: itself if it is absolute, and otherwise behind the base
and a slash.  There is no slash behind an empty base or one that ends with a slash. -/
def join (base path : Text) : Text :=
  if isAbsolute path then path
  else if base.isEmpty || Text.endsWith '/' base then base ++ path
  else base ++ '/' :: path

/-- Whether a part stands for nothing: it is empty or a single dot. -/
def isIdle (part : Text) : Bool := part.isEmpty || part == ['.']

/-- Parts without the last ones that stand for nothing. -/
def dropIdle (ps : List Text) : List Text := (ps.reverse.dropWhile isIdle).reverse

/-- The directory that a path is in, as far as the path tells; the current one, a single dot, if it
does not. -/
def parent (path : Text) : Text :=
  match parts path with
  | [] => ['.']
  | first :: rest =>
    match dropIdle rest with
    | [] => ['.']
    | p :: ps =>
      let above := dropIdle (p :: ps).dropLast
      if first.isEmpty then '/' :: Text.joinWith ['/'] above
      else Text.joinWith ['/'] (first :: above)

/-- A path in which a tilde at the beginning, alone or before a slash, is replaced by the home
directory, if that is known. -/
def expandHome (home : Option Text) (path : Text) : Text :=
  match path, home with
  | ['~'], some h => h
  | '~' :: '/' :: rest, some h => h ++ '/' :: rest
  | _, _ => path

end Path

end MarkdownWeave
