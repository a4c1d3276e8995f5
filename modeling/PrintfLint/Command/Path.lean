/-!
# PrintfLint.Command.Path — file names

`Path.ofName` divides a file name into its components. Empty components and single dots are dropped,
so a name has one normal form; two dots stay, since what they lead to depends on the directory
before them.
-/

namespace PrintfLint.Command

/-- A file name in normal form. -/
structure Path where
  /-- Nothing for a relative name; one slash, or exactly two where a name starts with two. -/
  root : String
  components : List String
deriving DecidableEq, Repr

namespace Path

/-- The slashes at the front of a name that are kept. -/
def rootOf (cs : List Char) : String :=
  match (cs.takeWhile (· = '/')).length with
  | 0 => ""
  | 2 => "//"
  | _ => "/"

/-- A file name in normal form. -/
def ofName (name : String) : Path :=
  let cs := name.toList
  ⟨rootOf cs, ((cs.splitOn '/').filter fun c => c ≠ [] ∧ c ≠ ['.']).map String.ofList⟩

/-- The normal form of a file name, as text. -/
def render (p : Path) : String :=
  let name := p.root ++ "/".intercalate p.components
  if name = "" then "." else name

end Path

end PrintfLint.Command
