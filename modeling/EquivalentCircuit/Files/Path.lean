/-! Paths of files as texts. Empty segments and single dots after the first segment name nothing of
their own. -/

namespace EquivalentCircuit

namespace Path

/-- The parts between slashes. -/
def segments : List Char → List (List Char)
  | [] => [[]]
  | c :: cs =>
    if c = '/' then [] :: segments cs
    else match segments cs with
      | [] => [[c]]
      | s :: ss => (c :: s) :: ss

def join : List (List Char) → List Char
  | [] => []
  | [s] => s
  | s :: ss => s ++ '/' :: join ss

def namesNothing (s : List Char) : Bool := s.isEmpty || s = ['.']

/-- The segments up to the last one that names something. -/
def trimEnd (ss : List (List Char)) : List (List Char) := (ss.reverse.dropWhile namesNothing).reverse

/-- The first segment and those after it up to the last one that names something. -/
def split (path : String) : List Char × List (List Char) :=
  match segments path.toList with
  | [] => ([], [])
  | s :: ss => (s, trimEnd ss)

/-- The last name of a path; a directory given by dots has none. -/
def fileName? (path : String) : Option (List Char) :=
  let (first, rest) := split path
  let name := rest.getLast?.getD first
  if name.isEmpty || name = ['.'] || name = ['.', '.'] then none else some name

/-- What follows the last dot of the last name, unless the name begins with that dot. -/
def extension? (path : String) : Option String := do
  let name ← fileName? path
  guard (name.contains '.')
  let reversed := name.reverse
  let beforeDot := (reversed.dropWhile (· ≠ '.')).tail
  guard !beforeDot.isEmpty
  return String.ofList (reversed.takeWhile (· ≠ '.')).reverse

/-- The directory of a path. It is empty for a single name, and there is none for the root and for
the empty path. -/
def parent? (path : String) : Option String :=
  match split path with
  | ([], []) => none
  | (_, []) => some ""
  | ([], rest) =>
    match trimEnd rest.dropLast with
    | [] => some "/"
    | inner => some (String.ofList ('/' :: join inner))
  | (first, rest) => some (String.ofList (join (first :: trimEnd rest.dropLast)))

end Path

end EquivalentCircuit
