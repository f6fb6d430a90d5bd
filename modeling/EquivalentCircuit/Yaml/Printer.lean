import EquivalentCircuit.Yaml.Node

/-! Writing YAML texts in block style. Every scalar is written as it is, so it must be one that reads
back as a plain text. -/

namespace EquivalentCircuit

namespace Yaml

namespace Node

/-- The text of a scalar on one line; collections have none. -/
def lineText : Node → Option String
  | scalar _ _ _ text => some text
  | _ => none

/-- The lines of an item after its hyphen. -/
def itemLines : List String → List String
  | [] => ["-"]
  | line :: lines => ("- " ++ line) :: lines.map ("  " ++ ·)

mutual

/-- The lines of a node. A sequence in a mapping is not indented, a mapping is. -/
def lines : Node → List String
  | scalar _ _ _ text => [text]
  | sequence _ items => sequenceLines items
  | mapping _ entries => mappingLines entries
  | reference _ => []

def sequenceLines : List Node → List String
  | [] => []
  | v :: vs => itemLines (lines v) ++ sequenceLines vs

def mappingLines : List (Node × Node) → List String
  | [] => []
  | (k, v) :: es => entryLines ((lineText k).getD "") v ++ mappingLines es

def entryLines (key : String) : Node → List String
  | scalar _ _ _ text => [key ++ ": " ++ text]
  | sequence _ items => (key ++ ":") :: sequenceLines items
  | mapping _ entries => (key ++ ":") :: (mappingLines entries).map ("  " ++ ·)
  | reference _ => []

end

def text (v : Node) : String := String.join (v.lines.map (· ++ "\n"))

end Node

end Yaml

end EquivalentCircuit
