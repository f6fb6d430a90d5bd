import EquivalentCircuit.Policy.Tree
import EquivalentCircuit.Toml.Value

/-! Policies as TOML tables. -/

namespace EquivalentCircuit

namespace Toml

/-- The items of an array; tables under a repeated header are one too. -/
def items? : Toml → Option (List Toml)
  | array items => some items
  | tables elements => some (elements.map (table .header))
  | _ => none

/-- The members of the given names. An array gives its first items by position. -/
def namedMembers? (names : List String) : Toml → Option Members
  | table _ ms => some (ms.filter fun m => names.contains m.1)
  | time => some []
  | v => (items? v).map names.zip

/-- The name of a choice, as a text or as the name of an empty table or array. -/
def choiceName? : Toml → Option String
  | text s => some s
  | table _ [(name, table _ [])] => some name
  | table _ [(name, array [])] => some name
  | _ => none

def flag? : Toml → Option Bool
  | bool b => some b
  | _ => none

def membersOf : Toml → Members
  | table _ ms => ms
  | _ => []

end Toml

instance : PolicySource Toml where
  members? := Toml.namedMembers?
  flag? := Toml.flag?
  name? := Toml.choiceName?
  triple? v := (Toml.items? v).bind fun items => PerWinding.ofList? (items.take 3)

instance : PolicyTarget Toml where
  ofMembers := .table .header
  ofFlag := .bool
  ofName := .text
  ofTriple vs := .tables (vs.toList.map Toml.membersOf)

end EquivalentCircuit
