/-! Values by name in ascending order of the names. -/

namespace EquivalentCircuit

/-- A name holds one value, the last one given. -/
def insertByName {β : Type} (name : String) (b : β) : List (String × β) → List (String × β)
  | [] => [(name, b)]
  | (n, c) :: rest =>
    if name < n then (name, b) :: (n, c) :: rest
    else if name = n then (name, b) :: rest
    else (n, c) :: insertByName name b rest

end EquivalentCircuit
