import EquivalentCircuit.Json.Fields
import EquivalentCircuit.Policy.Tree

/-! Policies as JSON records. -/

namespace EquivalentCircuit

instance : PolicySource Json where
  members? names j := (j.fields? names).map (·.members)
  flag? := Json.toBool?
  name? := Json.toChoice? some
  triple? j := (j.toList? some).bind PerWinding.ofList?

instance : PolicyTarget Json where
  ofMembers := .record
  ofFlag := .bool
  ofName := .text
  ofTriple vs := .list vs.toList

end EquivalentCircuit
