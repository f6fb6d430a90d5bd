import EquivalentCircuit.Policy.Tree
import EquivalentCircuit.Yaml.Node

/-! Policies as YAML mappings. -/

namespace EquivalentCircuit

namespace Yaml

/-- A node of a document, in which its references are looked up. -/
structure Part where
  document : Node
  node : Node

namespace Part

def value? (p : Part) : Option Node := p.document.resolve p.node

/-- The text of a key, which must be a scalar. -/
def key? (p : Part) : Option String :=
  match p.value? with
  | some (.scalar _ _ _ text) => some text
  | _ => none

/-- The members of the given names, each at most once. Nothing at all stands for a record without
members. -/
def members? (names : List String) (p : Part) : Option (List (String × Part)) :=
  match p.value? with
  | some (.mapping _ entries) => do
    let ms ← entries.mapM fun (k, v) => (key? ⟨p.document, k⟩).map (·, Part.mk p.document v)
    let known := ms.filter fun m => names.contains m.1
    guard (known.map Prod.fst).Nodup
    return known
  | some (.scalar _ _ .plain "") => some []
  | _ => none

def flagOf? (text : String) : Option Bool :=
  if text ∈ ["true", "True", "TRUE"] then some true
  else if text ∈ ["false", "False", "FALSE"] then some false
  else none

/-- A flag is plain, or a literal text with the tag of flags. -/
def flag? (p : Part) : Option Bool :=
  match p.value? with
  | some (.scalar _ _ .plain text) => flagOf? text
  | some (.scalar _ (some tag) .literal text) => if tag = Tag.flag then flagOf? text else none
  | _ => none

def isNull (text : String) : Bool := text ∈ ["", "~", "null", "Null", "NULL"]

/-- The name of a choice, as a text or as a local tag on nothing. -/
def name? (p : Part) : Option String :=
  match p.value? with
  | some (.scalar _ tag style text) =>
    match tag.bind Tag.localName? with
    | some name => if style = .plain ∧ isNull text then some name else none
    | none => some text
  | _ => none

def triple? (p : Part) : Option (PerWinding Part) :=
  match p.value? with
  | some (.sequence _ items) => PerWinding.ofList? (items.map (Part.mk p.document))
  | _ => none

end Part

namespace Node

def plain (text : String) : Node := scalar none none .plain text

end Node

end Yaml

instance : PolicySource Yaml.Part where
  members? := Yaml.Part.members?
  flag? := Yaml.Part.flag?
  name? := Yaml.Part.name?
  triple? := Yaml.Part.triple?

instance : PolicyTarget Yaml.Node where
  ofMembers ms := .mapping none (ms.map fun (name, v) => (.plain name, v))
  ofFlag b := .plain (if b then "true" else "false")
  ofName := .plain
  ofTriple vs := .sequence none vs.toList

end EquivalentCircuit
