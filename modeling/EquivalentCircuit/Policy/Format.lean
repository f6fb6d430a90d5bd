import EquivalentCircuit.Files.Path
import EquivalentCircuit.Json.Printer
import EquivalentCircuit.Json.Reader
import EquivalentCircuit.Policy.Json
import EquivalentCircuit.Policy.Toml
import EquivalentCircuit.Policy.Yaml
import EquivalentCircuit.Toml.Printer
import EquivalentCircuit.Toml.Reader
import EquivalentCircuit.Yaml.Printer

/-! The formats of policy files. -/

namespace EquivalentCircuit

inductive PolicyFormat where
  | toml
  | yaml
  | json
deriving DecidableEq

namespace PolicyFormat

def name : PolicyFormat → String
  | toml => "toml"
  | yaml => "yaml"
  | json => "json"

/-- Extensions are compared without regard to case. -/
def ofExtension? (extension : String) : Option PolicyFormat :=
  match extension.map Char.toLower with
  | "toml" => some toml
  | "yaml" | "yml" => some yaml
  | "json" => some json
  | _ => none

def ofPath? (path : String) : Option PolicyFormat := (Path.extension? path).bind ofExtension?

end PolicyFormat

namespace Policy

/-- The policy that a text of a format describes. -/
def read? (f : PolicyFormat) (s : String) : Option Policy :=
  match f with
  | .toml => (Toml.read? s).bind ofTree?
  | .yaml => (Yaml.read? s).bind fun document => ofTree? (Yaml.Part.mk document document)
  | .json => (Json.read? s).bind ofTree?

/-- The text of a policy in a format. -/
def text (f : PolicyFormat) (p : Policy) : String :=
  match f with
  | .toml => Toml.documentText (Toml.membersOf p.toTree)
  | .yaml => (p.toTree : Yaml.Node).text
  | .json => (p.toTree : Json).pretty

/-- The policy of a text whose format is not known: TOML, YAML and JSON are tried in that order. -/
def readAny? (s : String) : Option Policy :=
  (read? .toml s).or ((read? .yaml s).or (read? .json s))

end Policy

end EquivalentCircuit
