import EquivalentCircuit.Diagnostics.Basic
import EquivalentCircuit.Json.Fields

/-! Issues and diagnostics as JSON records. Empty diagnostics are an empty record. -/

namespace EquivalentCircuit

def Severity.ofName? (s : String) : Option Severity :=
  [Severity.warning, .error].find? (·.name = s)

def Condition.ofName? (s : String) : Option Condition :=
  [Condition.conflictingRegulation, .unsupportedModeling, .malformedInput].find? (·.name = s)

namespace Issue

def names : List String := ["severity", "kind", "message", "entity"]

def toJson (i : Issue) : Json :=
  .record ([("severity", .text i.severity.name), ("kind", .text i.condition.name),
    ("message", .text i.message)] ++ Json.memberOf "entity" Json.text i.entity)

def ofJson? (j : Json) : Option Issue := do
  let f ← j.fields? names
  return {
    severity := ← f.required "severity" (Json.toChoice? Severity.ofName?)
    condition := ← f.required "kind" (Json.toChoice? Condition.ofName?)
    message := ← f.required "message" Json.toText?
    entity := ← f.defaulted "entity" none (Json.toOption? Json.toText?) }

end Issue

namespace Diagnostics

def toJson : Diagnostics → Json
  | [] => .record []
  | issues => .record [("issues", .list (issues.map Issue.toJson))]

def ofJson? (j : Json) : Option Diagnostics := do
  let f ← j.fields? ["issues"]
  f.defaulted "issues" [] (Json.toList? Issue.ofJson?)

end Diagnostics

end EquivalentCircuit
