import EquivalentCircuit.TapChanger.Table
import EquivalentCircuit.Json.Fields

/-! Tap changers, their controls and their tables as JSON records. -/

namespace EquivalentCircuit

namespace RegulationMode

def all : List RegulationMode := [voltage, activePower, currentFlow, fixed]

def name : RegulationMode → String
  | voltage => "voltage"
  | activePower => "active_power"
  | currentFlow => "current_flow"
  | fixed => "fixed"

def ofName? (s : String) : Option RegulationMode := all.find? (·.name = s)

end RegulationMode

namespace TapStep

def names : List String := ["rho", "angle", "rdr", "rdx", "rdg", "rdb"]

def toJson (s : TapStep Float) : Json :=
  .record [
    ("rho", .ofFloat s.rho), ("angle", .ofFloat s.angle.value), ("rdr", .ofFloat s.rdr),
    ("rdx", .ofFloat s.rdx), ("rdg", .ofFloat s.rdg), ("rdb", .ofFloat s.rdb)]

def ofJson? (j : Json) : Option (TapStep Float) := do
  let f ← j.fields? names
  return {
    rho := ← f.required "rho" Json.toFloat?
    angle := ⟨← f.defaulted "angle" 0.0 Json.toFloat?⟩
    rdr := ← f.defaulted "rdr" 0.0 Json.toFloat?
    rdx := ← f.defaulted "rdx" 0.0 Json.toFloat?
    rdg := ← f.defaulted "rdg" 0.0 Json.toFloat?
    rdb := ← f.defaulted "rdb" 0.0 Json.toFloat? }

end TapStep

namespace Regulation

def names : List String := ["mode", "target_value", "target_deadband", "target_terminal", "enabled"]

def toJson (r : Regulation Float) : Json :=
  .record [
    ("mode", .text r.mode.name), ("target_value", .ofFloat r.targetValue),
    ("target_deadband", .ofFloat r.targetDeadband),
    ("target_terminal", .ofOption Json.text r.targetTerminal), ("enabled", .bool r.enabled)]

def ofJson? (j : Json) : Option (Regulation Float) := do
  let f ← j.fields? names
  return {
    mode := ← f.required "mode" (Json.toChoice? RegulationMode.ofName?)
    targetValue := ← f.required "target_value" Json.toFloat?
    targetDeadband := ← f.defaulted "target_deadband" 0.0 Json.toFloat?
    targetTerminal := ← f.defaulted "target_terminal" none (Json.toOption? Json.toText?)
    enabled := ← f.defaulted "enabled" false Json.toBool? }

end Regulation

namespace TapChanger

def names : List String :=
  ["id", "low_tap_position", "steps", "neutral_step", "tap_position", "regulation"]

def toJson (t : TapChanger Float) : Json :=
  .record [
    ("id", .text t.id), ("low_tap_position", .ofInt t.lowTapPosition.toInt),
    ("steps", .list (t.steps.map TapStep.toJson)), ("neutral_step", .ofNat t.neutralStep),
    ("tap_position", .ofNat t.tapPosition), ("regulation", .ofOption Regulation.toJson t.regulation)]

def ofJson? (j : Json) : Option (TapChanger Float) := do
  let f ← j.fields? names
  return {
    id := ← f.required "id" Json.toText?
    lowTapPosition := ← f.required "low_tap_position" Json.toInt32?
    steps := ← f.required "steps" (Json.toList? TapStep.ofJson?)
    neutralStep := ← f.required "neutral_step" Json.toNat?
    tapPosition := ← f.required "tap_position" Json.toNat?
    regulation := ← f.defaulted "regulation" none (Json.toOption? Regulation.ofJson?) }

end TapChanger

namespace TapTable

def rangeNames : List String := ["low_step", "high_step", "neutral_step"]

def rangeMembers (r : StepRange) : List (String × Json) :=
  [("low_step", .ofInt r.low.toInt), ("high_step", .ofInt r.high.toInt),
    ("neutral_step", .ofInt r.neutral.toInt)]

def members : TapTable Float → List (String × Json)
  | explicit low neutral steps =>
    [("low_tap_position", .ofInt low.toInt), ("neutral_position", .ofInt neutral.toInt),
      ("steps", .list (steps.map TapStep.toJson))]
  | linearRatio r increment => rangeMembers r ++ [("step_voltage_increment", .ofFloat increment)]
  | linearPhase r increment => rangeMembers r ++ [("step_phase_shift_increment", .ofFloat increment)]
  | symmetricalPhase r increment =>
    rangeMembers r ++ [("step_voltage_increment", .ofFloat increment)]
  | asymmetricalPhase r increment angle =>
    rangeMembers r ++
      [("step_voltage_increment", .ofFloat increment), ("winding_connection_angle", .ofFloat angle)]

def toJson (t : TapTable Float) : Json := .record (("kind", .text t.kind) :: t.members)

def range? (f : Fields) : Option StepRange := do
  return {
    low := ← f.required "low_step" Json.toInt32?
    high := ← f.required "high_step" Json.toInt32?
    neutral := ← f.required "neutral_step" Json.toInt32? }

/-- The table of the given kind in a record without its kind. -/
def ofKind? (kind : String) (j : Json) : Option (TapTable Float) := do
  match kind with
  | "table" =>
    let f ← j.fields? ["low_tap_position", "neutral_position", "steps"]
    return .explicit (← f.required "low_tap_position" Json.toInt32?)
      (← f.required "neutral_position" Json.toInt32?) (← f.required "steps" (Json.toList? TapStep.ofJson?))
  | "linear_ratio" =>
    let f ← j.fields? (rangeNames ++ ["step_voltage_increment"])
    return .linearRatio (← range? f) (← f.required "step_voltage_increment" Json.toFloat?)
  | "linear_phase" =>
    let f ← j.fields? (rangeNames ++ ["step_phase_shift_increment"])
    return .linearPhase (← range? f) (← f.required "step_phase_shift_increment" Json.toFloat?)
  | "symmetrical_phase" =>
    let f ← j.fields? (rangeNames ++ ["step_voltage_increment"])
    return .symmetricalPhase (← range? f) (← f.required "step_voltage_increment" Json.toFloat?)
  | "asymmetrical_phase" =>
    let f ← j.fields? (rangeNames ++ ["step_voltage_increment", "winding_connection_angle"])
    return .asymmetricalPhase (← range? f) (← f.required "step_voltage_increment" Json.toFloat?)
      (← f.required "winding_connection_angle" Json.toFloat?)
  | _ => none

/-- The kind may stand anywhere in the record, once, or first in a list. All members must be
readable, those of unknown names too. -/
def ofJson? : Json → Option (TapTable Float)
  | .record ms => do
    let rest := ms.filter fun m => m.1 ≠ "kind"
    guard (Json.readableMembers rest)
    match ms.filter fun m => m.1 = "kind" with
    | [(_, .text kind)] => ofKind? kind (.record rest)
    | _ => none
  | .list (.text kind :: rest) => do
    guard (Json.readableItems rest)
    ofKind? kind (.list rest)
  | _ => none

end TapTable

namespace TapChangerSpec

def names : List String := ["id", "table", "tap_position", "regulation"]

def toJson (s : TapChangerSpec Float) : Json :=
  .record ([("id", .text s.id), ("table", s.table.toJson)] ++
    Json.memberOf "tap_position" (fun p : Int32 => .ofInt p.toInt) s.tapPosition ++
    Json.memberOf "regulation" Regulation.toJson s.regulation)

def ofJson? (j : Json) : Option (TapChangerSpec Float) := do
  let f ← j.fields? names
  return {
    id := ← f.required "id" Json.toText?
    table := ← f.required "table" TapTable.ofJson?
    tapPosition := ← f.defaulted "tap_position" none (Json.toOption? Json.toInt32?)
    regulation := ← f.defaulted "regulation" none (Json.toOption? Regulation.ofJson?) }

end TapChangerSpec

end EquivalentCircuit
