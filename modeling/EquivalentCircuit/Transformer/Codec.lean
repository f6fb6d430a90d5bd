import EquivalentCircuit.TapChanger.Codec
import EquivalentCircuit.Diagnostics.Codec
import EquivalentCircuit.Transformer.Ends
import EquivalentCircuit.Transformer.Model
import EquivalentCircuit.Transformer.PiSection

/-! Transformer ends, converted models and conversions as JSON records. -/

namespace EquivalentCircuit

def WindingIndex.name (w : WindingIndex) : String := toString w.number

def WindingIndex.ofName? (s : String) : Option WindingIndex := all.find? (·.name = s)

/-- Exactly three values in winding order. -/
def PerWinding.ofJson? {β : Type} (read : Json → Option β) (j : Json) : Option (PerWinding β) :=
  (j.toList? read).bind PerWinding.ofList?

def PerWinding.toJson {β : Type} (write : β → Json) (p : PerWinding β) : Json :=
  .list (p.toList.map write)

namespace WindingEnd

def names : List String :=
  ["r", "x", "g", "b", "rated_u", "terminal", "phase_angle_clock", "ratio_tap_changer",
    "phase_tap_changer"]

def toJson (e : WindingEnd Float) : Json :=
  .record [
    ("r", .ofFloat e.r), ("x", .ofFloat e.x), ("g", .ofFloat e.g), ("b", .ofFloat e.b),
    ("rated_u", .ofFloat e.ratedU.value), ("terminal", .text e.terminal),
    ("phase_angle_clock", .ofNat e.clock.toNat),
    ("ratio_tap_changer", .ofOption TapChanger.toJson e.ratioTapChanger),
    ("phase_tap_changer", .ofOption TapChanger.toJson e.phaseTapChanger)]

def ofJson? (j : Json) : Option (WindingEnd Float) := do
  let f ← j.fields? names
  return {
    r := ← f.required "r" Json.toFloat?
    x := ← f.required "x" Json.toFloat?
    g := ← f.defaulted "g" 0.0 Json.toFloat?
    b := ← f.defaulted "b" 0.0 Json.toFloat?
    ratedU := ⟨← f.required "rated_u" Json.toFloat?⟩
    terminal := ← f.required "terminal" Json.toText?
    clock := ← f.defaulted "phase_angle_clock" 0 Json.toUInt8?
    ratioTapChanger := ← f.defaulted "ratio_tap_changer" none (Json.toOption? TapChanger.ofJson?)
    phaseTapChanger := ← f.defaulted "phase_tap_changer" none (Json.toOption? TapChanger.ofJson?) }

end WindingEnd

namespace TwoWindingEnds

def toJson (t : TwoWindingEnds Float) : Json :=
  .record [("id", .text t.id), ("end1", t.end1.toJson), ("end2", t.end2.toJson)]

def ofJson? (j : Json) : Option (TwoWindingEnds Float) := do
  let f ← j.fields? ["id", "end1", "end2"]
  return {
    id := ← f.required "id" Json.toText?
    end1 := ← f.required "end1" WindingEnd.ofJson?
    end2 := ← f.required "end2" WindingEnd.ofJson? }

end TwoWindingEnds

namespace ThreeWindingEnds

def toJson (t : ThreeWindingEnds Float) : Json :=
  .record [("id", .text t.id), ("windings", t.windings.toJson WindingEnd.toJson)]

def ofJson? (j : Json) : Option (ThreeWindingEnds Float) := do
  let f ← j.fields? ["id", "windings"]
  return {
    id := ← f.required "id" Json.toText?
    windings := ← f.required "windings" (PerWinding.ofJson? WindingEnd.ofJson?) }

end ThreeWindingEnds

namespace PiSection

def toJson (p : PiSection Float) : Json :=
  .record [
    ("r", .ofFloat p.r), ("x", .ofFloat p.x), ("g1", .ofFloat p.g1), ("b1", .ofFloat p.b1),
    ("g2", .ofFloat p.g2), ("b2", .ofFloat p.b2)]

def ofJson? (j : Json) : Option (PiSection Float) := do
  let f ← j.fields? ["r", "x", "g1", "b1", "g2", "b2"]
  return {
    r := ← f.required "r" Json.toFloat?
    x := ← f.required "x" Json.toFloat?
    g1 := ← f.required "g1" Json.toFloat?
    b1 := ← f.required "b1" Json.toFloat?
    g2 := ← f.required "g2" Json.toFloat?
    b2 := ← f.required "b2" Json.toFloat? }

end PiSection

namespace TwoWindingModel

def End1.toJson (e : End1 Float) : Json :=
  .record [
    ("g", .ofFloat e.g), ("b", .ofFloat e.b),
    ("ratio_tap_changer", .ofOption TapChanger.toJson e.ratioTapChanger),
    ("phase_tap_changer", .ofOption TapChanger.toJson e.phaseTapChanger),
    ("rated_u", .ofFloat e.ratedU.value), ("terminal", .text e.terminal)]

def End1.ofJson? (j : Json) : Option (End1 Float) := do
  let f ← j.fields? ["g", "b", "ratio_tap_changer", "phase_tap_changer", "rated_u", "terminal"]
  return {
    g := ← f.required "g" Json.toFloat?
    b := ← f.required "b" Json.toFloat?
    ratioTapChanger := ← f.optional "ratio_tap_changer" TapChanger.ofJson?
    phaseTapChanger := ← f.optional "phase_tap_changer" TapChanger.ofJson?
    ratedU := ⟨← f.required "rated_u" Json.toFloat?⟩
    terminal := ← f.required "terminal" Json.toText? }

def End2.toJson (e : End2 Float) : Json :=
  .record [("rated_u", .ofFloat e.ratedU.value), ("terminal", .text e.terminal)]

def End2.ofJson? (j : Json) : Option (End2 Float) := do
  let f ← j.fields? ["rated_u", "terminal"]
  return {
    ratedU := ⟨← f.required "rated_u" Json.toFloat?⟩
    terminal := ← f.required "terminal" Json.toText? }

def toJson (t : TwoWindingModel Float) : Json :=
  .record [
    ("id", .text t.id), ("r", .ofFloat t.r), ("x", .ofFloat t.x), ("end1", t.end1.toJson),
    ("end2", t.end2.toJson), ("phase_angle_clock", .ofNat t.clock.toNat)]

def ofJson? (j : Json) : Option (TwoWindingModel Float) := do
  let f ← j.fields? ["id", "r", "x", "end1", "end2", "phase_angle_clock"]
  return {
    id := ← f.required "id" Json.toText?
    r := ← f.required "r" Json.toFloat?
    x := ← f.required "x" Json.toFloat?
    end1 := ← f.required "end1" End1.ofJson?
    end2 := ← f.required "end2" End2.ofJson?
    clock := ← f.defaulted "phase_angle_clock" 0 Json.toUInt8? }

end TwoWindingModel

namespace LegModel

def End1.toJson (e : End1 Float) : Json :=
  .record [
    ("g", .ofFloat e.g), ("b", .ofFloat e.b),
    ("ratio_tap_changer", .ofOption TapChanger.toJson e.ratioTapChanger),
    ("phase_tap_changer", .ofOption TapChanger.toJson e.phaseTapChanger),
    ("phase_angle_clock", .ofNat e.clock.toNat), ("rated_u", .ofFloat e.ratedU.value),
    ("terminal", .text e.terminal)]

def End1.ofJson? (j : Json) : Option (End1 Float) := do
  let f ← j.fields?
    ["g", "b", "ratio_tap_changer", "phase_tap_changer", "phase_angle_clock", "rated_u", "terminal"]
  return {
    g := ← f.required "g" Json.toFloat?
    b := ← f.required "b" Json.toFloat?
    ratioTapChanger := ← f.optional "ratio_tap_changer" TapChanger.ofJson?
    phaseTapChanger := ← f.optional "phase_tap_changer" TapChanger.ofJson?
    clock := ← f.defaulted "phase_angle_clock" 0 Json.toUInt8?
    ratedU := ⟨← f.required "rated_u" Json.toFloat?⟩
    terminal := ← f.required "terminal" Json.toText? }

def End2.toJson (e : End2 Float) : Json := .record [("g", .ofFloat e.g), ("b", .ofFloat e.b)]

def End2.ofJson? (j : Json) : Option (End2 Float) := do
  let f ← j.fields? ["g", "b"]
  return {
    g := ← f.required "g" Json.toFloat?
    b := ← f.required "b" Json.toFloat? }

def toJson (l : LegModel Float) : Json :=
  .record [
    ("index", .text l.index.name), ("r", .ofFloat l.r), ("x", .ofFloat l.x),
    ("end1", l.end1.toJson), ("end2", l.end2.toJson)]

def ofJson? (j : Json) : Option (LegModel Float) := do
  let f ← j.fields? ["index", "r", "x", "end1", "end2"]
  return {
    index := ← f.required "index" (Json.toChoice? WindingIndex.ofName?)
    r := ← f.required "r" Json.toFloat?
    x := ← f.required "x" Json.toFloat?
    end1 := ← f.required "end1" End1.ofJson?
    end2 := ← f.required "end2" End2.ofJson? }

end LegModel

namespace ThreeWindingModel

def toJson (t : ThreeWindingModel Float) : Json :=
  .record [
    ("id", .text t.id), ("rated_uf", .ofFloat t.ratedUf.value),
    ("windings", t.legs.toJson LegModel.toJson)]

def ofJson? (j : Json) : Option (ThreeWindingModel Float) := do
  let f ← j.fields? ["id", "rated_uf", "windings"]
  return {
    id := ← f.required "id" Json.toText?
    ratedUf := ⟨← f.required "rated_uf" Json.toFloat?⟩
    legs := ← f.required "windings" (PerWinding.ofJson? LegModel.ofJson?) }

end ThreeWindingModel

namespace TapChangerKind

def name : TapChangerKind → String
  | ratio => "ratio"
  | phase => "phase"

def ofName? (s : String) : Option TapChangerKind := [ratio, phase].find? (·.name = s)

end TapChangerKind

namespace ControlRecord

def toJson (c : ControlRecord Float) : Json :=
  .record ([("kind", .text c.kind.name)] ++
    Json.memberOf "winding" (fun w : WindingIndex => .text w.name) c.winding ++
    [("tap_changer", .text c.tapChanger), ("regulation", c.regulation.toJson)])

def ofJson? (j : Json) : Option (ControlRecord Float) := do
  let f ← j.fields? ["kind", "winding", "tap_changer", "regulation"]
  return {
    kind := ← f.required "kind" (Json.toChoice? TapChangerKind.ofName?)
    winding := ← f.defaulted "winding" none (Json.toOption? (Json.toChoice? WindingIndex.ofName?))
    tapChanger := ← f.required "tap_changer" Json.toText?
    regulation := ← f.required "regulation" Regulation.ofJson? }

def listToJson (cs : List (ControlRecord Float)) : Json := .list (cs.map toJson)

def listOfJson? (j : Json) : Option (List (ControlRecord Float)) := j.toList? ofJson?

end ControlRecord

namespace Conversion

variable {β : Type}

def toJson (write : β → Json) (c : Conversion Float β) : Json :=
  .record [
    ("model", write c.model), ("regulating", ControlRecord.listToJson c.controls),
    ("diagnostics", c.diagnostics.toJson)]

def ofJson? (read : Json → Option β) (j : Json) : Option (Conversion Float β) := do
  let f ← j.fields? ["model", "regulating", "diagnostics"]
  return {
    model := ← f.required "model" read
    controls := ← f.required "regulating" ControlRecord.listOfJson?
    diagnostics := ← f.required "diagnostics" Diagnostics.ofJson? }

end Conversion

end EquivalentCircuit
