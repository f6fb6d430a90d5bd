import EquivalentCircuit.Document.Basic
import EquivalentCircuit.TapChanger.Codec

/-! Documents of raw transformers as JSON records. -/

namespace EquivalentCircuit

namespace RawEnd

def names : List String :=
  ["r", "x", "g", "b", "rated_u", "terminal", "phase_angle_clock", "ratio_tap_changer",
    "phase_tap_changer"]

def toJson (e : RawEnd Float) : Json :=
  .record ([
    ("r", .ofFloat e.r), ("x", .ofFloat e.x), ("g", .ofFloat e.g), ("b", .ofFloat e.b),
    ("rated_u", .ofFloat e.ratedU), ("terminal", .text e.terminal),
    ("phase_angle_clock", .ofNat e.clock.toNat)] ++
    Json.memberOf "ratio_tap_changer" TapChangerSpec.toJson e.ratioTapChanger ++
    Json.memberOf "phase_tap_changer" TapChangerSpec.toJson e.phaseTapChanger)

def ofJson? (j : Json) : Option (RawEnd Float) := do
  let f ← j.fields? names
  return {
    r := ← f.required "r" Json.toFloat?
    x := ← f.required "x" Json.toFloat?
    g := ← f.defaulted "g" 0.0 Json.toFloat?
    b := ← f.defaulted "b" 0.0 Json.toFloat?
    ratedU := ← f.required "rated_u" Json.toFloat?
    terminal := ← f.required "terminal" Json.toText?
    clock := ← f.defaulted "phase_angle_clock" 0 Json.toUInt8?
    ratioTapChanger := ← f.defaulted "ratio_tap_changer" none (Json.toOption? TapChangerSpec.ofJson?)
    phaseTapChanger := ← f.defaulted "phase_tap_changer" none (Json.toOption? TapChangerSpec.ofJson?) }

end RawEnd

namespace RawTwoWinding

def toJson (t : RawTwoWinding Float) : Json :=
  .record [("id", .text t.id), ("end1", t.end1.toJson), ("end2", t.end2.toJson)]

def ofJson? (j : Json) : Option (RawTwoWinding Float) := do
  let f ← j.fields? ["id", "end1", "end2"]
  return {
    id := ← f.required "id" Json.toText?
    end1 := ← f.required "end1" RawEnd.ofJson?
    end2 := ← f.required "end2" RawEnd.ofJson? }

end RawTwoWinding

namespace RawThreeWinding

def toJson (t : RawThreeWinding Float) : Json :=
  .record [("id", .text t.id), ("windings", .list (t.windings.map RawEnd.toJson))]

def ofJson? (j : Json) : Option (RawThreeWinding Float) := do
  let f ← j.fields? ["id", "windings"]
  return {
    id := ← f.required "id" Json.toText?
    windings := ← f.required "windings" (Json.toList? RawEnd.ofJson?) }

end RawThreeWinding

namespace Document

def toJson (d : Document Float) : Json :=
  .record [
    ("two_winding", .list (d.twoWinding.map RawTwoWinding.toJson)),
    ("three_winding", .list (d.threeWinding.map RawThreeWinding.toJson))]

def ofJson? (j : Json) : Option (Document Float) := do
  let f ← j.fields? ["two_winding", "three_winding"]
  return {
    twoWinding := ← f.defaulted "two_winding" [] (Json.toList? RawTwoWinding.ofJson?)
    threeWinding := ← f.defaulted "three_winding" [] (Json.toList? RawThreeWinding.ofJson?) }

end Document

end EquivalentCircuit
