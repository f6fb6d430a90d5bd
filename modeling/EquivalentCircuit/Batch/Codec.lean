import EquivalentCircuit.Batch.Basic
import EquivalentCircuit.Transformer.Codec

/-! Records and converted documents of a run as JSON. -/

namespace EquivalentCircuit

def TransformerKind.ofName? (s : String) : Option TransformerKind :=
  [TransformerKind.twoWinding, .threeWinding].find? (·.name = s)

namespace ConversionRecord

def toJson (r : ConversionRecord) : Json :=
  .record [
    ("transformer_id", .text r.id), ("kind", .text r.kind.name), ("status", .text r.status),
    ("error", .ofOption Json.text r.error), ("diagnostics", r.diagnostics.toJson)]

def ofJson? (j : Json) : Option ConversionRecord := do
  let f ← j.fields? ["transformer_id", "kind", "status", "error", "diagnostics"]
  return {
    id := ← f.required "transformer_id" Json.toText?
    kind := ← f.required "kind" (Json.toChoice? TransformerKind.ofName?)
    status := ← f.required "status" Json.toText?
    error := ← f.optional "error" Json.toText?
    diagnostics := ← f.defaulted "diagnostics" [] Diagnostics.ofJson? }

end ConversionRecord

/-- Values by name; of equal names the last one counts. -/
def Json.toMap? {β : Type} (read : Json → Option β) : Json → Option (List (String × β))
  | record members => do
    let ms ← members.mapM fun (n, j) => (read j).map (n, ·)
    return ms.foldl (fun done (n, b) => insertByName n b done) []
  | _ => none

namespace ConvertedDocument

def toJson (d : ConvertedDocument) : Json :=
  .record [
    ("two_winding", .list (d.twoWinding.map TwoWindingModel.toJson)),
    ("three_winding", .list (d.threeWinding.map ThreeWindingModel.toJson)),
    ("regulating_controls", .record (d.controls.map fun (id, cs) => (id, ControlRecord.listToJson cs)))]

def ofJson? (j : Json) : Option ConvertedDocument := do
  let f ← j.fields? ["two_winding", "three_winding", "regulating_controls"]
  return {
    twoWinding := ← f.required "two_winding" (Json.toList? TwoWindingModel.ofJson?)
    threeWinding := ← f.required "three_winding" (Json.toList? ThreeWindingModel.ofJson?)
    controls := ← f.required "regulating_controls" (Json.toMap? ControlRecord.listOfJson?) }

end ConvertedDocument

end EquivalentCircuit
