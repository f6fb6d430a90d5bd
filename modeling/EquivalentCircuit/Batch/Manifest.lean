import EquivalentCircuit.Batch.Codec
import EquivalentCircuit.Files.Attempt
import EquivalentCircuit.Time.Timestamp

/-! The manifest of a run: when it was made, of what, and the records of all jobs. -/

namespace EquivalentCircuit

structure BatchManifest where
  createdAt : Timestamp
  input : String
  transformers : Nat
  success : Nat
  failure : Nat
  conditions : Nat
  records : List ConversionRecord
deriving DecidableEq

namespace BatchManifest

def ofSummary (createdAt : Timestamp) (input : String) (s : BatchSummary) : BatchManifest :=
  ⟨createdAt, input, s.records.length, s.success, s.failure, s.conditions, s.records⟩

def names : List String :=
  ["created_at", "input", "num_transformers", "success", "failure", "conditions", "records"]

def toJson (b : BatchManifest) : Json :=
  .record [
    ("created_at", .text b.createdAt.text), ("input", .text b.input),
    ("num_transformers", .ofNat b.transformers), ("success", .ofNat b.success),
    ("failure", .ofNat b.failure), ("conditions", .ofNat b.conditions),
    ("records", .list (b.records.map ConversionRecord.toJson))]

def ofJson? (j : Json) : Option BatchManifest := do
  let f ← j.fields? names
  return {
    createdAt := ← f.required "created_at" fun t => t.toText?.bind Timestamp.read?
    input := ← f.required "input" Json.toText?
    transformers := ← f.required "num_transformers" Json.toNat?
    success := ← f.required "success" Json.toNat?
    failure := ← f.required "failure" Json.toNat?
    conditions := ← f.required "conditions" Json.toNat?
    records := ← f.required "records" (Json.toList? ConversionRecord.ofJson?) }

variable {m : Type → Type} [Monad m] [FileAccess m]

/-- The manifest in a file. What its text skips need not be UTF-8. -/
def load (path : String) : Attempt m BatchManifest := do
  let content : Content ← ExceptT.lift (FileAccess.read path)
  match content with
  | .missing => throw [.openingManifest path]
  | _ => Attempt.ofOption (.parsingManifest path) ((content.bytes?.bind Json.readBytes?).bind ofJson?)

/-- Writes the indented text without a final line end; the directory is made if need be. -/
def save (b : BatchManifest) (path : String) : Attempt m Unit := do
  match Path.parent? path with
  | none | some "" => pure ()
  | some directory =>
    Attempt.succeed (.makingManifestDirectory directory) (FileAccess.makeDirectories directory)
  Attempt.succeed (.writingManifest path) (FileAccess.write path b.toJson.pretty.toUTF8)

end BatchManifest

end EquivalentCircuit
