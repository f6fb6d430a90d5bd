import EquivalentCircuit.Document.Basic
import EquivalentCircuit.Numeric.MachineScalar
import EquivalentCircuit.Text.ByName
import EquivalentCircuit.Transformer.ThreeWinding
import EquivalentCircuit.Transformer.TwoWinding

/-! Converting every transformer of a document. Each job has an outcome of its own; a failure or a
repeated id concerns that job alone, and of jobs with one id the first one counts. -/

namespace EquivalentCircuit

inductive TransformerKind where
  | twoWinding
  | threeWinding
deriving DecidableEq

def TransformerKind.name : TransformerKind → String
  | .twoWinding => "two-winding"
  | .threeWinding => "three-winding"

/-- One transformer to convert. -/
inductive Job where
  | two (raw : RawTwoWinding Float)
  | three (raw : RawThreeWinding Float)

inductive ConvertedJob where
  | two (conversion : Conversion Float (TwoWindingModel Float))
  | three (conversion : Conversion Float (ThreeWindingModel Float))

/-- What a run tells of one job. -/
structure ConversionRecord where
  id : String
  kind : TransformerKind
  status : String
  error : Option String
  diagnostics : Diagnostics
deriving DecidableEq

/-- The record of a job with what it was converted to. -/
structure Outcome where
  record : ConversionRecord
  converted : Option ConvertedJob

/-- The converted transformers of a run, their controls by transformer id in ascending order. -/
structure ConvertedDocument where
  twoWinding : List (TwoWindingModel Float)
  threeWinding : List (ThreeWindingModel Float)
  controls : List (String × List (ControlRecord Float))

structure BatchSummary where
  success : Nat
  failure : Nat
  /-- Conditions met by the transformers that were converted. -/
  conditions : Nat
  converted : ConvertedDocument
  records : List ConversionRecord

namespace ConversionRecord

def isOk (r : ConversionRecord) : Bool := r.status == "ok"

/-- The record of a job whose id occurred before. -/
def asDuplicate (r : ConversionRecord) : ConversionRecord :=
  let message := s!"duplicate transformer id '{r.id}'"
  { r with
    status := "error"
    error := some message
    diagnostics := r.diagnostics ++ [.error .malformedInput message r.id] }

end ConversionRecord

namespace ConvertedJob

def id : ConvertedJob → String
  | two c => c.model.id
  | three c => c.model.id

def diagnostics : ConvertedJob → Diagnostics
  | two c => c.diagnostics
  | three c => c.diagnostics

def controls : ConvertedJob → List (ControlRecord Float)
  | two c => c.controls
  | three c => c.controls

def twoWinding? : ConvertedJob → Option (TwoWindingModel Float)
  | two c => some c.model
  | three _ => none

def threeWinding? : ConvertedJob → Option (ThreeWindingModel Float)
  | two _ => none
  | three c => some c.model

end ConvertedJob

namespace Job

def id : Job → String
  | two raw => raw.id
  | three raw => raw.id

def kind : Job → TransformerKind
  | two _ => .twoWinding
  | three _ => .threeWinding

def convert (p : Policy) : Job → Checked Float ConvertedJob
  | two raw => do return .two (← (← raw.build).convert p)
  | three raw => do return .three (← (← raw.build).convert p)

def outcome (p : Policy) (j : Job) : Outcome :=
  match j.convert p with
  | .ok converted => ⟨⟨j.id, j.kind, "ok", none, converted.diagnostics⟩, some converted⟩
  | .error malformed =>
    let message := malformed.message
    ⟨⟨j.id, j.kind, "error", some message, [.error .malformedInput message j.id]⟩, none⟩

/-- The outcome of a job after jobs with the ids `seen`. -/
def outcomeAfter (p : Policy) (seen : List String) (j : Job) : Outcome :=
  let outcome := j.outcome p
  if seen.contains j.id then ⟨outcome.record.asDuplicate, none⟩ else outcome

/-- The outcomes of jobs in order. -/
def outcomes (p : Policy) : List String → List Job → List Outcome
  | _, [] => []
  | seen, j :: js => j.outcomeAfter p seen :: outcomes p (j.id :: seen) js

end Job

/-- Jobs in document order, two-winding transformers first. -/
def Document.jobs (d : Document Float) : List Job :=
  d.twoWinding.map .two ++ d.threeWinding.map .three

namespace ConvertedDocument

def addControls (controls : List (String × List (ControlRecord Float))) (c : ConvertedJob) :
    List (String × List (ControlRecord Float)) :=
  if c.controls.isEmpty then controls else insertByName c.id c.controls controls

def ofJobs (cs : List ConvertedJob) : ConvertedDocument where
  twoWinding := cs.filterMap ConvertedJob.twoWinding?
  threeWinding := cs.filterMap ConvertedJob.threeWinding?
  controls := cs.foldl addControls []

end ConvertedDocument

namespace BatchSummary

def ofOutcomes (outcomes : List Outcome) : BatchSummary :=
  let records := outcomes.map (·.record)
  let ok := records.filter (·.isOk)
  { success := ok.length
    failure := records.length - ok.length
    conditions := (ok.map (·.diagnostics.length)).foldr (· + ·) 0
    converted := .ofJobs (outcomes.filterMap (·.converted))
    records := records }

/-- Did every transformer convert without any condition? -/
def isClean (s : BatchSummary) : Bool := s.failure == 0 && s.conditions == 0

end BatchSummary

/-- Converts a document. -/
def Document.convert (d : Document Float) (p : Policy) : BatchSummary :=
  .ofOutcomes (Job.outcomes p [] d.jobs)

end EquivalentCircuit
