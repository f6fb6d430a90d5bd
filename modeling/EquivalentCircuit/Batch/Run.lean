import EquivalentCircuit.Batch.Manifest

/-! A run over a document, with a manifest if one is wanted. How many threads work on it is not part
of its settings: the outcome of a job is a function of that job alone, and outcomes are merged in the
order of the jobs, whichever was finished first. -/

namespace EquivalentCircuit

structure BatchSettings where
  policy : Policy
  /-- Where the manifest goes. -/
  manifest : Option String
  /-- What the manifest calls the input. -/
  label : String

variable {m : Type → Type} [Monad m] [FileAccess m]

/-- Converts a document at a given time. -/
def Document.run (d : Document Float) (s : BatchSettings) (now : Timestamp) :
    Attempt m BatchSummary := do
  let summary := d.convert s.policy
  match s.manifest with
  | some path => (BatchManifest.ofSummary now s.label summary).save path
  | none => pure ()
  return summary

end EquivalentCircuit
