import EquivalentCircuit.Batch.Run
import EquivalentCircuit.Command.Line
import EquivalentCircuit.Document.File
import EquivalentCircuit.Json.File
import EquivalentCircuit.Policy.File

/-! Running the commands. A command works on files first, then prints, and last a strict run is
judged. -/

namespace EquivalentCircuit

inductive CommandFailure where
  | interrupted (failure : Failure)
  /-- A strict run was not clean. -/
  | notClean (failures conditions : Nat)
deriving DecidableEq

def CommandFailure.text : CommandFailure → String
  | interrupted failure => failure.text
  | notClean failures conditions =>
    s!"strict mode: {failures} transformers failed and {conditions} conditions were reported"

/-- What a command printed and whether it failed. -/
structure Report where
  printed : String
  failure : Option CommandFailure
deriving DecidableEq

/-- Lines with their ends. -/
def unlines (lines : List String) : String := String.join (lines.map (· ++ "\n"))

variable {m : Type → Type} [Monad m] [FileAccess m]

namespace ConvertArguments

/-- Loads the policy and the document, converts, and writes the manifest and the models. -/
def perform (a : ConvertArguments) (now : Timestamp) : Attempt m BatchSummary := do
  let policy ← match a.policy with
    | some path => Policy.load path
    | none => pure {}
  let document ← Document.load a.input
  let summary ← document.run ⟨policy, a.manifest, a.input⟩ now
  Attempt.during (.writingModels a.output) (summary.converted.toJson.save a.output)
  return summary

def lines (a : ConvertArguments) (s : BatchSummary) : List String :=
  let total := s.success + s.failure
  let converted := s!"Converted {s.success} of {total} transformers "
  let problems := s!"({s.failure} failed, {s.conditions} conditions) -> "
  (converted ++ problems ++ a.output) :: a.manifest.toList.map ("Manifest: " ++ ·)

/-- Does a run with this summary count as a success? -/
def verdict (a : ConvertArguments) (s : BatchSummary) : Option CommandFailure :=
  if a.strict && !s.isClean then some (.notClean s.failure s.conditions) else none

def run (a : ConvertArguments) (now : Timestamp) : m Report := do
  match ← (a.perform now).run with
  | .ok s => return ⟨unlines (a.lines s), a.verdict s⟩
  | .error f => return ⟨"", some (.interrupted f)⟩

end ConvertArguments

namespace Policy

def flagText (b : Bool) : String := if b then "true" else "false"

def legLine (number : Nat) (l : LegPolicy) : String :=
  s!"    winding {number}: ratio_phase_network_side={flagText l.tapsAtNetworkSide} " ++
    s!"shunt={l.shunt.name} ratio0_at_star_bus={flagText l.ratioAtStarBus}"

/-- A policy in words for the eye. -/
def lines (p : Policy) : List String :=
  [s!"  xfmr2: ratio_phase={p.twoWinding.taps.name} shunt={p.twoWinding.shunt.name} " ++
      s!"structural_ratio={p.twoWinding.structuralRatio.name} " ++
      s!"phase_negate={flagText p.twoWinding.phaseNegate}",
    s!"  xfmr3: rated_uf={p.threeWinding.starVoltage.name}",
    legLine 1 p.threeWinding.legs.one, legLine 2 p.threeWinding.legs.two,
    legLine 3 p.threeWinding.legs.three,
    s!"  phase_angle_clock_enabled={flagText p.clocks}"]

end Policy

namespace Command

/-- The text with a line end, which it may have already. -/
def endLine (s : String) : String := if s.endsWith "\n" then s else s ++ "\n"

def run (now : Timestamp) : Command → m Report
  | convert a => a.run now
  | showDefaults f => return ⟨endLine (({} : Policy).text f), none⟩
  | checkPolicy path => do
    match ← (Policy.load path).run with
    | .ok p => return ⟨unlines (s!"Configuration OK: {path}" :: p.lines), none⟩
    | .error f => return ⟨"", some (.interrupted f)⟩

end Command

end EquivalentCircuit
