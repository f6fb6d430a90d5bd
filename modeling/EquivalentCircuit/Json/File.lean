import EquivalentCircuit.Files.Attempt

/-! JSON texts in files. -/

namespace EquivalentCircuit

namespace Json

variable {m : Type → Type} [Monad m] [FileAccess m]

/-- What the text in a file stands for. -/
def load {β : Type} (ofJson? : Json → Option β) (path : String) : Attempt m β := do
  let text ← Attempt.readText (.reading path) path
  Attempt.ofOption (.parsing path) ((read? text).bind ofJson?)

/-- Writes the indented text with a final line end; the directory is made if need be. -/
def save (j : Json) (path : String) : Attempt m Unit := do
  match Path.parent? path with
  | none | some "" => pure ()
  | some directory =>
    Attempt.succeed (.makingOutputDirectory directory) (FileAccess.makeDirectories directory)
  Attempt.succeed (.creating path) (FileAccess.write path (j.pretty ++ "\n").toUTF8)

end Json

end EquivalentCircuit
