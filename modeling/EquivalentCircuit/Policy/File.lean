import EquivalentCircuit.Files.Attempt

/-! Policies in files. -/

namespace EquivalentCircuit

namespace Policy

variable {m : Type → Type} [Monad m] [FileAccess m]

/-- The policy in a file, in the format of its extension or in any format. -/
def load (path : String) : Attempt m Policy := do
  let text ← Attempt.readText (.readingPolicy path) path
  match PolicyFormat.ofPath? path with
  | some f => Attempt.during (.parsingPolicy path) (Attempt.ofOption (.parsingFormat f) (read? f text))
  | none => Attempt.ofOption (.parsingPolicy path) (readAny? text)

end Policy

end EquivalentCircuit
