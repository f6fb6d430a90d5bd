import EquivalentCircuit.Document.Codec
import EquivalentCircuit.Files.Attempt

/-! Documents of raw transformers in files. -/

namespace EquivalentCircuit

namespace Document

variable {m : Type → Type} [Monad m] [FileAccess m]

def load (path : String) : Attempt m (Document Float) := do
  let text ← Attempt.readText (.readingDocument path) path
  Attempt.ofOption (.parsingDocument path) ((Json.read? text).bind ofJson?)

end Document

end EquivalentCircuit
