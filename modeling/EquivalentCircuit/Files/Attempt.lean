import EquivalentCircuit.Files.Access
import EquivalentCircuit.Policy.Format

/-! Work with files that may fail. A failure tells what was being done, from the whole to the
part. -/

namespace EquivalentCircuit

inductive Activity where
  | readingPolicy (path : String)
  | parsingPolicy (path : String)
  | parsingFormat (format : PolicyFormat)
  | readingDocument (path : String)
  | parsingDocument (path : String)
  | reading (path : String)
  | parsing (path : String)
  | makingOutputDirectory (path : String)
  | creating (path : String)
  | writingModels (path : String)
  | makingManifestDirectory (path : String)
  | writingManifest (path : String)
  | openingManifest (path : String)
  | parsingManifest (path : String)
deriving DecidableEq

def Activity.text : Activity → String
  | readingPolicy path => s!"reading configuration '{path}'"
  | parsingPolicy path => s!"parsing configuration '{path}'"
  | parsingFormat format => s!"parsing configuration {format.name}"
  | readingDocument path => s!"reading input document '{path}'"
  | parsingDocument path => s!"parsing input document '{path}'"
  | reading path => s!"reading '{path}'"
  | parsing path => s!"parsing '{path}'"
  | makingOutputDirectory path => s!"creating output directory '{path}'"
  | creating path => s!"creating '{path}'"
  | writingModels path => s!"writing converted models to '{path}'"
  | makingManifestDirectory path => s!"creating manifest directory '{path}'"
  | writingManifest path => s!"writing batch manifest '{path}'"
  | openingManifest path => s!"opening batch manifest '{path}'"
  | parsingManifest path => s!"parsing batch manifest '{path}'"

/-- The activities that a failure interrupted. -/
abbrev Failure := List Activity

def Failure.text (f : Failure) : String := ": ".intercalate (f.map Activity.text)

abbrev Attempt (m : Type → Type) (β : Type) := ExceptT Failure m β

namespace Attempt

variable {m : Type → Type} [Monad m] {β : Type}

def ofOption (a : Activity) : Option β → Attempt m β
  | some b => pure b
  | none => throw [a]

/-- Names the whole of which the work is a part. -/
def during (a : Activity) (work : Attempt m β) : Attempt m β :=
  ExceptT.mk do
    match ← work.run with
    | .ok b => return .ok b
    | .error f => return .error (a :: f)

/-- Work that tells whether it could be done. -/
def succeed (a : Activity) (work : m Bool) : Attempt m Unit :=
  ExceptT.mk do
    if ← work then return .ok () else return .error [a]

/-- The text of a file. -/
def readText [FileAccess m] (a : Activity) (path : String) : Attempt m String := do
  let content : Content ← ExceptT.lift (FileAccess.read path)
  ofOption a content.text?

end Attempt

end EquivalentCircuit
