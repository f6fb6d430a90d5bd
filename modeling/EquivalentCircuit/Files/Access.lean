/-! Access to files, as an operation of a monad and as a function of the state of a file system. -/

namespace EquivalentCircuit

/-- What reading a file gives. -/
inductive Content where
  /-- The file cannot be opened. -/
  | missing
  /-- It can be opened but not read, such as a directory. -/
  | unreadable
  | bytes (b : ByteArray)

namespace Content

def bytes? : Content → Option ByteArray
  | bytes b => some b
  | _ => none

/-- The content as a text. -/
def text? (c : Content) : Option String := c.bytes?.bind String.fromUTF8?

end Content

class FileAccess (m : Type → Type) where
  read : String → m Content
  /-- Makes a directory with all those above it; tells whether it is there afterwards. -/
  makeDirectories : String → m Bool
  /-- Gives a file a new content; tells whether that could be done. -/
  write : String → ByteArray → m Bool

/-- The states of a file system. -/
class FileSystem (σ : Type) where
  read : σ → String → Content
  makeDirectories : σ → String → Bool × σ
  write : σ → String → ByteArray → Bool × σ

instance {σ : Type} [FileSystem σ] : FileAccess (StateM σ) where
  read path := fun s => (FileSystem.read s path, s)
  makeDirectories path := fun s => FileSystem.makeDirectories s path
  write path b := fun s => FileSystem.write s path b

end EquivalentCircuit
