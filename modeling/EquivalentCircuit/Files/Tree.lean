import EquivalentCircuit.Files.Access
import EquivalentCircuit.Files.Path

/-! A file system in memory: a tree of directories and files. -/

namespace EquivalentCircuit

inductive FileEntry where
  | file (content : ByteArray)
  | directory

/-- The names that lead from the top to an entry. -/
abbrev Location := List (List Char)

/-- The entries of a tree; the top is always a directory. -/
structure FileTree where
  entries : List (Location × FileEntry)

namespace FileTree

def empty : FileTree := ⟨[]⟩

def entry? (t : FileTree) (l : Location) : Option FileEntry :=
  if l.isEmpty then some .directory else t.entries.lookup l

def isDirectory (t : FileTree) (l : Location) : Bool :=
  match t.entry? l with
  | some .directory => true
  | _ => false

def insert (t : FileTree) (l : Location) (e : FileEntry) : FileTree :=
  ⟨(l, e) :: t.entries.filter fun x => x.1 != l⟩

/-- Names have at most 255 bytes. -/
def isName (segment : List Char) : Bool := (String.ofList segment).utf8ByteSize ≤ 255

/-- Paths have less than 4096 bytes, none of them null. -/
def isPath (path : String) : Bool := path.utf8ByteSize < 4096 && !path.toList.contains '\x00'

/-- Where a segment leads from a place. Two dots lead up, and the top lies above itself. -/
def enter (l : Location) (segment : List Char) : Location :=
  if Path.namesNothing segment then l
  else if segment = ['.', '.'] then l.dropLast
  else l ++ [segment]

/-- Where segments lead from a place. All but the last must lead to directories. -/
def walk (t : FileTree) : Location → List (List Char) → Option Location
  | l, [] => some l
  | l, s :: ss => if t.isDirectory l && isName s then walk t (enter l s) ss else none

def locate (t : FileTree) (path : String) : Option Location :=
  if isPath path then t.walk [] (Path.segments path.toList) else none

def read (t : FileTree) (path : String) : Content :=
  match (t.locate path).bind t.entry? with
  | some (.file content) => .bytes content
  | some .directory => .unreadable
  | none => .missing

def write (t : FileTree) (path : String) (content : ByteArray) : Bool × FileTree :=
  match t.locate path with
  | some l => if t.isDirectory l then (false, t) else (true, t.insert l (.file content))
  | none => (false, t)

/-- Makes the directories along segments that are not there yet, up to the first file or overlong
name in the way. -/
def makeAlong (t : FileTree) : Location → List (List Char) → Bool × FileTree
  | _, [] => (true, t)
  | l, s :: ss =>
    let next := enter l s
    match t.entry? next with
    | some .directory => makeAlong t next ss
    | some (.file _) => (false, t)
    | none =>
      if isName s then makeAlong (t.insert next .directory) next ss else (false, t)

def makeDirectories (t : FileTree) (path : String) : Bool × FileTree :=
  if isPath path then t.makeAlong [] (Path.segments path.toList) else (false, t)

end FileTree

instance : FileSystem FileTree where
  read := FileTree.read
  makeDirectories := FileTree.makeDirectories
  write := FileTree.write

end EquivalentCircuit
