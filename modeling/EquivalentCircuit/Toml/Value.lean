/-! TOML documents as trees. A document is a list of statements, and each statement changes the
tree of those before it or contradicts it: nothing may be defined twice. -/

namespace EquivalentCircuit

/-- How a table came to be, which decides what may still be added to it. -/
inductive TableKind where
  /-- Named by a header of its own. -/
  | header
  /-- Named only inside the path of a longer header. -/
  | implied
  /-- Named by a dotted key. -/
  | dotted
  /-- Written inline; nothing may be added. -/
  | closed
deriving DecidableEq

inductive Toml where
  | text (s : String)
  | bool (b : Bool)
  /-- A number; policies hold none, so only its form matters. -/
  | number
  /-- A date or a time. -/
  | time
  | array (items : List Toml)
  | table (kind : TableKind) (members : List (String × Toml))
  /-- Tables under one repeated header. -/
  | tables (elements : List (List (String × Toml)))

namespace Toml

abbrev Members := List (String × Toml)

inductive Statement where
  | table (path : List String)
  | element (path : List String)
  | entry (path : List String) (value : Toml)

/-- The members with the value of a name replaced. -/
def replace (name : String) (v : Toml) : Members → Members
  | [] => []
  | (n, w) :: ms => if n = name then (n, v) :: ms else (n, w) :: replace name v ms

/-- Changes the table at a path, making those that are missing. A path of dotted keys does not
lead into a table that has a header. In an array of tables the last one counts. -/
def updateAt (dotted : Bool) (change : TableKind → Members → Option Members) :
    List String → TableKind → Members → Option Members
  | [], kind, ms => change kind ms
  | k :: ks, _, ms =>
    match ms.lookup k with
    | none => do
      let kind := if dotted then .dotted else .implied
      let inner ← updateAt dotted change ks kind []
      return ms ++ [(k, table kind inner)]
    | some (table kind inner) => do
      guard (kind ≠ .closed ∧ ¬ (dotted ∧ kind = .header))
      let inner ← updateAt dotted change ks kind inner
      return replace k (table kind inner) ms
    | some (tables elements) => do
      let last ← elements.getLast?
      let last ← updateAt dotted change ks .header last
      return replace k (tables (elements.dropLast ++ [last])) ms
    | some _ => none

/-- Adds a value under a new name. The end of a dotted key lies in a table made by dotted keys. -/
def insertEntry (dotted : Bool) (name : String) (v : Toml) (kind : TableKind) (ms : Members) :
    Option Members := do
  guard ((kind = .dotted) = dotted)
  guard (ms.lookup name).isNone
  return ms ++ [(name, v)]

/-- Adds a value under a dotted key. -/
def addEntry (path : List String) (v : Toml) (kind : TableKind) (ms : Members) : Option Members := do
  let name ← path.getLast?
  let parents := path.dropLast
  updateAt true (insertEntry (!parents.isEmpty) name v) parents kind ms

/-- Gives a table its header. -/
def openTable (name : String) (_ : TableKind) (ms : Members) : Option Members :=
  match ms.lookup name with
  | none => some (ms ++ [(name, table .header [])])
  | some (table .implied inner) => some (replace name (table .header inner) ms)
  | some _ => none

/-- Starts another table of an array of tables. -/
def openElement (name : String) (_ : TableKind) (ms : Members) : Option Members :=
  match ms.lookup name with
  | none => some (ms ++ [(name, tables [[]])])
  | some (tables elements) => some (replace name (tables (elements ++ [[]])) ms)
  | some _ => none

/-- The tree so far and the header that is in force. -/
structure Draft where
  root : Members
  header : List String

def Draft.add (d : Draft) : Statement → Option Draft
  | .table path => do
    let root ← updateAt false (openTable (← path.getLast?)) path.dropLast .header d.root
    return ⟨root, path⟩
  | .element path => do
    let root ← updateAt false (openElement (← path.getLast?)) path.dropLast .header d.root
    return ⟨root, path⟩
  | .entry path v => do
    let root ← updateAt false (addEntry path v) d.header .header d.root
    return { d with root := root }

/-- The table that a document describes. -/
def ofStatements (ss : List Statement) : Option Toml := do
  let d ← ss.foldlM Draft.add ⟨[], []⟩
  return table .header d.root

/-- An inline table of the given entries. -/
def ofEntries (es : List (List String × Toml)) : Option Toml := do
  let ms ← es.foldlM (fun ms (path, v) => addEntry path v .header ms) []
  return table .closed ms

end Toml

end EquivalentCircuit
