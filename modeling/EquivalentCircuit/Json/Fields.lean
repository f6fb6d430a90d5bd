import EquivalentCircuit.Json.Value

/-! Records of JSON members. A record stands for its known members, each at most once and in any
order, or for a list of their values in the order of the names; members of other names are
skipped. -/

namespace EquivalentCircuit

structure Fields where
  members : List (String × Json)
  /-- The values were given by position. -/
  positional : Bool

namespace Json

def fields? (names : List String) : Json → Option Fields
  | record members =>
    let known := members.filter fun m => names.contains m.1
    if (known.map Prod.fst).Nodup then some ⟨known, false⟩ else none
  | list items => if items.length ≤ names.length then some ⟨names.zip items, true⟩ else none
  | _ => none

def toFloat? : Json → Option Float
  | number n => some n.toFloat
  | _ => none

/-- An integer literal within bounds. -/
def toIntIn? (low high : Int) : Json → Option Int
  | number (.integer n) => if low ≤ n ∧ n ≤ high then some n else none
  | _ => none

def toInt32? (j : Json) : Option Int32 :=
  (j.toIntIn? Int32.minValue.toInt Int32.maxValue.toInt).map Int32.ofInt

/-- A count or an index below `2 ^ 64`. -/
def toNat? (j : Json) : Option Nat := (j.toIntIn? 0 (Nat.pow 2 64 - 1 : Nat)).map Int.toNat

def toUInt8? (j : Json) : Option UInt8 := (j.toIntIn? 0 255).map fun n => n.toNat.toUInt8

def toBool? : Json → Option Bool
  | bool b => some b
  | _ => none

def toText? : Json → Option String
  | text s => some s
  | _ => none

def toList? {β : Type} (read : Json → Option β) : Json → Option (List β)
  | list items => items.mapM read
  | _ => none

/-- Null stands for nothing. -/
def toOption? {β : Type} (read : Json → Option β) : Json → Option (Option β)
  | null => some none
  | j => (read j).map some

/-- One of several named choices: its name, or a record of one null member of that name. -/
def toChoice? {β : Type} (named : String → Option β) : Json → Option β
  | text s => named s
  | record [(s, null)] => named s
  | _ => none

/-- Null where there is no value. -/
def ofOption {β : Type} (write : β → Json) : Option β → Json
  | some b => write b
  | none => .null

/-- A member that is left out where there is no value. -/
def memberOf {β : Type} (name : String) (write : β → Json) : Option β → List (String × Json)
  | some b => [(name, write b)]
  | none => []

end Json

namespace Fields

variable {β : Type}

def get? (f : Fields) (name : String) : Option Json := f.members.lookup name

def required (f : Fields) (name : String) (read : Json → Option β) : Option β :=
  (f.get? name).bind read

def defaulted (f : Fields) (name : String) (d : β) (read : Json → Option β) : Option β :=
  match f.get? name with
  | none => some d
  | some j => read j

/-- A member that may be absent; a list must hold it. -/
def optional (f : Fields) (name : String) (read : Json → Option β) : Option (Option β) :=
  match f.get? name with
  | none => if f.positional then none else some none
  | some j => j.toOption? read

end Fields

end EquivalentCircuit
