import EquivalentCircuit.Json.Number
import EquivalentCircuit.Text.ByName

/-! JSON values. Members keep the order they were written in. -/

namespace EquivalentCircuit

inductive Json where
  | null
  | bool (b : Bool)
  | number (n : JsonNumber)
  | text (s : String)
  | list (items : List Json)
  | record (members : List (String × Json))
  /-- A well-formed text that stands for no value: a number beyond binary64, a text or a member
  name with an unpaired surrogate or with bytes that are no UTF-8, a nesting deeper than 127. It is
  harmless where it is skipped. -/
  | unreadable

namespace Json

/-- A number, or null for one that is not finite. -/
def ofFloat (x : Float) : Json := if x.isFinite then number (.real x) else null

def ofInt (n : Int) : Json := number (.integer n)

def ofNat (n : Nat) : Json := number (.integer n)

mutual

/-- Does every part of the value stand for something? -/
def readable : Json → Bool
  | list items => readableItems items
  | record members => readableMembers members
  | unreadable => false
  | _ => true

def readableItems : List Json → Bool
  | [] => true
  | j :: js => readable j && readableItems js

def readableMembers : List (String × Json) → Bool
  | [] => true
  | (_, j) :: ms => readable j && readableMembers ms

end

mutual

/-- The value with the members of every record in ascending order; of equal names the last one
counts. -/
def sorted : Json → Json
  | list items => list (sortedItems items)
  | record members => record (sortedMembers members [])
  | j => j

def sortedItems : List Json → List Json
  | [] => []
  | j :: js => sorted j :: sortedItems js

def sortedMembers : List (String × Json) → List (String × Json) → List (String × Json)
  | [], done => done
  | (n, j) :: ms, done => sortedMembers ms (insertByName n (sorted j) done)

end

end Json

end EquivalentCircuit
