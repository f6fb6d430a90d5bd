import EquivalentCircuit.Toml.Value

/-! Writing TOML texts. Values come before the tables that lie beside them, and each table stands
under its full header after an empty line. -/

namespace EquivalentCircuit

namespace Toml

/-- A value on one line; tables have none. -/
def valueText : Toml → Option String
  | text s => some ("\"" ++ s ++ "\"")
  | bool true => some "true"
  | bool false => some "false"
  | _ => none

def dottedPath (path : List String) : String := ".".intercalate path

def entryLines : Members → List String
  | [] => []
  | (n, v) :: ms =>
    match valueText v with
    | some s => (n ++ " = " ++ s) :: entryLines ms
    | none => entryLines ms

mutual

def memberLines (path : List String) : Members → List String
  | [] => []
  | (n, v) :: ms => tableLines (path ++ [n]) v ++ memberLines path ms

def tableLines (path : List String) : Toml → List String
  | table _ ms => ["", "[" ++ dottedPath path ++ "]"] ++ entryLines ms ++ memberLines path ms
  | tables elements => elementLines path elements
  | _ => []

def elementLines (path : List String) : List Members → List String
  | [] => []
  | ms :: rest =>
    ["", "[[" ++ dottedPath path ++ "]]"] ++ entryLines ms ++ memberLines path ms ++
      elementLines path rest

end

/-- The text of a document with the given members at its top. -/
def documentText (ms : Members) : String :=
  String.join ((entryLines ms ++ memberLines [] ms).map (· ++ "\n"))

end Toml

end EquivalentCircuit
