import EquivalentCircuit.Text.ByName
import EquivalentCircuit.Yaml.Lexer

/-! The nodes of a YAML document. -/

namespace EquivalentCircuit

namespace Yaml

/-- A node with the number of its anchor. Tags matter on scalars only. -/
inductive Node where
  | scalar (anchor : Option Nat) (tag : Option Tag) (style : ScalarStyle) (text : String)
  | sequence (anchor : Option Nat) (items : List Node)
  | mapping (anchor : Option Nat) (entries : List (Node × Node))
  /-- Stands for the node with the anchor of that number. -/
  | reference (number : Nat)

namespace Node

def empty : Node := scalar none none .plain ""

mutual

/-- The nodes with an anchor of the given number, in the order in which they begin. -/
def anchored (n : Nat) : Node → List Node
  | scalar a tag style text => if a = some n then [scalar a tag style text] else []
  | sequence a items =>
    if a = some n then sequence a items :: anchoredItems n items else anchoredItems n items
  | mapping a entries =>
    if a = some n then mapping a entries :: anchoredEntries n entries else anchoredEntries n entries
  | reference _ => []

def anchoredItems (n : Nat) : List Node → List Node
  | [] => []
  | v :: vs => anchored n v ++ anchoredItems n vs

def anchoredEntries (n : Nat) : List (Node × Node) → List Node
  | [] => []
  | (k, v) :: es => anchored n k ++ anchored n v ++ anchoredEntries n es

end

/-- The node that a node of the document stands for; of several with one number the last. -/
def resolve (document : Node) : Node → Option Node
  | reference n => (document.anchored n).getLast?
  | v => some v

end Node

/-- The tokens left, the numbers of the anchors so far, and what the handles of tags stand for. -/
structure Draft where
  tokens : List Token
  anchors : List (String × Nat)
  handles : List (String × Tag)

abbrev Build (β : Type) := StateT Draft Option β

namespace Build

def refuse {β : Type} : Build β := fun _ => none

def require (b : Bool) : Build Unit := fun s => if b then some ((), s) else none

def peek : Build (Option Token) := do return (← get).tokens.head?

def skip : Build Unit := modify fun s => { s with tokens := s.tokens.tail }

/-- Takes the token if it comes next and says whether it did. -/
def tokenIf (t : Token) : Build Bool := do
  if (← peek) = some t then
    skip
    return true
  else return false

def comes (ts : List Token) : Build Bool := do
  match ← peek with
  | some t => return ts.contains t
  | none => return false

/-- The number of an anchor: how many other names there were before it. -/
def newAnchor (name : String) : Build Nat := do
  let n := (← get).anchors.length
  modify fun s => { s with anchors := insertByName name n s.anchors }
  return n

def anchorIf : Build (Option Nat) := do
  match ← peek with
  | some (.anchor name) =>
    skip
    return some (← newAnchor name)
  | _ => return none

def tagIf : Build (Option Tag) := do
  match ← peek with
  | some (.tag handle suffix) =>
    skip
    if handle.isEmpty then return some suffix
    match (← get).handles.lookup handle with
    | some tagPrefix => return some (tagPrefix ++ suffix)
    | none => refuse
  | _ => return none

/-- An anchor and a tag in either order. -/
def properties : Build (Option Nat × Option Tag) := do
  match ← anchorIf with
  | some n => return (some n, ← tagIf)
  | none =>
    let tag ← tagIf
    if tag.isSome then return (← anchorIf, tag) else return (none, none)

end Build

open Build

/-- Where a node stands. -/
inductive Place where
  | flow
  | block
  /-- In an entry of a block mapping, where a sequence may lack an indentation of its own. -/
  | entry
deriving DecidableEq

mutual

def buildNode (place : Place) : Nat → Build Node
  | 0 => refuse
  | fuel + 1 => do
    match ← peek with
    | some (.reference name) =>
      skip
      match (← get).anchors.lookup name with
      | some n => return .reference n
      | none => refuse
    | _ =>
      let (anchor, tag) ← properties
      match ← peek with
      | some (.scalar style text) =>
        skip
        return .scalar anchor tag style text
      | some .flowSequenceStart =>
        skip
        if ← tokenIf .flowSequenceEnd then return .sequence anchor []
        return .sequence anchor (← buildFlowItems fuel)
      | some .flowMappingStart =>
        skip
        if ← tokenIf .flowMappingEnd then return .mapping anchor []
        return .mapping anchor (← buildFlowEntries fuel)
      | some .blockSequenceStart =>
        require (place ≠ .flow)
        skip
        return .sequence anchor (← buildBlockItems fuel)
      | some .blockMappingStart =>
        require (place ≠ .flow)
        skip
        return .mapping anchor (← buildBlockEntries fuel)
      | some .blockEntry =>
        if place = .entry then return .sequence anchor (← buildBareItems fuel)
        require (anchor.isSome || tag.isSome)
        return .scalar anchor tag .plain ""
      | _ =>
        require (anchor.isSome || tag.isSome)
        return .scalar anchor tag .plain ""

/-- A node unless one of the given tokens or the end shows that it is empty. -/
def buildUnless (place : Place) (ends : List Token) : Nat → Build Node
  | 0 => refuse
  | fuel + 1 => do if ← comes ends then return .empty else buildNode place fuel

def buildBlockItems : Nat → Build (List Node)
  | 0 => refuse
  | fuel + 1 => do
    if ← tokenIf .blockEntry then
      let v ← buildUnless .block [.blockEntry, .blockEnd] fuel
      return v :: (← buildBlockItems fuel)
    else
      require (← tokenIf .blockEnd)
      return []

/-- Items of a block sequence without an indentation of its own. -/
def buildBareItems : Nat → Build (List Node)
  | 0 => refuse
  | fuel + 1 => do
    if ← tokenIf .blockEntry then
      let v ← buildUnless .block [.blockEntry, .key, .value, .blockEnd] fuel
      return v :: (← buildBareItems fuel)
    else return []

def buildBlockEntries : Nat → Build (List (Node × Node))
  | 0 => refuse
  | fuel + 1 => do
    if ← tokenIf .key then
      let k ← buildUnless .entry [.key, .value, .blockEnd] fuel
      let v ←
        if ← tokenIf .value then buildUnless .entry [.key, .value, .blockEnd] fuel
        else pure .empty
      return (k, v) :: (← buildBlockEntries fuel)
    else
      require (← tokenIf .blockEnd)
      return []

/-- The items of a flow sequence that is not at its end. -/
def buildFlowItems : Nat → Build (List Node)
  | 0 => refuse
  | fuel + 1 => do
    let v ← if ← tokenIf .key then buildPair fuel else buildNode .flow fuel
    if ← tokenIf .flowSequenceEnd then return [v]
    require (← tokenIf .flowEntry)
    if ← tokenIf .flowSequenceEnd then return [v]
    return v :: (← buildFlowItems fuel)

/-- A mapping of one entry as an item of a flow sequence. The token that shows the key to be empty
is taken with it. -/
def buildPair : Nat → Build Node
  | 0 => refuse
  | fuel + 1 => do
    let k ←
      if ← comes [.value, .flowEntry, .flowSequenceEnd] then do
        skip
        pure .empty
      else buildNode .flow fuel
    let v ←
      if ← tokenIf .value then buildUnless .flow [.flowEntry, .flowSequenceEnd] fuel
      else pure .empty
    return .mapping none [(k, v)]

/-- The entries of a flow mapping that is not at its end. -/
def buildFlowEntries : Nat → Build (List (Node × Node))
  | 0 => refuse
  | fuel + 1 => do
    let e ←
      if ← tokenIf .key then do
        let k ← buildUnless .flow [.value, .flowEntry, .flowMappingEnd] fuel
        let v ←
          if ← tokenIf .value then buildUnless .flow [.flowEntry, .flowMappingEnd] fuel
          else pure .empty
        pure (k, v)
      else do pure (← buildNode .flow fuel, .empty)
    if ← tokenIf .flowMappingEnd then return [e]
    require (← tokenIf .flowEntry)
    if ← tokenIf .flowMappingEnd then return [e]
    return e :: (← buildFlowEntries fuel)

end

/-- The directives before a document: one version, which must be 1.1 or 1.2, and one meaning for
each handle. -/
def buildDirectives (version : Bool) : Nat → Build Bool
  | 0 => refuse
  | fuel + 1 => do
    match ← peek with
    | some (.version major minor) =>
      require (!version && major = 1 && (minor = 1 || minor = 2))
      skip
      buildDirectives true fuel
    | some (.tagHandle handle tagPrefix) =>
      require ((← get).handles.lookup handle).isNone
      skip
      modify fun s => { s with handles := (handle, tagPrefix) :: s.handles }
      let _ ← buildDirectives version fuel
      return true
    | _ => return version

def defaultHandles : List (String × Tag) :=
  [("!", Tag.ofText "!"), ("!!", Tag.ofText "tag:yaml.org,2002:")]

/-- The only document of a text; without any it is empty. -/
def buildDocument : Build Node := do
  if (← peek).isNone then return .empty
  let fuel := 2 * (← get).tokens.length + 2
  let directives ← buildDirectives false fuel
  modify fun s => { s with handles := s.handles ++ defaultHandles }
  let explicit ← tokenIf .documentStart
  require (explicit || !directives)
  let root ←
    if explicit && ((← peek).isNone || (← comes [.documentEnd])) then pure .empty
    else buildNode .block fuel
  modify fun s => { s with tokens := s.tokens.dropWhile (· = .documentEnd) }
  require (← peek).isNone
  return root

/-- The document that a text holds. -/
def read? (s : String) : Option Node := do
  let tokens ← tokens? s
  let (root, _) ← buildDocument ⟨tokens, [], []⟩
  return root

end Yaml

end EquivalentCircuit
