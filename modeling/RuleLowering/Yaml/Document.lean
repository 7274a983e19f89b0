import RuleLowering.Yaml.Graph
import RuleLowering.Yaml.Lexer

/-!
# Building the graph of a document

Building the graph of a text that holds at most one document. An anchor may not be given twice; it
can be referred to as soon as its node has begun. Nothing where a node could stand is the scalar
without characters.
-/
namespace RuleLowering.Yaml

structure Builder where
  tokens : TokenRow
  graph : Graph := {}
  /-- The names given to nodes. -/
  anchors : List (String × Nat) := []
  handles : List (String × String) := []

abbrev Building := StateT Builder (Except Fault)

namespace Building

def malformed {α : Type} : Building α := throw .yaml

def peek : Building Token := do
  let row := (← get).tokens
  match row.ready with
  | t :: _ => return t
  | [] => throw row.fault

def drop : Building Unit :=
  modify fun b => { b with tokens := { b.tokens with ready := b.tokens.ready.tail } }

/-- Moves on past a token that has to stand here. -/
def expect (t : Token) : Building Unit := do
  if (← peek) = t then drop else malformed

/-- Moves on past a token if it stands here. -/
def accept (t : Token) : Building Bool := do
  if (← peek) = t then
    drop
    return true
  else return false

/-- Makes a node whose parts are still to be read. -/
def begin (tag : Tag) (shape : Shape) : Building Nat :=
  modifyGet fun b => (b.graph.size, { b with graph := b.graph.add ⟨tag, shape⟩ })

def complete (n : Nat) (shape : Shape) : Building Nat :=
  modifyGet fun b =>
    let g := b.graph.set n ⟨b.graph.tag n, shape⟩
    (n, { b with graph := { g with finished := n :: g.finished } })

def scalar (tag : Tag) (text : Text) : Building Nat := do
  complete (← begin tag (.scalar text)) (.scalar text)

def emptyNode : Building Nat := scalar (resolvePlain "") ""

structure Properties where
  anchor : Option String := none
  /-- The full name of the tag. -/
  tag : Option String := none

def fullName (handle : Option String) (suffix : String) : Building String := do
  match handle with
  | none => return suffix
  | some h => match (← get).handles.lookup h with
    | some stem => return stem ++ suffix
    | none => malformed

/-- Reads an anchor and a tag, each at most once, in either order. -/
def properties : Building Properties := do
  match ← peek with
  | .anchor name => do
    drop
    match ← peek with
    | .tag handle suffix => do
      drop
      return { anchor := some name, tag := some (← fullName handle suffix) }
    | _ => return { anchor := some name }
  | .tag handle suffix => do
    drop
    match ← peek with
    | .anchor name => do
      drop
      return { anchor := some name, tag := some (← fullName handle suffix) }
    | _ => return { tag := some (← fullName handle suffix) }
  | _ => return {}

namespace Properties

/-- The tag that is given, other than the one that asks for the usual one. -/
def given? (p : Properties) : Option String := p.tag.filter (· ≠ "!")

def isEmpty (p : Properties) : Bool := p.anchor.isNone && p.tag.isNone

def collectionTag (p : Properties) (usual : Tag) : Tag := (p.given?.map Tag.ofName).getD usual

def scalarTag (p : Properties) (text : Text) (quoted : Bool) : Tag :=
  match p.given? with
  | some name => .ofName name
  | none => if quoted && p.tag.isNone then .str else resolvePlain text

end Properties

def checkAnchor (p : Properties) : Building Unit := do
  match p.anchor with
  | none => return
  | some name => if ((← get).anchors.lookup name).isSome then malformed

def register (p : Properties) (n : Nat) : Building Unit :=
  match p.anchor with
  | none => return
  | some name => modify fun b => { b with anchors := (name, n) :: b.anchors }

def collection (p : Properties) (usual : Tag) (shape : Shape) : Building Nat := do
  checkAnchor p
  let n ← begin (p.collectionTag usual) shape
  register p n
  return n

def scalarNode (p : Properties) (text : Text) (quoted : Bool) : Building Nat := do
  checkAnchor p
  let n ← scalar (p.scalarTag text quoted) text
  register p n
  return n

/-- The tokens in front of which a node is missing in some collection. -/
def endsBlockItem (t : Token) : Bool := t == .blockEntry || t == .blockEnd

def endsBareItem (t : Token) : Bool :=
  t == .blockEntry || t == .key || t == .value || t == .blockEnd

def endsBlockField (t : Token) : Bool := t == .key || t == .value || t == .blockEnd

mutual
/-- Reads a node; in a block context also a block collection, and behind a key of a block mapping
also a sequence that is not indented. -/
def node (fuel : Nat) (block bare : Bool) : Building Nat := do
  match fuel with
  | 0 => malformed
  | fuel + 1 =>
    if let .alias name ← peek then
      drop
      match (← get).anchors.lookup name with
      | some n => return n
      | none => malformed
    else
      let p ← properties
      match ← peek with
      | .scalar text quoted => do
        drop
        scalarNode p text quoted
      | .flowSequenceStart => do
        let n ← collection p .seq (.seq [])
        drop
        complete n (.seq (← flowItems fuel true))
      | .flowMappingStart => do
        let n ← collection p .map (.map [])
        drop
        complete n (.map (← flowEntries fuel true))
      | t => do
        if bare && t == .blockEntry then
          let n ← collection p .seq (.seq [])
          complete n (.seq (← bareItems fuel))
        else if block && t == .blockSequenceStart then
          let n ← collection p .seq (.seq [])
          drop
          complete n (.seq (← blockItems fuel))
        else if block && t == .blockMappingStart then
          let n ← collection p .map (.map [])
          drop
          complete n (.map (← blockEntries fuel))
        else if p.isEmpty then malformed
        else scalarNode p "" false

/-- Reads a node unless a token stands here that ends its collection's part. -/
def nodeUnless (fuel : Nat) (ends : Token → Bool) (block bare : Bool) : Building Nat := do
  match fuel with
  | 0 => malformed
  | fuel + 1 => if ends (← peek) then emptyNode else node fuel block bare

def blockItems (fuel : Nat) : Building (List Nat) := do
  match fuel with
  | 0 => malformed
  | fuel + 1 =>
    if ← accept .blockEntry then
      let x ← nodeUnless fuel endsBlockItem true false
      return x :: (← blockItems fuel)
    else
      expect .blockEnd
      return []

/-- Reads the items of a sequence that is not indented. -/
def bareItems (fuel : Nat) : Building (List Nat) := do
  match fuel with
  | 0 => malformed
  | fuel + 1 =>
    if ← accept .blockEntry then
      let x ← nodeUnless fuel endsBareItem true false
      return x :: (← bareItems fuel)
    else return []

def blockEntries (fuel : Nat) : Building (List (Nat × Nat)) := do
  match fuel with
  | 0 => malformed
  | fuel + 1 =>
    if ← accept .key then
      let k ← nodeUnless fuel endsBlockField true true
      let v ← if ← accept .value then nodeUnless fuel endsBlockField true true else emptyNode
      return (k, v) :: (← blockEntries fuel)
    else
      expect .blockEnd
      return []

def flowItems (fuel : Nat) (first : Bool) : Building (List Nat) := do
  match fuel with
  | 0 => malformed
  | fuel + 1 =>
    if ← accept .flowSequenceEnd then return []
    if !first then expect .flowEntry
    if ← accept .flowSequenceEnd then return []
    let x ← if ← accept .key then do
        let n ← begin .map (.map [])
        let ends (t : Token) := t == .flowEntry || t == .flowSequenceEnd
        let k ← nodeUnless fuel (fun t => t == .value || ends t) false false
        let v ← if ← accept .value then nodeUnless fuel ends false false else emptyNode
        complete n (.map [(k, v)])
      else node fuel false false
    return x :: (← flowItems fuel false)

def flowEntries (fuel : Nat) (first : Bool) : Building (List (Nat × Nat)) := do
  match fuel with
  | 0 => malformed
  | fuel + 1 =>
    if ← accept .flowMappingEnd then return []
    if !first then expect .flowEntry
    if ← accept .flowMappingEnd then return []
    let ends (t : Token) := t == .flowEntry || t == .flowMappingEnd
    let e ← if ← accept .key then do
        let k ← nodeUnless fuel (fun t => t == .value || ends t) false false
        let v ← if ← accept .value then nodeUnless fuel ends false false else emptyNode
        pure (k, v)
      else do
        let k ← node fuel false false
        pure (k, ← emptyNode)
    return e :: (← flowEntries fuel false)
end

/-- The handles that every document has. -/
def standardHandles : List (String × String) := [("!", "!"), ("!!", Tag.standardStem)]

def directives : (fuel : Nat) → (versioned : Bool) → List (String × String) →
    Building (List (String × String))
  | 0, _, _ => malformed
  | fuel + 1, versioned, handles => do
    match ← peek with
    | .directive d => do
      drop
      match d with
      | .version major =>
        if versioned || major ≠ 1 then malformed else directives fuel true handles
      | .tag handle stem =>
        if (handles.lookup handle).isSome then malformed
        else directives fuel versioned ((handle, stem) :: handles)
      | .other => directives fuel versioned handles
    | _ => return handles

def skipEnds : (fuel : Nat) → Building Unit
  | 0 => malformed
  | fuel + 1 => do
    if ← accept .documentEnd then skipEnds fuel

/-- Ends the text: a second document may not follow. -/
def finish (fuel : Nat) : Building Unit := do
  skipEnds fuel
  if (← peek) ≠ .streamEnd then
    let _ ← directives fuel false []
    malformed

/-- A document begins with a mark or with directives, or else there is none. -/
def beginsExplicitly : Token → Bool
  | .streamEnd | .documentStart | .directive _ => true
  | _ => false

/-- Nothing stands between the mark of a document and this token. -/
def endsDocument : Token → Bool
  | .directive _ | .documentStart | .documentEnd | .streamEnd => true
  | _ => false

/-- Reads a document, if there is one, and gives the number of its node. -/
def document (fuel : Nat) : Building (Option Nat) := do
  if (← peek) = .streamEnd then return none
  if beginsExplicitly (← peek) then
    let handles ← directives fuel false []
    modify fun b => { b with handles := handles ++ standardHandles }
    expect .documentStart
    let n ← if endsDocument (← peek) then emptyNode else node fuel true false
    finish fuel
    return some n
  else
    modify fun b => { b with handles := standardHandles }
    let n ← node fuel true false
    finish fuel
    return some n

end Building

/-- The graph of some characters, with the number of its outermost node, if they hold a document. -/
def Graph.ofChars? (s : List Char) : Except Fault (Option Nat × Graph) := do
  let tokens := tokens s
  let (root, b) ← (Building.document (2 * tokens.ready.length + 4)).run { tokens }
  return (root, b.graph)

end RuleLowering.Yaml
