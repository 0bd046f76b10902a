import BusScope.Yaml.Token

/-!
The nodes of a YAML document. A reference is kept as the number of the anchor it refers to, which
may stand on a node that contains the reference. An anchor is numbered by how many names are known
when it is met, and of two anchors with one number the later is meant.
-/

namespace BusScope.Yaml

inductive Node where
  | scalar (form : ScalarForm) (text : List Char) (tag : Option (List UInt8))
  | sequence (tag : Option (List UInt8)) (items : List Node)
  | mapping (tag : Option (List UInt8)) (members : List (Node × Node))
  | reference (anchor : Nat)

instance : Inhabited Node := ⟨.reference 0⟩

def Node.empty : Node := .scalar .plain [] none

/-- `root` is absent if the text holds no document at all. -/
structure Document where
  root : Option Node
  anchored : List (Nat × Node)

def Document.resolve (d : Document) (n : Node) : Option Node :=
  match n with
  | .reference anchor => d.anchored.lookup anchor
  | n => some n

/-- `names` are the anchors met so far, `starts` tells for each number the node that it stands on,
nodes being counted as they begin, and `nodes` are the anchored nodes that are complete. -/
structure Assembly where
  tokens : List Token
  handles : List (List Char × List UInt8)
  names : List (List Char × Nat) := []
  starts : List (Nat × Nat) := []
  nodes : List (Nat × Node) := []

namespace Assembly

abbrev Step := StateT Assembly Option

def peek : Step (Option Token) := do return (← get).tokens.head?

def skip : Step Unit := modify fun a => { a with tokens := a.tokens.drop 1 }

def sees (ts : List Token) : Step Bool := do return (← peek).any ts.contains

def accept (t : Token) : Step Bool := do
  if (← peek) == some t then
    skip
    return true
  else return false

def expect (t : Token) : Step Unit := do if !(← accept t) then failure

def beginAnchor (name : List Char) : Step Nat := do
  let a ← get
  let number := a.names.length
  let start := a.starts.length
  let others := a.names.filter (·.1 != name)
  set { a with names := (name, number) :: others, starts := (number, start) :: a.starts }
  return start

def endAnchor (start? : Option Nat) (n : Node) : Step Unit :=
  match start? with
  | none => pure ()
  | some start => modify fun a => { a with nodes := (start, n) :: a.nodes }

/-- The full tag. The mark alone leaves it open what a scalar is. -/
def fullTag (t : TagText) : Step (List UInt8) := do
  if t.handle.isEmpty then return t.suffix
  else match (← get).handles.lookup t.handle with
    | some stands => return stands ++ t.suffix
    | none => failure

def anchorName? : Option Token → Option (List Char)
  | some (.anchor name) => some name
  | _ => none

def tagText? : Option Token → Option TagText
  | some (.tag t) => some t
  | _ => none

def optionalAnchor : Step (Option (List Char)) := do
  let name? := anchorName? (← peek)
  if name?.isSome then skip
  return name?

def optionalTag : Step (Option TagText) := do
  let t? := tagText? (← peek)
  if t?.isSome then skip
  return t?

def properties : Step (Option (List Char) × Option TagText) := do
  match ← optionalAnchor with
  | some name => return (some name, ← optionalTag)
  | none =>
    match ← optionalTag with
    | some t => return (← optionalAnchor, some t)
    | none => return (none, none)

def scalarTag (tag? : Option (List UInt8)) : Option (List UInt8) :=
  tag?.filter (· != ofText ['!'])

mutual

/-- A node. Block collections are allowed where `block` says so, and those without indentation of
their own under a key. -/
def node (block underKey : Bool) : Nat → Step Node
  | 0 => failure
  | fuel + 1 => do
    if let some (.reference name) ← peek then
      skip
      match (← get).names.lookup name with
      | some number => return .reference number
      | none => failure
    let (anchor?, tag?) ← properties
    let tag? ← tag?.mapM fullTag
    let start? ← anchor?.mapM beginAnchor
    let n ← content block underKey (anchor?.isSome || tag?.isSome) tag? fuel
    endAnchor start? n
    return n

def content (block underKey marked : Bool) (tag? : Option (List UInt8)) : Nat → Step Node
  | 0 => failure
  | fuel + 1 => do
    match ← peek with
    | some (.scalar form text) =>
      skip
      return .scalar form text (scalarTag tag?)
    | some .openSequence =>
      skip
      return .sequence tag? (← flowItems true fuel)
    | some .openMapping =>
      skip
      return .mapping tag? (← flowMembers true fuel)
    | some .dash =>
      if underKey then return .sequence tag? (← plainItems fuel) else absent marked tag?
    | some .blockSequence =>
      if block then
        skip
        return .sequence tag? (← blockItems fuel)
      else absent marked tag?
    | some .blockMapping =>
      if block then
        skip
        return .mapping tag? (← blockMembers fuel)
      else absent marked tag?
    | _ => absent marked tag?

def absent (marked : Bool) (tag? : Option (List UInt8)) : Step Node :=
  if marked then return .scalar .plain [] tag? else failure

def blockItems : Nat → Step (List Node)
  | 0 => failure
  | fuel + 1 => do
    if ← accept .blockEnd then return []
    expect .dash
    let n ← if ← sees [.dash, .blockEnd] then pure .empty else node true false fuel
    return n :: (← blockItems fuel)

def plainItems : Nat → Step (List Node)
  | 0 => failure
  | fuel + 1 => do
    if ← accept .dash then
      let n ←
        if ← sees [.dash, .key, .colon, .blockEnd] then pure .empty else node true false fuel
      return n :: (← plainItems fuel)
    else return []

def blockMembers : Nat → Step (List (Node × Node))
  | 0 => failure
  | fuel + 1 => do
    if ← accept .blockEnd then return []
    expect .key
    let k ← if ← sees [.key, .colon, .blockEnd] then pure .empty else node true true fuel
    let v ←
      if ← accept .colon then
        if ← sees [.key, .colon, .blockEnd] then pure .empty else node true true fuel
      else pure .empty
    return (k, v) :: (← blockMembers fuel)

def flowItems (first : Bool) : Nat → Step (List Node)
  | 0 => failure
  | fuel + 1 => do
    if ← accept .closeSequence then return []
    if !first then
      expect .comma
      if ← accept .closeSequence then return []
    let n ← if ← accept .key then pairItem fuel else node false false fuel
    return n :: (← flowItems false fuel)

/-- A mapping with one member, written without brackets as an item of a sequence. -/
def pairItem : Nat → Step Node
  | 0 => failure
  | fuel + 1 => do
    let k ←
      if ← sees [.colon, .comma, .closeSequence] then
        skip
        pure .empty
      else node false false fuel
    let v ←
      if ← accept .colon then
        if ← sees [.comma, .closeSequence] then pure .empty else node false false fuel
      else pure .empty
    return .mapping none [(k, v)]

def flowMembers (first : Bool) : Nat → Step (List (Node × Node))
  | 0 => failure
  | fuel + 1 => do
    if ← accept .closeMapping then return []
    if !first then
      expect .comma
      if ← accept .closeMapping then return []
    let m ←
      if ← accept .key then
        let k ← if ← sees [.colon, .comma, .closeMapping] then pure .empty else node false false fuel
        let v ←
          if ← accept .colon then
            if ← sees [.comma, .closeMapping] then pure .empty else node false false fuel
          else pure .empty
        pure (k, v)
      else
        let k ← node false false fuel
        pure (k, .empty)
    return m :: (← flowMembers false fuel)

end

end Assembly

def defaultHandles : List (List Char × List UInt8) :=
  [(['!'], ofText ['!']), (['!', '!'], ofText "tag:yaml.org,2002:".toList)]

/-- What the directives before a document say about tag handles. The version may be stated once and
must be one that is understood, and no handle may be stated twice. -/
def readDirectives : List Directive → Option (List (List Char × List UInt8))
  | [] => some []
  | .version major minor :: rest =>
    if major = 1 ∧ (minor = 1 ∨ minor = 2) ∧
        !rest.any (fun d => match d with | .version .. => true | _ => false) then
      readDirectives rest
    else none
  | .handle h stands :: rest =>
    if rest.any fun d => match d with | .handle h' _ => h' == h | _ => false then none
    else (readDirectives rest).map ((h, stands) :: ·)

namespace Document

def directive? : Token → Option Directive
  | .directive d => some d
  | _ => none

def isContent : Token → Bool
  | .directive _ | .documentStart | .documentEnd => false
  | _ => true

/-- The only document of a text. A text with further documents is refused. -/
def ofTokens? (tokens : List Token) : Option Document := do
  let directives := (tokens.takeWhile fun t => (directive? t).isSome).filterMap directive?
  let rest := tokens.dropWhile fun t => (directive? t).isSome
  let isExplicit := rest.head? == some .documentStart
  if tokens.isEmpty then return ⟨none, []⟩
  if !directives.isEmpty && !isExplicit then failure
  let handles ← readDirectives directives
  let content := if isExplicit then rest.drop 1 else rest
  let start : Assembly := { tokens := content, handles := handles ++ defaultHandles }
  let (root, a) ←
    if isExplicit && !content.head?.any isContent then pure (Node.empty, start)
    else Assembly.node true false (4 * content.length + 4) start
  if a.tokens.all (· == .documentEnd) then
    return ⟨some root, a.starts.filterMap fun s => (a.nodes.lookup s.2).map fun n => (s.1, n)⟩
  else failure

def read (text : String) : Option Document := (Token.scan text.toList).bind ofTokens?

end Document

end BusScope.Yaml
