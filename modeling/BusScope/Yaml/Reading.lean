import BusScope.Yaml.Node
import BusScope.Yaml.Scalar

/-!
Reading the nodes of a document as values of a known type. Numbers and truth values are written
without quotes, texts in any form, and a collection that is left out is an empty one. References are
followed wherever a value is expected.
-/

namespace BusScope.Yaml

def coreTag (name : String) : List UInt8 := ofText ("tag:yaml.org,2002:" ++ name).toList

def isLeftOut : Node → Bool
  | .scalar .plain [] _ => true
  | _ => false

def basicText? (type : String) : Node → Option (List Char)
  | .scalar .plain text _ => some text
  | .scalar .literal text tag => if tag = some (coreTag type) then some text else none
  | _ => none

/-- The name that a tag of the document's own gives. -/
def localTag? : List UInt8 → Option (List Char)
  | 0x21 :: name =>
    (Text.Utf8.decode (if name.isEmpty then [0x21] else name)).toOption
  | _ => none

def isRepeated (known : List String) : List String → Bool
  | [] => false
  | name :: rest => (known.contains name && rest.contains name) || isRepeated known rest

namespace Document

def text? (d : Document) (n : Node) : Option String :=
  match d.resolve n with
  | some (.scalar _ text _) => some (String.ofList text)
  | _ => none

def nullable? (d : Document) (n : Node) : Option (Option String) :=
  match d.resolve n with
  | some (.scalar .plain text none) =>
    if text.isEmpty || isNull text then some none else some (some (String.ofList text))
  | some (.scalar .plain text (some tag)) =>
    if tag = coreTag "null" then if isNull text then some none else none
    else some (some (String.ofList text))
  | some (.scalar _ text _) => some (some (String.ofList text))
  | _ => none

def bool? (d : Document) (n : Node) : Option Bool :=
  (d.resolve n).bind fun n => (basicText? "bool" n).bind Yaml.bool?

def natural? (d : Document) (limit : Nat) (n : Node) : Option Nat :=
  (d.resolve n).bind fun n => (basicText? "int" n).bind (Yaml.natural? limit)

def float? (d : Document) (n : Node) : Option Number.Binary64 :=
  (d.resolve n).bind fun n => (basicText? "float" n).bind Yaml.float?

/-- One of a fixed number of names. A tag of the document's own may give it, and then nothing else
may. -/
def name? (d : Document) (n : Node) : Option String :=
  match d.resolve n with
  | some (.scalar form text tag) =>
    match tag.bind localTag? with
    | some name =>
      if form = .plain ∧ (text.isEmpty ∨ isNull text) then some (String.ofList name) else none
    | none => some (String.ofList text)
  | _ => none

def items? (d : Document) (n : Node) : Option (List Node) :=
  match d.resolve n with
  | some (.sequence _ items) => some items
  | some n => if isLeftOut n then some [] else none
  | none => none

def listOf? {α : Type} (d : Document) (read : Node → Option α) (n : Node) : Option (List α) :=
  (d.items? n).bind (·.mapM read)

/-- The members of a mapping, by name. None of the known names may occur twice, and where others are
not `ignored` there may be none. -/
def members? (d : Document) (known : List String) (ignored : Bool) (n : Node) :
    Option (List (String × Node)) :=
  match d.resolve n with
  | some (.mapping _ pairs) => do
    let members ← pairs.mapM fun p => (d.text? p.1).map fun name => (name, p.2)
    let names := members.map (·.1)
    if isRepeated known names || !(ignored || names.all known.contains) then none else some members
  | some n => if isLeftOut n then some [] else none
  | none => none

end Document

def memberOr {α : Type} (members : List (String × Node)) (name : String) (default : α)
    (read : Node → Option α) : Option α :=
  match members.lookup name with
  | some n => read n
  | none => some default

end BusScope.Yaml
