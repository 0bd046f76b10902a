import BusScope.Text.Split

/-!
Type names of robots are mangled: `pkg::msg::dds_::Type_` stands for `pkg/msg/Type`. A name of any
other shape is left alone.
-/

namespace BusScope

open Text

/-- The parts of the plain name, if the parts are those of a mangled one: at least one part before
`dds_`, and after it a part that ends in an underscore and is not that alone. -/
def demangledParts? (parts : List (List Char)) : Option (List (List Char)) :=
  match parts.reverse with
  | last :: mark :: first :: outer =>
    if mark = ['d', 'd', 's', '_'] ∧ last.getLast? = some '_' ∧ last ≠ ['_'] then
      some ((last.dropLast :: first :: outer).reverse)
    else none
  | _ => none

def demangleChars (name : List Char) : List Char :=
  match demangledParts? (splitPairs ':' name) with
  | some parts => join ['/'] parts
  | none => name

def demangle (name : String) : String := String.ofList (demangleChars name.toList)

def typeLabel (demangled : Bool) (name : String) : String :=
  if demangled then demangle name else name

end BusScope
