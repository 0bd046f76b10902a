import BusScope.Value
import BusScope.Number.Layout
import BusScope.Text.Printable

/-!
The form in which a value appears in diagnostics: its kind, and its content in parentheses.
-/

namespace BusScope

open Number Text

def Scalar.diagnostic : Scalar → String
  | .bool b => "Bool(" ++ (if b then "true" else "false") ++ ")"
  | .uint8 n => "U8(" ++ toString n.toNat ++ ")"
  | .uint16 n => "U16(" ++ toString n.toNat ++ ")"
  | .uint32 n => "U32(" ++ toString n.toNat ++ ")"
  | .uint64 n => "U64(" ++ toString n.toNat ++ ")"
  | .int8 n => "I8(" ++ toString n.toInt ++ ")"
  | .int16 n => "I16(" ++ toString n.toInt ++ ")"
  | .int32 n => "I32(" ++ toString n.toInt ++ ")"
  | .int64 n => "I64(" ++ toString n.toInt ++ ")"
  | .float32 x => "F32(" ++ Layout.diagnostic.write x.unpack ++ ")"
  | .float64 x => "F64(" ++ Layout.diagnostic.write x.unpack ++ ")"
  | .char c => "Char(" ++ quotedChar c ++ ")"
  | .string s => "String(" ++ quotedString s ++ ")"
  | .wstring s => "WString(" ++ quotedString s ++ ")"

namespace Value

mutual

def diagnostic : Value → String
  | .scalar s => s.diagnostic
  | .struct members => "Struct(\x7b" ++ diagnosticMembers members ++ "\x7d)"
  | .sequence items => "Sequence([" ++ diagnosticItems items ++ "])"
  | .array items => "Array([" ++ diagnosticItems items ++ "])"
  | .enum ordinal name => "Enum(" ++ toString ordinal.toInt ++ ", " ++ quotedString name ++ ")"
  | .union discriminator caseName content =>
    "Union(" ++ toString discriminator.toInt ++ ", " ++ quotedString caseName ++ ", " ++
      diagnostic content ++ ")"
  | .null => "Null"
termination_by structural v => v

def diagnosticItems : List Value → String
  | [] => ""
  | [v] => diagnostic v
  | v :: rest => diagnostic v ++ ", " ++ diagnosticItems rest
termination_by structural vs => vs

def diagnosticMembers : List (String × Value) → String
  | [] => ""
  | [(name, v)] => quotedString name ++ ": " ++ diagnostic v
  | (name, v) :: rest =>
    quotedString name ++ ": " ++ diagnostic v ++ ", " ++ diagnosticMembers rest
termination_by structural ms => ms

end

end Value

end BusScope
