import BusScope.Text.Utf8
import BusScope.Value.Diagnostic

/-!
What can go wrong between values and their wire form, and the wording of each fault.
-/

namespace BusScope

inductive DataFault where
  | missingField (name : String)
  | sequenceBound
  | stringBound
  | wstringBound
  | arrayLength (expected found : Nat)
  | enumOrdinal
  | charRange
  | discriminatorRange (value : Int64)
  | discriminatorKind
  | countRange (count : Nat)
  | utf16

/-- `switchKind` names the kind of a discriminator type that holds no integers. -/
inductive WireFault where
  | tooShort (needed available : Nat)
  | data (fault : DataFault)
  | header (first second : UInt8)
  | utf8 (fault : Text.Utf8Fault)
  | mismatch (expected : String) (found : Value)
  | switchKind (found : String)

def DataFault.message : DataFault → String
  | .missingField name => "Missing field: " ++ name
  | .sequenceBound => "sequence exceeds bound"
  | .stringBound => "string exceeds bound"
  | .wstringBound => "wstring exceeds bound"
  | .arrayLength expected found =>
    "Array length mismatch: expected " ++ toString expected ++ ", got " ++ toString found
  | .enumOrdinal => "enum ordinal overflows"
  | .charRange => "char outside of 8-bit range"
  | .discriminatorRange value => "discriminator " ++ toString value.toInt ++ " out of range"
  | .discriminatorKind => "non-integral union discriminator"
  | .countRange count => "length " ++ toString count ++ " overflows u32"
  | .utf16 => "Invalid UTF-16"

def WireFault.message : WireFault → String
  | .tooShort needed available =>
    "Buffer too small: need " ++ toString needed ++ " bytes, have " ++ toString available
  | .data fault => "Invalid data: " ++ fault.message
  | .header first second =>
    "Unsupported encapsulation " ++ String.ofList (Text.Hex.ofBytes [first, second])
  | .utf8 fault => "UTF-8 error: " ++ fault.message
  | .mismatch expected found =>
    "Type mismatch: expected " ++ expected ++ ", found " ++ found.diagnostic
  | .switchKind found => "Type mismatch: expected integral discriminator, found " ++ found

end BusScope
