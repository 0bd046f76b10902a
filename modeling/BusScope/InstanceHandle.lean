import BusScope.Digest
import BusScope.Text.Hex

/-!
Handles of instances. A serialized key of at most sixteen bytes is its own handle, padded with
zeros; a longer one is digested.
-/

namespace BusScope

structure InstanceHandle where
  bytes : Vector UInt8 16
deriving DecidableEq

namespace InstanceHandle

/-- The handle of a topic without keys, which has one instance. -/
def nil : InstanceHandle := ⟨Vector.replicate 16 0⟩

instance : Inhabited InstanceHandle := ⟨nil⟩

def isNil (h : InstanceHandle) : Bool := h == nil

def ofBytes? (bytes : List UInt8) : Option InstanceHandle :=
  if h : bytes.length = 16 then some ⟨⟨bytes.toArray, by simp [h]⟩⟩ else none

def ofKeyHolder (holder : List UInt8) : InstanceHandle :=
  if h : holder.length ≤ 16 then
    ⟨⟨(holder ++ List.replicate (16 - holder.length) 0).toArray, by simp; omega⟩⟩
  else ⟨⟨(Digest.md5 holder).toArray, by simp [Digest.length_md5]⟩⟩

instance : Ord InstanceHandle := ⟨compareOn (·.bytes)⟩

instance : Std.TransOrd InstanceHandle :=
  inferInstanceAs (Std.TransCmp (compareOn InstanceHandle.bytes))

instance : Std.LawfulEqOrd InstanceHandle where
  compare_self {a} := show compare a.bytes a.bytes = .eq from Std.ReflOrd.compare_self
  eq_of_compare {a b} h := by
    cases a
    cases b
    simp only [mk.injEq]
    exact Std.LawfulEqOrd.eq_of_compare h

def hex (h : InstanceHandle) : String := String.ofList (Text.Hex.ofBytes h.bytes.toList)

def diagnostic (h : InstanceHandle) : String := "InstanceHandle(" ++ h.hex ++ ")"

end InstanceHandle

end BusScope
