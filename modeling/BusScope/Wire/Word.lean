/-!
Numbers as bytes in either order, and the padding that puts a number on a multiple of its width.
-/

namespace BusScope

inductive ByteOrder where
  | little
  | big
deriving DecidableEq, Repr

namespace Wire

/-- The lowest `width` bytes of a number, least significant first. -/
def lowBytes : Nat → Nat → List UInt8
  | 0, _ => []
  | width + 1, n => UInt8.ofNat n :: lowBytes width (n / 256)

def ofLowBytes : List UInt8 → Nat
  | [] => 0
  | b :: rest => b.toNat + 256 * ofLowBytes rest

/-- How many bytes lead from a position to the next multiple of the alignment. -/
def padding (alignment position : Nat) : Nat :=
  (alignment - position % alignment) % alignment

@[simp] theorem length_lowBytes (width n : Nat) : (lowBytes width n).length = width := by
  induction width generalizing n with
  | zero => rfl
  | succ w ih => simp [lowBytes, ih]

end Wire

namespace ByteOrder

def bytes (order : ByteOrder) (width n : Nat) : List UInt8 :=
  match order with
  | .little => Wire.lowBytes width n
  | .big => (Wire.lowBytes width n).reverse

def value (order : ByteOrder) (bytes : List UInt8) : Nat :=
  match order with
  | .little => Wire.ofLowBytes bytes
  | .big => Wire.ofLowBytes bytes.reverse

@[simp] theorem length_bytes (order : ByteOrder) (width n : Nat) :
    (order.bytes width n).length = width := by
  cases order <;> simp [bytes]

end ByteOrder

end BusScope
