import BusScope.Proofs.Wire.Compositional

/-! What a reader takes off the front of a body, whatever follows. -/

namespace BusScope

theorem Wire.ofLowBytes_lowBytes (width n : Nat) :
    ofLowBytes (lowBytes width n) = n % 256 ^ width := by
  induction width generalizing n with
  | zero => simp [lowBytes, ofLowBytes, Nat.mod_one]
  | succ w ih =>
    rw [lowBytes, ofLowBytes, ih, Nat.pow_succ', Nat.mod_mul]
    simp

theorem ByteOrder.value_bytes (order : ByteOrder) (width n : Nat) :
    order.value (order.bytes width n) = n % 256 ^ width := by
  cases order <;> simp [value, bytes, Wire.ofLowBytes_lowBytes]

variable {α β : Type}

/-- At this position the reader takes exactly these bytes, whatever follows them. -/
def Takes (r : Reader α) (a : α) (position : Nat) (bytes : List UInt8) : Prop :=
  ∀ rest, r ⟨position + bytes.length + rest.length, position, bytes ++ rest⟩ =
    .ok (a, ⟨position + bytes.length + rest.length, position + bytes.length, rest⟩)

namespace Takes

theorem pure (a : α) (position : Nat) : Takes (Pure.pure a) a position [] := fun _ => rfl

theorem bind {r : Reader α} {k : α → Reader β} {a : α} {b : β} {position : Nat}
    {first second : List UInt8} (hr : Takes r a position first)
    (hk : Takes (k a) b (position + first.length) second) :
    Takes (r >>= k) b position (first ++ second) := by
  intro rest
  have h1 := hr (second ++ rest)
  have h2 := hk rest
  have hs : position + first.length + second.length + rest.length =
      position + first.length + (second ++ rest).length := by
    simp only [List.length_append, Nat.add_assoc]
  simp only [List.length_append, List.append_assoc, ← Nat.add_assoc] at h1 h2 ⊢
  rw [Reader.bind_of_ok h1]
  exact h2

theorem map {r : Reader α} {a : α} {position : Nat} {bytes : List UInt8} (f : α → β)
    (h : Takes r a position bytes) : Takes (f <$> r) (f a) position bytes := by
  intro rest
  show (r _ >>= fun p => Pure.pure (f p.1, p.2)) = _
  rw [h rest]
  rfl

theorem align (alignment position : Nat) :
    Takes (Reader.align alignment) () position
      (List.replicate (Wire.padding alignment position) 0) := by
  intro rest
  simp [Reader.align]

theorem take (bytes : List UInt8) (position : Nat) :
    Takes (Reader.take bytes.length) bytes position bytes := by
  intro rest
  simp [Reader.take]

theorem word (order : ByteOrder) (width n position : Nat) :
    Takes (Reader.word order width) (n % 256 ^ width) position
      (Encoder.word order width n position) := by
  have ht := take (order.bytes width n) (position + Wire.padding width position)
  rw [ByteOrder.length_bytes] at ht
  have hv := ht.map order.value
  rw [ByteOrder.value_bytes] at hv
  refine (align width position).bind ?_
  rw [List.length_replicate]
  exact hv

theorem atLeast {r : Reader β} {b : β} {n position : Nat} {bytes : List UInt8}
    (hn : n ≤ bytes.length) (hr : Takes r b position bytes) :
    Takes (Reader.atLeast n >>= fun _ => r) b position bytes := by
  intro rest
  have hle : n ≤ position + bytes.length + rest.length - position := by omega
  show (Reader.atLeast n _ >>= fun p => r p.2) = _
  rw [Reader.atLeast, if_pos hle]
  exact hr rest

theorem compositional : Compositional True @Takes where
  pure := pure
  bind := bind
  take := take
  word := word
  atLeast hn hr := atLeast (hn trivial) hr

theorem run_start {r : Reader α} {a : α} {bytes : List UInt8} (h : Takes r a 0 bytes)
    (rest : List UInt8) : (r.run (.start (bytes ++ rest))).map (·.1) = .ok a := by
  have hr := h rest
  rw [Nat.zero_add, ← List.length_append] at hr
  show (r (.start (bytes ++ rest))).map (·.1) = _
  rw [Cursor.start, hr]
  rfl

end Takes

end BusScope
