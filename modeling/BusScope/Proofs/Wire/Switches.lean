import BusScope.Proofs.Wire.Reader
import BusScope.Proofs.Wire.Takes

/-! The case of a union on both sides of the wire. The writer chooses it by the number it was given,
the reader by the number it gets back, and the two numbers differ where a truth value had to stand
for something other than zero and one. -/

namespace BusScope

/-- The number that is read where this one was written. A truth value that it does not fit is true,
which is one. -/
def DataType.switchBack (t : DataType) (n : Int64) : Int64 := if t.switchFits n then n else 1

theorem Primitive.integer?_switchBack {name : String} {kind : Primitive} {n : Int64} {s : Scalar}
    (h : kind.ofInteger n = .ok s) :
    s.integer? = some ((DataType.primitive name kind).switchBack n) := by
  unfold DataType.switchBack
  by_cases hf : (DataType.primitive name kind).switchFits n = true
  · have hb : kind = .bool → n = 0 ∨ n = 1 := by
      rintro rfl
      simpa [DataType.switchFits, DataType.resolved] using hf
    rw [if_pos hf]
    exact Primitive.integer?_of_ofInteger hb h
  · rw [if_neg hf]
    cases kind with
    | bool =>
      have hne : n ≠ 0 := by
        rintro rfl
        exact hf rfl
      cases h
      simp [Scalar.integer?, hne]
    | _ => exact absurd rfl hf

theorem Primitive.boundFits_of_ofInteger {kind : Primitive} {n : Int64} {s : Scalar}
    (h : kind.ofInteger n = .ok s) : kind.boundFits = true := by
  cases kind with
  | string max => cases h
  | _ => rfl

namespace DataType

theorem takes_switch {order : ByteOrder} {t : DataType} {n : Int64} {position : Nat}
    {bytes : List UInt8} (h : t.encodeSwitch (t.encoder order) n position = .ok bytes) :
    ∃ w, Takes (t.decoder order) w position bytes ∧ w.integer? = some (t.switchBack n) := by
  obtain ⟨w, hw, he⟩ := encodeSwitch_eq_ok.mp h
  clear h
  -- Only primitive types and enumerations have values for a switch, under whatever aliases.
  induction t with
  | primitive name kind =>
    obtain ⟨s, rfl, hs⟩ := Encoder.primitive_eq_ok.mp he
    have hkind : kind.ofInteger n = .ok s := by
      change (kind.ofInteger n).map Value.scalar = .ok (.scalar s) at hw
      cases hk : kind.ofInteger n with
      | error e => rw [hk] at hw; cases hw
      | ok s' => rw [hk] at hw; cases hw; rfl
    have hread := Takes.compositional.scalar (Primitive.boundFits_of_ofInteger hkind) hs
    exact ⟨.scalar s, hread.map Value.scalar, Primitive.integer?_switchBack hkind⟩
  | enum name variants =>
    cases hw
    have hread : Takes (Reader.enum order variants)
        ((DataType.enum name variants).canonical (.enum n "")) position bytes :=
      Takes.compositional.enum he
    exact ⟨_, hread, rfl⟩
  | aliased name target ih => exact ih hw he
  | struct | sequence | array | union => cases hw

end DataType

/-- What the reader makes of the discriminator selects the case that was written, unless it is a
truth value for a number that is neither zero nor one, and one selects another. -/
theorem union_case_read_back {order : ByteOrder} {name caseName : String}
    {discriminator : DataType} {cases : List (Case DataType)} {fallback : Option (Case DataType)}
    {n : Int64} {content : Value} {bytes : List UInt8}
    (h : encodeBody order (.union name discriminator cases fallback)
      (.union n caseName content) = .ok bytes) :
    ∃ first second w, bytes = first ++ second ∧
      discriminator.encodeSwitch (discriminator.encoder order) n 0 = .ok first ∧
      (match Case.select cases fallback n with
        | some c => c.type.encoder order content first.length = .ok second
        | none => second = []) ∧
      (∀ rest, decodeBody order discriminator (first ++ rest) = .ok w) ∧
      w.integer? = some (discriminator.switchBack n) ∧
      (Case.select cases fallback (discriminator.switchBack n) = Case.select cases fallback n ↔
        discriminator.switchFits n = true ∨
          Case.select cases fallback 1 = Case.select cases fallback n) := by
  rw [encodeBody] at h
  obtain ⟨m, _, _, first, second, hv, hfirst, hsecond, rfl⟩ := DataType.encoder_union_eq_ok.mp h
  cases hv
  obtain ⟨w, htakes, hint⟩ := DataType.takes_switch hfirst
  refine ⟨first, second, w, rfl, hfirst, ?_, htakes.run_start, hint, ?_⟩
  · rw [Nat.zero_add] at hsecond
    cases hc : Case.select cases fallback n with
    | none =>
      rw [hc] at hsecond
      exact (Except.ok.inj hsecond).symm
    | some c =>
      rw [hc] at hsecond
      exact hsecond
  · unfold DataType.switchBack
    by_cases hf : discriminator.switchFits n = true
    · simp [hf]
    · simp [hf]

def labelled : DataType :=
  .union "Labelled" (.alias "Tag" (.ofPrimitive .char))
    [⟨"flag", [66], .ofPrimitive .bool⟩, ⟨"size", [65, 97], .ofPrimitive .uint16⟩] none

theorem union_case_read_back_labelled :
    encodeBody .big labelled (.union 97 "size" (.scalar (.uint16 513))) = .ok [97, 0, 2, 1] ∧
      ∃ first w, (∀ rest, decodeBody .big (.alias "Tag" (.ofPrimitive .char)) (first ++ rest) =
          .ok w) ∧ w.integer? = some 97 := by
  have h : encodeBody .big labelled (.union 97 "size" (.scalar (.uint16 513))) =
      .ok [97, 0, 2, 1] := by rfl
  obtain ⟨first, _, w, -, -, -, hread, hint, -⟩ := union_case_read_back h
  exact ⟨h, first, w, hread, hint⟩

/-- Two is written as true and its case after it, but what is read back is one, which has none. -/
theorem truth_value_selects_other_case :
    let cases : List (Case DataType) := [⟨"two", [2], .ofPrimitive .uint8⟩]
    let t : DataType := .union "" (.ofPrimitive .bool) cases none
    encodeBody .little t (.union 2 "two" (.scalar (.uint8 7))) = .ok [1, 7] ∧
      (Case.select cases none 2).map (·.name) = some "two" ∧
      decodeBody .little (.ofPrimitive .bool) [1, 7] = .ok (.scalar (.bool true)) ∧
      (Value.scalar (.bool true)).integer? = some 1 ∧
      (Case.select cases none 1).map (·.name) = none ∧
      decodeBody .little t [1, 7] = .ok (.union 1 "" .null) :=
  ⟨rfl, rfl, rfl, rfl, rfl, rfl⟩

end BusScope
