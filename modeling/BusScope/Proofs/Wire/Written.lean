import BusScope.Proofs.DataType.Parts

/-! What the encoders write: when a part of a value is written at all, and that the byte order
decides neither that nor how many bytes it takes. -/

namespace BusScope

open Text

namespace Encoder

theorem andThen_eq_ok {first : Except WireFault (List UInt8)} {position : Nat}
    {next : Nat → Except WireFault (List UInt8)} {bytes : List UInt8} :
    andThen first position next = .ok bytes ↔
      ∃ a b, first = .ok a ∧ next (position + a.length) = .ok b ∧ bytes = a ++ b := by
  unfold andThen
  cases first with
  | error e => simp
  | ok a =>
    cases h : next (position + a.length) with
    | error e => simp [h]
    | ok b => simp [h, eq_comm]

theorem count_eq_ok {order : ByteOrder} {n position : Nat} {bytes : List UInt8} :
    count order n position = .ok bytes ↔ n < 0x100000000 ∧ bytes = word order 4 n position := by
  unfold count
  by_cases h : n < 0x100000000
  · rw [if_pos h]
    constructor
    · intro he
      exact ⟨h, (Except.ok.inj he).symm⟩
    · intro he
      exact congrArg Except.ok he.2.symm
  · rw [if_neg h]
    constructor
    · intro he
      cases he
    · intro he
      exact absurd he.1 h

theorem string_eq_ok {order : ByteOrder} {max : Option Nat} {s : String} {position : Nat}
    {bytes : List UInt8} :
    string order max s position = .ok bytes ↔
      ¬ max.any (· < (Utf8.encode s.toList).length) = true ∧
      (Utf8.encode s.toList).length + 1 < 0x100000000 ∧
      bytes = word order 4 ((Utf8.encode s.toList).length + 1) position ++
        (Utf8.encode s.toList ++ [0]) := by
  unfold string
  by_cases hb : max.any (· < (Utf8.encode s.toList).length) = true
  · simp [hb]
  · rw [if_neg hb, andThen_eq_ok]
    constructor
    · intro h
      obtain ⟨a, b, ha, he, rfl⟩ := h
      obtain ⟨hn, rfl⟩ := count_eq_ok.mp ha
      cases he
      exact ⟨hb, hn, rfl⟩
    · intro h
      obtain ⟨-, hn, rfl⟩ := h
      exact ⟨_, _, count_eq_ok.mpr ⟨hn, rfl⟩, rfl, rfl⟩

theorem wstring_eq_ok {order : ByteOrder} {max : Option Nat} {s : String} {position : Nat}
    {bytes : List UInt8} :
    wstring order max s position = .ok bytes ↔
      ¬ max.any (· < (Utf16.encode s.toList).length) = true ∧
      (Utf16.encode s.toList).length < 0x100000000 ∧
      bytes = word order 4 (Utf16.encode s.toList).length position ++
        words order 2 ((Utf16.encode s.toList).map (·.toNat))
          (position + (word order 4 (Utf16.encode s.toList).length position).length) := by
  unfold wstring
  by_cases hb : max.any (· < (Utf16.encode s.toList).length) = true
  · simp [hb]
  · rw [if_neg hb, andThen_eq_ok]
    constructor
    · intro h
      obtain ⟨a, b, ha, he, rfl⟩ := h
      obtain ⟨hn, rfl⟩ := count_eq_ok.mp ha
      cases he
      exact ⟨hb, hn, rfl⟩
    · intro h
      obtain ⟨-, hn, rfl⟩ := h
      exact ⟨_, _, count_eq_ok.mpr ⟨hn, rfl⟩, rfl, rfl⟩

theorem primitive_eq_ok {order : ByteOrder} {kind : Primitive} {v : Value} {position : Nat}
    {bytes : List UInt8} :
    primitive order kind v position = .ok bytes ↔
      ∃ s, v = .scalar s ∧ scalar? order kind s position = some (.ok bytes) := by
  cases v with
  | scalar s => cases h : scalar? order kind s position <;> simp [primitive, h]
  | _ => simp [primitive]

theorem enum_eq_ok {order : ByteOrder} {v : Value} {position : Nat} {bytes : List UInt8} :
    enum order v position = .ok bytes ↔
      ∃ n name, v = .enum n name ∧ -0x80000000 ≤ n.toInt ∧ n.toInt < 0x80000000 ∧
        bytes = word order 4 n.toInt32.toUInt32.toNat position := by
  cases v with
  | enum n name =>
    by_cases h : -0x80000000 ≤ n.toInt ∧ n.toInt < 0x80000000 <;> simp [enum, h]
    · exact eq_comm
    · omega
  | _ => simp [enum]

theorem struct_eq_ok {fs : List (Field Encoder)} {v : Value} {position : Nat}
    {bytes : List UInt8} :
    struct fs v position = .ok bytes ↔
      ∃ members, v = .struct members ∧ fields fs members position = .ok bytes := by
  cases v <;> simp [struct]

theorem sequence_eq_ok {order : ByteOrder} {max : Option Nat} {element : Encoder} {v : Value}
    {position : Nat} {bytes : List UInt8} :
    sequence order max element v position = .ok bytes ↔
      ∃ vs more, v = .sequence vs ∧ ¬ max.any (· < vs.length) = true ∧ vs.length < 0x100000000 ∧
        items element vs (position + (word order 4 vs.length position).length) = .ok more ∧
        bytes = word order 4 vs.length position ++ more := by
  cases v with
  | sequence vs =>
    by_cases hb : max.any (· < vs.length) = true
    · simp [sequence, hb]
    · simp only [sequence, if_neg hb, andThen_eq_ok, count_eq_ok]
      constructor
      · intro h
        obtain ⟨a, b, ⟨hn, rfl⟩, hi, rfl⟩ := h
        exact ⟨vs, b, rfl, hb, hn, hi, rfl⟩
      · intro h
        obtain ⟨_, b, he, _, hn, hi, rfl⟩ := h
        cases he
        exact ⟨_, b, ⟨hn, rfl⟩, hi, rfl⟩
  | _ => simp [sequence]

theorem array_eq_ok {length : Nat} {element : Encoder} {v : Value} {position : Nat}
    {bytes : List UInt8} :
    array length element v position = .ok bytes ↔
      ∃ vs, v = .array vs ∧ vs.length = length ∧ items element vs position = .ok bytes := by
  cases v with
  | array vs => by_cases h : vs.length = length <;> simp [array, h]
  | _ => simp [array]

theorem union_eq_ok {switch : Int64 → Nat → Except WireFault (List UInt8)}
    {cases : List (Case Encoder)} {fallback : Option (Case Encoder)} {v : Value} {position : Nat}
    {bytes : List UInt8} :
    union switch cases fallback v position = .ok bytes ↔
      ∃ n name content first second, v = .union n name content ∧
        switch n position = .ok first ∧
        (match Case.select cases fallback n with
          | some c => c.type content (position + first.length)
          | none => .ok []) = .ok second ∧
        bytes = first ++ second := by
  cases v with
  | union n name content =>
    simp only [union, andThen_eq_ok]
    constructor
    · intro h
      obtain ⟨a, b, ha, hb, rfl⟩ := h
      exact ⟨n, name, content, a, b, rfl, ha, hb, rfl⟩
    · intro h
      obtain ⟨_, _, _, a, b, he, ha, hb, rfl⟩ := h
      cases he
      exact ⟨a, b, ha, hb, rfl⟩
  | _ => simp [union]

theorem field_of_optional {f : Field Encoder} (h : f.optional = true) (member : Option Value)
    (position : Nat) :
    field f member position = match member with
      | none | some .null => .ok [0]
      | some v => andThen (.ok [1]) position (f.type v) :=
  if_pos h

theorem field_of_required {f : Field Encoder} (h : ¬ f.optional = true) (member : Option Value)
    (position : Nat) :
    field f member position = match member with
      | none => .error (.data (.missingField f.name))
      | some v => f.type v position :=
  if_neg h

@[simp] theorem length_word (order : ByteOrder) (width n position : Nat) :
    (word order width n position).length = Wire.padding width position + width := by
  simp [word]

theorem length_words (order : ByteOrder) (ns : List Nat) (position : Nat) :
    (words order 2 ns position).length = (words .big 2 ns position).length := by
  induction ns generalizing position with
  | nil => rfl
  | cons n ns ih => simp [words, ih]

theorem length_le_words (order : ByteOrder) (ns : List Nat) (position : Nat) :
    ns.length ≤ (words order 2 ns position).length := by
  induction ns generalizing position with
  | nil => exact Nat.zero_le _
  | cons n ns ih =>
    have h := ih (position + (word order 2 n position).length)
    simp only [words, List.length_append, length_word, List.length_cons] at h ⊢
    omega

end Encoder

def SameLength (a b : Except WireFault (List UInt8)) : Prop :=
  a.map List.length = b.map List.length

namespace SameLength

theorem refl (a : Except WireFault (List UInt8)) : SameLength a a := rfl

theorem ok {a b : List UInt8} (h : a.length = b.length) : SameLength (.ok a) (.ok b) :=
  congrArg Except.ok h

theorem andThen {a b : Except WireFault (List UInt8)} {position : Nat}
    {next next' : Nat → Except WireFault (List UInt8)} (h : SameLength a b)
    (hn : ∀ p, SameLength (next p) (next' p)) :
    SameLength (Encoder.andThen a position next) (Encoder.andThen b position next') := by
  cases a with
  | error e =>
    cases b with
    | error e' => exact h
    | ok y => exact absurd h (by simp [SameLength, Except.map])
  | ok x =>
    cases b with
    | error e' => exact absurd h (by simp [SameLength, Except.map])
    | ok y =>
      have hl : x.length = y.length := Except.ok.inj h
      have hk := hn (position + y.length)
      unfold Encoder.andThen
      simp only [hl]
      cases ha : next (position + y.length) <;> cases hb : next' (position + y.length) <;>
        simp [ha, hb, SameLength, Except.map] at hk ⊢
      · exact hk
      · omega

end SameLength

namespace Encoder

theorem sameLength_count (order : ByteOrder) (n position : Nat) :
    SameLength (count order n position) (count .big n position) := by
  unfold count
  split
  · exact .ok (by simp)
  · exact .refl _

theorem sameLength_string (order : ByteOrder) (max : Option Nat) (s : String) (position : Nat) :
    SameLength (string order max s position) (string .big max s position) := by
  unfold string
  dsimp only
  split
  · exact .refl _
  · exact (sameLength_count order _ _).andThen fun _ => .refl _

theorem sameLength_wstring (order : ByteOrder) (max : Option Nat) (s : String) (position : Nat) :
    SameLength (wstring order max s position) (wstring .big max s position) := by
  unfold wstring
  dsimp only
  split
  · exact .refl _
  · exact (sameLength_count order _ _).andThen fun p => .ok (length_words order _ p)

theorem sameLength_primitive (order : ByteOrder) (kind : Primitive) (v : Value) (position : Nat) :
    SameLength (primitive order kind v position) (primitive .big kind v position) := by
  unfold primitive
  split
  · next s =>
    unfold scalar?
    split <;> simp only [Option.getD_some, Option.getD_none] <;> with_reducible first
      | exact .refl _
      | exact .ok (by simp only [length_word])
      | exact sameLength_string order _ _ position
      | exact sameLength_wstring order _ _ position
  · exact .refl _

theorem sameLength_items {e e' : Encoder} (h : ∀ v p, SameLength (e v p) (e' v p))
    (vs : List Value) (position : Nat) :
    SameLength (items e vs position) (items e' vs position) := by
  induction vs generalizing position with
  | nil => exact .refl _
  | cons v vs ih => exact (h v position).andThen ih

end Encoder

namespace DataType

theorem encodeSwitch_eq_ok {t : DataType} {encode : Encoder} {n : Int64} {position : Nat}
    {bytes : List UInt8} :
    t.encodeSwitch encode n position = .ok bytes ↔
      ∃ w, t.switchValue n = .ok w ∧ encode w position = .ok bytes := by
  cases h : t.switchValue n <;> simp [encodeSwitch, h]

theorem encoder_struct_eq_ok {order : ByteOrder} {name : String} {fields : List (Field DataType)}
    {v : Value} {position : Nat} {bytes : List UInt8} :
    (DataType.struct name fields).encoder order v position = .ok bytes ↔
      ∃ members, v = .struct members ∧
        Encoder.fields (fields.map (Field.map (encoder order))) members position = .ok bytes := by
  rw [encoder, fieldEncoders_eq]
  exact Encoder.struct_eq_ok

theorem encoder_union_eq_ok {order : ByteOrder} {name : String} {discriminator : DataType}
    {cases : List (Case DataType)} {fallback : Option (Case DataType)} {v : Value}
    {position : Nat} {bytes : List UInt8} :
    (DataType.union name discriminator cases fallback).encoder order v position = .ok bytes ↔
      ∃ n caseName content first second, v = .union n caseName content ∧
        discriminator.encodeSwitch (discriminator.encoder order) n position = .ok first ∧
        (match Case.select cases fallback n with
          | some c => c.type.encoder order content (position + first.length)
          | none => .ok []) = .ok second ∧
        bytes = first ++ second := by
  have hselect : ∀ n content p,
      (match Case.select (cases.map (Case.map (encoder order)))
          (fallback.map (Case.map (encoder order))) n with
        | some c => c.type content p
        | none => .ok []) =
      match Case.select cases fallback n with
        | some c => c.type.encoder order content p
        | none => .ok [] := by
    intro n content p
    rw [Case.select_map]
    cases Case.select cases fallback n <;> rfl
  rw [encoder, caseEncoders_eq, fallbackEncoder_eq, Encoder.union_eq_ok]
  simp only [hselect]

theorem sameLength_fields (order : ByteOrder) {fs : List (Field DataType)}
    (ih : ∀ f ∈ fs, ∀ v p, SameLength (f.type.encoder order v p) (f.type.encoder .big v p))
    (members : List (String × Value)) (position : Nat) :
    SameLength (Encoder.fields (fs.map (Field.map (encoder order))) members position)
      (Encoder.fields (fs.map (Field.map (encoder .big))) members position) := by
  induction fs generalizing position with
  | nil => exact .refl _
  | cons f fs ihfs =>
    obtain ⟨hf, hfs⟩ := List.forall_mem_cons.mp ih
    refine SameLength.andThen ?_ (ihfs hfs)
    show SameLength (Encoder.field (f.map (encoder order)) (SortedList.find? f.name members) _)
      (Encoder.field (f.map (encoder .big)) (SortedList.find? f.name members) _)
    by_cases ho : f.optional = true
    · rw [Encoder.field_of_optional ho, Encoder.field_of_optional ho]
      split
      · exact .refl _
      · exact .refl _
      · exact (SameLength.refl _).andThen (hf _)
    · rw [Encoder.field_of_required ho, Encoder.field_of_required ho]
      split
      · exact .refl _
      · exact hf _ position

/-- The byte order of the numbers is all in which two encodings of a value differ. -/
theorem sameLength_encoder (order : ByteOrder) (t : DataType) (v : Value) (position : Nat) :
    SameLength (t.encoder order v position) (t.encoder .big v position) := by
  induction t generalizing v position with
  | primitive name kind => exact Encoder.sameLength_primitive order kind v position
  | struct name fields ih =>
    rw [encoder, encoder, fieldEncoders_eq, fieldEncoders_eq]
    unfold Encoder.struct
    split
    · exact sameLength_fields order ih _ position
    · exact .refl _
  | sequence name element max ih =>
    rw [encoder, encoder]
    unfold Encoder.sequence
    split
    · split
      · exact .refl _
      · exact (Encoder.sameLength_count order _ _).andThen (Encoder.sameLength_items ih _)
    · exact .refl _
  | array name element length ih =>
    rw [encoder, encoder]
    unfold Encoder.array
    split
    · split
      · exact Encoder.sameLength_items ih _ position
      · exact .refl _
    · exact .refl _
  | enum name variants =>
    rw [encoder, encoder]
    unfold Encoder.enum
    split
    · dsimp only
      split
      · exact .ok (by simp)
      · exact .refl _
    · exact .refl _
  | union name discriminator cases fallback ihd ihc =>
    rw [encoder, encoder, caseEncoders_eq, caseEncoders_eq, fallbackEncoder_eq, fallbackEncoder_eq]
    unfold Encoder.union
    split
    · next n _ content =>
      refine SameLength.andThen ?_ fun p => ?_
      · unfold encodeSwitch
        cases discriminator.switchValue n with
        | error e => exact .refl _
        | ok w => exact ihd w position
      · rw [Case.select_map, Case.select_map]
        cases hc : Case.select cases fallback n with
        | none => exact .refl _
        | some c => exact ihc c (Case.mem_of_select hc) content p
    · exact .refl _
  | aliased name target ih =>
    rw [encoder, encoder]
    exact ih v position

end DataType

end BusScope
