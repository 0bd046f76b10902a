import BusScope.Proofs.Wire.Written

/-! Lengths on the wire: of strings, of wide strings and of sequences. What the encoders insist on
and what the readers let pass are two rules, which differ in one byte of a string. -/

namespace BusScope

open Text

/-- The bytes of a string, the units of a wide string or the items of a sequence. -/
inductive LengthUnit where
  | bytes
  | units
  | items

abbrev LengthRule := LengthUnit → Option Nat → Nat → Bool

namespace LengthRule

/-- A string has to leave room for its terminator in the count, but not in the bound. -/
def written : LengthRule
  | .bytes, max, n => max.all (n ≤ ·) && n + 1 < 0x100000000
  | _, max, n => max.all (n ≤ ·) && n < 0x100000000

/-- A string that comes without a terminator may be one byte longer. -/
def read : LengthRule
  | .bytes, max, n => max.all (n ≤ · + 1) && n < 0x100000000
  | _, max, n => max.all (n ≤ ·) && n < 0x100000000

end LengthRule

theorem Option.all_le_iff {max : Option Nat} {n : Nat} :
    max.all (n ≤ ·) = true ↔ ¬ max.any (· < n) = true := by
  cases max <;> simp

def Primitive.lengthObeys (rule : LengthRule) : Primitive → Scalar → Bool
  | .string max, .string s => rule .bytes max (Utf8.encode s.toList).length
  | .wstring max, .wstring s => rule .units max (Utf16.encode s.toList).length
  | _, _ => true

namespace DataType

/-- Every length in the value obeys the rule under the bound that the type puts on it. Nothing is
asked of values that are not of the type's kind. -/
def lengthsObey (rule : LengthRule) : DataType → Value → Bool := fold
  { primitive := fun kind v =>
      match v with
      | .scalar s => kind.lengthObeys rule s
      | _ => true
    struct := fun fields v =>
      match v with
      | .struct members => fields.all fun f => (SortedList.find? f.name members).all f.type
      | _ => true
    sequence := fun max element v =>
      match v with
      | .sequence vs => rule .items max vs.length && vs.all element
      | _ => true
    array := fun _ element v =>
      match v with
      | .array vs => vs.all element
      | _ => true
    enum := fun _ _ => true
    union := fun _ _ cases fallback v =>
      match v with
      | .union n _ content => (Case.select cases fallback n).all fun c => c.type content
      | _ => true }

variable {rule : LengthRule}

theorem lengthsObey_struct {name : String} {fields : List (Field DataType)}
    {members : List (String × Value)} :
    (DataType.struct name fields).lengthsObey rule (.struct members) = true ↔
      ∀ f ∈ fields, ∀ v ∈ SortedList.find? f.name members, f.type.lengthsObey rule v = true := by
  rw [lengthsObey, fold_struct]
  simp only [List.all_map, List.all_eq_true, Option.all_eq_true, Function.comp_apply]
  rfl

theorem lengthsObey_sequence {name : String} {element : DataType} {max : Option Nat}
    {vs : List Value} :
    (DataType.sequence name element max).lengthsObey rule (.sequence vs) = true ↔
      rule .items max vs.length = true ∧ ∀ v ∈ vs, element.lengthsObey rule v = true := by
  rw [← List.all_eq_true]
  exact Bool.and_eq_true_iff

theorem lengthsObey_array {name : String} {element : DataType} {length : Nat} {vs : List Value} :
    (DataType.array name element length).lengthsObey rule (.array vs) = true ↔
      ∀ v ∈ vs, element.lengthsObey rule v = true :=
  List.all_eq_true

theorem lengthsObey_union {name : String} {discriminator : DataType}
    {cases : List (Case DataType)} {fallback : Option (Case DataType)} {n : Int64}
    {caseName : String} {content : Value} :
    (DataType.union name discriminator cases fallback).lengthsObey rule
        (.union n caseName content) = true ↔
      ∀ c ∈ Case.select cases fallback n, c.type.lengthsObey rule content = true := by
  rw [lengthsObey, fold_union]
  simp only [Case.select_map, Option.all_eq_true]
  cases Case.select cases fallback n with
  | none => simp
  | some c => simp [Case.map]

theorem lengthsObey_null (t : DataType) : t.lengthsObey rule .null = true := by
  induction t with
  | primitive name kind => rfl
  | struct name fields ih => rw [lengthsObey, fold_struct]
  | sequence name element max ih => rfl
  | array name element length ih => rfl
  | enum name variants => rfl
  | union name discriminator cases fallback ihd ihc => rw [lengthsObey, fold_union]
  | aliased name target ih => exact ih

end DataType

theorem Primitive.lengthObeys_of_scalar? {order : ByteOrder} {kind : Primitive} {s : Scalar}
    {position : Nat} {bytes : List UInt8}
    (h : Encoder.scalar? order kind s position = some (.ok bytes)) :
    kind.lengthObeys .written s = true := by
  unfold Encoder.scalar? at h
  split at h
  case h_13 max text =>
    obtain ⟨hmax, hn, -⟩ := Encoder.string_eq_ok.mp (Option.some.inj h)
    exact Bool.and_eq_true_iff.mpr ⟨Option.all_le_iff.mpr hmax, decide_eq_true hn⟩
  case h_14 max text =>
    obtain ⟨hmax, hn, -⟩ := Encoder.wstring_eq_ok.mp (Option.some.inj h)
    exact Bool.and_eq_true_iff.mpr ⟨Option.all_le_iff.mpr hmax, decide_eq_true hn⟩
  case h_15 => cases h
  all_goals rfl

namespace Encoder

theorem item_of_items {e : Encoder} {vs : List Value} {position : Nat} {bytes : List UInt8}
    (h : items e vs position = .ok bytes) : ∀ v ∈ vs, ∃ p b, e v p = .ok b := by
  induction vs generalizing position bytes with
  | nil => exact fun v hv => absurd hv List.not_mem_nil
  | cons v vs ih =>
    obtain ⟨a, b, ha, hb, -⟩ := andThen_eq_ok.mp h
    exact List.forall_mem_cons.mpr ⟨⟨position, a, ha⟩, ih hb⟩

theorem field_of_fields {fs : List (Field Encoder)} {members : List (String × Value)}
    {position : Nat} {bytes : List UInt8} (h : fields fs members position = .ok bytes) :
    ∀ f ∈ fs, ∃ p b, field f (SortedList.find? f.name members) p = .ok b := by
  induction fs generalizing position bytes with
  | nil => exact fun f hf => absurd hf List.not_mem_nil
  | cons f fs ih =>
    obtain ⟨a, b, ha, hb, -⟩ := andThen_eq_ok.mp h
    exact List.forall_mem_cons.mpr ⟨⟨position, a, ha⟩, ih hb⟩

theorem member_of_field {f : Field Encoder} {v : Value} {position : Nat} {bytes : List UInt8}
    (h : field f (some v) position = .ok bytes) : v = .null ∨ ∃ p b, f.type v p = .ok b := by
  by_cases ho : f.optional = true
  · rw [field_of_optional ho] at h
    split at h
    · next he => cases he
    · next he => exact .inl (Option.some.inj he)
    · next w _ he =>
      cases he
      obtain ⟨a, b, -, hb, -⟩ := andThen_eq_ok.mp h
      exact .inr ⟨_, b, hb⟩
  · rw [field_of_required ho] at h
    exact .inr ⟨position, bytes, h⟩

end Encoder

namespace DataType

theorem lengthsObey_of_encoder {order : ByteOrder} {t : DataType} {v : Value} {position : Nat}
    {bytes : List UInt8} (h : t.encoder order v position = .ok bytes) :
    t.lengthsObey .written v = true := by
  induction t generalizing v position bytes with
  | primitive name kind =>
    obtain ⟨s, rfl, hs⟩ := Encoder.primitive_eq_ok.mp h
    exact Primitive.lengthObeys_of_scalar? hs
  | enum name variants => rfl
  | struct name fields ih =>
    obtain ⟨members, rfl, hm⟩ := encoder_struct_eq_ok.mp h
    refine lengthsObey_struct.mpr fun f hf v hv => ?_
    obtain ⟨p, b, hfield⟩ := Encoder.field_of_fields hm _ (List.mem_map_of_mem hf)
    change Encoder.field _ (SortedList.find? f.name members) p = .ok b at hfield
    rw [Option.mem_def.mp hv] at hfield
    rcases Encoder.member_of_field hfield with rfl | ⟨p, b, hmember⟩
    · exact f.type.lengthsObey_null
    · exact ih f hf hmember
  | sequence name element max ih =>
    rw [encoder] at h
    obtain ⟨vs, more, rfl, hmax, hn, hb, -⟩ := Encoder.sequence_eq_ok.mp h
    refine lengthsObey_sequence.mpr ⟨?_, fun v hv => ?_⟩
    · exact Bool.and_eq_true_iff.mpr ⟨Option.all_le_iff.mpr hmax, decide_eq_true hn⟩
    · obtain ⟨p, b, hitem⟩ := Encoder.item_of_items hb v hv
      exact ih hitem
  | array name element length ih =>
    rw [encoder] at h
    obtain ⟨vs, rfl, -, hb⟩ := Encoder.array_eq_ok.mp h
    refine lengthsObey_array.mpr fun v hv => ?_
    obtain ⟨p, b, hitem⟩ := Encoder.item_of_items hb v hv
    exact ih hitem
  | union name discriminator cases fallback ihd ihc =>
    obtain ⟨n, _, content, a, b, rfl, -, hb, -⟩ := encoder_union_eq_ok.mp h
    refine lengthsObey_union.mpr fun c hc => ?_
    rw [Option.mem_def.mp hc] at hb
    exact ihc c (Case.mem_of_select hc) hb
  | aliased name target ih =>
    rw [encoder] at h
    exact ih h

end DataType

end BusScope
