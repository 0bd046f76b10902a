import BusScope.Proofs.Wire.Canonical
import BusScope.Proofs.Wire.Compositional
import BusScope.Proofs.Wire.Room

/-! The reader of a type, face to face with what the encoder of the type writes. A compositional
relation that the readers of scalars stand in to what is written for scalars holds of whole types. -/

namespace BusScope

theorem Encoder.length_le_items {e : Encoder} {vs : List Value} {position : Nat}
    {bytes : List UInt8} (h : ∀ v p b, e v p = .ok b → b ≠ [])
    (he : items e vs position = .ok bytes) : vs.length ≤ bytes.length := by
  induction vs generalizing position bytes with
  | nil => exact Nat.zero_le _
  | cons v vs ih =>
    obtain ⟨a, b, ha, hb, rfl⟩ := andThen_eq_ok.mp he
    have hpos : 0 < a.length := List.length_pos_of_ne_nil (h v position a ha)
    have hle : vs.length ≤ b.length := ih hb
    rw [List.length_cons, List.length_append]
    omega

namespace DataType

/-- The reader of a type, given readers of scalars. -/
def reader (scalar : Primitive → Reader Scalar) (order : ByteOrder) : DataType → Decoder := fold
  { primitive := fun kind => Value.scalar <$> scalar kind
    struct := Reader.struct
    sequence := Reader.sequence order
    array := Reader.array
    enum := Reader.enum order
    union := fun _ => Reader.union }

theorem reader_struct (scalar : Primitive → Reader Scalar) (order : ByteOrder) (name : String)
    (fields : List (Field DataType)) :
    (DataType.struct name fields).reader scalar order =
      Reader.struct (fields.map (Field.map (reader scalar order))) :=
  fold_struct _ name fields

theorem reader_union (scalar : Primitive → Reader Scalar) (order : ByteOrder) (name : String)
    (discriminator : DataType) (cases : List (Case DataType)) (fallback : Option (Case DataType)) :
    (DataType.union name discriminator cases fallback).reader scalar order =
      Reader.union (discriminator.reader scalar order)
        (cases.map (Case.map (reader scalar order)))
        (fallback.map (Case.map (reader scalar order))) :=
  fold_union _ name discriminator cases fallback

theorem decoder_eq_reader (order : ByteOrder) (t : DataType) :
    t.decoder order = t.reader (Reader.scalar order) order := by
  refine eq_fold _ (fun _ _ => rfl) (fun name fields => ?_) (fun _ _ _ => rfl) (fun _ _ _ => rfl)
    (fun _ _ => rfl) (fun name discriminator cases fallback => ?_) (fun _ _ => rfl) t
  · rw [decoder, fieldDecoders_eq]
  · rw [decoder, caseDecoders_eq, fallbackDecoder_eq]

/-- A bound on strings leaves room for the terminator. Says nothing about types of other kinds. -/
def boundFits : DataType → Bool
  | .primitive _ kind => kind.boundFits
  | _ => true

/-- The reader of scalars stands in the relation to what is written for each primitive type that
occurs in the type. -/
def ReadsScalars (R : ∀ {α : Type}, Reader α → α → Nat → List UInt8 → Prop)
    (scalar : Primitive → Reader Scalar) (order : ByteOrder) (t : DataType) : Prop :=
  ∀ name kind, .primitive name kind ∈ t.parts → ∀ s position bytes,
    Encoder.scalar? order kind s position = some (.ok bytes) →
      R (scalar kind) s position bytes

end DataType

namespace Compositional

open DataType

variable {room : Prop} {R : ∀ {α : Type}, Reader α → α → Nat → List UInt8 → Prop}
  {scalar : Primitive → Reader Scalar} {order : ByteOrder}

theorem readsScalars (hR : Compositional room R) {t : DataType}
    (h : ∀ s ∈ t.parts, s.boundFits = true) (order : ByteOrder) :
    t.ReadsScalars R (Reader.scalar order) order := by
  intro name kind hk s position bytes hs
  have hfit : kind.boundFits = true := h _ hk
  exact hR.scalar hfit hs

theorem field (hR : Compositional room R) {f : Field DataType} {member : Option Value}
    {position : Nat} {bytes : List UInt8}
    (ih : ∀ v ∈ member, ∀ p b, f.type.encoder order v p = .ok b →
      R (f.type.reader scalar order) (f.type.canonical v) p b)
    (h : Encoder.field (f.map (encoder order)) member position = .ok bytes) :
    R (Reader.field (f.map (reader scalar order)))
      (canonicalMember f.type.canonical member) position bytes := by
  by_cases ho : f.optional = true
  · have hread : Reader.field (f.map (reader scalar order)) =
        Reader.byte >>= fun b => if b = 0 then Pure.pure .null else f.type.reader scalar order :=
      if_pos ho
    rw [Encoder.field_of_optional ho] at h
    rw [hread]
    split at h
    · cases h
      exact hR.bind (hR.byte 0 position) (hR.pure Value.null _)
    · cases h
      exact hR.bind (hR.byte 0 position) (hR.pure Value.null _)
    · next v _ =>
      obtain ⟨a, b, ha, hb, rfl⟩ := Encoder.andThen_eq_ok.mp h
      cases ha
      rw [canonicalMember_some]
      exact hR.bind (hR.byte 1 position) (ih v rfl _ b hb)
  · have hread : Reader.field (f.map (reader scalar order)) = f.type.reader scalar order :=
      if_neg ho
    rw [Encoder.field_of_required ho] at h
    rw [hread]
    split at h
    · cases h
    · next v =>
      rw [canonicalMember_some]
      exact ih v rfl position bytes h

theorem fields (hR : Compositional room R) {fs : List (Field DataType)}
    {members : List (String × Value)} {position : Nat} {bytes : List UInt8}
    (ih : ∀ f ∈ fs, ∀ v ∈ SortedList.find? f.name members, ∀ p b,
      f.type.encoder order v p = .ok b →
        R (f.type.reader scalar order) (f.type.canonical v) p b)
    (h : Encoder.fields (fs.map (Field.map (encoder order))) members position = .ok bytes) :
    R (Reader.fields (fs.map (Field.map (reader scalar order))))
      (fs.map fun f => (f.name, canonicalMember f.type.canonical (SortedList.find? f.name members)))
      position bytes := by
  induction fs generalizing position bytes with
  | nil =>
    cases h
    exact hR.pure [] position
  | cons f fs ihfs =>
    obtain ⟨hf, hfs⟩ := List.forall_mem_cons.mp ih
    obtain ⟨a, b, ha, hb, rfl⟩ := Encoder.andThen_eq_ok.mp h
    have hfirst := hR.field hf ha
    have hrest := hR.map
      (fun others => ((f.name, canonicalMember f.type.canonical
        (SortedList.find? f.name members)) :: others)) (ihfs hfs hb)
    exact hR.bind hfirst hrest

theorem primitive (hR : Compositional room R) {name : String} {kind : Primitive} {v : Value}
    {position : Nat} {bytes : List UInt8}
    (hr : (DataType.primitive name kind).ReadsScalars R scalar order)
    (h : Encoder.primitive order kind v position = .ok bytes) :
    R (Value.scalar <$> scalar kind) v position bytes := by
  obtain ⟨s, rfl, hs⟩ := Encoder.primitive_eq_ok.mp h
  have hread := hr name kind (mem_parts_self _) s position bytes hs
  exact hR.map Value.scalar hread

theorem enum (hR : Compositional room R) {name : String} {variants : List Variant} {v : Value}
    {position : Nat} {bytes : List UInt8} (h : Encoder.enum order v position = .ok bytes) :
    R (Reader.enum order variants) ((DataType.enum name variants).canonical v) position bytes := by
  obtain ⟨n, _, rfl, hlow, hhigh, rfl⟩ := Encoder.enum_eq_ok.mp h
  have hs : n.toInt32.toInt = n.toInt := by
    rw [Int64.toInt_toInt32]
    exact Int.bmod_eq_of_le (by omega) (by omega)
  have hn : n.toInt32.toInt64 = n := Int64.toInt.inj (by rw [Int32.toInt_toInt64, hs])
  have hback : n.toInt32.toUInt32.toNat.toUInt32.toInt32.toInt64 = n := by
    simpa using hn
  refine hR.ofWord n.toInt32.toUInt32.toNat_lt ?_
  show Value.enum _ (Variant.nameOf variants _) = _
  rw [hback]
  rfl

theorem reader (hR : Compositional room R) {t : DataType} {v : Value} {position : Nat}
    {bytes : List UInt8} (hr : t.ReadsScalars R scalar order)
    (hroom : room → ∀ s ∈ t.parts, s.itemsTakeRoom = true) (hf : t.switchesFit v = true)
    (h : t.encoder order v position = .ok bytes) :
    R (t.reader scalar order) (t.canonical v) position bytes := by
  -- On the type, since that is what encoder and reader both follow.
  induction t generalizing v position bytes with
  | primitive name kind => exact hR.primitive hr h
  | enum name variants => exact hR.enum h
  | struct name fields ih =>
    obtain ⟨members, rfl, hm⟩ := encoder_struct_eq_ok.mp h
    rw [switchesFit_struct] at hf
    rw [reader_struct, canonical_struct]
    refine hR.map Value.ofMembers (hR.fields (fun f hmem w hw p b hb => ?_) hm)
    have hsub : f.type.parts ⊆ (DataType.struct name fields).parts := parts_subset_struct hmem
    exact ih f hmem (fun n k hk => hr n k (hsub hk)) (fun hr s hs => hroom hr s (hsub hs))
      (hf f hmem w hw) hb
  | sequence name element max ih =>
    rw [encoder] at h
    obtain ⟨vs, more, rfl, hmax, hn, hb, rfl⟩ := Encoder.sequence_eq_ok.mp h
    have hitems := hR.items (fun v hv p b hvb => ih
      (fun n k hk => hr n k (parts_subset_sequence hk))
      (fun hr s hs => hroom hr s (parts_subset_sequence hs))
      (switchesFit_sequence.mp hf v hv) hvb) hb
    refine hR.count hn (fun hr => ?_) ?_
    · -- The count is only accepted since every item left at least one byte.
      have hroomy : element.canBeEmpty = false := by
        simpa [itemsTakeRoom] using hroom hr _ (mem_parts_self _)
      exact Encoder.length_le_items (fun _ _ _ he => ne_nil_of_encoder hroomy he) hb
    rw [if_neg hmax]
    exact hR.map Value.sequence hitems
  | array name element length ih =>
    rw [encoder] at h
    obtain ⟨vs, rfl, rfl, hb⟩ := Encoder.array_eq_ok.mp h
    have hitems := hR.items (fun v hv p b hvb => ih
      (fun n k hk => hr n k (parts_subset_array hk))
      (fun hr s hs => hroom hr s (parts_subset_array hs))
      (switchesFit_array.mp hf v hv) hvb) hb
    exact hR.map Value.array hitems
  | union name discriminator cases fallback ihd ihc =>
    obtain ⟨n, _, content, a, b, rfl, ha, hb, rfl⟩ := encoder_union_eq_ok.mp h
    obtain ⟨w, hw, ha⟩ := encodeSwitch_eq_ok.mp ha
    obtain ⟨hfit, hcontent⟩ := switchesFit_union.mp hf
    have hread := ihd (fun n k hk => hr n k (parts_subset_union hk))
      (fun hr s hs => hroom hr s (parts_subset_union hs)) (switchesFit_of_switchValue hw) ha
    rw [reader_union, canonical_union]
    refine hR.bind hread ?_
    -- The reader selects by the integer it reads back, the encoder by the one it was given.
    rw [integer?_canonical_of_switchValue hfit hw]
    dsimp only
    rw [Case.select_map]
    cases hc : Case.select cases fallback n with
    | none =>
      rw [hc] at hb
      cases hb
      exact hR.pure (Value.union n "" .null) _
    | some c =>
      rw [hc] at hb
      have hmem := Case.mem_of_select hc
      have hsub : c.type.parts ⊆ (DataType.union name discriminator cases fallback).parts :=
        parts_subset_union_case hmem
      have hcase := ihc c hmem (fun n k hk => hr n k (hsub hk))
        (fun hr s hs => hroom hr s (hsub hs)) (hcontent c hc) hb
      exact hR.map (Value.union n c.name) hcase
  | aliased name target ih =>
    rw [encoder] at h
    exact ih (fun n k hk => hr n k (parts_subset_alias hk))
      (fun hr s hs => hroom hr s (parts_subset_alias hs)) hf h

end Compositional

end BusScope
