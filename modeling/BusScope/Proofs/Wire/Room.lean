import BusScope.Proofs.SortedMap
import BusScope.Proofs.Wire.Written

/-! Which types have values that take no bytes at all. The count in front of a sequence is held
against the bytes that are left, so the items of a sequence had better take some. -/

namespace BusScope

namespace DataType

/-- Whether some value of the type takes no bytes: a structure whose members all can, an array
without items or of such items. -/
def canBeEmpty : DataType → Bool := fold
  { primitive := fun _ => false
    struct := fun fields => fields.all fun f => !f.optional && f.type
    sequence := fun _ _ => false
    array := fun length element => length == 0 || element
    enum := fun _ => false
    union := fun _ _ _ _ => false }

theorem canBeEmpty_struct (name : String) (fields : List (Field DataType)) :
    (DataType.struct name fields).canBeEmpty =
      fields.all fun f => !f.optional && f.type.canBeEmpty := by
  rw [canBeEmpty, fold_struct]
  simp only [List.all_map]
  rfl

theorem canBeEmpty_array (name : String) (element : DataType) (length : Nat) :
    (DataType.array name element length).canBeEmpty = (length == 0 || element.canBeEmpty) := rfl

/-- Each item of a sequence takes room. Says nothing about the types of other kinds. -/
def itemsTakeRoom : DataType → Bool
  | .sequence _ element _ => !element.canBeEmpty
  | _ => true

def namesDistinct : DataType → Bool
  | .struct _ fields => decide (fields.map (·.name)).Nodup
  | _ => true

end DataType

namespace Encoder

theorem word_ne_nil {order : ByteOrder} {width n position : Nat} (h : 0 < width) :
    word order width n position ≠ [] := by
  intro he
  have := congrArg List.length he
  rw [length_word, List.length_nil] at this
  omega

theorem andThen_ne_nil {first : Except WireFault (List UInt8)} {position : Nat}
    {next : Nat → Except WireFault (List UInt8)} {bytes : List UInt8}
    (h : andThen first position next = .ok bytes) (hf : ∀ a, first = .ok a → a ≠ []) :
    bytes ≠ [] := by
  obtain ⟨a, b, ha, _, rfl⟩ := andThen_eq_ok.mp h
  exact fun he => hf a ha (List.append_eq_nil_iff.mp he).1

theorem primitive_ne_nil {order : ByteOrder} {kind : Primitive} {v : Value} {position : Nat}
    {bytes : List UInt8} (h : primitive order kind v position = .ok bytes) : bytes ≠ [] := by
  obtain ⟨s, rfl, hs⟩ := primitive_eq_ok.mp h
  unfold scalar? at hs
  split at hs
  all_goals first
    | exact (Except.ok.inj (Option.some.inj hs)) ▸ word_ne_nil (by decide)
    | exact (Except.ok.inj (Option.some.inj hs)) ▸ List.cons_ne_nil _ _
    | skip
  case h_12 c =>
    rw [Option.some.injEq] at hs
    split at hs
    · exact (Except.ok.inj hs) ▸ List.cons_ne_nil _ _
    · cases hs
  case h_13 max text =>
    obtain ⟨-, -, rfl⟩ := string_eq_ok.mp (Option.some.inj hs)
    exact List.append_ne_nil_of_left_ne_nil (word_ne_nil (by decide)) _
  case h_14 max text =>
    obtain ⟨-, -, rfl⟩ := wstring_eq_ok.mp (Option.some.inj hs)
    exact List.append_ne_nil_of_left_ne_nil (word_ne_nil (by decide)) _
  case h_15 =>
    cases hs

theorem enum_ne_nil {order : ByteOrder} {v : Value} {position : Nat} {bytes : List UInt8}
    (h : enum order v position = .ok bytes) : bytes ≠ [] := by
  obtain ⟨n, name, -, -, -, rfl⟩ := enum_eq_ok.mp h
  exact word_ne_nil (by decide)

theorem items_eq_nil {e : Encoder} {vs : List Value} {position : Nat} {bytes : List UInt8}
    (h : ∀ v p b, e v p = .ok b → b = []) (he : items e vs position = .ok bytes) : bytes = [] := by
  induction vs generalizing position bytes with
  | nil => exact (Except.ok.inj he).symm
  | cons v vs ih =>
    obtain ⟨a, b, ha, hb, rfl⟩ := andThen_eq_ok.mp he
    rw [h v position a ha, ih hb, List.append_nil]

end Encoder

namespace DataType

variable {order : ByteOrder}

theorem ne_nil_of_encodeSwitch {t : DataType} {n : Int64} {position : Nat} {bytes : List UInt8}
    (h : t.encodeSwitch (t.encoder order) n position = .ok bytes) : bytes ≠ [] := by
  obtain ⟨w, hw, he⟩ := encodeSwitch_eq_ok.mp h
  clear h
  induction t with
  | primitive name kind => exact Encoder.primitive_ne_nil he
  | enum name variants => exact Encoder.enum_ne_nil he
  | aliased name target ih => exact ih hw he
  | struct name fields ih => cases hw
  | sequence name element max ih => cases hw
  | array name element length ih => cases hw
  | union name discriminator cases fallback ihd ihc => cases hw

theorem exists_ne_nil_of_fields {fs : List (Field DataType)} {members : List (String × Value)}
    {position : Nat} {bytes : List UInt8}
    (ih : ∀ f ∈ fs, f.type.canBeEmpty = false → ∀ v p b,
      f.type.encoder order v p = .ok b → b ≠ [])
    (h : (fs.all fun f => !f.optional && f.type.canBeEmpty) = false)
    (he : Encoder.fields (fs.map (Field.map (encoder order))) members position = .ok bytes) :
    bytes ≠ [] := by
  induction fs generalizing position bytes with
  | nil => exact absurd h (by simp)
  | cons f fs ihfs =>
    obtain ⟨hf, hfs⟩ := List.forall_mem_cons.mp ih
    obtain ⟨a, b, ha, hb, rfl⟩ := Encoder.andThen_eq_ok.mp he
    intro hnil
    obtain ⟨rfl, rfl⟩ := List.append_eq_nil_iff.mp hnil
    rw [List.all_cons, Bool.and_eq_false_iff] at h
    rcases h with h | h
    · by_cases ho : f.optional = true
      · rw [Encoder.field_of_optional ho] at ha
        split at ha
        · cases ha
        · cases ha
        · obtain ⟨x, y, hx, _, hxy⟩ := Encoder.andThen_eq_ok.mp ha
          cases hx
          cases hxy
      · rw [Encoder.field_of_required ho] at ha
        split at ha
        · cases ha
        · have hc : f.type.canBeEmpty = false := by simpa [ho] using h
          exact hf hc _ _ _ ha rfl
    · exact ihfs hfs h hb rfl

theorem ne_nil_of_encoder {t : DataType} (h : t.canBeEmpty = false) {v : Value} {position : Nat}
    {bytes : List UInt8} (he : t.encoder order v position = .ok bytes) : bytes ≠ [] := by
  induction t generalizing v position bytes with
  | primitive name kind => exact Encoder.primitive_ne_nil he
  | struct name fields ih =>
    rw [canBeEmpty_struct] at h
    obtain ⟨members, rfl, hm⟩ := encoder_struct_eq_ok.mp he
    exact exists_ne_nil_of_fields (fun f hf hc v p b => ih f hf hc) h hm
  | sequence name element max ih =>
    rw [encoder] at he
    obtain ⟨vs, more, rfl, -, -, -, rfl⟩ := Encoder.sequence_eq_ok.mp he
    exact List.append_ne_nil_of_left_ne_nil (Encoder.word_ne_nil (by decide)) _
  | array name element length ih =>
    rw [canBeEmpty_array, Bool.or_eq_false_iff, beq_eq_false_iff_ne] at h
    rw [encoder] at he
    obtain ⟨vs, rfl, hl, he⟩ := Encoder.array_eq_ok.mp he
    cases vs with
    | nil => exact absurd hl.symm h.1
    | cons w ws => exact Encoder.andThen_ne_nil he fun _ => ih h.2
  | enum name variants =>
    exact Encoder.enum_ne_nil he
  | union name discriminator cases fallback ihd ihc =>
    obtain ⟨n, case, content, first, second, rfl, hs, -, rfl⟩ := encoder_union_eq_ok.mp he
    exact List.append_ne_nil_of_left_ne_nil (ne_nil_of_encodeSwitch hs) _
  | aliased name target ih =>
    rw [encoder] at he
    exact ih h he

theorem eq_nil_of_fields {fs : List (Field DataType)} {members : List (String × Value)}
    {position : Nat} {bytes : List UInt8}
    (ih : ∀ f ∈ fs, f.type.canBeEmpty = true → ∀ v p b, f.type.encoder order v p = .ok b → b = [])
    (h : ∀ f ∈ fs, f.optional = false ∧ f.type.canBeEmpty = true)
    (he : Encoder.fields (fs.map (Field.map (encoder order))) members position = .ok bytes) :
    bytes = [] := by
  induction fs generalizing position bytes with
  | nil => exact (Except.ok.inj he).symm
  | cons f fs ihfs =>
    obtain ⟨hf, hfs⟩ := List.forall_mem_cons.mp ih
    obtain ⟨⟨ho, hempty⟩, hrest⟩ := List.forall_mem_cons.mp h
    obtain ⟨a, b, ha, hb, rfl⟩ := Encoder.andThen_eq_ok.mp he
    have hb : b = [] := ihfs hfs hrest hb
    change Encoder.field (f.map (encoder order)) (SortedList.find? f.name members) _ = _ at ha
    rw [Encoder.field_of_required (by simp [Field.map, ho])] at ha
    split at ha
    · cases ha
    · next v _ => rw [hf hempty v _ a ha, hb, List.append_nil]

/-- Where one value of a type takes no bytes, none does. -/
theorem eq_nil_of_encoder {t : DataType} (h : t.canBeEmpty = true) {v : Value} {position : Nat}
    {bytes : List UInt8} (he : t.encoder order v position = .ok bytes) : bytes = [] := by
  induction t generalizing v position bytes with
  | primitive | sequence | enum | union => exact absurd h Bool.false_ne_true
  | struct name fields ih =>
    rw [canBeEmpty_struct, List.all_eq_true] at h
    obtain ⟨members, rfl, hm⟩ := encoder_struct_eq_ok.mp he
    refine eq_nil_of_fields (fun f hf hc v p b => ih f hf hc) (fun f hf => ?_) hm
    simpa using h f hf
  | array name element length ih =>
    rw [canBeEmpty_array, Bool.or_eq_true, beq_iff_eq] at h
    rw [encoder] at he
    obtain ⟨vs, rfl, hl, he⟩ := Encoder.array_eq_ok.mp he
    rcases h with rfl | h
    · rw [List.length_eq_zero_iff.mp hl] at he
      exact (Except.ok.inj he).symm
    · exact Encoder.items_eq_nil (fun _ _ _ => ih h) he
  | aliased name target ih =>
    rw [encoder] at he
    exact ih h he

theorem encoder_fields_eq_nil {fs : List (Field DataType)} {members : List (String × Value)}
    (h : ∀ f ∈ fs, f.optional = false ∧ ∃ v, SortedList.find? f.name members = some v ∧
      ∀ p, f.type.encoder order v p = .ok []) (position : Nat) :
    Encoder.fields (fs.map (Field.map (encoder order))) members position = .ok [] := by
  induction fs generalizing position with
  | nil => rfl
  | cons f fs ih =>
    obtain ⟨⟨ho, v, hv, he⟩, hfs⟩ := List.forall_mem_cons.mp h
    refine Encoder.andThen_eq_ok.mpr ⟨[], [], ?_, ih hfs _, rfl⟩
    show Encoder.field (f.map (encoder order)) (SortedList.find? f.name members) position = _
    rw [Encoder.field_of_required (by simp [Field.map, ho]), hv]
    exact he position

theorem exists_encoder_eq_nil {t : DataType} (hd : ∀ s ∈ t.parts, s.namesDistinct = true)
    (h : t.canBeEmpty = true) : ∃ v, ∀ order p, t.encoder order v p = .ok [] := by
  induction t with
  | primitive name kind => exact absurd h Bool.false_ne_true
  | enum name variants => exact absurd h Bool.false_ne_true
  | sequence name element max ih => exact absurd h Bool.false_ne_true
  | union name discriminator cases fallback ihd ihc => exact absurd h Bool.false_ne_true
  | aliased name target ih =>
    exact ih (fun s hs => hd s (parts_subset_alias hs)) h
  | array name element length ih =>
    rw [canBeEmpty_array, Bool.or_eq_true, beq_iff_eq] at h
    rcases h with h | h
    · exact ⟨.array [], fun order p => by subst h; rfl⟩
    · obtain ⟨v, hv⟩ := ih (fun s hs => hd s (parts_subset_array hs)) h
      refine ⟨.array (List.replicate length v), fun order p => ?_⟩
      have hitems : ∀ n p, Encoder.items (element.encoder order) (List.replicate n v) p = .ok [] := by
        intro n
        induction n with
        | zero => exact fun _ => rfl
        | succ n ihn =>
          exact fun p => Encoder.andThen_eq_ok.mpr ⟨[], [], hv order p, ihn _, rfl⟩
      rw [encoder, Encoder.array, if_pos (List.length_replicate)]
      exact hitems length p
  | struct name fields ih =>
    rw [canBeEmpty_struct, List.all_eq_true] at h
    have hn : (fields.map (·.name)).Nodup := by
      simpa [namesDistinct] using hd _ (mem_parts_self _)
    have hv : ∀ f ∈ fields, ∃ v, ∀ order p, f.type.encoder order v p = .ok [] := fun f hf =>
      ih f hf (fun s hs => hd s (parts_subset_struct hf hs)) (by have := h f hf; simp_all)
    choose! value hvalue using hv
    refine ⟨.ofMembers (fields.map fun f => (f.name, value f)), fun order p => ?_⟩
    rw [encoder, fieldEncoders_eq]
    refine encoder_fields_eq_nil (fun f hf => ⟨by have := h f hf; simp_all, value f, ?_, ?_⟩) p
    · refine SortedList.find?_ofList_of_mem ?_ (List.mem_map.mpr ⟨f, hf, rfl⟩)
      rw [List.map_map]
      exact hn
    · exact hvalue f hf order

theorem canBeEmpty_iff {t : DataType} (hd : ∀ s ∈ t.parts, s.namesDistinct = true) :
    t.canBeEmpty = true ↔ ∃ v order p, t.encoder order v p = .ok [] := by
  constructor
  · intro h
    obtain ⟨v, hv⟩ := exists_encoder_eq_nil hd h
    exact ⟨v, .big, 0, hv .big 0⟩
  · intro h
    obtain ⟨v, order, p, hv⟩ := h
    by_contra hc
    exact ne_nil_of_encoder (Bool.not_eq_true _ ▸ hc) hv rfl

end DataType

end BusScope
