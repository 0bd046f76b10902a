import BusScope.Proofs.Wire.Reader

/-! The counts in front of the sequences of a value. Each is taken for a promise of as many bytes,
which the writer keeps where every item takes one. -/

namespace BusScope

/-- How many items are announced, and where the first of them begins. -/
structure Count where
  items : Nat
  start : Nat

namespace Count

/-- Where the last item ends if each of them is one byte. -/
def stop (c : Count) : Nat := c.start + c.items

def check (size : Nat) : List Count → Except WireFault Unit
  | [] => .ok ()
  | c :: rest => if c.stop ≤ size then check size rest else .error (.tooShort c.stop size)

theorem check_append (size : Nat) (cs ds : List Count) :
    check size (cs ++ ds) = check size cs >>= fun _ => check size ds := by
  induction cs with
  | nil => rfl
  | cons c cs ih =>
    rw [List.cons_append, check, check, ih]
    split <;> rfl

theorem check_eq_ok {size : Nat} {cs : List Count} :
    check size cs = .ok () ↔ ∀ c ∈ cs, c.stop ≤ size := by
  induction cs with
  | nil => simp [check]
  | cons c cs ih =>
    rw [check, List.forall_mem_cons, ← ih]
    by_cases h : c.stop ≤ size
    · simp [h]
    · simp [h]

def after (position : Nat) : Except WireFault (List UInt8) → Nat
  | .ok bytes => position + bytes.length
  | .error _ => position

def ofItems (encode : Encoder) (counts : Value → Nat → List Count) : List Value → Nat → List Count
  | [], _ => []
  | v :: rest, position =>
    counts v position ++ ofItems encode counts rest (after position (encode v position))

def ofMember (optional : Bool) (counts : Value → Nat → List Count) :
    Option Value → Nat → List Count
  | none, _ => []
  | some v, position => counts v (if optional then position + 1 else position)

end Count

namespace DataType

mutual

/-- The counts of the sequences in a value, at any depth, when it is written at the position. -/
def counts (order : ByteOrder) : DataType → Value → Nat → List Count
  | .primitive _ _ => fun _ _ => []
  | .struct _ fields => fun v position =>
    match v with
    | .struct members => fieldCounts order fields members position
    | _ => []
  | .sequence _ element _ => fun v position =>
    match v with
    | .sequence vs =>
      let start := position + (Encoder.word order 4 vs.length position).length
      ⟨vs.length, start⟩ :: Count.ofItems (encoder order element) (counts order element) vs start
    | _ => []
  | .array _ element _ => fun v position =>
    match v with
    | .array vs => Count.ofItems (encoder order element) (counts order element) vs position
    | _ => []
  | .enum _ _ => fun _ _ => []
  | .union _ discriminator cases fallback => fun v position =>
    match v with
    | .union n _ content =>
      let switch := discriminator.encodeSwitch (encoder order discriminator) n position
      match Case.select (caseCounts order cases) (fallbackCounts order fallback) n with
      | some c => c.type content (Count.after position switch)
      | none => []
    | _ => []
  | .alias _ target => counts order target
termination_by structural t => t

def fieldCounts (order : ByteOrder) :
    List (Field DataType) → List (String × Value) → Nat → List Count
  | [] => fun _ _ => []
  | ⟨name, type, id, key, optional⟩ :: rest => fun members position =>
    let member := SortedList.find? name members
    let written := Encoder.field ⟨name, encoder order type, id, key, optional⟩ member position
    Count.ofMember optional (counts order type) member position ++
      fieldCounts order rest members (Count.after position written)
termination_by structural fs => fs

def caseCounts (order : ByteOrder) :
    List (Case DataType) → List (Case (Value → Nat → List Count))
  | [] => []
  | ⟨name, labels, type⟩ :: rest => ⟨name, labels, counts order type⟩ :: caseCounts order rest
termination_by structural cs => cs

def fallbackCounts (order : ByteOrder) :
    Option (Case DataType) → Option (Case (Value → Nat → List Count))
  | none => none
  | some ⟨name, labels, type⟩ => some ⟨name, labels, counts order type⟩
termination_by structural c => c

end

theorem fieldCounts_cons {order : ByteOrder} {f : Field DataType} {fs : List (Field DataType)}
    {members : List (String × Value)} {position : Nat} {bytes : List UInt8}
    (h : Encoder.field (f.map (encoder order)) (SortedList.find? f.name members) position =
      .ok bytes) :
    fieldCounts order (f :: fs) members position =
      Count.ofMember f.optional (f.type.counts order) (SortedList.find? f.name members) position ++
        fieldCounts order fs members (position + bytes.length) := by
  rw [fieldCounts]
  change _ ++ fieldCounts order fs members
    (Count.after position (Encoder.field (f.map (encoder order)) _ position)) = _
  rw [h]
  rfl

theorem counts_union (order : ByteOrder) (name : String) (discriminator : DataType)
    (cases : List (Case DataType)) (fallback : Option (Case DataType)) (n : Int64)
    (caseName : String) (content : Value) (position : Nat) :
    (DataType.union name discriminator cases fallback).counts order (.union n caseName content)
        position =
      let switch := discriminator.encodeSwitch (discriminator.encoder order) n position
      match Case.select cases fallback n with
      | some c => c.type.counts order content (Count.after position switch)
      | none => [] := by
  have hc : caseCounts order cases = cases.map (Case.map (counts order)) := by
    induction cases with
    | nil => rfl
    | cons c rest ih => rw [caseCounts, ih]; rfl
  have hf : fallbackCounts order fallback = fallback.map (Case.map (counts order)) := by
    cases fallback <;> rfl
  rw [counts]
  dsimp only
  rw [hc, hf, Case.select_map]
  cases Case.select cases fallback n <;> rfl

theorem counts_null (order : ByteOrder) (t : DataType) (position : Nat) :
    t.counts order .null position = [] := by
  induction t with
  | aliased name target ih => exact ih
  | primitive | struct | sequence | array | enum | union => rfl

end DataType

section Room

open DataType

variable {order : ByteOrder} {position : Nat} {bytes : List UInt8}

theorem Count.stop_le_of_items {e : Encoder} {counts : Value → Nat → List Count} {vs : List Value}
    (h : ∀ v ∈ vs, ∀ p b, e v p = .ok b → ∀ c ∈ counts v p, c.stop ≤ p + b.length)
    (he : Encoder.items e vs position = .ok bytes) :
    ∀ c ∈ ofItems e counts vs position, c.stop ≤ position + bytes.length := by
  induction vs generalizing position bytes with
  | nil => exact List.forall_mem_nil _
  | cons v vs ih =>
    obtain ⟨hv, hvs⟩ := List.forall_mem_cons.mp h
    obtain ⟨a, b, ha, hb, rfl⟩ := Encoder.andThen_eq_ok.mp he
    have hfirst := hv position a ha
    have hrest := ih hvs hb
    rw [ofItems, ha, List.length_append]
    refine List.forall_mem_append.mpr ⟨fun c hc => ?_, fun c hc => ?_⟩
    · have hle := hfirst c hc
      omega
    · have hle := hrest c hc
      omega

theorem Count.stop_le_of_member {f : Field DataType} {member : Option Value}
    (h : ∀ v ∈ member, ∀ p b, f.type.encoder order v p = .ok b →
      ∀ c ∈ f.type.counts order v p, c.stop ≤ p + b.length)
    (he : Encoder.field (f.map (encoder order)) member position = .ok bytes) :
    ∀ c ∈ ofMember f.optional (f.type.counts order) member position,
      c.stop ≤ position + bytes.length := by
  by_cases ho : f.optional = true
  · rw [Encoder.field_of_optional ho] at he
    split at he
    · exact List.forall_mem_nil _
    · rw [ofMember, counts_null]
      exact List.forall_mem_nil _
    · next v _ =>
      obtain ⟨a, b, ha, hb, rfl⟩ := Encoder.andThen_eq_ok.mp he
      cases ha
      intro c hc
      rw [ofMember, if_pos ho] at hc
      have hle := h v rfl (position + 1) b hb c hc
      rw [List.length_append, List.length_singleton]
      omega
  · rw [Encoder.field_of_required ho] at he
    split at he
    · cases he
    · next v =>
      intro c hc
      rw [ofMember, if_neg ho] at hc
      exact h v rfl position bytes he c hc

theorem Count.stop_le_of_fields {fs : List (Field DataType)} {members : List (String × Value)}
    (h : ∀ f ∈ fs, ∀ v ∈ SortedList.find? f.name members, ∀ p b,
      f.type.encoder order v p = .ok b → ∀ c ∈ f.type.counts order v p, c.stop ≤ p + b.length)
    (he : Encoder.fields (fs.map (Field.map (encoder order))) members position = .ok bytes) :
    ∀ c ∈ fieldCounts order fs members position, c.stop ≤ position + bytes.length := by
  induction fs generalizing position bytes with
  | nil => exact List.forall_mem_nil _
  | cons f fs ih =>
    obtain ⟨hf, hfs⟩ := List.forall_mem_cons.mp h
    obtain ⟨a, b, ha, hb, rfl⟩ := Encoder.andThen_eq_ok.mp he
    have hfirst := Count.stop_le_of_member hf ha
    have hrest := ih hfs hb
    rw [fieldCounts_cons ha, List.length_append]
    refine List.forall_mem_append.mpr ⟨fun c hc => ?_, fun c hc => ?_⟩
    · have hle := hfirst c hc
      omega
    · have hle := hrest c hc
      omega

theorem DataType.stop_le_of_itemsTakeRoom {t : DataType} {v : Value}
    (hroom : ∀ s ∈ t.parts, s.itemsTakeRoom = true) (h : t.encoder order v position = .ok bytes) :
    ∀ c ∈ t.counts order v position, c.stop ≤ position + bytes.length := by
  induction t generalizing v position bytes with
  | primitive | enum => exact List.forall_mem_nil _
  | struct name fields ih =>
    obtain ⟨members, rfl, hm⟩ := encoder_struct_eq_ok.mp h
    exact Count.stop_le_of_fields (fun f hf v _ p b hb =>
      ih f hf (fun s hs => hroom s (parts_subset_struct hf hs)) hb) hm
  | sequence name element max ih =>
    rw [encoder] at h
    obtain ⟨vs, more, rfl, -, -, hb, rfl⟩ := Encoder.sequence_eq_ok.mp h
    have hroomy : element.canBeEmpty = false := by
      simpa [itemsTakeRoom] using hroom _ (mem_parts_self _)
    have hlength : vs.length ≤ more.length :=
      Encoder.length_le_items (fun _ _ _ he => ne_nil_of_encoder hroomy he) hb
    have hitems := Count.stop_le_of_items (fun v _ p b hvb =>
      ih (fun s hs => hroom s (parts_subset_sequence hs)) hvb) hb
    rw [List.length_append, ← Nat.add_assoc]
    exact List.forall_mem_cons.mpr ⟨Nat.add_le_add_left hlength _, hitems⟩
  | array name element length ih =>
    rw [encoder] at h
    obtain ⟨vs, rfl, -, hb⟩ := Encoder.array_eq_ok.mp h
    exact Count.stop_le_of_items (fun v _ p b hvb =>
      ih (fun s hs => hroom s (parts_subset_array hs)) hvb) hb
  | union name discriminator cases fallback ihd ihc =>
    obtain ⟨n, _, content, first, second, rfl, hfirst, hsecond, rfl⟩ := encoder_union_eq_ok.mp h
    rw [counts_union, hfirst]
    cases hc : Case.select cases fallback n with
    | none => exact List.forall_mem_nil _
    | some c =>
      rw [hc] at hsecond
      have hmem := Case.mem_of_select hc
      have hcase := ihc c hmem (fun s hs => hroom s (parts_subset_union_case hmem hs)) hsecond
      rw [List.length_append, ← Nat.add_assoc]
      exact hcase
  | aliased name target ih =>
    rw [encoder] at h
    exact ih (fun s hs => hroom s (parts_subset_alias hs)) h

theorem DataType.stop_le_iff_of_canBeEmpty {name : String} {element : DataType}
    {max : Option Nat} {vs : List Value} (hempty : element.canBeEmpty = true)
    (h : (DataType.sequence name element max).encoder order (.sequence vs) position = .ok bytes) :
    (∀ c ∈ (DataType.sequence name element max).counts order (.sequence vs) position,
      c.stop ≤ position + bytes.length) ↔ vs = [] := by
  rw [encoder] at h
  obtain ⟨_, more, hvs, -, -, hmore, rfl⟩ := Encoder.sequence_eq_ok.mp h
  cases hvs
  have hnil : more = [] :=
    Encoder.items_eq_nil (fun _ _ _ => eq_nil_of_encoder hempty) hmore
  rw [hnil, List.append_nil]
  constructor
  · intro hall
    have hfirst := hall _ (List.mem_cons_self ..)
    dsimp only [Count.stop] at hfirst
    exact List.eq_nil_of_length_eq_zero (by omega)
  · rintro rfl
    exact List.forall_mem_singleton.mpr (Nat.le_refl _)

end Room

end BusScope
