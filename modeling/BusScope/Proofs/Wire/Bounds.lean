import BusScope.Proofs.Wire.Moves
import BusScope.Proofs.Wire.Reencoding

/-! No reading leaves the body. Readers start inside, and whatever the bytes claim, they come to a
stop inside, with a value that holds no more than there are bytes. Padding breaks that for a moment
and the read after it puts it right. -/

namespace BusScope

open Text

def Scalar.length? : Scalar → Option Nat
  | .string s => some (Utf8.encode s.toList).length
  | .wstring s => some (Utf16.encode s.toList).length
  | _ => none

namespace Value

mutual

/-- How many elements each string, wide string and sequence in the value has, at any depth. -/
def lengths : Value → List Nat
  | .scalar s => s.length?.toList
  | .struct members => memberLengths members
  | .sequence items => items.length :: itemLengths items
  | .array items => itemLengths items
  | .enum _ _ => []
  | .union _ _ content => lengths content
  | .null => []
termination_by structural v => v

def itemLengths : List Value → List Nat
  | [] => []
  | v :: rest => lengths v ++ itemLengths rest
termination_by structural vs => vs

def memberLengths : List (String × Value) → List Nat
  | [] => []
  | (_, v) :: rest => lengths v ++ memberLengths rest
termination_by structural ms => ms

end

theorem itemLengths_eq (items : List Value) : itemLengths items = items.flatMap lengths := by
  induction items with
  | nil => rfl
  | cons v rest ih => rw [itemLengths, ih, List.flatMap_cons]

theorem memberLengths_eq (members : List (String × Value)) :
    memberLengths members = members.flatMap fun m => m.2.lengths := by
  induction members with
  | nil => rfl
  | cons m rest ih => rw [memberLengths, ih, List.flatMap_cons]

def LengthsWithin (size : Nat) (v : Value) : Prop := ∀ n ∈ v.lengths, n ≤ size

variable {size : Nat}

theorem lengthsWithin_null : Value.null.LengthsWithin size := List.forall_mem_nil _

theorem lengthsWithin_items {vs : List Value} :
    (∀ n ∈ itemLengths vs, n ≤ size) ↔ ∀ v ∈ vs, v.LengthsWithin size := by
  rw [itemLengths_eq]
  exact List.forall_mem_flatMap

theorem lengthsWithin_sequence {vs : List Value} (hn : vs.length ≤ size)
    (h : ∀ v ∈ vs, v.LengthsWithin size) : (Value.sequence vs).LengthsWithin size :=
  List.forall_mem_cons.mpr ⟨hn, lengthsWithin_items.mpr h⟩

theorem lengthsWithin_ofMembers {ms : List (String × Value)}
    (h : ∀ m ∈ ms, m.2.LengthsWithin size) : (ofMembers ms).LengthsWithin size := by
  intro n hn
  change n ∈ memberLengths (SortedList.ofList ms) at hn
  rw [memberLengths_eq] at hn
  obtain ⟨m, hm, hn⟩ := List.mem_flatMap.mp hn
  exact h m (SortedList.mem_of_mem_ofList hm) n hn

end Value

variable {α β : Type} {size : Nat} {P : α → Prop} {Q : β → Prop}

/-- From a place inside a body of this size the reader goes through its moves, and if it comes to an
end, then inside the body and with something that has the property. -/
def Confined (size : Nat) (r : Reader α) (P : α → Prop) : Prop :=
  ∀ c : Cursor, c.size = size → c.offset ≤ size →
    (∃ moves, Performs r c moves) ∧
      ∀ a c', r c = .ok (a, c') → c'.size = size ∧ c'.offset ≤ size ∧ P a

namespace Confined

theorem pure {a : α} (h : P a) : Confined size (Pure.pure a) P := by
  refine fun c hc hle => ⟨⟨_, .pure a c⟩, fun b c' hb => ?_⟩
  cases hb
  exact ⟨hc, hle, h⟩

theorem fail {fault : WireFault} (h : ∀ needed available, fault ≠ .tooShort needed available) :
    Confined size (Reader.fail fault) P :=
  fun c _ _ => ⟨⟨_, .fail c h⟩, fun _ _ hb => by cases hb⟩

theorem bind {r : Reader α} {k : α → Reader β} (hr : Confined size r P)
    (hk : ∀ a, P a → Confined size (k a) Q) : Confined size (r >>= k) Q := by
  intro c hc hle
  obtain ⟨⟨first, hfirst⟩, hok⟩ := hr c hc hle
  cases ha : r c with
  | error fault =>
    refine ⟨⟨first, .stop ha hfirst⟩, fun b c' hb => ?_⟩
    rw [Reader.bind_of_error ha] at hb
    cases hb
  | ok p =>
    obtain ⟨a, c'⟩ := p
    obtain ⟨hc', hle', hp⟩ := hok a c' ha
    obtain ⟨⟨rest, hrest⟩, hend⟩ := hk a hp c' hc' hle'
    refine ⟨⟨first ++ rest, .bind ha hfirst hrest⟩, fun b c'' hb => ?_⟩
    rw [Reader.bind_of_ok ha] at hb
    exact hend b c'' hb

theorem map {r : Reader α} {f : α → β} (hr : Confined size r P) (hf : ∀ a, P a → Q (f a)) :
    Confined size (f <$> r) Q := by
  have hb : Confined size (r >>= fun a => Pure.pure (f a)) Q :=
    hr.bind fun a ha => .pure (hf a ha)
  exact hb

theorem take (n : Nat) : Confined size (Reader.take n) (·.length ≤ n) := by
  intro c hc _
  cases h : Reader.take n c with
  | error fault => exact ⟨⟨_, .refused h⟩, fun _ _ hb => by cases hb⟩
  | ok p =>
    refine ⟨⟨_, .take h⟩, fun bytes c' hb => ?_⟩
    cases hb
    obtain ⟨hle, rfl, rfl⟩ := Reader.take_eq_ok h
    exact ⟨hc, hc ▸ hle, List.length_take_le n c.rest⟩

theorem byte : Confined size Reader.byte fun _ => True :=
  (take 1).bind fun _ _ => .pure trivial

/-- Between padding and number the cursor may be outside, so this is no instance of `bind`. -/
theorem word (order : ByteOrder) (width : Nat) :
    Confined size (Reader.word order width) fun _ => True := by
  intro c hc _
  let skip := Wire.padding width c.offset
  let padded : Cursor := ⟨c.size, c.offset + skip, c.rest.drop skip⟩
  have halign : Reader.align width c = .ok ((), padded) := rfl
  have hword : Reader.word order width c =
      (Reader.take width >>= fun bytes => Pure.pure (order.value bytes)) padded :=
    Reader.bind_of_ok halign
  cases h : Reader.take width padded with
  | error fault =>
    refine ⟨⟨_, .bind halign (.align width c) (.stop h (.refused h))⟩, fun n c' hn => ?_⟩
    rw [hword, Reader.bind_of_error h] at hn
    cases hn
  | ok p =>
    refine ⟨⟨_, .bind halign (.align width c) (.bind h (.take h) (.pure _ _))⟩, fun n c' hn => ?_⟩
    rw [hword, Reader.bind_of_ok h] at hn
    obtain ⟨hle, -, hp⟩ := Reader.take_eq_ok h
    cases hn
    rw [hp]
    exact ⟨hc, hc ▸ hle, trivial⟩

theorem atLeast (n : Nat) : Confined size (Reader.atLeast n) fun _ => n ≤ size := by
  refine fun c hc hle => ⟨⟨_, .atLeast n c⟩, fun u c' h => ?_⟩
  obtain ⟨hn, rfl⟩ := Reader.atLeast_eq_ok h
  exact ⟨hc, hle, by omega⟩

theorem count (order : ByteOrder) : Confined size (Reader.count order) (· ≤ size) :=
  (word order 4).bind fun n _ => (atLeast n).bind fun _ hn => .pure hn

theorem times {r : Reader α} (hr : Confined size r P) (n : Nat) :
    Confined size (Reader.times r n) fun as => as.length = n ∧ ∀ a ∈ as, P a := by
  induction n with
  | zero => exact .pure ⟨rfl, List.forall_mem_nil _⟩
  | succ n ih =>
    refine hr.bind fun a ha => ih.bind fun as has => .pure ⟨?_, ?_⟩
    · rw [List.length_cons, has.1]
    · exact List.forall_mem_cons.mpr ⟨ha, has.2⟩

theorem string (order : ByteOrder) (max : Option Nat) :
    Confined size (Reader.string order max) fun s => (Utf8.encode s.toList).length ≤ size := by
  refine (count order).bind fun n hn => ?_
  split
  · exact .fail fun _ _ hf => by cases hf
  refine (take n).bind fun bytes hl => ?_
  split
  · next s hs =>
    refine .pure ?_
    rw [String.toList_ofList, Utf8.encode_of_decode hs]
    exact (Reader.length_dropTerminator bytes).trans (hl.trans hn)
  · exact .fail fun _ _ hf => by cases hf

theorem wstring (order : ByteOrder) (max : Option Nat) :
    Confined size (Reader.wstring order max) fun s => (Utf16.encode s.toList).length ≤ size := by
  refine (count order).bind fun n hn => ?_
  split
  · exact .fail fun _ _ hf => by cases hf
  refine ((word order 2).times n).bind fun units hu => ?_
  split
  · next s hs =>
    refine .pure ?_
    rw [String.toList_ofList, Utf16.encode_of_decode hs, List.length_map, hu.1]
    exact hn
  · exact .fail fun _ _ hf => by cases hf

theorem scalar (order : ByteOrder) (kind : Primitive) :
    Confined size (Value.scalar <$> Reader.scalar order kind) (Value.LengthsWithin size) := by
  have hlengths : Confined size (Reader.scalar order kind) fun s => ∀ n ∈ s.length?, n ≤ size := by
    cases kind with
    | string max => exact (string order max).bind fun s hs => .pure (by rintro _ ⟨⟩; exact hs)
    | wstring max => exact (wstring order max).bind fun s hs => .pure (by rintro _ ⟨⟩; exact hs)
    | bool | uint8 | int8 | char => exact byte.bind fun _ _ => .pure fun n hn => by cases hn
    | _ => exact (word order _).bind fun _ _ => .pure fun n hn => by cases hn
  exact hlengths.map fun s hs n hn => hs n (Option.mem_toList.mp hn)

theorem field {f : Field Decoder} (h : Confined size f.type (Value.LengthsWithin size)) :
    Confined size (Reader.field f) (Value.LengthsWithin size) := by
  unfold Reader.field
  split
  · refine byte.bind fun b _ => ?_
    split
    · exact .pure Value.lengthsWithin_null
    · exact h
  · exact h

theorem fields {fs : List (Field Decoder)}
    (h : ∀ f ∈ fs, Confined size f.type (Value.LengthsWithin size)) :
    Confined size (Reader.fields fs) fun ms => ∀ m ∈ ms, m.2.LengthsWithin size := by
  induction fs with
  | nil => exact .pure (List.forall_mem_nil _)
  | cons f fs ih =>
    obtain ⟨hf, hfs⟩ := List.forall_mem_cons.mp h
    refine hf.field.bind fun v hv => (ih hfs).bind fun ms hms => .pure ?_
    exact List.forall_mem_cons.mpr ⟨hv, hms⟩

theorem struct {fs : List (Field Decoder)}
    (h : ∀ f ∈ fs, Confined size f.type (Value.LengthsWithin size)) :
    Confined size (Reader.struct fs) (Value.LengthsWithin size) :=
  (fields h).bind fun _ hms => .pure (Value.lengthsWithin_ofMembers hms)

theorem sequence {element : Decoder} (order : ByteOrder) (max : Option Nat)
    (h : Confined size element (Value.LengthsWithin size)) :
    Confined size (Reader.sequence order max element) (Value.LengthsWithin size) := by
  refine (count order).bind fun n hn => ?_
  split
  · exact .fail fun _ _ hf => by cases hf
  refine (h.times n).bind fun vs hvs => .pure (Value.lengthsWithin_sequence ?_ hvs.2)
  rw [hvs.1]
  exact hn

theorem array {element : Decoder} (length : Nat)
    (h : Confined size element (Value.LengthsWithin size)) :
    Confined size (Reader.array length element) (Value.LengthsWithin size) :=
  (h.times length).bind fun _ hvs => .pure (Value.lengthsWithin_items.mpr hvs.2)

theorem enum (order : ByteOrder) (variants : List Variant) :
    Confined size (Reader.enum order variants) (Value.LengthsWithin size) :=
  (word order 4).bind fun _ _ => .pure (List.forall_mem_nil _)

theorem union {switch : Decoder} {cases : List (Case Decoder)} {fallback : Option (Case Decoder)}
    (hs : Confined size switch (Value.LengthsWithin size))
    (hc : ∀ c ∈ cases ++ fallback.toList, Confined size c.type (Value.LengthsWithin size)) :
    Confined size (Reader.union switch cases fallback) (Value.LengthsWithin size) := by
  refine hs.bind fun v _ => ?_
  split
  · exact .fail fun _ _ hf => by cases hf
  split
  · exact .pure (List.forall_mem_nil _)
  · next c hsel =>
    exact (hc c (Case.mem_of_select hsel)).bind fun w hw => .pure hw

theorem decoder (order : ByteOrder) (t : DataType) :
    Confined size (t.decoder order) (Value.LengthsWithin size) := by
  induction t with
  | primitive name kind => exact scalar order kind
  | struct name fields ih =>
    rw [DataType.decoder, DataType.fieldDecoders_eq]
    exact struct (List.forall_mem_map.mpr ih)
  | sequence name element max ih => exact ih.sequence order max
  | array name element length ih => exact ih.array length
  | enum name variants => exact enum order variants
  | union name discriminator cases fallback ihd ihc =>
    rw [DataType.decoder, DataType.caseDecoders_eq, DataType.fallbackDecoder_eq]
    refine ihd.union fun c hc => ?_
    rw [Option.toList_map, ← List.map_append] at hc
    obtain ⟨d, hd, rfl⟩ := List.mem_map.mp hc
    exact ihc d hd
  | aliased name target ih => exact ih

end Confined

/-- Every reading is a walk over the body in which all that is taken lies inside, which goes forward
only, and which ends inside if there is a value. A body that is found too short is shorter than what
is needed, and nothing in a value has more elements than there are bytes. -/
theorem decodeBody_stays_within (order : ByteOrder) (t : DataType) (body : List UInt8) :
    (∃ moves, Performs (t.decoder order) (.start body) moves) ∧
    (∀ moves, Performs (t.decoder order) (.start body) moves →
      (∀ m ∈ moves, m.Within body) ∧
      ∃ stop, Move.Path 0 moves stop ∧
        ∀ v c, t.decoder order (.start body) = .ok (v, c) →
          c.offset = stop ∧ stop ≤ body.length) ∧
    (∀ needed available, decodeBody order t body = .error (.tooShort needed available) →
      available = body.length ∧ body.length < needed) ∧
    ∀ v, decodeBody order t body = .ok v → ∀ n ∈ v.lengths, n ≤ body.length := by
  obtain ⟨⟨moves, hmoves⟩, hok⟩ :=
    Confined.decoder order t (.start body) rfl (Nat.zero_le body.length)
  refine ⟨⟨moves, hmoves⟩, fun moves hmoves => ?_, fun needed available h => ?_, fun v h => ?_⟩
  · have hcourse := hmoves.course (Cursor.over_start body)
    obtain ⟨stop, hpath, hstop⟩ := hcourse.path
    refine ⟨hcourse.within, stop, hpath, fun v c hv => ?_⟩
    obtain ⟨-, rfl⟩ := hstop v c hv
    exact ⟨rfl, (hok v c hv).2.1⟩
  · have hcourse := hmoves.course (Cursor.over_start body)
    exact hcourse.tooShort needed available (decodeBody_eq_error h)
  · obtain ⟨c, hv⟩ := decodeBody_eq_ok h
    exact (hok v c hv).2.2

/-- Padding leads from one byte to four, where there is nothing to take. -/
example : decodeBody .little
    (.struct "" [.ofPrimitive "a" .uint8, .ofPrimitive "b" .uint32]) [7] =
      .error (.tooShort 8 1) := by rfl

end BusScope
