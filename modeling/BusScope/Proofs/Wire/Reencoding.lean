import BusScope.Proofs.Text.Canonical
import BusScope.Proofs.Wire.Lengths
import BusScope.Proofs.Wire.RoundTrip
import BusScope.Proofs.Wire.Settled

/-! Writing back what was read. Readers let lengths pass that encoders refuse, but that is all:
everything else about a value that comes off the wire is fit to be written. -/

namespace BusScope

open Text

def Encodes (write : Nat → Except WireFault (List UInt8)) : Prop :=
  ∀ position, ∃ bytes, write position = .ok bytes

namespace Encodes

theorem andThen {first next : Nat → Except WireFault (List UInt8)} (hf : Encodes first)
    (hn : Encodes next) : Encodes fun p => Encoder.andThen (first p) p next := by
  intro position
  obtain ⟨a, ha⟩ := hf position
  obtain ⟨b, hb⟩ := hn (position + a.length)
  exact ⟨a ++ b, Encoder.andThen_eq_ok.mpr ⟨a, b, ha, hb, rfl⟩⟩

theorem items {e : Encoder} {vs : List Value} (h : ∀ v ∈ vs, Encodes (e v)) :
    Encodes (Encoder.items e vs) := by
  induction vs with
  | nil => exact fun _ => ⟨[], rfl⟩
  | cons v vs ih =>
    obtain ⟨hv, hvs⟩ := List.forall_mem_cons.mp h
    exact hv.andThen (ih hvs)

theorem fields {fs : List (Field Encoder)} {members : List (String × Value)}
    (h : ∀ f ∈ fs, Encodes (Encoder.field f (SortedList.find? f.name members))) :
    Encodes (Encoder.fields fs members) := by
  induction fs with
  | nil => exact fun _ => ⟨[], rfl⟩
  | cons f fs ih =>
    obtain ⟨hf, hfs⟩ := List.forall_mem_cons.mp h
    exact hf.andThen (ih hfs)

theorem field {f : Field Encoder} {v : Value}
    (h : (f.optional = true ∧ v = .null) ∨ Encodes (f.type v)) :
    Encodes (Encoder.field f (some v)) := by
  intro position
  by_cases ho : f.optional = true
  · rw [Encoder.field_of_optional ho]
    split
    · exact ⟨[0], rfl⟩
    · exact ⟨[0], rfl⟩
    · next w hnull hw =>
      cases hw
      have hwrite : Encodes (f.type v) := by
        rcases h with ⟨-, rfl⟩ | h
        · exact absurd rfl hnull
        · exact h
      have hflag : Encodes fun _ => .ok [1] := fun _ => ⟨[1], rfl⟩
      exact hflag.andThen hwrite position
  · rw [Encoder.field_of_required ho]
    rcases h with ⟨h, -⟩ | h
    · exact absurd h ho
    · exact h position

end Encodes

section Reader

variable (order : ByteOrder)

theorem Reader.length_dropTerminator (bytes : List UInt8) :
    (dropTerminator bytes).length ≤ bytes.length := by
  unfold dropTerminator
  split
  · rw [List.length_dropLast]
    omega
  · exact le_rfl

theorem yields_string (max : Option Nat) :
    Yields (Reader.string order max) fun s =>
      LengthRule.read .bytes max (Utf8.encode s.toList).length = true := by
  refine (yields_count order).bind fun n hn => ?_
  split
  · exact Yields.fail _
  next hmax =>
  refine (yields_take n).bind fun bytes hl => ?_
  split
  · next s hs =>
    have hlength : (Utf8.encode s).length ≤ n := by
      rw [Utf8.encode_of_decode hs]
      exact (Reader.length_dropTerminator bytes).trans hl
    refine Yields.pure ?_
    rw [String.toList_ofList]
    refine Bool.and_eq_true_iff.mpr ⟨?_, decide_eq_true (by omega)⟩
    cases max with
    | none => rfl
    | some m =>
      -- Room for the terminator, whether or not it is there.
      have hle : Reader.longest m ≤ m + 1 := Nat.mod_le _ _
      simp only [Option.any_some, decide_eq_true_eq] at hmax
      exact decide_eq_true (by omega)
  · exact Yields.fail _

theorem yields_wstring (max : Option Nat) :
    Yields (Reader.wstring order max) fun s =>
      LengthRule.read .units max (Utf16.encode s.toList).length = true := by
  refine (yields_count order).bind fun n hn => ?_
  split
  · exact Yields.fail _
  next hmax =>
  refine (Yields.length_times _ n).bind fun units hl => ?_
  split
  · next s hs =>
    have hlength : (Utf16.encode s).length = n := by
      rw [Utf16.encode_of_decode hs, List.length_map, hl]
    refine Yields.pure ?_
    rw [String.toList_ofList, hlength]
    exact Bool.and_eq_true_iff.mpr ⟨Option.all_le_iff.mpr hmax, decide_eq_true hn⟩
  · exact Yields.fail _

structure Primitive.Rewritable (kind : Primitive) (s : Scalar) : Prop where
  read : kind.lengthObeys .read s = true
  written : kind.lengthObeys .written s = true → ∀ order position, ∃ bytes,
    Encoder.scalar? order kind s position = some (.ok bytes)

theorem yields_rewritable_scalar (kind : Primitive) :
    Yields (Reader.scalar order kind) kind.Rewritable := by
  cases kind with
  | string max =>
    refine (yields_string order max).bind fun s hs => Yields.pure ⟨hs, fun hw order position => ?_⟩
    obtain ⟨hmax, hn⟩ := Bool.and_eq_true_iff.mp hw
    refine ⟨_, congrArg some (Encoder.string_eq_ok.mpr ⟨?_, ?_, rfl⟩)⟩
    · exact Option.all_le_iff.mp hmax
    · exact of_decide_eq_true hn
  | wstring max =>
    refine (yields_wstring order max).bind fun s hs => Yields.pure ⟨hs, fun hw order position => ?_⟩
    obtain ⟨hmax, hn⟩ := Bool.and_eq_true_iff.mp hw
    refine ⟨_, congrArg some (Encoder.wstring_eq_ok.mpr ⟨?_, ?_, rfl⟩)⟩
    · exact Option.all_le_iff.mp hmax
    · exact of_decide_eq_true hn
  | char =>
    refine (Yields.anything Reader.byte).bind fun b _ => Yields.pure ⟨rfl, fun _ order position => ?_⟩
    have hb : b.toNat < 256 := b.toNat_lt
    have hc : (Char.ofNat b.toNat).toNat < 256 := by
      rw [Char.toNat_ofNat, if_pos (.inl (by omega))]
      exact hb
    exact ⟨_, congrArg some (if_pos hc)⟩
  | _ => exact (Yields.anything _).bind fun _ _ => Yields.pure ⟨rfl, fun _ _ _ => ⟨_, rfl⟩⟩

end Reader

theorem Primitive.ofInteger_of_integer? {order : ByteOrder} {kind : Primitive} {s : Scalar}
    {n : Int64} {position : Nat} {bytes : List UInt8}
    (hs : Encoder.scalar? order kind s position = some (.ok bytes)) (h : s.integer? = some n) :
    kind.ofInteger n = .ok s := by
  have hnat : ∀ m : Nat, m < 2 ^ 63 → (Int64.ofNat m).toInt = m := fun m hm =>
    Int64.toInt_ofNat_of_lt hm
  have hint : ∀ i : Int, -2 ^ 63 ≤ i → i < 2 ^ 63 → (Int64.ofInt i).toInt = i := fun i hl hh =>
    Int64.toInt_ofInt_of_le hl hh
  unfold Encoder.scalar? at hs
  split at hs
  case h_1 b =>
    cases h
    cases b <;> rfl
  case h_2 m =>
    cases h
    have hm : m.toNat < 256 := m.toNat_lt
    unfold ofInteger
    dsimp only
    rw [hnat _ (by omega), if_pos ⟨by omega, by omega⟩, Int.toNat_natCast, UInt8.ofNat_toNat]
  case h_3 m =>
    cases h
    have hl : -2 ^ 7 ≤ m.toInt := m.le_toInt
    have hh : m.toInt < 2 ^ 7 := m.toInt_lt
    unfold ofInteger
    dsimp only
    rw [hint _ (by omega) (by omega), if_pos ⟨by omega, by omega⟩, Int8.ofInt_toInt]
  case h_4 m =>
    cases h
    have hm : m.toNat < 65536 := m.toNat_lt
    unfold ofInteger
    dsimp only
    rw [hnat _ (by omega), if_pos ⟨by omega, by omega⟩, Int.toNat_natCast, UInt16.ofNat_toNat]
  case h_5 m =>
    cases h
    have hl : -2 ^ 15 ≤ m.toInt := m.le_toInt
    have hh : m.toInt < 2 ^ 15 := m.toInt_lt
    unfold ofInteger
    dsimp only
    rw [hint _ (by omega) (by omega), if_pos ⟨by omega, by omega⟩, Int16.ofInt_toInt]
  case h_6 m =>
    cases h
    have hm : m.toNat < 4294967296 := m.toNat_lt
    unfold ofInteger
    dsimp only
    rw [hnat _ (by omega), if_pos ⟨by omega, by omega⟩, Int.toNat_natCast, UInt32.ofNat_toNat]
  case h_7 m =>
    cases h
    have hl : -2 ^ 31 ≤ m.toInt := m.le_toInt
    have hh : m.toInt < 2 ^ 31 := m.toInt_lt
    unfold ofInteger
    dsimp only
    rw [hint _ (by omega) (by omega), if_pos ⟨by omega, by omega⟩, Int32.ofInt_toInt]
  case h_9 m =>
    unfold Scalar.integer? at h
    dsimp only at h
    split at h
    · next hm =>
      cases h
      unfold ofInteger
      dsimp only
      rw [hnat _ (by omega), if_pos ⟨by omega, by omega⟩, Int.toNat_natCast, UInt64.ofNat_toNat]
    · cases h
  case h_10 m =>
    cases h
    rfl
  case h_12 c =>
    split at hs
    · next hc =>
      cases h
      unfold ofInteger
      dsimp only
      rw [hnat _ (by omega), if_pos ⟨by omega, by omega⟩, Int.toNat_natCast, Char.ofNat_toNat]
    · cases hs
  case h_15 => cases hs
  all_goals cases h

namespace DataType

/-- The lengths are those that readers let pass. If they are also those that encoders insist on, then
the value is written. -/
structure Rewritable (t : DataType) (v : Value) : Prop where
  read : t.lengthsObey .read v = true
  written : t.lengthsObey .written v = true → ∀ order, Encodes (t.encoder order v)

theorem lengthsObey_of_integer? {rule : LengthRule} {t : DataType} {w : Value} {n : Int64}
    (h : w.integer? = some n) : t.lengthsObey rule w = true := by
  induction t with
  | primitive name kind =>
    cases w with
    | scalar s =>
      change kind.lengthObeys rule s = true
      unfold Primitive.lengthObeys
      split
      · cases h
      · cases h
      · rfl
    | enum m name => rfl
    | _ => cases h
  | aliased name target ih => exact ih
  | struct name fields ih =>
    rw [lengthsObey, fold_struct]
    cases w with
    | scalar | enum => rfl
    | _ => cases h
  | union name discriminator cases fallback ihd ihc =>
    rw [lengthsObey, fold_union]
    cases w with
    | scalar | enum => rfl
    | _ => cases h
  | sequence | array =>
    cases w with
    | scalar | enum => rfl
    | _ => cases h
  | enum name variants => rfl

theorem encodeSwitch_of_encoder {order : ByteOrder} {t : DataType} {w : Value} {n : Int64}
    {position : Nat} {bytes : List UInt8} (h : t.encoder order w position = .ok bytes)
    (hn : w.integer? = some n) :
    ∃ bytes, t.encodeSwitch (t.encoder order) n position = .ok bytes := by
  induction t with
  | primitive name kind =>
    obtain ⟨s, rfl, hs⟩ := Encoder.primitive_eq_ok.mp h
    -- The integer stands for the very scalar that it was taken from.
    have hswitch : (DataType.primitive name kind).switchValue n = .ok (.scalar s) := by
      show (kind.ofInteger n).map Value.scalar = _
      rw [Primitive.ofInteger_of_integer? hs hn]
      rfl
    exact ⟨bytes, encodeSwitch_eq_ok.mpr ⟨_, hswitch, h⟩⟩
  | enum name variants =>
    obtain ⟨m, _, rfl, hlow, hhigh, -⟩ := Encoder.enum_eq_ok.mp h
    cases hn
    refine ⟨Encoder.word order 4 n.toInt32.toUInt32.toNat position, ?_⟩
    apply encodeSwitch_eq_ok.mpr
    exact ⟨.enum n "", rfl, Encoder.enum_eq_ok.mpr ⟨n, "", rfl, hlow, hhigh, rfl⟩⟩
  | aliased name target ih => exact ih h
  | struct name fields ih =>
    obtain ⟨members, rfl, -⟩ := encoder_struct_eq_ok.mp h
    cases hn
  | sequence name element max ih =>
    obtain ⟨vs, more, rfl, -⟩ := Encoder.sequence_eq_ok.mp h
    cases hn
  | array name element length ih =>
    obtain ⟨vs, rfl, -⟩ := Encoder.array_eq_ok.mp h
    cases hn
  | union name discriminator cases fallback ihd ihc =>
    obtain ⟨m, _, content, a, b, rfl, -⟩ := encoder_union_eq_ok.mp h
    cases hn

theorem Rewritable.encodes_switch {t : DataType} {w : Value} {n : Int64} (hw : t.Rewritable w)
    (hn : w.integer? = some n) (order : ByteOrder) :
    Encodes (t.encodeSwitch (t.encoder order) n) := by
  intro position
  have hlengths : t.lengthsObey .written w = true := lengthsObey_of_integer? hn
  obtain ⟨bytes, hb⟩ := hw.written hlengths order position
  exact encodeSwitch_of_encoder hb hn

theorem rewritable_struct {name : String} {fields : List (Field DataType)}
    {ms : List (String × Value)} (hd : (fields.map (·.name)).Nodup)
    (h : Members (fun f v => (f.optional = true ∧ v = .null) ∨ f.type.Rewritable v) fields ms) :
    (DataType.struct name fields).Rewritable (.ofMembers ms) where
  read := by
    refine lengthsObey_struct.mpr fun f hf v hv => ?_
    obtain ⟨w, hw, hmember⟩ := h.find? hd f hf
    cases hw.symm.trans hv
    rcases hmember with ⟨-, rfl⟩ | hmember
    · exact f.type.lengthsObey_null
    · exact hmember.read
  written hlengths order := by
    rw [encoder, fieldEncoders_eq]
    have hfields : Encodes (Encoder.fields (fields.map (Field.map (encoder order)))
        (SortedList.ofList ms)) := by
      refine Encodes.fields fun f hf => ?_
      obtain ⟨g, hg, rfl⟩ := List.mem_map.mp hf
      obtain ⟨v, hv, hmember⟩ := h.find? hd g hg
      have hlength := lengthsObey_struct.mp hlengths g hg v hv
      change Encodes (Encoder.field _ (SortedList.find? g.name (SortedList.ofList ms)))
      rw [hv]
      exact Encodes.field (hmember.imp_right fun hr => hr.written hlength order)
    exact hfields

theorem passesOn_rewritable (order : ByteOrder) : PassesOn order Rewritable where
  scalar name kind := by
    intro c s c' hs
    have hscalar := yields_rewritable_scalar order kind c s c' hs
    refine ⟨hscalar.read, fun hw order' position => ?_⟩
    obtain ⟨bytes, hb⟩ := hscalar.written hw order' position
    exact ⟨bytes, Encoder.primitive_eq_ok.mpr ⟨s, rfl, hb⟩⟩
  struct name fields ms hn hms := rewritable_struct hn hms
  sequence name element max vs hmax hn hvs := by
    refine ⟨lengthsObey_sequence.mpr ⟨?_, fun v hv => (hvs v hv).read⟩, fun hw order position => ?_⟩
    · exact Bool.and_eq_true_iff.mpr ⟨Option.all_le_iff.mpr hmax, decide_eq_true hn⟩
    · obtain ⟨-, hlengths⟩ := lengthsObey_sequence.mp hw
      obtain ⟨more, hmore⟩ := Encodes.items (fun v hv => (hvs v hv).written (hlengths v hv) order)
        (position + (Encoder.word order 4 vs.length position).length)
      exact ⟨_, Encoder.sequence_eq_ok.mpr ⟨vs, more, rfl, hmax, hn, hmore, rfl⟩⟩
  array name element vs hvs := by
    refine ⟨lengthsObey_array.mpr fun v hv => (hvs v hv).read, fun hw order position => ?_⟩
    have hlengths := lengthsObey_array.mp hw
    obtain ⟨bytes, hbytes⟩ :=
      Encodes.items (fun v hv => (hvs v hv).written (hlengths v hv) order) position
    exact ⟨bytes, Encoder.array_eq_ok.mpr ⟨vs, rfl, rfl, hbytes⟩⟩
  enum name variants n := by
    refine ⟨rfl, fun _ order position => ?_⟩
    have hlow : -2 ^ 31 ≤ n.toInt := n.le_toInt
    have hhigh : n.toInt < 2 ^ 31 := n.toInt_lt
    refine ⟨_, Encoder.enum_eq_ok.mpr ⟨_, _, rfl, ?_, ?_, rfl⟩⟩
    · rw [Int32.toInt_toInt64]
      exact hlow
    · rw [Int32.toInt_toInt64]
      exact hhigh
  unselected name discriminator cases fallback w n hw hn hc := by
    refine ⟨lengthsObey_union.mpr (by simp [hc]), fun _ order position => ?_⟩
    obtain ⟨a, ha⟩ := hw.encodes_switch hn order position
    refine ⟨a ++ [], encoder_union_eq_ok.mpr ⟨n, _, _, a, [], rfl, ha, ?_, rfl⟩⟩
    rw [hc]
  selected name discriminator cases fallback w n c v hw hn hc hv := by
    refine ⟨lengthsObey_union.mpr (by simpa [hc] using hv.read), fun hlengths order position => ?_⟩
    have hlength := lengthsObey_union.mp hlengths c hc
    obtain ⟨a, ha⟩ := hw.encodes_switch hn order position
    obtain ⟨b, hb⟩ := hv.written hlength order (position + a.length)
    refine ⟨a ++ b, encoder_union_eq_ok.mpr ⟨n, _, _, a, b, rfl, ha, ?_, rfl⟩⟩
    rw [hc]
    exact hb
  aliased name target v hv := ⟨hv.read, hv.written⟩

end DataType

/-- What was read can be written exactly if its lengths are those that encoders insist on, in either
byte order alike, and what is then written reads as the same value. -/
theorem reencode_decodeBody {order : ByteOrder} {t : DataType} {v : Value} {body : List UInt8}
    (hd : ∀ s ∈ t.parts, s.namesDistinct = true) (h : decodeBody order t body = .ok v) :
    t.lengthsObey .read v = true ∧
      (∀ order', (∃ bytes, encodeBody order' t v = .ok bytes) ↔
        t.lengthsObey .written v = true) ∧
      (t.wireSafe = true → ∀ order' bytes rest, encodeBody order' t v = .ok bytes →
        decodeBody order' t (bytes ++ rest) = .ok v) := by
  have hrewritable := (DataType.passesOn_rewritable order).of_decodeBody hd h
  have hsettled := settled_of_decodeBody hd h
  refine ⟨hrewritable.read, fun order' => ⟨?_, ?_⟩, fun ht order' bytes rest hb => ?_⟩
  · intro hwritten
    obtain ⟨bytes, hb⟩ := hwritten
    exact DataType.lengthsObey_of_encoder hb
  · intro hlengths
    exact hrewritable.written hlengths order' 0
  · rw [decodeBody_encodeBody ht hsettled.fits hb rest, hsettled.canonical]

def badge : DataType :=
  .struct "Badge" [.ofPrimitive "flag" .bool, .ofPrimitive "label" (.string (some 2))]

/-- The string comes without a terminator and the truth value as neither zero nor one. -/
theorem reencode_decodeBody_badge :
    (∀ s ∈ badge.parts, s.namesDistinct = true) ∧
      ∃ v, decodeBody .little badge [7, 0, 0, 0, 2, 0, 0, 0, 97, 98, 99] = .ok v ∧
        ∃ bytes, encodeBody .big badge v = .ok bytes ∧ decodeBody .big badge (bytes ++ [1]) = .ok v := by
  have hd : ∀ s ∈ badge.parts, s.namesDistinct = true := by decide
  have hv : decodeBody .little badge [7, 0, 0, 0, 2, 0, 0, 0, 97, 98, 99] =
      .ok (.ofMembers [("flag", .scalar (.bool true)), ("label", .scalar (.string "ab"))]) := by rfl
  obtain ⟨-, hwritten, hback⟩ := reencode_decodeBody hd hv
  obtain ⟨bytes, hb⟩ := (hwritten .big).mpr (by decide)
  exact ⟨hd, _, hv, bytes, hb, hback (by decide) .big bytes [1] hb⟩

/-- Of its two members of one name a value can hold only the later. -/
def twins : DataType := .struct "Twins" [.ofPrimitive "a" .uint8, .ofPrimitive "a" .bool]

/-- A string over its bound by one byte is read if it has no terminator, but not written. Items that
take no room are written but not read. A value that hides a member is read but not written. -/
theorem unterminated_string_read_over_bound :
    (decodeBody .little (.ofPrimitive (.string (some 2))) [3, 0, 0, 0, 97, 98, 99] =
        .ok (.scalar (.string "abc")) ∧
      encodeBody .little (.ofPrimitive (.string (some 2))) (.scalar (.string "abc")) =
        .error (.data .stringBound)) ∧
    (decodeBody .little (.sequence "" (.struct "" []) none) [1, 0, 0, 0, 9] =
        .ok (.sequence [.struct []]) ∧
      encodeBody .little (.sequence "" (.struct "" []) none) (.sequence [.struct []]) =
        .ok [1, 0, 0, 0] ∧
      decodeBody .little (.sequence "" (.struct "" []) none) [1, 0, 0, 0] =
        .error (.tooShort 5 4)) ∧
    decodeBody .little twins [2, 1] = .ok (.struct [("a", .scalar (.bool true))]) ∧
      encodeBody .little twins (.struct [("a", .scalar (.bool true))]) =
        .error (.mismatch "octet" (.scalar (.bool true))) := by
  refine ⟨⟨?_, ?_⟩, ⟨?_, ?_, ?_⟩, ?_, ?_⟩
  all_goals rfl

end BusScope
