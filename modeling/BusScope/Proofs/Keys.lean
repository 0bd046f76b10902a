import BusScope.Introspection
import BusScope.Proofs.Wire.RoundTrip
import BusScope.Proofs.Wire.Settled

/-! Which samples have the same handle. The key record is written so that its end can be told from
its type and its bytes, hence padding with zeros never makes two of them alike. -/

namespace BusScope

def Primitive.unbounded : Primitive → Primitive
  | .string _ => .string none
  | kind => kind

theorem Encoder.string_none {order : ByteOrder} {max : Option Nat} {s : String} {position : Nat}
    {bytes : List UInt8} (h : string order max s position = .ok bytes) :
    string order none s position = .ok bytes := by
  unfold string at h ⊢
  dsimp only at h ⊢
  split at h
  · cases h
  · exact h

theorem Encoder.scalar?_unbounded {order : ByteOrder} {kind : Primitive} {s : Scalar}
    {position : Nat} {bytes : List UInt8}
    (h : scalar? order kind s position = some (.ok bytes)) :
    scalar? order kind.unbounded s position = some (.ok bytes) := by
  cases kind with
  | string max =>
    cases s with
    | string text => exact congrArg some (string_none (Option.some.inj h))
    | _ => cases h
  | _ => exact h

namespace DataType

theorem readsScalars_unbounded (t : DataType) (order : ByteOrder) :
    t.ReadsScalars @Takes (fun kind => Reader.scalar order kind.unbounded) order := by
  intro name kind _ s position bytes hs
  refine Takes.compositional.scalar ?_ (Encoder.scalar?_unbounded hs)
  cases kind <;> rfl

/-- Two settled values whose bytes agree up to what follows them are the same value. -/
theorem Settled.eq_of_append {t : DataType} {order : ByteOrder} {v w : Value}
    {first second rest rest' : List UInt8} (hroom : ∀ s ∈ t.parts, s.itemsTakeRoom = true)
    (hv : t.Settled v) (hw : t.Settled w) (hfirst : encodeBody order t v = .ok first)
    (hsecond : encodeBody order t w = .ok second) (h : first ++ rest = second ++ rest') : v = w := by
  have hscalars := t.readsScalars_unbounded order
  have hreader := Takes.compositional
  have h1 := (hreader.reader hscalars (fun _ => hroom) hv.fits hfirst).run_start rest
  have h2 := (hreader.reader hscalars (fun _ => hroom) hw.fits hsecond).run_start rest'
  rw [hv.canonical, h] at h1
  rw [hw.canonical, h1] at h2
  exact Except.ok.inj h2

theorem Settled.member {t : DataType} {v w : Value} {fields : List (Field DataType)}
    {f : Field DataType} (hfields : t.fields? = some fields)
    (hd : (fields.map (·.name)).Nodup) (hv : t.Settled v) (hf : f ∈ fields)
    (hw : v.member? f.name = some w) : f.type.Settled w := by
  induction t with
  | struct name fs ih =>
    cases hfields
    cases v with
    | struct members =>
      have hc := hv.canonical
      rw [canonical_struct] at hc
      have hfind : SortedList.find? f.name members =
          some (canonicalMember f.type.canonical (SortedList.find? f.name members)) := by
        conv => lhs; rw [← Value.struct.inj hc]
        refine SortedList.find?_ofList_of_mem ?_ (List.mem_map.mpr ⟨f, hf, rfl⟩)
        rw [List.map_map]
        exact hd
      have hw : SortedList.find? f.name members = some w := hw
      rw [hw, canonicalMember_some, Option.some.injEq] at hfind
      exact ⟨hfind.symm, switchesFit_struct.mp hv.fits f hf w hw⟩
    | _ => cases hw
  | aliased name target ih => exact ih hfields ⟨hv.canonical, hv.fits⟩
  | primitive | sequence | array | enum | union => cases hfields

theorem nodup_names {t : DataType} {fields : List (Field DataType)}
    (hd : ∀ s ∈ t.parts, s.namesDistinct = true) (h : t.fields? = some fields) :
    (fields.map (·.name)).Nodup := by
  induction t with
  | struct name fs ih =>
    cases h
    simpa [namesDistinct] using hd _ (mem_parts_self _)
  | aliased name target ih => exact ih (fun s hs => hd s (parts_subset_alias hs)) h
  | primitive | sequence | array | enum | union => cases h

theorem fields?_of_isKeyed {t : DataType} (h : t.isKeyed = true) :
    ∃ fields, t.fields? = some fields ∧ t.keyFields = fields.filter (·.key) ∧
      t.keyFields ≠ [] := by
  unfold isKeyed at h
  unfold keyFields
  cases hf : t.fields? with
  | none => rw [hf] at h; cases h
  | some fields =>
    rw [hf] at h
    refine ⟨fields, rfl, rfl, ?_⟩
    obtain ⟨f, hmem, hkey⟩ := List.any_eq_true.mp h
    exact List.ne_nil_of_mem (List.mem_filter.mpr ⟨hmem, hkey⟩)

/-- The values agree on every key member. -/
def SameKeys (t : DataType) (v w : Value) : Prop :=
  ∀ f ∈ t.keyFields, v.member? f.name = w.member? f.name

end DataType

theorem keyMembers_congr {typeName : String} {v w : Value} {fs : List (Field DataType)}
    (h : ∀ f ∈ fs, v.member? f.name = w.member? f.name) :
    keyMembers typeName v fs = keyMembers typeName w fs := by
  induction fs with
  | nil => rfl
  | cons f fs ih =>
    obtain ⟨hf, hfs⟩ := List.forall_mem_cons.mp h
    rw [keyMembers, keyMembers, hf, ih hfs]

theorem keyMembers_eq_ok {typeName : String} {v : Value} {fs : List (Field DataType)}
    {ms : List (String × Value)} (h : keyMembers typeName v fs = .ok ms) :
    (∀ f ∈ fs, (v.member? f.name).isSome) ∧
      ms = fs.map fun f => (f.name, (v.member? f.name).getD .null) := by
  induction fs generalizing ms with
  | nil =>
    cases h
    exact ⟨fun f hf => absurd hf List.not_mem_nil, rfl⟩
  | cons f fs ih =>
    unfold keyMembers at h
    split at h
    · cases h
    · cases h
    · next m _ hm =>
      cases hrest : keyMembers typeName v fs with
      | error e => rw [hrest] at h; cases h
      | ok others =>
        rw [hrest] at h
        cases h
        obtain ⟨hsome, rfl⟩ := ih hrest
        refine ⟨List.forall_mem_cons.mpr ⟨by rw [hm]; rfl, hsome⟩, ?_⟩
        rw [List.map_cons, hm]
        rfl

def keyValue (t : DataType) (v : Value) : Value :=
  .ofMembers (t.keyFields.map fun f => (f.name, (v.member? f.name).getD .null))

/-- The bytes that a handle is made from: the key record in big-endian order. -/
def keyHolder (t : DataType) (v : Value) : Except InspectionFault (List UInt8) :=
  match keyRecord t v with
  | .error e => .error e
  | .ok (keys, values) => (encodeBody .big keys values).mapError .encode

theorem handleOf_of_isKeyed {t : DataType} (h : t.isKeyed = true) (v : Value) :
    handleOf t v = (keyHolder t v).map .ofKeyHolder := by
  rw [handleOf, if_pos h, keyHolder]
  cases keyRecord t v with
  | error e => rfl
  | ok record =>
    cases hb : encodeBody .big record.1 record.2 with
    | error e => simp only [hb]; rfl
    | ok holder => simp only [hb]; rfl

theorem keyRecord_congr {t : DataType} {v w : Value} (h : t.SameKeys v w) :
    keyRecord t v = keyRecord t w := by
  unfold keyRecord
  rw [keyMembers_congr h]

theorem keyHolder_congr {t : DataType} {v w : Value} (h : t.SameKeys v w) :
    keyHolder t v = keyHolder t w := by
  rw [keyHolder, keyHolder, keyRecord_congr h]

theorem keyHolder_eq_ok {t : DataType} {v : Value} {holder : List UInt8} (ht : t.isKeyed = true)
    (h : keyHolder t v = .ok holder) :
    (∀ f ∈ t.keyFields, (v.member? f.name).isSome) ∧
      encodeBody .big (.struct (t.name ++ "_KeysOnly") t.keyFields) (keyValue t v) = .ok holder := by
  obtain ⟨fields, hfields, -, hne⟩ := DataType.fields?_of_isKeyed ht
  have hstruct : t.isStruct = true := by rw [DataType.isStruct, hfields]; rfl
  have honly : t.keyOnly? = some (.struct (t.name ++ "_KeysOnly") t.keyFields) := by
    rw [DataType.keyOnly?, if_neg (by simpa using hne)]
  rw [keyHolder, keyRecord, if_pos hstruct, honly] at h
  cases hms : keyMembers t.name v t.keyFields with
  | error e => rw [hms] at h; cases h
  | ok ms =>
    rw [hms] at h
    obtain ⟨hsome, rfl⟩ := keyMembers_eq_ok hms
    refine ⟨hsome, ?_⟩
    change (encodeBody .big _ (keyValue t v)).mapError _ = _ at h
    cases hb : encodeBody .big (.struct (t.name ++ "_KeysOnly") t.keyFields) (keyValue t v) with
    | error e => rw [hb] at h; cases h
    | ok bytes =>
      rw [hb] at h
      exact congrArg Except.ok (Except.ok.inj h)

theorem DataType.nodup_keyNames {t : DataType} (ht : t.isKeyed = true)
    (hd : ∀ s ∈ t.parts, s.namesDistinct = true) : (t.keyFields.map (·.name)).Nodup := by
  obtain ⟨fields, hfields, hkeys, -⟩ := fields?_of_isKeyed ht
  rw [hkeys]
  exact (nodup_names hd hfields).sublist (List.filter_sublist.map _)

theorem settled_keyValue {t : DataType} {v : Value} (ht : t.isKeyed = true)
    (hd : ∀ s ∈ t.parts, s.namesDistinct = true) (hv : t.Settled v)
    (hsome : ∀ f ∈ t.keyFields, (v.member? f.name).isSome) (name : String) :
    (DataType.struct name t.keyFields).Settled (keyValue t v) := by
  obtain ⟨fields, hfields, hkeys, -⟩ := DataType.fields?_of_isKeyed ht
  have hmember : ∀ f ∈ t.keyFields, f.type.Settled ((v.member? f.name).getD .null) := by
    intro f hf
    obtain ⟨w, hw⟩ := Option.isSome_iff_exists.mp (hsome f hf)
    rw [hkeys] at hf
    rw [hw]
    exact hv.member hfields (DataType.nodup_names hd hfields) (List.mem_of_mem_filter hf) hw
  refine DataType.SettledMembers.struct (DataType.nodup_keyNames ht hd) ?_
  refine List.forall₂_map_right_iff.mpr (List.forall₂_same.mpr fun f hf => ⟨rfl, ?_⟩)
  exact hmember f hf

theorem find?_keyValue {t : DataType} {v : Value} (hn : (t.keyFields.map (·.name)).Nodup)
    {f : Field DataType} (hf : f ∈ t.keyFields) (hsome : (v.member? f.name).isSome) :
    (keyValue t v).member? f.name = v.member? f.name := by
  obtain ⟨w, hw⟩ := Option.isSome_iff_exists.mp hsome
  have hmem : (f.name, w) ∈ t.keyFields.map fun f => (f.name, (v.member? f.name).getD .null) :=
    List.mem_map.mpr ⟨f, hf, by rw [hw]; rfl⟩
  rw [hw]
  refine SortedList.find?_ofList_of_mem ?_ hmem
  rw [List.map_map]
  exact hn

theorem InstanceHandle.append_eq_of_ofKeyHolder_eq {a b : List UInt8} (ha : a.length ≤ 16)
    (hb : b.length ≤ 16) (h : ofKeyHolder a = ofKeyHolder b) :
    a ++ List.replicate (16 - a.length) 0 = b ++ List.replicate (16 - b.length) 0 := by
  rw [ofKeyHolder, dif_pos ha, ofKeyHolder, dif_pos hb] at h
  have hbytes := congrArg (fun x => x.bytes.toArray.toList) h
  exact hbytes

theorem sameKeys_of_append_eq {t : DataType} {v w : Value} {first second rest rest' : List UInt8}
    (ht : t.isKeyed = true) (hd : ∀ s ∈ t.parts, s.namesDistinct = true)
    (hroom : ∀ f ∈ t.keyFields, ∀ s ∈ f.type.parts, s.itemsTakeRoom = true)
    (hv : t.Settled v) (hw : t.Settled w) (hfirst : keyHolder t v = .ok first)
    (hsecond : keyHolder t w = .ok second) (h : first ++ rest = second ++ rest') :
    t.SameKeys v w := by
  obtain ⟨hsome, hfirst⟩ := keyHolder_eq_ok ht hfirst
  obtain ⟨hsome', hsecond⟩ := keyHolder_eq_ok ht hsecond
  have hsettled := settled_keyValue ht hd hv hsome (t.name ++ "_KeysOnly")
  have hsettled' := settled_keyValue ht hd hw hsome' (t.name ++ "_KeysOnly")
  have hroomy : ∀ s ∈ (DataType.struct (t.name ++ "_KeysOnly") t.keyFields).parts,
      s.itemsTakeRoom = true := by
    intro s hs
    rcases DataType.mem_parts_struct.mp hs with rfl | ⟨f, hf, hs⟩
    · rfl
    · exact hroom f hf s hs
  have heq : keyValue t v = keyValue t w :=
    hsettled.eq_of_append hroomy hsettled' hfirst hsecond h
  intro f hf
  have hn := DataType.nodup_keyNames ht hd
  rw [← find?_keyValue hn hf (hsome f hf), heq, find?_keyValue hn hf (hsome' f hf)]

theorem Sample.passed_value {P : DataType → Value → Prop} {s : Sample} {t : DataType} {v : Value}
    (hP : ∀ order, DataType.PassesOn order P) (hd : ∀ s ∈ t.parts, s.namesDistinct = true)
    (h : s.value t = .ok v) : P t v := by
  unfold value at h
  split at h
  · cases h
  · next hv =>
    cases h
    unfold decodeSample at hv
    split at hv
    · exact (hP _).of_decodeBody hd hv
    · exact (hP _).of_decodeBody hd hv
    · cases hv
    · cases hv

theorem Sample.settled_value {s : Sample} {t : DataType} {v : Value}
    (hd : ∀ s ∈ t.parts, s.namesDistinct = true) (h : s.value t = .ok v) : t.Settled v :=
  (passed_value DataType.passesOn_settled hd h).1

theorem Sample.keyHandle_eq {s : Sample} {t : DataType} {v : Value} (ht : t.isKeyed = true)
    (h : s.value t = .ok v) : s.keyHandle t = (keyHolder t v).map .ofKeyHolder := by
  rw [keyHandle, h]
  exact handleOf_of_isKeyed ht v

/-- Handles tell keys apart as long as the key holders are short, and equal keys always give equal
handles, whatever the other members are and in whichever byte order the samples were sent. -/
theorem keyHandle_identifies_keys {t : DataType} {a b : Sample} {v w : Value}
    (ht : t.isKeyed = true) (hd : ∀ s ∈ t.parts, s.namesDistinct = true)
    (hroom : ∀ f ∈ t.keyFields, ∀ s ∈ f.type.parts, s.itemsTakeRoom = true)
    (ha : a.value t = .ok v) (hb : b.value t = .ok w) :
    (∀ h h' first second, a.keyHandle t = .ok h → b.keyHandle t = .ok h' →
      keyHolder t v = .ok first → keyHolder t w = .ok second →
      first.length ≤ 16 → second.length ≤ 16 → (h = h' ↔ t.SameKeys v w)) ∧
    (t.SameKeys v w → a.keyHandle t = b.keyHandle t) := by
  have hequal : t.SameKeys v w → a.keyHandle t = b.keyHandle t := by
    intro hsame
    rw [Sample.keyHandle_eq ht ha, Sample.keyHandle_eq ht hb, keyHolder_congr hsame]
  refine ⟨fun h h' first second hh hh' hfirst hsecond hlen hlen' => ⟨fun he => ?_, fun hs => ?_⟩,
    hequal⟩
  · rw [Sample.keyHandle_eq ht ha, hfirst] at hh
    rw [Sample.keyHandle_eq ht hb, hsecond] at hh'
    have hholders : InstanceHandle.ofKeyHolder first = .ofKeyHolder second :=
      (Except.ok.inj hh).trans (he.trans (Except.ok.inj hh').symm)
    -- The zeros that fill up the handles are just more bytes after the holders.
    exact sameKeys_of_append_eq ht hd hroom (Sample.settled_value hd ha)
      (Sample.settled_value hd hb) hfirst hsecond
      (InstanceHandle.append_eq_of_ofKeyHolder_eq hlen hlen' hholders)
  · have heq := hequal hs
    rw [hh, hh'] at heq
    exact Except.ok.inj heq

def track : DataType :=
  .struct "Track" [(Field.ofPrimitive "name" (.string (some 4))).asKey,
    (Field.sequenceOf "cells" .uint16).asKey, .ofPrimitive "heading" .float64]

def trackValue (cells : List UInt16) (heading : UInt64) : Value :=
  .ofMembers [("name", .scalar (.string "ab")),
    ("cells", .sequence (cells.map fun n => .scalar (.uint16 n))),
    ("heading", .scalar (.float64 ⟨heading⟩))]

def trackSample (order : ByteOrder) (cells : List UInt16) (heading : UInt64) : Sample :=
  ⟨[0, if order = .little then 1 else 0, 0, 0] ++
    (encodeBody order track (trackValue cells heading)).toOption.getD [], .zero, .nil, .zero⟩

theorem keyHandle_identifies_keys_track :
    track.isKeyed = true ∧ (∀ s ∈ track.parts, s.namesDistinct = true) ∧
      (∀ f ∈ track.keyFields, ∀ s ∈ f.type.parts, s.itemsTakeRoom = true) ∧
      (trackSample .little [7] 1).keyHandle track = (trackSample .big [7] 2).keyHandle track ∧
      ∃ h h', (trackSample .little [7] 1).keyHandle track = .ok h ∧
        (trackSample .big [7, 0] 1).keyHandle track = .ok h' ∧ h ≠ h' := by
  have ht : track.isKeyed = true := by decide
  have hd : ∀ s ∈ track.parts, s.namesDistinct = true := by decide
  have hroom : ∀ f ∈ track.keyFields, ∀ s ∈ f.type.parts, s.itemsTakeRoom = true := by decide
  have hlittle : (trackSample .little [7] 1).value track = .ok (trackValue [7] 1) := by rfl
  have hbig : (trackSample .big [7] 2).value track = .ok (trackValue [7] 2) := by rfl
  have hother : (trackSample .big [7, 0] 1).value track = .ok (trackValue [7, 0] 1) := by cbv
  have hfirst : keyHolder track (trackValue [7] 1) =
      .ok [0, 0, 0, 3, 97, 98, 0, 0, 0, 0, 0, 1, 0, 7] := by rfl
  have hsecond : keyHolder track (trackValue [7, 0] 1) =
      .ok [0, 0, 0, 3, 97, 98, 0, 0, 0, 0, 0, 2, 0, 7, 0, 0] := by rfl
  have hh := Sample.keyHandle_eq ht hlittle
  have hh' := Sample.keyHandle_eq ht hother
  rw [hfirst] at hh
  rw [hsecond] at hh'
  refine ⟨ht, hd, hroom, (keyHandle_identifies_keys ht hd hroom hlittle hbig).2 ?_, _, _, hh, hh', ?_⟩
  · exact List.forall_mem_cons.mpr ⟨rfl, List.forall_mem_singleton.mpr rfl⟩
  · intro he
    have hsame := ((keyHandle_identifies_keys ht hd hroom hlittle hother).1 _ _ _ _ hh hh' hfirst
      hsecond (by decide) (by decide)).mp he
    have hcells : (Field.sequenceOf "cells" .uint16).asKey ∈ track.keyFields :=
      List.mem_cons_of_mem _ List.mem_cons_self
    have hmember : some (Value.sequence [.scalar (.uint16 7)]) =
        some (Value.sequence [.scalar (.uint16 7), .scalar (.uint16 0)]) := hsame _ hcells
    cases hmember

end BusScope
