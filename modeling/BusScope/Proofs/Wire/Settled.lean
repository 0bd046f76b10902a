import BusScope.Proofs.Wire.Canonical
import BusScope.Proofs.Wire.Yields

/-! What comes off the wire is settled: it is its own canonical form, and its switches stand for
the truth values that they were read from. -/

namespace BusScope

namespace DataType

/-- The value is as it comes off the wire. -/
structure Settled (t : DataType) (v : Value) : Prop where
  canonical : t.canonical v = v
  fits : t.switchesFit v = true

theorem settled_null (t : DataType) : t.Settled .null where
  canonical := t.canonical_null
  fits := by
    induction t with
    | primitive name kind => rfl
    | struct name fields ih => rw [switchesFit, fold_struct]
    | sequence name element max ih => rfl
    | array name element length ih => rfl
    | enum name variants => rfl
    | union name discriminator cases fallback ihd ihc => rw [switchesFit, fold_union]; rfl
    | aliased name target ih => exact ih

theorem settled_items {element : DataType} {vs : List Value} (h : ∀ v ∈ vs, element.Settled v) :
    vs.map element.canonical = vs :=
  (List.map_congr_left fun v hv => (h v hv).canonical).trans (List.map_id vs)

def SettledMembers : List (Field DataType) → List (String × Value) → Prop :=
  Members fun f v => f.type.Settled v

theorem SettledMembers.canonical {fs : List (Field DataType)} {ms members : List (String × Value)}
    (h : SettledMembers fs ms) (hm : ∀ m ∈ ms, SortedList.find? m.1 members = some m.2) :
    (fs.map fun f => (f.name, canonicalMember f.type.canonical
      (SortedList.find? f.name members))) = ms := by
  induction h with
  | nil => rfl
  | @cons f m fs ms hfm _ ih =>
    obtain ⟨hfirst, hrest⟩ := List.forall_mem_cons.mp hm
    rw [List.map_cons, ih hrest, ← hfm.1, hfirst, canonicalMember_some, hfm.2.canonical]

theorem SettledMembers.struct {name : String} {fields : List (Field DataType)}
    {ms : List (String × Value)} (hd : (fields.map (·.name)).Nodup)
    (h : SettledMembers fields ms) : (DataType.struct name fields).Settled (.ofMembers ms) := by
  constructor
  · have hm : ∀ m ∈ ms, SortedList.find? m.1 (SortedList.ofList ms) = some m.2 := by
      intro m hm
      exact SortedList.find?_ofList_of_mem (h.names ▸ hd) hm
    rw [Value.ofMembers, canonical_struct, h.canonical hm]
    rfl
  · apply switchesFit_struct.mpr
    intro f hf v hv
    obtain ⟨w, hw, hsettled⟩ := h.find? hd f hf
    cases hw.symm.trans hv
    exact hsettled.fits

theorem passesOn_settled (order : ByteOrder) :
    PassesOn order fun t v => t.Settled v ∧ ∀ n ∈ v.integer?, t.switchFits n = true where
  scalar name kind := by
    by_cases hk : kind = .bool
    · subst hk
      refine (Yields.anything Reader.byte).bind fun b _ => Yields.pure ⟨⟨rfl, rfl⟩, fun n hn => ?_⟩
      cases hn
      cases b != 0 <;> rfl
    · refine fun c s c' _ => ⟨⟨rfl, rfl⟩, fun n _ => ?_⟩
      unfold switchFits resolved
      split
      · next h => exact absurd (DataType.primitive.inj h).2 hk
      · rfl
  struct name fields ms hn hms := by
    have hsettled : SettledMembers fields ms := by
      refine List.Forall₂.imp (fun f m hm => ⟨hm.1, ?_⟩) hms
      rcases hm.2 with ⟨-, hnull⟩ | hm
      · rw [hnull]
        exact f.type.settled_null
      · exact hm.1
    exact ⟨hsettled.struct hn, fun n hint => by cases hint⟩
  sequence name element max vs _ _ hvs := by
    refine ⟨⟨congrArg Value.sequence (settled_items fun v hv => (hvs v hv).1), ?_⟩,
      fun n hint => by cases hint⟩
    exact switchesFit_sequence.mpr fun v hv => (hvs v hv).1.fits
  array name element vs hvs := by
    refine ⟨⟨congrArg Value.array (settled_items fun v hv => (hvs v hv).1), ?_⟩,
      fun n hint => by cases hint⟩
    exact switchesFit_array.mpr fun v hv => (hvs v hv).1.fits
  enum name variants n := ⟨⟨rfl, rfl⟩, fun _ _ => rfl⟩
  unselected name discriminator cases fallback w n hw hn hc := by
    refine ⟨⟨?_, ?_⟩, fun n hint => by cases hint⟩
    · rw [canonical_union, hc]
    · exact switchesFit_union.mpr ⟨hw.2 n hn, by simp [hc]⟩
  selected name discriminator cases fallback w n c v hw hn hc hv := by
    refine ⟨⟨?_, ?_⟩, fun n hint => by cases hint⟩
    · rw [canonical_union, hc]
      exact congrArg (Value.union n c.name) hv.1.canonical
    · exact switchesFit_union.mpr ⟨hw.2 n hn, by simpa [hc] using hv.1.fits⟩
  aliased name target v hv := ⟨⟨hv.1.canonical, hv.1.fits⟩, hv.2⟩

end DataType

theorem settled_of_decodeBody {order : ByteOrder} {t : DataType} {v : Value} {body : List UInt8}
    (hd : ∀ s ∈ t.parts, s.namesDistinct = true) (h : decodeBody order t body = .ok v) :
    t.Settled v := ((DataType.passesOn_settled order).of_decodeBody hd h).1

end BusScope
