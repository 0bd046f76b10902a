import BusScope.Proofs.Instances.RecordKeys
import BusScope.Proofs.Value.Legible

/-! What is listed of an instance tells its keys. The listing has the text of the keys, which can be
told from that text whenever the types of the key members can be read back. -/

namespace BusScope

theorem Sample.keyJson_eq_ok_members {s : Sample} {t : DataType} {text : String}
    (hd : ∀ s ∈ t.parts, s.namesDistinct = true) (h : s.keyJson t = .ok text) :
    ∃ v, s.value t = .ok v ∧ t.Shown v ∧
      text = (Json.object (DataType.jsonMembers t.keyFields v)).compact := by
  obtain ⟨v, record, hv, hrecord, rfl⟩ := keyJson_eq_ok_iff.mp h
  obtain ⟨-, hk, hall, rfl⟩ := keyRecord_eq_ok_iff.mp hrecord
  have hsome : ∀ f ∈ t.keyFields, (v.member? f.name).isSome := by
    intro f hf
    obtain ⟨w, hw, -⟩ := hall f hf
    rw [hw]
    rfl
  refine ⟨v, hv, passed_value DataType.passesOn_shown hd hv, ?_⟩
  exact congrArg Json.compact (renderer_keyValue (DataType.nodup_keyNames hk hd) hsome _)

theorem Instances.Opens.listed {capacity : Nat} {events : List InstanceEvent} {id : InstanceId}
    {t : DataType} {s : Sample} (h : Opens .dynamic capacity events id t s) :
    ∃ r, (run .dynamic capacity events).records.find? id = some r ∧ s.keyJson t = .ok r.keys ∧
      r.keys ∈ (run .dynamic capacity events).active id.topicName := by
  obtain ⟨r, hr⟩ := find?_run_iff.mpr h.alive
  have hkeys : s.keyJson t = .ok r.keys := (justified_of_find?_run hr).origin t s h
  exact ⟨r, hr, hkeys, mem_active_run.mpr ⟨id.handle, t, s, h, hkeys⟩⟩

section Keys

variable {t : DataType} (hd : ∀ s ∈ t.parts, s.namesDistinct = true)
  (hl : ∀ f ∈ t.keyFields, ∀ s ∈ f.type.parts, s.isLegible = true)

include hd hl

theorem isExact_jsonMembers {v : Value} (hv : t.Shown v) :
    (Json.object (DataType.jsonMembers t.keyFields v)).isExact = true := by
  refine Json.isExact_object.mpr fun m hm => ?_
  obtain ⟨f, hf, rfl⟩ := List.mem_map.mp hm
  obtain ⟨x, hx, hlegible⟩ := hv.keyMember hd hf (hl f hf)
  rw [hx]
  exact hlegible.isExact

theorem sameKeys_of_jsonMembers_eq {v w : Value} (hv : t.Shown v) (hw : t.Shown w)
    (h : DataType.jsonMembers t.keyFields v = DataType.jsonMembers t.keyFields w) :
    t.SameKeys v w := by
  intro f hf
  obtain ⟨x, hx, hlegible⟩ := hv.keyMember hd hf (hl f hf)
  obtain ⟨y, hy, hlegible'⟩ := hw.keyMember hd hf (hl f hf)
  have hjson := (Prod.mk.inj (List.map_inj_left.mp h f hf)).2
  rw [hx, hy] at hjson ⊢
  rw [hlegible.eq_of_renderer_eq hlegible' hjson]

theorem keyJson_eq_iff_sameKeys {a b : Sample} {text text' : String} (ha : a.keyJson t = .ok text)
    (hb : b.keyJson t = .ok text') :
    ∃ v w, a.value t = .ok v ∧ b.value t = .ok w ∧ (text = text' ↔ t.SameKeys v w) := by
  obtain ⟨v, hv, hshown, rfl⟩ := Sample.keyJson_eq_ok_members hd ha
  obtain ⟨w, hw, hshown', rfl⟩ := Sample.keyJson_eq_ok_members hd hb
  refine ⟨v, w, hv, hw, fun h => ?_, fun h => ?_⟩
  · have hexact := isExact_jsonMembers hd hl hshown
    have hexact' := isExact_jsonMembers hd hl hshown'
    exact sameKeys_of_jsonMembers_eq hd hl hshown hshown'
      (Json.object.inj (Json.compact_inj hexact hexact' h))
  · rw [Sample.keyJson_congr hv hw h, hb] at ha
    exact (Except.ok.inj ha).symm

end Keys

/-- JSON tells values apart, and what is listed of instances tells apart those with different
keys. -/
theorem json_tells_values_apart {t : DataType} (hd : ∀ s ∈ t.parts, s.namesDistinct = true) :
    ((∀ s ∈ t.parts, s.isLegible = true) → ∀ order order' body body' v w,
      decodeBody order t body = .ok v → decodeBody order' t body' = .ok w →
        (t.renderer v = t.renderer w → v = w) ∧
        ((t.renderer v).compact = (t.renderer w).compact → v = w)) ∧
    ((∀ f ∈ t.keyFields, ∀ s ∈ f.type.parts, s.isLegible = true) →
      ∀ capacity events id id' a b, Instances.Opens .dynamic capacity events id t a →
        Instances.Opens .dynamic capacity events id' t b →
          ∃ r r' v w, (Instances.run .dynamic capacity events).records.find? id = some r ∧
            (Instances.run .dynamic capacity events).records.find? id' = some r' ∧
            r.keys ∈ (Instances.run .dynamic capacity events).active id.topicName ∧
            r'.keys ∈ (Instances.run .dynamic capacity events).active id'.topicName ∧
            a.value t = .ok v ∧ b.value t = .ok w ∧ (r.keys = r'.keys ↔ t.SameKeys v w)) := by
  constructor
  · intro hl order order' body body' v w hv hw
    have hv := ((DataType.passesOn_shown order).of_decodeBody hd hv).legible hl
    have hw := ((DataType.passesOn_shown order').of_decodeBody hd hw).legible hl
    have hjson : t.renderer v = t.renderer w → v = w := hv.member.eq_of_renderer_eq hw.member
    exact ⟨hjson, fun h => hjson (Json.compact_inj hv.isExact hw.isExact h)⟩
  · intro hl capacity events id id' a b ha hb
    obtain ⟨r, hr, hkeys, hlisted⟩ := ha.listed
    obtain ⟨r', hr', hkeys', hlisted'⟩ := hb.listed
    obtain ⟨v, w, hv, hw, hsame⟩ := keyJson_eq_iff_sameKeys hd hl hkeys hkeys'
    exact ⟨r, r', v, w, hr, hr', hlisted, hlisted', hv, hw, hsame⟩

def berthArrival (name : String) : InstanceEvent :=
  .sample "berths" berth (berthSample (.scalar (.string name)))

def berthId (letter : UInt8) : InstanceId :=
  ⟨"berths", .ofKeyHolder [0, 0, 0, 1, 1, 0, 0, 0, 0, 0, 0, 2, letter, 0]⟩

theorem opens_berths :
    Instances.Opens .dynamic 2 [berthArrival "A", berthArrival "B"] (berthId 65) berth
        (berthSample (.scalar (.string "A"))) ∧
      Instances.Opens .dynamic 2 [berthArrival "A", berthArrival "B"] (berthId 66) berth
        (berthSample (.scalar (.string "B"))) := by
  have hfirst : Instances.Opens .dynamic 2 [berthArrival "A"] (berthId 65) berth
      (berthSample (.scalar (.string "A"))) := by
    refine (@Instances.opens_append_singleton _ _ [] _ _ _ _).mpr (.inl ⟨rfl, ?_, rfl, ?_⟩)
    · decide +kernel
    · exact fun w => Instances.not_supports_nil
  constructor
  · refine (@Instances.opens_append_singleton _ _ [berthArrival "A"] _ _ _ _).mpr
      (.inr ⟨hfirst, Instances.find?_run_iff.mp (Option.isSome_iff_exists.mp ?_)⟩)
    decide +kernel
  · refine (@Instances.opens_append_singleton _ _ [berthArrival "A"] _ _ _ _).mpr
      (.inl ⟨rfl, ?_, rfl, fun w hw => ?_⟩)
    · decide +kernel
    · obtain ⟨r, hr⟩ := Instances.find?_run_iff.mpr ⟨w, hw⟩
      have hnone : ((Instances.run .dynamic 2 [berthArrival "A"]).records.find?
          (berthId 66)).isSome = false := by decide +kernel
      rw [hr] at hnone
      cases hnone

theorem json_tells_values_apart_berth :
    (∀ s ∈ berth.parts, s.namesDistinct = true) ∧ (∀ s ∈ berth.parts, s.isLegible = true) ∧
      (∃ v w, decodeBody .little berth [1, 0, 0, 0, 7, 0, 0] = .ok v ∧
        decodeBody .big berth [0, 0, 0, 1, 0, 7, 1, 0, 0, 0, 0, 2, 65, 0] = .ok w ∧
        (berth.renderer v).compact ≠ (berth.renderer w).compact) ∧
      ∃ line ∈ (Instances.run .dynamic 2 [berthArrival "A", berthArrival "B"]).active "berths",
        ∃ line' ∈ (Instances.run .dynamic 2 [berthArrival "A", berthArrival "B"]).active "berths",
          line ≠ line' := by
  have hd : ∀ s ∈ berth.parts, s.namesDistinct = true := by decide
  have hl : ∀ s ∈ berth.parts, s.isLegible = true := by decide
  have hkeys : ∀ f ∈ berth.keyFields, ∀ s ∈ f.type.parts, s.isLegible = true := by decide
  refine ⟨hd, hl, ⟨_, _, rfl, rfl, fun htext => ?_⟩, ?_⟩
  · have hvalues := ((json_tells_values_apart hd).1 hl .little .big [1, 0, 0, 0, 7, 0, 0]
      [0, 0, 0, 1, 0, 7, 1, 0, 0, 0, 0, 2, 65, 0] _ _ rfl rfl).2 htext
    have hname : some Value.null = some (.scalar (.string "A")) :=
      congrArg (·.member? "name") hvalues
    cases hname
  · obtain ⟨hfirst, hsecond⟩ := opens_berths
    obtain ⟨r, r', v, w, -, -, hlisted, hlisted', hv, hw, hsame⟩ :=
      (json_tells_values_apart hd).2 hkeys 2 _ _ _ _ _ hfirst hsecond
    refine ⟨r.keys, hlisted, r'.keys, hlisted', fun heq => ?_⟩
    have hfirst : (berthSample (.scalar (.string "A"))).value berth = .ok (.ofMembers
        [("side", .enum 1 "starboard"), ("depth", .scalar (.int16 7)),
          ("name", .scalar (.string "A"))]) := by rfl
    have hsecond : (berthSample (.scalar (.string "B"))).value berth = .ok (.ofMembers
        [("side", .enum 1 "starboard"), ("depth", .scalar (.int16 7)),
          ("name", .scalar (.string "B"))]) := by rfl
    cases hfirst.symm.trans hv
    cases hsecond.symm.trans hw
    have hname := hsame.mp heq (Field.ofPrimitive "name" (.string none)).asKey.asOptional
      (List.mem_cons_of_mem _ List.mem_cons_self)
    have hname : some (Value.scalar (.string "A")) = some (.scalar (.string "B")) := hname
    exact absurd hname (by simp)

end BusScope
