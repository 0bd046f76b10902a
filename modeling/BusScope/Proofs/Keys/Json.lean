import BusScope.Proofs.Keys

/-! The JSON of the keys beside that of the whole sample. The two are rendered apart, from different
types and different values, yet the one is cut out of the other. -/

namespace BusScope

namespace Json

theorem setMember_of_not_mem {name : String} {value : Json} {members : List (String × Json)}
    (h : name ∉ members.map (·.1)) : setMember name value members = members ++ [(name, value)] := by
  induction members with
  | nil => rfl
  | cons m members ih =>
    rw [List.map_cons, List.mem_cons, not_or] at h
    rw [setMember, if_neg (Ne.symm h.1), ih h.2]
    rfl

theorem ofMembers_of_nodup {members : List (String × Json)} (h : (members.map (·.1)).Nodup) :
    ofMembers members = .object members := by
  have hfold : members.foldl (fun ms m => setMember m.1 m.2 ms) [] = members := by
    induction members using List.reverseRecOn with
    | nil => rfl
    | append_singleton members m ih =>
      rw [List.map_append, List.nodup_append] at h
      have hm : m.1 ∉ members.map (·.1) := fun hmem => h.2.2 _ hmem m.1 (by simp) rfl
      rw [List.foldl_append, ih h.1]
      exact setMember_of_not_mem hm
  rw [ofMembers, hfold]

end Json

namespace DataType

def jsonMembers (fields : List (Field DataType)) (v : Value) : List (String × Json) :=
  fields.map fun f => (f.name, ((v.member? f.name).map f.type.renderer).getD .null)

theorem names_jsonMembers (fields : List (Field DataType)) (v : Value) :
    (jsonMembers fields v).map (·.1) = fields.map (·.name) := by
  rw [jsonMembers, List.map_map]
  rfl

theorem jsonMembers_congr {fields : List (Field DataType)} {v w : Value}
    (h : ∀ f ∈ fields, v.member? f.name = w.member? f.name) :
    jsonMembers fields v = jsonMembers fields w := by
  refine List.map_congr_left fun f hf => ?_
  rw [h f hf]

theorem renderer_ofMembers {t : DataType} {fields : List (Field DataType)}
    (hfields : t.fields? = some fields) (hn : (fields.map (·.name)).Nodup)
    (members : List (String × Value)) :
    t.renderer (.ofMembers members) = .object (jsonMembers fields (.ofMembers members)) := by
  induction t with
  | struct name fs ih =>
    cases hfields
    have hmembers : (fieldRenderers fields).map (fun f =>
        (f.name, ((SortedList.find? f.name (SortedList.ofList members)).map f.type).getD .null)) =
          jsonMembers fields (.ofMembers members) := by
      rw [fieldRenderers_eq, List.map_map]
      rfl
    show Json.ofMembers _ = _
    rw [hmembers]
    exact Json.ofMembers_of_nodup (names_jsonMembers fields _ ▸ hn)
  | aliased name target ih => exact ih hfields
  | primitive | sequence | array | enum | union => cases hfields

/-- Whatever came off the wire is not absent, and if it is a structure, then only its optional
members can be. -/
structure Complete (t : DataType) (v : Value) : Prop where
  ne_null : v ≠ .null
  members : ∀ fields, t.fields? = some fields → ∃ ms, v = .ofMembers ms ∧
    Members (fun f w => (f.optional = true ∧ w = .null) ∨ w ≠ .null) fields ms

theorem passesOn_complete (order : ByteOrder) : PassesOn order Complete where
  scalar name kind := fun _ _ _ _ => ⟨Value.noConfusion, fun _ hf => by cases hf⟩
  struct name fields ms hn hms := by
    refine ⟨Value.noConfusion, fun fs hf => ?_⟩
    cases hf
    exact ⟨ms, rfl, List.Forall₂.imp (fun f m h => ⟨h.1, h.2.imp_right Complete.ne_null⟩) hms⟩
  sequence name element max vs _ _ _ := ⟨Value.noConfusion, fun _ hf => by cases hf⟩
  array name element vs _ := ⟨Value.noConfusion, fun _ hf => by cases hf⟩
  enum name variants n := ⟨Value.noConfusion, fun _ hf => by cases hf⟩
  unselected _ _ _ _ _ _ _ _ _ := ⟨Value.noConfusion, fun _ hf => by cases hf⟩
  selected _ _ _ _ _ _ _ _ _ _ _ _ := ⟨Value.noConfusion, fun _ hf => by cases hf⟩
  aliased name target v hv := ⟨hv.ne_null, hv.members⟩

def KeysPresent (t : DataType) (v : Value) : Prop :=
  ∀ f ∈ t.keyFields, f.optional = true → v.member? f.name ≠ some .null

theorem Complete.keysPresent_iff {t : DataType} {v : Value} (h : t.Complete v)
    (hd : ∀ s ∈ t.parts, s.namesDistinct = true) :
    t.KeysPresent v ↔ ∀ f ∈ t.keyFields, ∃ w, v.member? f.name = some w ∧ w ≠ .null := by
  constructor
  · intro hp f hf
    obtain ⟨fields, hfields, hmem⟩ : ∃ fields, t.fields? = some fields ∧ f ∈ fields := by
      cases hfields : t.fields? with
      | none => simp [keyFields, hfields] at hf
      | some fields => exact ⟨fields, rfl, by simp_all [keyFields]⟩
    obtain ⟨ms, rfl, hms⟩ := h.members fields hfields
    obtain ⟨w, hw, hmember⟩ := hms.find? (nodup_names hd hfields) f hmem
    refine ⟨w, hw, ?_⟩
    rcases hmember with ⟨ho, rfl⟩ | hne
    · exact absurd hw (hp f hf ho)
    · exact hne
  · intro hp f hf _ hnull
    obtain ⟨w, hw, hne⟩ := hp f hf
    exact hne (Option.some.inj (hw.symm.trans hnull))

theorem jsonMembers_keyFields {t : DataType} {fields : List (Field DataType)}
    (hfields : t.fields? = some fields) (hn : (fields.map (·.name)).Nodup) (v : Value) :
    jsonMembers t.keyFields v =
      (jsonMembers fields v).filter fun m => t.keyNames.contains m.1 := by
  have hkeys : t.keyFields = fields.filter (·.key) := by rw [keyFields, hfields]; rfl
  have hnamed : ∀ f ∈ fields, t.keyNames.contains f.name = f.key := by
    intro f hf
    rw [Bool.eq_iff_iff, List.contains_iff_mem, keyNames, hkeys, List.mem_map]
    constructor
    · intro h
      obtain ⟨g, hg, hname⟩ := h
      obtain ⟨hmem, hkey⟩ := List.mem_filter.mp hg
      have hsame : g = f := List.inj_on_of_nodup_map hn hmem hf hname
      exact hsame ▸ hkey
    · exact fun hkey => ⟨f, List.mem_filter.mpr ⟨hf, hkey⟩, rfl⟩
  rw [jsonMembers, jsonMembers, hkeys, List.filter_map]
  exact congrArg _ (List.filter_congr fun f hf => (hnamed f hf).symm)

end DataType

theorem keyMembers_eq_ok_iff {typeName : String} {v : Value} {fs : List (Field DataType)}
    {ms : List (String × Value)} :
    keyMembers typeName v fs = .ok ms ↔
      (∀ f ∈ fs, ∃ w, v.member? f.name = some w ∧ w ≠ .null) ∧
        ms = fs.map fun f => (f.name, (v.member? f.name).getD .null) := by
  induction fs generalizing ms with
  | nil => simp [keyMembers, eq_comm]
  | cons f fs ih =>
    rw [List.forall_mem_cons, List.map_cons, keyMembers]
    split
    · next hm => simp [hm]
    · next hm => simp [hm]
    · next w hne hm =>
      have hfirst : ∃ u, some w = some u ∧ u ≠ .null := ⟨w, rfl, hne⟩
      rw [hm]
      cases hrest : keyMembers typeName v fs with
      | error e =>
        have hnot : ¬ ∀ f ∈ fs, ∃ w, v.member? f.name = some w ∧ w ≠ .null := by
          intro hfs
          cases hrest.symm.trans (ih.mpr ⟨hfs, rfl⟩)
        simp only [hnot, and_false, false_and, reduceCtorEq]
      | ok others =>
        obtain ⟨hfs, rfl⟩ := ih.mp hrest
        simp only [Option.getD_some, Except.ok.injEq]
        exact ⟨fun h => ⟨⟨hfirst, hfs⟩, h.symm⟩, fun h => h.2.symm⟩

theorem Except.map_eq_ok_iff {ε α β : Type} {x : Except ε α} {f : α → β} {b : β} :
    x.map f = .ok b ↔ ∃ a, x = .ok a ∧ f a = b := by
  cases x <;> simp [Except.map]

theorem keyRecord_eq_ok_iff {t : DataType} {v : Value} {record : DataType × Value} :
    keyRecord t v = .ok record ↔ t.isStruct = true ∧ t.isKeyed = true ∧
      (∀ f ∈ t.keyFields, ∃ w, v.member? f.name = some w ∧ w ≠ .null) ∧
      record = (.struct (t.name ++ "_KeysOnly") t.keyFields, keyValue t v) := by
  have hempty : t.keyFields.isEmpty = true ↔ t.isKeyed = false :=
    List.isEmpty_iff.trans DataType.keyFields_eq_nil_iff
  unfold keyRecord
  by_cases hs : t.isStruct = true
  · rw [if_pos hs, DataType.keyOnly?]
    cases hk : t.isKeyed with
    | false => simp [hempty.mpr hk]
    | true =>
      have hne : ¬ t.keyFields.isEmpty = true := fun he => by simp [hempty.mp he] at hk
      rw [if_neg hne]
      dsimp only
      rw [Except.map_eq_ok_iff]
      constructor
      · intro h
        obtain ⟨ms, hms, rfl⟩ := h
        obtain ⟨hall, rfl⟩ := keyMembers_eq_ok_iff.mp hms
        exact ⟨hs, rfl, hall, rfl⟩
      · intro h
        obtain ⟨-, -, hall, rfl⟩ := h
        exact ⟨_, keyMembers_eq_ok_iff.mpr ⟨hall, rfl⟩, rfl⟩
  · simp [hs]

theorem Sample.json_eq_ok_iff {s : Sample} {t : DataType} {j : Json} :
    s.json t = .ok j ↔ ∃ v, s.value t = .ok v ∧ t.renderer v = j := Except.map_eq_ok_iff

theorem Sample.keyJson_eq_ok_iff {s : Sample} {t : DataType} {text : String} :
    s.keyJson t = .ok text ↔ ∃ v record, s.value t = .ok v ∧ keyRecord t v = .ok record ∧
      (record.1.renderer record.2).compact = text := by
  unfold keyJson
  cases hv : s.value t with
  | error e => simp
  | ok v => simp [Except.map_eq_ok_iff]

theorem renderer_keyValue {t : DataType} {v : Value} (hn : (t.keyFields.map (·.name)).Nodup)
    (hsome : ∀ f ∈ t.keyFields, (v.member? f.name).isSome) (name : String) :
    (DataType.struct name t.keyFields).renderer (keyValue t v) =
      .object (DataType.jsonMembers t.keyFields v) := by
  have hsame : ∀ f ∈ t.keyFields, (keyValue t v).member? f.name = v.member? f.name :=
    fun f hf => find?_keyValue hn hf (hsome f hf)
  rw [← DataType.jsonMembers_congr hsame]
  exact DataType.renderer_ofMembers rfl hn _

/-- The keys have a JSON text where the sample has JSON and no key is absent. It is what is left of
the sample's object when all but the keys are taken out. -/
theorem keyJson_is_part_of_json {t : DataType} (hd : ∀ s ∈ t.parts, s.namesDistinct = true)
    (s : Sample) :
    ((∃ text, s.keyJson t = .ok text) ↔ ∃ v j, s.value t = .ok v ∧ s.json t = .ok j ∧
      t.isStruct = true ∧ t.isKeyed = true ∧ t.KeysPresent v) ∧
    ∀ text, s.keyJson t = .ok text → ∃ members keys, s.json t = .ok (.object members) ∧
      keys = members.filter (fun m => t.keyNames.contains m.1) ∧ keys.map (·.1) = t.keyNames ∧
      text = (Json.object keys).compact := by
  constructor
  · constructor
    · intro h
      obtain ⟨text, htext⟩ := h
      obtain ⟨v, record, hv, hrecord, -⟩ := Sample.keyJson_eq_ok_iff.mp htext
      obtain ⟨hs, hk, hall, -⟩ := keyRecord_eq_ok_iff.mp hrecord
      have hcomplete := Sample.passed_value DataType.passesOn_complete hd hv
      exact ⟨v, _, hv, Sample.json_eq_ok_iff.mpr ⟨v, hv, rfl⟩, hs, hk,
        (hcomplete.keysPresent_iff hd).mpr hall⟩
    · intro h
      obtain ⟨v, j, hv, -, hs, hk, hp⟩ := h
      have hcomplete := Sample.passed_value DataType.passesOn_complete hd hv
      have hall := (hcomplete.keysPresent_iff hd).mp hp
      exact ⟨_, Sample.keyJson_eq_ok_iff.mpr
        ⟨v, _, hv, keyRecord_eq_ok_iff.mpr ⟨hs, hk, hall, rfl⟩, rfl⟩⟩
  · intro text htext
    obtain ⟨v, record, hv, hrecord, rfl⟩ := Sample.keyJson_eq_ok_iff.mp htext
    obtain ⟨hs, hk, hall, rfl⟩ := keyRecord_eq_ok_iff.mp hrecord
    obtain ⟨fields, hfields⟩ := Option.isSome_iff_exists.mp hs
    have hn := DataType.nodup_names hd hfields
    obtain ⟨ms, rfl, -⟩ :=
      (Sample.passed_value DataType.passesOn_complete hd hv).members fields hfields
    have hsome : ∀ f ∈ t.keyFields, ((Value.ofMembers ms).member? f.name).isSome := by
      intro f hf
      obtain ⟨w, hw, -⟩ := hall f hf
      rw [hw]
      rfl
    refine ⟨DataType.jsonMembers fields (.ofMembers ms), _, ?_, rfl, ?_, ?_⟩
    · exact Sample.json_eq_ok_iff.mpr ⟨_, hv, DataType.renderer_ofMembers hfields hn ms⟩
    · rw [← DataType.jsonMembers_keyFields hfields hn, DataType.names_jsonMembers]
      rfl
    · rw [← DataType.jsonMembers_keyFields hfields hn]
      exact congrArg Json.compact (renderer_keyValue (DataType.nodup_keyNames hk hd) hsome _)

def berth : DataType :=
  .alias "Berth" (.struct "BerthBase" [
    (Field.nested "side" (.enum "Side" [⟨"port", 0⟩, ⟨"starboard", 1⟩])).asKey,
    .ofPrimitive "depth" .int16,
    (Field.ofPrimitive "name" (.string none)).asKey.asOptional])

def berthSample (name : Value) : Sample :=
  ⟨(encodeSample berth (.ofMembers [("side", .enum 1 ""), ("depth", .scalar (.int16 7)),
    ("name", name)])).toOption.getD [], .zero, .nil, .zero⟩

theorem keyJson_is_part_of_json_berth :
    (∀ s ∈ berth.parts, s.namesDistinct = true) ∧
      (∃ members, (berthSample (.scalar (.string "A"))).json berth = .ok (.object members) ∧
        (members.filter fun m => berth.keyNames.contains m.1).map (·.1) = ["side", "name"] ∧
        "\x7b\"side\":\"starboard\",\"name\":\"A\"\x7d" =
          (Json.object (members.filter fun m => berth.keyNames.contains m.1)).compact) ∧
      (∃ j, (berthSample .null).json berth = .ok j) ∧
      ¬ ∃ text, (berthSample .null).keyJson berth = .ok text := by
  have hd : ∀ s ∈ berth.parts, s.namesDistinct = true := by decide
  refine ⟨hd, ?_, ⟨_, rfl⟩, fun habsent => ?_⟩
  · have htext : (berthSample (.scalar (.string "A"))).keyJson berth =
        .ok "\x7b\"side\":\"starboard\",\"name\":\"A\"\x7d" := by rfl
    obtain ⟨members, _, hj, rfl, hnames, hcompact⟩ := (keyJson_is_part_of_json hd _).2 _ htext
    exact ⟨members, hj, hnames, hcompact⟩
  · obtain ⟨v, _, hv, -, -, -, hp⟩ := (keyJson_is_part_of_json hd _).1.mp habsent
    have hvalue : (berthSample .null).value berth =
        .ok (.ofMembers [("side", .enum 1 "starboard"), ("depth", .scalar (.int16 7)),
          ("name", .null)]) := by rfl
    cases hv.symm.trans hvalue
    have hkey : (Field.ofPrimitive "name" (.string none)).asKey.asOptional ∈ berth.keyFields :=
      List.mem_cons_of_mem _ List.mem_cons_self
    exact hp _ hkey rfl rfl

end BusScope
