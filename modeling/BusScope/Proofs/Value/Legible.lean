import BusScope.Proofs.Json.Delimited
import BusScope.Proofs.Keys.Json

/-! Values read back from their JSON. With the type at hand, what came off the wire can be told from
its JSON, as long as the type has neither floats nor unions and its variants have names of their
own. One left inverse, built along the type, does for all kinds of values. -/

namespace BusScope

def Primitive.isFloat : Primitive → Bool
  | .float32 | .float64 => true
  | _ => false

/-- The scalar of the kind that the JSON shows. -/
def Primitive.ofJson? (kind : Primitive) : Json → Option Scalar
  | .bool b => some (.bool b)
  | .int n =>
    match kind with
    | .uint8 => some (.uint8 (.ofNat n.toNat))
    | .uint16 => some (.uint16 (.ofNat n.toNat))
    | .uint32 => some (.uint32 (.ofNat n.toNat))
    | .uint64 => some (.uint64 (.ofNat n.toNat))
    | .int8 => some (.int8 (.ofInt n))
    | .int16 => some (.int16 (.ofInt n))
    | .int32 => some (.int32 (.ofInt n))
    | .int64 => some (.int64 (.ofInt n))
    | _ => none
  | .text s =>
    match kind with
    | .char => s.toList.head?.map .char
    | .string _ => some (.string s)
    | .wstring _ => some (.wstring s)
    | _ => none
  | _ => none

theorem yields_legible_scalar (order : ByteOrder) {kind : Primitive} (h : kind.isFloat = false) :
    Yields (Reader.scalar order kind) fun s => kind.ofJson? s.toJson = some s ∧
      s.toJson ≠ .null ∧ s.toJson.isExact = true := by
  cases kind with
  | float32 => cases h
  | float64 => cases h
  | bool => exact (Yields.anything _).bind fun b _ => Yields.pure ⟨rfl, Json.noConfusion, rfl⟩
  | string max => exact (Yields.anything _).bind fun s _ => Yields.pure ⟨rfl, Json.noConfusion, rfl⟩
  | wstring max => exact (Yields.anything _).bind fun s _ => Yields.pure ⟨rfl, Json.noConfusion, rfl⟩
  | _ =>
    refine (Yields.anything _).bind fun n _ => Yields.pure ⟨?_, Json.noConfusion, rfl⟩
    simp only [Scalar.toJson, Json.nat, Primitive.ofJson?, Int.toNat_natCast, UInt8.ofNat_toNat,
      UInt16.ofNat_toNat, UInt32.ofNat_toNat, UInt64.ofNat_toNat, Int8.ofInt_toInt,
      Int16.ofInt_toInt, Int32.ofInt_toInt, Int64.ofInt_toInt, String.toList_ofList,
      List.head?_cons, Option.map_some]

namespace DataType

/-- Neither a float nor a union, and if it is an enumeration, then every variant has a name that is
not empty and not that of another. Says nothing about the parts. -/
def isLegible : DataType → Bool
  | .primitive _ kind => !kind.isFloat
  | .enum _ variants =>
    variants.all (·.name ≠ "") && decide (variants.map (·.name)).Nodup
  | .union .. => false
  | _ => true

def enumOfJson (variants : List Variant) : Json → Value
  | .int n => .enum (.ofInt n) ""
  | .text name =>
    match Variant.byName? variants name with
    | some variant => .enum variant.value name
    | none => .null
  | _ => .null

def memberOfJson (read : Json → Value) : Json → Value
  | .null => .null
  | j => read j

def structOfJson (fields : List (Field (Json → Value))) : Json → Value
  | .object members =>
    .ofMembers (List.zipWith (fun f m => (f.name, memberOfJson f.type m.2)) fields members)
  | _ => .null

def ofJson : DataType → Json → Value := fold
  { primitive := fun kind j => ((kind.ofJson? j).map .scalar).getD .null
    struct := structOfJson
    sequence := fun _ read j =>
      match j with
      | .list items => .sequence (items.map read)
      | _ => .null
    array := fun _ read j =>
      match j with
      | .list items => .array (items.map read)
      | _ => .null
    enum := enumOfJson
    union := fun _ _ _ _ _ => .null }

theorem ofJson_struct (name : String) (fields : List (Field DataType)) :
    (DataType.struct name fields).ofJson = structOfJson (fields.map (Field.map ofJson)) :=
  fold_struct _ name fields

theorem renderer_null (t : DataType) : t.renderer .null = .null := by
  induction t with
  | aliased name target ih => exact ih
  | _ => rfl

/-- The value can be told from its JSON, which is not that of an absent one. -/
structure Legible (t : DataType) (v : Value) : Prop where
  readBack : t.ofJson (t.renderer v) = v
  ne_null : t.renderer v ≠ .null
  isExact : (t.renderer v).isExact = true

structure LegibleMember (t : DataType) (v : Value) : Prop where
  readBack : memberOfJson t.ofJson (t.renderer v) = v
  isExact : (t.renderer v).isExact = true

theorem legibleMember_null (t : DataType) : t.LegibleMember .null where
  readBack := by rw [renderer_null]; rfl
  isExact := by rw [renderer_null]; rfl

theorem Legible.member {t : DataType} {v : Value} (h : t.Legible v) : t.LegibleMember v where
  readBack := by
    have hread : ∀ j, j ≠ Json.null → memberOfJson t.ofJson j = t.ofJson j := by
      intro j hj
      cases j with
      | null => exact absurd rfl hj
      | _ => rfl
    exact (hread _ h.ne_null).trans h.readBack
  isExact := h.isExact

theorem LegibleMember.eq_of_renderer_eq {t : DataType} {v w : Value} (hv : t.LegibleMember v)
    (hw : t.LegibleMember w) (h : t.renderer v = t.renderer w) : v = w := by
  rw [← hv.readBack, h, hw.readBack]

theorem legible_items {element : DataType} {vs : List Value} (h : ∀ v ∈ vs, element.Legible v) :
    (vs.map element.renderer).map element.ofJson = vs ∧
      (Json.list (vs.map element.renderer)).isExact = true := by
  constructor
  · rw [List.map_map]
    exact (List.map_congr_left fun v hv => (h v hv).readBack).trans (List.map_id vs)
  · refine Json.isExact_list.mpr fun j hj => ?_
    obtain ⟨v, hv, rfl⟩ := List.mem_map.mp hj
    exact (h v hv).isExact

theorem byName?_of_mem {variants : List Variant} (hd : (variants.map (·.name)).Nodup) {v : Variant}
    (hv : v ∈ variants) : Variant.byName? variants v.name = some v := by
  have hsome : (Variant.byName? variants v.name).isSome = true :=
    List.find?_isSome.mpr ⟨v, hv, beq_self_eq_true _⟩
  obtain ⟨w, hw⟩ := Option.isSome_iff_exists.mp hsome
  have hname := List.find?_some (show variants.find? (·.name == v.name) = some w from hw)
  rw [hw, List.inj_on_of_nodup_map hd (List.mem_of_find?_eq_some hw) hv (beq_iff_eq.mp hname)]

theorem legible_enum {name : String} {variants : List Variant}
    (h : (DataType.enum name variants).isLegible = true) (n : Int64) :
    (DataType.enum name variants).Legible (.enum n (Variant.nameOf variants n)) := by
  obtain ⟨hnames, hdistinct⟩ : (∀ v ∈ variants, v.name ≠ "") ∧ (variants.map (·.name)).Nodup := by
    simpa [isLegible] using h
  have hjson : (DataType.enum name variants).renderer (.enum n (Variant.nameOf variants n)) =
      if (Variant.nameOf variants n).isEmpty then .int n.toInt
      else .text (Variant.nameOf variants n) := rfl
  cases hfind : Variant.byValue? variants n with
  | none =>
    have hunnamed : Variant.nameOf variants n = "" := by rw [Variant.nameOf, hfind]; rfl
    rw [hunnamed] at hjson ⊢
    have hjson : (DataType.enum name variants).renderer (.enum n "") = .int n.toInt := hjson
    refine ⟨?_, hjson ▸ Json.noConfusion, hjson ▸ rfl⟩
    rw [hjson]
    show Value.enum (.ofInt n.toInt) "" = _
    rw [Int64.ofInt_toInt]
  | some v =>
    have hmem : v ∈ variants := List.mem_of_find?_eq_some hfind
    have hvalue := List.find?_some (show variants.find? (·.value == n) = some v from hfind)
    have hnamed : Variant.nameOf variants n = v.name := by rw [Variant.nameOf, hfind]; rfl
    rw [hnamed, if_neg (by simpa using hnames v hmem)] at hjson
    rw [hnamed]
    refine ⟨?_, hjson ▸ Json.noConfusion, hjson ▸ rfl⟩
    rw [hjson]
    show enumOfJson variants (.text v.name) = _
    rw [enumOfJson, byName?_of_mem hdistinct hmem]
    exact congrArg (Value.enum · v.name) (beq_iff_eq.mp hvalue)

theorem legible_struct {name : String} {fields : List (Field DataType)}
    {ms : List (String × Value)} (hn : (fields.map (·.name)).Nodup)
    (h : Members (fun f v => f.type.LegibleMember v) fields ms) :
    (DataType.struct name fields).Legible (.ofMembers ms) := by
  have hjson : (DataType.struct name fields).renderer (.ofMembers ms) =
      .object (jsonMembers fields (.ofMembers ms)) := renderer_ofMembers rfl hn ms
  refine ⟨?_, hjson ▸ Json.noConfusion, ?_⟩
  · have hmembers : (fields.map fun f => (f.name, memberOfJson f.type.ofJson
        ((((Value.ofMembers ms).member? f.name).map f.type.renderer).getD .null))) = ms := by
      refine h.eq_map fun f hf m hm hname hlegible => ?_
      have hfind : (Value.ofMembers ms).member? f.name = some m.2 :=
        SortedList.find?_ofList_of_mem (h.names ▸ hn) (hname ▸ hm)
      rw [hfind]
      exact hlegible.readBack
    rw [hjson, ofJson_struct, jsonMembers]
    show Value.ofMembers (List.zipWith _ _ _) = _
    rw [List.zipWith_map, List.zipWith_self]
    exact congrArg Value.ofMembers hmembers
  · rw [hjson]
    refine Json.isExact_object.mpr fun m hm => ?_
    obtain ⟨f, hf, rfl⟩ := List.mem_map.mp hm
    obtain ⟨v, hv, hlegible⟩ := h.find? hn f hf
    have hv : (Value.ofMembers ms).member? f.name = some v := hv
    rw [hv]
    exact hlegible.isExact

/-- What holds of all that comes off the wire: what has a legible type is legible itself, and so are
the members of a structure. -/
structure Shown (t : DataType) (v : Value) : Prop where
  legible : (∀ s ∈ t.parts, s.isLegible = true) → t.Legible v
  members : ∀ fields, t.fields? = some fields → ∃ ms, v = .ofMembers ms ∧
    Members (fun f w => (∀ s ∈ f.type.parts, s.isLegible = true) → f.type.LegibleMember w) fields ms

theorem passesOn_shown (order : ByteOrder) : PassesOn order Shown where
  scalar name kind := by
    cases hfloat : kind.isFloat with
    | true =>
      refine fun c s c' _ => ⟨fun hl => ?_, fun _ hf => by cases hf⟩
      have hkind := hl _ (mem_parts_self _)
      simp [isLegible, hfloat] at hkind
    | false =>
      refine fun c s c' hs => ⟨fun _ => ?_, fun _ hf => by cases hf⟩
      obtain ⟨hread, hne, hexact⟩ := yields_legible_scalar order hfloat c s c' hs
      refine ⟨?_, hne, hexact⟩
      show ((kind.ofJson? s.toJson).map Value.scalar).getD .null = _
      rw [hread]
      rfl
  struct name fields ms hn hms := by
    have hmembers : Members (fun f w => (∀ s ∈ f.type.parts, s.isLegible = true) →
        f.type.LegibleMember w) fields ms := by
      refine hms.imp fun f _ v hv hl => ?_
      rcases hv with ⟨-, rfl⟩ | hv
      · exact f.type.legibleMember_null
      · exact (hv.legible hl).member
    refine ⟨fun hl => legible_struct hn ?_, fun fs hf => ?_⟩
    · exact hmembers.imp fun f hf v hv => hv fun s hs => hl s (parts_subset_struct hf hs)
    · cases hf
      exact ⟨ms, rfl, hmembers⟩
  sequence name element max vs _ _ hvs := by
    refine ⟨fun hl => ?_, fun _ hf => by cases hf⟩
    obtain ⟨hread, hexact⟩ := legible_items fun v hv =>
      (hvs v hv).legible fun s hs => hl s (parts_subset_sequence hs)
    exact ⟨congrArg Value.sequence hread, Json.noConfusion, hexact⟩
  array name element vs hvs := by
    refine ⟨fun hl => ?_, fun _ hf => by cases hf⟩
    obtain ⟨hread, hexact⟩ := legible_items fun v hv =>
      (hvs v hv).legible fun s hs => hl s (parts_subset_array hs)
    exact ⟨congrArg Value.array hread, Json.noConfusion, hexact⟩
  enum name variants n :=
    ⟨fun hl => legible_enum (hl _ (mem_parts_self _)) _, fun _ hf => by cases hf⟩
  unselected name discriminator cases fallback w n _ _ _ := by
    refine ⟨fun hl => ?_, fun _ hf => by cases hf⟩
    cases hl _ (mem_parts_self _)
  selected name discriminator cases fallback w n c v _ _ _ _ := by
    refine ⟨fun hl => ?_, fun _ hf => by cases hf⟩
    cases hl _ (mem_parts_self _)
  aliased name target v hv := by
    refine ⟨fun hl => ?_, hv.members⟩
    obtain ⟨hread, hne, hexact⟩ := hv.legible fun s hs => hl s (parts_subset_alias hs)
    exact ⟨hread, hne, hexact⟩

theorem Shown.keyMember {t : DataType} {v : Value} (h : t.Shown v)
    (hd : ∀ s ∈ t.parts, s.namesDistinct = true) {f : Field DataType} (hf : f ∈ t.keyFields)
    (hl : ∀ s ∈ f.type.parts, s.isLegible = true) :
    ∃ w, v.member? f.name = some w ∧ f.type.LegibleMember w := by
  cases hfields : t.fields? with
  | none => simp [keyFields, hfields] at hf
  | some fields =>
    obtain ⟨ms, rfl, hms⟩ := h.members fields hfields
    have hmem : f ∈ fields := by simp_all [keyFields]
    obtain ⟨w, hw, hlegible⟩ := hms.find? (nodup_names hd hfields) f hmem
    exact ⟨w, hw, hlegible hl⟩

end DataType

end BusScope
