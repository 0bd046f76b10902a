import BusScope.Proofs.DataType.Parts

/-! What is left of a value once it has been on the wire: the members that its type declares, with
a null for each absent one, and the names that the type has for ordinals and for cases. -/

namespace BusScope

namespace DataType

/-- A member that is absent and a null are the same on the wire. -/
def canonicalMember (canonical : Value → Value) : Option Value → Value
  | none | some .null => .null
  | some v => canonical v

def canonicalStruct (fields : List (Field (Value → Value))) : Value → Value
  | .struct members =>
    .ofMembers (fields.map fun f =>
      (f.name, canonicalMember f.type (SortedList.find? f.name members)))
  | v => v

def canonicalUnion (cases : List (Case (Value → Value))) (fallback : Option (Case (Value → Value))) :
    Value → Value
  | .union n _ content =>
    match Case.select cases fallback n with
    | some c => .union n c.name (c.type content)
    | none => .union n "" .null
  | v => v

/-- A value that is not of the type's kind is left as it is. -/
def canonical : DataType → Value → Value := fold
  { primitive := fun _ v => v
    struct := canonicalStruct
    sequence := fun _ element v =>
      match v with
      | .sequence vs => .sequence (vs.map element)
      | v => v
    array := fun _ element v =>
      match v with
      | .array vs => .array (vs.map element)
      | v => v
    enum := fun variants v =>
      match v with
      | .enum n _ => .enum n (Variant.nameOf variants n)
      | v => v
    union := fun _ _ cases fallback => canonicalUnion cases fallback }

theorem canonical_struct_eq (name : String) (fields : List (Field DataType)) :
    (DataType.struct name fields).canonical = canonicalStruct (fields.map (Field.map canonical)) :=
  fold_struct _ name fields

theorem canonical_union_eq (name : String) (discriminator : DataType)
    (cases : List (Case DataType)) (fallback : Option (Case DataType)) :
    (DataType.union name discriminator cases fallback).canonical =
      canonicalUnion (cases.map (Case.map canonical)) (fallback.map (Case.map canonical)) :=
  fold_union _ name discriminator cases fallback

theorem canonical_null (t : DataType) : t.canonical .null = .null := by
  induction t with
  | primitive name kind => rfl
  | struct name fields ih => rw [canonical_struct_eq, canonicalStruct]; simp
  | sequence name element max ih => rfl
  | array name element length ih => rfl
  | enum name variants => rfl
  | union name discriminator cases fallback ihd ihc =>
    rw [canonical_union_eq, canonicalUnion]
    simp
  | aliased name target ih => exact ih

theorem canonicalMember_some (t : DataType) (v : Value) :
    canonicalMember t.canonical (some v) = t.canonical v := by
  cases v with
  | null => exact t.canonical_null.symm
  | scalar | struct | sequence | array | enum | union => rfl

theorem canonical_struct (name : String) (fields : List (Field DataType))
    (members : List (String × Value)) :
    (DataType.struct name fields).canonical (.struct members) =
      .ofMembers (fields.map fun f =>
        (f.name, canonicalMember f.type.canonical (SortedList.find? f.name members))) := by
  rw [canonical_struct_eq, canonicalStruct, List.map_map]
  rfl

theorem canonical_union (name : String) (discriminator : DataType) (cases : List (Case DataType))
    (fallback : Option (Case DataType)) (n : Int64) (caseName : String) (content : Value) :
    (DataType.union name discriminator cases fallback).canonical (.union n caseName content) =
      match Case.select cases fallback n with
      | some c => .union n c.name (c.type.canonical content)
      | none => .union n "" .null := by
  rw [canonical_union_eq, canonicalUnion, Case.select_map]
  cases Case.select cases fallback n <;> rfl

/-- A number stands for itself in a discriminator type, unless the type holds truth values and the
number is neither of the two that stand for one. -/
def switchFits (t : DataType) (n : Int64) : Bool :=
  match t.resolved with
  | .primitive _ .bool => n == 0 || n == 1
  | _ => true

def switchesFitUnion (discriminator : DataType) (cases : List (Case (Value → Bool)))
    (fallback : Option (Case (Value → Bool))) : Value → Bool
  | .union n _ content =>
    discriminator.switchFits n &&
      match Case.select cases fallback n with
      | some c => c.type content
      | none => true
  | _ => true

/-- Each union over truth values, wherever it occurs in the value, holds zero or one. -/
def switchesFit : DataType → Value → Bool := fold
  { primitive := fun _ _ => true
    struct := fun fields v =>
      match v with
      | .struct members => fields.all fun f => (SortedList.find? f.name members).all f.type
      | _ => true
    sequence := fun _ element v =>
      match v with
      | .sequence vs => vs.all element
      | _ => true
    array := fun _ element v =>
      match v with
      | .array vs => vs.all element
      | _ => true
    enum := fun _ _ => true
    union := fun discriminator _ cases fallback => switchesFitUnion discriminator cases fallback }

theorem switchesFit_struct {name : String} {fields : List (Field DataType)}
    {members : List (String × Value)} :
    (DataType.struct name fields).switchesFit (.struct members) = true ↔
      ∀ f ∈ fields, ∀ v ∈ SortedList.find? f.name members, f.type.switchesFit v = true := by
  rw [switchesFit, fold_struct]
  simp only [List.all_map, List.all_eq_true, Option.all_eq_true, Function.comp_apply]
  rfl

theorem switchesFit_sequence {name : String} {element : DataType} {max : Option Nat}
    {vs : List Value} :
    (DataType.sequence name element max).switchesFit (.sequence vs) = true ↔
      ∀ v ∈ vs, element.switchesFit v = true :=
  List.all_eq_true

theorem switchesFit_array {name : String} {element : DataType} {length : Nat} {vs : List Value} :
    (DataType.array name element length).switchesFit (.array vs) = true ↔
      ∀ v ∈ vs, element.switchesFit v = true :=
  List.all_eq_true

theorem switchesFit_union {name : String} {discriminator : DataType}
    {cases : List (Case DataType)} {fallback : Option (Case DataType)} {n : Int64}
    {caseName : String} {content : Value} :
    (DataType.union name discriminator cases fallback).switchesFit
        (.union n caseName content) = true ↔
      discriminator.switchFits n = true ∧
        ∀ c ∈ Case.select cases fallback n, c.type.switchesFit content = true := by
  have h : (DataType.union name discriminator cases fallback).switchesFit =
      switchesFitUnion discriminator (cases.map (Case.map switchesFit))
        (fallback.map (Case.map switchesFit)) :=
    fold_union _ name discriminator cases fallback
  rw [h, switchesFitUnion, Case.select_map, Bool.and_eq_true]
  cases Case.select cases fallback n with
  | none => simp
  | some c => simp [Case.map]

end DataType

theorem Primitive.integer?_of_ofInteger {kind : Primitive} {n : Int64} {s : Scalar}
    (hb : kind = .bool → n = 0 ∨ n = 1) (h : kind.ofInteger n = .ok s) : s.integer? = some n := by
  have hself : ∀ m, m = n.toInt → Int64.ofInt m = n := by
    rintro m rfl
    exact Int64.ofInt_toInt n
  have hnat : ∀ m : Nat, 0 ≤ n.toInt → m = n.toInt.toNat → Int64.ofNat m = n := by
    intro m h0 hm
    rw [← Int64.ofInt_eq_ofNat]
    exact hself m (by omega)
  have hwithin : ∀ {low high : Int} {x : Scalar},
      (if low ≤ n.toInt ∧ n.toInt < high then Except.ok x
        else .error (WireFault.data (.discriminatorRange n))) = .ok s →
      x = s ∧ low ≤ n.toInt ∧ n.toInt < high := by
    intro low high x hx
    split at hx
    · next hr => exact ⟨Except.ok.inj hx, hr⟩
    · cases hx
  cases kind with
  | bool =>
    cases h
    rcases hb rfl with rfl | rfl <;> rfl
  | int64 =>
    cases h
    rfl
  | float32 | float64 | string | wstring => cases h
  | uint8 =>
    obtain ⟨rfl, hge, hlt⟩ := hwithin h
    have hs : n.toInt.toNat < UInt8.size := by have : UInt8.size = 0x100 := rfl; omega
    exact congrArg some (hnat _ hge (UInt8.toNat_ofNat_of_lt' hs))
  | uint16 =>
    obtain ⟨rfl, hge, hlt⟩ := hwithin h
    have hs : n.toInt.toNat < UInt16.size := by have : UInt16.size = 0x10000 := rfl; omega
    exact congrArg some (hnat _ hge (UInt16.toNat_ofNat_of_lt' hs))
  | uint32 =>
    obtain ⟨rfl, hge, hlt⟩ := hwithin h
    have hs : n.toInt.toNat < UInt32.size := by have : UInt32.size = 0x100000000 := rfl; omega
    exact congrArg some (hnat _ hge (UInt32.toNat_ofNat_of_lt' hs))
  | uint64 =>
    obtain ⟨rfl, hge, -⟩ := hwithin h
    have hlt : n.toInt < 2 ^ 63 := n.toInt_lt
    have hs : n.toInt.toNat < UInt64.size := by have : UInt64.size = 0x10000000000000000 := rfl; omega
    have hm := UInt64.toNat_ofNat_of_lt' hs
    rw [Scalar.integer?, if_pos (by omega)]
    exact congrArg some (hnat _ hge hm)
  | int8 =>
    obtain ⟨rfl, hge, hlt⟩ := hwithin h
    exact congrArg some (hself _ (Int8.toInt_ofInt_of_le hge hlt))
  | int16 =>
    obtain ⟨rfl, hge, hlt⟩ := hwithin h
    exact congrArg some (hself _ (Int16.toInt_ofInt_of_le hge hlt))
  | int32 =>
    obtain ⟨rfl, hge, hlt⟩ := hwithin h
    exact congrArg some (hself _ (Int32.toInt_ofInt_of_le hge hlt))
  | char =>
    obtain ⟨rfl, hge, hlt⟩ := hwithin h
    have hv : n.toInt.toNat.isValidChar := Or.inl (by omega)
    refine congrArg some (hnat _ hge ?_)
    rw [Char.ofNat, dif_pos hv]
    rfl

namespace DataType

theorem switchesFit_of_switchValue {t : DataType} {n : Int64} {w : Value}
    (h : t.switchValue n = .ok w) : t.switchesFit w = true := by
  induction t with
  | primitive name kind => rfl
  | enum name variants => rfl
  | aliased name target ih => exact ih h
  | struct name fields ih => cases h
  | sequence name element max ih => cases h
  | array name element length ih => cases h
  | union name discriminator cases fallback ihd ihc => cases h

theorem integer?_canonical_of_switchValue {t : DataType} {n : Int64} {w : Value}
    (hf : t.switchFits n = true) (h : t.switchValue n = .ok w) :
    (t.canonical w).integer? = some n := by
  induction t with
  | primitive name kind =>
    change (kind.ofInteger n).map Value.scalar = .ok w at h
    cases hs : kind.ofInteger n with
    | error e => rw [hs] at h; cases h
    | ok s =>
      rw [hs] at h
      cases h
      refine Primitive.integer?_of_ofInteger ?_ hs
      rintro rfl
      simpa [switchFits, resolved] using hf
  | enum name variants =>
    cases h
    rfl
  | aliased name target ih => exact ih hf h
  | struct name fields ih => cases h
  | sequence name element max ih => cases h
  | array name element length ih => cases h
  | union name discriminator cases fallback ihd ihc => cases h

end DataType

end BusScope
