import BusScope.Value.Rendering
import BusScope.Wire.Decoder
import BusScope.Wire.Encoder
import Mathlib

/-! Types by their parts: induction that reaches every part, recursion that follows the same
shape, and the encoders, decoders and renderers of parts as maps over the parts. -/

namespace BusScope

namespace Case

variable {τ σ : Type}

theorem select_map (g : τ → σ) (cases : List (Case τ)) (fallback : Option (Case τ))
    (label : Int64) :
    select (cases.map (Case.map g)) (fallback.map (Case.map g)) label =
      (select cases fallback label).map (Case.map g) := by
  have hc : (fun c : Case σ => c.labels.contains label) ∘ Case.map g =
      fun c => c.labels.contains label := rfl
  unfold select
  rw [List.find?_map, hc]
  cases cases.find? fun c => c.labels.contains label <;> rfl

theorem mem_of_select {cases : List (Case τ)} {fallback : Option (Case τ)} {label : Int64}
    {c : Case τ} (h : select cases fallback label = some c) : c ∈ cases ++ fallback.toList := by
  unfold select at h
  rcases Option.or_eq_some_iff.mp h with hc | ⟨_, hc⟩
  · exact List.mem_append_left _ (List.mem_of_find?_eq_some hc)
  · exact List.mem_append_right _ (by simp [hc])

end Case

namespace DataType

/-- The hypothesis for a union covers its cases and the one that is taken for want of another. -/
@[elab_as_elim, induction_eliminator]
theorem induction {motive : DataType → Prop}
    (primitive : ∀ name kind, motive (.primitive name kind))
    (struct : ∀ name fields, (∀ f ∈ fields, motive f.type) → motive (.struct name fields))
    (sequence : ∀ name element max, motive element → motive (.sequence name element max))
    (array : ∀ name element length, motive element → motive (.array name element length))
    (enum : ∀ name variants, motive (.enum name variants))
    (union : ∀ name discriminator cases fallback, motive discriminator →
      (∀ c ∈ cases ++ fallback.toList, motive c.type) →
      motive (.union name discriminator cases fallback))
    (aliased : ∀ name target, motive target → motive (.alias name target))
    (t : DataType) : motive t := by
  refine @DataType.rec motive (fun fs => ∀ f ∈ fs, motive f.type)
    (fun cs => ∀ c ∈ cs, motive c.type) (fun c => ∀ d ∈ c.toList, motive d.type)
    (fun f => motive f.type) (fun c => motive c.type)
    primitive struct sequence array enum ?_ aliased ?_ ?_ ?_ ?_ ?_ ?_ ?_ ?_ t
  case refine_1 =>
    intro name discriminator cases fallback hd hc hf
    refine union name discriminator cases fallback hd fun c h => ?_
    exact (List.mem_append.mp h).elim (hc c) (hf c)
  case refine_2 => exact fun f hf => absurd hf List.not_mem_nil
  case refine_3 => exact fun f rest hf hrest => List.forall_mem_cons.mpr ⟨hf, hrest⟩
  case refine_4 => exact fun c hc => absurd hc List.not_mem_nil
  case refine_5 => exact fun c rest hc hrest => List.forall_mem_cons.mpr ⟨hc, hrest⟩
  case refine_6 => exact fun c hc => absurd hc List.not_mem_nil
  case refine_7 => exact fun c hc d hd => (List.mem_singleton.mp hd) ▸ hc
  case refine_8 => exact fun _ _ _ _ _ h => h
  case refine_9 => exact fun _ _ _ h => h

theorem fieldEncoders_eq (order : ByteOrder) (fields : List (Field DataType)) :
    fieldEncoders order fields = fields.map (Field.map (encoder order)) := by
  induction fields with
  | nil => rfl
  | cons f rest ih => rw [fieldEncoders, ih]; rfl

theorem caseEncoders_eq (order : ByteOrder) (cases : List (Case DataType)) :
    caseEncoders order cases = cases.map (Case.map (encoder order)) := by
  induction cases with
  | nil => rfl
  | cons c rest ih => rw [caseEncoders, ih]; rfl

theorem fallbackEncoder_eq (order : ByteOrder) (fallback : Option (Case DataType)) :
    fallbackEncoder order fallback = fallback.map (Case.map (encoder order)) := by
  cases fallback <;> rfl

theorem fieldDecoders_eq (order : ByteOrder) (fields : List (Field DataType)) :
    fieldDecoders order fields = fields.map (Field.map (decoder order)) := by
  induction fields with
  | nil => rfl
  | cons f rest ih => rw [fieldDecoders, ih]; rfl

theorem caseDecoders_eq (order : ByteOrder) (cases : List (Case DataType)) :
    caseDecoders order cases = cases.map (Case.map (decoder order)) := by
  induction cases with
  | nil => rfl
  | cons c rest ih => rw [caseDecoders, ih]; rfl

theorem fallbackDecoder_eq (order : ByteOrder) (fallback : Option (Case DataType)) :
    fallbackDecoder order fallback = fallback.map (Case.map (decoder order)) := by
  cases fallback <;> rfl

theorem fieldRenderers_eq (fields : List (Field DataType)) :
    fieldRenderers fields = fields.map (Field.map renderer) := by
  induction fields with
  | nil => rfl
  | cons f rest ih => rw [fieldRenderers, ih]; rfl

theorem caseRenderers_eq (cases : List (Case DataType)) :
    caseRenderers cases = cases.map (Case.map renderer) := by
  induction cases with
  | nil => rfl
  | cons c rest ih => rw [caseRenderers, ih]; rfl

theorem fallbackRenderer_eq (fallback : Option (Case DataType)) :
    fallbackRenderer fallback = fallback.map (Case.map renderer) := by
  cases fallback <;> rfl

/-- What becomes of a type of each kind, given what became of its parts. An alias becomes what its
target becomes. -/
structure Algebra (α : Type) where
  primitive : Primitive → α
  struct : List (Field α) → α
  sequence : Option Nat → α → α
  array : Nat → α → α
  enum : List Variant → α
  union : DataType → α → List (Case α) → Option (Case α) → α

section Fold

variable {α : Type} (a : Algebra α)

mutual

def fold : DataType → α
  | .primitive _ kind => a.primitive kind
  | .struct _ fields => a.struct (foldFields fields)
  | .sequence _ element max => a.sequence max (fold element)
  | .array _ element length => a.array length (fold element)
  | .enum _ variants => a.enum variants
  | .union _ discriminator cases fallback =>
    a.union discriminator (fold discriminator) (foldCases cases) (foldFallback fallback)
  | .alias _ target => fold target
termination_by structural t => t

def foldFields : List (Field DataType) → List (Field α)
  | [] => []
  | ⟨name, type, id, key, optional⟩ :: rest =>
    ⟨name, fold type, id, key, optional⟩ :: foldFields rest
termination_by structural fs => fs

def foldCases : List (Case DataType) → List (Case α)
  | [] => []
  | ⟨name, labels, type⟩ :: rest => ⟨name, labels, fold type⟩ :: foldCases rest
termination_by structural cs => cs

def foldFallback : Option (Case DataType) → Option (Case α)
  | none => none
  | some ⟨name, labels, type⟩ => some ⟨name, labels, fold type⟩
termination_by structural c => c

end

theorem fold_struct (name : String) (fields : List (Field DataType)) :
    fold a (.struct name fields) = a.struct (fields.map (Field.map (fold a))) := by
  have h : foldFields a fields = fields.map (Field.map (fold a)) := by
    induction fields with
    | nil => rfl
    | cons f rest ih => rw [foldFields, ih]; rfl
  rw [fold, h]

theorem fold_union (name : String) (discriminator : DataType) (cases : List (Case DataType))
    (fallback : Option (Case DataType)) :
    fold a (.union name discriminator cases fallback) =
      a.union discriminator (fold a discriminator) (cases.map (Case.map (fold a)))
        (fallback.map (Case.map (fold a))) := by
  have hc : foldCases a cases = cases.map (Case.map (fold a)) := by
    induction cases with
    | nil => rfl
    | cons c rest ih => rw [foldCases, ih]; rfl
  have hf : foldFallback a fallback = fallback.map (Case.map (fold a)) := by
    cases fallback <;> rfl
  rw [fold, hc, hf]

theorem eq_fold {f : DataType → α}
    (primitive : ∀ name kind, f (.primitive name kind) = a.primitive kind)
    (struct : ∀ name fields, f (.struct name fields) = a.struct (fields.map (Field.map f)))
    (sequence : ∀ name element max, f (.sequence name element max) = a.sequence max (f element))
    (array : ∀ name element length, f (.array name element length) = a.array length (f element))
    (enum : ∀ name variants, f (.enum name variants) = a.enum variants)
    (union : ∀ name discriminator cases fallback,
      f (.union name discriminator cases fallback) = a.union discriminator (f discriminator)
        (cases.map (Case.map f)) (fallback.map (Case.map f)))
    (aliased : ∀ name target, f (.alias name target) = f target) (t : DataType) :
    f t = fold a t := by
  induction t with
  | primitive name kind => exact primitive name kind
  | enum name variants => exact enum name variants
  | struct name fields ih =>
    have hfields : fields.map (Field.map f) = fields.map (Field.map (fold a)) :=
      List.map_congr_left fun g hg => by simp only [Field.map, ih g hg]
    rw [struct, fold_struct, hfields]
  | sequence name element max ih => rw [sequence, ih, fold]
  | array name element length ih => rw [array, ih, fold]
  | union name discriminator cases fallback ihd ihc =>
    have hcase : ∀ c ∈ cases ++ fallback.toList, Case.map f c = Case.map (fold a) c := by
      intro c hc
      simp only [Case.map, ihc c hc]
    have hcases : cases.map (Case.map f) = cases.map (Case.map (fold a)) :=
      List.map_congr_left fun c hc => hcase c (List.mem_append_left _ hc)
    have hfallback : fallback.map (Case.map f) = fallback.map (Case.map (fold a)) :=
      Option.map_congr fun c hc => hcase c (List.mem_append_right _ (Option.mem_toList.mpr hc))
    rw [union, fold_union, ihd, hcases, hfallback]
  | aliased name target ih => rw [aliased, ih, fold]

end Fold

mutual

/-- A type and all that it is made of, at any depth. -/
def parts : DataType → List DataType
  | .primitive name kind => [.primitive name kind]
  | .struct name fields => .struct name fields :: fieldParts fields
  | .sequence name element max => .sequence name element max :: parts element
  | .array name element length => .array name element length :: parts element
  | .enum name variants => [.enum name variants]
  | .union name discriminator cases fallback =>
    .union name discriminator cases fallback ::
      (parts discriminator ++ caseParts cases ++ fallbackParts fallback)
  | .alias name target => .alias name target :: parts target
termination_by structural t => t

def fieldParts : List (Field DataType) → List DataType
  | [] => []
  | ⟨_, type, _, _, _⟩ :: rest => parts type ++ fieldParts rest
termination_by structural fs => fs

def caseParts : List (Case DataType) → List DataType
  | [] => []
  | ⟨_, _, type⟩ :: rest => parts type ++ caseParts rest
termination_by structural cs => cs

def fallbackParts : Option (Case DataType) → List DataType
  | none => []
  | some ⟨_, _, type⟩ => parts type
termination_by structural c => c

end

theorem mem_parts_self (t : DataType) : t ∈ t.parts := by
  cases t <;> simp [parts]

theorem parts_struct (name : String) (fields : List (Field DataType)) :
    (DataType.struct name fields).parts =
      .struct name fields :: fields.flatMap fun f => f.type.parts := by
  have h : fieldParts fields = fields.flatMap fun f => f.type.parts := by
    induction fields with
    | nil => rfl
    | cons f rest ih => rw [fieldParts, ih, List.flatMap_cons]
  rw [parts, h]

theorem parts_union (name : String) (discriminator : DataType) (cases : List (Case DataType))
    (fallback : Option (Case DataType)) :
    (DataType.union name discriminator cases fallback).parts =
      .union name discriminator cases fallback ::
        (discriminator.parts ++ (cases ++ fallback.toList).flatMap fun c => c.type.parts) := by
  have hc : caseParts cases = cases.flatMap fun c => c.type.parts := by
    induction cases with
    | nil => rfl
    | cons c rest ih => rw [caseParts, ih, List.flatMap_cons]
  have hf : fallbackParts fallback = fallback.toList.flatMap fun c => c.type.parts := by
    cases fallback with
    | none => rfl
    | some c => exact (List.append_nil c.type.parts).symm
  rw [parts, hc, hf, List.flatMap_append, List.append_assoc]

theorem mem_parts_struct {name : String} {fields : List (Field DataType)} {s : DataType} :
    s ∈ (DataType.struct name fields).parts ↔
      s = .struct name fields ∨ ∃ f ∈ fields, s ∈ f.type.parts := by
  rw [parts_struct, List.mem_cons, List.mem_flatMap]

theorem parts_subset_struct {name : String} {fields : List (Field DataType)} {f : Field DataType}
    (hf : f ∈ fields) : f.type.parts ⊆ (DataType.struct name fields).parts := by
  intro s hs
  exact mem_parts_struct.mpr (.inr ⟨f, hf, hs⟩)

theorem parts_subset_sequence {name : String} {element : DataType} {max : Option Nat} :
    element.parts ⊆ (DataType.sequence name element max).parts :=
  List.subset_cons_self _ _

theorem parts_subset_array {name : String} {element : DataType} {length : Nat} :
    element.parts ⊆ (DataType.array name element length).parts :=
  List.subset_cons_self _ _

theorem parts_subset_alias {name : String} {target : DataType} :
    target.parts ⊆ (DataType.alias name target).parts :=
  List.subset_cons_self _ _

section Union

variable {name : String} {discriminator : DataType} {cases : List (Case DataType)}
  {fallback : Option (Case DataType)}

theorem parts_subset_union :
    discriminator.parts ⊆ (DataType.union name discriminator cases fallback).parts := by
  intro s hs
  rw [parts_union]
  exact List.mem_cons_of_mem _ (List.mem_append_left _ hs)

theorem parts_subset_union_case {c : Case DataType} (hc : c ∈ cases ++ fallback.toList) :
    c.type.parts ⊆ (DataType.union name discriminator cases fallback).parts := by
  intro s hs
  have hmem : s ∈ (cases ++ fallback.toList).flatMap fun c => c.type.parts :=
    List.mem_flatMap.mpr ⟨c, hc, hs⟩
  rw [parts_union]
  exact List.mem_cons_of_mem _ (List.mem_append_right _ hmem)

end Union

end DataType

end BusScope
