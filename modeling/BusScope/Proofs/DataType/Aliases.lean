import BusScope.Introspection
import BusScope.Proofs.Wire.Reader

/-! Aliases are names and no more. Put what it finally stands for in place of each alias, at any
depth, and values are written, read, rendered and keyed as before, with the same faults. -/

namespace BusScope

variable {τ σ : Type}

theorem Field.map_map_eq {u : τ → τ} {g : τ → σ} {fields : List (Field τ)}
    (h : ∀ f ∈ fields, g (u f.type) = g f.type) :
    (fields.map (Field.map u)).map (Field.map g) = fields.map (Field.map g) := by
  rw [List.map_map]
  refine List.map_congr_left fun f hf => ?_
  simp only [Function.comp_apply, Field.map, h f hf]

theorem Case.map_map_eq {u : τ → τ} {g : τ → σ} {cases : List (Case τ)}
    {fallback : Option (Case τ)} (h : ∀ c ∈ cases ++ fallback.toList, g (u c.type) = g c.type) :
    (cases.map (Case.map u)).map (Case.map g) = cases.map (Case.map g) ∧
      (fallback.map (Case.map u)).map (Case.map g) = fallback.map (Case.map g) := by
  have hmap : ∀ c ∈ cases ++ fallback.toList, (Case.map g ∘ Case.map u) c = Case.map g c := by
    intro c hc
    simp only [Function.comp_apply, Case.map, h c hc]
  rw [List.map_map, Option.map_map]
  constructor
  · exact List.map_congr_left fun c hc => hmap c (List.mem_append_left _ hc)
  · cases fallback with
    | none => rfl
    | some c => exact congrArg some (hmap c (by simp))

namespace DataType

def isAlias : DataType → Bool
  | .alias _ _ => true
  | _ => false

/-- The same type under another name. -/
def renamed (name : String) : DataType → DataType
  | .primitive _ kind => .primitive name kind
  | .struct _ fields => .struct name fields
  | .sequence _ element max => .sequence name element max
  | .array _ element length => .array name element length
  | .enum _ variants => .enum name variants
  | .union _ discriminator cases fallback => .union name discriminator cases fallback
  | .alias _ target => .alias name target

mutual

/-- What an alias finally stands for takes its place and its name. -/
def unaliased : DataType → DataType
  | .primitive name kind => .primitive name kind
  | .struct name fields => .struct name (unaliasedFields fields)
  | .sequence name element max => .sequence name (unaliased element) max
  | .array name element length => .array name (unaliased element) length
  | .enum name variants => .enum name variants
  | .union name discriminator cases fallback =>
    .union name (unaliased discriminator) (unaliasedCases cases) (unaliasedFallback fallback)
  | .alias name target => (unaliased target).renamed name
termination_by structural t => t

def unaliasedFields : List (Field DataType) → List (Field DataType)
  | [] => []
  | ⟨name, type, id, key, optional⟩ :: rest =>
    ⟨name, unaliased type, id, key, optional⟩ :: unaliasedFields rest
termination_by structural fs => fs

def unaliasedCases : List (Case DataType) → List (Case DataType)
  | [] => []
  | ⟨name, labels, type⟩ :: rest => ⟨name, labels, unaliased type⟩ :: unaliasedCases rest
termination_by structural cs => cs

def unaliasedFallback : Option (Case DataType) → Option (Case DataType)
  | none => none
  | some ⟨name, labels, type⟩ => some ⟨name, labels, unaliased type⟩
termination_by structural c => c

end

theorem unaliased_struct (name : String) (fields : List (Field DataType)) :
    (DataType.struct name fields).unaliased = .struct name (fields.map (Field.map unaliased)) := by
  have h : unaliasedFields fields = fields.map (Field.map unaliased) := by
    induction fields with
    | nil => rfl
    | cons f rest ih => rw [unaliasedFields, ih]; rfl
  rw [unaliased, h]

theorem unaliased_union (name : String) (discriminator : DataType) (cases : List (Case DataType))
    (fallback : Option (Case DataType)) :
    (DataType.union name discriminator cases fallback).unaliased =
      .union name discriminator.unaliased (cases.map (Case.map unaliased))
        (fallback.map (Case.map unaliased)) := by
  have hc : unaliasedCases cases = cases.map (Case.map unaliased) := by
    induction cases with
    | nil => rfl
    | cons c rest ih => rw [unaliasedCases, ih]; rfl
  have hf : unaliasedFallback fallback = fallback.map (Case.map unaliased) := by
    cases fallback <;> rfl
  rw [unaliased, hc, hf]

section Renamed

variable (n : String) (t : DataType)

theorem name_renamed : (t.renamed n).name = n := by cases t <;> rfl

theorem fold_renamed {α : Type} (a : Algebra α) : fold a (t.renamed n) = fold a t := by
  cases t <;> rfl

theorem switchValue_renamed : (t.renamed n).switchValue = t.switchValue := by cases t <;> rfl

theorem fields?_renamed : (t.renamed n).fields? = t.fields? := by cases t <;> rfl

theorem any_isAlias_renamed : (t.renamed n).parts.any isAlias = t.parts.any isAlias := by
  cases t <;> rfl

end Renamed

theorem name_unaliased (t : DataType) : t.unaliased.name = t.name := by
  induction t with
  | aliased name target ih => exact name_renamed name target.unaliased
  | primitive | struct | sequence | array | enum | union => rfl

theorem any_isAlias_struct (name : String) (fields : List (Field DataType)) :
    (DataType.struct name fields).parts.any isAlias =
      fields.any fun f => f.type.parts.any isAlias := by
  rw [parts_struct, List.any_cons, List.any_flatMap]
  rfl

theorem any_isAlias_union (name : String) (discriminator : DataType) (cases : List (Case DataType))
    (fallback : Option (Case DataType)) :
    (DataType.union name discriminator cases fallback).parts.any isAlias =
      (discriminator.parts.any isAlias ||
        (cases ++ fallback.toList).any fun c => c.type.parts.any isAlias) := by
  rw [parts_union, List.any_cons, List.any_append, List.any_flatMap]
  rfl

theorem any_isAlias_unaliased (t : DataType) : t.unaliased.parts.any isAlias = false := by
  induction t with
  | primitive name kind => rfl
  | enum name variants => rfl
  | struct name fields ih =>
    rw [unaliased_struct, any_isAlias_struct, List.any_map]
    exact List.any_eq_false.mpr fun f hf => Bool.not_eq_true _ ▸ ih f hf
  | sequence name element max ih => exact ih
  | array name element length ih => exact ih
  | union name discriminator cases fallback ihd ihc =>
    have hparts : (fallback.map (Case.map unaliased)).toList =
        fallback.toList.map (Case.map unaliased) := by cases fallback <;> rfl
    rw [unaliased_union, any_isAlias_union, ihd, hparts, ← List.map_append, List.any_map]
    exact List.any_eq_false.mpr fun c hc => Bool.not_eq_true _ ▸ ihc c hc
  | aliased name target ih =>
    -- Only the target itself could be an alias under the new name, and it is none.
    rw [unaliased, any_isAlias_renamed]
    exact ih

theorem switchValue_unaliased (t : DataType) : t.unaliased.switchValue = t.switchValue := by
  induction t with
  | aliased name target ih => rw [unaliased, switchValue_renamed, ih]; rfl
  | primitive | struct | sequence | array | enum | union => rfl

theorem fields?_unaliased (t : DataType) :
    t.unaliased.fields? = t.fields?.map (List.map (Field.map unaliased)) := by
  induction t with
  | struct name fields ih => rw [unaliased_struct]; rfl
  | aliased name target ih => rw [unaliased, fields?_renamed, ih]; rfl
  | primitive | sequence | array | enum | union => rfl

/-- Names play no part in a fold, and a union can only see an alias in its discriminator. -/
theorem fold_unaliased {α : Type} {a : Algebra α} (hd : ∀ d, a.union d.unaliased = a.union d)
    (t : DataType) : fold a t.unaliased = fold a t := by
  induction t with
  | primitive name kind => rfl
  | enum name variants => rfl
  | struct name fields ih => rw [unaliased_struct, fold_struct, fold_struct, Field.map_map_eq ih]
  | sequence name element max ih => rw [unaliased, fold, fold, ih]
  | array name element length ih => rw [unaliased, fold, fold, ih]
  | union name discriminator cases fallback ihd ihc =>
    obtain ⟨hcases, hfallback⟩ := Case.map_map_eq ihc
    rw [unaliased_union, fold_union, fold_union, hcases, hfallback, ihd, hd]
  | aliased name target ih => rw [unaliased, fold_renamed, ih, fold]

def encoderAlgebra (order : ByteOrder) : Algebra Encoder where
  primitive := Encoder.primitive order
  struct := Encoder.struct
  sequence := Encoder.sequence order
  array := Encoder.array
  enum _ := Encoder.enum order
  union discriminator switch := Encoder.union (discriminator.encodeSwitch switch)

theorem encoder_eq_fold (order : ByteOrder) (t : DataType) :
    t.encoder order = fold (encoderAlgebra order) t := by
  refine eq_fold _ (fun _ _ => rfl) (fun name fields => ?_) (fun _ _ _ => rfl) (fun _ _ _ => rfl)
    (fun _ _ => rfl) (fun name discriminator cases fallback => ?_) (fun _ _ => rfl) t
  · rw [encoder, fieldEncoders_eq]
    rfl
  · rw [encoder, caseEncoders_eq, fallbackEncoder_eq]
    rfl

def rendererAlgebra : Algebra Renderer where
  primitive _ := Value.toJson
  struct := Renderer.struct
  sequence _ := Renderer.sequence
  array _ := Renderer.array
  enum _ := Value.toJson
  union _ _ := Renderer.union

theorem renderer_eq_fold (t : DataType) : t.renderer = fold rendererAlgebra t := by
  refine eq_fold _ (fun _ _ => rfl) (fun name fields => ?_) (fun _ _ _ => rfl) (fun _ _ _ => rfl)
    (fun _ _ => rfl) (fun name discriminator cases fallback => ?_) (fun _ _ => rfl) t
  · rw [renderer, fieldRenderers_eq]
    rfl
  · rw [renderer, caseRenderers_eq, fallbackRenderer_eq]
    rfl

theorem encoder_unaliased (order : ByteOrder) (t : DataType) :
    t.unaliased.encoder order = t.encoder order := by
  have hd : ∀ d : DataType, (encoderAlgebra order).union d.unaliased =
      (encoderAlgebra order).union d := by
    intro d
    funext switch
    have hswitch : d.unaliased.encodeSwitch switch = d.encodeSwitch switch := by
      funext n position
      rw [encodeSwitch, encodeSwitch, switchValue_unaliased]
    exact congrArg Encoder.union hswitch
  rw [encoder_eq_fold, encoder_eq_fold, fold_unaliased hd]

theorem decoder_unaliased (order : ByteOrder) (t : DataType) :
    t.unaliased.decoder order = t.decoder order := by
  rw [decoder_eq_reader, decoder_eq_reader]
  exact fold_unaliased (fun _ => rfl) t

theorem renderer_unaliased (t : DataType) : t.unaliased.renderer = t.renderer := by
  rw [renderer_eq_fold, renderer_eq_fold]
  exact fold_unaliased (fun _ => rfl) t

theorem unaliased_eq_self_iff {t : DataType} : t.unaliased = t ↔ t.parts.any isAlias = false := by
  constructor
  · intro h
    rw [← h]
    exact any_isAlias_unaliased t
  · intro h
    induction t with
    | primitive name kind => rfl
    | enum name variants => rfl
    | struct name fields ih =>
      rw [any_isAlias_struct, List.any_eq_false] at h
      have hfields : (fields.map (Field.map unaliased)).map id = fields.map id :=
        Field.map_map_eq (g := id) fun f hf => ih f hf (Bool.not_eq_true _ ▸ h f hf)
      rw [List.map_id, List.map_id] at hfields
      rw [unaliased_struct, hfields]
    | sequence name element max ih => rw [unaliased, ih h]
    | array name element length ih => rw [unaliased, ih h]
    | union name discriminator cases fallback ihd ihc =>
      rw [any_isAlias_union, Bool.or_eq_false_iff] at h
      have hc := List.any_eq_false.mp h.2
      obtain ⟨hcases, hfallback⟩ : (cases.map (Case.map unaliased)).map id = cases.map id ∧
          (fallback.map (Case.map unaliased)).map id = fallback.map id :=
        Case.map_map_eq (g := id) fun c hmem => ihc c hmem (Bool.not_eq_true _ ▸ hc c hmem)
      rw [List.map_id, List.map_id] at hcases
      rw [Option.map_id, id, id] at hfallback
      rw [unaliased_union, ihd h.1, hcases, hfallback]
    | aliased name target ih => cases h

theorem isStruct_unaliased (t : DataType) : t.unaliased.isStruct = t.isStruct := by
  rw [isStruct, isStruct, fields?_unaliased, Option.isSome_map]

theorem keyFields_unaliased (t : DataType) :
    t.unaliased.keyFields = t.keyFields.map (Field.map unaliased) := by
  have hkey : (·.key) ∘ Field.map unaliased = fun f : Field DataType => f.key := rfl
  rw [keyFields, keyFields, fields?_unaliased]
  cases t.fields? with
  | none => rfl
  | some fields => rw [Option.map_some, Option.getD_some, Option.getD_some, List.filter_map, hkey]

theorem keyNames_unaliased (t : DataType) : t.unaliased.keyNames = t.keyNames := by
  rw [keyNames, keyNames, keyFields_unaliased, List.map_map]
  rfl

theorem isKeyed_unaliased (t : DataType) : t.unaliased.isKeyed = t.isKeyed := by
  rw [isKeyed, isKeyed, fields?_unaliased]
  cases t.fields? with
  | none => rfl
  | some fields =>
    rw [Option.map_some, Option.getD_some, Option.getD_some, List.any_map]
    rfl

theorem keyOnly?_unaliased (t : DataType) : t.unaliased.keyOnly? = t.keyOnly?.map unaliased := by
  rw [keyOnly?, keyOnly?, keyFields_unaliased, name_unaliased, List.isEmpty_map]
  split
  · rfl
  · rw [Option.map_some, unaliased_struct]

end DataType

theorem keyMembers_map (typeName : String) (v : Value) (u : DataType → DataType)
    (fs : List (Field DataType)) :
    keyMembers typeName v (fs.map (Field.map u)) = keyMembers typeName v fs := by
  induction fs with
  | nil => rfl
  | cons f fs ih => rw [List.map_cons, keyMembers, keyMembers, ih]; rfl

theorem keyRecord_unaliased (t : DataType) (v : Value) :
    keyRecord t.unaliased v = (keyRecord t v).map fun r => (r.1.unaliased, r.2) := by
  unfold keyRecord
  rw [t.isStruct_unaliased, t.keyOnly?_unaliased, t.name_unaliased, t.keyFields_unaliased,
    keyMembers_map]
  split
  · cases t.keyOnly? with
    | none => rfl
    | some keys => cases keyMembers t.name v t.keyFields <;> rfl
  · rfl

theorem handleOf_unaliased (t : DataType) (v : Value) : handleOf t.unaliased v = handleOf t v := by
  rw [handleOf, handleOf, t.isKeyed_unaliased, keyRecord_unaliased]
  cases keyRecord t v with
  | error e => rfl
  | ok record =>
    obtain ⟨keys, values⟩ := record
    have hholder : encodeBody .big keys.unaliased values = encodeBody .big keys values := by
      rw [encodeBody, encodeBody, DataType.encoder_unaliased]
    simp only [Except.map, hholder]

/-- A type and the one without its aliases cannot be told apart by what is done with values. -/
theorem aliases_transparent (t : DataType) :
    (t.unaliased.name = t.name ∧ t.unaliased.parts.any DataType.isAlias = false ∧
      (t.unaliased = t ↔ t.parts.any DataType.isAlias = false)) ∧
    (∀ order v, encodeBody order t.unaliased v = encodeBody order t v) ∧
    (∀ order body, decodeBody order t.unaliased body = decodeBody order t body) ∧
    (∀ v, t.unaliased.renderer v = t.renderer v) ∧
    t.unaliased.keyNames = t.keyNames ∧
    (∀ v, keyRecord t.unaliased v = (keyRecord t v).map fun r => (r.1.unaliased, r.2)) ∧
    ∀ v, handleOf t.unaliased v = handleOf t v := by
  refine ⟨⟨t.name_unaliased, t.any_isAlias_unaliased, DataType.unaliased_eq_self_iff⟩,
    fun order v => ?_, fun order body => ?_, fun v => ?_, t.keyNames_unaliased,
    keyRecord_unaliased t, handleOf_unaliased t⟩
  · rw [encodeBody, encodeBody, t.encoder_unaliased]
  · rw [decodeBody, decodeBody, t.decoder_unaliased]
  · rw [t.renderer_unaliased]

example : (DataType.union "U" (.alias "A" (.alias "B" (.enum "E" []))) [] none).unaliased =
    .union "U" (.enum "A" []) [] none := rfl

end BusScope
