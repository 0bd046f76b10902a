import BusScope.Proofs.Wire.Counts
import BusScope.Proofs.Wire.Lengths
import BusScope.Proofs.Wire.Switches

/-! Values face to face with the check of their counts. Whether a body is read back is up to the
bytes behind each count in it, whoever wrote them: the first count that asks for more is refused. -/

namespace BusScope

namespace DataType

theorem encoder_null_ne_ok {order : ByteOrder} {t : DataType} {position : Nat}
    {bytes : List UInt8} : t.encoder order .null position ≠ .ok bytes := by
  intro h
  induction t with
  | aliased name target ih => exact ih h
  | primitive | struct | sequence | array | enum | union => cases h

/-- What a value is read back as. A bound on strings has to leave room for the terminator, and the
number that is read for a switch has to select the case that was written. -/
inductive ReadsBack : DataType → Value → Value → Prop
  | primitive {kind : Primitive} (name : String) (s : Scalar) (h : kind.boundFits = true) :
      ReadsBack (.primitive name kind) (.scalar s) (.scalar s)
  | struct {fields : List (Field DataType)} {members : List (String × Value)}
      {g : Field DataType → Value} (name : String)
      (absent : ∀ f ∈ fields, (SortedList.find? f.name members).getD .null = .null → g f = .null)
      (present : ∀ f ∈ fields, ∀ v ∈ SortedList.find? f.name members, v ≠ .null →
        ReadsBack f.type v (g f)) :
      ReadsBack (.struct name fields) (.struct members)
        (.ofMembers (fields.map fun f => (f.name, g f)))
  | sequence {element : DataType} {vs : List Value} {g : Value → Value} (name : String)
      (max : Option Nat) (h : ∀ v ∈ vs, ReadsBack element v (g v)) :
      ReadsBack (.sequence name element max) (.sequence vs) (.sequence (vs.map g))
  | array {element : DataType} {vs : List Value} {g : Value → Value} (name : String)
      (length : Nat) (h : ∀ v ∈ vs, ReadsBack element v (g v)) :
      ReadsBack (.array name element length) (.array vs) (.array (vs.map g))
  | enum (name : String) (variants : List Variant) (n : Int64) (given : String) :
      ReadsBack (.enum name variants) (.enum n given) (.enum n (Variant.nameOf variants n))
  | unselected {discriminator : DataType} {cases : List (Case DataType)}
      {fallback : Option (Case DataType)} {n : Int64} (name caseName : String) (content : Value)
      (written : Case.select cases fallback n = none)
      (read : Case.select cases fallback (discriminator.switchBack n) = none) :
      ReadsBack (.union name discriminator cases fallback) (.union n caseName content)
        (.union (discriminator.switchBack n) "" .null)
  | selected {discriminator : DataType} {cases : List (Case DataType)}
      {fallback : Option (Case DataType)} {n : Int64} {c : Case DataType} {content w : Value}
      (name caseName : String) (written : Case.select cases fallback n = some c)
      (read : Case.select cases fallback (discriminator.switchBack n) = some c)
      (h : ReadsBack c.type content w) :
      ReadsBack (.union name discriminator cases fallback) (.union n caseName content)
        (.union (discriminator.switchBack n) c.name w)
  | aliased {target : DataType} {v w : Value} (name : String) (h : ReadsBack target v w) :
      ReadsBack (.alias name target) v w

theorem readsBack_canonical {order : ByteOrder} {t : DataType} {v : Value} {position : Nat}
    {bytes : List UInt8} (ht : ∀ s ∈ t.parts, s.boundFits = true) (hv : t.switchesFit v = true)
    (h : t.encoder order v position = .ok bytes) : t.ReadsBack v (t.canonical v) := by
  induction t generalizing v position bytes with
  | primitive name kind =>
    obtain ⟨s, rfl, -⟩ := Encoder.primitive_eq_ok.mp h
    exact .primitive name s (ht _ (mem_parts_self _))
  | enum name variants =>
    obtain ⟨n, given, rfl, -⟩ := Encoder.enum_eq_ok.mp h
    exact .enum name variants n given
  | struct name fields ih =>
    obtain ⟨members, rfl, hm⟩ := encoder_struct_eq_ok.mp h
    rw [switchesFit_struct] at hv
    rw [canonical_struct]
    refine .struct name (fun f _ habsent => ?_) (fun f hf w hw hne => ?_)
    · cases hfind : SortedList.find? f.name members with
      | none => rfl
      | some w =>
        rw [hfind] at habsent
        cases habsent
        rfl
    · obtain ⟨p, b, hfield⟩ := Encoder.field_of_fields hm _ (List.mem_map_of_mem hf)
      change Encoder.field _ (SortedList.find? f.name members) p = .ok b at hfield
      rw [Option.mem_def.mp hw] at hfield
      obtain ⟨q, a, ha⟩ := (Encoder.member_of_field hfield).resolve_left hne
      rw [Option.mem_def.mp hw, canonicalMember_some]
      exact ih f hf (fun s hs => ht s (parts_subset_struct hf hs)) (hv f hf w hw) ha
  | sequence name element max ih =>
    rw [encoder] at h
    obtain ⟨vs, more, rfl, -, -, hb, -⟩ := Encoder.sequence_eq_ok.mp h
    refine .sequence name max fun w hw => ?_
    obtain ⟨p, b, hitem⟩ := Encoder.item_of_items hb w hw
    exact ih (fun s hs => ht s (parts_subset_sequence hs)) (switchesFit_sequence.mp hv w hw) hitem
  | array name element length ih =>
    rw [encoder] at h
    obtain ⟨vs, rfl, -, hb⟩ := Encoder.array_eq_ok.mp h
    refine .array name length fun w hw => ?_
    obtain ⟨p, b, hitem⟩ := Encoder.item_of_items hb w hw
    exact ih (fun s hs => ht s (parts_subset_array hs)) (switchesFit_array.mp hv w hw) hitem
  | union name discriminator cases fallback ihd ihc =>
    obtain ⟨n, caseName, content, first, second, rfl, -, hsecond, -⟩ := encoder_union_eq_ok.mp h
    obtain ⟨hfit, hcontent⟩ := switchesFit_union.mp hv
    have hback : discriminator.switchBack n = n := if_pos hfit
    rw [canonical_union]
    cases hc : Case.select cases fallback n with
    | none =>
      have hread := ReadsBack.unselected name caseName content hc (hback ▸ hc)
      rwa [hback] at hread
    | some c =>
      rw [hc] at hsecond
      have hmem := Case.mem_of_select hc
      have hcase := ihc c hmem (fun s hs => ht s (parts_subset_union_case hmem hs))
        (hcontent c hc) hsecond
      have hread := ReadsBack.selected name caseName hc (hback ▸ hc) hcase
      rwa [hback] at hread
  | aliased name target ih =>
    rw [encoder] at h
    exact .aliased name (ih (fun s hs => ht s (parts_subset_alias hs)) hv h)

end DataType

variable {α β : Type}

/-- At this position the reader takes exactly these bytes if every one of the counts is met in the
whole body, and otherwise reports the first that is not. -/
def Meets (cs : List Count) (r : Reader α) (a : α) (position : Nat) (bytes : List UInt8) : Prop :=
  ∀ rest, r ⟨position + bytes.length + rest.length, position, bytes ++ rest⟩ =
    (Count.check (position + bytes.length + rest.length) cs).map fun _ =>
      (a, ⟨position + bytes.length + rest.length, position + bytes.length, rest⟩)

namespace Meets

variable {cs ds : List Count} {r : Reader α} {a : α} {b : β} {position : Nat}
  {bytes first second : List UInt8}

theorem of_takes (h : Takes r a position bytes) : Meets [] r a position bytes := h

theorem bind {k : α → Reader β} (hr : Meets cs r a position first)
    (hk : Meets ds (k a) b (position + first.length) second) :
    Meets (cs ++ ds) (r >>= k) b position (first ++ second) := by
  intro rest
  have h1 := hr (second ++ rest)
  have h2 := hk rest
  simp only [List.length_append, List.append_assoc, ← Nat.add_assoc] at h1 h2 ⊢
  rw [Count.check_append]
  cases hc : Count.check (position + first.length + second.length + rest.length) cs with
  | error fault =>
    rw [hc] at h1
    rw [Reader.bind_of_error h1]
    rfl
  | ok =>
    rw [hc] at h1
    rw [Reader.bind_of_ok h1, h2]
    rfl

theorem map (f : α → β) (h : Meets cs r a position bytes) :
    Meets cs (f <$> r) (f a) position bytes := by
  have hpure : Meets [] (Pure.pure (f a) : Reader β) (f a) (position + bytes.length) [] :=
    of_takes (Takes.pure _ _)
  have hb : Meets (cs ++ []) (r >>= fun x => Pure.pure (f x)) (f a) position (bytes ++ []) :=
    h.bind hpure
  rw [List.append_nil, List.append_nil] at hb
  exact hb

theorem atLeast {n : Nat} (h : Meets cs r a position bytes) :
    Meets (⟨n, position⟩ :: cs) (Reader.atLeast n >>= fun _ => r) a position bytes := by
  intro rest
  show (Reader.atLeast n _ >>= fun p => r p.2) = _
  rw [Reader.atLeast, Count.check, Count.stop]
  -- A count is held against all bytes that are left, whoever wrote them.
  by_cases hn : n ≤ position + bytes.length + rest.length - position
  · rw [if_pos hn, if_pos (by dsimp only; omega)]
    exact h rest
  · rw [if_neg hn, if_neg (by dsimp only; omega)]
    rfl

theorem count {order : ByteOrder} {k : Nat → Reader β} {n : Nat} (hn : n < 0x100000000)
    (hk : Meets cs (k n) b (position + (Encoder.word order 4 n position).length) bytes) :
    Meets (⟨n, position + (Encoder.word order 4 n position).length⟩ :: cs)
      (Reader.count order >>= k) b position (Encoder.word order 4 n position ++ bytes) := by
  have hb : Reader.count order >>= k =
      Reader.word order 4 >>= fun n => Reader.atLeast n >>= fun _ => k n := by
    simp [Reader.count]
  rw [hb]
  have hword : Meets [] (Reader.word order 4) n position (Encoder.word order 4 n position) :=
    of_takes (Takes.compositional.wordOf position (by omega))
  exact hword.bind hk.atLeast

theorem items {e : Encoder} {counts : Value → Nat → List Count} {r : Reader α} {g : Value → α}
    {vs : List Value} (h : ∀ v ∈ vs, ∀ p b, e v p = .ok b → Meets (counts v p) r (g v) p b)
    (he : Encoder.items e vs position = .ok bytes) :
    Meets (Count.ofItems e counts vs position) (Reader.times r vs.length) (vs.map g) position
      bytes := by
  induction vs generalizing position bytes with
  | nil => exact (Except.ok.inj he) ▸ of_takes (Takes.pure [] position)
  | cons v vs ih =>
    obtain ⟨hv, hvs⟩ := List.forall_mem_cons.mp h
    obtain ⟨a, b, ha, hb, rfl⟩ := Encoder.andThen_eq_ok.mp he
    rw [Count.ofItems, ha]
    exact (hv position a ha).bind ((ih hvs hb).map (g v :: ·))

section Members

open DataType

variable {order : ByteOrder}

theorem field {f : Field DataType} {member : Option Value} {w : Value}
    (absent : member.getD .null = .null → w = .null)
    (present : ∀ v ∈ member, v ≠ .null → ∀ p b, f.type.encoder order v p = .ok b →
      Meets (f.type.counts order v p) (f.type.decoder order) w p b)
    (h : Encoder.field (f.map (encoder order)) member position = .ok bytes) :
    Meets (Count.ofMember f.optional (f.type.counts order) member position)
      (Reader.field (f.map (decoder order))) w position bytes := by
  by_cases ho : f.optional = true
  · have hread : Reader.field (f.map (decoder order)) =
        Reader.byte >>= fun b => if b = 0 then Pure.pure .null else f.type.decoder order :=
      if_pos ho
    have hbyte : ∀ b, Meets [] Reader.byte b position [b] := fun b =>
      of_takes (Takes.compositional.byte b position)
    have habsent : Meets [] (Reader.field (f.map (decoder order))) .null position [0] := by
      rw [hread]
      exact (hbyte 0).bind (of_takes (Takes.pure Value.null _))
    rw [Encoder.field_of_optional ho] at h
    split at h
    · cases h
      rw [absent rfl]
      exact habsent
    · cases h
      rw [absent rfl, Count.ofMember, counts_null]
      exact habsent
    · next v hne =>
      obtain ⟨a, b, ha, hb, rfl⟩ := Encoder.andThen_eq_ok.mp h
      cases ha
      rw [Count.ofMember, if_pos ho, hread]
      exact (hbyte 1).bind (present v rfl hne _ b hb)
  · have hread : Reader.field (f.map (decoder order)) = f.type.decoder order := if_neg ho
    rw [Encoder.field_of_required ho] at h
    split at h
    · cases h
    · next v =>
      have hv : v ≠ .null := by
        rintro rfl
        exact encoder_null_ne_ok h
      rw [Count.ofMember, if_neg ho, hread]
      exact present v rfl hv position bytes h

theorem fields {fs : List (Field DataType)} {members : List (String × Value)}
    {g : Field DataType → Value}
    (absent : ∀ f ∈ fs, (SortedList.find? f.name members).getD .null = .null → g f = .null)
    (present : ∀ f ∈ fs, ∀ v ∈ SortedList.find? f.name members, v ≠ .null → ∀ p b,
      f.type.encoder order v p = .ok b →
        Meets (f.type.counts order v p) (f.type.decoder order) (g f) p b)
    (h : Encoder.fields (fs.map (Field.map (encoder order))) members position = .ok bytes) :
    Meets (fieldCounts order fs members position)
      (Reader.fields (fs.map (Field.map (decoder order)))) (fs.map fun f => (f.name, g f))
      position bytes := by
  induction fs generalizing position bytes with
  | nil =>
    cases h
    exact of_takes (Takes.pure [] position)
  | cons f fs ih =>
    obtain ⟨hnone, hnones⟩ := List.forall_mem_cons.mp absent
    obtain ⟨hsome, hsomes⟩ := List.forall_mem_cons.mp present
    obtain ⟨a, b, ha, hb, rfl⟩ := Encoder.andThen_eq_ok.mp h
    have hfirst := field hnone hsome ha
    have hrest := (ih hnones hsomes hb).map (fun others => (f.name, g f) :: others)
    rw [fieldCounts_cons ha]
    exact hfirst.bind hrest

theorem union {name : String} {discriminator : DataType} {cases : List (Case DataType)}
    {fallback : Option (Case DataType)} {n : Int64} {w : Value}
    (hfirst : discriminator.encodeSwitch (discriminator.encoder order) n position = .ok first)
    (h : Meets cs
      (match Case.select cases fallback (discriminator.switchBack n) with
        | none => Pure.pure (.union (discriminator.switchBack n) "" .null)
        | some c => Value.union (discriminator.switchBack n) c.name <$> c.type.decoder order)
      w (position + first.length) second) :
    Meets cs ((DataType.union name discriminator cases fallback).decoder order) w position
      (first ++ second) := by
  obtain ⟨switch, htakes, hint⟩ := takes_switch hfirst
  rw [DataType.decoder, caseDecoders_eq, fallbackDecoder_eq]
  refine (of_takes htakes).bind ?_
  rw [hint]
  dsimp only
  rw [Case.select_map]
  cases hc : Case.select cases fallback (discriminator.switchBack n) with
  | none =>
    rw [hc] at h
    exact h
  | some c =>
    rw [hc] at h
    exact h

end Members

theorem decoder {order : ByteOrder} {t : DataType} {v w : Value} (hback : t.ReadsBack v w)
    (h : t.encoder order v position = .ok bytes) :
    Meets (t.counts order v position) (t.decoder order) w position bytes := by
  induction hback generalizing position bytes with
  | primitive name s hfit =>
    obtain ⟨_, hv, hs⟩ := Encoder.primitive_eq_ok.mp h
    cases hv
    exact of_takes ((Takes.compositional.scalar hfit hs).map Value.scalar)
  | enum name variants n given =>
    have hread : Takes (Reader.enum order variants)
        ((DataType.enum name variants).canonical (.enum n given)) position bytes :=
      Takes.compositional.enum h
    exact of_takes hread
  | struct name absent present ih =>
    obtain ⟨_, hmembers, hm⟩ := DataType.encoder_struct_eq_ok.mp h
    cases hmembers
    rw [DataType.decoder, DataType.fieldDecoders_eq]
    refine (Meets.fields absent (fun f hf v hv hne p b hb => ?_) hm).map Value.ofMembers
    exact ih f hf v hv hne hb
  | sequence name max hitems ih =>
    rw [DataType.encoder] at h
    obtain ⟨_, more, hvs, hmax, hn, hb, rfl⟩ := Encoder.sequence_eq_ok.mp h
    cases hvs
    refine Meets.count hn ?_
    rw [if_neg hmax]
    exact (Meets.items (fun v hv p b hvb => ih v hv hvb) hb).map Value.sequence
  | array name length hitems ih =>
    rw [DataType.encoder] at h
    obtain ⟨_, hvs, rfl, hb⟩ := Encoder.array_eq_ok.mp h
    cases hvs
    exact (Meets.items (fun v hv p b hvb => ih v hv hvb) hb).map Value.array
  | unselected name caseName content written read =>
    obtain ⟨_, _, _, first, second, hv, hfirst, hsecond, rfl⟩ :=
      DataType.encoder_union_eq_ok.mp h
    cases hv
    rw [written] at hsecond
    cases hsecond
    rw [DataType.counts_union, hfirst, written]
    refine Meets.union hfirst ?_
    rw [read]
    exact of_takes (Takes.pure _ _)
  | selected name caseName written read hcase ih =>
    obtain ⟨_, _, _, first, second, hv, hfirst, hsecond, rfl⟩ :=
      DataType.encoder_union_eq_ok.mp h
    cases hv
    rw [written] at hsecond
    rw [DataType.counts_union, hfirst, written]
    refine Meets.union hfirst ?_
    rw [read]
    exact (ih hsecond).map _
  | aliased name htarget ih =>
    rw [DataType.encoder] at h
    exact ih h

end Meets

theorem decodeBody_of_readsBack {order : ByteOrder} {t : DataType} {v w : Value}
    {bytes : List UInt8} (hback : t.ReadsBack v w) (h : encodeBody order t v = .ok bytes)
    (rest : List UInt8) :
    decodeBody order t (bytes ++ rest) =
      (Count.check (bytes.length + rest.length) (t.counts order v 0)).map fun _ => w := by
  have hrun := Meets.decoder hback h rest
  rw [Nat.zero_add] at hrun
  show (t.decoder order (.start (bytes ++ rest))).map (·.1) = _
  rw [Cursor.start, List.length_append, hrun]
  cases Count.check (bytes.length + rest.length) (t.counts order v 0) <;> rfl

/-- The reader gets as many items as were written exactly if each count is met. That is so wherever
every item of every sequence takes room. Items that take none come back only if there are none. -/
theorem sequence_read_back {order : ByteOrder} {name : String} {element : DataType}
    {vs : List Value} {g : Value → Value} {bytes : List UInt8}
    (hback : ∀ v ∈ vs, element.ReadsBack v (g v))
    (h : encodeBody order (.sequence name element none) (.sequence vs) = .ok bytes) :
    let t : DataType := .sequence name element none
    let counts := t.counts order (.sequence vs) 0
    decodeBody order t bytes =
        (Count.check bytes.length counts).map (fun _ => .sequence (vs.map g)) ∧
      ((∃ ws, decodeBody order t bytes = .ok (.sequence ws) ∧ ws.length = vs.length) ↔
        ∀ c ∈ counts, c.stop ≤ bytes.length) ∧
      ((∀ s ∈ t.parts, s.itemsTakeRoom = true) → ∀ c ∈ counts, c.stop ≤ bytes.length) ∧
      (element.canBeEmpty = true → ((∀ c ∈ counts, c.stop ≤ bytes.length) ↔ vs = [])) := by
  intro t counts
  have hread : decodeBody order t bytes =
      (Count.check bytes.length counts).map fun _ => .sequence (vs.map g) := by
    have hrun := decodeBody_of_readsBack (.sequence name none hback) h []
    rwa [List.append_nil] at hrun
  refine ⟨hread, ?_, fun hroom => ?_, fun hempty => ?_⟩
  · rw [hread, ← Count.check_eq_ok]
    constructor
    · rintro ⟨ws, hws, -⟩
      cases hc : Count.check bytes.length counts with
      | error fault => rw [hc] at hws; cases hws
      | ok => rfl
    · intro hc
      rw [hc]
      exact ⟨_, rfl, List.length_map _⟩
  · have hall := DataType.stop_le_of_itemsTakeRoom hroom h
    rwa [Nat.zero_add] at hall
  · have hiff := DataType.stop_le_iff_of_canBeEmpty hempty h
    rwa [Nat.zero_add] at hiff

def page : DataType :=
  .struct "Page" [.of "marks" (.sequence "" (.struct "Mark" []) none),
    .ofPrimitive "note" (.string none)]

def markedPage : Value :=
  .ofMembers
    [("marks", .sequence [.ofMembers [], .ofMembers []]), ("note", .scalar (.string "ok"))]

theorem sequence_read_back_page :
    page.ReadsBack markedPage markedPage ∧
      encodeBody .little (.sequence "" page none) (.sequence [markedPage]) =
        .ok [1, 0, 0, 0, 2, 0, 0, 0, 3, 0, 0, 0, 111, 107, 0] ∧
      ∃ ws, decodeBody .little (.sequence "" page none)
          [1, 0, 0, 0, 2, 0, 0, 0, 3, 0, 0, 0, 111, 107, 0] = .ok (.sequence ws) ∧
        ws.length = 1 := by
  have ht : ∀ s ∈ page.parts, s.boundFits = true := by decide
  have hv : page.switchesFit markedPage = true := by decide
  have hitem : page.encoder .little markedPage 0 =
      .ok [2, 0, 0, 0, 3, 0, 0, 0, 111, 107, 0] := by rfl
  have hback : page.ReadsBack markedPage markedPage :=
    DataType.readsBack_canonical ht hv hitem
  have hbytes : encodeBody .little (.sequence "" page none) (.sequence [markedPage]) =
      .ok [1, 0, 0, 0, 2, 0, 0, 0, 3, 0, 0, 0, 111, 107, 0] := by rfl
  have hread := sequence_read_back (g := id) (List.forall_mem_singleton.mpr hback) hbytes
  exact ⟨hback, hbytes, hread.2.1.mpr (by decide)⟩

theorem empty_item_not_read_back :
    encodeBody .little (.sequence "" (.struct "" []) none) (.sequence [.ofMembers []]) =
        .ok [1, 0, 0, 0] ∧
      decodeBody .little (.sequence "" (.struct "" []) none) [1, 0, 0, 0] =
        .error (.tooShort 5 4) :=
  ⟨rfl, rfl⟩

end BusScope
