import BusScope.Proofs.Wire.Room

/-! What can be said of a value just because it came off the wire. A property that passes from the
parts of a value to the whole holds of everything that a reader gets off a body. The members of a
structure need different names for that, or the later of two would hide the earlier. -/

namespace BusScope

/-- Whatever the reader gets off a body has the property. -/
def Yields {α : Type} (r : Reader α) (P : α → Prop) : Prop :=
  ∀ c a c', r c = .ok (a, c') → P a

namespace Yields

variable {α β : Type} {P : α → Prop} {Q : β → Prop}

theorem anything (r : Reader α) : Yields r fun _ => True := fun _ _ _ _ => trivial

theorem pure {a : α} (h : P a) : Yields (Pure.pure a) P := by
  intro c b c' hb
  cases hb
  exact h

theorem fail (fault : WireFault) : Yields (Reader.fail fault) P := by
  intro c a c' ha
  cases ha

theorem bind {r : Reader α} {k : α → Reader β} (hr : Yields r P)
    (hk : ∀ a, P a → Yields (k a) Q) : Yields (r >>= k) Q := by
  intro c b c' hb
  cases ha : r c with
  | error e =>
    rw [Reader.bind_of_error ha] at hb
    cases hb
  | ok p =>
    rw [Reader.bind_of_ok ha] at hb
    exact hk p.1 (hr c p.1 p.2 ha) p.2 b c' hb

theorem map {r : Reader α} {f : α → β} (hr : Yields r P) (hf : ∀ a, P a → Q (f a)) :
    Yields (f <$> r) Q := by
  have hb : Yields (r >>= fun a => Pure.pure (f a)) Q :=
    hr.bind fun a ha => Yields.pure (hf a ha)
  exact hb

theorem and {P' : α → Prop} {r : Reader α} (h : Yields r P) (h' : Yields r P') :
    Yields r fun a => P a ∧ P' a := fun c a c' ha => ⟨h c a c' ha, h' c a c' ha⟩

theorem times {r : Reader α} (hr : Yields r P) (n : Nat) :
    Yields (Reader.times r n) fun as => ∀ a ∈ as, P a := by
  induction n with
  | zero => exact Yields.pure (by simp)
  | succ n ih =>
    refine hr.bind fun a ha => ih.bind fun as has => Yields.pure ?_
    exact List.forall_mem_cons.mpr ⟨ha, has⟩

theorem length_times (r : Reader α) (n : Nat) :
    Yields (Reader.times r n) fun as => as.length = n := by
  induction n with
  | zero => exact Yields.pure rfl
  | succ n ih =>
    refine (Yields.anything r).bind fun a _ => ih.bind fun as has => Yields.pure ?_
    rw [List.length_cons, has]

end Yields

theorem Wire.ofLowBytes_lt (bytes : List UInt8) : ofLowBytes bytes < 256 ^ bytes.length := by
  induction bytes with
  | nil => exact Nat.one_pos
  | cons b rest ih =>
    have hb : b.toNat < 256 := b.toNat_lt
    rw [ofLowBytes, List.length_cons, Nat.pow_succ']
    omega

theorem ByteOrder.value_lt (order : ByteOrder) (bytes : List UInt8) :
    order.value bytes < 256 ^ bytes.length := by
  cases order with
  | little => exact Wire.ofLowBytes_lt bytes
  | big =>
    rw [← List.length_reverse]
    exact Wire.ofLowBytes_lt bytes.reverse

section Word

variable (order : ByteOrder)

theorem yields_take (n : Nat) : Yields (Reader.take n) (·.length ≤ n) := by
  intro c bytes c' h
  obtain ⟨-, rfl, -⟩ := Reader.take_eq_ok h
  exact List.length_take_le n c.rest

theorem yields_word (width : Nat) : Yields (Reader.word order width) (· < 256 ^ width) := by
  refine (Yields.anything _).bind fun _ _ => (yields_take width).bind fun bytes hl => ?_
  refine Yields.pure ((order.value_lt bytes).trans_le ?_)
  exact Nat.pow_le_pow_right (by omega) hl

theorem yields_count : Yields (Reader.count order) (· < 0x100000000) :=
  (yields_word order 4).bind fun _ hn => (Yields.anything _).bind fun _ _ => Yields.pure hn

end Word

namespace DataType

/-- Member by member, the names are those of the fields and the values have the property. -/
def Members (P : Field DataType → Value → Prop) (fs : List (Field DataType))
    (ms : List (String × Value)) : Prop :=
  List.Forall₂ (fun f m => m.1 = f.name ∧ P f m.2) fs ms

theorem Members.names {P : Field DataType → Value → Prop} {fs : List (Field DataType)}
    {ms : List (String × Value)} (h : Members P fs ms) : ms.map (·.1) = fs.map (·.name) := by
  induction h with
  | nil => rfl
  | cons hm _ ih => rw [List.map_cons, List.map_cons, hm.1, ih]

theorem Members.find? {P : Field DataType → Value → Prop} {fs : List (Field DataType)}
    {ms : List (String × Value)} (hd : (fs.map (·.name)).Nodup) (h : Members P fs ms) :
    ∀ f ∈ fs, ∃ v, SortedList.find? f.name (SortedList.ofList ms) = some v ∧ P f v := by
  intro f hf
  obtain ⟨i, hi, rfl⟩ := List.mem_iff_getElem.mp hf
  have hlength : fs.length = ms.length := h.length_eq
  obtain ⟨hname, hvalue⟩ := h.get hi (hlength ▸ hi)
  refine ⟨_, ?_, hvalue⟩
  have hn : (ms.map (·.1)).Nodup := h.names ▸ hd
  exact SortedList.find?_ofList_of_mem hn (hname ▸ List.get_mem ms _)

theorem Members.imp {P Q : Field DataType → Value → Prop} {fs : List (Field DataType)}
    {ms : List (String × Value)} (h : Members P fs ms) (hq : ∀ f ∈ fs, ∀ v, P f v → Q f v) :
    Members Q fs ms := by
  induction h with
  | nil => exact .nil
  | @cons f m fs ms hm _ ih =>
    obtain ⟨hf, hfs⟩ := List.forall_mem_cons.mp hq
    exact .cons ⟨hm.1, hf _ hm.2⟩ (ih hfs)

theorem Members.eq_map {P : Field DataType → Value → Prop} {fs : List (Field DataType)}
    {ms : List (String × Value)} {g : Field DataType → Value} (h : Members P fs ms)
    (hg : ∀ f ∈ fs, ∀ m ∈ ms, m.1 = f.name → P f m.2 → g f = m.2) :
    fs.map (fun f => (f.name, g f)) = ms := by
  induction h with
  | nil => rfl
  | @cons f m fs ms hm _ ih =>
    have hfirst : g f = m.2 := hg f List.mem_cons_self m List.mem_cons_self hm.1 hm.2
    rw [List.map_cons, hfirst, ← hm.1, ih fun f' hf m' hm' =>
      hg f' (List.mem_cons_of_mem f hf) m' (List.mem_cons_of_mem m hm')]

/-- The property of the values of a type is passed on by everything that is put together from values
in the course of reading. -/
structure PassesOn (order : ByteOrder) (P : DataType → Value → Prop) : Prop where
  scalar : ∀ name kind, Yields (Reader.scalar order kind) fun s =>
    P (.primitive name kind) (.scalar s)
  struct : ∀ name fields ms, (fields.map (·.name)).Nodup →
    Members (fun f v => (f.optional = true ∧ v = .null) ∨ P f.type v) fields ms →
    P (.struct name fields) (.ofMembers ms)
  sequence : ∀ name element max vs, ¬ max.any (· < vs.length) = true → vs.length < 0x100000000 →
    (∀ v ∈ vs, P element v) → P (.sequence name element max) (.sequence vs)
  array : ∀ name element vs, (∀ v ∈ vs, P element v) →
    P (.array name element vs.length) (.array vs)
  enum : ∀ name variants (n : Int32),
    P (.enum name variants) (.enum n.toInt64 (Variant.nameOf variants n.toInt64))
  unselected : ∀ name discriminator cases fallback w n, P discriminator w → w.integer? = some n →
    Case.select cases fallback n = none →
    P (.union name discriminator cases fallback) (.union n "" .null)
  selected : ∀ name discriminator cases fallback w n c v, P discriminator w →
    w.integer? = some n → Case.select cases fallback n = some c → P c.type v →
    P (.union name discriminator cases fallback) (.union n c.name v)
  aliased : ∀ name target v, P target v → P (.alias name target) v

section Decoder

variable {order : ByteOrder}

theorem yields_field {P : Value → Prop} {f : Field DataType} (hnull : f.optional = true → P .null)
    (h : Yields (f.type.decoder order) P) : Yields (Reader.field (f.map (decoder order))) P := by
  unfold Reader.field
  split
  · next ho =>
    refine (Yields.anything Reader.byte).bind fun b _ => ?_
    split
    · exact Yields.pure (hnull ho)
    · exact h
  · exact h

theorem yields_fields {P : Field DataType → Value → Prop} {fs : List (Field DataType)}
    (h : ∀ f ∈ fs, Yields (Reader.field (f.map (decoder order))) (P f)) :
    Yields (Reader.fields (fs.map (Field.map (decoder order)))) (Members P fs) := by
  induction fs with
  | nil => exact Yields.pure .nil
  | cons f fs ih =>
    obtain ⟨hf, hfs⟩ := List.forall_mem_cons.mp h
    refine hf.bind fun v hv => (ih hfs).bind fun ms hms => ?_
    exact Yields.pure (.cons ⟨rfl, hv⟩ hms)

theorem PassesOn.yields {P : DataType → Value → Prop} (h : PassesOn order P) {t : DataType}
    (hd : ∀ s ∈ t.parts, s.namesDistinct = true) : Yields (t.decoder order) (P t) := by
  induction t with
  | primitive name kind => exact (h.scalar name kind).map fun s hs => hs
  | struct name fields ih =>
    have hn : (fields.map (·.name)).Nodup := by
      simpa [namesDistinct] using hd _ (mem_parts_self _)
    rw [decoder, fieldDecoders_eq]
    have hfields : Yields (Reader.fields (fields.map (Field.map (decoder order))))
        (Members (fun f v => (f.optional = true ∧ v = .null) ∨ P f.type v) fields) := by
      apply yields_fields
      intro f hf
      have htype := ih f hf fun s hs => hd s (parts_subset_struct hf hs)
      exact yields_field (fun ho => .inl ⟨ho, rfl⟩) fun c v c' hv => .inr (htype c v c' hv)
    exact hfields.bind fun ms hms => Yields.pure (h.struct name fields ms hn hms)
  | sequence name element max ih =>
    rw [decoder]
    refine (yields_count order).bind fun n hn => ?_
    split
    · exact Yields.fail _
    next hmax =>
    have hitems := (ih fun s hs => hd s (parts_subset_sequence hs)).times n
    refine (hitems.and (Yields.length_times _ n)).bind fun vs hvs => Yields.pure ?_
    obtain ⟨hvs, rfl⟩ := hvs
    exact h.sequence name element max vs hmax hn hvs
  | array name element length ih =>
    rw [decoder]
    have hitems := (ih fun s hs => hd s (parts_subset_array hs)).times length
    refine (hitems.and (Yields.length_times _ length)).bind fun vs hvs => Yields.pure ?_
    obtain ⟨hvs, rfl⟩ := hvs
    exact h.array name element vs hvs
  | enum name variants =>
    rw [decoder]
    exact (Yields.anything _).bind fun n _ => Yields.pure (h.enum name variants _)
  | union name discriminator cases fallback ihd ihc =>
    rw [decoder, caseDecoders_eq, fallbackDecoder_eq]
    refine (ihd fun s hs => hd s (parts_subset_union hs)).bind fun w hw => ?_
    split
    · exact Yields.fail _
    next n hn =>
    rw [Case.select_map]
    cases hc : Case.select cases fallback n with
    | none => exact Yields.pure (h.unselected name discriminator cases fallback w n hw hn hc)
    | some c =>
      have hmem := Case.mem_of_select hc
      refine (ihc c hmem fun s hs => hd s (parts_subset_union_case hmem hs)).bind fun v hv => ?_
      exact Yields.pure (h.selected name discriminator cases fallback w n c v hw hn hc hv)
  | aliased name target ih =>
    have htarget := ih fun s hs => hd s (parts_subset_alias hs)
    exact fun c v c' hv => h.aliased name target v (htarget c v c' hv)

end Decoder

/-- The law for bodies: what passes on holds of whatever is read. -/
theorem PassesOn.of_decodeBody {order : ByteOrder} {P : DataType → Value → Prop}
    (h : PassesOn order P) {t : DataType} {v : Value} {body : List UInt8}
    (hd : ∀ s ∈ t.parts, s.namesDistinct = true) (hv : decodeBody order t body = .ok v) : P t v := by
  obtain ⟨c, hr⟩ := decodeBody_eq_ok hv
  exact h.yields hd _ v c hr

end DataType

end BusScope
