import BusScope.Guid
import BusScope.Proofs.Text.Hex
import BusScope.Proofs.Text.Pieces

/-! Identifiers and their texts. The written forms are described part by part, next to the reading
of them: all of them are read, and besides them only those in which a plus sign takes the place of
a first digit. -/

namespace BusScope

open Text

namespace Guid

open Text.Hex

/-- Besides the spellings of a byte, a plus sign and one digit are read as the digit. -/
def ReadAs (part : List Char) (b : UInt8) : Prop :=
  Spells part b ∨ ∃ d, part = ['+', d] ∧ Denotes d b.toNat

theorem parsePart?_eq_some_iff {part : List Char} {b : UInt8} :
    parsePart? part = some b ↔ ReadAs part b := by
  constructor
  · intro h
    unfold parsePart? at h
    split at h
    · next c =>
      obtain ⟨n, hn, rfl⟩ := Option.map_eq_some_iff.mp h
      exact .inl (value?_eq_some_iff.mp hn).spells
    · next c d =>
      obtain ⟨low, hlow, h⟩ := Option.bind_eq_some_iff.mp h
      have hlow := value?_eq_some_iff.mp hlow
      dsimp only at h
      split at h
      · next hplus =>
        cases h
        have hn := hlow.1
        refine .inr ⟨d, by rw [hplus], ?_⟩
        rw [Nat.zero_mul, Nat.zero_add, toNat_toUInt8 (by omega)]
        exact hlow
      · obtain ⟨high, hhigh, h⟩ := Option.bind_eq_some_iff.mp h
        cases h
        exact .inl ((value?_eq_some_iff.mp hhigh).spells_pair hlow)
    · cases h
  · intro h
    rcases h with (⟨c, rfl, hc⟩ | ⟨c, d, rfl, hc, hd⟩) | ⟨d, rfl, hd⟩
    · rw [parsePart?, value?_eq_some_iff.mpr hc]
      simp
    · have hplus : c ≠ '+' := by
        rintro rfl
        cases (show value? '+' = none by rfl).symm.trans (value?_eq_some_iff.mpr hc)
      have hb : b.toNat / 16 * 16 + b.toNat % 16 = b.toNat := Nat.div_add_mod' b.toNat 16
      simp only [parsePart?, value?_eq_some_iff.mpr hd, value?_eq_some_iff.mpr hc, if_neg hplus,
        Option.bind_eq_bind, Option.bind_some, hb]
      exact congrArg some b.ofNat_toNat
    · rw [parsePart?, value?_eq_some_iff.mpr hd]
      simp

theorem parseBytes?_eq_some_iff {s : List Char} {bytes : List UInt8} :
    parseBytes? s = some bytes ↔
      List.Forall₂ (fun part b => parsePart? part = some b) (splitAt '.' s) bytes := by
  unfold parseBytes?
  generalize splitAt '.' s = parts
  induction parts generalizing bytes with
  | nil => simp [eq_comm]
  | cons part parts ih =>
    rw [List.mapM_cons, List.forall₂_cons_left_iff]
    constructor
    · intro h
      obtain ⟨b, hb, h⟩ := Option.bind_eq_some_iff.mp h
      obtain ⟨rest, hrest, h⟩ := Option.bind_eq_some_iff.mp h
      cases h
      exact ⟨b, rest, hb, ih.mp hrest, rfl⟩
    · intro h
      obtain ⟨b, rest, hb, hrest, rfl⟩ := h
      rw [hb, ih.mpr hrest]
      rfl

theorem ofBytes?_eq_some_iff {bytes : List UInt8} {g : Guid} :
    ofBytes? bytes = some g ↔ bytes = g.bytes := by
  constructor
  · intro h
    unfold ofBytes? at h
    split at h
    · cases h
      exact (List.take_append_drop 12 bytes).symm
    · cases h
  · intro h
    have hlength : bytes.length = 16 := by simp [h, Guid.bytes]
    have hsome : ofBytes? bytes = some ⟨⟨(bytes.take 12).toArray, by simp [hlength]⟩,
        ⟨(bytes.drop 12).toArray, by simp [hlength]⟩⟩ := dif_pos hlength
    rw [hsome]
    refine congrArg some (bytes_inj (Eq.trans ?_ h))
    exact List.take_append_drop 12 bytes

def dotted (parts : List (List Char)) : List Char := join ['.'] parts

/-- The identifier byte by byte, each spelled by one part: with a bar in front of the parts of the
entity, or with dots throughout. -/
def Written (spells : List Char → UInt8 → Prop) (text : List Char) (g : Guid) : Prop :=
  ∃ front back, List.Forall₂ spells front g.participant.toList ∧
    List.Forall₂ spells back g.entity.toList ∧
    (text = dotted front ++ '|' :: dotted back ∨ text = dotted (front ++ back))

/-- Twelve parts, a bar and four parts, or sixteen parts, with dots between them. -/
def Shaped (isPart : List Char → Prop) (text : List Char) : Prop :=
  ∃ front back : List (List Char), front.length = 12 ∧ back.length = 4 ∧
    (∀ part ∈ front ++ back, isPart part) ∧
    (text = dotted front ++ '|' :: dotted back ∨ text = dotted (front ++ back))

theorem exists_forall₂_iff {α β : Type} {r : α → β → Prop} {xs : List α} :
    (∃ ys, List.Forall₂ r xs ys) ↔ ∀ x ∈ xs, ∃ y, r x y := by
  induction xs with
  | nil => exact ⟨fun _ x hx => absurd hx List.not_mem_nil, fun _ => ⟨[], .nil⟩⟩
  | cons x xs ih =>
    rw [List.forall_mem_cons, ← ih]
    constructor
    · intro h
      obtain ⟨_, h⟩ := h
      obtain ⟨y, ys, hy, hys, -⟩ := List.forall₂_cons_left_iff.mp h
      exact ⟨⟨y, hy⟩, ys, hys⟩
    · intro h
      obtain ⟨⟨y, hy⟩, ys, hys⟩ := h
      exact ⟨y :: ys, .cons hy hys⟩

/-- A text has the shape if and only if it is written for some identifier. -/
theorem shaped_iff {spells : List Char → UInt8 → Prop} {text : List Char} :
    Shaped (fun part => ∃ b, spells part b) text ↔ ∃ g, Written spells text g := by
  constructor
  · intro h
    obtain ⟨front, back, hfront, hback, hparts, htext⟩ := h
    obtain ⟨participant, hp⟩ := exists_forall₂_iff.mpr
      fun part hpart => hparts part (List.mem_append_left back hpart)
    obtain ⟨entity, he⟩ := exists_forall₂_iff.mpr
      fun part hpart => hparts part (List.mem_append_right front hpart)
    refine ⟨⟨⟨participant.toArray, ?_⟩, ⟨entity.toArray, ?_⟩⟩, front, back, hp, he, htext⟩
    · exact hp.length_eq.symm.trans hfront
    · exact he.length_eq.symm.trans hback
  · intro h
    obtain ⟨g, front, back, hfront, hback, htext⟩ := h
    refine ⟨front, back, hfront.length_eq.trans (by simp), hback.length_eq.trans (by simp), ?_, htext⟩
    exact exists_forall₂_iff.mp ⟨_, List.rel_append hfront hback⟩

theorem Shaped.imp {isPart isPart' : List Char → Prop} {text : List Char}
    (h : ∀ part, part ⊆ text → isPart part → isPart' part) (hs : Shaped isPart text) :
    Shaped isPart' text := by
  obtain ⟨front, back, hfront, hback, hparts, htext⟩ := hs
  refine ⟨front, back, hfront, hback, fun part hpart => h part (fun c hc => ?_) (hparts part hpart),
    htext⟩
  rcases htext with rfl | rfl
  · rcases List.mem_append.mp hpart with hpart | hpart
    · exact List.mem_append_left _ (mem_join_of_mem hpart hc)
    · exact List.mem_append_right _ (List.mem_cons_of_mem _ (mem_join_of_mem hpart hc))
  · exact mem_join_of_mem hpart hc

theorem Shaped.mem {isPart : List Char → Prop} {text : List Char} (h : Shaped isPart text)
    {c : Char} (hc : c ∈ text) : c = '|' ∨ c = '.' ∨ ∃ part, isPart part ∧ c ∈ part := by
  obtain ⟨front, back, -, -, hparts, htext⟩ := h
  have hdotted : ∀ parts ⊆ front ++ back, c ∈ dotted parts →
      c = '.' ∨ ∃ part, isPart part ∧ c ∈ part := by
    intro parts hsub hmem
    refine (mem_join hmem).imp List.mem_singleton.mp fun hpart => ?_
    obtain ⟨part, hpart, hc⟩ := hpart
    exact ⟨part, hparts part (hsub hpart), hc⟩
  rcases htext with rfl | rfl
  · rcases List.mem_append.mp hc with hc | hc
    · exact .inr (hdotted front (List.subset_append_left front back) hc)
    rcases List.mem_cons.mp hc with rfl | hc
    · exact .inl rfl
    · exact .inr (hdotted back (List.subset_append_right front back) hc)
  · exact .inr (hdotted _ (List.Subset.refl _) hc)

theorem exists_readAs_iff {part : List Char} : (∃ b, ReadAs part b) ↔
    IsPart part ∨ ∃ d, part = ['+', d] ∧ IsDigit d := by
  rw [isPart_iff]
  constructor
  · intro h
    obtain ⟨b, h | ⟨d, hpart, hd⟩⟩ := h
    · exact .inl ⟨b, h⟩
    · exact .inr ⟨d, hpart, isDigit_iff.mpr ⟨_, hd⟩⟩
  · intro h
    rcases h with ⟨b, h⟩ | ⟨d, hpart, hd⟩
    · exact ⟨b, .inl h⟩
    · obtain ⟨n, hn⟩ := isDigit_iff.mp hd
      have hlt := hn.1
      exact ⟨n.toUInt8, .inr ⟨d, hpart, by rwa [toNat_toUInt8 (by omega)]⟩⟩

theorem ReadAs.mem {part : List Char} {b : UInt8} (h : ReadAs part b) {c : Char}
    (hc : c ∈ part) : c = '+' ∨ IsDigit c := by
  rcases exists_readAs_iff.mp ⟨b, h⟩ with h | ⟨d, rfl, hd⟩
  · exact .inr (h.2 c hc)
  · rcases List.mem_cons.mp hc with rfl | hc
    · exact .inl rfl
    · rw [List.mem_singleton.mp hc]
      exact .inr hd

theorem ReadAs.not_mem {part : List Char} {b : UInt8} (h : ReadAs part b) :
    '.' ∉ part ∧ '|' ∉ part := by
  constructor
  · intro hc
    rcases h.mem hc with hc | hc
    · cases hc
    · exact (isDigit_apart hc).2.1 rfl
  · intro hc
    rcases h.mem hc with hc | hc
    · cases hc
    · exact (isDigit_apart hc).2.2.1 rfl

theorem Written.solid {text : List Char} {g : Guid} (h : Written ReadAs text g) : Solid text := by
  intro c hc
  rcases (shaped_iff.mpr ⟨g, h⟩).mem hc with rfl | rfl | ⟨part, ⟨b, hpart⟩, hc⟩
  · rfl
  · rfl
  rcases hpart.mem hc with rfl | hdigit
  · rfl
  · exact (isDigit_apart hdigit).1

theorem parseBytes?_dotted {parts : List (List Char)} {bytes : List UInt8}
    (h : List.Forall₂ ReadAs parts bytes) (hne : bytes ≠ []) :
    parseBytes? (dotted parts) = some bytes := by
  have hparts : parts ≠ [] := by
    rintro rfl
    cases h
    exact hne rfl
  have hfree : ∀ part ∈ parts, '.' ∉ part := by
    intro part hpart
    obtain ⟨b, hb⟩ := exists_forall₂_iff.mp ⟨bytes, h⟩ part hpart
    exact hb.not_mem.1
  have hsplit : splitAt '.' (dotted parts) = parts := splitAt_eq_iff.mpr ⟨hparts, hfree, rfl⟩
  rw [parseBytes?_eq_some_iff, hsplit]
  exact h.imp fun _ _ => parsePart?_eq_some_iff.mpr

theorem bar_not_mem_dotted {parts : List (List Char)} {bytes : List UInt8}
    (h : List.Forall₂ ReadAs parts bytes) : '|' ∉ dotted parts := by
  intro hbar
  rcases mem_join hbar with hc | ⟨part, hpart, hc⟩
  · cases List.mem_singleton.mp hc
  · obtain ⟨b, hb⟩ := exists_forall₂_iff.mp ⟨bytes, h⟩ part hpart
    exact hb.not_mem.2 hc

theorem exists_dotted_of_parseBytes? {s : List Char} {bytes : List UInt8}
    (h : parseBytes? s = some bytes) : ∃ parts, List.Forall₂ ReadAs parts bytes ∧ s = dotted parts := by
  obtain ⟨-, -, hjoin⟩ := splitAt_eq_iff.mp (rfl : splitAt '.' s = splitAt '.' s)
  exact ⟨splitAt '.' s, (parseBytes?_eq_some_iff.mp h).imp fun _ _ => parsePart?_eq_some_iff.mp,
    hjoin.symm⟩

theorem parseChars?_eq_some_iff {s : List Char} {g : Guid} :
    parseChars? s = some g ↔ ∃ text, Padded text s ∧ Written ReadAs text g := by
  constructor
  · intro h
    refine ⟨trim s, padded_trim s, ?_⟩
    unfold parseChars? at h
    dsimp only at h
    split at h
    · obtain ⟨bytes, hbytes, hg⟩ := Option.bind_eq_some_iff.mp h
      obtain ⟨parts, hparts, htext⟩ := exists_dotted_of_parseBytes? hbytes
      rw [ofBytes?_eq_some_iff.mp hg] at hparts
      have hfront := List.forall₂_take_append parts _ _ hparts
      have hback := List.forall₂_drop_append parts _ _ hparts
      refine ⟨_, _, hfront, hback, .inr ?_⟩
      rw [List.take_append_drop, htext]
    · next front back hsplit =>
      obtain ⟨participant, hparticipant, hrest⟩ := Option.bind_eq_some_iff.mp h
      obtain ⟨entity, hentity, hg⟩ := Option.bind_eq_some_iff.mp hrest
      split at hg
      · next hlength =>
        obtain ⟨rfl, rfl⟩ := List.append_inj (ofBytes?_eq_some_iff.mp hg) (by simpa using hlength)
        obtain ⟨parts, hparts, rfl⟩ := exists_dotted_of_parseBytes? hparticipant
        obtain ⟨parts', hparts', rfl⟩ := exists_dotted_of_parseBytes? hentity
        exact ⟨parts, parts', hparts, hparts', .inl (splitFirst?_eq_some_iff.mp hsplit).2⟩
      · cases hg
  · intro h
    obtain ⟨text, hpadded, hwritten⟩ := h
    have htrim : trim s = text := trim_of_padded hwritten.solid hpadded
    unfold parseChars?
    dsimp only
    rw [htrim]
    obtain ⟨front, back, hfront, hback, rfl | rfl⟩ := hwritten
    · have hbar : '|' ∉ dotted front := bar_not_mem_dotted hfront
      have hsplit : splitFirst? '|' (dotted front ++ '|' :: dotted back) =
          some (dotted front, dotted back) := splitFirst?_eq_some_iff.mpr ⟨hbar, rfl⟩
      rw [hsplit]
      dsimp only
      rw [parseBytes?_dotted hfront (List.ne_nil_of_length_pos (by simp)),
        parseBytes?_dotted hback (List.ne_nil_of_length_pos (by simp))]
      show (if g.participant.toList.length = 12 then _ else none) = _
      rw [if_pos (by simp)]
      exact ofBytes?_eq_some_iff.mpr rfl
    · have hall : List.Forall₂ ReadAs (front ++ back) g.bytes := List.rel_append hfront hback
      rw [splitFirst?_eq_none_iff.mpr (bar_not_mem_dotted hall)]
      dsimp only
      rw [parseBytes?_dotted hall (List.ne_nil_of_length_pos (by simp [bytes]))]
      exact ofBytes?_eq_some_iff.mpr rfl

theorem parse_eq_ok_iff {s : String} {g : Guid} :
    parse s = .ok g ↔ ∃ text, Padded text s.toList ∧ Written ReadAs text g := by
  rw [← parseChars?_eq_some_iff, parse]
  cases parseChars? s.toList <;> simp

theorem written_chars (g : Guid) : Written Spells g.chars g := by
  refine ⟨g.participant.toList.map padded, g.entity.toList.map plain, ?_, ?_, .inl rfl⟩
  · exact List.forall₂_map_left_iff.mpr (List.forall₂_same.mpr fun b _ => spells_padded b)
  · exact List.forall₂_map_left_iff.mpr (List.forall₂_same.mpr fun b _ => spells_plain b)

theorem Written.readAs {text : List Char} {g : Guid} (h : Written Spells text g) :
    Written ReadAs text g := by
  obtain ⟨front, back, hfront, hback, htext⟩ := h
  exact ⟨front, back, hfront.imp fun _ _ => .inl, hback.imp fun _ _ => .inl, htext⟩

theorem written_dotted {parts : List (List Char)} {g : Guid}
    (h : List.Forall₂ Spells parts g.bytes) : Written Spells (dotted parts) g :=
  ⟨_, _, List.forall₂_take_append parts _ _ h, List.forall₂_drop_append parts _ _ h,
    .inr (by rw [List.take_append_drop])⟩

theorem parse_of_written {text : List Char} {s : String} {g : Guid} (h : Written Spells text g)
    (hs : Padded text s.toList) : parse s = .ok g :=
  parse_eq_ok_iff.mpr ⟨text, hs, h.readAs⟩

theorem toList_text (g : Guid) : g.text.toList = g.chars := String.toList_ofList

theorem bar_mem_text (g : Guid) : '|' ∈ g.text.toList := by
  rw [toList_text]
  exact List.mem_append_right _ List.mem_cons_self

theorem solid_text (g : Guid) : Solid g.text.toList := by
  rw [toList_text]
  exact (written_chars g).readAs.solid

theorem isValid_iff {g : Guid} : g.isValid = true ↔ g ≠ zero := by
  have hzero : zero.bytes = List.replicate 16 0 := by rfl
  have hlength : g.bytes.length = 16 := by simp [bytes]
  have hall : g = zero ↔ ∀ b ∈ g.bytes, b = 0 := by
    constructor
    · rintro rfl b hb
      rw [hzero] at hb
      exact List.eq_of_mem_replicate hb
    · intro hb
      exact bytes_inj (hzero ▸ List.eq_replicate_iff.mpr ⟨hlength, hb⟩)
  rw [ne_eq, hall, isValid, List.any_eq_true]
  simp

/-- The display text and the dotted spellings of an identifier are read as that identifier, with any
blanks around them, so that no two identifiers have one text. -/
theorem parse_text (g : Guid) :
    (∀ s, Padded g.text.toList s.toList → parse s = .ok g) ∧
    (∀ parts s, List.Forall₂ Spells parts g.bytes → Padded (dotted parts) s.toList →
      parse s = .ok g) ∧
    ∀ g', g'.text = g.text → g' = g := by
  have hdisplay : ∀ g s, Padded g.text.toList s.toList → parse s = .ok g := by
    intro g s hs
    rw [toList_text] at hs
    exact parse_of_written (written_chars g) hs
  refine ⟨hdisplay g, fun parts s hparts hs => ?_, fun g' htext => ?_⟩
  · exact parse_of_written (written_dotted hparts) hs
  · have hg := hdisplay g g.text (padded_self _)
    have hg' := hdisplay g' g.text (htext ▸ padded_self _)
    exact Except.ok.inj (hg'.symm.trans hg)

example : parse "\t1.F.d8.74.8b.fC.26.98.00.0.0.0.0.0.1.3 " =
    parse "01.0f.d8.74.8b.fc.26.98.00.00.00.00|0.0.1.3" := by rfl

theorem exists_parse_iff {s : String} : (∃ g, parse s = .ok g) ↔
    ∃ text, Padded text s.toList ∧
      Shaped (fun part => IsPart part ∨ ∃ d, part = ['+', d] ∧ IsDigit d) text := by
  simp only [← exists_readAs_iff, shaped_iff, parse_eq_ok_iff]
  constructor
  · intro h
    obtain ⟨g, text, hs, hg⟩ := h
    exact ⟨text, hs, g, hg⟩
  · intro h
    obtain ⟨text, hs, g, hg⟩ := h
    exact ⟨g, text, hs, hg⟩

/-- What is read as an identifier, and as which. Without plus signs it is just what has one or two
digits in each part. -/
theorem parse_accepts (s : String) :
    ((∃ g, parse s = .ok g) ↔ ∃ text, Padded text s.toList ∧
      Shaped (fun part => IsPart part ∨ ∃ d, part = ['+', d] ∧ IsDigit d) text) ∧
    ('+' ∉ s.toList →
      ((∃ g, parse s = .ok g) ↔ ∃ text, Padded text s.toList ∧ Shaped IsPart text)) ∧
    (∀ g, parse s = .ok g ↔ ∃ text, Padded text s.toList ∧ Written ReadAs text g) ∧
    ∀ e, parse s = .error e → e = ⟨s⟩ := by
  refine ⟨exists_parse_iff, fun hplus => ?_, fun g => parse_eq_ok_iff, fun e he => ?_⟩
  · rw [exists_parse_iff]
    refine exists_congr fun text => and_congr_right fun hs => ⟨fun h => ?_, fun h => ?_⟩
    · refine h.imp fun part hsub hpart => ?_
      rcases hpart with hpart | ⟨d, rfl, -⟩
      · exact hpart
      · exact absurd (hs.subset (hsub List.mem_cons_self)) hplus
    · exact h.imp fun part _ => .inl
  · unfold parse at he
    split at he
    · cases he
    · exact (Except.error.inj he).symm

theorem plus_not_mem_of_shaped {text s : List Char} (hs : Padded text s)
    (h : Shaped IsPart text) : '+' ∉ s := by
  obtain ⟨front, back, hfront, hback, rfl⟩ := hs
  have hblank : isBlank '+' = false := by rfl
  intro hmem
  rcases List.mem_append.mp hmem with hmem | hmem
  · rcases List.mem_append.mp hmem with hmem | hmem
    · cases hblank.symm.trans (hfront _ hmem)
    · rcases h.mem hmem with hc | hc | ⟨part, hpart, hc⟩
      · cases hc
      · cases hc
      · exact (isDigit_apart (hpart.2 _ hc)).2.2.2 rfl
  · cases hblank.symm.trans (hback _ hmem)

/-- A plus sign passes for the first of two digits. -/
theorem signed_part_read :
    (∃ g, parse "+1.0f.d8.74.8b.fc.26.98.00.00.00.00|0.0.1.3" = .ok g) ∧
      ¬ ∃ text, Padded text "+1.0f.d8.74.8b.fc.26.98.00.00.00.00|0.0.1.3".toList ∧
        Shaped IsPart text := by
  refine ⟨⟨_, rfl⟩, fun h => ?_⟩
  obtain ⟨text, hs, htext⟩ := h
  exact plus_not_mem_of_shaped hs htext List.mem_cons_self

end Guid

end BusScope
