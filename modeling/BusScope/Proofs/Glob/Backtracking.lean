import BusScope.Proofs.Glob.Language
import BusScope.TopicFilter

/-! The same language decided by one scan over pattern and text that goes back to the last star and
to no earlier one. The scan comes to an end, never looks outside of either text, and agrees with the
decision by pieces. -/

namespace BusScope

namespace Glob

/-- Where the scan is in the pattern and in the text; and of the last star, its place in the pattern
and the place in the text from which what follows it is tried. -/
structure Scan where
  inPattern : Nat
  inText : Nat
  star : Option (Nat × Nat)

inductive Turn where
  | next (s : Scan)
  | answer (b : Bool)
  | outOfRange

namespace Scan

def start : Scan := ⟨0, 0, none⟩

def goBack (s : Scan) : Turn :=
  match s.star with
  | some (p, t) => .next ⟨p + 1, t + 1, some (p, t + 1)⟩
  | none => .answer false

def turn (pattern text : List Char) (s : Scan) : Turn :=
  if s.inText < text.length then
    match pattern[s.inPattern]? with
    | none => s.goBack
    | some p =>
      if p = '*' then .next ⟨s.inPattern + 1, s.inText, some (s.inPattern, s.inText)⟩
      else match text[s.inText]? with
        | none => .outOfRange
        | some c =>
          if fits p c then .next ⟨s.inPattern + 1, s.inText + 1, s.star⟩ else s.goBack
  else if s.inPattern ≤ pattern.length then
    .answer ((pattern.drop s.inPattern).all (· == '*'))
  else .outOfRange

def after (pattern text : List Char) : Nat → Scan → Turn
  | 0, s => .next s
  | n + 1, s =>
    match s.turn pattern text with
    | .next s' => after pattern text n s'
    | done => done

/-- What is left to match: from the last star on, or else from here. -/
def Pending (pattern text : List Char) (s : Scan) : Prop :=
  match s.star with
  | some (p, t) => Matches (pattern.drop p) (text.drop t)
  | none => Matches (pattern.drop s.inPattern) (text.drop s.inText)

structure Coherent (pattern text : List Char) (s : Scan) : Prop where
  inPattern : s.inPattern ≤ pattern.length
  inText : s.inText ≤ text.length
  star : ∀ p t, s.star = some (p, t) → t ≤ s.inText ∧ ∃ piece, '*' ∉ piece ∧
    pattern.drop p = '*' :: (piece ++ pattern.drop s.inPattern) ∧
    open? piece (text.drop t) = some (text.drop s.inText)

def room (text : List Char) (s : Scan) : Nat :=
  s.star.elim (text.length + 1) fun place => text.length - place.2

/-- What the turns use up, of what is rarely used up first. -/
def rank (pattern text : List Char) (s : Scan) : Nat ×ₗ Nat ×ₗ Nat :=
  toLex (s.room text, toLex (text.length - s.inText, pattern.length - s.inPattern))

theorem rank_lt_iff {pattern text : List Char} {s s' : Scan} :
    s'.rank pattern text < s.rank pattern text ↔ s'.room text < s.room text ∨
      s'.room text = s.room text ∧ (text.length - s'.inText < text.length - s.inText ∨
        text.length - s'.inText = text.length - s.inText ∧
          pattern.length - s'.inPattern < pattern.length - s.inPattern) := by
  simp only [rank, Prod.Lex.toLex_lt_toLex]

/-- A turn is sound if it goes on from a coherent state with as much left to match, but with less
to use up, or else answers whether what was left to match does match. -/
def Sound (pattern text : List Char) (s : Scan) : Turn → Prop
  | .next s' => s'.Coherent pattern text ∧
      (s'.Pending pattern text ↔ s.Pending pattern text) ∧
      s'.rank pattern text < s.rank pattern text
  | .answer b => b = true ↔ s.Pending pattern text
  | .outOfRange => False

theorem of_drop_eq_cons {l rest : List Char} {n : Nat} {c : Char} (h : l.drop n = c :: rest) :
    n < l.length ∧ l.drop (n + 1) = rest := by
  constructor
  · by_contra hn
    rw [List.drop_eq_nil_of_le (Nat.le_of_not_lt hn)] at h
    cases h
  · rw [← List.tail_drop, h, List.tail_cons]

namespace Coherent

variable {pattern text : List Char} {s : Scan}

theorem pending_of_matches (h : s.Coherent pattern text)
    (hm : Matches (pattern.drop s.inPattern) (text.drop s.inText)) : s.Pending pattern text := by
  unfold Pending
  split
  · next p t hs =>
    obtain ⟨-, piece, hpiece, hp, hopen⟩ := h.star p t hs
    rw [hp]
    exact matches_star_of_open? hpiece hopen hm
  · exact hm

theorem exists_suffix_of_pending (h : s.Coherent pattern text) (hm : s.Pending pattern text) :
    ∃ last, last <:+ text.drop s.inText ∧ Matches (pattern.drop s.inPattern) last := by
  unfold Pending at hm
  split at hm
  · next p t hs =>
    obtain ⟨-, piece, hpiece, hp, hopen⟩ := h.star p t hs
    rw [hp] at hm
    exact exists_suffix_of_star hpiece hopen hm
  · exact ⟨_, List.suffix_refl _, hm⟩

theorem sound_goBack (h : s.Coherent pattern text) (htext : s.inText < text.length)
    (hno : ¬ Matches (pattern.drop s.inPattern) (text.drop s.inText)) :
    Sound pattern text s s.goBack := by
  unfold goBack
  split
  · next p t hs =>
    obtain ⟨hle, piece, hpiece, hp, hopen⟩ := h.star p t hs
    have hlt : t < text.length := by omega
    obtain ⟨hin, hafter⟩ := of_drop_eq_cons hp
    refine ⟨⟨hin, hlt, ?_⟩, ?_, rank_lt_iff.mpr (.inl ?_)⟩
    · rintro _ _ ⟨rfl, rfl⟩
      exact ⟨Nat.le_refl _, [], List.not_mem_nil, by rw [hp, hafter]; rfl, rfl⟩
    · -- What follows the star was tried from the place in vain.
      have hnot : ¬ Matches (piece ++ pattern.drop s.inPattern) (text.drop t) := by
        rw [matches_append hpiece, hopen]
        simpa using hno
      simp only [Pending, hs, hp]
      rw [List.drop_eq_getElem_cons hlt] at hnot ⊢
      rw [matches_star_cons, or_iff_right hnot]
    · simp only [room, hs, Option.elim_some]
      omega
  · next hs =>
    refine iff_of_false Bool.false_ne_true ?_
    simpa only [Pending, hs] using hno

/-- A new star is as good as the last one together with all that was matched since. -/
theorem sound_star (h : s.Coherent pattern text) {rest : List Char}
    (hp : pattern.drop s.inPattern = '*' :: rest) :
    Sound pattern text s
      (.next ⟨s.inPattern + 1, s.inText, some (s.inPattern, s.inText)⟩) := by
  obtain ⟨hin, hafter⟩ := of_drop_eq_cons hp
  have htext := h.inText
  refine ⟨⟨hin, htext, ?_⟩, ?_, rank_lt_iff.mpr ?_⟩
  · rintro _ _ ⟨rfl, rfl⟩
    exact ⟨Nat.le_refl _, [], List.not_mem_nil, by rw [hp, hafter]; rfl, rfl⟩
  · cases hs : s.star with
    | none => simp only [Pending, hs]
    | some place =>
      obtain ⟨-, piece, hpiece, hstar, hopen⟩ := h.star place.1 place.2 hs
      simp only [Pending, hs, hstar, hp]
      exact (matches_star_iff_of_open? hpiece hopen).symm
  · cases hs : s.star with
    | none =>
      simp only [room, hs, Option.elim_some, Option.elim_none]
      omega
    | some place =>
      obtain ⟨hle, -⟩ := h.star place.1 place.2 hs
      simp only [room, hs, Option.elim_some, lt_irrefl, false_or, true_and]
      omega

theorem sound_fits (h : s.Coherent pattern text) {p c : Char} {rest left : List Char}
    (hp : pattern.drop s.inPattern = p :: rest) (hc : text.drop s.inText = c :: left)
    (hstar : p ≠ '*') (hfits : fits p c = true) :
    Sound pattern text s (.next ⟨s.inPattern + 1, s.inText + 1, s.star⟩) := by
  obtain ⟨hin, hafter⟩ := of_drop_eq_cons hp
  obtain ⟨htext, hleft⟩ := of_drop_eq_cons hc
  refine ⟨⟨hin, htext, ?_⟩, ?_, rank_lt_iff.mpr (.inr ⟨rfl, .inl ?_⟩)⟩
  · intro p' t hs
    obtain ⟨hle, piece, hpiece, hdrop, hopen⟩ := h.star p' t hs
    refine ⟨Nat.le_succ_of_le hle, piece ++ [p], by simp [hpiece, Ne.symm hstar], ?_, ?_⟩
    · rw [hdrop, hp, hafter]
      simp
    · rw [open?_append, hopen, hc, hleft]
      simp [open?, hfits]
  · cases hs : s.star with
    | none =>
      simp only [Pending, hs, hp, hc, hafter, hleft]
      rw [matches_cons_of_ne hstar, and_iff_right hfits]
    | some place => simp only [Pending, hs]
  · show text.length - (s.inText + 1) < text.length - s.inText
    omega

theorem sound_end (h : s.Coherent pattern text) (htext : text.length ≤ s.inText) :
    Sound pattern text s (.answer ((pattern.drop s.inPattern).all (· == '*'))) := by
  have hnil : text.drop s.inText = [] := List.drop_eq_nil_of_le htext
  show _ ↔ _
  rw [← matches_empty]
  constructor
  · intro hm
    exact h.pending_of_matches (hnil ▸ hm)
  · intro hm
    obtain ⟨last, hlast, hm⟩ := h.exists_suffix_of_pending hm
    rw [hnil] at hlast
    rwa [List.suffix_nil.mp hlast] at hm

theorem sound_turn (h : s.Coherent pattern text) :
    Sound pattern text s (s.turn pattern text) := by
  unfold turn
  split
  · next htext =>
    have hc := List.drop_eq_getElem_cons htext
    split
    · next hnone =>
      refine h.sound_goBack htext ?_
      rw [List.drop_eq_nil_of_le (List.getElem?_eq_none_iff.mp hnone), matches_nil, hc]
      exact List.cons_ne_nil _ _
    · next p hsome =>
      obtain ⟨hin, rfl⟩ := List.getElem?_eq_some_iff.mp hsome
      have hp := List.drop_eq_getElem_cons hin
      split
      · next hstar => exact h.sound_star (hstar ▸ hp)
      · next hstar =>
        rw [List.getElem?_eq_getElem htext]
        dsimp only
        split
        · next hfits => exact h.sound_fits hp hc hstar hfits
        · next hfits =>
          refine h.sound_goBack htext ?_
          rw [hp, hc, matches_cons_of_ne hstar]
          exact fun hm => hfits hm.1
  · next htext =>
    rw [if_pos h.inPattern]
    exact h.sound_end (Nat.le_of_not_lt htext)

theorem exists_answer (h : s.Coherent pattern text) :
    ∃ turns b, s.after pattern text turns = .answer b ∧ (b = true ↔ s.Pending pattern text) := by
  -- On what the turns use up; what is left to match stays the same.
  generalize hr : s.rank pattern text = r
  induction r using WellFoundedLT.induction generalizing s with
  | ind r ih =>
    have hsound := h.sound_turn
    cases hturn : s.turn pattern text with
    | next s' =>
      rw [hturn] at hsound
      obtain ⟨hnext, hpending, hlt⟩ := hsound
      obtain ⟨turns, b, hafter, hb⟩ := ih _ (hr ▸ hlt) hnext rfl
      exact ⟨turns + 1, b, by rw [after, hturn]; exact hafter, hb.trans hpending⟩
    | answer b =>
      rw [hturn] at hsound
      exact ⟨1, b, by rw [after, hturn], hsound⟩
    | outOfRange =>
      rw [hturn] at hsound
      exact hsound.elim

theorem after_ne_outOfRange (h : s.Coherent pattern text) (turns : Nat) :
    s.after pattern text turns ≠ .outOfRange := by
  induction turns generalizing s with
  | zero => nofun
  | succ turns ih =>
    have hsound := h.sound_turn
    cases hturn : s.turn pattern text with
    | next s' =>
      rw [hturn] at hsound
      rw [after, hturn]
      exact ih hsound.1
    | answer b =>
      rw [after, hturn]
      nofun
    | outOfRange =>
      rw [hturn] at hsound
      exact hsound.elim

end Coherent

theorem coherent_start (pattern text : List Char) : start.Coherent pattern text :=
  ⟨Nat.zero_le _, Nat.zero_le _, nofun⟩

end Scan

/-- A pattern accepts exactly the texts of its language, and the scan finds that out: it comes to an
end, and on no turn does it look outside of the pattern or of the text. -/
theorem isMatch_decides (pattern text : String) :
    (isMatch pattern text = true ↔ Matches pattern.toList text.toList) ∧
    (∃ turns, Scan.start.after pattern.toList text.toList turns =
      .answer (isMatch pattern text)) ∧
    (∀ turns, Scan.start.after pattern.toList text.toList turns ≠ .outOfRange) ∧
    (TopicFilter.isWild pattern = false → (isMatch pattern text = true ↔ pattern = text)) := by
  have hcoherent := Scan.coherent_start pattern.toList text.toList
  have hmatch : isMatch pattern text = true ↔ Matches pattern.toList text.toList :=
    run_iff_matches _ _
  refine ⟨hmatch, ?_, hcoherent.after_ne_outOfRange, fun hwild => ?_⟩
  · obtain ⟨turns, b, hafter, hb⟩ := hcoherent.exists_answer
    have hsame : b = isMatch pattern text := Bool.eq_iff_iff.mpr (hb.trans hmatch.symm)
    exact ⟨turns, hsame ▸ hafter⟩
  · have hplain : '*' ∉ pattern.toList ∧ '?' ∉ pattern.toList := by
      simp only [TopicFilter.isWild, List.any_eq_false, Bool.or_eq_true, beq_iff_eq, not_or] at hwild
      exact ⟨fun h => (hwild _ h).1 rfl, fun h => (hwild _ h).2 rfl⟩
    rw [hmatch, matches_iff_eq hplain.1 hplain.2, String.toList_inj]

end Glob

end BusScope
