import BusScope.Proofs.Glob

/-! The language of a name pattern: the texts that can be cut into consecutive pieces, one for each
character of the pattern. Taking each piece at its earliest place decides it, since whatever fits
further on leaves less of the text, and a star makes up for the difference. -/

namespace BusScope

namespace Glob

open Text

/-- A star stands for any run of characters and a question mark for any one; every character but
the star stands for itself. -/
def Stands (p : Char) (piece : List Char) : Prop :=
  p = '*' ∨ p = '?' ∧ piece.length = 1 ∨ piece = [p]

def Matches (pattern text : List Char) : Prop :=
  ∃ pieces, List.flatten pieces = text ∧ List.Forall₂ Stands pattern pieces

theorem stands_iff_fits {p : Char} (hp : p ≠ '*') {piece : List Char} :
    Stands p piece ↔ ∃ c, piece = [c] ∧ fits p c = true := by
  have hfits : ∀ c, fits p c = true ↔ p = '?' ∨ p = c := by simp [fits]
  simp only [Stands, hfits, List.length_eq_one_iff]
  constructor
  · rintro (h | ⟨h, c, rfl⟩ | rfl)
    · exact absurd h hp
    · exact ⟨c, rfl, .inl h⟩
    · exact ⟨p, rfl, .inr rfl⟩
  · rintro ⟨c, rfl, h | rfl⟩
    · exact .inr (.inl ⟨h, c, rfl⟩)
    · exact .inr (.inr rfl)

theorem matches_nil {text : List Char} : Matches [] text ↔ text = [] := by
  simp [Matches, eq_comm]

theorem matches_cons {p : Char} {pattern text : List Char} : Matches (p :: pattern) text ↔
    ∃ piece rest, text = piece ++ rest ∧ Stands p piece ∧ Matches pattern rest := by
  constructor
  · rintro ⟨pieces, rfl, h⟩
    obtain ⟨piece, more, hpiece, hmore, rfl⟩ := List.forall₂_cons_left_iff.mp h
    exact ⟨piece, more.flatten, List.flatten_cons, hpiece, more, rfl, hmore⟩
  · rintro ⟨piece, rest, rfl, hpiece, more, rfl, hmore⟩
    exact ⟨piece :: more, List.flatten_cons, .cons hpiece hmore⟩

theorem matches_star {pattern text : List Char} :
    Matches ('*' :: pattern) text ↔ ∃ rest, rest <:+ text ∧ Matches pattern rest := by
  rw [matches_cons]
  constructor
  · rintro ⟨piece, rest, rfl, -, h⟩
    exact ⟨rest, List.suffix_append piece rest, h⟩
  · rintro ⟨rest, ⟨piece, rfl⟩, h⟩
    exact ⟨piece, rest, rfl, .inl rfl, h⟩

theorem matches_star_of_suffix {pattern text rest : List Char} (hrest : rest <:+ text)
    (h : Matches ('*' :: pattern) rest) : Matches ('*' :: pattern) text := by
  obtain ⟨last, hlast, h⟩ := matches_star.mp h
  exact matches_star.mpr ⟨last, hlast.trans hrest, h⟩

theorem matches_star_cons {c : Char} {pattern text : List Char} :
    Matches ('*' :: pattern) (c :: text) ↔
      Matches pattern (c :: text) ∨ Matches ('*' :: pattern) text := by
  simp only [matches_star, List.suffix_cons_iff, or_and_right, exists_or, exists_eq_left]

theorem matches_append {piece : List Char} (hstar : '*' ∉ piece) {pattern text : List Char} :
    Matches (piece ++ pattern) text ↔ ∃ rest, open? piece text = some rest ∧ Matches pattern rest := by
  induction piece generalizing text with
  | nil => simp [open?]
  | cons p piece ih =>
    obtain ⟨hp, hpiece⟩ := not_or.mp (mt List.mem_cons.mpr hstar)
    rw [List.cons_append, matches_cons]
    simp only [stands_iff_fits (Ne.symm hp)]
    cases text with
    | nil => simp [open?]
    | cons c text =>
      constructor
      · rintro ⟨_, rest, htext, ⟨d, rfl, hd⟩, h⟩
        obtain ⟨rfl, rfl⟩ := List.cons.inj htext
        obtain ⟨last, hlast, h⟩ := (ih hpiece).mp h
        exact ⟨last, by rw [open?, if_pos hd, hlast], h⟩
      · rintro ⟨last, hlast, h⟩
        obtain ⟨hc, hlast⟩ := Option.ite_none_right_eq_some.mp hlast
        exact ⟨[c], text, rfl, ⟨c, rfl, hc⟩, (ih hpiece).mpr ⟨last, hlast, h⟩⟩

theorem matches_iff_open? {piece : List Char} (hstar : '*' ∉ piece) {text : List Char} :
    Matches piece text ↔ open? piece text = some [] := by
  have h : Matches (piece ++ []) text ↔ _ := matches_append hstar
  rw [List.append_nil] at h
  simp [h, matches_nil]

theorem matches_cons_of_ne {p c : Char} (hp : p ≠ '*') {pattern text : List Char} :
    Matches (p :: pattern) (c :: text) ↔ fits p c = true ∧ Matches pattern text := by
  have hstar : '*' ∉ [p] := by simpa using Ne.symm hp
  have h : Matches ([p] ++ pattern) (c :: text) ↔ _ := matches_append hstar
  rw [List.singleton_append] at h
  simp [h, open?]

theorem matches_star_append {piece : List Char} (hstar : '*' ∉ piece) {pattern text : List Char} :
    Matches ('*' :: (piece ++ pattern)) text ↔ ∃ here rest, here <:+ text ∧
      open? piece here = some rest ∧ Matches pattern rest := by
  simp only [matches_star, matches_append hstar, exists_and_left]

theorem matches_empty {pattern : List Char} :
    Matches pattern [] ↔ pattern.all (· == '*') = true := by
  induction pattern with
  | nil => simp [matches_nil]
  | cons p pattern ih =>
    by_cases hp : p = '*'
    · subst hp
      simp [matches_star, ih]
    · have hstar : '*' ∉ [p] := by simpa using Ne.symm hp
      have h : Matches ([p] ++ pattern) [] ↔ _ := matches_append hstar
      rw [List.singleton_append] at h
      simp [h, open?, hp]

theorem open?_append (piece more text : List Char) :
    open? (piece ++ more) text = (open? piece text).bind (open? more) := by
  induction piece generalizing text with
  | nil => rfl
  | cons p piece ih =>
    cases text with
    | nil => rfl
    | cons c text =>
      rw [List.cons_append, open?, open?, ih]
      by_cases hfits : fits p c = true <;> simp [hfits]

theorem length_of_open? {piece text rest : List Char} (h : open? piece text = some rest) :
    text.length = piece.length + rest.length := by
  obtain ⟨head, rfl, hfits⟩ := open?_eq_some_iff.mp h
  rw [List.length_append, hfits.length_eq]

theorem suffix_of_open? {piece text rest : List Char} (h : open? piece text = some rest) :
    rest <:+ text := by
  obtain ⟨head, rfl, -⟩ := open?_eq_some_iff.mp h
  exact List.suffix_append head rest

theorem suffix_of_open?_suffix {piece text later rest last : List Char} (hlater : later <:+ text)
    (hrest : open? piece text = some rest) (hlast : open? piece later = some last) :
    last <:+ rest := by
  have hlength := hlater.length_le
  have hle : last.length ≤ rest.length := by
    rw [length_of_open? hrest, length_of_open? hlast] at hlength
    omega
  exact List.suffix_of_suffix_length_le ((suffix_of_open? hlast).trans hlater)
    (suffix_of_open? hrest) hle

theorem exists_suffix_of_star {piece : List Char} (hstar : '*' ∉ piece)
    {pattern text rest : List Char} (hrest : open? piece text = some rest)
    (h : Matches ('*' :: (piece ++ pattern)) text) : ∃ last, last <:+ rest ∧ Matches pattern last := by
  obtain ⟨later, last, hlater, hlast, h⟩ := (matches_star_append hstar).mp h
  exact ⟨last, suffix_of_open?_suffix hlater hrest hlast, h⟩

theorem matches_star_of_open? {piece : List Char} (hstar : '*' ∉ piece)
    {pattern text rest : List Char} (hrest : open? piece text = some rest)
    (h : Matches pattern rest) : Matches ('*' :: (piece ++ pattern)) text :=
  (matches_star_append hstar).mpr ⟨text, rest, List.suffix_refl text, hrest, h⟩

/-- With another star to come, the earliest place is as good as any. -/
theorem matches_star_iff_of_open? {piece : List Char} (hstar : '*' ∉ piece)
    {pattern text rest : List Char} (hrest : open? piece text = some rest) :
    Matches ('*' :: (piece ++ '*' :: pattern)) text ↔ Matches ('*' :: pattern) rest := by
  constructor
  · intro h
    obtain ⟨last, hlast, h⟩ := exists_suffix_of_star hstar hrest h
    exact matches_star_of_suffix hlast h
  · exact matches_star_of_open? hstar hrest

def starred (pieces : List (List Char)) : List Char := pieces.flatMap fun piece => '*' :: piece

theorem splitAt_star (pattern : List Char) : ∃ first rest, splitAt '*' pattern = first :: rest ∧
    pattern = first ++ starred rest ∧ '*' ∉ first ∧ ∀ piece ∈ rest, '*' ∉ piece := by
  induction pattern with
  | nil => exact ⟨[], [], rfl, rfl, List.not_mem_nil, by simp⟩
  | cons p pattern ih =>
    obtain ⟨first, rest, hsplit, hpattern, hfirst, hrest⟩ := ih
    have hstep : splitAt '*' (p :: pattern) =
        if p == '*' then [] :: splitAt '*' pattern else consFirst p (splitAt '*' pattern) := rfl
    rw [hstep, hsplit]
    by_cases hp : p = '*'
    · refine ⟨[], first :: rest, by simp [hp], ?_, List.not_mem_nil, ?_⟩
      · simp [starred, hp, hpattern]
      · exact List.forall_mem_cons.mpr ⟨hfirst, hrest⟩
    · refine ⟨p :: first, rest, by simp [hp, consFirst], by simp [hpattern], ?_, hrest⟩
      exact fun h => (List.mem_cons.mp h).elim (fun he => hp he.symm) hfirst

theorem seek?_eq_some {piece text rest : List Char} (h : seek? piece text = some rest) :
    ∃ here, here <:+ text ∧ open? piece here = some rest ∧
      ∀ later, later <:+ text → (open? piece later).isSome = true → later <:+ here := by
  induction text with
  | nil => exact ⟨[], List.suffix_refl [], h, fun later hlater _ => hlater⟩
  | cons c text ih =>
    rcases Option.or_eq_some_iff.mp h with h | ⟨hnone, h⟩
    · exact ⟨c :: text, List.suffix_refl _, h, fun later hlater _ => hlater⟩
    · obtain ⟨here, hhere, hrest, hfirst⟩ := ih h
      refine ⟨here, hhere.trans (List.suffix_cons c text), hrest, fun later hlater hopens => ?_⟩
      rcases List.suffix_cons_iff.mp hlater with rfl | hlater
      · rw [hnone] at hopens
        cases hopens
      · exact hfirst later hlater hopens

theorem seek?_eq_none {piece text : List Char} (h : seek? piece text = none) :
    ∀ later, later <:+ text → open? piece later = none := by
  induction text with
  | nil =>
    intro later hlater
    rw [List.suffix_nil.mp hlater]
    exact h
  | cons c text ih =>
    obtain ⟨hnone, h⟩ := Option.or_eq_none_iff.mp h
    intro later hlater
    rcases List.suffix_cons_iff.mp hlater with rfl | hlater
    · exact hnone
    · exact ih h later hlater

theorem closes_iff {piece text : List Char} (hstar : '*' ∉ piece) :
    closes piece text = true ↔ Matches ('*' :: piece) text := by
  simp only [matches_star, matches_iff_open? hstar, closes, Bool.and_eq_true, decide_eq_true_eq,
    beq_iff_eq]
  constructor
  · rintro ⟨-, h⟩
    exact ⟨_, List.drop_suffix _ text, h⟩
  · rintro ⟨rest, hrest, h⟩
    have hlength := length_of_open? h
    have hle := hrest.length_le
    have hdrop := List.suffix_iff_eq_drop.mp hrest
    rw [List.length_nil, Nat.add_zero] at hlength
    rw [hlength] at hle hdrop
    exact ⟨hle, hdrop ▸ h⟩

theorem afterStar_iff {pieces : List (List Char)} (hstar : ∀ piece ∈ pieces, '*' ∉ piece)
    (text : List Char) : afterStar pieces text = true ↔ Matches (starred pieces) text := by
  induction pieces generalizing text with
  | nil => simp [afterStar, starred, matches_nil]
  | cons piece rest ih =>
    obtain ⟨hpiece, hrest⟩ := List.forall_mem_cons.mp hstar
    cases rest with
    | nil =>
      have hlast : starred [piece] = '*' :: piece := by simp [starred]
      rw [hlast]
      exact closes_iff hpiece
    | cons next rest =>
      have hnext : starred (piece :: next :: rest) =
          '*' :: (piece ++ '*' :: (next ++ starred rest)) := by simp [starred]
      have hmore : starred (next :: rest) = '*' :: (next ++ starred rest) := by simp [starred]
      rw [afterStar, hnext]
      · cases hseek : seek? piece text with
        | none =>
          refine iff_of_false Bool.false_ne_true fun h => ?_
          obtain ⟨later, last, hlater, hlast, -⟩ := (matches_star_append hpiece).mp h
          rw [seek?_eq_none hseek later hlater] at hlast
          cases hlast
        | some left =>
          obtain ⟨here, hhere, hleft, hfirst⟩ := seek?_eq_some hseek
          rw [ih hrest, hmore, ← matches_star_iff_of_open? hpiece hleft]
          refine ⟨matches_star_of_suffix hhere, fun h => ?_⟩
          obtain ⟨later, last, hlater, hlast, h⟩ := (matches_star_append hpiece).mp h
          have hbefore := hfirst later hlater (Option.isSome_iff_exists.mpr ⟨last, hlast⟩)
          exact (matches_star_append hpiece).mpr ⟨later, last, hbefore, hlast, h⟩
      · simp

theorem run_iff_matches (pattern text : List Char) :
    run pattern text = true ↔ Matches pattern text := by
  obtain ⟨first, rest, hsplit, hpattern, hfirst, hrest⟩ := splitAt_star pattern
  rw [run, hsplit, hpattern, matches_append hfirst]
  cases rest with
  | nil => simp [starred, matches_nil]
  | cons piece rest =>
    dsimp only
    cases open? first text with
    | none => simp
    | some left => simp [afterStar_iff hrest]

theorem matches_iff_eq {pattern : List Char} (hstar : '*' ∉ pattern) (hmark : '?' ∉ pattern)
    {text : List Char} : Matches pattern text ↔ pattern = text := by
  simp [matches_iff_open? hstar, open?_eq_some_iff, forall₂_fits_iff hmark]

end Glob

end BusScope
