import BusScope.Glob
import BusScope.Proofs.Text.Pieces

/-! Name patterns. What a piece of a pattern opens, and patterns that ask for a beginning. -/

namespace BusScope

namespace Glob

open Text

theorem open?_eq_some_iff {piece text rest : List Char} :
    open? piece text = some rest ↔
      ∃ head, head ++ rest = text ∧ List.Forall₂ (fun p c => fits p c = true) piece head := by
  induction piece generalizing text with
  | nil =>
    constructor
    · intro h
      exact ⟨[], (Option.some.inj h).symm, .nil⟩
    · intro h
      obtain ⟨head, rfl, hhead⟩ := h
      rw [List.forall₂_nil_left_iff.mp hhead]
      rfl
  | cons p piece ih =>
    cases text with
    | nil =>
      constructor
      · intro h
        cases h
      · intro h
        obtain ⟨head, htext, hhead⟩ := h
        rw [(List.append_eq_nil_iff.mp htext).1] at hhead
        cases hhead
    | cons c text =>
      rw [open?]
      by_cases hfits : fits p c = true
      · rw [if_pos hfits, ih]
        constructor
        · intro h
          obtain ⟨head, rfl, hhead⟩ := h
          exact ⟨c :: head, rfl, .cons hfits hhead⟩
        · intro h
          obtain ⟨_, htext, hhead⟩ := h
          obtain ⟨c', head, -, hrest, rfl⟩ := List.forall₂_cons_left_iff.mp hhead
          exact ⟨head, (List.cons.inj htext).2, hrest⟩
      · rw [if_neg hfits]
        constructor
        · intro h
          cases h
        · intro h
          obtain ⟨_, htext, hhead⟩ := h
          obtain ⟨c', head, hfits', -, rfl⟩ := List.forall₂_cons_left_iff.mp hhead
          rw [(List.cons.inj htext).1] at hfits'
          exact absurd hfits' hfits

theorem forall₂_fits_iff {piece text : List Char} (h : '?' ∉ piece) :
    List.Forall₂ (fun p c => fits p c = true) piece text ↔ piece = text := by
  induction piece generalizing text with
  | nil => rw [List.forall₂_nil_left_iff, eq_comm]
  | cons p piece ih =>
    obtain ⟨hp, hpiece⟩ := not_or.mp (mt List.mem_cons.mpr h)
    have hfits : ∀ c, fits p c = true ↔ p = c := by simp [fits, Ne.symm hp]
    cases text with
    | nil => simp
    | cons c text => rw [List.forall₂_cons, hfits, ih hpiece, List.cons.injEq]

theorem run_append_star {piece : List Char} (hstar : '*' ∉ piece) (text : List Char) :
    run (piece ++ ['*']) text = (open? piece text).isSome := by
  have hpieces : splitAt '*' (piece ++ ['*']) = [piece, []] := splitAt_append_cons hstar []
  have hlast : ∀ rest, afterStar [[]] rest = true := by
    intro rest
    simp [afterStar, closes, open?]
  unfold run
  rw [hpieces]
  dsimp only
  cases open? piece text with
  | none => rfl
  | some rest => exact hlast rest

theorem isMatch_append_star {piece : List Char} (hstar : '*' ∉ piece) (hmark : '?' ∉ piece)
    (text : String) : isMatch (String.ofList (piece ++ ['*'])) text = piece.isPrefixOf text.toList := by
  unfold isMatch
  rw [String.toList_ofList, run_append_star hstar, Bool.eq_iff_iff, Option.isSome_iff_exists,
    List.isPrefixOf_iff_prefix]
  simp only [open?_eq_some_iff, forall₂_fits_iff hmark]
  exact exists_congr fun rest => by simp

end Glob

end BusScope
