import BusScope.Text.Split
import Mathlib

/-! Texts cut at pairs of a separator. Pairs are taken from the left, so that a piece in front of a
cut may begin with a single separator but not end with one. Pieces of this kind are the ones that
cutting gives, and joining them undoes it. -/

namespace BusScope.Text

/-- Nowhere are there two separators in a row. -/
def Unpaired (sep : Char) (s : List Char) : Prop := ¬ [sep, sep] <:+: s

/-- No piece has a pair in it, not even with the first separator of the cut behind it. -/
def CutAtPairs (sep : Char) : List (List Char) → Prop
  | [] => False
  | [last] => Unpaired sep last
  | piece :: next :: rest => Unpaired sep (piece ++ [sep]) ∧ CutAtPairs sep (next :: rest)

variable {sep : Char}

namespace Unpaired

theorem of_part {s t : List Char} (h : Unpaired sep t) (hst : s <:+: t) : Unpaired sep s :=
  fun hs => h (hs.trans hst)

theorem nil : Unpaired sep [] := by simp [Unpaired]

theorem singleton (c : Char) : Unpaired sep [c] := by
  intro h
  have hle : 2 ≤ 1 := h.length_le
  omega

theorem cons_cons_iff {c d : Char} {s : List Char} :
    Unpaired sep (c :: d :: s) ↔ ¬ (c = sep ∧ d = sep) ∧ Unpaired sep (d :: s) := by
  unfold Unpaired
  rw [List.infix_cons_iff, List.cons_prefix_cons, List.cons_prefix_cons, not_or]
  simp [eq_comm]

theorem cons_of_ne {c : Char} (hc : c ≠ sep) {s : List Char} (h : Unpaired sep s) :
    Unpaired sep (c :: s) := by
  cases s with
  | nil => exact singleton c
  | cons d s => exact cons_cons_iff.mpr ⟨fun hcd => hc hcd.1, h⟩

theorem append_cons {a b : List Char} (ha : Unpaired sep a) {c : Char} (hc : c ≠ sep)
    (hb : Unpaired sep b) : Unpaired sep (a ++ c :: b) := by
  induction a with
  | nil => exact hb.cons_of_ne hc
  | cons x a ih =>
    cases a with
    | nil => exact cons_cons_iff.mpr ⟨fun hxc => hc hxc.2, ih nil⟩
    | cons y a =>
      obtain ⟨hxy, ha⟩ := cons_cons_iff.mp ha
      exact cons_cons_iff.mpr ⟨hxy, ih ha⟩

theorem append_of_not_mem {a b : List Char} (ha : sep ∉ a) (hb : Unpaired sep b) :
    Unpaired sep (a ++ b) := by
  induction a with
  | nil => exact hb
  | cons x a ih =>
    obtain ⟨hx, ha⟩ := List.ne_and_not_mem_of_not_mem_cons ha
    exact (ih ha).cons_of_ne hx.symm

theorem of_join {c : Char} (hc : c ≠ sep) {pieces : List (List Char)}
    (h : ∀ piece ∈ pieces, Unpaired sep piece) : Unpaired sep (join [c] pieces) := by
  induction pieces with
  | nil => exact nil
  | cons piece pieces ih =>
    obtain ⟨hpiece, hpieces⟩ := List.forall_mem_cons.mp h
    cases pieces with
    | nil =>
      rw [join, List.intercalate_singleton]
      exact hpiece
    | cons next pieces =>
      rw [join, List.intercalate_cons_cons, List.append_assoc]
      exact hpiece.append_cons hc (ih hpieces)

end Unpaired

namespace CutAtPairs

theorem ne_nil {pieces : List (List Char)} (h : CutAtPairs sep pieces) : pieces ≠ [] := by
  rintro rfl
  exact h

theorem unpaired {pieces : List (List Char)} (h : CutAtPairs sep pieces) :
    ∀ piece ∈ pieces, Unpaired sep piece := by
  induction pieces with
  | nil => exact h.elim
  | cons piece pieces ih =>
    cases pieces with
    | nil => exact List.forall_mem_singleton.mpr h
    | cons next rest =>
      exact List.forall_mem_cons.mpr ⟨h.1.of_part (List.prefix_append _ _).isInfix, ih h.2⟩

theorem of_not_mem {pieces : List (List Char)} (hne : pieces ≠ [])
    (h : ∀ piece ∈ pieces, sep ∉ piece) : CutAtPairs sep pieces := by
  induction pieces with
  | nil => exact absurd rfl hne
  | cons piece pieces ih =>
    obtain ⟨hpiece, hpieces⟩ := List.forall_mem_cons.mp h
    cases pieces with
    | nil =>
      have hlast : Unpaired sep (piece ++ []) := Unpaired.nil.append_of_not_mem hpiece
      rwa [List.append_nil] at hlast
    | cons next rest =>
      exact ⟨(Unpaired.singleton sep).append_of_not_mem hpiece, ih (List.cons_ne_nil _ _) hpieces⟩

theorem consFirst {pieces : List (List Char)} (h : CutAtPairs sep pieces) {c d : Char}
    {rest : List Char} (hjoin : join [sep, sep] pieces = d :: rest) (hcd : ¬ (c = sep ∧ d = sep)) :
    CutAtPairs sep (consFirst c pieces) := by
  cases pieces with
  | nil => exact h.elim
  | cons piece pieces =>
    cases pieces with
    | nil =>
      rw [join, List.intercalate_singleton] at hjoin
      subst hjoin
      exact Unpaired.cons_cons_iff.mpr ⟨hcd, h⟩
    | cons next pieces =>
      rw [join, List.intercalate_cons_cons, List.append_assoc] at hjoin
      obtain ⟨hpiece, hrest⟩ := h
      refine ⟨?_, hrest⟩
      cases piece with
      | nil =>
        have hd : sep = d := (List.cons.inj hjoin).1
        exact Unpaired.cons_cons_iff.mpr ⟨fun h => hcd ⟨h.1, hd.symm⟩, hpiece⟩
      | cons x piece =>
        have hd : x = d := (List.cons.inj hjoin).1
        exact Unpaired.cons_cons_iff.mpr ⟨hd ▸ hcd, hpiece⟩

end CutAtPairs

theorem join_consFirst (sep : List Char) (c : Char) {pieces : List (List Char)} (h : pieces ≠ []) :
    join sep (consFirst c pieces) = c :: join sep pieces := by
  obtain ⟨piece, pieces, rfl⟩ := List.exists_cons_of_ne_nil h
  cases pieces with
  | nil => simp [join, consFirst]
  | cons next pieces => simp [join, consFirst, List.intercalate_cons_cons]

theorem splitPairs_spec (s : List Char) :
    CutAtPairs sep (splitPairs sep s) ∧ join [sep, sep] (splitPairs sep s) = s := by
  induction s using splitPairs.induct sep with
  | case1 => exact ⟨.nil, rfl⟩
  | case2 c => exact ⟨.singleton c, by simp [splitPairs, join]⟩
  | case3 c d rest hcd ih =>
    obtain ⟨hcut, hjoin⟩ := ih
    obtain ⟨piece, pieces, hpieces⟩ := List.exists_cons_of_ne_nil hcut.ne_nil
    rw [splitPairs, if_pos hcd, hpieces]
    rw [hpieces] at hcut hjoin
    refine ⟨⟨.singleton sep, hcut⟩, ?_⟩
    rw [join, List.intercalate_cons_cons, ← join, hjoin, hcd.1, hcd.2]
    rfl
  | case4 c d rest hcd ih =>
    obtain ⟨hcut, hjoin⟩ := ih
    rw [splitPairs, if_neg hcd]
    exact ⟨hcut.consFirst hjoin hcd, by rw [join_consFirst _ _ hcut.ne_nil, hjoin]⟩

theorem splitPairs_of_unpaired {s : List Char} (h : Unpaired sep s) : splitPairs sep s = [s] := by
  induction s using splitPairs.induct sep with
  | case1 => rfl
  | case2 c => rfl
  | case3 c d rest hcd ih => exact absurd hcd (Unpaired.cons_cons_iff.mp h).1
  | case4 c d rest hcd ih =>
    rw [splitPairs, if_neg hcd, ih (Unpaired.cons_cons_iff.mp h).2]
    rfl

theorem splitPairs_append {piece : List Char} (h : Unpaired sep (piece ++ [sep]))
    (rest : List Char) :
    splitPairs sep (piece ++ sep :: sep :: rest) = piece :: splitPairs sep rest := by
  induction piece with
  | nil => rw [List.nil_append, splitPairs, if_pos ⟨rfl, rfl⟩]
  | cons c piece ih =>
    cases piece with
    | nil =>
      obtain ⟨hc, hsep⟩ := Unpaired.cons_cons_iff.mp h
      rw [List.cons_append, List.nil_append, splitPairs, if_neg hc]
      exact congrArg (Text.consFirst c) (ih hsep)
    | cons d piece =>
      obtain ⟨hcd, hpiece⟩ := Unpaired.cons_cons_iff.mp h
      rw [List.cons_append, List.cons_append, splitPairs, if_neg hcd]
      exact congrArg (Text.consFirst c) (ih hpiece)

theorem splitPairs_eq_iff {s : List Char} {pieces : List (List Char)} :
    splitPairs sep s = pieces ↔ CutAtPairs sep pieces ∧ join [sep, sep] pieces = s := by
  constructor
  · intro h
    exact h ▸ splitPairs_spec s
  · intro h
    obtain ⟨hcut, rfl⟩ := h
    induction pieces with
    | nil => exact hcut.elim
    | cons piece pieces ih =>
      cases pieces with
      | nil =>
        rw [join, List.intercalate_singleton]
        exact splitPairs_of_unpaired hcut
      | cons next pieces =>
        obtain ⟨hpiece, hrest⟩ := hcut
        have hsplit := splitPairs_append hpiece (join [sep, sep] (next :: pieces))
        rw [ih hrest] at hsplit
        rw [join, List.intercalate_cons_cons, List.append_assoc]
        exact hsplit

end BusScope.Text
