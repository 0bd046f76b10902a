import BusScope.Text.Split
import Mathlib

/-! Texts in pieces. Cutting at a separator and joining undo each other on pieces that are free of
it, and blanks around a text or between its words make no difference. -/

namespace BusScope.Text

theorem splitWhere_eq (p : Char → Bool) (s : List Char) : splitWhere p s = s.splitOnP p := by
  induction s with
  | nil => rfl
  | cons c rest ih =>
    rw [splitWhere, List.splitOnP_cons_eq_if_modifyHead, ih]
    split
    · rfl
    · obtain ⟨piece, pieces, h⟩ := List.exists_cons_of_ne_nil (List.splitOnP_ne_nil p rest)
      rw [h]
      rfl

theorem splitAt_eq (sep : Char) (s : List Char) : splitAt sep s = s.splitOn sep :=
  splitWhere_eq _ s

theorem splitAt_append_cons {sep : Char} {piece : List Char} (h : sep ∉ piece) (rest : List Char) :
    splitAt sep (piece ++ sep :: rest) = piece :: splitAt sep rest := by
  rw [splitAt_eq, splitAt_eq, List.splitOn_append_cons_self_of_not_mem h]

theorem not_mem_of_mem_splitAt {sep : Char} {s piece : List Char} (h : piece ∈ splitAt sep s) :
    sep ∉ piece := by
  induction s generalizing piece with
  | nil =>
    rw [List.mem_singleton.mp h]
    exact List.not_mem_nil
  | cons c rest ih =>
    rw [splitAt_eq, List.splitOn_eq_splitOnP, List.splitOnP_cons_eq_if_modifyHead,
      ← List.splitOn_eq_splitOnP, ← splitAt_eq] at h
    split at h
    · rcases List.mem_cons.mp h with rfl | h
      · exact List.not_mem_nil
      · exact ih h
    · next hc =>
      cases hrest : splitAt sep rest with
      | nil => rw [hrest] at h; cases h
      | cons first pieces =>
        rw [hrest] at h ih
        rcases List.mem_cons.mp h with rfl | h
        · have hne : sep ≠ c := fun he => hc (beq_iff_eq.mpr he.symm)
          exact List.not_mem_cons_of_ne_of_not_mem hne (ih List.mem_cons_self)
        · exact ih (List.mem_cons_of_mem first h)

theorem splitAt_eq_iff {sep : Char} {s : List Char} {pieces : List (List Char)} :
    splitAt sep s = pieces ↔
      pieces ≠ [] ∧ (∀ piece ∈ pieces, sep ∉ piece) ∧ join [sep] pieces = s := by
  constructor
  · intro h
    subst h
    refine ⟨?_, fun piece => not_mem_of_mem_splitAt, ?_⟩
    · rw [splitAt_eq]
      exact List.splitOn_ne_nil sep s
    · rw [splitAt_eq]
      exact List.intercalate_splitOn sep
  · intro h
    obtain ⟨hne, hfree, rfl⟩ := h
    rw [splitAt_eq]
    exact List.splitOn_intercalate sep hfree hne

theorem mem_join {sep : List Char} {pieces : List (List Char)} {c : Char}
    (h : c ∈ join sep pieces) : c ∈ sep ∨ ∃ piece ∈ pieces, c ∈ piece := by
  induction pieces with
  | nil => cases h
  | cons piece pieces ih =>
    cases pieces with
    | nil =>
      rw [join, List.intercalate_singleton] at h
      exact .inr ⟨piece, List.mem_cons_self, h⟩
    | cons next pieces =>
      rw [join, List.intercalate_cons_cons, List.append_assoc] at h
      rcases List.mem_append.mp h with h | h
      · exact .inr ⟨piece, List.mem_cons_self, h⟩
      rcases List.mem_append.mp h with h | h
      · exact .inl h
      · refine (ih h).imp_right fun hpiece => ?_
        obtain ⟨other, hmem, hc⟩ := hpiece
        exact ⟨other, List.mem_cons_of_mem piece hmem, hc⟩

theorem mem_join_of_mem {sep : List Char} {pieces : List (List Char)} {piece : List Char} {c : Char}
    (hpiece : piece ∈ pieces) (hc : c ∈ piece) : c ∈ join sep pieces := by
  induction pieces with
  | nil => cases hpiece
  | cons first pieces ih =>
    cases pieces with
    | nil =>
      rw [join, List.intercalate_singleton, ← List.mem_singleton.mp hpiece]
      exact hc
    | cons next pieces =>
      rw [join, List.intercalate_cons_cons]
      rcases List.mem_cons.mp hpiece with rfl | hpiece
      · exact List.mem_append_left _ (List.mem_append_left _ hc)
      · exact List.mem_append_right _ (ih hpiece)

theorem splitFirst?_eq_some_iff {sep : Char} {s front back : List Char} :
    splitFirst? sep s = some (front, back) ↔ sep ∉ front ∧ s = front ++ sep :: back := by
  induction s generalizing front with
  | nil => simp [splitFirst?]
  | cons c rest ih =>
    rw [splitFirst?]
    by_cases hc : c = sep
    · rw [if_pos hc]
      constructor
      · intro h
        cases h
        exact ⟨List.not_mem_nil, by rw [hc]; rfl⟩
      · intro h
        obtain ⟨hfree, heq⟩ := h
        cases front with
        | nil => rw [(List.cons.inj heq).2]
        | cons d front =>
          have hd : d = sep := (List.cons.inj heq).1.symm.trans hc
          exact absurd (hd ▸ List.mem_cons_self) hfree
    · rw [if_neg hc, Option.map_eq_some_iff]
      constructor
      · intro h
        obtain ⟨⟨front', back'⟩, hrest, heq⟩ := h
        cases heq
        obtain ⟨hfree, rfl⟩ := ih.mp hrest
        exact ⟨List.not_mem_cons_of_ne_of_not_mem (Ne.symm hc) hfree, rfl⟩
      · intro h
        obtain ⟨hfree, heq⟩ := h
        cases front with
        | nil => exact absurd (List.cons.inj heq).1 hc
        | cons d front =>
          obtain ⟨rfl, hrest⟩ := List.cons.inj heq
          have hfront : sep ∉ front := fun hmem => hfree (List.mem_cons_of_mem c hmem)
          exact ⟨(front, back), ih.mpr ⟨hfront, hrest⟩, rfl⟩

theorem splitFirst?_eq_none_iff {sep : Char} {s : List Char} :
    splitFirst? sep s = none ↔ sep ∉ s := by
  induction s with
  | nil => simp [splitFirst?]
  | cons c rest ih =>
    rw [splitFirst?]
    by_cases hc : c = sep
    · simp [hc]
    · rw [if_neg hc, Option.map_eq_none_iff, ih]
      simp [Ne.symm hc]

def Blanks (s : List Char) : Prop := ∀ c ∈ s, isBlank c = true

def Solid (s : List Char) : Prop := ∀ c ∈ s, isBlank c = false

def Padded (core s : List Char) : Prop :=
  ∃ front back, Blanks front ∧ Blanks back ∧ s = front ++ core ++ back

theorem solid_iff {s : List Char} : Solid s ↔ s.all (!isBlank ·) = true := by simp [Solid]

theorem padded_self (s : List Char) : Padded s s :=
  ⟨[], [], List.forall_mem_nil _, List.forall_mem_nil _, (List.append_nil s).symm⟩

theorem Padded.subset {core s : List Char} (h : Padded core s) : core ⊆ s := by
  obtain ⟨front, back, -, -, rfl⟩ := h
  exact List.subset_append_of_subset_left back (List.subset_append_right front core)

theorem padded_trim (s : List Char) : Padded (trim s) s := by
  refine ⟨s.takeWhile isBlank, (s.dropWhile isBlank).rtakeWhile isBlank, fun c hc => ?_,
    fun c hc => ?_, ?_⟩
  · exact List.mem_takeWhile_imp hc
  · exact List.mem_rtakeWhile_imp hc
  · show s = s.takeWhile isBlank ++ (s.dropWhile isBlank).rdropWhile isBlank ++ _
    rw [List.append_assoc, List.rdropWhile_append_rtakeWhile, List.takeWhile_append_dropWhile]

theorem dropWhile_of_solid {s : List Char} (h : Solid s) : s.dropWhile isBlank = s := by
  cases s with
  | nil => rfl
  | cons c s => rw [List.dropWhile_cons_of_neg (by simp [h c List.mem_cons_self])]

theorem trim_of_padded {core s : List Char} (hcore : Solid core) (h : Padded core s) :
    trim s = core := by
  obtain ⟨front, back, hfront, hback, rfl⟩ := h
  have hstart : trim (front ++ core ++ back) = trimEnd ((core ++ back).dropWhile isBlank) := by
    rw [trim, List.append_assoc, List.dropWhile_append_of_pos hfront]
  cases core with
  | nil =>
    rw [hstart, List.nil_append, List.dropWhile_eq_nil_iff.mpr hback]
    rfl
  | cons c core =>
    have hc : ¬ isBlank c = true := by simp [hcore c List.mem_cons_self]
    have hend : (c :: core).reverse.dropWhile isBlank = (c :: core).reverse :=
      dropWhile_of_solid fun d hd => hcore d (List.mem_reverse.mp hd)
    rw [hstart, List.cons_append, List.dropWhile_cons_of_neg hc, ← List.cons_append, trimEnd,
      List.reverse_append, List.dropWhile_append_of_pos fun d hd => hback d (List.mem_reverse.mp hd),
      hend, List.reverse_reverse]

theorem words_append_of_blanks {front : List Char} (h : Blanks front) (s : List Char) :
    words (front ++ s) = words s := by
  induction front with
  | nil => rfl
  | cons c front ih =>
    obtain ⟨hc, hfront⟩ := List.forall_mem_cons.mp h
    have hstep : splitWhere isBlank (c :: (front ++ s)) =
        [] :: splitWhere isBlank (front ++ s) := by rw [splitWhere, if_pos hc]
    show (splitWhere isBlank (c :: (front ++ s))).filter _ = _
    rw [hstep, List.filter_cons_of_neg (by simp)]
    exact ih hfront

theorem words_append_cons {word : List Char} (hword : Solid word) (hne : word ≠ []) {c : Char}
    (hc : isBlank c = true) (s : List Char) : words (word ++ c :: s) = word :: words s := by
  unfold words
  rw [splitWhere_eq, List.splitOnP_append_cons_of_forall_mem hword c hc, ← splitWhere_eq,
    List.filter_cons_of_pos (by simpa using hne)]

theorem words_of_padded {word s : List Char} (hword : Solid word) (hne : word ≠ [])
    (h : Padded word s) : words s = [word] := by
  obtain ⟨front, back, hfront, hback, rfl⟩ := h
  rw [List.append_assoc, words_append_of_blanks hfront]
  cases back with
  | nil =>
    rw [List.append_nil, words, splitWhere_eq, List.splitOnP_eq_singleton hword,
      List.filter_cons_of_pos (by simpa using hne), List.filter_nil]
  | cons c back =>
    obtain ⟨hc, hback⟩ := List.forall_mem_cons.mp hback
    have hrest : words back = [] := by
      rw [← List.append_nil back, words_append_of_blanks hback]
      rfl
    rw [words_append_cons hword hne hc, hrest]

end BusScope.Text
