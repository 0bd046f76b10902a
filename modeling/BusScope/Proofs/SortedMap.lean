import BusScope.SortedMap
import Mathlib

/-! Sorted maps by their lookups: what each operation does to a lookup, and that the entries are
just what can be looked up. -/

namespace BusScope

universe u v

variable {κ : Type u} {ν : Type v} [Ord κ]

namespace SortedList

theorem ofList_append_singleton (l : List (κ × ν)) (e : κ × ν) :
    ofList (l ++ [e]) = insert e.1 e.2 (ofList l) := by
  simp [ofList]

theorem mem_of_mem_ofList {e : κ × ν} {l : List (κ × ν)} (h : e ∈ ofList l) : e ∈ l := by
  induction l using List.reverseRecOn with
  | nil => exact absurd h List.not_mem_nil
  | append_singleton l a ih =>
    rw [ofList_append_singleton] at h
    rcases mem_insert h with rfl | h
    · exact List.mem_append_right _ (List.mem_singleton_self _)
    · exact List.mem_append_left _ (ih h)

variable [Std.LawfulEqOrd κ]

theorem mem_of_find? {k : κ} {v : ν} {l : List (κ × ν)} (h : find? k l = some v) :
    (k, v) ∈ l := by
  induction l with
  | nil => simp [find?] at h
  | cons e rest ih =>
    obtain ⟨k', v'⟩ := e
    rw [find?] at h
    split at h
    · next hk =>
      have hk : k = k' := Std.LawfulEqOrd.eq_of_compare hk
      rw [hk, Option.some.inj h]
      exact List.mem_cons_self
    · exact List.mem_cons_of_mem _ (ih h)

theorem find?_of_mem {k : κ} {v : ν} {l : List (κ × ν)} (hn : (l.map (·.1)).Nodup)
    (h : (k, v) ∈ l) : find? k l = some v := by
  induction l with
  | nil => exact absurd h List.not_mem_nil
  | cons e rest ih =>
    obtain ⟨k', v'⟩ := e
    obtain ⟨hk', hrest⟩ := List.nodup_cons.mp hn
    rw [find?]
    rcases List.mem_cons.mp h with he | hm
    · obtain ⟨rfl, rfl⟩ := Prod.mk.inj he
      simp
    · have hne : ¬ compare k k' = .eq := by
        intro hc
        have hc : k = k' := Std.LawfulEqOrd.eq_of_compare hc
        exact hk' (hc ▸ List.mem_map_of_mem (f := (·.1)) hm)
      rw [if_neg hne]
      exact ih hrest hm

theorem find?_ofList (k : κ) (l : List (κ × ν)) : find? k (ofList l) = find? k l.reverse := by
  induction l using List.reverseRecOn with
  | nil => rfl
  | append_singleton l e ih => simp [ofList_append_singleton, find?_insert, ih, find?]

theorem find?_ofList_of_mem {k : κ} {v : ν} {l : List (κ × ν)} (hn : (l.map (·.1)).Nodup)
    (h : (k, v) ∈ l) : find? k (ofList l) = some v := by
  rw [find?_ofList]
  refine find?_of_mem ?_ (List.mem_reverse.mpr h)
  rw [List.map_reverse]
  exact List.nodup_reverse.mpr hn

theorem nodup_of_sorted {l : List (κ × ν)} (h : Sorted l) : (l.map (·.1)).Nodup := by
  unfold Sorted at h
  refine List.pairwise_map.mpr (h.imp fun {a b} hab he => ?_)
  rw [he, Std.ReflOrd.compare_self] at hab
  exact absurd hab (by decide)

theorem mem_iff_find? {k : κ} {v : ν} {l : List (κ × ν)} (h : Sorted l) :
    (k, v) ∈ l ↔ find? k l = some v :=
  ⟨find?_of_mem (nodup_of_sorted h), mem_of_find?⟩

end SortedList

namespace SortedMap

theorem contains_iff {m : SortedMap κ ν} {k : κ} :
    m.contains k = true ↔ ∃ v, m.find? k = some v := Option.isSome_iff_exists

variable [Std.LawfulEqOrd κ]

theorem mem_entries {m : SortedMap κ ν} {k : κ} {v : ν} :
    (k, v) ∈ m.entries ↔ m.find? k = some v :=
  SortedList.mem_iff_find? m.sorted

theorem find?_insert [DecidableEq κ] [Std.TransOrd κ] (m : SortedMap κ ν) (k q : κ) (v : ν) :
    (m.insert k v).find? q = if q = k then some v else m.find? q := by
  show SortedList.find? q (SortedList.insert k v m.entries) = _
  rw [SortedList.find?_insert]
  by_cases h : q = k
  · simp [h]
  · rw [if_neg h, if_neg (mt Std.LawfulEqOrd.eq_of_compare h)]
    rfl

theorem find?_erase [DecidableEq κ] (m : SortedMap κ ν) (k q : κ) :
    (m.erase k).find? q = if q = k then none else m.find? q := by
  show SortedList.find? q (SortedList.erase k m.entries) = _
  rw [SortedList.find?_erase]
  by_cases h : q = k
  · simp [h]
  · rw [if_neg h, if_neg (fun hc => h (Std.LawfulEqOrd.eq_of_compare hc).symm)]
    rfl

theorem find?_mapValues {ν' : Type v} (m : SortedMap κ ν) (f : κ → ν → ν') (k : κ) :
    (m.mapValues f).find? k = (m.find? k).map (f k) := by
  ext v'
  rw [← mem_entries, Option.map_eq_some_iff]
  constructor
  · intro h
    obtain ⟨⟨k', v⟩, hm, he⟩ := List.mem_map.mp h
    obtain ⟨rfl, rfl⟩ := Prod.mk.inj he
    exact ⟨v, mem_entries.mp hm, rfl⟩
  · intro h
    obtain ⟨v, hv, rfl⟩ := h
    exact List.mem_map.mpr ⟨(k, v), mem_entries.mpr hv, rfl⟩

theorem find?_filter (m : SortedMap κ ν) (p : κ → ν → Bool) (k : κ) :
    (m.filter p).find? k = (m.find? k).filter (p k) := by
  ext v
  rw [← mem_entries, Option.filter_eq_some_iff, ← mem_entries]
  exact List.mem_filter

theorem find?_insertNew [DecidableEq κ] [Std.TransOrd κ] (m : SortedMap κ ν) (k q : κ) (v : ν) :
    (m.insertNew k v).find? q = if q = k then some ((m.find? k).getD v) else m.find? q := by
  unfold insertNew
  by_cases hc : m.contains k = true
  · obtain ⟨w, hw⟩ := contains_iff.mp hc
    rw [if_pos hc]
    by_cases h : q = k
    · simp [h, hw]
    · rw [if_neg h]
  · have hn : m.find? k = none := by simpa [contains] using hc
    rw [if_neg hc, find?_insert, hn]
    rfl

theorem mem_keys {m : SortedMap κ ν} {k : κ} : k ∈ m.keys ↔ ∃ v, m.find? k = some v := by
  simp only [keys, List.mem_map, ← mem_entries]
  constructor
  · intro h
    obtain ⟨⟨k', v⟩, hm, rfl⟩ := h
    exact ⟨v, hm⟩
  · intro h
    obtain ⟨v, hm⟩ := h
    exact ⟨(k, v), hm, rfl⟩

theorem nodup_keys (m : SortedMap κ ν) : m.keys.Nodup := SortedList.nodup_of_sorted m.sorted

theorem mem_values {m : SortedMap κ ν} {v : ν} : v ∈ m.values ↔ ∃ k, m.find? k = some v := by
  simp only [values, List.mem_map, ← mem_entries]
  constructor
  · intro h
    obtain ⟨⟨k, v'⟩, hm, rfl⟩ := h
    exact ⟨k, hm⟩
  · intro h
    obtain ⟨k, hm⟩ := h
    exact ⟨(k, v), hm, rfl⟩

theorem find?_ofKeys [DecidableEq κ] [Std.TransOrd κ] (ks : List κ) (k : κ) :
    (ofKeys ks).find? k = if k ∈ ks then some () else none := by
  induction ks using List.reverseRecOn with
  | nil => rfl
  | append_singleton ks a ih =>
    have ha : ofKeys (ks ++ [a]) = (ofKeys ks).insert a () := by simp [ofKeys]
    rw [ha, find?_insert, ih]
    by_cases h : k = a <;> simp [h]

theorem isEmpty_iff {m : SortedMap κ ν} : m.isEmpty = true ↔ ∀ k, m.find? k = none := by
  constructor
  · intro h k
    show SortedList.find? k m.entries = none
    rw [List.isEmpty_iff.mp h]
    rfl
  · intro h
    refine List.isEmpty_iff.mpr (List.eq_nil_iff_forall_not_mem.mpr fun e he => ?_)
    have := mem_entries.mp (show (e.1, e.2) ∈ m.entries from he)
    rw [h e.1] at this
    exact absurd this (by simp)

theorem contains_insert [DecidableEq κ] [Std.TransOrd κ] {m : SortedMap κ ν} {k q : κ} {v : ν} :
    (m.insert k v).contains q = true ↔ q = k ∨ m.contains q = true := by
  unfold contains
  rw [find?_insert]
  by_cases h : q = k <;> simp [h]

theorem contains_erase [DecidableEq κ] {m : SortedMap κ ν} {k q : κ} :
    (m.erase k).contains q = true ↔ q ≠ k ∧ m.contains q = true := by
  unfold contains
  rw [find?_erase]
  by_cases h : q = k <;> simp [h]

theorem contains_ofKeys [DecidableEq κ] [Std.TransOrd κ] {ks : List κ} {k : κ} :
    (ofKeys ks).contains k = true ↔ k ∈ ks := by
  unfold contains
  rw [find?_ofKeys]
  by_cases h : k ∈ ks <;> simp [h]

theorem length_filter_values (m : SortedMap κ ν) (p : ν → Bool) :
    ((m.values.filter p).length : ℕ∞) = {k | ∃ v, m.find? k = some v ∧ p v = true}.encard := by
  classical
  let kept := m.entries.filter fun e => p e.2
  have hkeys : (kept.map (·.1)).Nodup :=
    (SortedList.nodup_of_sorted m.sorted).sublist (List.filter_sublist.map _)
  have hset : {k | ∃ v, m.find? k = some v ∧ p v = true} =
      ((kept.map (·.1)).toFinset : Set κ) := by
    ext k
    rw [List.coe_toFinset, Set.mem_ofPred_eq, Set.mem_ofPred_eq, List.mem_map]
    constructor
    · intro hk
      obtain ⟨v, hv, hp⟩ := hk
      exact ⟨(k, v), List.mem_filter.mpr ⟨mem_entries.mpr hv, hp⟩, rfl⟩
    · intro hk
      obtain ⟨⟨k', v⟩, he, rfl⟩ := hk
      obtain ⟨hmem, hp⟩ := List.mem_filter.mp he
      exact ⟨v, mem_entries.mp hmem, hp⟩
  have hvalues : (m.values.filter p).length = kept.length := by
    rw [values, List.filter_map, List.length_map]
    rfl
  rw [hset, Set.encard_coe_eq_coe_finsetCard, List.toFinset_card_of_nodup hkeys, List.length_map,
    hvalues]

theorem findValue?_eq_some {m : SortedMap κ ν} {p : ν → Bool} {v : ν}
    (h : m.findValue? p = some v) : ∃ k, m.find? k = some v ∧ p v = true ∧
      ∀ k' v', m.find? k' = some v' → p v' = true → k' = k ∨ compare k k' = .lt := by
  obtain ⟨hp, before, after, hvalues, hbefore⟩ := List.find?_eq_some_iff_append.mp h
  obtain ⟨first, rest, hentries, rfl, hrest⟩ := List.map_eq_append_iff.mp hvalues
  obtain ⟨⟨k, v⟩, later, rfl, rfl, -⟩ := List.map_eq_cons_iff.mp hrest
  have hsorted : SortedList.Sorted (first ++ (k, v) :: later) := hentries ▸ m.sorted
  have hlater := (List.pairwise_cons.mp (List.pairwise_append.mp hsorted).2.1).1
  have hmem : (k, v) ∈ m.entries := by
    rw [hentries]
    exact List.mem_append_right first List.mem_cons_self
  refine ⟨k, mem_entries.mp hmem, hp, fun k' v' hk' hp' => ?_⟩
  have hmem' := mem_entries.mpr hk'
  rw [hentries] at hmem'
  rcases List.mem_append.mp hmem' with hfirst | hrest
  · have hnot := hbefore v' (List.mem_map_of_mem (f := (·.2)) hfirst)
    simp [hp'] at hnot
  · rcases List.mem_cons.mp hrest with he | hafter
    · exact .inl (congrArg (·.1) he)
    · exact .inr (hlater _ hafter)

theorem isEmpty_eq_false_iff {m : SortedMap κ ν} :
    m.isEmpty = false ↔ ∃ k, m.contains k = true := by
  rw [← Bool.not_eq_true, isEmpty_iff, not_forall]
  exact exists_congr fun k => Option.ne_none_iff_isSome

/-- The order of the entries leaves no room for any other map. -/
theorem eq_of_find?_eq [Std.TransOrd κ] {m m' : SortedMap κ ν}
    (h : ∀ k, m.find? k = m'.find? k) : m = m' := by
  obtain ⟨entries, hsorted⟩ := m
  obtain ⟨entries', hsorted'⟩ := m'
  have hnodup : ∀ {l : List (κ × ν)}, SortedList.Sorted l → l.Nodup :=
    fun hl => (SortedList.nodup_of_sorted hl).of_map _
  have hperm : entries.Perm entries' := by
    refine (List.perm_ext_iff_of_nodup (hnodup hsorted) (hnodup hsorted')).mpr fun e => ?_
    rw [SortedList.mem_iff_find? hsorted, SortedList.mem_iff_find? hsorted']
    exact Eq.congr_left (h e.1)
  have heq : entries = entries' := by
    refine hperm.eq_of_pairwise (fun a b _ _ hab hba => ?_) hsorted hsorted'
    exact absurd hba (Std.OrientedCmp.not_lt_of_lt hab)
  subst heq
  rfl

end SortedMap

theorem mem_sortedDistinct [Std.TransOrd κ] [Std.LawfulEqOrd κ] [DecidableEq κ] {xs : List κ} {x : κ} :
    x ∈ sortedDistinct xs ↔ x ∈ xs := by
  unfold sortedDistinct
  rw [SortedMap.mem_keys]
  by_cases h : x ∈ xs <;> simp [SortedMap.find?_ofKeys, h]

theorem sortedDistinct_sorted [Std.TransOrd κ] [Std.LawfulEqOrd κ] (xs : List κ) :
    (sortedDistinct xs).Pairwise fun a b => compare a b = .lt :=
  List.pairwise_map.mpr (SortedMap.ofKeys xs).sorted

theorem nodup_sortedDistinct [Std.TransOrd κ] [Std.LawfulEqOrd κ] (xs : List κ) :
    (sortedDistinct xs).Nodup :=
  SortedMap.nodup_keys _

theorem sortedDistinct_congr [Std.TransOrd κ] [Std.LawfulEqOrd κ] [DecidableEq κ] {xs ys : List κ}
    (h : ∀ x, x ∈ xs ↔ x ∈ ys) : sortedDistinct xs = sortedDistinct ys := by
  refine congrArg SortedMap.keys (SortedMap.eq_of_find?_eq fun k => ?_)
  rw [SortedMap.find?_ofKeys, SortedMap.find?_ofKeys, if_congr (h k) rfl rfl]

end BusScope
