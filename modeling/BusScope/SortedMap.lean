/-!
Finite maps kept as entry lists in increasing key order. `SortedList` holds the operations on bare
lists, where looking up what was inserted needs no order at all; `SortedMap` adds the order, so a
map lists each key once, always in the same order, and two maps with the same lookups are equal.
-/

namespace BusScope

universe u v

variable {κ : Type u} {ν : Type v} [Ord κ]

namespace SortedList

def find? (k : κ) : List (κ × ν) → Option ν
  | [] => none
  | (k', v) :: rest => if compare k k' = .eq then some v else find? k rest

def insert (k : κ) (v : ν) : List (κ × ν) → List (κ × ν)
  | [] => [(k, v)]
  | (k', v') :: rest =>
    match compare k k' with
    | .lt => (k, v) :: (k', v') :: rest
    | .eq => (k, v) :: rest
    | .gt => (k', v') :: insert k v rest

def ofList (entries : List (κ × ν)) : List (κ × ν) :=
  entries.foldl (fun m e => insert e.1 e.2 m) []

def erase (k : κ) (entries : List (κ × ν)) : List (κ × ν) :=
  entries.filter fun e => compare k e.1 != .eq

abbrev Sorted (entries : List (κ × ν)) : Prop :=
  entries.Pairwise fun a b => compare a.1 b.1 = .lt

theorem mem_insert {k : κ} {v : ν} {e : κ × ν} {l : List (κ × ν)}
    (h : e ∈ insert k v l) : e = (k, v) ∨ e ∈ l := by
  induction l with
  | nil => simpa [insert] using h
  | cons a rest ih =>
    obtain ⟨k', v'⟩ := a
    rw [insert] at h
    split at h <;> grind

theorem sorted_filter (p : κ × ν → Bool) {l : List (κ × ν)} (h : Sorted l) :
    Sorted (l.filter p) :=
  List.Pairwise.sublist List.filter_sublist h

variable [Std.LawfulEqOrd κ]

theorem find?_insert (k q : κ) (v : ν) (l : List (κ × ν)) :
    find? q (insert k v l) = if compare q k = .eq then some v else find? q l := by
  induction l with
  | nil => simp [insert, find?]
  | cons e rest ih =>
    obtain ⟨k', v'⟩ := e
    rw [insert]
    split
    · simp [find?]
    · next h =>
      have : k = k' := Std.LawfulEqOrd.eq_of_compare h
      subst this
      simp only [find?]
      split <;> rfl
    · next h =>
      simp only [find?, ih]
      by_cases h1 : compare q k' = .eq
      · have : q = k' := Std.LawfulEqOrd.eq_of_compare h1
        subst this
        have : ¬ compare q k = .eq := by
          intro h2
          have := Std.LawfulEqOrd.eq_of_compare h2
          subst this
          rw [h1] at h
          exact absurd h (by decide)
        simp [this]
      · simp [h1]

theorem find?_insert_self (k : κ) (v : ν) (l : List (κ × ν)) :
    find? k (insert k v l) = some v := by
  simp [find?_insert]

theorem find?_erase (k q : κ) (l : List (κ × ν)) :
    find? q (erase k l) = if compare k q = .eq then none else find? q l := by
  induction l with
  | nil => simp [erase, find?]
  | cons e rest ih =>
    obtain ⟨k', v'⟩ := e
    by_cases h : compare k k' = .eq
    · have : k = k' := Std.LawfulEqOrd.eq_of_compare h
      subst this
      have he : erase k ((k, v') :: rest) = erase k rest := by simp [erase]
      rw [he, ih]
      by_cases hq : compare k q = .eq
      · simp [hq]
      · have : ¬ compare q k = .eq := fun h2 =>
          hq (by have := Std.LawfulEqOrd.eq_of_compare h2; subst this; simp)
        simp [find?, hq, this]
    · have he : erase k ((k', v') :: rest) = (k', v') :: erase k rest := by simp [erase, h]
      rw [he]
      simp only [find?, ih]
      by_cases hq : compare q k' = .eq
      · have : q = k' := Std.LawfulEqOrd.eq_of_compare hq
        subst this
        simp [h]
      · simp [hq]

theorem sorted_insert [Std.TransOrd κ] (k : κ) (v : ν) {l : List (κ × ν)} (h : Sorted l) :
    Sorted (insert k v l) := by
  induction l with
  | nil => simp [insert]
  | cons a rest ih =>
    obtain ⟨k', v'⟩ := a
    obtain ⟨hd, tl⟩ := List.pairwise_cons.mp h
    rw [insert]
    split
    · next hlt =>
      refine List.pairwise_cons.mpr ⟨fun e he => ?_, h⟩
      rcases List.mem_cons.mp he with rfl | he
      · exact hlt
      · exact Std.TransCmp.lt_trans hlt (hd e he)
    · next heq =>
      have : k = k' := Std.LawfulEqOrd.eq_of_compare heq
      subst this
      exact List.pairwise_cons.mpr ⟨hd, tl⟩
    · next hgt =>
      refine List.pairwise_cons.mpr ⟨fun e he => ?_, ih tl⟩
      rcases mem_insert he with rfl | he
      · exact Std.OrientedCmp.gt_iff_lt.mp hgt
      · exact hd e he

end SortedList

structure SortedMap (κ : Type u) (ν : Type v) [Ord κ] where
  entries : List (κ × ν)
  sorted : SortedList.Sorted entries

namespace SortedMap

def empty : SortedMap κ ν := ⟨[], List.Pairwise.nil⟩

instance : Inhabited (SortedMap κ ν) := ⟨empty⟩

def find? (m : SortedMap κ ν) (k : κ) : Option ν := SortedList.find? k m.entries

def contains (m : SortedMap κ ν) (k : κ) : Bool := (m.find? k).isSome

def insert [Std.TransOrd κ] [Std.LawfulEqOrd κ] (m : SortedMap κ ν) (k : κ) (v : ν) :
    SortedMap κ ν :=
  ⟨SortedList.insert k v m.entries, SortedList.sorted_insert k v m.sorted⟩

/-- Keeps what is there: the first entry of a key wins. -/
def insertNew [Std.TransOrd κ] [Std.LawfulEqOrd κ] (m : SortedMap κ ν) (k : κ) (v : ν) :
    SortedMap κ ν :=
  if m.contains k then m else m.insert k v

def filter (m : SortedMap κ ν) (p : κ → ν → Bool) : SortedMap κ ν :=
  ⟨m.entries.filter fun e => p e.1 e.2, SortedList.sorted_filter _ m.sorted⟩

def erase (m : SortedMap κ ν) (k : κ) : SortedMap κ ν :=
  ⟨SortedList.erase k m.entries, SortedList.sorted_filter _ m.sorted⟩

/-- Rewrites values in place; keys and their order stay. -/
def mapValues {ν' : Type v} (m : SortedMap κ ν) (f : κ → ν → ν') : SortedMap κ ν' :=
  ⟨m.entries.map fun e => (e.1, f e.1 e.2), by
    have h := m.sorted
    unfold SortedList.Sorted at h ⊢
    rw [List.pairwise_map]
    exact h⟩

def size (m : SortedMap κ ν) : Nat := m.entries.length

def isEmpty (m : SortedMap κ ν) : Bool := m.entries.isEmpty

def keys (m : SortedMap κ ν) : List κ := m.entries.map (·.1)

def values (m : SortedMap κ ν) : List ν := m.entries.map (·.2)

def findValue? (m : SortedMap κ ν) (p : ν → Bool) : Option ν := m.values.find? p

def ofKeys [Std.TransOrd κ] [Std.LawfulEqOrd κ] (ks : List κ) : SortedMap κ Unit :=
  ks.foldl (fun m k => m.insert k ()) empty

end SortedMap

def sortedDistinct [Std.TransOrd κ] [Std.LawfulEqOrd κ] (xs : List κ) : List κ :=
  (SortedMap.ofKeys xs).keys

end BusScope
