import BusScope.Demangling
import BusScope.Proofs.Text.Pairs
import BusScope.Text.Utf8

/-! Mangled names and plain ones. A plain name has no pair of colons and hence no parts to be told by,
which is why a name that was demangled is left alone the next time. -/

namespace BusScope

open Text

def mangleMark : List Char := ['d', 'd', 's', '_']

/-- The parts of the name end in the mark and a part of at least two bytes that ends in an underscore,
and there are others in front of them. -/
def Mangled (name : String) : Prop :=
  ∃ outer last, outer ≠ [] ∧ splitPairs ':' name.toList = outer ++ [mangleMark, last] ∧
    last.getLast? = some '_' ∧ 2 ≤ Utf8.byteLength last

theorem Text.Utf8.byteLength_append (s t : List Char) :
    byteLength (s ++ t) = byteLength s + byteLength t := by
  induction s with
  | nil => exact (Nat.zero_add _).symm
  | cons c s ih =>
    show c.utf8Size + byteLength (s ++ t) = c.utf8Size + byteLength s + byteLength t
    rw [ih, Nat.add_assoc]

theorem Text.Utf8.byteLength_pos {s : List Char} (h : s ≠ []) : 0 < byteLength s := by
  obtain ⟨c, s, rfl⟩ := List.exists_cons_of_ne_nil h
  exact Nat.add_pos_left c.utf8Size_pos _

theorem two_le_byteLength_iff {last : List Char} (h : last.getLast? = some '_') :
    2 ≤ Utf8.byteLength last ↔ last ≠ ['_'] := by
  obtain ⟨base, rfl⟩ := List.getLast?_eq_some_iff.mp h
  have hone : Utf8.byteLength ['_'] = 1 := rfl
  rw [Utf8.byteLength_append, hone]
  constructor
  · intro hlength heq
    have hbase : base = [] := List.append_left_eq_self.mp heq
    subst hbase
    exact absurd hlength (by decide)
  · intro hne
    have hbase : base ≠ [] := fun hnil => hne (by rw [hnil]; rfl)
    have hpos := Utf8.byteLength_pos hbase
    omega

theorem demangledParts?_eq_some_iff {parts plain : List (List Char)} :
    demangledParts? parts = some plain ↔ ∃ outer last, outer ≠ [] ∧
      parts = outer ++ [mangleMark, last] ∧ last.getLast? = some '_' ∧ last ≠ ['_'] ∧
      plain = outer ++ [last.dropLast] := by
  unfold demangledParts?
  constructor
  · intro h
    split at h
    · next last mark first outer hparts =>
      obtain ⟨⟨rfl, hlast, hne⟩, hplain⟩ := Option.ite_none_right_eq_some.mp h
      refine ⟨(first :: outer).reverse, last, by simp, ?_, hlast, hne, ?_⟩
      · rw [List.reverse_eq_iff.mp hparts]
        simp [mangleMark]
      · rw [← Option.some.inj hplain]
        simp
    · cases h
  · intro h
    obtain ⟨outer, last, houter, rfl, hlast, hne, rfl⟩ := h
    obtain ⟨outer, first, rfl⟩ := List.eq_nil_or_concat outer |>.resolve_left houter
    simp [mangleMark, hlast, hne]

theorem mangled_iff {name : String} :
    Mangled name ↔ ∃ plain, demangledParts? (splitPairs ':' name.toList) = some plain := by
  simp only [demangledParts?_eq_some_iff]
  constructor
  · intro h
    obtain ⟨outer, last, houter, hparts, hlast, hlength⟩ := h
    exact ⟨_, outer, last, houter, hparts, hlast, (two_le_byteLength_iff hlast).mp hlength, rfl⟩
  · intro h
    obtain ⟨-, outer, last, houter, hparts, hlast, hne, -⟩ := h
    exact ⟨outer, last, houter, hparts, hlast, (two_le_byteLength_iff hlast).mpr hne⟩

theorem toList_demangle (name : String) : (demangle name).toList = demangleChars name.toList :=
  String.toList_ofList

theorem demangle_of_not_mangled {name : String} (h : ¬ Mangled name) : demangle name = name := by
  have hnone : demangledParts? (splitPairs ':' name.toList) = none :=
    Option.eq_none_iff_forall_ne_some.mpr fun plain hplain => h (mangled_iff.mpr ⟨plain, hplain⟩)
  rw [demangle, demangleChars, hnone]
  exact String.ofList_toList

/-- Parts have no pair of colons in them, and none comes about when they are joined with another
character. -/
theorem unpaired_of_mangled {name : String} (h : Mangled name) :
    Unpaired ':' (demangle name).toList := by
  obtain ⟨plain, hplain⟩ := mangled_iff.mp h
  have hname : demangleChars name.toList = join ['/'] plain := by rw [demangleChars, hplain]
  obtain ⟨outer, last, -, hparts, -, -, rfl⟩ := demangledParts?_eq_some_iff.mp hplain
  have hfree : ∀ part ∈ outer ++ [mangleMark, last], Unpaired ':' part :=
    hparts ▸ (splitPairs_spec name.toList).1.unpaired
  rw [toList_demangle, hname]
  refine Unpaired.of_join (by decide) fun part hpart => ?_
  rcases List.mem_append.mp hpart with houter | hlast
  · exact hfree part (List.mem_append_left _ houter)
  · rw [List.mem_singleton.mp hlast]
    exact (hfree last (by simp)).of_part last.dropLast_prefix.isInfix

theorem not_mangled_of_unpaired {name : String} (h : Unpaired ':' name.toList) : ¬ Mangled name := by
  intro hmangled
  obtain ⟨outer, last, houter, hparts, -⟩ := hmangled
  have hlength := congrArg List.length ((splitPairs_of_unpaired h).symm.trans hparts)
  simp at hlength

theorem demangle_join {segments : List String} {name : String} (hne : segments ≠ [])
    (hname : name ≠ "") (hfree : ∀ s ∈ name :: segments, ':' ∉ s.toList) :
    demangle ("::".intercalate (segments ++ ["dds_", name ++ "_"])) =
      "/".intercalate (segments ++ [name]) := by
  obtain ⟨hfreeName, hfreeSegments⟩ := List.forall_mem_cons.mp hfree
  have hlast : ∀ part ∈ [mangleMark, name.toList ++ ['_']], ':' ∉ part := by
    simp [mangleMark, hfreeName]
  have hparts : splitPairs ':' ("::".intercalate (segments ++ ["dds_", name ++ "_"])).toList =
      segments.map String.toList ++ [mangleMark, name.toList ++ ['_']] := by
    refine splitPairs_eq_iff.mpr ⟨CutAtPairs.of_not_mem (by simp) fun part hpart => ?_, ?_⟩
    · rcases List.mem_append.mp hpart with hsegment | hpart
      · obtain ⟨s, hs, rfl⟩ := List.mem_map.mp hsegment
        exact hfreeSegments s hs
      · exact hlast part hpart
    · rw [String.toList_intercalate, List.map_append]
      simp [join, mangleMark]
  have hplain : demangledParts? (segments.map String.toList ++ [mangleMark, name.toList ++ ['_']]) =
      some (segments.map String.toList ++ [name.toList]) :=
    demangledParts?_eq_some_iff.mpr
      ⟨_, _, by simpa using hne, rfl, by simp, by simpa using hname, by simp⟩
  refine String.toList_inj.mp ?_
  rw [toList_demangle, demangleChars, hparts, hplain]
  dsimp only
  rw [String.toList_intercalate, List.map_append]
  rfl

/-- What is demangled, to what, and that it is done once. -/
theorem demangle_plain_once :
    (∀ segments name, segments ≠ [] → name ≠ "" → (∀ s ∈ name :: segments, ':' ∉ s.toList) →
      demangle ("::".intercalate (segments ++ ["dds_", name ++ "_"])) =
        "/".intercalate (segments ++ [name])) ∧
    (∀ name, demangle name = name ↔ ¬ Mangled name) ∧
    ∀ name, demangle (demangle name) = demangle name := by
  refine ⟨fun segments name => demangle_join, fun name => ⟨fun h hmangled => ?_,
    demangle_of_not_mangled⟩, fun name => ?_⟩
  · have hplain := unpaired_of_mangled hmangled
    rw [h] at hplain
    exact not_mangled_of_unpaired hplain hmangled
  · by_cases h : Mangled name
    · exact demangle_of_not_mangled (not_mangled_of_unpaired (unpaired_of_mangled h))
    · rw [demangle_of_not_mangled h, demangle_of_not_mangled h]

theorem demangle_plain_once_length :
    ["", "maße"] ≠ [] ∧ "Länge" ≠ "" ∧ (∀ s ∈ ["Länge", "", "maße"], ':' ∉ s.toList) ∧
      demangle "::maße::dds_::Länge_" = "/maße/Länge" := by
  have hfree : ∀ s ∈ ["Länge", "", "maße"], ':' ∉ s.toList := by decide
  have hmangled : "::".intercalate ["", "maße", "dds_", "Länge" ++ "_"] = "::maße::dds_::Länge_" := by
    decide
  have hplain : "/".intercalate ["", "maße", "Länge"] = "/maße/Länge" := by decide
  refine ⟨by simp, by decide, hfree, ?_⟩
  rw [← hmangled, ← hplain]
  exact demangle_plain_once.1 ["", "maße"] "Länge" (by simp) (by decide) hfree

end BusScope
