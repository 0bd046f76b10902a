import BusScope.Text.Split
import BusScope.Text.Hex
import Mathlib

/-! Hexadecimal digits read back: single digits in either case, the spellings of a byte, and
numbers written with a fixed number of digits. -/

namespace BusScope.Text.Hex

/-- The character is the digit of the number, in either case. -/
def Denotes (c : Char) (n : Nat) : Prop := n < 16 ∧ (c = digit n ∨ c = upperDigit n)

def IsDigit (c : Char) : Prop :=
  ('0' ≤ c ∧ c ≤ '9') ∨ ('a' ≤ c ∧ c ≤ 'f') ∨ ('A' ≤ c ∧ c ≤ 'F')

/-- One or two digits for the value of the byte. -/
def Spells (part : List Char) (b : UInt8) : Prop :=
  (∃ c, part = [c] ∧ Denotes c b.toNat) ∨
    ∃ c d, part = [c, d] ∧ Denotes c (b.toNat / 16) ∧ Denotes d (b.toNat % 16)

theorem value?_eq_some_iff {c : Char} {n : Nat} : value? c = some n ↔ Denotes c n := by
  constructor
  · intro h
    have hc : c = Char.ofNat c.toNat := (Char.ofNat_toNat c).symm
    unfold value? at h
    dsimp only at h
    split at h
    · next hr =>
      cases h
      refine ⟨by omega, .inl ?_⟩
      rw [digit, if_pos (by omega), Nat.add_sub_cancel' hr.1, ← hc]
    split at h
    · next hr =>
      cases h
      refine ⟨by omega, .inl ?_⟩
      rw [digit, if_neg (by omega), Nat.add_sub_cancel' (by omega), ← hc]
    split at h
    · next hr =>
      cases h
      refine ⟨by omega, .inr ?_⟩
      rw [upperDigit, if_neg (by omega), Nat.add_sub_cancel' (by omega), ← hc]
    · cases h
  · intro h
    obtain ⟨hn, rfl | rfl⟩ := h
    · revert n
      decide
    · revert n
      decide

theorem isDigit_iff_toNat {c : Char} : IsDigit c ↔ (0x30 ≤ c.toNat ∧ c.toNat ≤ 0x39) ∨
    (0x61 ≤ c.toNat ∧ c.toNat ≤ 0x66) ∨ (0x41 ≤ c.toNat ∧ c.toNat ≤ 0x46) := Iff.rfl

theorem isDigit_iff {c : Char} : IsDigit c ↔ ∃ n, Denotes c n := by
  simp only [← value?_eq_some_iff, isDigit_iff_toNat, ← Option.isSome_iff_exists]
  unfold value?
  dsimp only
  split
  · next h => simp [h]
  split
  · next h => simp [h]
  split
  · next h => simp [h]
  · next h h' h'' => simp [h, h', h'']

theorem isDigit_apart {c : Char} (h : IsDigit c) :
    isBlank c = false ∧ c ≠ '.' ∧ c ≠ '|' ∧ c ≠ '+' := by
  have hrange := isDigit_iff_toNat.mp h
  refine ⟨?_, ?_, ?_, ?_⟩
  · simp only [isBlank, Bool.or_eq_false_iff, Bool.and_eq_false_iff, decide_eq_false_iff_not,
      beq_eq_false_iff_ne]
    omega
  all_goals
    rintro rfl
    revert hrange
    decide

def IsPart (part : List Char) : Prop :=
  (part.length = 1 ∨ part.length = 2) ∧ ∀ c ∈ part, IsDigit c

theorem toNat_toUInt8 {n : Nat} (h : n < 256) : n.toUInt8.toNat = n := UInt8.toNat_ofNat_of_lt' h

theorem Denotes.spells {c : Char} {n : Nat} (h : Denotes c n) : Spells [c] n.toUInt8 := by
  have hn := h.1
  refine .inl ⟨c, rfl, ?_⟩
  rw [toNat_toUInt8 (by omega)]
  exact h

theorem Denotes.spells_pair {c d : Char} {m n : Nat} (hc : Denotes c m) (hd : Denotes d n) :
    Spells [c, d] (m * 16 + n).toUInt8 := by
  have hm := hc.1
  have hn := hd.1
  refine .inr ⟨c, d, rfl, ?_⟩
  rw [toNat_toUInt8 (by omega), show (m * 16 + n) / 16 = m by omega,
    show (m * 16 + n) % 16 = n by omega]
  exact ⟨hc, hd⟩

theorem isPart_iff {part : List Char} : IsPart part ↔ ∃ b, Spells part b := by
  constructor
  · intro h
    obtain ⟨hlength, hdigits⟩ := h
    rcases hlength with hlength | hlength
    · obtain ⟨c, rfl⟩ := List.length_eq_one_iff.mp hlength
      obtain ⟨n, hn⟩ := isDigit_iff.mp (hdigits c List.mem_cons_self)
      exact ⟨_, hn.spells⟩
    · obtain ⟨c, d, rfl⟩ := List.length_eq_two.mp hlength
      obtain ⟨m, hm⟩ := isDigit_iff.mp (hdigits c List.mem_cons_self)
      obtain ⟨n, hn⟩ := isDigit_iff.mp (hdigits d (List.mem_cons_of_mem c List.mem_cons_self))
      exact ⟨_, hm.spells_pair hn⟩
  · intro h
    obtain ⟨b, h⟩ := h
    rcases h with ⟨c, rfl, hc⟩ | ⟨c, d, rfl, hc, hd⟩
    · exact ⟨.inl rfl, List.forall_mem_singleton.mpr (isDigit_iff.mpr ⟨_, hc⟩)⟩
    · exact ⟨.inr rfl, List.forall_mem_cons.mpr ⟨isDigit_iff.mpr ⟨_, hc⟩,
        List.forall_mem_singleton.mpr (isDigit_iff.mpr ⟨_, hd⟩)⟩⟩

theorem spells_padded (b : UInt8) : Spells (padded b) b := by
  have hb := b.toNat_lt
  exact .inr ⟨_, _, rfl, ⟨by omega, .inl rfl⟩, ⟨by omega, .inl rfl⟩⟩

theorem spells_plain (b : UInt8) : Spells (plain b) b := by
  unfold plain
  split
  · next hb => exact .inl ⟨_, rfl, hb, .inl rfl⟩
  · exact spells_padded b

/-- The number that digits stand for, the most significant first. -/
def number? (digits : List Char) : Option Nat :=
  digits.foldlM (fun n c => (value? c).map (n * 16 + ·)) 0

theorem value?_digit {n : Nat} (h : n < 16) : value? (digit n) = some n :=
  value?_eq_some_iff.mpr ⟨h, .inl rfl⟩

theorem length_fixed (digitOf : Nat → Char) (width n : Nat) :
    (fixed digitOf width n).length = width := by simp [fixed]

theorem foldlM_fixed (width n start : Nat) :
    (fixed digit width n).foldlM (fun n c => (value? c).map (n * 16 + ·)) start =
      some (start * 16 ^ width + n % 16 ^ width) := by
  induction width generalizing start with
  | zero => simp [fixed, Nat.mod_one]
  | succ width ih =>
    have hfirst : fixed digit (width + 1) n =
        digit (n / 16 ^ width % 16) :: fixed digit width n := by
      have hshift : n >>> (4 * width) = n / 16 ^ width := by
        rw [Nat.shiftRight_eq_div_pow, Nat.pow_mul]
      rw [fixed, List.range_succ, List.reverse_append, List.map_append, ← hshift]
      rfl
    rw [hfirst, List.foldlM_cons, value?_digit (Nat.mod_lt _ (by omega))]
    refine (ih _).trans (congrArg some ?_)
    rw [Nat.mod_pow_succ, Nat.pow_succ]
    ring

theorem number?_fixed {width n : Nat} (h : n < 16 ^ width) :
    number? (fixed digit width n) = some n := by
  rw [number?, foldlM_fixed, Nat.zero_mul, Nat.zero_add, Nat.mod_eq_of_lt h]

end BusScope.Text.Hex
