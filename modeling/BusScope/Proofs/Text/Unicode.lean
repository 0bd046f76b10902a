import BusScope.Text.Utf16
import BusScope.Text.Utf8
import Mathlib

/-! Texts survive both encodings: whatever was written is read back, character by character. -/

namespace BusScope.Text

theorem toNat_lt_surrogates_or (c : Char) :
    c.toNat < 0xD800 ∨ 0xDFFF < c.toNat ∧ c.toNat < 0x110000 := c.valid

namespace Utf8

theorem isTail_iff (b : UInt8) : isTail b = true ↔ 0x80 ≤ b.toNat ∧ b.toNat ≤ 0xBF := by
  simp [isTail, UInt8.le_iff_toNat_le]

theorem secondOfThree_of {a b : UInt8} (h : 0x80 ≤ b.toNat ∧ b.toNat ≤ 0xBF)
    (hlow : a.toNat = 0xE0 → 0xA0 ≤ b.toNat) (hhigh : a.toNat = 0xED → b.toNat ≤ 0x9F) :
    secondOfThree a b = true := by
  unfold secondOfThree
  split
  · next he =>
    have he := hlow (congrArg UInt8.toNat (eq_of_beq he))
    simp [UInt8.le_iff_toNat_le, he, h.2]
  · split
    · next he =>
      have he := hhigh (congrArg UInt8.toNat (eq_of_beq he))
      simp [UInt8.le_iff_toNat_le, he, h.1]
    · exact (isTail_iff b).mpr h

theorem secondOfFour_of {a b : UInt8} (h : 0x80 ≤ b.toNat ∧ b.toNat ≤ 0xBF)
    (hlow : a.toNat = 0xF0 → 0x90 ≤ b.toNat) (hhigh : a.toNat = 0xF4 → b.toNat ≤ 0x8F) :
    secondOfFour a b = true := by
  unfold secondOfFour
  split
  · next he =>
    have he := hlow (congrArg UInt8.toNat (eq_of_beq he))
    simp [UInt8.le_iff_toNat_le, he, h.2]
  · split
    · next he =>
      have he := hhigh (congrArg UInt8.toNat (eq_of_beq he))
      simp [UInt8.le_iff_toNat_le, he, h.1]
    · exact (isTail_iff b).mpr h

theorem decodeFrom_one {a : UInt8} {rest : List UInt8} (position : Nat) (ha : a.toNat < 0x80) :
    decodeFrom position (a :: rest) =
      (Char.ofNat a.toNat :: ·) <$> decodeFrom (position + 1) rest := by
  have h0 : a < 0x80 := UInt8.lt_iff_toNat_lt.mpr ha
  rw [decodeFrom.eq_def]
  simp only [h0, if_true]

theorem decodeFrom_two {a b : UInt8} {rest : List UInt8} (position : Nat)
    (ha : 0xC2 ≤ a.toNat ∧ a.toNat ≤ 0xDF) (hb : isTail b = true) :
    decodeFrom position (a :: b :: rest) =
      (assemble (a.toNat % 32) [b] :: ·) <$> decodeFrom (position + 2) rest := by
  have h0 : ¬ a < 0x80 := by simp [UInt8.lt_iff_toNat_lt]; omega
  have h1 : 0xC2 ≤ a ∧ a ≤ 0xDF := by simpa [UInt8.le_iff_toNat_le] using ha
  rw [decodeFrom.eq_def]
  simp only [h0, h1, hb, if_false, if_true, and_self]

theorem decodeFrom_three {a b c : UInt8} {rest : List UInt8} (position : Nat)
    (ha : 0xE0 ≤ a.toNat ∧ a.toNat ≤ 0xEF) (hb : secondOfThree a b = true)
    (hc : isTail c = true) :
    decodeFrom position (a :: b :: c :: rest) =
      (assemble (a.toNat % 16) [b, c] :: ·) <$> decodeFrom (position + 3) rest := by
  have h0 : ¬ a < 0x80 := by simp [UInt8.lt_iff_toNat_lt]; omega
  have h1 : ¬ (0xC2 ≤ a ∧ a ≤ 0xDF) := by simp [UInt8.le_iff_toNat_le]; omega
  have h2 : 0xE0 ≤ a ∧ a ≤ 0xEF := by simpa [UInt8.le_iff_toNat_le] using ha
  rw [decodeFrom.eq_def]
  simp only [h0, h1, h2, hb, hc, if_false, if_true, and_self]

theorem decodeFrom_four {a b c d : UInt8} {rest : List UInt8} (position : Nat)
    (ha : 0xF0 ≤ a.toNat ∧ a.toNat ≤ 0xF4) (hb : secondOfFour a b = true)
    (hc : isTail c = true) (hd : isTail d = true) :
    decodeFrom position (a :: b :: c :: d :: rest) =
      (assemble (a.toNat % 8) [b, c, d] :: ·) <$> decodeFrom (position + 4) rest := by
  have h0 : ¬ a < 0x80 := by simp [UInt8.lt_iff_toNat_lt]; omega
  have h1 : ¬ (0xC2 ≤ a ∧ a ≤ 0xDF) := by simp [UInt8.le_iff_toNat_le]; omega
  have h2 : ¬ (0xE0 ≤ a ∧ a ≤ 0xEF) := by simp [UInt8.le_iff_toNat_le]; omega
  have h3 : 0xF0 ≤ a ∧ a ≤ 0xF4 := by simpa [UInt8.le_iff_toNat_le] using ha
  rw [decodeFrom.eq_def]
  simp only [h0, h1, h2, h3, hb, hc, hd, if_false, if_true, and_self]

theorem decodeFrom_encodeChar (position : Nat) (c : Char) (rest : List UInt8) :
    decodeFrom position (String.utf8EncodeChar c ++ rest) =
      (c :: ·) <$> decodeFrom (position + (String.utf8EncodeChar c).length) rest := by
  have hv : c.val.toNat = c.toNat := rfl
  have hrange := toNat_lt_surrogates_or c
  have hback : ∀ n, n = c.toNat → Char.ofNat n = c := fun n h => h ▸ Char.ofNat_toNat c
  have byte : ∀ n, n < 256 → (UInt8.ofNat n).toNat = n := fun n h => UInt8.toNat_ofNat_of_lt' h
  have tail : ∀ n, isTail (UInt8.ofNat (n % 0x40 + 0x80)) = true := fun n => by
    rw [isTail_iff, byte _ (by omega)]
    omega
  unfold String.utf8EncodeChar
  simp only [hv]
  generalize c.toNat = v at hrange hback
  split
  · next h =>
    rw [List.singleton_append, decodeFrom_one position (by rw [byte _ (by omega)]; omega),
      byte _ (by omega), hback v rfl]
    rfl
  next h1 =>
  split
  · next h2 =>
    have ha := byte (v / 64 % 0x20 + 0xc0) (by omega)
    have hb := byte (v % 0x40 + 0x80) (by omega)
    have hc : assemble ((UInt8.ofNat (v / 64 % 0x20 + 0xc0)).toNat % 32)
        [UInt8.ofNat (v % 0x40 + 0x80)] = c := by
      apply hback
      simp only [List.foldl_cons, List.foldl_nil, ha, hb]
      omega
    rw [List.cons_append, List.singleton_append,
      decodeFrom_two position (by rw [ha]; omega) (tail v), hc]
    rfl
  next h2 =>
  split
  · next h3 =>
    have ha := byte (v / 4096 % 0x10 + 0xe0) (by omega)
    have hb := byte (v / 64 % 0x40 + 0x80) (by omega)
    have hc := byte (v % 0x40 + 0x80) (by omega)
    -- no character lies among the surrogates, which the second byte keeps out
    have hsecond : secondOfThree (UInt8.ofNat (v / 4096 % 0x10 + 0xe0))
        (UInt8.ofNat (v / 64 % 0x40 + 0x80)) = true :=
      secondOfThree_of (by rw [hb]; omega) (by rw [ha, hb]; omega) (by rw [ha, hb]; omega)
    have hd : assemble ((UInt8.ofNat (v / 4096 % 0x10 + 0xe0)).toNat % 16)
        [UInt8.ofNat (v / 64 % 0x40 + 0x80), UInt8.ofNat (v % 0x40 + 0x80)] = c := by
      apply hback
      simp only [List.foldl_cons, List.foldl_nil, ha, hb, hc]
      omega
    rw [List.cons_append, List.cons_append, List.singleton_append,
      decodeFrom_three position (by rw [ha]; omega) hsecond (tail v), hd]
    rfl
  · next h3 =>
    have ha := byte (v / 262144 % 0x08 + 0xf0) (by omega)
    have hb := byte (v / 4096 % 0x40 + 0x80) (by omega)
    have hc := byte (v / 64 % 0x40 + 0x80) (by omega)
    have hd := byte (v % 0x40 + 0x80) (by omega)
    have hsecond : secondOfFour (UInt8.ofNat (v / 262144 % 0x08 + 0xf0))
        (UInt8.ofNat (v / 4096 % 0x40 + 0x80)) = true :=
      secondOfFour_of (by rw [hb]; omega) (by rw [ha, hb]; omega) (by rw [ha, hb]; omega)
    have he : assemble ((UInt8.ofNat (v / 262144 % 0x08 + 0xf0)).toNat % 8)
        [UInt8.ofNat (v / 4096 % 0x40 + 0x80), UInt8.ofNat (v / 64 % 0x40 + 0x80),
          UInt8.ofNat (v % 0x40 + 0x80)] = c := by
      apply hback
      simp only [List.foldl_cons, List.foldl_nil, ha, hb, hc, hd]
      omega
    rw [List.cons_append, List.cons_append, List.cons_append, List.singleton_append,
      decodeFrom_four position (by rw [ha]; omega) hsecond (tail (v / 64)) (tail v), he]
    rfl

theorem decodeFrom_encode (position : Nat) (s : List Char) :
    decodeFrom position (encode s) = .ok s := by
  induction s generalizing position with
  | nil => rfl
  | cons c s ih =>
    have he : encode (c :: s) = String.utf8EncodeChar c ++ encode s := rfl
    rw [he, decodeFrom_encodeChar, ih]
    rfl

theorem decode_encode (s : List Char) : decode (encode s) = .ok s := decodeFrom_encode 0 s

end Utf8

namespace Utf16

theorem isHigh_iff (u : UInt16) : isHigh u = true ↔ 0xD800 ≤ u.toNat ∧ u.toNat < 0xDC00 := by
  simp [isHigh, UInt16.le_iff_toNat_le, UInt16.lt_iff_toNat_lt]

theorem isLow_iff (u : UInt16) : isLow u = true ↔ 0xDC00 ≤ u.toNat ∧ u.toNat < 0xE000 := by
  simp [isLow, UInt16.le_iff_toNat_le, UInt16.lt_iff_toNat_lt]

theorem decode_encodeChar (c : Char) (rest : List UInt16) :
    decode (encodeChar c ++ rest) = (c :: ·) <$> decode rest := by
  have hrange := toNat_lt_surrogates_or c
  have hback : ∀ n, n = c.toNat → Char.ofNat n = c := fun n h => h ▸ Char.ofNat_toNat c
  unfold encodeChar
  generalize c.toNat = n at hrange hback
  have unit : ∀ m, m < 65536 → m.toUInt16.toNat = m := fun m h => UInt16.toNat_ofNat_of_lt' h
  dsimp only
  split
  · next h =>
    have hn := unit n h
    have hhigh : isHigh n.toUInt16 = false := by
      rw [← Bool.not_eq_true, isHigh_iff, hn]
      omega
    have hlow : isLow n.toUInt16 = false := by
      rw [← Bool.not_eq_true, isLow_iff, hn]
      omega
    rw [List.singleton_append, decode.eq_def]
    simp only [hhigh, hlow, hn, hback n rfl, Bool.false_eq_true, if_false]
  · next h =>
    have hh := unit (0xD800 + (n - 0x10000) / 0x400) (by omega)
    have hl := unit (0xDC00 + (n - 0x10000) % 0x400) (by omega)
    have hhigh : isHigh (0xD800 + (n - 0x10000) / 0x400).toUInt16 = true := by
      rw [isHigh_iff, hh]
      omega
    have hlow : isLow (0xDC00 + (n - 0x10000) % 0x400).toUInt16 = true := by
      rw [isLow_iff, hl]
      omega
    have hc := hback (0x10000 + ((0xD800 + (n - 0x10000) / 0x400).toUInt16.toNat - 0xD800) * 0x400 +
      ((0xDC00 + (n - 0x10000) % 0x400).toUInt16.toNat - 0xDC00)) (by rw [hh, hl]; omega)
    rw [List.cons_append, List.singleton_append, decode.eq_def]
    simp only [hhigh, hlow, hc, if_true]

theorem decode_encode (s : List Char) : decode (encode s) = some s := by
  induction s with
  | nil => rfl
  | cons c s ih =>
    have he : encode (c :: s) = encodeChar c ++ encode s := rfl
    rw [he, decode_encodeChar, ih]
    rfl

end Utf16

end BusScope.Text
