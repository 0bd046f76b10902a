import BusScope.Proofs.Text.Unicode

/-! Neither encoding has two spellings of one text: whatever can be read at all is what would be
written for the text that was read. -/

namespace BusScope.Text

namespace Utf8

theorem toNat_ofNat_of_scalar (n : Nat) (h : n < 0xD800 ∨ 0xDFFF < n ∧ n < 0x110000) :
    (Char.ofNat n).val.toNat = n := by
  have hv : (Char.ofNat n).toNat = n := by
    rw [Char.toNat_ofNat, if_pos h]
  exact hv

/-- A second byte after the least lead byte has to be high, and after the greatest to be low. -/
theorem bounds_of_second {a b least floor greatest ceiling : UInt8} (hf : 0x80 ≤ floor.toNat)
    (hc : ceiling.toNat ≤ 0xBF) (hne : least ≠ greatest)
    (h : (if a == least then floor ≤ b && b ≤ 0xBF
      else if a == greatest then 0x80 ≤ b && b ≤ ceiling else isTail b) = true) :
    (0x80 ≤ b.toNat ∧ b.toNat ≤ 0xBF) ∧ (a = least → floor.toNat ≤ b.toNat) ∧
      (a = greatest → b.toNat ≤ ceiling.toNat) := by
  have hmax : (0xBF : UInt8).toNat = 0xBF := rfl
  have hmin : (0x80 : UInt8).toNat = 0x80 := rfl
  by_cases hl : a = least
  · subst hl
    rw [if_pos (beq_self_eq_true a), Bool.and_eq_true, decide_eq_true_eq, decide_eq_true_eq,
      UInt8.le_iff_toNat_le, UInt8.le_iff_toNat_le] at h
    exact ⟨by omega, fun _ => h.1, fun hg => absurd hg hne⟩
  rw [if_neg (fun he => hl (eq_of_beq he))] at h
  by_cases hg : a = greatest
  · subst hg
    rw [if_pos (beq_self_eq_true a), Bool.and_eq_true, decide_eq_true_eq, decide_eq_true_eq,
      UInt8.le_iff_toNat_le, UInt8.le_iff_toNat_le] at h
    exact ⟨by omega, fun he => absurd he hl, fun _ => h.2⟩
  · rw [if_neg (fun he => hg (eq_of_beq he))] at h
    exact ⟨(isTail_iff b).mp h, fun he => absurd he hl, fun he => absurd he hg⟩

theorem bounds_of_secondOfThree {a b : UInt8} (h : secondOfThree a b = true) :
    (0x80 ≤ b.toNat ∧ b.toNat ≤ 0xBF) ∧ (a.toNat = 0xE0 → 0xA0 ≤ b.toNat) ∧
      (a.toNat = 0xED → b.toNat ≤ 0x9F) := by
  obtain ⟨hb, hlow, hhigh⟩ := bounds_of_second (by decide) (by decide) (by decide) h
  exact ⟨hb, fun ha => hlow (UInt8.toNat_inj.mp ha), fun ha => hhigh (UInt8.toNat_inj.mp ha)⟩

theorem bounds_of_secondOfFour {a b : UInt8} (h : secondOfFour a b = true) :
    (0x80 ≤ b.toNat ∧ b.toNat ≤ 0xBF) ∧ (a.toNat = 0xF0 → 0x90 ≤ b.toNat) ∧
      (a.toNat = 0xF4 → b.toNat ≤ 0x8F) := by
  obtain ⟨hb, hlow, hhigh⟩ := bounds_of_second (by decide) (by decide) (by decide) h
  exact ⟨hb, fun ha => hlow (UInt8.toNat_inj.mp ha), fun ha => hhigh (UInt8.toNat_inj.mp ha)⟩

theorem byte_eq {n : Nat} {b : UInt8} (h : n = b.toNat) : UInt8.ofNat n = b := by
  rw [h]
  exact UInt8.ofNat_toNat

theorem utf8EncodeChar_eq {c : Char} {n : Nat} (h : c.val.toNat = n) :
    String.utf8EncodeChar c =
      if n ≤ 0x7f then [UInt8.ofNat n]
      else if n ≤ 0x7ff then [UInt8.ofNat (n / 64 % 0x20 + 0xc0), UInt8.ofNat (n % 0x40 + 0x80)]
      else if n ≤ 0xffff then [UInt8.ofNat (n / 4096 % 0x10 + 0xe0),
        UInt8.ofNat (n / 64 % 0x40 + 0x80), UInt8.ofNat (n % 0x40 + 0x80)]
      else [UInt8.ofNat (n / 262144 % 0x08 + 0xf0), UInt8.ofNat (n / 4096 % 0x40 + 0x80),
        UInt8.ofNat (n / 64 % 0x40 + 0x80), UInt8.ofNat (n % 0x40 + 0x80)] := by
  subst h
  rfl

theorem encodeChar_one {a : UInt8} (ha : a.toNat < 0x80) :
    String.utf8EncodeChar (Char.ofNat a.toNat) = [a] := by
  have hv : (Char.ofNat a.toNat).val.toNat = a.toNat := toNat_ofNat_of_scalar _ (by omega)
  rw [utf8EncodeChar_eq hv, if_pos (by omega), byte_eq rfl]

theorem encodeChar_two {a b : UInt8} (ha : 0xC2 ≤ a.toNat ∧ a.toNat ≤ 0xDF)
    (hb : 0x80 ≤ b.toNat ∧ b.toNat ≤ 0xBF) :
    String.utf8EncodeChar (assemble (a.toNat % 32) [b]) = [a, b] := by
  have hv : (assemble (a.toNat % 32) [b]).val.toNat = a.toNat % 32 * 64 + b.toNat % 64 :=
    toNat_ofNat_of_scalar (a.toNat % 32 * 64 + b.toNat % 64) (by omega)
  rw [utf8EncodeChar_eq hv, if_neg (by omega), if_pos (by omega), byte_eq (b := a) (by omega),
    byte_eq (b := b) (by omega)]

theorem encodeChar_three {a b c : UInt8} (ha : 0xE0 ≤ a.toNat ∧ a.toNat ≤ 0xEF)
    (hb : secondOfThree a b = true) (hc : 0x80 ≤ c.toNat ∧ c.toNat ≤ 0xBF) :
    String.utf8EncodeChar (assemble (a.toNat % 16) [b, c]) = [a, b, c] := by
  obtain ⟨hb, hlow, hhigh⟩ := bounds_of_secondOfThree hb
  have hv : (assemble (a.toNat % 16) [b, c]).val.toNat =
      (a.toNat % 16 * 64 + b.toNat % 64) * 64 + c.toNat % 64 :=
    toNat_ofNat_of_scalar ((a.toNat % 16 * 64 + b.toNat % 64) * 64 + c.toNat % 64) (by omega)
  rw [utf8EncodeChar_eq hv, if_neg (by omega), if_neg (by omega), if_pos (by omega),
    byte_eq (b := a) (by omega), byte_eq (b := b) (by omega), byte_eq (b := c) (by omega)]

theorem encodeChar_four {a b c d : UInt8} (ha : 0xF0 ≤ a.toNat ∧ a.toNat ≤ 0xF4)
    (hb : secondOfFour a b = true) (hc : 0x80 ≤ c.toNat ∧ c.toNat ≤ 0xBF)
    (hd : 0x80 ≤ d.toNat ∧ d.toNat ≤ 0xBF) :
    String.utf8EncodeChar (assemble (a.toNat % 8) [b, c, d]) = [a, b, c, d] := by
  obtain ⟨hb, hlow, hhigh⟩ := bounds_of_secondOfFour hb
  have hv : (assemble (a.toNat % 8) [b, c, d]).val.toNat =
      ((a.toNat % 8 * 64 + b.toNat % 64) * 64 + c.toNat % 64) * 64 + d.toNat % 64 :=
    toNat_ofNat_of_scalar
      (((a.toNat % 8 * 64 + b.toNat % 64) * 64 + c.toNat % 64) * 64 + d.toNat % 64) (by omega)
  rw [utf8EncodeChar_eq hv, if_neg (by omega), if_neg (by omega), if_neg (by omega),
    byte_eq (b := a) (by omega), byte_eq (b := b) (by omega), byte_eq (b := c) (by omega),
    byte_eq (b := d) (by omega)]

theorem encode_eq_of_map {c : Char} {r : Except Utf8Fault (List Char)} {s : List Char}
    {first rest : List UInt8} (hc : String.utf8EncodeChar c = first)
    (ih : ∀ {s}, r = .ok s → encode s = rest) (h : (c :: ·) <$> r = .ok s) :
    encode s = first ++ rest := by
  cases r with
  | error e => cases h
  | ok others =>
    cases h
    show String.utf8EncodeChar c ++ encode others = _
    rw [hc, ih rfl]

theorem encode_of_decodeFrom {position : Nat} {bytes : List UInt8} {s : List Char}
    (h : decodeFrom position bytes = .ok s) : encode s = bytes := by
  have one : ∀ {a : UInt8}, a < 0x80 → a.toNat < 0x80 := UInt8.lt_iff_toNat_lt.mp
  -- The named cases are those in which a character was read; in all others there is no text.
  fun_induction decodeFrom position bytes generalizing s with
  | case1 =>
    cases h
    rfl
  | case2 position a rest ha ih => exact encode_eq_of_map (encodeChar_one (one ha)) ih h
  | case4 position a ha0 ha b rest hb ih =>
    refine encode_eq_of_map (encodeChar_two ?_ ((isTail_iff b).mp hb)) ih h
    simpa [UInt8.le_iff_toNat_le] using ha
  | case8 position a ha0 ha1 ha b hb c rest hc ih =>
    refine encode_eq_of_map (encodeChar_three ?_ hb ((isTail_iff c).mp hc)) ih h
    simpa [UInt8.le_iff_toNat_le] using ha
  | case14 position a ha0 ha1 ha2 ha b hb c hc d rest hd ih =>
    refine encode_eq_of_map
      (encodeChar_four ?_ hb ((isTail_iff c).mp hc) ((isTail_iff d).mp hd)) ih h
    simpa [UInt8.le_iff_toNat_le] using ha
  | _ => cases h

theorem encode_of_decode {bytes : List UInt8} {s : List Char} (h : decode bytes = .ok s) :
    encode s = bytes := encode_of_decodeFrom h

end Utf8

namespace Utf16

theorem encode_eq_of_map {c : Char} {r : Option (List Char)} {s : List Char}
    {first rest : List UInt16} (hc : encodeChar c = first)
    (ih : ∀ {s}, r = some s → encode s = rest) (h : (c :: ·) <$> r = some s) :
    encode s = first ++ rest := by
  cases r with
  | none => cases h
  | some others =>
    cases h
    show encodeChar c ++ encode others = _
    rw [hc, ih rfl]

theorem unit_eq {n : Nat} {u : UInt16} (h : n = u.toNat) : n.toUInt16 = u := by
  rw [h]
  exact UInt16.ofNat_toNat

theorem encodeChar_one {u : UInt16} (hh : ¬ isHigh u = true) (hl : ¬ isLow u = true) :
    encodeChar (Char.ofNat u.toNat) = [u] := by
  rw [isHigh_iff] at hh
  rw [isLow_iff] at hl
  have hlt := u.toNat_lt
  have hn : (Char.ofNat u.toNat).toNat = u.toNat := Utf8.toNat_ofNat_of_scalar _ (by omega)
  unfold encodeChar
  dsimp only
  rw [hn, if_pos (by omega), unit_eq rfl]

theorem encodeChar_two {u v : UInt16} (hh : isHigh u = true) (hl : isLow v = true) :
    encodeChar (Char.ofNat (0x10000 + (u.toNat - 0xD800) * 0x400 + (v.toNat - 0xDC00))) =
      [u, v] := by
  rw [isHigh_iff] at hh
  rw [isLow_iff] at hl
  have hn : (Char.ofNat (0x10000 + (u.toNat - 0xD800) * 0x400 + (v.toNat - 0xDC00))).toNat =
      0x10000 + (u.toNat - 0xD800) * 0x400 + (v.toNat - 0xDC00) :=
    Utf8.toNat_ofNat_of_scalar _ (by omega)
  unfold encodeChar
  dsimp only
  rw [hn, if_neg (by omega), unit_eq (u := u) (by omega), unit_eq (u := v) (by omega)]

theorem encode_of_decode {units : List UInt16} {s : List Char} (h : decode units = some s) :
    encode s = units := by
  fun_induction decode units generalizing s with
  | case1 =>
    cases h
    rfl
  | case3 u hu v rest hv n =>
    rename_i ih
    exact encode_eq_of_map (encodeChar_two hu hv) ih h
  | case6 u rest hh hl ih => exact encode_eq_of_map (encodeChar_one hh hl) ih h
  | _ => cases h

end Utf16

end BusScope.Text
