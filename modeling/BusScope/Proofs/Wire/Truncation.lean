import BusScope.Proofs.Wire.RoundTrip

/-! A body that was cut off is never mistaken for a whole one. Wherever the cut is, in the padding,
in a count or between two members, the reader gets to it and finds the body too short before it
finds anything else wrong. -/

namespace BusScope

variable {α β : Type}

/-- On a beginning or a continuation of these bytes the reader either takes them off, or finds the
body too short. -/
def Follows (r : Reader α) (a : α) (position : Nat) (bytes : List UInt8) : Prop :=
  ∀ body, body <+: bytes ∨ bytes <+: body →
    (∃ needed, position + body.length < needed ∧
      r ⟨position + body.length, position, body⟩ =
        .error (.tooShort needed (position + body.length))) ∨
    ∃ rest, body = bytes ++ rest ∧
      r ⟨position + body.length, position, body⟩ =
        .ok (a, ⟨position + body.length, position + bytes.length, rest⟩)

namespace Follows

theorem of_length {r : Reader α} {a : α} {position : Nat} {bytes : List UInt8}
    (htakes : Takes r a position bytes)
    (hshort : ∀ body : List UInt8, body.length < bytes.length →
      ∃ needed, position + body.length < needed ∧
        r ⟨position + body.length, position, body⟩ =
          .error (.tooShort needed (position + body.length))) :
    Follows r a position bytes := by
  intro body h
  by_cases hl : body.length < bytes.length
  · exact .inl (hshort body hl)
  · have hwhole : bytes <+: body := by
      rcases h with h | h
      · have he : body = bytes := h.eq_of_length_le (by omega)
        rw [he]
      · exact h
    obtain ⟨rest, rfl⟩ := hwhole
    refine .inr ⟨rest, rfl, ?_⟩
    have ht := htakes rest
    rw [List.length_append, ← Nat.add_assoc]
    exact ht

theorem pure (a : α) (position : Nat) : Follows (Pure.pure a) a position [] :=
  fun body _ => .inr ⟨body, rfl, rfl⟩

theorem bind {r : Reader α} {k : α → Reader β} {a : α} {b : β} {position : Nat}
    {first second : List UInt8} (hr : Follows r a position first)
    (hk : Follows (k a) b (position + first.length) second) :
    Follows (r >>= k) b position (first ++ second) := by
  intro body h
  have hfirst : body <+: first ∨ first <+: body := by
    rcases h with h | h
    · exact List.prefix_or_prefix_of_prefix h (List.prefix_append first second)
    · exact .inr ((List.prefix_append first second).trans h)
  -- The cut is within the first part, or what is left of the body follows the second.
  rcases hr body hfirst with ⟨needed, hn, he⟩ | ⟨rest, rfl, he⟩
  · exact .inl ⟨needed, hn, Reader.bind_of_error he⟩
  · rw [List.prefix_append_right_inj, List.prefix_append_right_inj] at h
    rw [Reader.bind_of_ok he]
    have hsize : position + (first ++ rest).length = position + first.length + rest.length := by
      rw [List.length_append, Nat.add_assoc]
    rw [hsize]
    rcases hk rest h with ⟨needed, hn, he⟩ | ⟨left, rfl, he⟩
    · exact .inl ⟨needed, hn, he⟩
    · refine .inr ⟨left, (List.append_assoc first second left).symm, ?_⟩
      have hlength : position + (first ++ second).length =
          position + first.length + second.length := by
        rw [List.length_append, Nat.add_assoc]
      rw [hlength]
      exact he

theorem take (bytes : List UInt8) (position : Nat) :
    Follows (Reader.take bytes.length) bytes position bytes := by
  refine of_length (Takes.take bytes position) fun body hl => ?_
  have hn : ¬ position + bytes.length ≤ position + body.length := by omega
  exact ⟨position + bytes.length, by omega, if_neg hn⟩

theorem word (order : ByteOrder) (width n position : Nat) :
    Follows (Reader.word order width) (n % 256 ^ width) position
      (Encoder.word order width n position) := by
  refine of_length (Takes.word order width n position) fun body hl => ?_
  rw [Encoder.length_word] at hl
  -- Padding may lead past the end of the body. The number after it is then too far away as well.
  have hn : ¬ position + Wire.padding width position + width ≤ position + body.length := by omega
  refine ⟨position + Wire.padding width position + width, by omega, ?_⟩
  have htake : Reader.take width ⟨position + body.length, position + Wire.padding width position,
      body.drop (Wire.padding width position)⟩ =
      .error (.tooShort (position + Wire.padding width position + width)
        (position + body.length)) := if_neg hn
  show (Reader.take width _ >>= fun p => Pure.pure (order.value p.1, p.2)) = _
  rw [htake]
  rfl

theorem atLeast {r : Reader β} {b : β} {n position : Nat} {bytes : List UInt8}
    (hr : Follows r b position bytes) :
    Follows (Reader.atLeast n >>= fun _ => r) b position bytes := by
  intro body h
  have hbind : (Reader.atLeast n >>= fun _ => r) ⟨position + body.length, position, body⟩ =
      (Reader.atLeast n ⟨position + body.length, position, body⟩ >>= fun p => r p.2) := rfl
  rw [hbind, Reader.atLeast]
  by_cases hn : n ≤ position + body.length - position
  · rw [if_pos hn]
    exact hr body h
  · rw [if_neg hn]
    exact .inl ⟨position + n, by omega, rfl⟩

/-- No count has to be vouched for, since one that asks for too much finds the body too short. -/
theorem compositional : Compositional False @Follows where
  pure := pure
  bind := bind
  take := take
  word := word
  atLeast _ hr := atLeast hr

end Follows

/-- The error says how many bytes there are and asks for more than that. -/
def IsTooShort (result : Except WireFault Value) : Prop :=
  ∃ needed available, available < needed ∧ result = .error (.tooShort needed available)

theorem isTooShort_decodeBody_of_prefix {order : ByteOrder} {t : DataType} {v : Value}
    {bytes cut : List UInt8} (ht : ∀ s ∈ t.parts, s.boundFits = true)
    (hv : t.switchesFit v = true) (h : encodeBody order t v = .ok bytes) (hcut : cut <+: bytes)
    (hne : cut ≠ bytes) : IsTooShort (decodeBody order t cut) := by
  have hscalars := Follows.compositional.readsScalars ht order
  have hfollows := Follows.compositional.reader hscalars False.elim hv h
  rw [decodeBody, DataType.decoder_eq_reader]
  show IsTooShort ((t.reader _ order ⟨cut.length, 0, cut⟩).map (·.1))
  have hrun := hfollows cut (.inl hcut)
  rw [Nat.zero_add] at hrun
  rcases hrun with ⟨needed, hn, he⟩ | ⟨rest, rfl, _⟩
  · rw [he]
    exact ⟨needed, cut.length, hn, rfl⟩
  · have hle := hcut.length_le
    rw [List.length_append] at hle
    have hrest : rest = [] := List.eq_nil_of_length_eq_zero (by omega)
    exact absurd (by rw [hrest, List.append_nil]) hne

theorem decodeSample_of_length_lt {t : DataType} {bytes : List UInt8} (h : bytes.length < 4) :
    decodeSample t bytes = .error (.tooShort 4 bytes.length) := by
  unfold decodeSample
  split
  case h_4 => rfl
  all_goals
    simp only [List.length_cons] at h
    omega

/-- The law of cut samples. A cut within the header is found there, any other within the body. -/
theorem decodeSample_cut {t : DataType} {v : Value} {bytes : List UInt8}
    (ht : ∀ s ∈ t.parts, s.boundFits = true) (hv : t.switchesFit v = true)
    (h : encodeSample t v = .ok bytes) :
    ∀ cut, cut <+: bytes → cut ≠ bytes → IsTooShort (decodeSample t cut) := by
  intro cut hcut hne
  unfold encodeSample at h
  cases hb : encodeBody .little t v with
  | error e => rw [hb] at h; cases h
  | ok body =>
    rw [hb] at h
    cases h
    by_cases hl : cut.length < 4
    · exact ⟨4, cut.length, hl, decodeSample_of_length_lt hl⟩
    · have hheader : [0x00, 0x01, 0x00, 0x00] <+: cut := by
        refine List.prefix_of_prefix_length_le (List.prefix_append _ body) hcut ?_
        simp only [List.length_cons, List.length_nil]
        omega
      obtain ⟨left, rfl⟩ := hheader
      rw [List.prefix_append_right_inj] at hcut
      have hleft : left ≠ body := by
        rintro rfl
        exact hne rfl
      exact isTooShort_decodeBody_of_prefix ht hv hb hcut hleft

theorem decodeSample_cut_gauge :
    (∀ s ∈ gauge.parts, s.boundFits = true) ∧ gauge.switchesFit gaugeReading = true ∧
      ∃ bytes, encodeSample gauge gaugeReading = .ok bytes ∧ bytes.length = 48 ∧
        ∀ n < 48, IsTooShort (decodeSample gauge (bytes.take n)) := by
  have ht : ∀ s ∈ gauge.parts, s.boundFits = true := by decide
  have hv : gauge.switchesFit gaugeReading = true := by decide
  refine ⟨ht, hv, _, rfl, rfl, fun n hn => ?_⟩
  refine decodeSample_cut ht hv rfl _ (List.take_prefix n _) fun he => ?_
  have hlength := congrArg List.length he
  rw [List.length_take] at hlength
  have hmin : min n 48 = 48 := hlength
  omega

end BusScope
