import BusScope.Proofs.Text.Unicode
import BusScope.Proofs.Wire.Written

/-! Readers face to face with what was written for them. What there is to say of a reader, of the
bytes and of what it should get off them is said of the smallest readers only; it then holds of
every reader of a scalar, since those are put together from the smallest. -/

namespace BusScope

open Text

/-- The relation of a reader to the bytes that were written for it at a position carries over from
readers to those that are put together from them. With `room`, a count is only asked about if at
least that many bytes were written after it. -/
structure Compositional (room : Prop)
    (R : ∀ {α : Type}, Reader α → α → Nat → List UInt8 → Prop) : Prop where
  pure : ∀ {α : Type} (a : α) (position : Nat), R (Pure.pure a) a position []
  bind : ∀ {α β : Type} {r : Reader α} {k : α → Reader β} {a : α} {b : β} {position : Nat}
    {first second : List UInt8}, R r a position first →
    R (k a) b (position + first.length) second → R (r >>= k) b position (first ++ second)
  take : ∀ (bytes : List UInt8) (position : Nat),
    R (Reader.take bytes.length) bytes position bytes
  word : ∀ (order : ByteOrder) (width n position : Nat),
    R (Reader.word order width) (n % 256 ^ width) position (Encoder.word order width n position)
  atLeast : ∀ {β : Type} {r : Reader β} {b : β} {n position : Nat} {bytes : List UInt8},
    (room → n ≤ bytes.length) → R r b position bytes →
    R (Reader.atLeast n >>= fun _ => r) b position bytes

/-- A bound on strings leaves room for the terminator in a word of 64 bits. -/
def Primitive.boundFits : Primitive → Bool
  | .string (some m) => m + 1 < 0x10000000000000000
  | _ => true

namespace Compositional

variable {room : Prop} {R : ∀ {α : Type}, Reader α → α → Nat → List UInt8 → Prop} {α β : Type}

theorem map (hR : Compositional room R) {r : Reader α} {a : α} {position : Nat}
    {bytes : List UInt8} (f : α → β) (h : R r a position bytes) :
    R (f <$> r) (f a) position bytes := by
  have hb : R (r >>= fun x => Pure.pure (f x)) (f a) position (bytes ++ []) :=
    hR.bind h (hR.pure (f a) _)
  rw [List.append_nil] at hb
  exact hb

theorem byte (hR : Compositional room R) (b : UInt8) (position : Nat) :
    R Reader.byte b position [b] :=
  hR.map (fun bytes : List UInt8 => bytes.headD 0) (hR.take [b] position)

theorem ofByte (hR : Compositional room R) {f : UInt8 → α} {a : α} {b : UInt8} {position : Nat}
    (h : f b = a) : R (Reader.byte >>= fun x => Pure.pure (f x)) a position [b] := by
  subst h
  exact hR.map f (hR.byte b position)

theorem wordOf (hR : Compositional room R) {order : ByteOrder} {width n : Nat} (position : Nat)
    (hn : n < 256 ^ width) :
    R (Reader.word order width) n position (Encoder.word order width n position) := by
  have hw := hR.word order width n position
  rwa [Nat.mod_eq_of_lt hn] at hw

theorem ofWord (hR : Compositional room R) {order : ByteOrder} {width n position : Nat}
    {f : Nat → α} {a : α} (hn : n < 256 ^ width) (h : f n = a) :
    R (Reader.word order width >>= fun x => Pure.pure (f x)) a position
      (Encoder.word order width n position) := by
  subst h
  exact hR.map f (hR.wordOf position hn)

theorem count (hR : Compositional room R) {order : ByteOrder} {k : Nat → Reader β}
    {n position : Nat} {b : β} {more : List UInt8} (hn : n < 0x100000000)
    (hm : room → n ≤ more.length)
    (hk : R (k n) b (position + (Encoder.word order 4 n position).length) more) :
    R (Reader.count order >>= k) b position (Encoder.word order 4 n position ++ more) := by
  have hb : Reader.count order >>= k =
      Reader.word order 4 >>= fun n => Reader.atLeast n >>= fun _ => k n := by
    simp [Reader.count]
  rw [hb]
  exact hR.bind (hR.wordOf position (by omega)) (hR.atLeast hm hk)

theorem times_cons (hR : Compositional room R) {r : Reader α} {n position : Nat} {a : α}
    {rest : List α} {first second : List UInt8} (hr : R r a position first)
    (hrest : R (Reader.times r n) rest (position + first.length) second) :
    R (Reader.times r (n + 1)) (a :: rest) position (first ++ second) :=
  hR.bind hr (hR.map (a :: ·) hrest)

theorem words (hR : Compositional room R) (order : ByteOrder) (ns : List Nat) (position : Nat) :
    R (Reader.times (Reader.word order 2) ns.length) (ns.map (· % 256 ^ 2)) position
      (Encoder.words order 2 ns position) := by
  induction ns generalizing position with
  | nil => exact hR.pure [] position
  | cons n ns ih => exact hR.times_cons (hR.word order 2 n position) (ih _)

theorem items (hR : Compositional room R) {r : Reader α} {e : Encoder} {g : Value → α}
    {vs : List Value} {position : Nat} {bytes : List UInt8}
    (h : ∀ v ∈ vs, ∀ p b, e v p = .ok b → R r (g v) p b)
    (he : Encoder.items e vs position = .ok bytes) :
    R (Reader.times r vs.length) (vs.map g) position bytes := by
  induction vs generalizing position bytes with
  | nil => exact (Except.ok.inj he) ▸ hR.pure [] position
  | cons v vs ih =>
    obtain ⟨hv, hvs⟩ := List.forall_mem_cons.mp h
    obtain ⟨a, b, ha, hb, rfl⟩ := Encoder.andThen_eq_ok.mp he
    exact hR.times_cons (hv position a ha) (ih hvs hb)

theorem string (hR : Compositional room R) {order : ByteOrder} {max : Option Nat} {s : String}
    {position : Nat} {bytes : List UInt8} (hm : ∀ m ∈ max, m + 1 < 0x10000000000000000)
    (h : Encoder.string order max s position = .ok bytes) :
    R (Reader.string order max) s position bytes := by
  obtain ⟨hb, hn, rfl⟩ := Encoder.string_eq_ok.mp h
  have hl : (Utf8.encode s.toList ++ [0]).length = (Utf8.encode s.toList).length + 1 := by simp
  have hbound : ¬ max.any (Reader.longest · < (Utf8.encode s.toList).length + 1) = true := by
    cases max with
    | none => simp
    | some m =>
      have hfit := hm m rfl
      simp only [Option.any_some, decide_eq_true_eq, Reader.longest, Nat.mod_eq_of_lt hfit]
        at hb ⊢
      omega
  have hd : Reader.dropTerminator (Utf8.encode s.toList ++ [0]) = Utf8.encode s.toList := by
    simp [Reader.dropTerminator]
  refine hR.count hn (fun _ => Nat.le_of_eq hl.symm) ?_
  rw [if_neg hbound]
  have ht := hR.take (Utf8.encode s.toList ++ [0]) (position + (Encoder.word order 4
    ((Utf8.encode s.toList).length + 1) position).length)
  rw [hl] at ht
  rw [← List.append_nil (Utf8.encode s.toList ++ [0])]
  refine hR.bind ht ?_
  rw [hd, Utf8.decode_encode]
  have hs : String.ofList s.toList = s := String.ofList_toList
  dsimp only
  rw [hs]
  exact hR.pure s _

theorem wstring (hR : Compositional room R) {order : ByteOrder} {max : Option Nat} {s : String}
    {position : Nat} {bytes : List UInt8} (h : Encoder.wstring order max s position = .ok bytes) :
    R (Reader.wstring order max) s position bytes := by
  obtain ⟨hb, hn, rfl⟩ := Encoder.wstring_eq_ok.mp h
  have hw := hR.words order ((Utf16.encode s.toList).map (·.toNat)) (position + (Encoder.word order
    4 (Utf16.encode s.toList).length position).length)
  rw [List.length_map] at hw
  have hu : (((Utf16.encode s.toList).map (·.toNat)).map (· % 256 ^ 2)).map (·.toUInt16) =
      Utf16.encode s.toList := by
    rw [List.map_map, List.map_map]
    refine (List.map_congr_left fun u _ => ?_).trans (List.map_id _)
    have hlt : u.toNat < 256 ^ 2 := u.toNat_lt
    show (u.toNat % 256 ^ 2).toUInt16 = u
    rw [Nat.mod_eq_of_lt hlt]
    exact UInt16.ofNat_toNat
  refine hR.count hn (fun _ => ?_) ?_
  · have hle := Encoder.length_le_words order ((Utf16.encode s.toList).map (·.toNat))
      (position + (Encoder.word order 4 (Utf16.encode s.toList).length position).length)
    rwa [List.length_map] at hle
  rw [if_neg hb]
  rw [← List.append_nil (Encoder.words _ _ _ _)]
  refine hR.bind hw ?_
  rw [hu, Utf16.decode_encode]
  have hs : String.ofList s.toList = s := String.ofList_toList
  dsimp only
  rw [hs]
  exact hR.pure s _

theorem scalar (hR : Compositional room R) {order : ByteOrder} {kind : Primitive} {s : Scalar}
    {position : Nat} {bytes : List UInt8} (hk : kind.boundFits = true)
    (h : Encoder.scalar? order kind s position = some (.ok bytes)) :
    R (Reader.scalar order kind) s position bytes := by
  unfold Encoder.scalar? at h
  split at h
  case h_1 b =>
    cases h
    exact hR.ofByte (by cases b <;> rfl)
  case h_2 n =>
    cases h
    exact hR.ofByte rfl
  case h_3 n =>
    cases h
    exact hR.ofByte (congrArg Scalar.int8 (Int8.toInt8_toUInt8 n))
  case h_4 n =>
    cases h
    exact hR.ofWord n.toNat_lt (congrArg Scalar.uint16 UInt16.ofNat_toNat)
  case h_5 n =>
    cases h
    exact hR.ofWord n.toUInt16.toNat_lt (congrArg Scalar.int16 (by simp))
  case h_6 n =>
    cases h
    exact hR.ofWord n.toNat_lt (congrArg Scalar.uint32 UInt32.ofNat_toNat)
  case h_7 n =>
    cases h
    exact hR.ofWord n.toUInt32.toNat_lt (congrArg Scalar.int32 (by simp))
  case h_8 x =>
    cases h
    exact hR.ofWord x.bits.toNat_lt (congrArg (Scalar.float32 ⟨·⟩) UInt32.ofNat_toNat)
  case h_9 n =>
    cases h
    exact hR.ofWord n.toNat_lt (congrArg Scalar.uint64 UInt64.ofNat_toNat)
  case h_10 n =>
    cases h
    exact hR.ofWord n.toUInt64.toNat_lt (congrArg Scalar.int64 (by simp))
  case h_11 x =>
    cases h
    exact hR.ofWord x.bits.toNat_lt (congrArg (Scalar.float64 ⟨·⟩) UInt64.ofNat_toNat)
  case h_12 c =>
    rw [Option.some.injEq] at h
    split at h
    · next hc =>
      cases h
      refine hR.ofByte (congrArg Scalar.char ?_)
      rw [UInt8.toNat_ofNat', Nat.mod_eq_of_lt hc]
      exact Char.ofNat_toNat c
    · cases h
  case h_13 max text =>
    have hm : ∀ m ∈ max, m + 1 < 0x10000000000000000 := by
      intro m hm
      cases hm
      simpa [Primitive.boundFits] using hk
    exact hR.map Scalar.string (hR.string hm (Option.some.inj h))
  case h_14 text =>
    exact hR.map Scalar.wstring (hR.wstring (Option.some.inj h))
  case h_15 =>
    cases h

end Compositional

end BusScope
