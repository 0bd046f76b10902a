import BusScope.Proofs.DataType.Parts

/-! Encoding as a program that appends to a buffer. It aligns to where the buffer ends, and what it
has written stays there when it fails. What it appends is what the encoder of the type gives for that
position, and of the position only the remainder by eight makes a difference, eight being a multiple
of the width of every number. -/

namespace BusScope

open Text

theorem Encoder.andThen_ok (bytes : List UInt8) (position : Nat)
    (next : Nat → Except WireFault (List UInt8)) :
    andThen (.ok bytes) position next = (next (position + bytes.length)).map (bytes ++ ·) := by
  unfold andThen
  dsimp only
  cases next (position + bytes.length) <;> rfl

/-- On failure the buffer is left as it was by then. -/
abbrev Writer := ExceptT WireFault (StateM (List UInt8)) Unit

namespace Writer

def on (w : Writer) (buffer : List UInt8) : Except WireFault Unit × List UInt8 := w.run.run buffer

theorem on_bind (w next : Writer) (buffer : List UInt8) :
    on (w >>= fun _ => next) buffer = match w.on buffer with
      | (.ok (), written) => next.on written
      | (.error fault, written) => (.error fault, written) := by
  unfold on
  rw [ExceptT.run_bind, StateT.run_bind]
  rcases StateT.run (ExceptT.run w) buffer with ⟨_ | _, _⟩ <;> rfl

def put (bytes : List UInt8) : Writer := modify (· ++ bytes)

def align (width : Nat) : Writer := do
  let buffer ← get
  put (List.replicate (Wire.padding width buffer.length) 0)

def word (order : ByteOrder) (width n : Nat) : Writer := do
  align width
  put (order.bytes width n)

def count (order : ByteOrder) (n : Nat) : Writer :=
  if n < 0x100000000 then word order 4 n else throw (.data (.countRange n))

def string (order : ByteOrder) (max : Option Nat) (s : String) : Writer :=
  let bytes := Utf8.encode s.toList
  if max.any (· < bytes.length) then throw (.data .stringBound)
  else do
    count order (bytes.length + 1)
    put bytes
    put [0]

def wstring (order : ByteOrder) (max : Option Nat) (s : String) : Writer :=
  let units := Utf16.encode s.toList
  if max.any (· < units.length) then throw (.data .wstringBound)
  else do
    count order units.length
    forM units fun u => word order 2 u.toNat

def primitive (order : ByteOrder) (kind : Primitive) (v : Value) : Writer :=
  match kind, v with
  | .bool, .scalar (.bool b) => put [if b then 1 else 0]
  | .uint8, .scalar (.uint8 n) => put [n]
  | .int8, .scalar (.int8 n) => put [n.toUInt8]
  | .uint16, .scalar (.uint16 n) => word order 2 n.toNat
  | .int16, .scalar (.int16 n) => word order 2 n.toUInt16.toNat
  | .uint32, .scalar (.uint32 n) => word order 4 n.toNat
  | .int32, .scalar (.int32 n) => word order 4 n.toUInt32.toNat
  | .float32, .scalar (.float32 x) => word order 4 x.bits.toNat
  | .uint64, .scalar (.uint64 n) => word order 8 n.toNat
  | .int64, .scalar (.int64 n) => word order 8 n.toUInt64.toNat
  | .float64, .scalar (.float64 x) => word order 8 x.bits.toNat
  | .char, .scalar (.char c) =>
    if c.toNat < 256 then put [UInt8.ofNat c.toNat] else throw (.data .charRange)
  | .string max, .scalar (.string s) => string order max s
  | .wstring max, .scalar (.wstring s) => wstring order max s
  | _, _ => throw (.mismatch kind.spelling v)

def field (f : Field (Value → Writer)) (member : Option Value) : Writer :=
  if f.optional then
    match member with
    | none | some .null => put [0]
    | some v => do
      put [1]
      f.type v
  else
    match member with
    | none => throw (.data (.missingField f.name))
    | some v => f.type v

def struct (fs : List (Field (Value → Writer))) (v : Value) : Writer :=
  match v with
  | .struct members => forM fs fun f => field f (SortedList.find? f.name members)
  | _ => throw (.mismatch "struct" v)

def sequence (order : ByteOrder) (max : Option Nat) (element : Value → Writer) (v : Value) :
    Writer :=
  match v with
  | .sequence vs =>
    if max.any (· < vs.length) then throw (.data .sequenceBound)
    else do
      count order vs.length
      forM vs element
  | _ => throw (.mismatch "sequence" v)

def array (length : Nat) (element : Value → Writer) (v : Value) : Writer :=
  match v with
  | .array vs =>
    if vs.length = length then forM vs element
    else throw (.data (.arrayLength length vs.length))
  | _ => throw (.mismatch "array" v)

def enum (order : ByteOrder) (v : Value) : Writer :=
  match v with
  | .enum ordinal _ =>
    if -0x80000000 ≤ ordinal.toInt ∧ ordinal.toInt < 0x80000000 then
      word order 4 ordinal.toInt32.toUInt32.toNat
    else throw (.data .enumOrdinal)
  | _ => throw (.mismatch "enum" v)

def union (discriminator : DataType) (switch : Value → Writer) (cases : List (Case (Value → Writer)))
    (fallback : Option (Case (Value → Writer))) (v : Value) : Writer :=
  match v with
  | .union n _ content =>
    match discriminator.switchValue n with
    | .error fault => throw fault
    | .ok w => do
      switch w
      match Case.select cases fallback n with
      | some c => c.type content
      | none => pure ()
  | _ => throw (.mismatch "union" v)

end Writer

def DataType.writer (order : ByteOrder) : DataType → Value → Writer := fold
  { primitive := Writer.primitive order
    struct := Writer.struct
    sequence := Writer.sequence order
    array := Writer.array
    enum := fun _ => Writer.enum order
    union := Writer.union }

/-- On two buffers whose lengths leave the same remainder by eight, the writer ends in the same way
and appends the same bytes; if all goes well they are the ones that are given for the position. -/
def Writes (w : Writer) (encode : Nat → Except WireFault (List UInt8)) : Prop :=
  ∀ b c : List UInt8, b.length ≡ c.length [MOD 8] → ∃ outcome written,
    w.on b = (outcome, b ++ written) ∧ w.on c = (outcome, c ++ written) ∧
      encode b.length = outcome.map fun _ => written

namespace Writes

variable {w next : Writer} {encode after : Nat → Except WireFault (List UInt8)}

theorem pure : Writes (pure ()) fun _ => .ok [] := by
  intro b c _
  exact ⟨.ok (), [], by rw [List.append_nil]; rfl, by rw [List.append_nil]; rfl, rfl⟩

theorem put (bytes : List UInt8) : Writes (.put bytes) fun _ => .ok bytes :=
  fun _ _ _ => ⟨.ok (), bytes, rfl, rfl, rfl⟩

theorem fail (fault : WireFault) : Writes (throw fault) fun _ => .error fault := by
  intro b c _
  exact ⟨.error fault, [], by rw [List.append_nil]; rfl, by rw [List.append_nil]; rfl, rfl⟩

theorem bind (h : Writes w encode) (hn : Writes next after) :
    Writes (w >>= fun _ => next) fun p => Encoder.andThen (encode p) p after := by
  intro b c hbc
  obtain ⟨outcome, first, hb, hc, he⟩ := h b c hbc
  rw [Writer.on_bind, Writer.on_bind, hb, hc]
  beta_reduce
  rw [he]
  cases outcome with
  | error fault => exact ⟨.error fault, first, rfl, rfl, rfl⟩
  | ok _ =>
    have hlength : (b ++ first).length ≡ (c ++ first).length [MOD 8] := by
      rw [List.length_append, List.length_append]
      exact hbc.add_right _
    obtain ⟨outcome, second, hb, hc, he⟩ := hn _ _ hlength
    rw [List.length_append] at he
    refine ⟨outcome, first ++ second, ?_, ?_, ?_⟩
    · rw [← List.append_assoc]
      exact hb
    · rw [← List.append_assoc]
      exact hc
    · rw [Except.map, Encoder.andThen_ok, he]
      cases outcome <;> rfl

theorem ite {P : Prop} [Decidable P] (h : Writes w encode) (hn : Writes next after) :
    Writes (if P then w else next) fun p => if P then encode p else after p := by
  split
  · exact h
  · exact hn

theorem align {width : Nat} (hw : width ∣ 8) :
    Writes (.align width) fun p => .ok (List.replicate (Wire.padding width p) 0) := by
  intro b c hbc
  have hpadding : Wire.padding width b.length = Wire.padding width c.length := by
    unfold Wire.padding
    rw [hbc.of_dvd hw]
  refine ⟨.ok (), List.replicate (Wire.padding width b.length) 0, rfl, ?_, rfl⟩
  rw [hpadding]
  rfl

theorem word (order : ByteOrder) {width : Nat} (hw : width ∣ 8) (n : Nat) :
    Writes (.word order width n) fun p => .ok (Encoder.word order width n p) :=
  (align hw).bind (put (order.bytes width n))

theorem count (order : ByteOrder) (n : Nat) : Writes (.count order n) (Encoder.count order n) :=
  (word order (by decide) n).ite (fail _)

theorem words (order : ByteOrder) (units : List UInt16) :
    Writes (forM units fun u => Writer.word order 2 u.toNat)
      fun p => .ok (Encoder.words order 2 (units.map (·.toNat)) p) := by
  induction units with
  | nil => exact pure
  | cons u units ih =>
    rw [List.forM_cons]
    exact (word order (by decide) u.toNat).bind ih

theorem string (order : ByteOrder) (max : Option Nat) (s : String) :
    Writes (.string order max s) (Encoder.string order max s) :=
  (fail _).ite ((count order _).bind ((put _).bind (put _)))

theorem wstring (order : ByteOrder) (max : Option Nat) (s : String) :
    Writes (.wstring order max s) (Encoder.wstring order max s) :=
  (fail _).ite ((count order _).bind (words order _))

theorem primitive (order : ByteOrder) (kind : Primitive) (v : Value) :
    Writes (.primitive order kind v) (Encoder.primitive order kind v) := by
  unfold Writer.primitive
  split
  case h_1 | h_2 | h_3 => exact put _
  case h_4 | h_5 => exact word order (by decide) _
  case h_6 | h_7 | h_8 => exact word order (by decide) _
  case h_9 | h_10 | h_11 => exact word order (by decide) _
  case h_12 c =>
    exact (put _).ite (fail _)
  case h_13 max s => exact string order max s
  case h_14 max s => exact wstring order max s
  case h_15 =>
    have hmismatch : Encoder.primitive order kind v = fun _ => .error (.mismatch kind.spelling v) := by
      funext p
      unfold Encoder.primitive
      split
      · next s =>
        unfold Encoder.scalar?
        split <;> simp_all
      · rfl
    rw [hmismatch]
    exact fail _

theorem items {element : Value → Writer} {encode : Encoder}
    (h : ∀ v, Writes (element v) (encode v)) (vs : List Value) :
    Writes (forM vs element) (Encoder.items encode vs) := by
  induction vs with
  | nil => exact pure
  | cons v vs ih =>
    rw [List.forM_cons]
    exact (h v).bind ih

theorem enum (order : ByteOrder) (v : Value) : Writes (.enum order v) (Encoder.enum order v) := by
  cases v with
  | enum ordinal name =>
    exact (word order (by decide) _).ite (fail _)
  | scalar | struct | sequence | array | union | null => exact fail _

theorem sequence (order : ByteOrder) (max : Option Nat) {element : Value → Writer}
    {encode : Encoder} (h : ∀ v, Writes (element v) (encode v)) (v : Value) :
    Writes (.sequence order max element v) (Encoder.sequence order max encode v) := by
  cases v with
  | sequence vs =>
    exact (fail _).ite ((count order vs.length).bind (items h vs))
  | scalar | struct | enum | array | union | null => exact fail _

theorem array (length : Nat) {element : Value → Writer} {encode : Encoder}
    (h : ∀ v, Writes (element v) (encode v)) (v : Value) :
    Writes (.array length element v) (Encoder.array length encode v) := by
  cases v with
  | array vs =>
    exact (items h vs).ite (fail _)
  | scalar | struct | enum | sequence | union | null => exact fail _

section Parts

variable {write : DataType → Value → Writer} {encode : DataType → Encoder}

theorem field {f : Field DataType} (h : ∀ v, Writes (write f.type v) (encode f.type v))
    (member : Option Value) :
    Writes (.field (f.map write) member) (Encoder.field (f.map encode) member) := by
  refine ite ?_ ?_
  · cases member with
    | none => exact put [0]
    | some v =>
      cases v with
      | null => exact put [0]
      | scalar | struct | sequence | array | enum | union => exact (put [1]).bind (h _)
  · cases member with
    | none => exact fail _
    | some v => exact h v

theorem struct {fs : List (Field DataType)}
    (h : ∀ f ∈ fs, ∀ v, Writes (write f.type v) (encode f.type v)) (v : Value) :
    Writes (.struct (fs.map (Field.map write)) v) (Encoder.struct (fs.map (Field.map encode)) v) := by
  cases v with
  | struct members =>
    show Writes (forM _ _) (Encoder.fields _ members)
    induction fs with
    | nil => exact pure
    | cons f fs ih =>
      obtain ⟨hf, hfs⟩ := List.forall_mem_cons.mp h
      rw [List.map_cons, List.map_cons, List.forM_cons]
      exact (field hf _).bind (ih hfs)
  | scalar | array | enum | sequence | union | null => exact fail _

theorem union {discriminator : DataType} {cases : List (Case DataType)}
    {fallback : Option (Case DataType)}
    (hd : ∀ v, Writes (write discriminator v) (encode discriminator v))
    (hc : ∀ c ∈ cases ++ fallback.toList, ∀ v, Writes (write c.type v) (encode c.type v))
    (v : Value) :
    Writes (.union discriminator (write discriminator) (cases.map (Case.map write))
        (fallback.map (Case.map write)) v)
      (Encoder.union (discriminator.encodeSwitch (encode discriminator))
        (cases.map (Case.map encode)) (fallback.map (Case.map encode)) v) := by
  cases v with
  | union n name content =>
    unfold Writer.union Encoder.union DataType.encodeSwitch
    dsimp only
    cases discriminator.switchValue n with
    | error fault => exact fail fault
    | ok w =>
      refine (hd w).bind ?_
      rw [Case.select_map, Case.select_map]
      cases hselect : Case.select cases fallback n with
      | none => exact pure
      | some c => exact hc c (Case.mem_of_select hselect) content
  | scalar | array | enum | sequence | struct | null => exact fail _

end Parts

end Writes

namespace DataType

theorem writes_writer (order : ByteOrder) (t : DataType) (v : Value) :
    Writes (t.writer order v) (t.encoder order v) := by
  induction t generalizing v with
  | primitive name kind => exact .primitive order kind v
  | struct name fields ih =>
    rw [writer, fold_struct, encoder, fieldEncoders_eq]
    exact .struct ih v
  | sequence name element max ih => exact .sequence order max ih v
  | array name element length ih => exact .array length ih v
  | enum name variants => exact .enum order v
  | union name discriminator cases fallback ihd ihc =>
    rw [writer, fold_union, encoder, caseEncoders_eq, fallbackEncoder_eq]
    exact .union ihd ihc v
  | aliased name target ih => exact ih v

/-- How a value is encoded depends on the buffer only by the remainder of its length by eight: with
the same remainder the same bytes come behind what is there already, or the same failure occurs. -/
theorem encoding_depends_on_alignment (order : ByteOrder) (t : DataType) (v : Value)
    {b c : List UInt8} (h : b.length ≡ c.length [MOD 8]) :
    ∃ outcome written,
      (t.writer order v).on b = (outcome, b ++ written) ∧
      (t.writer order v).on c = (outcome, c ++ written) ∧
      t.encoder order v b.length = outcome.map (fun _ => written) ∧
      t.encoder order v c.length = outcome.map fun _ => written := by
  obtain ⟨outcome, written, hb, hc, hencode⟩ := t.writes_writer order v b c h
  obtain ⟨outcome', written', hc', -, hencode'⟩ := t.writes_writer order v c b h.symm
  obtain ⟨rfl, happend⟩ := Prod.mk.inj (hc.symm.trans hc')
  rw [← List.append_cancel_left happend] at hencode'
  exact ⟨outcome, written, hb, hc, hencode, hencode'⟩

def probe : DataType :=
  .struct "Probe" [.ofPrimitive "name" (.string none),
    (Field.of "readings" (.sequence "" (.ofPrimitive .uint64) (some 4))).asOptional]

theorem encoding_depends_on_alignment_probe :
    let v : Value := .struct [("name", .scalar (.string "oil")),
      ("readings", .sequence [.scalar (.uint64 5)])]
    let b : List UInt8 := [1, 2, 3]
    let c : List UInt8 := List.replicate 11 0
    let written : List UInt8 := [0, 0, 0, 0, 4, 111, 105, 108, 0, 1, 0, 0, 0, 0, 0, 0, 1] ++
      [0, 0, 0, 0, 0, 0, 0, 0, 0, 0, 0, 5]
    b.length ≡ c.length [MOD 8] ∧ (probe.writer .big v).on b = (.ok (), b ++ written) ∧
      (probe.writer .big v).on c = (.ok (), c ++ written) := by
  intro v b c written
  have hlength : b.length ≡ c.length [MOD 8] := by decide
  have hwritten : (probe.encoder .big v b.length).toOption = some written := by decide +kernel
  obtain ⟨outcome, bytes, hb, hc, hencode, -⟩ :=
    encoding_depends_on_alignment .big probe v hlength
  rw [hencode] at hwritten
  cases outcome with
  | error fault => cases hwritten
  | ok _ =>
    rw [← Option.some.inj hwritten]
    exact ⟨hlength, hb, hc⟩

end DataType

end BusScope
