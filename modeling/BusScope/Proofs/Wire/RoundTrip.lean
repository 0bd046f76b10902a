import BusScope.Proofs.Wire.Reader
import BusScope.Proofs.Wire.Takes
import BusScope.Wire.Decoder
import BusScope.Wire.Encoder

/-! What is written is read back. The reader of a type takes the bytes of a value off whatever body
they stand in front of, and yields the value's canonical form. -/

namespace BusScope

namespace DataType

/-- Nowhere in the type is there a bound on strings that is too large to count with, nor a sequence
whose items may take no room. -/
def wireSafe (t : DataType) : Bool := t.parts.all fun s => s.boundFits && s.itemsTakeRoom

theorem boundFits_of_wireSafe {t : DataType} (h : t.wireSafe = true) :
    ∀ s ∈ t.parts, s.boundFits = true := fun s hs =>
  (Bool.and_eq_true_iff.mp (List.all_eq_true.mp h s hs)).1

theorem itemsTakeRoom_of_wireSafe {t : DataType} (h : t.wireSafe = true) :
    ∀ s ∈ t.parts, s.itemsTakeRoom = true := fun s hs =>
  (Bool.and_eq_true_iff.mp (List.all_eq_true.mp h s hs)).2

end DataType

theorem decodeBody_encodeBody {order : ByteOrder} {t : DataType} {v : Value} {bytes : List UInt8}
    (ht : t.wireSafe = true) (hv : t.switchesFit v = true) (h : encodeBody order t v = .ok bytes)
    (rest : List UInt8) : decodeBody order t (bytes ++ rest) = .ok (t.canonical v) := by
  have hscalars := Takes.compositional.readsScalars (DataType.boundFits_of_wireSafe ht) order
  have hroom := DataType.itemsTakeRoom_of_wireSafe ht
  have htakes := Takes.compositional.reader hscalars (fun _ => hroom) hv h
  rw [decodeBody, DataType.decoder_eq_reader]
  exact htakes.run_start rest

theorem decodeSample_encodeSample {t : DataType} {v : Value} {bytes : List UInt8}
    (ht : t.wireSafe = true) (hv : t.switchesFit v = true) (h : encodeSample t v = .ok bytes)
    (rest : List UInt8) : decodeSample t (bytes ++ rest) = .ok (t.canonical v) := by
  unfold encodeSample at h
  cases hb : encodeBody .little t v with
  | error e => rw [hb] at h; cases h
  | ok body =>
    rw [hb] at h
    cases h
    exact decodeBody_encodeBody ht hv hb rest

/-- The round trip over all types and values. Members of equal names do no harm, since they are
written from the same value. -/
theorem wire_roundTrip {t : DataType} {v : Value} (ht : t.wireSafe = true)
    (hv : t.switchesFit v = true) :
    (encodeBody .little t v).map List.length = (encodeBody .big t v).map List.length ∧
      (∀ order bytes rest, encodeBody order t v = .ok bytes →
        decodeBody order t (bytes ++ rest) = .ok (t.canonical v)) ∧
      (∀ bytes rest, encodeSample t v = .ok bytes →
        decodeSample t (bytes ++ rest) = .ok (t.canonical v)) ∧
      ∀ little big, encodeBody .little t v = .ok little → encodeBody .big t v = .ok big →
        decodeBody .little t little = decodeBody .big t big := by
  refine ⟨DataType.sameLength_encoder .little t v 0, ?_, ?_, ?_⟩
  · intro order bytes rest h
    exact decodeBody_encodeBody ht hv h rest
  · intro bytes rest h
    exact decodeSample_encodeSample ht hv h rest
  · intro little big hl hb
    have hlittle := decodeBody_encodeBody ht hv hl []
    have hbig := decodeBody_encodeBody ht hv hb []
    rw [List.append_nil] at hlittle hbig
    rw [hlittle, hbig]

def gauge : DataType :=
  .struct "Gauge" [
    (Field.nested "state" (.enum "State" [⟨"idle", 0⟩, ⟨"off", 0⟩, ⟨"busy", 1⟩])).asKey,
    (Field.ofPrimitive "note" (.string (some 8))).asOptional,
    .of "limits" (.sequence "" (.struct "Limit" [.ofPrimitive "low" .int16,
      .ofPrimitive "high" .float64]) (some 4)),
    .of "choice" (.union "Choice" (.ofPrimitive .bool)
      [⟨"counts", [1], .array "" (.ofPrimitive .uint32) 2⟩] none)]

def gaugeReading : Value :=
  .ofMembers [("state", .enum 0 "off"), ("extra", .null), ("note", .scalar (.string "ok")),
    ("limits", .sequence [.ofMembers [("low", .scalar (.int16 (-2))),
      ("high", .scalar (.float64 ⟨7⟩))]]),
    ("choice", .union 1 "?" (.array [.scalar (.uint32 5), .scalar (.uint32 6)]))]

theorem wire_roundTrip_gauge :
    gauge.wireSafe = true ∧ gauge.switchesFit gaugeReading = true ∧
      ∃ bytes, encodeBody .big gauge gaugeReading = .ok bytes ∧ bytes.length = 44 ∧
        ∀ rest, decodeBody .big gauge (bytes ++ rest) = .ok (.ofMembers [
          ("state", .enum 0 "idle"), ("note", .scalar (.string "ok")),
          ("limits", .sequence [.ofMembers [("low", .scalar (.int16 (-2))),
            ("high", .scalar (.float64 ⟨7⟩))]]),
          ("choice", .union 1 "counts" (.array [.scalar (.uint32 5), .scalar (.uint32 6)]))]) := by
  have ht : gauge.wireSafe = true := by decide
  have hv : gauge.switchesFit gaugeReading = true := by decide
  refine ⟨ht, hv, _, rfl, rfl, fun rest => ?_⟩
  exact (wire_roundTrip ht hv).2.1 .big _ rest rfl

end BusScope
