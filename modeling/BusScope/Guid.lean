import BusScope.Text.Split
import BusScope.Text.Hex

/-!
Globally unique identifiers of participants and endpoints: twelve bytes shared by everything that
one participant owns, and four bytes for the entity. The display form writes the shared bytes with
two digits each and the entity bytes without padding; reading also takes the form with sixteen
dotted bytes, each a hexadecimal number of at most two characters.
-/

namespace BusScope

open Text

structure Guid where
  participant : Vector UInt8 12
  entity : Vector UInt8 4
deriving DecidableEq

namespace Guid

def bytes (g : Guid) : List UInt8 := g.participant.toList ++ g.entity.toList

def ofBytes? (bytes : List UInt8) : Option Guid :=
  if h : bytes.length = 16 then
    some ⟨⟨(bytes.take 12).toArray, by simp [h]⟩, ⟨(bytes.drop 12).toArray, by simp [h]⟩⟩
  else none

def zero : Guid := ⟨Vector.replicate 12 0, Vector.replicate 4 0⟩

/-- The entity bytes under which a participant itself is known. -/
def participantEntity : Vector UInt8 4 := #v[0x00, 0x00, 0x01, 0xC1]

def ofParticipant (participant : Vector UInt8 12) : Guid := ⟨participant, participantEntity⟩

def sameParticipant (a b : Guid) : Bool := a.participant == b.participant

theorem sameParticipant_iff {a b : Guid} :
    a.sameParticipant b = true ↔ a.participant = b.participant := beq_iff_eq

def isValid (g : Guid) : Bool := g.bytes.any (· != 0)

instance : Ord Guid := ⟨compareOn bytes⟩

theorem bytes_inj {a b : Guid} (h : a.bytes = b.bytes) : a = b := by
  obtain ⟨h1, h2⟩ := List.append_inj h (by simp)
  cases a
  cases b
  simp only [mk.injEq]
  exact ⟨Vector.toList_inj.mp h1, Vector.toList_inj.mp h2⟩

instance : Std.TransOrd Guid := inferInstanceAs (Std.TransCmp (compareOn bytes))

instance : Std.LawfulEqOrd Guid where
  compare_self {a} := show compare a.bytes a.bytes = .eq from Std.ReflOrd.compare_self
  eq_of_compare {a b} h :=
    bytes_inj (Std.LawfulEqOrd.eq_of_compare (show compare a.bytes b.bytes = .eq from h))

def chars (g : Guid) : List Char :=
  join ['.'] (g.participant.toList.map Hex.padded) ++ '|' ::
    join ['.'] (g.entity.toList.map Hex.plain)

def text (g : Guid) : String := String.ofList g.chars

def diagnostic (g : Guid) : String := "Guid(" ++ g.text ++ ")"

/-- One dotted part: a digit, two digits, or a plus sign and a digit. -/
def parsePart? : List Char → Option UInt8
  | [c] => (Hex.value? c).map (·.toUInt8)
  | [c, d] => do
    let low ← Hex.value? d
    let high ← if c = '+' then some 0 else Hex.value? c
    some (high * 16 + low).toUInt8
  | _ => none

def parseBytes? (s : List Char) : Option (List UInt8) :=
  (splitAt '.' s).mapM parsePart?

def parseChars? (s : List Char) : Option Guid :=
  let s := trim s
  match splitFirst? '|' s with
  | none => (parseBytes? s).bind ofBytes?
  | some (front, back) => do
    let participant ← parseBytes? front
    let entity ← parseBytes? back
    if participant.length = 12 then ofBytes? (participant ++ entity) else none

end Guid

structure InvalidGuid where
  input : String
deriving DecidableEq, Repr

def InvalidGuid.message (e : InvalidGuid) : String := e.input ++ " is not a valid GUID"

def Guid.parse (s : String) : Except InvalidGuid Guid :=
  match parseChars? s.toList with
  | some g => .ok g
  | none => .error ⟨s⟩

end BusScope
