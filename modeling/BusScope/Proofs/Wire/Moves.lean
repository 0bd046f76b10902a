import BusScope.Wire.Decoder
import Mathlib

/-! The moves of the cursor while a value is read. Readers are put together from a few small ones, so
a reading is a walk of small moves, over bytes that are taken or over padding. Padding alone leads
past the end of a body, and from there nothing is taken. -/

namespace BusScope

open Wire

structure Move where
  start : Nat
  stop : Nat
  taken : Option (List UInt8)

namespace Move

structure Within (body : List UInt8) (m : Move) : Prop where
  forward : m.start ≤ m.stop
  inside : ∀ bytes ∈ m.taken, m.stop ≤ body.length ∧
    bytes = (body.drop m.start).take (m.stop - m.start)

def Path (start : Nat) : List Move → Nat → Prop
  | [], stop => start = stop
  | m :: rest, stop => m.start = start ∧ Path m.stop rest stop

theorem Path.append {first rest : List Move} {start middle stop : Nat}
    (h : Path start first middle) (h' : Path middle rest stop) :
    Path start (first ++ rest) stop := by
  induction first generalizing start with
  | nil => exact h ▸ h'
  | cons m first ih => exact ⟨h.1, ih h.2⟩

end Move

/-- What the cursor does while the reader runs, up to the end or to where the reader fails. A read
that is refused does not move it. -/
inductive Performs : {α : Type} → Reader α → Cursor → List Move → Prop
  | pure {α : Type} (a : α) (c : Cursor) : Performs (Pure.pure a : Reader α) c []
  | fail {α : Type} {fault : WireFault} (c : Cursor)
      (h : ∀ needed available, fault ≠ .tooShort needed available) :
      Performs (Reader.fail fault : Reader α) c []
  | align (alignment : Nat) (c : Cursor) :
      Performs (Reader.align alignment) c
        [⟨c.offset, c.offset + padding alignment c.offset, none⟩]
  | take {n : Nat} {c c' : Cursor} {bytes : List UInt8} (h : Reader.take n c = .ok (bytes, c')) :
      Performs (Reader.take n) c [⟨c.offset, c'.offset, some bytes⟩]
  | refused {n : Nat} {c : Cursor} {fault : WireFault} (h : Reader.take n c = .error fault) :
      Performs (Reader.take n) c []
  | atLeast (n : Nat) (c : Cursor) : Performs (Reader.atLeast n) c []
  | bind {α β : Type} {r : Reader α} {k : α → Reader β} {c c' : Cursor} {a : α}
      {first rest : List Move} (h : r c = .ok (a, c')) (hr : Performs r c first)
      (hk : Performs (k a) c' rest) : Performs (r >>= k) c (first ++ rest)
  | stop {α β : Type} {r : Reader α} {k : α → Reader β} {c : Cursor} {fault : WireFault}
      {first : List Move} (h : r c = .error fault) (hr : Performs r c first) :
      Performs (r >>= k) c first

structure Cursor.Over (body : List UInt8) (c : Cursor) : Prop where
  size : c.size = body.length
  rest : c.rest = body.drop c.offset

theorem Cursor.over_start (body : List UInt8) : (Cursor.start body).Over body := ⟨rfl, rfl⟩

variable {α β : Type} {body : List UInt8} {c c' : Cursor}

theorem Cursor.Over.advance (h : c.Over body) (n : Nat) :
    Cursor.Over body ⟨c.size, c.offset + n, c.rest.drop n⟩ where
  size := h.size
  rest := by rw [h.rest, List.drop_drop]

/-- A walk from an offset over the body, and what came of it. -/
structure Course (body : List UInt8) (start : Nat) (moves : List Move)
    (result : Except WireFault (α × Cursor)) : Prop where
  within : ∀ m ∈ moves, m.Within body
  path : ∃ stop, Move.Path start moves stop ∧
    ∀ a c', result = .ok (a, c') → c'.Over body ∧ c'.offset = stop
  tooShort : ∀ needed available, result = .error (.tooShort needed available) →
    available = body.length ∧ body.length < needed

namespace Course

theorem stay {result : Except WireFault (α × Cursor)}
    (hok : ∀ a c', result = .ok (a, c') → c' = c)
    (herr : ∀ needed available, result = .error (.tooShort needed available) →
      available = c.size ∧ c.size < needed) (h : c.Over body) :
    Course body c.offset [] result where
  within := fun m hm => absurd hm List.not_mem_nil
  path := ⟨c.offset, rfl, fun a c' hr => by
    rw [hok a c' hr]
    exact ⟨h, rfl⟩⟩
  tooShort := fun needed available hr => h.size ▸ herr needed available hr

theorem append {first rest : List Move} {r : Reader α} {k : α → Reader β} {a : α}
    (ha : r c = .ok (a, c')) (hr : Course body c.offset first (r c))
    (hk : c'.Over body → Course body c'.offset rest (k a c')) :
    Course body c.offset (first ++ rest) ((r >>= k) c) := by
  obtain ⟨middle, hfirst, hmiddle⟩ := hr.path
  obtain ⟨hover, rfl⟩ := hmiddle a c' ha
  have hrest := hk hover
  obtain ⟨stop, hpath, hstop⟩ := hrest.path
  rw [Reader.bind_of_ok ha]
  exact
    { within := List.forall_mem_append.mpr ⟨hr.within, hrest.within⟩
      path := ⟨stop, hfirst.append hpath, hstop⟩
      tooShort := hrest.tooShort }

end Course

theorem Performs.course {r : Reader α} {moves : List Move} (h : Performs r c moves)
    (hc : c.Over body) : Course body c.offset moves (r c) := by
  -- A cursor that padding led past the end is still over the body, so nothing needs to be known of
  -- where it is.
  induction h with
  | pure a c => exact Course.stay (fun b c' hb => by cases hb; rfl) (fun _ _ hb => by cases hb) hc
  | fail c hfault =>
    refine Course.stay (fun _ _ hb => by cases hb) (fun needed available hb => ?_) hc
    exact absurd (Except.error.inj hb) (hfault needed available)
  | align alignment c =>
    refine ⟨fun m hm => ?_, ⟨_, ⟨rfl, rfl⟩, fun u c' hu => ?_⟩, fun _ _ hu => by cases hu⟩
    · rw [List.mem_singleton.mp hm]
      exact ⟨Nat.le_add_right _ _, fun bytes hb => by cases hb⟩
    · cases hu
      exact ⟨hc.advance _, rfl⟩
  | @take n c c' bytes htake =>
    obtain ⟨hle, rfl, rfl⟩ := Reader.take_eq_ok htake
    rw [htake]
    refine ⟨fun m hm => ?_, ⟨_, ⟨rfl, rfl⟩, fun b c' hb => ?_⟩, fun _ _ hb => by cases hb⟩
    · rw [List.mem_singleton.mp hm]
      refine ⟨Nat.le_add_right _ _, fun b hb => ?_⟩
      cases hb
      dsimp only
      rw [hc.rest, Nat.add_sub_cancel_left]
      exact ⟨hc.size ▸ hle, rfl⟩
    · cases hb
      exact ⟨hc.advance n, rfl⟩
  | @refused n c fault htake =>
    obtain ⟨hlt, rfl⟩ := Reader.take_eq_error htake
    rw [htake]
    refine Course.stay (fun _ _ hb => by cases hb) (fun needed available hb => ?_) hc
    cases hb
    exact ⟨rfl, hlt⟩
  | atLeast n c =>
    refine Course.stay (fun _ c' hb => (Reader.atLeast_eq_ok hb).2) (fun needed available hb => ?_) hc
    obtain ⟨hlt, hfault⟩ := Reader.atLeast_eq_error hb
    cases hfault
    exact ⟨rfl, hlt⟩
  | bind ha _ _ ihr ihk => exact Course.append ha (ihr hc) ihk
  | stop hr _ ihr =>
    have hcourse := ihr hc
    rw [hr] at hcourse
    rw [Reader.bind_of_error hr]
    obtain ⟨stop, hpath, -⟩ := hcourse.path
    exact
      { within := hcourse.within
        path := ⟨stop, hpath, fun _ _ hb => by cases hb⟩
        tooShort := fun needed available hb => by
          cases hb
          exact hcourse.tooShort needed available rfl }

end BusScope
