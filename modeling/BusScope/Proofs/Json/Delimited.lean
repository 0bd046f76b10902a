import BusScope.Json
import BusScope.Proofs.Text.Hex

/-! The compact text of a document tells the document, and where it ends tells itself. Documents with
floats are left out, since what a float is written as is another matter. -/

namespace BusScope.Json

open Text

@[elab_as_elim, induction_eliminator]
theorem induction {motive : Json → Prop}
    (null : motive .null)
    (bool : ∀ b, motive (.bool b))
    (int : ∀ n, motive (.int n))
    (float : ∀ x, motive (.float x))
    (text : ∀ s, motive (.text s))
    (list : ∀ items, (∀ j ∈ items, motive j) → motive (.list items))
    (object : ∀ members, (∀ m ∈ members, motive m.2) → motive (.object members))
    (j : Json) : motive j := by
  refine @Json.rec motive (fun items => ∀ j ∈ items, motive j)
    (fun members => ∀ m ∈ members, motive m.2) (fun m => motive m.2)
    null bool int float text list object ?_ ?_ ?_ ?_ ?_ j
  case refine_1 => exact List.forall_mem_nil _
  case refine_2 => exact fun j rest hj hrest => List.forall_mem_cons.mpr ⟨hj, hrest⟩
  case refine_3 => exact List.forall_mem_nil _
  case refine_4 => exact fun m rest hm hrest => List.forall_mem_cons.mpr ⟨hm, hrest⟩
  case refine_5 => exact fun _ _ h => h

mutual

/-- No number in the document is a float. -/
def isExact : Json → Bool
  | .float _ => false
  | .list items => itemsExact items
  | .object members => membersExact members
  | _ => true
termination_by structural j => j

def itemsExact : List Json → Bool
  | [] => true
  | j :: rest => isExact j && itemsExact rest
termination_by structural js => js

def membersExact : List (String × Json) → Bool
  | [] => true
  | (_, j) :: rest => isExact j && membersExact rest
termination_by structural ms => ms

end

theorem isExact_list {items : List Json} :
    (list items).isExact = true ↔ ∀ j ∈ items, j.isExact = true := by
  show itemsExact items = true ↔ _
  induction items with
  | nil => exact iff_of_true rfl (List.forall_mem_nil _)
  | cons j rest ih => rw [itemsExact, Bool.and_eq_true, ih, List.forall_mem_cons]

theorem isExact_object {members : List (String × Json)} :
    (object members).isExact = true ↔ ∀ m ∈ members, m.2.isExact = true := by
  show membersExact members = true ↔ _
  induction members with
  | nil => exact iff_of_true rfl (List.forall_mem_nil _)
  | cons m rest ih => rw [membersExact, Bool.and_eq_true, ih, List.forall_mem_cons]

def chars (j : Json) : List Char := j.compact.toList

def memberChars (m : String × Json) : List Char :=
  '"' :: m.1.toList.flatMap escaped ++ '"' :: ':' :: m.2.chars

theorem chars_text (s : String) : (text s).chars = '"' :: s.toList.flatMap escaped ++ ['"'] :=
  String.toList_ofList

theorem chars_list (items : List Json) :
    (list items).chars = '[' :: join [','] (items.map chars) ++ [']'] := by
  have hitems : (compactItems items).toList = join [','] (items.map chars) := by
    induction items with
    | nil => rfl
    | cons j rest ih =>
      cases rest with
      | nil => exact List.intercalate_singleton.symm
      | cons k rest =>
        rw [compactItems, String.toList_append, String.toList_append, ih]
        · exact List.intercalate_cons_cons.symm
        · exact List.cons_ne_nil k rest
  show ("[" ++ compactItems items ++ "]").toList = _
  rw [String.toList_append, String.toList_append, hitems]
  rfl

theorem chars_object (members : List (String × Json)) :
    (object members).chars = '\x7b' :: join [','] (members.map memberChars) ++ ['\x7d'] := by
  have hmember : ∀ m : String × Json, (quoted m.1 ++ ":" ++ m.2.compact).toList = memberChars m := by
    intro m
    rw [String.toList_append, String.toList_append, quoted, String.toList_ofList]
    simp [memberChars, chars]
  have hmembers : (compactMembers members).toList = join [','] (members.map memberChars) := by
    induction members with
    | nil => rfl
    | cons m rest ih =>
      cases rest with
      | nil => exact (hmember m).trans List.intercalate_singleton.symm
      | cons n rest =>
        rw [compactMembers, String.toList_append, String.toList_append, hmember m, ih]
        · exact List.intercalate_cons_cons.symm
        · exact List.cons_ne_nil n rest
  show ("\x7b" ++ compactMembers members ++ "\x7d").toList = _
  rw [String.toList_append, String.toList_append, hmembers]
  rfl

def meant (c : Char) : Char :=
  if c = 'n' then '\n' else if c = 'r' then '\r' else if c = 't' then '\t'
  else if c = 'b' then Char.ofNat 0x08 else if c = 'f' then Char.ofNat 0x0C else c

/-- The character that the start of a quoted text stands for, and the text after it. -/
def unescape : List Char → Option (Char × List Char)
  | '\\' :: 'u' :: rest => (Hex.number? (rest.take 4)).map fun n => (Char.ofNat n, rest.drop 4)
  | '\\' :: c :: rest => some (meant c, rest)
  | '"' :: _ => none
  | c :: rest => some (c, rest)
  | [] => none

theorem unescape_escaped (c : Char) (rest : List Char) :
    unescape (escaped c ++ rest) = some (c, rest) := by
  unfold escaped
  dsimp only
  split
  · next h => rcases h with rfl | rfl <;> rfl
  split
  · next h => subst h; rfl
  split
  · next h => subst h; rfl
  split
  · next h => subst h; rfl
  split
  · next h => rw [← Char.ofNat_toNat c, h]; rfl
  split
  · next h => rw [← Char.ofNat_toNat c, h]; rfl
  split
  · next h =>
    have hlength : (Hex.fixed Hex.digit 4 c.toNat).length = 4 := Hex.length_fixed _ _ _
    have hnumber : Hex.number? (Hex.fixed Hex.digit 4 c.toNat) = some c.toNat :=
      Hex.number?_fixed (by omega)
    show unescape ('\\' :: 'u' :: (Hex.fixed Hex.digit 4 c.toNat ++ rest)) = _
    rw [unescape, List.take_left' hlength, List.drop_left' hlength, hnumber, Option.map_some,
      Char.ofNat_toNat]
  · next hquote _ _ _ _ _ _ =>
    obtain ⟨hquote, hbackslash⟩ := not_or.mp hquote
    show unescape (c :: rest) = _
    unfold unescape
    split <;> simp_all

theorem escaped_append_inj {s t rest rest' : List Char}
    (h : s.flatMap escaped ++ '"' :: rest = t.flatMap escaped ++ '"' :: rest') :
    s = t ∧ rest = rest' := by
  induction s generalizing t with
  | nil =>
    cases t with
    | nil => exact ⟨rfl, (List.cons.inj h).2⟩
    | cons d t =>
      rw [List.flatMap_cons, List.append_assoc] at h
      cases (congrArg unescape h).trans (unescape_escaped d _)
  | cons c s ih =>
    rw [List.flatMap_cons, List.append_assoc] at h
    have hc := (congrArg unescape h).symm.trans (unescape_escaped c _)
    cases t with
    | nil => cases hc
    | cons d t =>
      rw [List.flatMap_cons, List.append_assoc, unescape_escaped] at hc
      obtain ⟨rfl, htail⟩ := Prod.mk.inj (Option.some.inj hc)
      obtain ⟨rfl, hrest⟩ := ih htail.symm
      exact ⟨rfl, hrest⟩

def isNumeral (c : Char) : Bool := c == '-' || c.isDigit

/-- A number in front of the text ends there. -/
def Stops (rest : List Char) : Prop := ∀ c ∈ rest.head?, isNumeral c = false

theorem isNumeral_of_mem {n : Int} {c : Char} (h : c ∈ (int n).chars) : isNumeral c = true := by
  have hnat : ∀ m : Nat, c ∈ m.repr.toList → c.isDigit = true := by
    intro m hm
    rw [Nat.repr_eq_ofList_toDigits, String.toList_ofList] at hm
    exact Nat.isDigit_of_mem_toDigits (by omega) (by omega) hm
  rw [isNumeral, Bool.or_eq_true, beq_iff_eq]
  cases n with
  | ofNat m => exact .inr (hnat m h)
  | negSucc m =>
    have h : c ∈ ("-" ++ m.succ.repr).toList := h
    rw [String.toList_append] at h
    rcases List.mem_append.mp h with h | h
    · exact .inl (List.mem_singleton.mp h)
    · exact .inr (hnat _ h)

theorem int_append_inj {m n : Int} {rest rest' : List Char} (hrest : Stops rest)
    (hrest' : Stops rest') (h : (int m).chars ++ rest = (int n).chars ++ rest') :
    m = n ∧ rest = rest' := by
  have htake : ∀ {n : Int} {rest : List Char}, Stops rest →
      ((int n).chars ++ rest).takeWhile isNumeral = (int n).chars := by
    intro n rest hrest
    have hnone : rest.takeWhile isNumeral = [] := by
      cases rest with
      | nil => rfl
      | cons c rest => rw [List.takeWhile_cons_of_neg (by simp [hrest c rfl])]
    rw [List.takeWhile_append_of_pos fun c => isNumeral_of_mem, hnone, List.append_nil]
  have hchars : (int m).chars = (int n).chars := by rw [← htake hrest, h, htake hrest']
  refine ⟨Int.repr_inj.mp (String.toList_injective hchars), ?_⟩
  rw [hchars] at h
  exact List.append_cancel_left h

inductive Form where
  | null
  | truth
  | number
  | text
  | list
  | object

def Form.ofChar? (c : Char) : Option Form :=
  if isNumeral c then some .number
  else if c = 'n' then some .null
  else if c = 't' ∨ c = 'f' then some .truth
  else if c = '"' then some .text
  else if c = '[' then some .list
  else if c = '\x7b' then some .object
  else none

def form : Json → Form
  | .null => .null
  | .bool _ => .truth
  | .int _ | .float _ => .number
  | .text _ => .text
  | .list _ => .list
  | .object _ => .object

theorem chars_eq_cons {j : Json} (h : j.isExact = true) :
    ∃ c rest, j.chars = c :: rest ∧ Form.ofChar? c = some j.form := by
  cases j with
  | null => exact ⟨_, _, rfl, rfl⟩
  | bool b => cases b <;> exact ⟨_, _, rfl, rfl⟩
  | int n =>
    have hne : (int n).chars ≠ [] := by
      cases n with
      | ofNat m =>
        show m.repr.toList ≠ []
        rw [Nat.repr_eq_ofList_toDigits, String.toList_ofList]
        exact Nat.toDigits_ne_nil
      | negSucc m =>
        show ("-" ++ m.succ.repr).toList ≠ []
        rw [String.toList_append]
        exact List.cons_ne_nil '-' _
    obtain ⟨c, rest, hchars⟩ := List.exists_cons_of_ne_nil hne
    have hc : isNumeral c = true := isNumeral_of_mem (hchars ▸ List.mem_cons_self)
    exact ⟨c, rest, hchars, if_pos hc⟩
  | float x => cases h
  | text s => exact ⟨_, _, chars_text s, rfl⟩
  | list items => exact ⟨_, _, chars_list items, rfl⟩
  | object members => exact ⟨_, _, chars_object members, rfl⟩

section Items

variable {α : Type} (text : α → List Char) {close : Char}

theorem exists_tail (hclose : isNumeral close = false) (x : α) (xs : List α) (rest : List Char) :
    ∃ tail, join [','] ((x :: xs).map text) ++ close :: rest = text x ++ tail ∧ Stops tail ∧
      ((xs = [] ∧ tail = close :: rest) ∨
        (xs ≠ [] ∧ tail = ',' :: (join [','] (xs.map text) ++ close :: rest))) := by
  cases xs with
  | nil =>
    refine ⟨close :: rest, ?_, ?_, .inl ⟨rfl, rfl⟩⟩
    · exact congrArg (· ++ close :: rest) List.intercalate_singleton
    · exact fun c hc => Option.some.inj hc ▸ hclose
  | cons y xs =>
    refine ⟨_, ?_, ?_, .inr ⟨List.cons_ne_nil y xs, rfl⟩⟩
    · rw [List.map_cons, List.map_cons, join, List.intercalate_cons_cons]
      simp
    · exact fun c hc => Option.some.inj hc ▸ rfl

variable {text}

/-- Items that can be told from what follows them can be told from a list of them. -/
theorem join_append_inj (hclose : isNumeral close = false) (hsep : close ≠ ',') {xs ys : List α}
    {rest rest' : List Char} (hstart : ∀ x ∈ xs ++ ys, ∃ c s, text x = c :: s ∧ c ≠ close)
    (hitem : ∀ x ∈ xs, ∀ y ∈ ys, ∀ r r', Stops r → Stops r' → text x ++ r = text y ++ r' →
      x = y ∧ r = r')
    (h : join [','] (xs.map text) ++ close :: rest = join [','] (ys.map text) ++ close :: rest') :
    xs = ys ∧ rest = rest' := by
  have hempty : ∀ {y ys rest rest'}, (∃ c s, text y = c :: s ∧ c ≠ close) →
      close :: rest ≠ join [','] ((y :: ys).map text) ++ close :: rest' := by
    intro y ys rest rest' hy he
    obtain ⟨c, s, hy, hc⟩ := hy
    obtain ⟨tail, htail, -⟩ := exists_tail text hclose y ys rest'
    rw [htail, hy] at he
    exact hc (List.cons.inj he).1.symm
  induction xs generalizing ys with
  | nil =>
    cases ys with
    | nil => exact ⟨rfl, (List.cons.inj h).2⟩
    | cons y ys => exact absurd h (hempty (hstart y (by simp)))
  | cons x xs ih =>
    cases ys with
    | nil => exact absurd h.symm (hempty (hstart x (by simp)))
    | cons y ys =>
      obtain ⟨tail, htail, hstops, hcases⟩ := exists_tail text hclose x xs rest
      obtain ⟨tail', htail', hstops', hcases'⟩ := exists_tail text hclose y ys rest'
      rw [htail, htail'] at h
      -- Once the first items agree, what follows them says whether there are others.
      obtain ⟨rfl, rfl⟩ := hitem x List.mem_cons_self y List.mem_cons_self _ _ hstops hstops' h
      rcases hcases with ⟨rfl, rfl⟩ | ⟨hne, rfl⟩
      · rcases hcases' with ⟨rfl, hrest⟩ | ⟨-, hrest⟩
        · exact ⟨rfl, (List.cons.inj hrest).2⟩
        · exact absurd (List.cons.inj hrest).1 hsep
      · rcases hcases' with ⟨-, hrest⟩ | ⟨-, hrest⟩
        · exact absurd (List.cons.inj hrest).1.symm hsep
        · have hothers : ∀ z ∈ xs ++ ys, ∃ c s, text z = c :: s ∧ c ≠ close := by
            intro z hz
            refine hstart z ?_
            rcases List.mem_append.mp hz with hz | hz <;> simp [hz]
          obtain ⟨rfl, hend⟩ := ih hothers
            (fun z hz w hw => hitem z (List.mem_cons_of_mem x hz) w (List.mem_cons_of_mem x hw))
            (List.cons.inj hrest).2
          exact ⟨rfl, hend⟩

end Items

theorem memberChars_append_inj {m n : String × Json}
    (hvalue : ∀ r r', Stops r → Stops r' → m.2.chars ++ r = n.2.chars ++ r' → m.2 = n.2 ∧ r = r')
    {rest rest' : List Char} (hrest : Stops rest) (hrest' : Stops rest')
    (h : memberChars m ++ rest = memberChars n ++ rest') : m = n ∧ rest = rest' := by
  simp only [memberChars, List.cons_append, List.append_assoc, List.cons.injEq, true_and] at h
  obtain ⟨hname, hcolon⟩ := escaped_append_inj h
  obtain ⟨hj, hrest⟩ := hvalue _ _ hrest hrest' (List.cons.inj hcolon).2
  exact ⟨Prod.ext (String.toList_injective hname) hj, hrest⟩

theorem form_eq_of_append_eq {a b : Json} (ha : a.isExact = true) (hb : b.isExact = true)
    {rest rest' : List Char} (h : a.chars ++ rest = b.chars ++ rest') : a.form = b.form := by
  obtain ⟨c, s, hc, hform⟩ := chars_eq_cons ha
  obtain ⟨d, s', hd, hform'⟩ := chars_eq_cons hb
  rw [hc, hd] at h
  rw [(List.cons.inj h).1, hform'] at hform
  exact (Option.some.inj hform).symm

/-- Wherever the text of a document stands, it shows what the document is and where it ends. -/
theorem chars_append_inj {a b : Json} (ha : a.isExact = true) (hb : b.isExact = true)
    {rest rest' : List Char} (hrest : Stops rest) (hrest' : Stops rest')
    (h : a.chars ++ rest = b.chars ++ rest') : a = b ∧ rest = rest' := by
  -- The first character leaves only the cases in which both are of one kind.
  induction a generalizing b rest rest' with
  | null =>
    cases b with
    | null => exact ⟨rfl, List.append_cancel_left h⟩
    | _ => cases form_eq_of_append_eq ha hb h
  | bool p =>
    cases b with
    | bool q =>
      cases p <;> cases q
      · exact ⟨rfl, List.append_cancel_left h⟩
      · exact absurd (List.cons.inj h).1 (by decide)
      · exact absurd (List.cons.inj h).1 (by decide)
      · exact ⟨rfl, List.append_cancel_left h⟩
    | _ => cases form_eq_of_append_eq ha hb h
  | int m =>
    cases b with
    | int n =>
      obtain ⟨rfl, hr⟩ := int_append_inj hrest hrest' h
      exact ⟨rfl, hr⟩
    | float x => cases hb
    | _ => cases form_eq_of_append_eq ha hb h
  | float x => cases ha
  | text s =>
    cases b with
    | text t =>
      simp only [chars_text, List.cons_append, List.append_assoc, List.cons.injEq, true_and] at h
      obtain ⟨hs, hr⟩ := escaped_append_inj h
      exact ⟨congrArg text (String.toList_injective hs), hr⟩
    | _ => cases form_eq_of_append_eq ha hb h
  | list items ih =>
    cases b with
    | list others =>
      have ha := isExact_list.mp ha
      have hb := isExact_list.mp hb
      simp only [chars_list, List.cons_append, List.append_assoc, List.cons.injEq, true_and] at h
      have hstart : ∀ j ∈ items ++ others, ∃ c s, j.chars = c :: s ∧ c ≠ ']' := by
        intro j hj
        have hexact : j.isExact = true := (List.mem_append.mp hj).elim (ha j) (hb j)
        obtain ⟨c, s, hchars, hc⟩ := chars_eq_cons hexact
        refine ⟨c, s, hchars, ?_⟩
        rintro rfl
        cases hc
      obtain ⟨rfl, hr⟩ := join_append_inj rfl (by decide) hstart
        (fun j hj k hk r r' hr hr' hjk => ih j hj (ha j hj) (hb k hk) hr hr' hjk) h
      exact ⟨rfl, hr⟩
    | _ => cases form_eq_of_append_eq ha hb h
  | object members ih =>
    cases b with
    | object others =>
      have ha := isExact_object.mp ha
      have hb := isExact_object.mp hb
      simp only [chars_object, List.cons_append, List.append_assoc, List.cons.injEq, true_and] at h
      have hstart : ∀ m ∈ members ++ others, ∃ c s, memberChars m = c :: s ∧ c ≠ '\x7d' :=
        fun m _ => ⟨_, _, rfl, by decide⟩
      obtain ⟨rfl, hr⟩ := join_append_inj rfl (by decide) hstart
        (fun m hm n hn r r' hr hr' hmn => memberChars_append_inj (fun r r' hr hr' hv =>
          ih m hm (ha m hm) (hb n hn) hr hr' hv) hr hr' hmn) h
      exact ⟨rfl, hr⟩
    | _ => cases form_eq_of_append_eq ha hb h

theorem compact_inj {a b : Json} (ha : a.isExact = true) (hb : b.isExact = true)
    (h : a.compact = b.compact) : a = b := by
  have hstops : Stops [] := fun c hc => by cases hc
  exact (chars_append_inj ha hb hstops hstops (congrArg (·.toList ++ []) h)).1

end BusScope.Json
