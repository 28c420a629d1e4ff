import Mathlib.Data.List.Nodup

/-!
# Base64 without padding

Three bytes are written as four digits of six bits. One or two bytes at the end are written as two or
three digits, of which the last has spare bits: the writer leaves them zero and the reader ignores
them. So two texts read the same when they agree up to the spare bits of the last digit
(`bytes?_eq_some`). The digits are those of the alphabet for addresses and file names.
-/

set_option autoImplicit false

namespace AiStp.Library.Base64

abbrev Digit := Fin 64

/-! ### Bytes and digits -/

/-- The digits of one, two or three bytes. -/
def first (a : UInt8) : Digit := ⟨a.toNat / 4, by have := a.toNat_lt; omega⟩

def second (a : UInt8) (b : Nat) (h : b < 256) : Digit := ⟨a.toNat % 4 * 16 + b / 16, by omega⟩

def third (b : UInt8) (c : Nat) (h : c < 256) : Digit := ⟨b.toNat % 16 * 4 + c / 64, by omega⟩

def fourth (c : UInt8) : Digit := ⟨c.toNat % 64, by omega⟩

def digits : List UInt8 → List Digit
  | a :: b :: c :: rest =>
    first a :: second a b.toNat b.toNat_lt :: third b c.toNat c.toNat_lt :: fourth c :: digits rest
  | [a, b] => [first a, second a b.toNat b.toNat_lt, third b 0 (by decide)]
  | [a] => [first a, second a 0 (by decide)]
  | [] => []

def byte (value : Nat) : UInt8 := UInt8.ofNat value

/-- The bytes of some digits. A single digit is none. -/
def bytes? : List Digit → Option (List UInt8)
  | a :: b :: c :: d :: rest =>
    (bytes? rest).map fun bytes ↦
      byte (a * 4 + b / 16) :: byte (b % 16 * 16 + c / 4) :: byte (c % 4 * 64 + d) :: bytes
  | [a, b, c] => some [byte (a * 4 + b / 16), byte (b % 16 * 16 + c / 4)]
  | [a, b] => some [byte (a * 4 + b / 16)]
  | [_] => none
  | [] => some []

/-- The digits with the spare bits of the last one zero. -/
def clear : List Digit → List Digit
  | a :: b :: c :: d :: rest => a :: b :: c :: d :: clear rest
  | [a, b, c] => [a, b, ⟨c / 4 * 4, by omega⟩]
  | [a, b] => [a, ⟨b / 16 * 16, by omega⟩]
  | [a] => [a]
  | [] => []

theorem byte_eq {value : Nat} {b : UInt8} (h : value = b.toNat) : byte value = b := by
  rw [byte, h, UInt8.ofNat_toNat]

theorem toNat_byte {n : Nat} (h : n < 256) : (byte n).toNat = n := by
  rw [byte, UInt8.toNat_ofNat', Nat.mod_eq_of_lt h]

theorem bytes?_digits (bytes : List UInt8) : bytes? (digits bytes) = some bytes := by
  induction bytes using digits.induct with
  | case1 a b c rest ih =>
    have := a.toNat_lt
    have := b.toNat_lt
    have := c.toNat_lt
    rw [digits, bytes?, ih, Option.map_some, byte_eq (b := a), byte_eq (b := b), byte_eq (b := c)]
    all_goals simp only [first, second, third, fourth]; omega
  | case2 a b =>
    have := a.toNat_lt
    have := b.toNat_lt
    rw [digits, bytes?, byte_eq (b := a), byte_eq (b := b)]
    all_goals simp only [first, second, third]; omega
  | case3 a =>
    have := a.toNat_lt
    rw [digits, bytes?, byte_eq (b := a)]
    simp only [first, second]; omega
  | case4 => rfl

variable {bytes : List UInt8}

/-- The bytes that are read are written as the digits, with the spare bits zero. -/
theorem digits_of_bytes? {text : List Digit} (h : bytes? text = some bytes) :
    digits bytes = clear text := by
  induction text using bytes?.induct generalizing bytes with
  | case1 a b c d rest ih =>
    obtain ⟨others, hothers, rfl⟩ := Option.map_eq_some_iff.mp h
    have h1 := toNat_byte (n := a * 4 + b / 16) (by omega)
    have h2 := toNat_byte (n := b % 16 * 16 + c / 4) (by omega)
    have h3 := toNat_byte (n := c % 4 * 64 + d) (by omega)
    rw [digits, clear, ih hothers]
    simp only [first, second, third, fourth, List.cons.injEq, Fin.ext_iff, h1, h2, h3, and_true]
    omega
  | case2 a b c =>
    obtain rfl := Option.some.inj h
    have h1 := toNat_byte (n := a * 4 + b / 16) (by omega)
    have h2 := toNat_byte (n := b % 16 * 16 + c / 4) (by omega)
    rw [digits, clear]
    simp only [first, second, third, List.cons.injEq, Fin.ext_iff, h1, h2, and_true]
    omega
  | case3 a b =>
    obtain rfl := Option.some.inj h
    have h1 := toNat_byte (n := a * 4 + b / 16) (by omega)
    rw [digits, clear]
    simp only [first, second, List.cons.injEq, Fin.ext_iff, h1, and_true]
    omega
  | case4 a => cases h
  | case5 =>
    obtain rfl := Option.some.inj h
    rfl

theorem bytes?_clear (text : List Digit) : bytes? (clear text) = bytes? text := by
  induction text using bytes?.induct with
  | case1 a b c d rest ih => rw [clear, bytes?, bytes?, ih]
  | case2 a b c =>
    rw [clear, bytes?, bytes?]
    have hc : (c : Nat) / 4 * 4 / 4 = c / 4 := by omega
    simp only [hc]
  | case3 a b =>
    rw [clear, bytes?, bytes?]
    have hb : (b : Nat) / 16 * 16 / 16 = b / 16 := by omega
    simp only [hb]
  | case4 a => rfl
  | case5 => rfl

theorem bytes?_eq_some {text : List Digit} :
    bytes? text = some bytes ↔ clear text = digits bytes := by
  constructor
  · exact fun h ↦ (digits_of_bytes? h).symm
  · intro h
    rw [← bytes?_clear, h, bytes?_digits]

theorem length_digits (bytes : List UInt8) : (digits bytes).length = (bytes.length * 4 + 2) / 3 := by
  induction bytes using digits.induct with
  | case1 a b c rest ih =>
    rw [digits]
    simp only [List.length_cons, ih]
    omega
  | case2 a b => simp [digits]
  | case3 a => simp [digits]
  | case4 => rfl

/-- With two spare bits, only they are cleared. -/
theorem clear_append {text : List Digit} {last : Digit} (h : text.length % 4 = 2) :
    clear (text ++ [last]) = text ++ [⟨last / 4 * 4, by omega⟩] := by
  induction text using bytes?.induct with
  | case1 a b c d rest ih =>
    simp only [List.length_cons] at h
    rw [List.cons_append, List.cons_append, List.cons_append, List.cons_append, clear,
      ih (by omega)]
    rfl
  | case2 a b c => simp at h
  | case3 a b => rfl
  | case4 a => simp at h
  | case5 => simp at h

/-! ### The alphabet -/

def alphabet : List Char :=
  "ABCDEFGHIJKLMNOPQRSTUVWXYZabcdefghijklmnopqrstuvwxyz0123456789-_".toList

def letter (digit : Digit) : Char := alphabet.get ⟨digit, by decide +revert⟩

def digit? (character : Char) : Option Digit :=
  if h : alphabet.idxOf character < 64 then some ⟨alphabet.idxOf character, h⟩ else none

theorem digit?_letter (digit : Digit) : digit? (letter digit) = some digit := by
  have hnodup : alphabet.Nodup := by decide +kernel
  have hindex : alphabet.idxOf (letter digit) = digit := hnodup.idxOf_getElem _ _
  simp only [digit?, hindex, digit.isLt, dif_pos]

theorem letter_of_digit? {character : Char} {digit : Digit} (h : digit? character = some digit) :
    letter digit = character := by
  unfold digit? at h
  split_ifs at h with hlt
  obtain rfl := Option.some.inj h
  exact List.getElem_idxOf hlt

theorem letter_injective : Function.Injective letter := by
  intro digit other h
  have hdigit := digit?_letter digit
  rw [h, digit?_letter] at hdigit
  exact (Option.some.inj hdigit).symm

/-! ### Texts -/

def write (bytes : List UInt8) : List Char := (digits bytes).map letter

def read (text : List Char) : Option (List UInt8) := (text.mapM digit?).bind bytes?

variable {text : List Char}

theorem mapM_digit? {found : List Digit} :
    text.mapM digit? = some found ↔ text = found.map letter := by
  induction text generalizing found with
  | nil => cases found <;> simp
  | cons character text ih =>
    rw [List.mapM_cons, Option.bind_eq_bind, Option.bind_eq_some_iff]
    constructor
    · rintro ⟨digit, hdigit, h⟩
      obtain ⟨others, hothers, hfound⟩ := Option.bind_eq_some_iff.mp h
      obtain rfl := Option.some.inj hfound
      rw [List.map_cons, letter_of_digit? hdigit, ← ih.mp hothers]
    · intro h
      cases found with
      | nil => cases h
      | cons digit others =>
        obtain ⟨rfl, hothers⟩ := List.cons.inj h
        refine ⟨digit, digit?_letter digit, ?_⟩
        rw [ih.mpr hothers]
        rfl

theorem read_eq_some :
    read text = some bytes ↔ ∃ found, text = found.map letter ∧ clear found = digits bytes := by
  rw [read, Option.bind_eq_some_iff]
  exact exists_congr fun found ↦ and_congr mapM_digit? bytes?_eq_some

theorem read_write (bytes : List UInt8) : read (write bytes) = some bytes :=
  read_eq_some.mpr ⟨digits bytes, rfl, (digits_of_bytes? (bytes?_digits bytes)).symm⟩

/-- Two texts differ, and only in the two spare bits of the last digit. -/
def SpareBits (text other : List Char) : Prop :=
  ∃ front last last', text = front ++ [letter last] ∧ other = front ++ [letter last'] ∧
    last ≠ last' ∧ (last : Nat) / 4 = last' / 4

theorem SpareBits.append {other : List Char} (h : SpareBits text other) (before : List Char) :
    SpareBits (before ++ text) (before ++ other) := by
  obtain ⟨front, last, last', rfl, rfl, hne, hhigh⟩ := h
  exact ⟨before ++ front, last, last', by simp, by simp, hne, hhigh⟩

/-- Spare bits are in the last part of a text. -/
theorem SpareBits.of_append {before other : List Char} (hne : text ≠ [])
    (h : SpareBits (before ++ text) other) :
    ∃ after, other = before ++ after ∧ SpareBits text after := by
  obtain ⟨front, last, last', htext, rfl, hlast, hhigh⟩ := h
  obtain ⟨middle, hmiddle⟩ : ∃ middle, text = middle ++ [letter last] := by
    obtain ⟨rest, final, rfl⟩ := List.eq_nil_or_concat text |>.resolve_left hne
    rw [List.concat_eq_append, ← List.append_assoc] at htext
    obtain ⟨-, hfinal⟩ := List.append_inj' htext rfl
    exact ⟨rest, by rw [List.concat_eq_append, hfinal]⟩
  subst hmiddle
  rw [← List.append_assoc] at htext
  obtain rfl := (List.append_inj' htext rfl).1
  exact ⟨middle ++ [letter last'], by simp, middle, last, last', rfl, rfl, hlast, hhigh⟩

theorem SpareBits.length_eq {other : List Char} (h : SpareBits text other) :
    other.length = text.length := by
  obtain ⟨front, last, last', rfl, rfl, -, -⟩ := h
  simp

theorem write_append {front : List Char} {last : Digit} (h : write bytes = front ++ [letter last]) :
    ∃ before, before.map letter = front ∧ digits bytes = before ++ [last] := by
  obtain ⟨before, rest, hdigits, hbefore, hrest⟩ := List.map_eq_append_iff.mp h
  obtain ⟨digit, rfl⟩ : ∃ digit, rest = [digit] := by
    rw [← List.length_eq_one_iff, ← List.length_map (f := letter), hrest]
    rfl
  have hlast : digit = last := letter_injective (List.cons.inj hrest).1
  exact ⟨before, hbefore, by rw [hdigits, hlast]⟩

/-- With two spare bits a text reads as some bytes when it is what is written of them, up to the
spare bits. -/
theorem read_iff (h : text.length % 4 = 3) :
    read text = some bytes ↔ text = write bytes ∨ SpareBits (write bytes) text := by
  constructor
  · intro hread
    obtain ⟨found, rfl, hclear⟩ := read_eq_some.mp hread
    rw [List.length_map] at h
    have hne : found ≠ [] := by
      rintro rfl
      simp at h
    obtain ⟨front, last, rfl⟩ : ∃ front last, found = front ++ [last] :=
      ⟨found.dropLast, found.getLast hne, (List.dropLast_append_getLast hne).symm⟩
    rw [List.length_append, List.length_singleton] at h
    rw [clear_append (by omega)] at hclear
    rw [write, ← hclear]
    simp only [List.map_append, List.map_cons, List.map_nil]
    by_cases hlast : (⟨last / 4 * 4, by omega⟩ : Digit) = last
    · rw [hlast]
      exact .inl rfl
    · exact .inr ⟨front.map letter, ⟨last / 4 * 4, by omega⟩, last, rfl, rfl, hlast,
        show (last : Nat) / 4 * 4 / 4 = last / 4 by omega⟩
  · rintro (rfl | ⟨front, last, last', hwrite, rfl, -, hhigh⟩)
    · exact read_write bytes
    · obtain ⟨before, rfl, hdigits⟩ := write_append hwrite
      have hlength : before.length % 4 = 2 := by
        simp only [List.length_append, List.length_map, List.length_singleton] at h
        omega
      have hclear := digits_of_bytes? (bytes?_digits bytes)
      rw [hdigits, clear_append hlength] at hclear
      have hlast : (last : Nat) = last / 4 * 4 :=
        congrArg Fin.val (List.cons.inj (List.append_cancel_left hclear)).1
      refine read_eq_some.mpr ⟨before ++ [last'], by simp, ?_⟩
      rw [clear_append hlength, hdigits]
      congr 2
      exact Fin.ext (by simpa [← hhigh] using hlast.symm)

end AiStp.Library.Base64
