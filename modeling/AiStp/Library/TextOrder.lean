import Mathlib.Data.String.Basic

/-!
# The order of texts, decided on bytes

Texts are ordered by their characters. A text is stored as its UTF-8 bytes, and decoding both texts
to compare them costs more than all the rest of a sort. An ASCII text has its character codes for
bytes, so two ASCII texts are compared byte by byte, and others as before.
-/

set_option autoImplicit false

namespace AiStp.Library.TextOrder

/-- The codes of bytes that are all ASCII. -/
def codes? : List UInt8 → Option (List Nat)
  | [] => some []
  | byte :: bytes =>
    bif Nat.blt byte.toNat 128 then
      match codes? bytes with
      | some codes => some (byte.toNat :: codes)
      | none => none
    else none

/-- Whether the first list of codes is at most the second in the lexicographic order. -/
def notAfter : List Nat → List Nat → Bool
  | [], _ => true
  | _ :: _, [] => false
  | left :: lefts, right :: rights =>
    bif Nat.blt left right then true
    else bif Nat.beq left right then notAfter lefts rights else false

theorem codes?_of_le {byte : UInt8} {bytes : List UInt8} (hbyte : 128 ≤ byte.toNat) :
    codes? (byte :: bytes) = none := by
  have hlarge : Nat.blt byte.toNat 128 = false := by
    rw [← Bool.not_eq_true, Nat.blt_eq]
    omega
  rw [codes?, hlarge]
  rfl

theorem le_toNat_or {byte mark : UInt8} (hmark : 128 ≤ mark.toNat) :
    128 ≤ (byte ||| mark).toNat := by
  rw [UInt8.toNat_or]
  exact le_trans hmark Nat.right_le_or

/-- A character that is not ASCII starts with a byte that is not. -/
theorem codes?_encode {character : Char} {bytes : List UInt8} {codes : List Nat}
    (h : codes? (String.utf8EncodeChar character ++ bytes) = some codes) :
    ∃ rest, codes = character.toNat :: rest ∧ codes? bytes = some rest := by
  have hmarked : ∀ first mark : UInt8, ∀ rest, 128 ≤ mark.toNat →
      codes? ((first ||| mark) :: rest) ≠ some codes := by
    intro first mark rest hmark hsome
    rw [codes?_of_le (le_toNat_or hmark)] at hsome
    cases hsome
  obtain hsize | hsize | hsize | hsize := character.utf8Size_eq
  · rw [String.utf8EncodeChar_eq_singleton hsize, List.singleton_append, codes?] at h
    have hsmall : character.val.toUInt8.toNat = character.toNat := by
      have hle : character.val ≤ 0x7f := Char.utf8Size_eq_one_iff.mp hsize
      rw [UInt32.le_iff_toNat_le] at hle
      have hlt : character.val.toNat < 2 ^ 8 := lt_of_le_of_lt hle (by decide)
      rw [UInt32.toNat_toUInt8, Nat.mod_eq_of_lt hlt]
      rfl
    rw [hsmall] at h
    cases hrest : codes? bytes with
    | none =>
      rw [hrest] at h
      cases hascii : Nat.blt character.toNat 128
      all_goals
        rw [hascii] at h
        cases h
    | some rest =>
      rw [hrest] at h
      cases hascii : Nat.blt character.toNat 128
      · rw [hascii] at h
        cases h
      · rw [hascii] at h
        exact ⟨rest, (Option.some.inj h).symm, rfl⟩
  · rw [String.utf8EncodeChar_eq_cons_cons hsize] at h
    exact absurd h (hmarked _ 0xc0 _ (by decide))
  · rw [String.utf8EncodeChar_eq_cons_cons_cons hsize] at h
    exact absurd h (hmarked _ 0xe0 _ (by decide))
  · rw [String.utf8EncodeChar_eq_cons_cons_cons_cons hsize] at h
    exact absurd h (hmarked _ 0xf0 _ (by decide))

theorem codes?_utf8 {characters : List Char} {codes : List Nat}
    (h : codes? characters.utf8Encode.data.toList = some codes) :
    characters.map Char.toNat = codes := by
  induction characters generalizing codes with
  | nil => exact Option.some.inj h
  | cons character characters ih =>
    rw [List.utf8Encode_cons, ByteArray.data_append, Array.toList_append, List.utf8Encode_singleton,
      List.data_toByteArray] at h
    obtain ⟨rest, rfl, hrest⟩ := codes?_encode h
    rw [List.map_cons, ih hrest]

/-- The codes of an ASCII text are those of its characters. -/
theorem codes?_text {text : String} {codes : List Nat}
    (h : codes? text.toByteArray.data.toList = some codes) :
    text.toList.map Char.toNat = codes := by
  rw [← String.ofList_toList (s := text), String.toByteArray_ofList] at h
  exact codes?_utf8 h

theorem notAfter_iff {lefts rights : List Char} :
    notAfter (lefts.map Char.toNat) (rights.map Char.toNat) = true ↔ ¬ rights < lefts := by
  induction lefts generalizing rights with
  | nil => simp [notAfter]
  | cons left lefts ih =>
    cases rights with
    | nil => simp [notAfter]
    | cons right rights =>
      rw [List.map_cons, List.map_cons, notAfter, List.cons_lt_cons_iff]
      have hcode : left.toNat < right.toNat ↔ left < right := Iff.rfl
      by_cases hlt : left < right
      · simp [Nat.blt_eq.mpr (hcode.mpr hlt), hlt.ne', lt_asymm hlt]
      · have hblt : Nat.blt left.toNat right.toNat = false := by
          rw [← Bool.not_eq_true, Nat.blt_eq, hcode]
          exact hlt
        by_cases hsame : left = right
        · subst hsame
          simp [hblt, ih]
        · have hbeq : Nat.beq left.toNat right.toNat = false := by
            rw [← Bool.not_eq_true, Nat.beq_eq]
            exact fun heq ↦ hsame (Char.toNat_inj.mp heq)
          have hafter : right < left := lt_of_le_of_ne (not_lt.mp hlt) (Ne.symm hsame)
          simp [hblt, hbeq, hafter]

/-- The order of two texts, decided on the codes when both are ASCII. -/
instance (priority := high) decidableLe (left right : String) : Decidable (left ≤ right) :=
  match hleft : codes? left.toByteArray.data.toList,
    hright : codes? right.toByteArray.data.toList with
  | some lefts, some rights =>
    decidable_of_iff (notAfter lefts rights = true) (by
      rw [← codes?_text hleft, ← codes?_text hright, notAfter_iff]
      rfl)
  | _, _ => inferInstanceAs (Decidable (¬ right < left))

end AiStp.Library.TextOrder
