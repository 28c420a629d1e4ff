import AiStp.Foundation.CanonicalText
import AiStp.Foundation.Identity

/-!
# Timestamps

A moment that exists is written in 24 characters, and the text is read back as that moment
(`parse_format`).
-/

set_option autoImplicit false

namespace AiStp.Foundation.Identity

/-- A moment of the calendar. -/
structure Moment.Exists (moment : Moment) : Prop where
  year : 1 ≤ moment.year ∧ moment.year ≤ 9999
  month : 1 ≤ moment.month ∧ moment.month ≤ 12
  day : 1 ≤ moment.day ∧ moment.day ≤ daysInMonth moment.year moment.month
  hour : moment.hour ≤ 23
  minute : moment.minute ≤ 59
  second : moment.second ≤ 59
  millisecond : moment.millisecond ≤ 999

/-- The platform gives the ASCII digits their values. -/
def ReadsDigits (platform : Platform) : Prop :=
  ∀ character : Char, character.isDigit = true →
    platform.digit character = some (character.toNat - 48)

/-- The value of digits. -/
def valueOf (digits : List Char) : Nat :=
  digits.foldl (fun total digit ↦ 10 * total + (digit.toNat - 48)) 0

theorem valueOf_zeros (count : Nat) (digits : List Char) :
    valueOf (List.replicate count '0' ++ digits) = valueOf digits := by
  induction count with
  | zero => rfl
  | succ count ih =>
    rw [List.replicate_succ, List.cons_append, ← ih]
    rfl

theorem toList_padded (length value : Nat) : (padded length value).toList =
    List.replicate (length - (Nat.toDigits 10 value).length) '0' ++ Nat.toDigits 10 value := by
  have hdigits : (toString value).toList = Nat.toDigits 10 value := Nat.toList_repr
  have hlength : (toString value).length = (Nat.toDigits 10 value).length := by
    rw [← hdigits, String.length_toList]
  rw [padded, String.toList_append, String.toList_ofList, hdigits, hlength]

theorem isDigit_of_padded {length value : Nat} :
    ∀ character ∈ (padded length value).toList, character.isDigit = true := by
  intro character hmem
  rw [toList_padded] at hmem
  obtain hzero | hdigit := List.mem_append.mp hmem
  · rw [(List.mem_replicate.mp hzero).2]
    rfl
  · exact Text.isDigit_of_toDigits hdigit

theorem length_padded {length value : Nat} (hpos : 0 < length) (h : value < 10 ^ length) :
    (padded length value).toList.length = length := by
  have hlength := Nat.toDigits_length 10 value length hpos h
  rw [toList_padded, List.length_append, List.length_replicate]
  omega

theorem valueOf_padded (length value : Nat) : valueOf (padded length value).toList = value := by
  rw [toList_padded, valueOf_zeros]
  exact Nat.ofDigitChars_ten_toDigits

variable {moment : Moment}

/-- The characters of a timestamp. -/
theorem format_characters (h : moment.Exists) :
    ∃ y₁ y₂ y₃ y₄ o₁ o₂ d₁ d₂ h₁ h₂ m₁ m₂ s₁ s₂ f₁ f₂ f₃ : Char,
      (formatTimestamp moment).toList = [y₁, y₂, y₃, y₄, '-', o₁, o₂, '-', d₁, d₂, 'T', h₁, h₂, ':',
        m₁, m₂, ':', s₁, s₂, '.', f₁, f₂, f₃, 'Z'] ∧
      (∀ digit ∈ [y₁, y₂, y₃, y₄] ++ [o₁, o₂] ++ [d₁, d₂] ++ [h₁, h₂] ++ [m₁, m₂] ++ [s₁, s₂] ++
        [f₁, f₂, f₃], digit.isDigit = true) ∧
      moment = ⟨valueOf [y₁, y₂, y₃, y₄], valueOf [o₁, o₂], valueOf [d₁, d₂], valueOf [h₁, h₂],
        valueOf [m₁, m₂], valueOf [s₁, s₂], valueOf [f₁, f₂, f₃]⟩ := by
  have hday : moment.day < 100 := by
    have hlast : daysInMonth moment.year moment.month ≤ 31 := by
      unfold daysInMonth
      split <;> first | omega | (split <;> omega)
    have hupper := h.day.2
    omega
  have hmonth : moment.month < 100 := by have hupper := h.month.2; omega
  have hhour : moment.hour < 100 := by have hupper := h.hour; omega
  have hminute : moment.minute < 100 := by have hupper := h.minute; omega
  have hsecond : moment.second < 100 := by have hupper := h.second; omega
  have hyear := Nat.lt_succ_of_le h.year.2
  have hmillisecond := Nat.lt_succ_of_le h.millisecond
  obtain ⟨y₁, y₂, y₃, y₄, hy⟩ := List.length_eq_four.mp (length_padded (by decide) hyear)
  obtain ⟨o₁, o₂, ho⟩ := List.length_eq_two.mp (length_padded (by decide) hmonth)
  obtain ⟨d₁, d₂, hd⟩ := List.length_eq_two.mp (length_padded (by decide) hday)
  obtain ⟨h₁, h₂, hh⟩ := List.length_eq_two.mp (length_padded (by decide) hhour)
  obtain ⟨m₁, m₂, hm⟩ := List.length_eq_two.mp (length_padded (by decide) hminute)
  obtain ⟨s₁, s₂, hs⟩ := List.length_eq_two.mp (length_padded (by decide) hsecond)
  obtain ⟨f₁, f₂, f₃, hf⟩ := List.length_eq_three.mp (length_padded (by decide) hmillisecond)
  refine ⟨y₁, y₂, y₃, y₄, o₁, o₂, d₁, d₂, h₁, h₂, m₁, m₂, s₁, s₂, f₁, f₂, f₃, ?_, ?_, ?_⟩
  · simp only [formatTimestamp, String.toList_append, hy, ho, hd, hh, hm, hs, hf]
    rfl
  · rw [← hy, ← ho, ← hd, ← hh, ← hm, ← hs, ← hf]
    simp only [List.forall_mem_append]
    exact ⟨⟨⟨⟨⟨⟨isDigit_of_padded, isDigit_of_padded⟩, isDigit_of_padded⟩, isDigit_of_padded⟩,
      isDigit_of_padded⟩, isDigit_of_padded⟩, isDigit_of_padded⟩
  · rw [← hy, ← ho, ← hd, ← hh, ← hm, ← hs, ← hf]
    simp only [valueOf_padded]

theorem timestampShape_eq : timestampShape = ['0', '0', '0', '0', '-', '0', '0', '-', '0', '0', 'T',
    '0', '0', ':', '0', '0', ':', '0', '0', '.', '0', '0', '0', 'Z'] := by
  decide

variable {platform : Platform}

theorem numberAt_of_digits (hdigits : ReadsDigits platform) {characters digits : List Char}
    {start length : Nat} (hslice : (characters.drop start).take length = digits)
    (hall : ∀ digit ∈ digits, digit.isDigit = true) :
    numberAt platform characters start length = valueOf digits := by
  have hfold (total : Nat) :
      digits.foldl (fun total character ↦ 10 * total + (platform.digit character).getD 0) total =
        digits.foldl (fun total digit ↦ 10 * total + (digit.toNat - 48)) total := by
    refine List.foldl_ext _ _ total fun total digit hdigit ↦ ?_
    rw [hdigits digit (hall digit hdigit), Option.getD_some]
  rw [numberAt, hslice]
  exact hfold 0

/-- The text has the shape of a timestamp, and its digits are ASCII digits. -/
theorem format_shape (hdigits : ReadsDigits platform) (h : moment.Exists) :
    matchesTimestampPattern platform (formatTimestamp moment) = true ∧
      ∀ position ∈ asciiPositions (formatTimestamp moment).toList,
        ((formatTimestamp moment).toList[position]?).any Char.isDigit := by
  obtain ⟨y₁, y₂, y₃, y₄, o₁, o₂, d₁, d₂, h₁, h₂, m₁, m₂, s₁, s₂, f₁, f₂, f₃, htext, hall, -⟩ :=
    format_characters h
  have hread := fun digit hmem ↦ congrArg Option.isSome (hdigits digit (hall digit hmem))
  simp only [List.cons_append, List.nil_append, List.forall_mem_cons, List.not_mem_nil,
    false_imp_iff, implies_true, and_true, Option.isSome_some] at hall hread
  obtain ⟨hy₁, hy₂, hy₃, hy₄, ho₁, ho₂, hd₁, hd₂, hh₁, hh₂, hm₁, hm₂, hs₁, hs₂, hf₁, hf₂, hf₃⟩ :=
    hread
  constructor
  · rw [matchesTimestampPattern, htext, timestampShape_eq]
    simp only [List.zip_cons_cons, List.zip_nil_left, List.all_cons, List.all_nil, hy₁, hy₂, hy₃,
      hy₄, ho₁, ho₂, hd₁, hd₂, hh₁, hh₂, hm₁, hm₂, hs₁, hs₂, hf₁, hf₂, hf₃, if_true]
    rfl
  · have hsome : ∀ position ∈ [5, 6, 8, 9, 11, 12, 14, 17, 20, 21, 22],
        ((formatTimestamp moment).toList[position]?).any Char.isDigit := by
      rw [htext]
      simp [hall]
    have hsubset : asciiPositions (formatTimestamp moment).toList ⊆
        [5, 6, 8, 9, 11, 12, 14, 17, 20, 21, 22] := by
      unfold asciiPositions
      split_ifs <;> decide
    exact fun position hposition ↦ hsome position (hsubset hposition)

/-- The fields are read at the places where they are written. -/
theorem format_fields (hdigits : ReadsDigits platform) (h : moment.Exists) :
    (⟨numberAt platform (formatTimestamp moment).toList 0 4,
      numberAt platform (formatTimestamp moment).toList 5 2,
      numberAt platform (formatTimestamp moment).toList 8 2,
      numberAt platform (formatTimestamp moment).toList 11 2,
      numberAt platform (formatTimestamp moment).toList 14 2,
      numberAt platform (formatTimestamp moment).toList 17 2,
      numberAt platform (formatTimestamp moment).toList 20 3⟩ : Moment) = moment := by
  obtain ⟨y₁, y₂, y₃, y₄, o₁, o₂, d₁, d₂, h₁, h₂, m₁, m₂, s₁, s₂, f₁, f₂, f₃, htext, hall,
    hmoment⟩ := format_characters h
  have hnumber (start length : Nat) (digits : List Char)
      (hslice : ((formatTimestamp moment).toList.drop start).take length = digits)
      (hmem : digits ⊆ [y₁, y₂, y₃, y₄] ++ [o₁, o₂] ++ [d₁, d₂] ++ [h₁, h₂] ++ [m₁, m₂] ++
        [s₁, s₂] ++ [f₁, f₂, f₃]) :
      numberAt platform (formatTimestamp moment).toList start length = valueOf digits :=
    numberAt_of_digits hdigits hslice fun digit hdigit ↦ hall digit (hmem hdigit)
  rw [htext] at hnumber ⊢
  rw [hnumber 0 4 [y₁, y₂, y₃, y₄] rfl (by simp), hnumber 5 2 [o₁, o₂] rfl (by simp),
    hnumber 8 2 [d₁, d₂] rfl (by simp), hnumber 11 2 [h₁, h₂] rfl (by simp),
    hnumber 14 2 [m₁, m₂] rfl (by simp), hnumber 17 2 [s₁, s₂] rfl (by simp),
    hnumber 20 3 [f₁, f₂, f₃] rfl (by simp)]
  exact hmoment.symm

/-- A text of the shape is read as the moment of its fields, if there is one. -/
theorem parse_of_fields {value : String}
    (hfields : (⟨numberAt platform value.toList 0 4, numberAt platform value.toList 5 2,
      numberAt platform value.toList 8 2, numberAt platform value.toList 11 2,
      numberAt platform value.toList 14 2, numberAt platform value.toList 17 2,
      numberAt platform value.toList 20 3⟩ : Moment) = moment)
    (hshape : matchesTimestampPattern platform value = true)
    (hascii : ∀ position ∈ asciiPositions value.toList, (value.toList[position]?).any Char.isDigit)
    (h : moment.Exists) : parseTimestamp platform value = some moment := by
  subst hfields
  unfold parseTimestamp
  exact if_pos ⟨hshape, hascii, h.year.1, h.month.1, h.month.2, h.day.1, h.day.2, h.hour,
    h.minute, h.second⟩

/-- A timestamp that is written is read back. -/
theorem parse_format (hdigits : ReadsDigits platform) (h : moment.Exists) :
    parseTimestamp platform (formatTimestamp moment) = some moment := by
  obtain ⟨hshape, hascii⟩ := format_shape hdigits h
  exact parse_of_fields (format_fields hdigits h) hshape hascii h

/-- A timestamp takes 24 characters, which are written as they are in a JSON text. -/
theorem format_plain (h : moment.Exists) :
    (formatTimestamp moment).toList.length = 24 ∧ ∀ character ∈ (formatTimestamp moment).toList,
      character.isDigit = true ∨ character ∈ ['-', 'T', ':', '.', 'Z'] := by
  obtain ⟨y₁, y₂, y₃, y₄, o₁, o₂, d₁, d₂, h₁, h₂, m₁, m₂, s₁, s₂, f₁, f₂, f₃, htext, hall, -⟩ :=
    format_characters h
  rw [htext]
  simp only [List.cons_append, List.nil_append, List.forall_mem_cons, List.not_mem_nil,
    false_imp_iff, implies_true, and_true] at hall
  refine ⟨rfl, ?_⟩
  simp only [List.forall_mem_cons]
  simp [hall]

end AiStp.Foundation.Identity
