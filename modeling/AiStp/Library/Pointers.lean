import AiStp.Library.Separators
import Mathlib.Data.String.Basic

/-!
# JSON pointers

A pointer is written as its names, each after a slash. In a name a tilde is written as `~0` and a
slash as `~1`, so the text of a pointer determines its names.
-/

set_option autoImplicit false

namespace AiStp.Library.Pointers

/-- A text with a text in the place of every occurrence of a letter. -/
def replaced (letter : Char) (substitute : List Char) (text : List Char) : List Char :=
  text.flatMap fun character ↦ if character = letter then substitute else [character]

def escaped (name : String) : String :=
  String.ofList (replaced '/' ['~', '1'] (replaced '~' ['~', '0'] name.toList))

def extend (path name : String) : String :=
  path ++ "/" ++ escaped name

/-- The text of a pointer that goes on from a path. -/
def pointer (path : String) (names : List String) : String :=
  names.foldl extend path

@[simp] theorem pointer_nil (path : String) : pointer path [] = path := rfl

@[simp] theorem pointer_cons (path name : String) (names : List String) :
    pointer path (name :: names) = pointer (extend path name) names := rfl

/-! ### The text determines the names -/

/-- What one letter is written as. -/
def letter (character : Char) : List Char :=
  if character = '~' then ['~', '0'] else if character = '/' then ['~', '1'] else [character]

theorem escaped_toList (name : String) : (escaped name).toList = name.toList.flatMap letter := by
  rw [escaped, String.toList_ofList, replaced, replaced, List.flatMap_assoc]
  refine List.flatMap_congr fun character _ ↦ ?_
  by_cases htilde : character = '~'
  · simp [letter, htilde]
  · simp [letter, htilde]

theorem slash_notMem_letter (character : Char) : '/' ∉ letter character := by
  by_cases htilde : character = '~'
  · simp [letter, htilde]
  · by_cases hslash : character = '/'
    · simp [letter, hslash]
    · simp [letter, htilde, hslash, Ne.symm hslash]

theorem slash_notMem_escaped (name : String) : '/' ∉ (escaped name).toList := by
  rw [escaped_toList, List.mem_flatMap]
  rintro ⟨character, -, hmem⟩
  exact slash_notMem_letter character hmem

theorem letter_append_inj {first second : Char} {rest rest' : List Char}
    (h : letter first ++ rest = letter second ++ rest') : first = second ∧ rest = rest' := by
  unfold letter at h
  split_ifs at h <;> grind

theorem flatMap_letter_injective : Function.Injective fun text ↦ List.flatMap letter text := by
  have hnonempty (character : Char) (rest : List Char) : letter character ++ rest ≠ [] := by
    unfold letter
    split_ifs <;> simp
  intro text
  induction text with
  | nil =>
    intro other h
    dsimp only at h
    cases other with
    | nil => rfl
    | cons character other =>
      rw [List.flatMap_nil, List.flatMap_cons] at h
      exact absurd h.symm (hnonempty character _)
  | cons character text ih =>
    intro other h
    dsimp only at h
    cases other with
    | nil =>
      rw [List.flatMap_nil, List.flatMap_cons] at h
      exact absurd h (hnonempty character _)
    | cons character' other =>
      rw [List.flatMap_cons, List.flatMap_cons] at h
      obtain ⟨rfl, hrest⟩ := letter_append_inj h
      rw [ih hrest]

theorem escaped_injective : Function.Injective escaped := by
  intro name name' h
  have htext := congrArg String.toList h
  rw [escaped_toList, escaped_toList] at htext
  exact String.toList_inj.mp (flatMap_letter_injective htext)

theorem pointer_toList (path : String) (names : List String) : (pointer path names).toList =
    path.toList ++ names.flatMap fun name ↦ '/' :: (escaped name).toList := by
  induction names generalizing path with
  | nil => simp
  | cons name names ih =>
    rw [pointer_cons, ih, extend]
    simp [List.append_assoc]

theorem pointer_injective (path : String) : Function.Injective (pointer path) := by
  intro names others h
  have htext := congrArg String.toList h
  rw [pointer_toList, pointer_toList] at htext
  have hnames := List.append_cancel_left htext
  clear h htext
  induction names generalizing others with
  | nil =>
    cases others with
    | nil => rfl
    | cons other others => simp at hnames
  | cons name names ih =>
    cases others with
    | nil => simp at hnames
    | cons other others =>
      rw [List.flatMap_cons, List.flatMap_cons, List.cons_append, List.cons_append,
        List.cons.injEq] at hnames
      -- A slash at the end makes every name stand before a slash.
      have hended := congrArg (· ++ ['/']) hnames.2
      have hsplit (rest : List String) : ∃ tail,
          (rest.flatMap fun name ↦ '/' :: (escaped name).toList) ++ ['/'] = '/' :: tail := by
        cases rest with
        | nil => exact ⟨[], rfl⟩
        | cons next rest => exact ⟨_, rfl⟩
      obtain ⟨tail, htail⟩ := hsplit names
      obtain ⟨tail', htail'⟩ := hsplit others
      rw [List.append_assoc, List.append_assoc, htail, htail'] at hended
      obtain ⟨hname, rfl⟩ := append_cons_inj (slash_notMem_escaped name)
        (slash_notMem_escaped other) hended
      have hrest := List.append_cancel_right (htail.trans htail'.symm)
      rw [escaped_injective (String.toList_inj.mp hname), ih hrest]

end AiStp.Library.Pointers
