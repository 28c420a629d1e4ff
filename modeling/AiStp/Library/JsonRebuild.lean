import AiStp.Library.JsonText

/-!
# Documents rebuilt part by part

Induction over a document and what it is rebuilt to (`rebuild_induction`), and what it gives: which
numbers the rebuilt document has, when other maps rebuild it alike or at all, and that depth and
size depend on the parts. A document whose fields are listed in another order (`Listed`) is
rebuilt to the same one, and is as deep and as long.
-/

set_option autoImplicit false

namespace AiStp.Library.JsonText

/-! ### Parts -/

variable {document rebuilt : Json}

section Rebuilt

open Json

variable {text text' : String → Option String} {number number' : Number → Option Number}

/-- The parts of a rebuilt array. -/
theorem rebuild_array_eq_some {items : List Json} :
    (array items).rebuild text number = some rebuilt ↔
      ∃ others, List.Forall₂ (fun item other ↦ item.rebuild text number = some other) items others ∧
        rebuilt = array others := by
  have hitems : ∀ (items others : List Json), rebuildItems text number items = some others ↔
      List.Forall₂ (fun item other ↦ item.rebuild text number = some other) items others := by
    intro items
    induction items with
    | nil =>
      intro others
      simp [rebuildItems, eq_comm]
    | cons item items ih =>
      intro others
      simp only [rebuildItems, Option.bind_eq_bind, Option.bind_eq_some_iff, Option.pure_def,
        Option.some.injEq, List.forall₂_cons_left_iff, ih]
      constructor
      · rintro ⟨first, hfirst, rest, hrest, rfl⟩
        exact ⟨first, rest, hfirst, hrest, rfl⟩
      · rintro ⟨first, rest, hfirst, hrest, rfl⟩
        exact ⟨first, hfirst, rest, hrest, rfl⟩
  rw [rebuild, Option.map_eq_some_iff]
  constructor
  · rintro ⟨others, hothers, rfl⟩
    exact ⟨others, (hitems items others).mp hothers, rfl⟩
  · rintro ⟨others, hothers, rfl⟩
    exact ⟨others, (hitems items others).mpr hothers, rfl⟩

/-- A field and what it is rebuilt to. -/
def FieldRebuilt (text : String → Option String) (number : Number → Option Number)
    (field other : String × Json) : Prop :=
  text field.1 = some other.1 ∧ field.2.rebuild text number = some other.2

/-- The parts of a rebuilt object. -/
theorem rebuild_object_eq_some {fields : List (String × Json)} :
    (object fields).rebuild text number = some rebuilt ↔
      ∃ others, List.Forall₂ (FieldRebuilt text number) fields others ∧
        (others.map Prod.fst).Nodup ∧
        rebuilt = object (others.insertionSort fun left right ↦ left.1 ≤ right.1) := by
  have hfields : ∀ (fields others : List (String × Json)),
      rebuildFields text number fields = some others ↔
        List.Forall₂ (FieldRebuilt text number) fields others := by
    intro fields
    induction fields with
    | nil =>
      intro others
      simp [rebuildFields, eq_comm]
    | cons field fields ih =>
      intro others
      obtain ⟨name, value⟩ := field
      simp only [rebuildFields, Option.bind_eq_bind, Option.bind_eq_some_iff, Option.pure_def,
        Option.some.injEq, List.forall₂_cons_left_iff, ih, FieldRebuilt]
      constructor
      · rintro ⟨name', hname, value', hvalue, rest, hrest, rfl⟩
        exact ⟨(name', value'), rest, ⟨hname, hvalue⟩, hrest, rfl⟩
      · rintro ⟨⟨name', value'⟩, rest, ⟨hname, hvalue⟩, hrest, rfl⟩
        exact ⟨name', hname, value', hvalue, rest, hrest, rfl⟩
  simp only [rebuild, Option.bind_eq_bind, Option.bind_eq_some_iff, Option.ite_none_right_eq_some,
    Option.some.injEq, hfields]
  constructor
  · rintro ⟨others, hothers, hnodup, rfl⟩
    exact ⟨others, hothers, hnodup, rfl⟩
  · rintro ⟨others, hothers, hnodup, rfl⟩
    exact ⟨others, hothers, hnodup, rfl⟩

/-- Induction over a document and what it is rebuilt to. -/
theorem rebuild_induction {motive : Json → Json → Prop} (null : motive null null)
    (bool : ∀ value, motive (bool value) (bool value))
    (number_ : ∀ value other, number value = some other → motive (.number value) (.number other))
    (string : ∀ value other, text value = some other → motive (.string value) (.string other))
    (array : ∀ items others, List.Forall₂ motive items others → motive (array items) (array others))
    (object : ∀ fields others,
      List.Forall₂ (fun field other ↦ text field.1 = some other.1 ∧ motive field.2 other.2)
        fields others → (others.map Prod.fst).Nodup →
      motive (object fields) (object (others.insertionSort fun left right ↦ left.1 ≤ right.1)))
    (h : document.rebuild text number = some rebuilt) : motive document rebuilt := by
  induction document using Json.induction generalizing rebuilt with
  | null => exact Option.some.inj h ▸ null
  | bool value => exact Option.some.inj h ▸ bool value
  | number value =>
    obtain ⟨other, hother, rfl⟩ := Option.map_eq_some_iff.mp h
    exact number_ value other hother
  | string value =>
    obtain ⟨other, hother, rfl⟩ := Option.map_eq_some_iff.mp h
    exact string value other hother
  | array items ih =>
    obtain ⟨others, hothers, rfl⟩ := rebuild_array_eq_some.mp h
    refine array items others ?_
    refine ((List.forall₂_and_left _ _).mpr ⟨ih, hothers⟩).imp ?_
    rintro item other ⟨hmotive, hrebuilt⟩
    exact hmotive hrebuilt
  | object fields ih =>
    obtain ⟨others, hothers, hnodup, rfl⟩ := rebuild_object_eq_some.mp h
    refine object fields others ?_ hnodup
    refine ((List.forall₂_and_left _ _).mpr ⟨ih, hothers⟩).imp ?_
    rintro field other ⟨hmotive, hname, hrebuilt⟩
    exact ⟨hname, hmotive hrebuilt⟩

theorem exists_forall₂ {Item Other : Type} {R : Item → Other → Prop} {items : List Item}
    (h : ∀ item ∈ items, ∃ other, R item other) : ∃ others, List.Forall₂ R items others := by
  induction items with
  | nil => exact ⟨[], .nil⟩
  | cons item items ih =>
    rw [List.forall_mem_cons] at h
    obtain ⟨other, hother⟩ := h.1
    obtain ⟨others, hothers⟩ := ih h.2
    exact ⟨other :: others, .cons hother hothers⟩

theorem exists_of_forall₂ {Item Other : Type} {relation : Item → Other → Prop} {items : List Item}
    {others : List Other} (h : List.Forall₂ relation items others) :
    (∀ item ∈ items, ∃ other ∈ others, relation item other) ∧
      ∀ other ∈ others, ∃ item ∈ items, relation item other := by
  induction h with
  | nil => simp
  | cons hhead _ ih =>
    simp only [List.forall_mem_cons, List.exists_mem_cons_iff]
    exact ⟨⟨.inl hhead, fun item hitem ↦ .inr (ih.1 item hitem)⟩,
      .inl hhead, fun other hother ↦ .inr (ih.2 other hother)⟩

/-- Two lists that one list is related to, item by item. -/
theorem forall₂_join {Item Left Right : Type} {left : Item → Left → Prop}
    {right : Item → Right → Prop} {items : List Item} {lefts : List Left} {rights : List Right}
    (hleft : List.Forall₂ left items lefts) (hright : List.Forall₂ right items rights) :
    List.Forall₂ (fun first second ↦ ∃ item, left item first ∧ right item second) lefts rights := by
  induction hleft generalizing rights with
  | nil =>
    cases hright
    exact .nil
  | cons hfirst _ ih =>
    cases hright with
    | cons hsecond hrest => exact .cons ⟨_, hfirst, hsecond⟩ (ih hrest)

theorem nodup_of_forall₂ {Left Right : Type} {relation : Left → Right → Prop} {lefts : List Left}
    {rights : List Right} (h : List.Forall₂ relation lefts rights)
    (hinjective : ∀ first second right, relation first right → relation second right →
      first = second) (hnodup : lefts.Nodup) : rights.Nodup := by
  induction h with
  | nil => exact List.nodup_nil
  | cons hhead htail ih =>
    obtain ⟨hfresh, hrest⟩ := List.nodup_cons.mp hnodup
    refine List.nodup_cons.mpr ⟨fun hmem ↦ ?_, ih hrest⟩
    obtain ⟨left, hleft, hsame⟩ := (exists_of_forall₂ htail).2 _ hmem
    exact hfresh (hinjective _ _ _ hhead hsame ▸ hleft)

/-- The numbers of a document, and those that it is rebuilt with. -/
theorem numbers_rebuild (h : document.rebuild text number = some rebuilt) :
    (∀ value ∈ numbers document, ∃ other, number value = some other) ∧
      ∀ other ∈ numbers rebuilt, ∃ value ∈ numbers document, number value = some other := by
  refine rebuild_induction (motive := fun document rebuilt ↦
    (∀ value ∈ numbers document, ∃ other, number value = some other) ∧
      ∀ other ∈ numbers rebuilt, ∃ value ∈ numbers document, number value = some other)
    ?_ ?_ ?_ ?_ ?_ ?_ h
  · simp [numbers]
  · simp [numbers]
  · intro value other hvalue
    simp [numbers, hvalue]
  · simp [numbers]
  · intro items others hitems
    obtain ⟨hleft, hright⟩ := exists_of_forall₂ hitems
    constructor
    · intro value hvalue
      obtain ⟨item, hitem, hmem⟩ := mem_numbers_array.mp hvalue
      obtain ⟨other, -, hmotive⟩ := hleft item hitem
      exact hmotive.1 value hmem
    · intro other hother
      obtain ⟨rebuilt, hrebuilt, hmem⟩ := mem_numbers_array.mp hother
      obtain ⟨item, hitem, hmotive⟩ := hright rebuilt hrebuilt
      obtain ⟨value, hvalue, hnumber⟩ := hmotive.2 other hmem
      exact ⟨value, mem_numbers_array.mpr ⟨item, hitem, hvalue⟩, hnumber⟩
  · intro fields others hfields _
    obtain ⟨hleft, hright⟩ := exists_of_forall₂ hfields
    constructor
    · intro value hvalue
      obtain ⟨field, hfield, hmem⟩ := mem_numbers_object.mp hvalue
      obtain ⟨other, -, -, hmotive⟩ := hleft field hfield
      exact hmotive.1 value hmem
    · intro other hother
      obtain ⟨rebuilt, hrebuilt, hmem⟩ := mem_numbers_object.mp hother
      rw [List.mem_insertionSort] at hrebuilt
      obtain ⟨field, hfield, -, hmotive⟩ := hright rebuilt hrebuilt
      obtain ⟨value, hvalue, hnumber⟩ := hmotive.2 other hmem
      exact ⟨value, mem_numbers_object.mpr ⟨field, hfield, hvalue⟩, hnumber⟩

/-- Numbers that become the same make the same document. -/
theorem rebuild_of_agree (h : document.rebuild text number = some rebuilt)
    (hagree : ∀ value ∈ numbers document, ∀ other, number value = some other →
      number' value = some other) : document.rebuild text number' = some rebuilt := by
  revert hagree
  refine rebuild_induction (motive := fun document rebuilt ↦
    (∀ value ∈ numbers document, ∀ other, number value = some other → number' value = some other) →
      document.rebuild text number' = some rebuilt) ?_ ?_ ?_ ?_ ?_ ?_ h
  · intro _
    rfl
  · intro value _
    rfl
  · intro value other hvalue hagree
    rw [rebuild, hagree value (by simp [numbers]) other hvalue, Option.map_some]
  · intro value other hvalue _
    rw [rebuild, hvalue, Option.map_some]
  · intro items others hitems hagree
    refine rebuild_array_eq_some.mpr ⟨others, ?_, rfl⟩
    refine ((List.forall₂_and_left _ _).mpr ⟨fun item hitem ↦ ?_, hitems⟩).imp
      fun item other hmotive ↦ hmotive.2 hmotive.1
    exact fun value hvalue ↦ hagree value (mem_numbers_array.mpr ⟨item, hitem, hvalue⟩)
  · intro fields others hfields hnodup hagree
    refine rebuild_object_eq_some.mpr ⟨others, ?_, hnodup, rfl⟩
    have hmembers : ∀ field ∈ fields, ∀ value ∈ numbers field.2, ∀ other,
        number value = some other → number' value = some other := by
      intro field hfield value hvalue
      exact hagree value (mem_numbers_object.mpr ⟨field, hfield, hvalue⟩)
    refine ((List.forall₂_and_left _ _).mpr ⟨hmembers, hfields⟩).imp ?_
    rintro field other ⟨hmember, hname, hmotive⟩
    exact ⟨hname, hmotive hmember⟩

/-- What can be rebuilt can be rebuilt by maps that answer as often and join no more names. -/
theorem exists_rebuild (h : document.rebuild text number = some rebuilt)
    (htext : ∀ name other, text name = some other → ∃ other', text' name = some other')
    (hinjective : ∀ left right other, text' left = some other → text' right = some other →
      text left = text right)
    (hnumber : ∀ value other, number value = some other → ∃ other', number' value = some other') :
    ∃ rebuilt', document.rebuild text' number' = some rebuilt' := by
  refine rebuild_induction (motive := fun document _ ↦
    ∃ rebuilt', document.rebuild text' number' = some rebuilt') ?_ ?_ ?_ ?_ ?_ ?_ h
  · exact ⟨_, rfl⟩
  · exact fun value ↦ ⟨_, rfl⟩
  · intro value other hvalue
    obtain ⟨other', hother'⟩ := hnumber value other hvalue
    exact ⟨.number other', by rw [rebuild, hother', Option.map_some]⟩
  · intro value other hvalue
    obtain ⟨other', hother'⟩ := htext value other hvalue
    exact ⟨.string other', by rw [rebuild, hother', Option.map_some]⟩
  · intro items others hitems
    obtain ⟨others', hothers'⟩ := exists_forall₂ (R := fun item other ↦
      item.rebuild text' number' = some other) fun item hitem ↦
        ((exists_of_forall₂ hitems).1 item hitem).elim fun _ hother ↦ hother.2
    exact ⟨_, rebuild_array_eq_some.mpr ⟨others', hothers', rfl⟩⟩
  · intro fields others hfields hnodup
    have hfield : ∀ field ∈ fields, ∃ other, FieldRebuilt text' number' field other := by
      intro field hfield
      obtain ⟨other, -, hname, held, hheld⟩ := (exists_of_forall₂ hfields).1 field hfield
      obtain ⟨name, hname'⟩ := htext field.1 other.1 hname
      exact ⟨(name, held), hname', hheld⟩
    obtain ⟨others', hothers'⟩ := exists_forall₂ hfield
    refine ⟨_, rebuild_object_eq_some.mpr ⟨others', hothers', ?_, rfl⟩⟩
    have hnames : List.Forall₂ (fun first second ↦ ∃ name, text name = some first ∧
        text' name = some second) (others.map Prod.fst) (others'.map Prod.fst) := by
      rw [List.forall₂_map_left_iff, List.forall₂_map_right_iff]
      refine (forall₂_join hfields hothers').imp ?_
      rintro other other' ⟨field, ⟨hname, -⟩, hname', -⟩
      exact ⟨field.1, hname, hname'⟩
    refine nodup_of_forall₂ hnames ?_ hnodup
    rintro first second right ⟨name, hfirst, hright⟩ ⟨name', hsecond, hright'⟩
    have hsame := hinjective name name' right hright hright'
    rw [hfirst, hsecond] at hsame
    exact Option.some.inj hsame

/-! ### Depth -/

theorem depth_array_le {items : List Json} {bound : Nat} :
    (array items).depth ≤ bound ↔ ∀ item ∈ items, item.depth + 1 ≤ bound := by
  rw [depth]
  induction items with
  | nil => simp [depth.depthItems]
  | cons item items ih => simp [depth.depthItems, ih]

theorem depth_object_le {fields : List (String × Json)} {bound : Nat} :
    (object fields).depth ≤ bound ↔ ∀ field ∈ fields, field.2.depth + 1 ≤ bound := by
  rw [depth]
  induction fields with
  | nil => simp [depth.depthFields]
  | cons field fields ih => simp [depth.depthFields, ih]

theorem depth_rebuild (h : document.rebuild text number = some rebuilt) :
    rebuilt.depth = document.depth := by
  refine rebuild_induction (motive := fun document rebuilt ↦ rebuilt.depth = document.depth)
    rfl (fun _ ↦ rfl) (fun _ _ _ ↦ rfl) (fun _ _ _ ↦ rfl) ?_ ?_ h
  · intro items others hitems
    obtain ⟨hleft, hright⟩ := exists_of_forall₂ hitems
    refine eq_of_forall_ge_iff fun bound ↦ ?_
    rw [depth_array_le, depth_array_le]
    constructor
    · intro hothers item hitem
      obtain ⟨other, hother, hsame⟩ := hleft item hitem
      exact hsame ▸ hothers other hother
    · intro hall other hother
      obtain ⟨item, hitem, hsame⟩ := hright other hother
      exact hsame ▸ hall item hitem
  · intro fields others hfields _
    obtain ⟨hleft, hright⟩ := exists_of_forall₂ hfields
    refine eq_of_forall_ge_iff fun bound ↦ ?_
    rw [depth_object_le, depth_object_le]
    constructor
    · intro hothers field hfield
      obtain ⟨other, hother, -, hsame⟩ := hleft field hfield
      exact hsame ▸ hothers other (List.mem_insertionSort _ |>.mpr hother)
    · intro hall other hother
      obtain ⟨field, hfield, -, hsame⟩ := hright other (List.mem_insertionSort _ |>.mp hother)
      exact hsame ▸ hall field hfield

end Rebuilt

/-! ### Size -/

/-- The bytes that some characters take in UTF-8. -/
def utf8Length (text : List Char) : Nat := (text.map Char.utf8Size).sum

@[simp] theorem utf8Length_append (first second : List Char) :
    utf8Length (first ++ second) = utf8Length first + utf8Length second := by
  simp [utf8Length]

@[simp] theorem utf8Length_cons (character : Char) (text : List Char) :
    utf8Length (character :: text) = character.utf8Size + utf8Length text := by
  simp [utf8Length]

/-- The size of a document from the sizes of its strings and numbers. -/
def writtenSize (string : String → Nat) (number : Number → Nat) : Json → Nat
  | .null => 4
  | .bool value => if value then 4 else 5
  | .number value => number value
  | .string text => string text
  | .array items => 1 + max 1 (ofItems items)
  | .object fields => 1 + max 1 (ofFields fields)
where
  ofItems : List Json → Nat
    | [] => 0
    | item :: items => writtenSize string number item + 1 + ofItems items
  ofFields : List (String × Json) → Nat
    | [] => 0
    | (name, value) :: fields =>
      string name + 1 + writtenSize string number value + 1 + ofFields fields

section Size

variable {string : String → Nat} {number number' : Number → Nat}

theorem writtenSize_array (items : List Json) :
    writtenSize string number (.array items) =
      1 + max 1 (items.map fun item ↦ writtenSize string number item + 1).sum := by
  have hsum : writtenSize.ofItems string number items =
      (items.map fun item ↦ writtenSize string number item + 1).sum := by
    induction items with
    | nil => rfl
    | cons item items ih => rw [writtenSize.ofItems, ih, List.map_cons, List.sum_cons]
  rw [writtenSize, hsum]

theorem writtenSize_object (fields : List (String × Json)) :
    writtenSize string number (.object fields) = 1 + max 1 (fields.map fun field ↦
      string field.1 + 1 + writtenSize string number field.2 + 1).sum := by
  have hsum : writtenSize.ofFields string number fields = (fields.map fun field ↦
      string field.1 + 1 + writtenSize string number field.2 + 1).sum := by
    induction fields with
    | nil => rfl
    | cons field fields ih => rw [writtenSize.ofFields, ih, List.map_cons, List.sum_cons]
  rw [writtenSize, hsum]

/-- The size of the text that is written. -/
theorem utf8Length_write (value : Json) :
    utf8Length (write value) = writtenSize (fun text ↦ utf8Length (writeString text))
      (fun number ↦ utf8Length (writeNumber number)) value := by
  induction value using Json.induction with
  | null => rfl
  | bool value => cases value <;> rfl
  | number value => rfl
  | string text => rfl
  | array items ih =>
    rw [write, writtenSize_array, utf8Length_cons]
    have hitems : items ≠ [] → utf8Length (writeItems items) =
        (items.map fun item ↦ writtenSize (fun text ↦ utf8Length (writeString text))
          (fun number ↦ utf8Length (writeNumber number)) item + 1).sum := by
      induction items with
      | nil => exact fun hne ↦ absurd rfl hne
      | cons item items ihitems =>
        rw [List.forall_mem_cons] at ih
        intro _
        cases items with
        | nil =>
          rw [writeItems, utf8Length_append, ih.1]
          rfl
        | cons second items =>
          rw [writeItems, utf8Length_append, utf8Length_cons, ih.1, ihitems ih.2 (by simp)]
          · simp only [List.map_cons, List.sum_cons]
            rw [show Char.utf8Size ',' = 1 from rfl]
            omega
          · simp
    by_cases hne : items = []
    · subst hne
      rfl
    · have hpositive : 1 ≤ (items.map fun item ↦ writtenSize
          (fun text ↦ utf8Length (writeString text))
          (fun number ↦ utf8Length (writeNumber number)) item + 1).sum := by
        obtain ⟨item, rest, rfl⟩ := List.exists_cons_of_ne_nil hne
        rw [List.map_cons, List.sum_cons]
        omega
      rw [hitems hne, Nat.max_eq_right hpositive]
      rfl
  | object fields ih =>
    rw [write, writtenSize_object, utf8Length_cons]
    have hfields : fields ≠ [] → utf8Length (writeFields fields) =
        (fields.map fun field ↦ utf8Length (writeString field.1) + 1 +
          writtenSize (fun text ↦ utf8Length (writeString text))
          (fun number ↦ utf8Length (writeNumber number)) field.2 + 1).sum := by
      induction fields with
      | nil => exact fun hne ↦ absurd rfl hne
      | cons field fields ihfields =>
        obtain ⟨name, value⟩ := field
        rw [List.forall_mem_cons] at ih
        have hvalue := ih.1
        dsimp only at hvalue
        intro _
        cases fields with
        | nil =>
          simp only [writeFields, utf8Length_append, utf8Length_cons, hvalue, List.map_cons,
            List.sum_cons, List.map_nil, List.sum_nil]
          rw [show Char.utf8Size ':' = 1 from rfl, show Char.utf8Size '\x7d' = 1 from rfl,
            show utf8Length [] = 0 from rfl]
          omega
        | cons second fields =>
          rw [writeFields, utf8Length_append, utf8Length_append, utf8Length_cons, utf8Length_cons,
            hvalue, ihfields ih.2 (by simp)]
          · simp only [List.map_cons, List.sum_cons]
            rw [show Char.utf8Size ',' = 1 from rfl, show Char.utf8Size ':' = 1 from rfl]
            omega
          · simp
    by_cases hne : fields = []
    · subst hne
      rfl
    · have hpositive : 1 ≤ (fields.map fun field ↦ utf8Length (writeString field.1) + 1 +
          writtenSize (fun text ↦ utf8Length (writeString text))
          (fun number ↦ utf8Length (writeNumber number)) field.2 + 1).sum := by
        obtain ⟨field, rest, rfl⟩ := List.exists_cons_of_ne_nil hne
        rw [List.map_cons, List.sum_cons]
        omega
      rw [hfields hne, Nat.max_eq_right hpositive]
      rfl

/-- The size of a rebuilt document, part by part. -/
theorem writtenSize_rebuild {text : String → Option String} {change : Number → Option Number}
    (h : document.rebuild text change = some rebuilt) :
    writtenSize string number rebuilt =
      writtenSize (fun name ↦ ((text name).map string).getD 0)
        (fun value ↦ ((change value).map number).getD 0) document := by
  refine rebuild_induction (motive := fun document rebuilt ↦ writtenSize string number rebuilt =
    writtenSize (fun name ↦ ((text name).map string).getD 0)
      (fun value ↦ ((change value).map number).getD 0) document) rfl (fun _ ↦ rfl) ?_ ?_ ?_ ?_ h
  · intro value other hvalue
    simp [writtenSize, hvalue]
  · intro value other hvalue
    simp [writtenSize, hvalue]
  · intro items others hitems
    rw [writtenSize_array, writtenSize_array]
    congr 2
    induction hitems with
    | nil => rfl
    | cons hitem _ ih => rw [List.map_cons, List.map_cons, List.sum_cons, List.sum_cons, hitem, ih]
  · intro fields others hfields hnodup
    clear hnodup
    rw [writtenSize_object, writtenSize_object,
      ((List.perm_insertionSort _ others).map _).sum_eq]
    congr 2
    induction hfields with
    | nil => rfl
    | cons hfield _ ih =>
      obtain ⟨hname, hvalue⟩ := hfield
      simp only [List.map_cons, List.sum_cons, hvalue, hname, ih, Option.map_some,
        Option.getD_some]

theorem writtenSize_mono (h : ∀ value ∈ numbers document, number value ≤ number' value) :
    writtenSize string number document ≤ writtenSize string number' document := by
  induction document using Json.induction with
  | null => exact Nat.le_refl _
  | bool value => exact Nat.le_refl _
  | number value => exact h value (by simp [numbers])
  | string value => exact Nat.le_refl _
  | array items ih =>
    have hsum : (items.map fun item ↦ writtenSize string number item + 1).sum ≤
        (items.map fun item ↦ writtenSize string number' item + 1).sum := by
      refine List.sum_le_sum fun item hitem ↦ Nat.succ_le_succ ?_
      exact ih item hitem fun value hvalue ↦ h value (mem_numbers_array.mpr ⟨item, hitem, hvalue⟩)
    rw [writtenSize_array, writtenSize_array]
    omega
  | object fields ih =>
    have hsum : (fields.map fun field ↦
          string field.1 + 1 + writtenSize string number field.2 + 1).sum ≤
        (fields.map fun field ↦
          string field.1 + 1 + writtenSize string number' field.2 + 1).sum := by
      refine List.sum_le_sum fun field hfield ↦ ?_
      have hvalue := ih field hfield fun value hvalue ↦
        h value (mem_numbers_object.mpr ⟨field, hfield, hvalue⟩)
      omega
    rw [writtenSize_object, writtenSize_object]
    omega

end Size

/-! ### Another order of fields -/

section Arranged

variable (order : String → String → Prop) [DecidableRel order]

mutual

/-- The document with the fields of its objects in the order of their names. -/
def arrange : Json → Json
  | .array items => .array (arrangeItems items)
  | .object fields =>
    .object ((arrangeFields fields).insertionSort fun left right ↦ order left.1 right.1)
  | document => document

def arrangeItems : List Json → List Json
  | [] => []
  | item :: items => arrange item :: arrangeItems items

def arrangeFields : List (String × Json) → List (String × Json)
  | [] => []
  | (name, value) :: fields => (name, arrange value) :: arrangeFields fields

end

theorem arrangeItems_eq (items : List Json) : arrangeItems order items = items.map (arrange order) := by
  induction items with
  | nil => rfl
  | cons item items ih => rw [arrangeItems, ih, List.map_cons]

theorem arrangeFields_eq (fields : List (String × Json)) :
    arrangeFields order fields = fields.map fun field ↦ (field.1, arrange order field.2) := by
  induction fields with
  | nil => rfl
  | cons field fields ih => rw [arrangeFields, ih, List.map_cons]

variable {order}

/-- What an object is rebuilt to does not depend on the order of its fields. -/
theorem rebuild_arrange (document : Json) {text : String → Option String}
    {number : Number → Option Number} :
    (arrange order document).rebuild text number = document.rebuild text number := by
  induction document using Json.induction with
  | null => rfl
  | bool value => rfl
  | number value => rfl
  | string value => rfl
  | array items ih =>
    have hitems : Json.rebuildItems text number (arrangeItems order items) =
        Json.rebuildItems text number items := by
      induction items with
      | nil => rfl
      | cons item items ihitems =>
        rw [List.forall_mem_cons] at ih
        rw [arrangeItems, Json.rebuildItems, Json.rebuildItems, ih.1, ihitems ih.2]
    rw [arrange, Json.rebuild, Json.rebuild, hitems]
  | object fields ih =>
    have hfields : Json.rebuildFields text number (arrangeFields order fields) =
        Json.rebuildFields text number fields := by
      induction fields with
      | nil => rfl
      | cons field fields ihfields =>
        rw [List.forall_mem_cons] at ih
        rw [arrangeFields, Json.rebuildFields, Json.rebuildFields, ih.1, ihfields ih.2]
    rw [arrange, Json.rebuild_object_perm (List.perm_insertionSort _ _), Json.rebuild, Json.rebuild,
      hfields]

theorem mem_numbers_arrange {value : Number} :
    value ∈ numbers (arrange order document) ↔ value ∈ numbers document := by
  induction document using Json.induction with
  | null => rfl
  | bool value => rfl
  | number value => rfl
  | string value => rfl
  | array items ih =>
    rw [arrange, arrangeItems_eq, mem_numbers_array, mem_numbers_array]
    simp only [List.mem_map, exists_exists_and_eq_and]
    exact exists_congr fun item ↦ and_congr_right fun hitem ↦ ih item hitem
  | object fields ih =>
    rw [arrange, arrangeFields_eq, mem_numbers_object, mem_numbers_object]
    simp only [List.mem_insertionSort, List.mem_map, exists_exists_and_eq_and]
    exact exists_congr fun field ↦ and_congr_right fun hfield ↦ ih field hfield

theorem depth_arrange (document : Json) : (arrange order document).depth = document.depth := by
  induction document using Json.induction with
  | null => rfl
  | bool value => rfl
  | number value => rfl
  | string value => rfl
  | array items ih =>
    refine eq_of_forall_ge_iff fun bound ↦ ?_
    rw [arrange, arrangeItems_eq, depth_array_le, depth_array_le, List.forall_mem_map]
    exact forall₂_congr fun item hitem ↦ by rw [ih item hitem]
  | object fields ih =>
    refine eq_of_forall_ge_iff fun bound ↦ ?_
    rw [arrange, arrangeFields_eq, depth_object_le, depth_object_le]
    simp only [List.mem_insertionSort, List.forall_mem_map]
    exact forall₂_congr fun field hfield ↦ by rw [ih field hfield]

theorem writtenSize_arrange {string : String → Nat} {number : Number → Nat} (document : Json) :
    writtenSize string number (arrange order document) = writtenSize string number document := by
  induction document using Json.induction with
  | null => rfl
  | bool value => rfl
  | number value => rfl
  | string value => rfl
  | array items ih =>
    rw [arrange, arrangeItems_eq, writtenSize_array, writtenSize_array, List.map_map]
    congr 3
    exact List.map_congr_left fun item hitem ↦ congrArg (· + 1) (ih item hitem)
  | object fields ih =>
    rw [arrange, arrangeFields_eq, writtenSize_object, writtenSize_object,
      ((List.perm_insertionSort _ _).map _).sum_eq, List.map_map]
    congr 3
    refine List.map_congr_left fun field hfield ↦ ?_
    exact congrArg (string field.1 + 1 + · + 1) (ih field hfield)

end Arranged

end AiStp.Library.JsonText
