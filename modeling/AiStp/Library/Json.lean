import AiStp.Library.TextOrder
import Mathlib

/-!
# JSON documents

A document is a tree with the six JSON shapes. A number is an integer, or a finite binary float
named by its shortest round-trip text, which determines it. Objects list their fields in the order
they were written, and the first field of a name is the one that is read.

`rebuild` maps every string and number of a document, refuses an object two of whose names become
equal, and lists the fields of each object by name. Two documents that rebuild to the same tree
have the same serialization, so a rebuilt tree stands for the canonical bytes of a document.
`Json.induction` is the induction over documents that the theorems about recursive readers use.
-/

set_option autoImplicit false

namespace AiStp.Library

/-- A JSON number as a reader holds it. -/
inductive Number where
  | integer (value : Int)
  | float (text : String)
  | nonFinite
deriving DecidableEq, Repr

inductive Json where
  | null
  | bool (value : Bool)
  | number (value : Number)
  | string (text : String)
  | array (items : List Json)
  | object (fields : List (String × Json))
deriving Repr

namespace Json

/-! ### Equality -/

mutual

/-- Structural equality, field order included. -/
def same : Json → Json → Bool
  | null, null => true
  | bool left, bool right => left == right
  | number left, number right => left == right
  | string left, string right => left == right
  | array left, array right => sameItems left right
  | object left, object right => sameFields left right
  | _, _ => false

def sameItems : List Json → List Json → Bool
  | [], [] => true
  | left :: lefts, right :: rights => same left right && sameItems lefts rights
  | _, _ => false

def sameFields : List (String × Json) → List (String × Json) → Bool
  | [], [] => true
  | (leftName, left) :: lefts, (rightName, right) :: rights =>
    leftName == rightName && same left right && sameFields lefts rights
  | _, _ => false

end

mutual

theorem same_iff (left right : Json) : same left right = true ↔ left = right := by
  cases left <;> cases right <;> simp [same]
  · exact sameItems_iff _ _
  · exact sameFields_iff _ _

theorem sameItems_iff (lefts rights : List Json) :
    sameItems lefts rights = true ↔ lefts = rights := by
  cases lefts <;> cases rights <;> simp [sameItems, same_iff, sameItems_iff]

theorem sameFields_iff (lefts rights : List (String × Json)) :
    sameFields lefts rights = true ↔ lefts = rights := by
  cases lefts with
  | nil => cases rights <;> simp [sameFields]
  | cons left lefts =>
    cases rights with
    | nil => simp [sameFields]
    | cons right rights =>
      obtain ⟨leftName, left⟩ := left
      obtain ⟨rightName, right⟩ := right
      simp [sameFields, same_iff left right, sameFields_iff lefts rights, and_assoc]

end

instance : DecidableEq Json := fun left right ↦ decidable_of_iff _ (same_iff left right)

/-! ### Induction -/

/-- A property of documents holds of all of them when arrays and objects inherit it from their
members. -/
theorem induction {motive : Json → Prop} (null : motive null) (bool : ∀ value, motive (bool value))
    (number : ∀ value, motive (number value)) (string : ∀ text, motive (string text))
    (array : ∀ items, (∀ item ∈ items, motive item) → motive (array items))
    (object : ∀ fields, (∀ field ∈ fields, motive field.2) → motive (object fields))
    (document : Json) : motive document := by
  refine @Json.rec motive (fun items ↦ ∀ item ∈ items, motive item)
    (fun fields ↦ ∀ field ∈ fields, motive field.2) (fun field ↦ motive field.2)
    null bool number string array object ?_ ?_ ?_ ?_ ?_ document
  · simp
  · intro first items hfirst hitems
    exact List.forall_mem_cons.mpr ⟨hfirst, hitems⟩
  · simp
  · intro first fields hfirst hfields
    exact List.forall_mem_cons.mpr ⟨hfirst, hfields⟩
  · intro name value hvalue
    exact hvalue

/-! ### Reading -/

/-- The value of a name in an object. -/
def get? (document : Json) (name : String) : Option Json :=
  match document with
  | .object fields => fields.lookup name
  | _ => none

/-- Indexing that answers null for a missing name, or for a document that is not an object. -/
def index (document : Json) (name : String) : Json :=
  (document.get? name).getD .null

def asString? : Json → Option String
  | .string text => some text
  | _ => none

def asArray? : Json → Option (List Json)
  | .array items => some items
  | _ => none

def asObject? : Json → Option (List (String × Json))
  | .object fields => some fields
  | _ => none

/-- A list of strings, or nothing when some item is not one. -/
def strings? : List Json → Option (List String)
  | [] => some []
  | item :: items => do
    let text ← item.asString?
    let texts ← strings? items
    return text :: texts

/-- An object without one of its names. -/
def erase (document : Json) (name : String) : Json :=
  match document with
  | .object fields => .object (fields.filter fun field ↦ field.1 ≠ name)
  | _ => document

/-- An object with a missing field filled in. -/
def withDefault (name : String) (value : Json) (document : Json) : Json :=
  match document with
  | .object fields =>
    if (fields.lookup name).isSome then document else .object (fields ++ [(name, value)])
  | _ => document

/-- An object with a field written over. -/
def set (document : Json) (name : String) (value : Json) : Json :=
  match document with
  | .object fields => .object (fields.filter (fun field ↦ field.1 ≠ name) ++ [(name, value)])
  | _ => document

/-- An object with every value mapped. -/
def mapValues (change : Json → Json) : Json → Json
  | .object fields => .object (fields.map fun field ↦ (field.1, change field.2))
  | document => document

/-- The depth of the deepest member; the document itself lies at depth zero. -/
def depth : Json → Nat
  | .array items => depthItems items
  | .object fields => depthFields fields
  | _ => 0
where
  depthItems : List Json → Nat
    | [] => 0
    | item :: items => max (depth item + 1) (depthItems items)
  depthFields : List (String × Json) → Nat
    | [] => 0
    | (_, value) :: fields => max (depth value + 1) (depthFields fields)

/-! ### Rebuilding -/

mutual

/-- Map every string and number, refuse equal names, and list the fields of objects by name. -/
def rebuild (text : String → Option String) (number : Number → Option Number) :
    Json → Option Json
  | .null => some .null
  | .bool value => some (.bool value)
  | .number value => (number value).map .number
  | .string value => (text value).map .string
  | .array items => (rebuildItems text number items).map .array
  | .object fields => do
    let fields ← rebuildFields text number fields
    if (fields.map Prod.fst).Nodup then
      some (.object (fields.insertionSort fun left right ↦ left.1 ≤ right.1))
    else none

def rebuildItems (text : String → Option String) (number : Number → Option Number) :
    List Json → Option (List Json)
  | [] => some []
  | item :: items => do
    let item ← rebuild text number item
    let items ← rebuildItems text number items
    return item :: items

def rebuildFields (text : String → Option String) (number : Number → Option Number) :
    List (String × Json) → Option (List (String × Json))
  | [] => some []
  | (name, value) :: fields => do
    let name ← text name
    let value ← rebuild text number value
    let fields ← rebuildFields text number fields
    return (name, value) :: fields

end

/-- A document as a reader holds it whose objects are maps. -/
def asMap? (document : Json) : Option Json :=
  document.rebuild some some

/-- Equality of readers whose objects are maps. -/
def sameValue (left right : Json) : Bool :=
  left.asMap?.isSome && left.asMap? == right.asMap?

/-! ### Reading a rebuilt document -/

variable {fields : List (String × Json)}

/-- A list that names nothing twice binds a name to the value it lists for it. -/
theorem lookup_eq_some_iff_mem {name : String} {value : Json}
    (hnodup : (fields.map Prod.fst).Nodup) :
    fields.lookup name = some value ↔ (name, value) ∈ fields := by
  induction fields with
  | nil => simp
  | cons field fields ih =>
    obtain ⟨key, held⟩ := field
    rw [List.map_cons, List.nodup_cons] at hnodup
    obtain ⟨hfresh, hnodup⟩ := hnodup
    rw [List.lookup_cons, List.mem_cons]
    by_cases hkey : name = key
    · subst hkey
      have hnotmem : (name, value) ∉ fields := by
        intro hmem
        exact hfresh (List.mem_map.mpr ⟨(name, value), hmem, rfl⟩)
      simp [hnotmem, eq_comm]
    · rw [beq_false_of_ne hkey]
      simp [hkey, ih hnodup]

/-- The order of the fields does not matter to a reader. -/
theorem lookup_eq_of_perm {sorted : List (String × Json)} (hnodup : (fields.map Prod.fst).Nodup)
    (hperm : fields.Perm sorted) (name : String) : sorted.lookup name = fields.lookup name := by
  have hsorted : (sorted.map Prod.fst).Nodup := (hperm.map Prod.fst).nodup_iff.mp hnodup
  ext value
  rw [lookup_eq_some_iff_mem hsorted, lookup_eq_some_iff_mem hnodup, hperm.mem_iff]

variable {document : Json}

section Rebuilt

variable {text : String → Option String} {number : Number → Option Number} {name : String}

/-- A name that no other name becomes is bound to the rebuilt value. -/
theorem lookup_rebuildFields (hname : ∀ key key', text key = some key' → (key' = name ↔ key = name))
    {rebuilt : List (String × Json)} (h : rebuildFields text number fields = some rebuilt) :
    Option.Rel (fun value held ↦ rebuild text number value = some held)
      (fields.lookup name) (rebuilt.lookup name) := by
  induction fields generalizing rebuilt with
  | nil =>
    obtain rfl : [] = rebuilt := by simpa [rebuildFields] using h
    exact Option.Rel.none
  | cons field fields ih =>
    obtain ⟨key, value⟩ := field
    simp only [rebuildFields, Option.bind_eq_bind, Option.bind_eq_some_iff, Option.pure_def,
      Option.some.injEq] at h
    obtain ⟨key', hkey, value', hvalue, rest, hrest, rfl⟩ := h
    rw [List.lookup_cons, List.lookup_cons]
    by_cases hsame : key = name
    · have hsame' : key' = name := (hname key key' hkey).mpr hsame
      subst hsame
      rw [hsame', beq_self_eq_true]
      exact Option.Rel.some hvalue
    · have hother : key' ≠ name := fun hsame' ↦ hsame ((hname key key' hkey).mp hsame')
      rw [beq_false_of_ne (Ne.symm hsame), beq_false_of_ne (Ne.symm hother)]
      exact ih hrest

/-- Reading a rebuilt document is rebuilding what is read. -/
theorem get?_rebuild (hname : ∀ key key', text key = some key' → (key' = name ↔ key = name))
    {rebuilt : Json} (h : document.rebuild text number = some rebuilt) :
    Option.Rel (fun value held ↦ rebuild text number value = some held)
      (document.get? name) (rebuilt.get? name) := by
  cases document with
  | object fields =>
    simp only [rebuild, Option.bind_eq_bind, Option.bind_eq_some_iff,
      Option.ite_none_right_eq_some, Option.some.injEq] at h
    obtain ⟨held, hheld, hnodup, rfl⟩ := h
    rw [get?, get?, lookup_eq_of_perm hnodup (List.perm_insertionSort _ held).symm]
    exact lookup_rebuildFields hname hheld
  | null | bool | number | string | array =>
    simp only [rebuild, Option.map_eq_some_iff, Option.some.injEq] at h
    first
      | (obtain rfl := h; exact Option.Rel.none)
      | (obtain ⟨_, -, rfl⟩ := h; exact Option.Rel.none)

/-- Null stands for a missing name on both sides. -/
theorem rebuild_index (hname : ∀ key key', text key = some key' → (key' = name ↔ key = name))
    {rebuilt : Json} (h : document.rebuild text number = some rebuilt) :
    (document.index name).rebuild text number = some (rebuilt.index name) := by
  have hread := get?_rebuild hname h
  unfold index
  revert hread
  generalize document.get? name = value
  generalize rebuilt.get? name = held
  rintro (hvalue | _)
  · exact hvalue
  · rfl

end Rebuilt

/-! ### The order of fields -/

section Order

variable {text text' : String → Option String} {number number' : Number → Option Number}

/-- Fields with distinct names have one listing by name. -/
theorem insertionSort_eq_of_perm {others : List (String × Json)} (hperm : fields.Perm others)
    (hnodup : (fields.map Prod.fst).Nodup) :
    fields.insertionSort (fun left right ↦ left.1 ≤ right.1) =
      others.insertionSort fun left right ↦ left.1 ≤ right.1 := by
  let order : String × Json → String × Json → Prop := fun left right ↦ left.1 ≤ right.1
  have : Std.Total order := ⟨fun left right ↦ le_total left.1 right.1⟩
  have : IsTrans (String × Json) order := ⟨fun _ _ _ hfirst hsecond ↦ le_trans hfirst hsecond⟩
  refine List.Perm.eq_of_pairwise ?_ (List.pairwise_insertionSort order fields)
    (List.pairwise_insertionSort order others)
    (((List.perm_insertionSort order fields).trans hperm).trans
      (List.perm_insertionSort order others).symm)
  intro left right hleft hright hle hge
  rw [List.mem_insertionSort] at hleft hright
  have hright' : right ∈ fields := hperm.mem_iff.mpr hright
  exact List.inj_on_of_nodup_map hnodup hleft hright' (le_antisymm hle hge)

/-- Rebuilding fields in another order lists the same fields in another order. -/
theorem rebuildFields_perm {others rebuilt : List (String × Json)} (hperm : fields.Perm others)
    (h : rebuildFields text number fields = some rebuilt) :
    ∃ other, rebuildFields text number others = some other ∧ rebuilt.Perm other := by
  induction hperm generalizing rebuilt with
  | nil => exact ⟨rebuilt, h, List.Perm.refl _⟩
  | cons field hperm ih =>
    obtain ⟨name, value⟩ := field
    simp only [rebuildFields, Option.bind_eq_bind, Option.bind_eq_some_iff, Option.pure_def,
      Option.some.injEq] at h ⊢
    obtain ⟨name', hname, value', hvalue, rest, hrest, rfl⟩ := h
    obtain ⟨other, hother, hrestPerm⟩ := ih hrest
    exact ⟨_, ⟨name', hname, value', hvalue, other, hother, rfl⟩, hrestPerm.cons _⟩
  | swap first second rest =>
    obtain ⟨firstName, first⟩ := first
    obtain ⟨secondName, second⟩ := second
    simp only [rebuildFields, Option.bind_eq_bind, Option.bind_eq_some_iff, Option.pure_def,
      Option.some.injEq] at h ⊢
    obtain ⟨name', hname, value', hvalue, _,
      ⟨otherName', hotherName, other', hother, tail, htail, rfl⟩, rfl⟩ := h
    exact ⟨_, ⟨otherName', hotherName, other', hother, _,
      ⟨name', hname, value', hvalue, tail, htail, rfl⟩, rfl⟩, List.Perm.swap _ _ _⟩
  | trans _ _ ihfirst ihsecond =>
    obtain ⟨middle, hmiddle, hfirst⟩ := ihfirst h
    obtain ⟨other, hother, hsecond⟩ := ihsecond hmiddle
    exact ⟨other, hother, hfirst.trans hsecond⟩

theorem rebuild_object_perm {others : List (String × Json)} (hperm : fields.Perm others) :
    (object fields).rebuild text number = (object others).rebuild text number := by
  simp only [rebuild, Option.bind_eq_bind]
  cases hfields : rebuildFields text number fields with
  | none =>
    cases hothers : rebuildFields text number others with
    | none => rfl
    | some other =>
      obtain ⟨rebuilt, hrebuilt, -⟩ := rebuildFields_perm hperm.symm hothers
      rw [hfields] at hrebuilt
      cases hrebuilt
  | some rebuilt =>
    obtain ⟨other, hother, hrebuilt⟩ := rebuildFields_perm hperm hfields
    simp only [hother, Option.bind_some]
    by_cases hnodup : (rebuilt.map Prod.fst).Nodup
    · rw [if_pos hnodup, if_pos ((hrebuilt.map Prod.fst).nodup_iff.mp hnodup),
        insertionSort_eq_of_perm hrebuilt hnodup]
    · rw [if_neg hnodup, if_neg fun h ↦ hnodup ((hrebuilt.map Prod.fst).nodup_iff.mpr h)]

/-- Rebuilding twice is rebuilding once, with both maps in turn. -/
theorem rebuild_rebuild :
    ∀ {middle : Json}, document.rebuild text number = some middle →
      middle.rebuild text' number' =
        document.rebuild (fun name ↦ (text name).bind text')
          (fun value ↦ (number value).bind number') := by
  induction document using Json.induction with
  | null | bool =>
    intro middle h
    obtain rfl := Option.some.inj h
    rfl
  | number value =>
    intro middle h
    obtain ⟨held, hheld, rfl⟩ := Option.map_eq_some_iff.mp h
    simp only [rebuild, hheld, Option.bind_some]
  | string value =>
    intro middle h
    obtain ⟨held, hheld, rfl⟩ := Option.map_eq_some_iff.mp h
    simp only [rebuild, hheld, Option.bind_some]
  | array items ih =>
    intro middle h
    obtain ⟨others, hothers, rfl⟩ := Option.map_eq_some_iff.mp h
    suffices hitems : rebuildItems text' number' others =
        rebuildItems (fun name ↦ (text name).bind text')
          (fun value ↦ (number value).bind number') items by
      simp only [rebuild, hitems]
    clear h
    induction items generalizing others with
    | nil =>
      obtain rfl := Option.some.inj hothers
      rfl
    | cons item items ihitems =>
      simp only [rebuildItems, Option.bind_eq_bind, Option.bind_eq_some_iff, Option.pure_def,
        Option.some.injEq] at hothers
      obtain ⟨item', hitem, rest, hrest, rfl⟩ := hothers
      rw [List.forall_mem_cons] at ih
      simp only [rebuildItems, ih.1 hitem, ihitems ih.2 rest hrest]
  | object fields ih =>
    intro middle h
    simp only [rebuild, Option.bind_eq_bind, Option.bind_eq_some_iff,
      Option.ite_none_right_eq_some, Option.some.injEq] at h
    obtain ⟨others, hothers, -, rfl⟩ := h
    rw [rebuild_object_perm (List.perm_insertionSort _ others)]
    suffices hfields : rebuildFields text' number' others =
        rebuildFields (fun name ↦ (text name).bind text')
          (fun value ↦ (number value).bind number') fields by
      simp only [rebuild, hfields]
    induction fields generalizing others with
    | nil =>
      obtain rfl := Option.some.inj hothers
      rfl
    | cons field fields ihfields =>
      obtain ⟨name, value⟩ := field
      simp only [rebuildFields, Option.bind_eq_bind, Option.bind_eq_some_iff, Option.pure_def,
        Option.some.injEq] at hothers
      obtain ⟨name', hname, value', hvalue, rest, hrest, rfl⟩ := hothers
      rw [List.forall_mem_cons] at ih
      simp only [rebuildFields, ih.1 hvalue, ihfields ih.2 rest hrest, hname, Option.bind_some]

/-- Rebuilding does not depend on the order in which fields were written. -/
theorem rebuild_asMap {held : Json} (h : document.asMap? = some held) :
    held.rebuild text number = document.rebuild text number := by
  rw [rebuild_rebuild h]
  simp only [Option.bind_some]

theorem rebuild_eq_of_sameValue {left right : Json} (h : left.sameValue right = true) :
    left.rebuild text number = right.rebuild text number := by
  simp only [sameValue, Bool.and_eq_true, beq_iff_eq] at h
  obtain ⟨hheld, hsame⟩ := h
  obtain ⟨held, hleft⟩ := Option.isSome_iff_exists.mp hheld
  have hright : right.asMap? = some held := hsame.symm.trans hleft
  rw [← rebuild_asMap hleft, ← rebuild_asMap hright]

theorem sameValue_index {left right : Json} (h : left.sameValue right = true) (name : String) :
    (left.index name).sameValue (right.index name) = true := by
  simp only [sameValue, Bool.and_eq_true, beq_iff_eq] at h ⊢
  obtain ⟨hheld, hsame⟩ := h
  obtain ⟨held, hleft⟩ := Option.isSome_iff_exists.mp hheld
  have hname : ∀ key key', some key = some key' → (key' = name ↔ key = name) := by
    intro key key' hkey
    rw [Option.some.inj hkey]
  have hright : right.asMap? = some held := hsame.symm.trans hleft
  have hindex := rebuild_index hname hleft
  have hindex' := rebuild_index hname hright
  rw [asMap?, hindex, asMap?, hindex']
  exact ⟨rfl, rfl⟩

end Order

/-! ### Leaving a name out -/

section Erase

variable {text : String → Option String} {number : Number → Option Number} {name : String}

theorem rebuildFields_filter (hname : ∀ key key', text key = some key' → (key' = name ↔ key = name))
    {rebuilt : List (String × Json)} (h : rebuildFields text number fields = some rebuilt) :
    rebuildFields text number (fields.filter fun field ↦ field.1 ≠ name) =
      some (rebuilt.filter fun field ↦ field.1 ≠ name) := by
  induction fields generalizing rebuilt with
  | nil =>
    obtain rfl : [] = rebuilt := by simpa [rebuildFields] using h
    rfl
  | cons field fields ih =>
    obtain ⟨key, value⟩ := field
    simp only [rebuildFields, Option.bind_eq_bind, Option.bind_eq_some_iff, Option.pure_def,
      Option.some.injEq] at h
    obtain ⟨key', hkey, value', hvalue, rest, hrest, rfl⟩ := h
    have hsame := hname key key' hkey
    by_cases hgone : key = name
    · rw [List.filter_cons_of_neg (by simp [hgone]),
        List.filter_cons_of_neg (by simp [hsame.mpr hgone])]
      exact ih hrest
    · have hstays : key' ≠ name := fun h ↦ hgone (hsame.mp h)
      rw [List.filter_cons_of_pos (by simp [hgone]), List.filter_cons_of_pos (by simp [hstays])]
      simp only [rebuildFields, hkey, hvalue, ih hrest, Option.bind_eq_bind, Option.bind_some,
        Option.pure_def]

/-- Rebuilding a document without a name is erasing the name from the rebuilt one. -/
theorem rebuild_erase (hname : ∀ key key', text key = some key' → (key' = name ↔ key = name))
    {rebuilt : Json} (h : document.rebuild text number = some rebuilt) :
    (document.erase name).rebuild text number = some (rebuilt.erase name) := by
  cases document with
  | object fields =>
    simp only [rebuild, Option.bind_eq_bind, Option.bind_eq_some_iff,
      Option.ite_none_right_eq_some, Option.some.injEq] at h
    obtain ⟨held, hheld, hnodup, rfl⟩ := h
    have hkept : ((held.filter fun field ↦ field.1 ≠ name).map Prod.fst).Nodup :=
      hnodup.sublist (List.filter_sublist.map _)
    have hsorted : (held.filter fun field ↦ field.1 ≠ name).insertionSort
        (fun left right ↦ left.1 ≤ right.1) =
          (held.insertionSort fun left right ↦ left.1 ≤ right.1).filter
            fun field ↦ field.1 ≠ name := by
      have hperm := ((List.perm_insertionSort (fun left right : String × Json ↦ left.1 ≤ right.1)
        held).filter fun field ↦ field.1 ≠ name).symm
      rw [insertionSort_eq_of_perm hperm hkept]
      let order : String × Json → String × Json → Prop := fun left right ↦ left.1 ≤ right.1
      have : Std.Total order := ⟨fun left right ↦ le_total left.1 right.1⟩
      have : IsTrans (String × Json) order := ⟨fun _ _ _ hfirst hsecond ↦ le_trans hfirst hsecond⟩
      exact List.Pairwise.insertionSort_eq
        ((List.pairwise_insertionSort order held).filter _)
    simp only [erase, rebuild, rebuildFields_filter hname hheld, Option.bind_eq_bind,
      Option.bind_some, if_pos hkept, hsorted]
  | null | bool | number | string | array =>
    simp only [rebuild, Option.map_eq_some_iff, Option.some.injEq] at h
    first
      | (obtain rfl := h; rfl)
      | (obtain ⟨_, hheld, rfl⟩ := h; simp only [erase, rebuild, hheld, Option.map_some])

end Erase

end Json

end AiStp.Library
