import AiStp.Library.Json

/-!
# Changes on two sides of a document

A document has a base and two sides. A pointer is a list of names that leads through objects, and a
value that is missing is a value as well. The sides clash at a pointer where each of them differs
from the base and from the other and they cannot be merged name by name, that is, unless both are
objects and the base is an object or is missing. Where they can, they diverge, and the names of the
objects tell. A pointer is in conflict where the sides clash but do not clash above it (`Topmost`).
-/

set_option autoImplicit false

namespace AiStp.Library.ThreeWay

/-- The value of a name, where there is an object. -/
def child (name : String) (value : Option Json) : Option Json :=
  (value.bind Json.asObject?).bind fun fields ↦ fields.lookup name

def valueAt : List String → Option Json → Option Json
  | [], value => value
  | name :: names, value => valueAt names (child name value)

/-- Both sides have changed the value, and not to the same one. -/
def Differ (base left right : Option Json) : Prop :=
  left ≠ right ∧ left ≠ base ∧ right ≠ base

def IsObject (value : Option Json) : Prop :=
  ∃ fields, value = some (.object fields)

/-- The sides are objects that can be merged name by name. -/
def Mergeable (base left right : Option Json) : Prop :=
  IsObject left ∧ IsObject right ∧ (base = none ∨ IsObject base)

def Clash (base left right : Option Json) : Prop :=
  Differ base left right ∧ ¬Mergeable base left right

def Diverge (base left right : Option Json) : Prop :=
  Differ base left right ∧ Mergeable base left right

/-- The sides clash at a pointer and at no pointer above it. -/
def Topmost : List String → Option Json → Option Json → Option Json → Prop
  | [], base, left, right => Clash base left right
  | name :: names, base, left, right =>
    ¬Clash base left right ∧ Topmost names (child name base) (child name left) (child name right)

/-- The sides diverge all the way along a pointer. -/
def DivergeAlong : List String → Option Json → Option Json → Option Json → Prop
  | [], base, left, right => Diverge base left right
  | name :: names, base, left, right =>
    Diverge base left right ∧
      DivergeAlong names (child name base) (child name left) (child name right)

/-- What a merge holds at a pointer: what the sides have in common, the change of one side where the
other has none, and an object where both have changed. -/
structure Merged (base left right merged : Option Json) : Prop where
  agreed : left = right → merged = left
  right_changed : left = base → merged = right
  left_changed : right = base → merged = left
  both_changed : Differ base left right → IsObject merged

variable {base left right : Option Json}

theorem Differ.of_child {name : String}
    (h : Differ (child name base) (child name left) (child name right)) : Differ base left right :=
  ⟨fun hsame ↦ h.1 (by rw [hsame]), fun hsame ↦ h.2.1 (by rw [hsame]),
    fun hsame ↦ h.2.2 (by rw [hsame])⟩

variable {names : List String}

theorem Topmost.differ (h : Topmost names base left right) : Differ base left right := by
  induction names generalizing base left right with
  | nil => exact h.1
  | cons name names ih => exact (ih h.2).of_child

theorem topmost_cons {name : String} :
    Topmost (name :: names) base left right ↔ Diverge base left right ∧
      Topmost names (child name base) (child name left) (child name right) := by
  constructor
  · rintro ⟨hclash, h⟩
    exact ⟨⟨h.differ.of_child, not_not.mp fun hnot ↦ hclash ⟨h.differ.of_child, hnot⟩⟩, h⟩
  · rintro ⟨hdiverge, h⟩
    exact ⟨fun hclash ↦ hclash.2 hdiverge.2, h⟩

/-- Where the sides do not differ, no pointer from there is in conflict. -/
theorem not_topmost (h : ¬Differ base left right) : ¬Topmost names base left right :=
  fun htop ↦ h htop.differ

theorem not_divergeAlong (h : ¬Diverge base left right) : ¬DivergeAlong names base left right := by
  cases names with
  | nil => exact h
  | cons name names => exact fun halong ↦ h halong.1

/-- A clash at some pointer is below a pointer in conflict, or at it. -/
theorem exists_topmost (h : Clash (valueAt names base) (valueAt names left) (valueAt names right)) :
    ∃ top, top <+: names ∧ Topmost top base left right := by
  induction names generalizing base left right with
  | nil => exact ⟨[], List.nil_prefix, h⟩
  | cons name names ih =>
    by_cases hclash : Clash base left right
    · exact ⟨[], List.nil_prefix, hclash⟩
    · obtain ⟨top, hbegins, htop⟩ := ih h
      exact ⟨name :: top, List.cons_prefix_cons.mpr ⟨rfl, hbegins⟩, hclash, htop⟩

theorem Topmost.clash (h : Topmost names base left right) :
    Clash (valueAt names base) (valueAt names left) (valueAt names right) := by
  induction names generalizing base left right with
  | nil => exact h
  | cons name names ih => exact ih h.2

@[simp] theorem child_object (name : String) (fields : List (String × Json)) :
    child name (some (.object fields)) = fields.lookup name := rfl

/-- The merge of values that do not differ is right all the way down. -/
theorem merged_of_kept {merged : Option Json}
    (h : left = right ∧ merged = left ∨ right = base ∧ merged = left ∨ left = base ∧ merged = right) :
    Merged (valueAt names base) (valueAt names left) (valueAt names right)
      (valueAt names merged) := by
  rcases h with ⟨rfl, rfl⟩ | ⟨rfl, rfl⟩ | ⟨rfl, rfl⟩
  · exact ⟨fun _ ↦ rfl, fun _ ↦ rfl, fun _ ↦ rfl, fun hdiffer ↦ absurd rfl hdiffer.1⟩
  · exact ⟨fun _ ↦ rfl, id, fun _ ↦ rfl, fun hdiffer ↦ absurd rfl hdiffer.2.2⟩
  · exact ⟨Eq.symm, fun _ ↦ rfl, id, fun hdiffer ↦ absurd rfl hdiffer.2.1⟩

end AiStp.Library.ThreeWay
