import Mathlib.Data.List.Basic

/-!
# Texts around a separator

A text that is put together from parts with a separator between them determines the parts, as long
as the separator does not occur in the part before it.
-/

set_option autoImplicit false

namespace AiStp.Library

/-- Lists that agree around the first separator of each agree on both sides of it. -/
theorem append_cons_inj {Item : Type*} {separator : Item} {first second first' second' : List Item}
    (hfirst : separator ∉ first) (hfirst' : separator ∉ first')
    (h : first ++ separator :: second = first' ++ separator :: second') :
    first = first' ∧ second = second' := by
  induction first generalizing first' with
  | nil =>
    cases first' with
    | nil => exact ⟨rfl, (List.cons.inj h).2⟩
    | cons item items =>
      have hitem : separator = item := (List.cons.inj h).1
      exact absurd (hitem ▸ List.mem_cons_self) hfirst'
  | cons item items ih =>
    cases first' with
    | nil =>
      have hitem : item = separator := (List.cons.inj h).1
      exact absurd (hitem ▸ List.mem_cons_self) hfirst
    | cons item' items' =>
      obtain ⟨hitem, hrest⟩ := List.cons.inj h
      obtain ⟨hitems, hsecond⟩ := ih (fun hmem ↦ hfirst (List.mem_cons_of_mem item hmem))
        (fun hmem ↦ hfirst' (List.mem_cons_of_mem item' hmem)) hrest
      exact ⟨by rw [hitem, hitems], hsecond⟩

end AiStp.Library
