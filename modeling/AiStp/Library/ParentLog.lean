import Mathlib.Data.List.Nodup
import Mathlib.Logic.Relation

/-!
# Append-only logs whose entries name parents

A log is a list of entries, oldest first; every entry has a key and names its parents by key.
`ParentsFirst` says that the parents of an entry stand before it, which is what a reader needs to
apply the log from its start. `AncestorOrEqual` is the reflexive transitive closure of the parent
link. A parents-first log without repeated keys is acyclic: the position of a key goes down along
every link (`idxOf_parent_lt`), so proper ancestry is irreflexive (`not_properAncestor_self`). A `Leaf`
is a key without children; a new entry takes the place of its parents among the leaves
(`leaf_snoc`). An entry `Dominates` its log when it descends from every earlier entry of its group.
-/

set_option autoImplicit false

namespace AiStp.Library.ParentLog

open Relation

variable {Entry Key : Type*} (key : Entry → Key) (parents : Entry → List Key)

/-- Every parent of every entry is the key of an entry before it. -/
def ParentsFirst (log : List Entry) : Prop :=
  ∀ before entry after, log = before ++ entry :: after →
    ∀ parent ∈ parents entry, parent ∈ before.map key

/-- `parent` is named as a parent by the entry of `child`. -/
def Link (log : List Entry) (child parent : Key) : Prop :=
  ∃ entry ∈ log, key entry = child ∧ parent ∈ parents entry

/-- `ancestor` is `descendant` itself or is reached from it along parent links. -/
def AncestorOrEqual (log : List Entry) (ancestor descendant : Key) : Prop :=
  ReflTransGen (Link key parents log) descendant ancestor

/-- `ancestor` is reached from `descendant` along at least one parent link. -/
def ProperAncestor (log : List Entry) (ancestor descendant : Key) : Prop :=
  TransGen (Link key parents log) descendant ancestor

/-- Every earlier entry of the same group is a proper ancestor of the entry. -/
def Dominates {Group : Type*} (group : Entry → Group) (log : List Entry) (entry : Entry) : Prop :=
  ∀ before after, log = before ++ entry :: after → ∀ other ∈ before, group other = group entry →
    ProperAncestor key parents log (key other) (key entry)

variable {key parents}

section Order

variable {log first second : List Entry} {entry : Entry}

theorem parentsFirst_nil : ParentsFirst key parents ([] : List Entry) := by
  intro before entry after hsplit
  simp at hsplit

/-- Appending keeps the order when the appended entries find their parents before them. -/
theorem ParentsFirst.append (hfirst : ParentsFirst key parents first)
    (hsecond : ∀ before entry after, second = before ++ entry :: after →
      ∀ parent ∈ parents entry, parent ∈ first.map key ∨ parent ∈ before.map key) :
    ParentsFirst key parents (first ++ second) := by
  intro before entry after hsplit parent hparent
  rcases List.append_eq_append_iff.mp hsplit with ⟨middle, rfl, hrest⟩ | ⟨middle, hpre, hrest⟩
  · rw [List.map_append, List.mem_append]
    exact hsecond middle entry after hrest parent hparent
  · cases middle with
    | nil =>
      rw [List.append_nil] at hpre
      have hparents := hsecond [] entry after hrest.symm parent hparent
      simpa [hpre] using hparents
    | cons other middle =>
      obtain ⟨rfl, -⟩ : entry = other ∧ after = middle ++ second := by simpa using hrest
      exact hfirst before entry middle hpre parent hparent

theorem ParentsFirst.snoc (hlog : ParentsFirst key parents log)
    (hentry : ∀ parent ∈ parents entry, parent ∈ log.map key) :
    ParentsFirst key parents (log ++ [entry]) := by
  refine hlog.append ?_
  intro before other after hsplit parent hparent
  cases before with
  | nil =>
    obtain ⟨rfl, -⟩ : entry = other ∧ after = [] := by simpa using hsplit
    exact Or.inl (hentry parent hparent)
  | cons first before => simp at hsplit

/-- The beginning of a parents-first log is parents-first. -/
theorem ParentsFirst.of_append (hlog : ParentsFirst key parents (first ++ second)) :
    ParentsFirst key parents first := by
  intro before entry after hsplit parent hparent
  refine hlog before entry (after ++ second) ?_ parent hparent
  simp [hsplit]

/-- The parents of an entry of a parents-first log are in the log. -/
theorem ParentsFirst.parent_mem (hlog : ParentsFirst key parents log) (hentry : entry ∈ log)
    {parent : Key} (hparent : parent ∈ parents entry) : parent ∈ log.map key := by
  obtain ⟨before, after, rfl⟩ := List.append_of_mem hentry
  rw [List.map_append]
  exact List.mem_append_left _ (hlog before entry after rfl parent hparent)

end Order

/-! ### Ancestry -/

section Ancestry

variable {log log' : List Entry} {ancestor middle descendant : Key}

theorem AncestorOrEqual.refl (log : List Entry) (revision : Key) :
    AncestorOrEqual key parents log revision revision :=
  ReflTransGen.refl

theorem AncestorOrEqual.trans (hfirst : AncestorOrEqual key parents log ancestor middle)
    (hsecond : AncestorOrEqual key parents log middle descendant) :
    AncestorOrEqual key parents log ancestor descendant :=
  ReflTransGen.trans hsecond hfirst

/-- A parent of an entry is an ancestor of it. -/
theorem AncestorOrEqual.of_parent {entry : Entry} (hentry : entry ∈ log) {parent : Key}
    (hparent : parent ∈ parents entry) :
    AncestorOrEqual key parents log parent (key entry) :=
  ReflTransGen.single ⟨entry, hentry, rfl, hparent⟩

/-- Ancestry survives the addition of entries. -/
theorem AncestorOrEqual.mono (hsubset : ∀ entry ∈ log, entry ∈ log')
    (h : AncestorOrEqual key parents log ancestor descendant) :
    AncestorOrEqual key parents log' ancestor descendant := by
  refine ReflTransGen.mono ?_ _ _ h
  rintro child parent ⟨entry, hentry, hkey, hparent⟩
  exact ⟨entry, hsubset entry hentry, hkey, hparent⟩

end Ancestry

/-! ### Acyclicity -/

section Acyclic

variable [DecidableEq Key] {log : List Entry} {ancestor descendant : Key}

/-- A parent stands strictly before its child. -/
theorem idxOf_parent_lt (hlog : ParentsFirst key parents log)
    (hnodup : (log.map key).Nodup) {entry : Entry} (hentry : entry ∈ log) {parent : Key}
    (hparent : parent ∈ parents entry) :
    (log.map key).idxOf parent < (log.map key).idxOf (key entry) := by
  obtain ⟨before, after, rfl⟩ := List.append_of_mem hentry
  have hbefore := hlog before entry after rfl parent hparent
  rw [List.map_append, List.map_cons] at hnodup ⊢
  have hfresh : key entry ∉ before.map key := by
    have hdisjoint := (List.nodup_append.mp hnodup).2.2
    intro hmem
    exact hdisjoint _ hmem _ List.mem_cons_self rfl
  rw [List.idxOf_append_of_mem hbefore, List.idxOf_append_of_notMem hfresh]
  exact Nat.lt_add_right _ (List.idxOf_lt_length_of_mem hbefore)

theorem idxOf_properAncestor_lt (hlog : ParentsFirst key parents log)
    (hnodup : (log.map key).Nodup) (h : ProperAncestor key parents log ancestor descendant) :
    (log.map key).idxOf ancestor < (log.map key).idxOf descendant := by
  have hlink : ∀ child parent, Link key parents log child parent →
      (log.map key).idxOf parent < (log.map key).idxOf child := by
    rintro child parent ⟨entry, hentry, rfl, hparent⟩
    exact idxOf_parent_lt hlog hnodup hentry hparent
  induction h with
  | single hfirst => exact hlink _ _ hfirst
  | tail _ hlast ih => exact Nat.lt_trans (hlink _ _ hlast) ih

/-- What the beginning of a list holds stands before what it does not hold. -/
theorem idxOf_lt_of_append {first second : List Key} {earlier later : Key}
    (hearlier : earlier ∈ first) (hlater : later ∉ first) :
    (first ++ second).idxOf earlier < (first ++ second).idxOf later := by
  rw [List.idxOf_append_of_mem hearlier, List.idxOf_append_of_notMem hlater]
  exact Nat.lt_add_right _ (List.idxOf_lt_length_of_mem hearlier)

/-- What stands before a dominating entry of its group is a proper ancestor of it. -/
theorem Dominates.properAncestor {Group : Type*} {group : Entry → Group} {entry other : Entry}
    (h : Dominates key parents group log entry) (hentry : entry ∈ log) (hother : other ∈ log)
    (hnodup : (log.map key).Nodup) (hgroup : group other = group entry)
    (hbefore : (log.map key).idxOf (key other) < (log.map key).idxOf (key entry)) :
    ProperAncestor key parents log (key other) (key entry) := by
  obtain ⟨before, after, hsplit⟩ := List.append_of_mem hentry
  refine h before after hsplit other ?_ hgroup
  have hkeys : log.map key = before.map key ++ (key entry :: after.map key) := by
    rw [hsplit, List.map_append, List.map_cons]
  rw [hkeys] at hnodup hbefore
  have hfresh : key entry ∉ before.map key := by
    intro hmem
    exact (List.nodup_append.mp hnodup).2.2 _ hmem _ List.mem_cons_self rfl
  by_contra hnot
  have hafter : other ∈ entry :: after := by
    rw [hsplit, List.mem_append] at hother
    exact hother.resolve_left hnot
  have hlater : key other ∉ before.map key := by
    intro hmem
    exact (List.nodup_append.mp hnodup).2.2 _ hmem _
      (List.map_cons ▸ List.mem_map_of_mem hafter) rfl
  rw [List.idxOf_append_of_notMem hfresh, List.idxOf_append_of_notMem hlater,
    List.idxOf_cons_self] at hbefore
  omega

/-- No key is a proper ancestor of itself. -/
theorem not_properAncestor_self (hlog : ParentsFirst key parents log)
    (hnodup : (log.map key).Nodup) (revision : Key) :
    ¬ ProperAncestor key parents log revision revision := by
  intro h
  exact absurd (idxOf_properAncestor_lt hlog hnodup h) (Nat.lt_irrefl _)

end Acyclic

/-! ### Dominating entries -/

section Dominating

variable {log : List Entry}

/-- An entry whose key stands once in the log stands at one place. -/
theorem eq_of_split {before before' after after' : List Entry} {entry : Entry}
    (hnodup : (log.map key).Nodup) (hsplit : log = before ++ entry :: after)
    (hsplit' : log = before' ++ entry :: after') : before = before' := by
  have hfresh : ∀ first last : List Entry, log = first ++ entry :: last → entry ∉ first := by
    intro first last hlog hmem
    have hkeys := hnodup.of_map
    rw [hlog] at hkeys
    exact (List.nodup_append.mp hkeys).2.2 _ hmem _ List.mem_cons_self rfl
  rcases List.append_eq_append_iff.mp (hsplit.symm.trans hsplit') with
    ⟨middle, hlonger, hrest⟩ | ⟨middle, hlonger, hrest⟩
  · cases middle with
    | nil => simpa using hlonger.symm
    | cons first middle =>
      obtain ⟨rfl, -⟩ : entry = first ∧ after = middle ++ entry :: after' := by simpa using hrest
      exact absurd (by simp [hlonger]) (hfresh before' after' hsplit')
  · cases middle with
    | nil => simpa using hlonger
    | cons first middle =>
      obtain ⟨rfl, -⟩ : entry = first ∧ after' = middle ++ entry :: after := by simpa using hrest
      exact absurd (by simp [hlonger]) (hfresh before after hsplit)

/-- The last entry dominates the log when every other one of its group is a proper ancestor. -/
theorem dominates_snoc {Group : Type*} {group : Entry → Group} {entry : Entry}
    (hnodup : ((log ++ [entry]).map key).Nodup)
    (h : ∀ other ∈ log, group other = group entry →
      ProperAncestor key parents (log ++ [entry]) (key other) (key entry)) :
    Dominates key parents group (log ++ [entry]) entry := by
  intro before after hsplit other hother hgroup
  obtain rfl := eq_of_split hnodup hsplit rfl
  exact h other hother hgroup

end Dominating

/-! ### Leaves -/

section Leaves

variable {log : List Entry} {entry : Entry} {revision : Key}

/-- A key of the log that no entry names as a parent. -/
def Leaf (key : Entry → Key) (parents : Entry → List Key) (log : List Entry) (revision : Key) :
    Prop :=
  revision ∈ log.map key ∧ ∀ entry ∈ log, revision ∉ parents entry

/-- A new entry that nothing names yet becomes a leaf in place of its parents. -/
theorem leaf_snoc (hfresh : ∀ other ∈ log ++ [entry], key entry ∉ parents other) :
    Leaf key parents (log ++ [entry]) revision ↔
      revision = key entry ∨ Leaf key parents log revision ∧ revision ∉ parents entry := by
  constructor
  · rintro ⟨hmem, hleaf⟩
    rw [List.map_append, List.mem_append] at hmem
    rcases hmem with hmem | hmem
    · refine Or.inr ⟨⟨hmem, ?_⟩, hleaf entry (by simp)⟩
      intro other hother
      exact hleaf other (List.mem_append_left _ hother)
    · exact Or.inl (by simpa using hmem)
  · rintro (rfl | ⟨⟨hmem, hleaf⟩, hparent⟩)
    · exact ⟨by simp, hfresh⟩
    · refine ⟨by rw [List.map_append]; exact List.mem_append_left _ hmem, ?_⟩
      intro other hother
      rcases List.mem_append.mp hother with hother | hother
      · exact hleaf other hother
      · rwa [List.mem_singleton.mp hother]

/-- A key that some entry descends from is named by an entry. -/
theorem ProperAncestor.exists_child {ancestor descendant : Key}
    (h : ProperAncestor key parents log ancestor descendant) :
    ∃ entry ∈ log, ancestor ∈ parents entry ∧
      AncestorOrEqual key parents log (key entry) descendant := by
  obtain ⟨middle, hreach, hlink⟩ := Relation.TransGen.tail'_iff.mp h
  obtain ⟨entry, hentry, rfl, hparent⟩ := hlink
  exact ⟨entry, hentry, hparent, hreach⟩

theorem ProperAncestor.of_parent (hentry : entry ∈ log) {parent : Key}
    (hparent : parent ∈ parents entry) : ProperAncestor key parents log parent (key entry) :=
  TransGen.single ⟨entry, hentry, rfl, hparent⟩

end Leaves

end AiStp.Library.ParentLog
