import AiStp.Sync.Server.Ledger

/-!
# The undelivered ancestors of an event

`_undelivered_ancestors` walks from the parents of an event through the stored revisions that the
stream does not carry. It refuses a walk of more than 64 revisions. It also refuses some walks of
exactly 64: the loop ends when the last revision is listed, and a parent that is still on the stack
then counts as a sign of more.
-/

set_option autoImplicit false

namespace AiStp.Sync.Server

open Library.PostOrder

namespace Ledger

variable (ledger : Ledger)

/-- A stored revision names its parent. -/
def ParentLink (parent child : String) : Prop :=
  ∃ row ∈ ledger.revisions, row.revisionId = child ∧ parent ∈ row.parentRevisionIds

/-- The stored revisions: an id is that of one row, and no revision is above itself. -/
structure Acyclic : Prop where
  unique : (ledger.revisions.map SyncRevision.revisionId).Nodup
  acyclic : ∀ revisionId, ¬Relation.TransGen ledger.ParentLink revisionId revisionId

/-- The stored revisions that the stream does not carry, among the parents and above them through
such revisions. -/
noncomputable def undeliveredClosure (parents : List String) : Finset String :=
  ledger.ancestry.closure parents

/-- The walk refuses exactly the closures that are too large, and otherwise lists the closure: each
revision once, and after those of its parents that are not delivered. -/
structure WalkExact (parents : List String) : Prop where
  refuses : ledger.undeliveredAncestors parents = none ↔
    maxUndeliveredAncestors < (ledger.undeliveredClosure parents).card
  lists : ∀ listed, ledger.undeliveredAncestors parents = some listed →
    (listed.map SyncRevision.revisionId).toFinset = ledger.undeliveredClosure parents ∧
    (listed.map SyncRevision.revisionId).Nodup ∧ (∀ row ∈ listed, row ∈ ledger.revisions) ∧
    ∀ before row after, listed = before ++ row :: after → ∀ parent ∈ row.parentRevisionIds,
      parent ∈ ledger.delivered ∨ parent ∉ ledger.revisions.map SyncRevision.revisionId ∨
        parent ∈ before.map SyncRevision.revisionId

/-- The first of the parents that the stream does not carry is not stored, or the other ones lead to
it through undelivered revisions. -/
def FirstParentCovered (parents : List String) : Prop :=
  ∃ first rest, parents.filter (· ∉ ledger.delivered) = first :: rest ∧
    (first ∉ ledger.revisions.map SyncRevision.revisionId ∨ Reach ledger.ancestry rest first)

variable {ledger}

theorem Acyclic.rank (h : ledger.Acyclic) :
    ∃ rank : String → Nat, ∀ row ∈ ledger.ancestry.rows, ∀ parent ∈ ledger.ancestry.parents row,
      rank parent < rank (ledger.ancestry.key row) :=
  exists_rank (show ∀ key, ¬Relation.TransGen (Link ledger.ancestry) key key from h.acyclic)

theorem held_eq_none {revisionId : String} :
    ledger.ancestry.held revisionId = none ↔
      revisionId ∉ ledger.revisions.map SyncRevision.revisionId := by
  rw [Store.held, List.find?_eq_none, List.mem_map]
  constructor
  · rintro h ⟨row, hrow, hsame⟩
    exact h row hrow (decide_eq_true hsame)
  · intro h row hrow hsame
    exact h ⟨row, hrow, of_decide_eq_true hsame⟩

theorem firstOverlapped_iff {parents : List String} :
    FirstOverlapped ledger.ancestry parents ↔ ledger.FirstParentCovered parents := by
  simp only [FirstOverlapped, FirstParentCovered, held_eq_none]
  rfl

/-- What the walk lists when it is not cut off. -/
theorem Acyclic.listed (h : ledger.Acyclic) {parents : List String} {listed : List SyncRevision}
    (hlisted : ledger.undeliveredAncestors parents = some listed) :
    (listed.map SyncRevision.revisionId).toFinset = ledger.undeliveredClosure parents ∧
    (listed.map SyncRevision.revisionId).Nodup ∧ (∀ row ∈ listed, row ∈ ledger.revisions) ∧
    ∀ before row after, listed = before ++ row :: after → ∀ parent ∈ row.parentRevisionIds,
      parent ∈ ledger.delivered ∨ parent ∉ ledger.revisions.map SyncRevision.revisionId ∨
        parent ∈ before.map SyncRevision.revisionId := by
  obtain ⟨rank, hrank⟩ := h.rank
  have hlisting : Listing ledger.ancestry (fun _ ↦ True) parents listed :=
    undelivered_eq_some hrank (fun _ _ ↦ trivial) (fun _ _ _ _ _ ↦ trivial) hlisted
  refine ⟨undelivered_closure h.unique hrank hlisted, hlisting.nodup,
    fun row hrow ↦ (hlisting.stored row hrow).1, ?_⟩
  intro before row after hsplit parent hparent
  rw [← held_eq_none]
  exact hlisting.parents_first before row after hsplit parent hparent

/-- The walk is exact unless the closure has exactly 64 members and the first undelivered parent is
not the one that is listed last. -/
theorem walkExact_iff (h : ledger.Acyclic) (parents : List String) :
    ledger.WalkExact parents ↔
      ¬((ledger.undeliveredClosure parents).card = maxUndeliveredAncestors ∧
        ledger.FirstParentCovered parents) := by
  obtain ⟨rank, hrank⟩ := h.rank
  have hnone : ledger.undeliveredAncestors parents = none ↔
      maxUndeliveredAncestors < (ledger.undeliveredClosure parents).card ∨
        maxUndeliveredAncestors = (ledger.undeliveredClosure parents).card ∧
          ledger.FirstParentCovered parents := by
    rw [← firstOverlapped_iff]
    exact undelivered_eq_none_iff h.unique hrank
  constructor
  · rintro hexact ⟨hcard, hcovered⟩
    have hlarger := hexact.refuses.mp (hnone.mpr (.inr ⟨hcard.symm, hcovered⟩))
    omega
  · intro hnot
    refine ⟨hnone.trans ⟨fun hcut ↦ ?_, .inl⟩, fun listed hlisted ↦ h.listed hlisted⟩
    exact hcut.resolve_right fun hsame ↦ hnot ⟨hsame.1.symm, hsame.2⟩

/-! ### Chains of revisions -/

namespace Chain

def name (index : Nat) : String := String.ofList (List.replicate index 'r')

def revision (index : Nat) : SyncRevision where
  revisionId := name (index + 1)
  entityId := "setup_01ARZ3NDEKTSV4RRFFQ69G5FAV"
  entityKind := .setupPrivate
  parentRevisionIds := if index = 0 then [] else [name index]
  operation := .upsert
  contentDigest := ""
  payload := []
  deviceId := ""
  actorId := ""
  eventId := ""
  createdAt := ⟨2026, 1, 1, 0, 0, 0, 0⟩

/-- Revisions that are stored, each above the next, and not delivered. -/
def chain (length : Nat) : Ledger :=
  { Ledger.empty with revisions := (List.range length).map revision }

theorem name_injective : Function.Injective name := by
  intro left right h
  have hlists := congrArg (fun text ↦ text.toList.length) h
  simpa [name] using hlists

theorem acyclic (length : Nat) : (chain length).Acyclic := by
  refine ⟨?_, @acyclic_of_rank _ _ (chain length).ancestry
    (fun text ↦ text.toList.length) ?_⟩
  · rw [chain, List.map_map]
    exact List.nodup_range.map fun left right h ↦ Nat.succ.inj (name_injective h)
  · intro row hrow parent hparent
    obtain ⟨index, -, rfl⟩ := List.mem_map.mp hrow
    by_cases hzero : index = 0
    · simp [ancestry, revision, hzero] at hparent
    · obtain rfl : parent = name index := by simpa [ancestry, revision, hzero] using hparent
      simp [ancestry, revision, name]

theorem walkExact_chain : (chain 3).WalkExact [name 1, name 3] := by
  refine (walkExact_iff (acyclic 3) _).mpr fun hfull ↦ ?_
  have hlisted : (chain 3).undeliveredAncestors [name 1, name 3] =
      some [revision 0, revision 1, revision 2] := by decide +kernel
  rw [← ((acyclic 3).listed hlisted).1] at hfull
  exact absurd hfull.1 (by decide +kernel)

/-- A walk of exactly 64 revisions that is refused: the oldest is also named as a parent. -/
theorem whole_chain_refused :
    (chain 64).Acyclic ∧ (chain 64).undeliveredAncestors [name 1, name 64] = none ∧
      ¬(chain 64).WalkExact [name 1, name 64] := by
  have hrefused : (chain 64).undeliveredAncestors [name 1, name 64] = none := by decide +kernel
  refine ⟨acyclic 64, hrefused, fun hexact ↦ ?_⟩
  have hstored : (chain 64).undeliveredClosure [name 1, name 64] ⊆
      ((chain 64).revisions.map SyncRevision.revisionId).toFinset :=
    fun _ hmem ↦ List.mem_toFinset.mpr (mem_closure.mp hmem).1
  have hcard := (Finset.card_le_card hstored).trans (List.toFinset_card_le _)
  have hlarger := hexact.refuses.mp hrefused
  rw [List.length_map, chain, List.length_map, List.length_range] at hcard
  exact absurd hlarger (Nat.not_lt.mpr hcard)

end Chain

end Ledger

end AiStp.Sync.Server
