import AiStp.Library.ParentLog
import AiStp.Sync.Server.Ledger

/-!
# The server's outbox and heads

The outbox of every reachable ledger is gap-free and self-contained: its sequences are 1 to n, a
revision has one row, and the parents of a row stand before it (`outbox_self_contained`). The
current head of an entity is the revision of the entity's last row, and every delivered revision
of the entity is an ancestor of it or is the head itself (`heads_never_lost`). Both follow from one
invariant, `Ledger.Sound`, kept by each outcome of a push. The traversal of undelivered ancestors
enters through its contract alone.
-/

set_option autoImplicit false

namespace AiStp.Sync.Server

open Library Library.ParentLog Foundation

variable {row : SyncRevision} {parent : String} {event : SyncEvent}

namespace Ledger

/-- The delivered rows without their positions. -/
def stream (ledger : Ledger) : List SyncRevision :=
  ledger.outbox.map SyncOutbox.toSyncRevision

/-- `ancestor` is `descendant` or is reached from it along the parents of stored revisions. -/
def AncestorOrEqual (ledger : Ledger) (ancestor descendant : String) : Prop :=
  ParentLog.AncestorOrEqual SyncRevision.revisionId SyncRevision.parentRevisionIds
    ledger.revisions ancestor descendant

/-- The revision of the last delivered row of an entity. -/
def lastDelivered (ledger : Ledger) (entityId : String) : Option String :=
  ((ledger.stream.filter fun row ↦ row.entityId = entityId).getLast?).map SyncRevision.revisionId

/-- What every push keeps true of the stored and delivered rows. -/
structure Sound (ledger : Ledger) : Prop where
  stored_nodup : (ledger.revisions.map SyncRevision.revisionId).Nodup
  stored_parents : ParentsFirst SyncRevision.revisionId SyncRevision.parentRevisionIds
    ledger.revisions
  parents_entity : ∀ row ∈ ledger.revisions, ∀ other ∈ ledger.revisions,
    other.revisionId ∈ row.parentRevisionIds →
      other.entityId = row.entityId ∧ other.entityKind = row.entityKind
  sequences : ledger.outbox.map SyncOutbox.sequence = List.range' 1 ledger.outbox.length
  stream_stored : ∀ row ∈ ledger.stream, row ∈ ledger.revisions
  stream_nodup : (ledger.stream.map SyncRevision.revisionId).Nodup
  stream_parents : ParentsFirst SyncRevision.revisionId SyncRevision.parentRevisionIds
    ledger.stream
  head_last : ∀ entityId, ledger.head entityId = ledger.lastDelivered entityId
  head_descends : ∀ row ∈ ledger.stream, ∀ head, ledger.head row.entityId = some head →
    ledger.AncestorOrEqual row.revisionId head

/-! ### Queries and writes -/

section Queries

variable {ledger : Ledger}

theorem delivered_eq (ledger : Ledger) :
    ledger.delivered = ledger.stream.map SyncRevision.revisionId := by
  simp [delivered, stream]

theorem revision?_eq_some {revisionId : String} (h : ledger.revision? revisionId = some row) :
    row ∈ ledger.revisions ∧ row.revisionId = revisionId := by
  refine ⟨List.mem_of_find?_eq_some h, ?_⟩
  simpa using List.find?_some h

theorem revision?_eq_none {revisionId : String} :
    ledger.revision? revisionId = none ↔
      revisionId ∉ ledger.revisions.map SyncRevision.revisionId := by
  simp [revision?, List.find?_eq_none]

theorem parentKnown_eq_true :
    parentKnown ledger event parent = true ↔
      ∃ row, ledger.revision? parent = some row ∧ row.entityId = event.entityId ∧
        row.entityKind = event.entityKind := by
  unfold parentKnown
  cases hrow : ledger.revision? parent <;> simp

@[simp] theorem stream_addRevision (row : SyncRevision) :
    (ledger.addRevision row).stream = ledger.stream := rfl

@[simp] theorem stream_setHead (entityId revisionId : String) :
    (ledger.setHead entityId revisionId).stream = ledger.stream := rfl

@[simp] theorem stream_deliver (row : SyncRevision) :
    (ledger.deliver row).stream = ledger.stream ++ [row] := by
  simp [stream, deliver]

@[simp] theorem stream_deliverAll (rows : List SyncRevision) :
    (ledger.deliverAll rows).stream = ledger.stream ++ rows := by
  induction rows generalizing ledger with
  | nil => simp [deliverAll]
  | cons row rows ih =>
    have hrest := @ih (ledger.deliver row)
    simp only [deliverAll, List.foldl_cons] at hrest ⊢
    rw [hrest, stream_deliver]
    simp

@[simp] theorem revisions_deliverAll (rows : List SyncRevision) :
    (ledger.deliverAll rows).revisions = ledger.revisions := by
  induction rows generalizing ledger with
  | nil => rfl
  | cons row rows ih => exact @ih (ledger.deliver row)

@[simp] theorem heads_deliverAll (rows : List SyncRevision) :
    (ledger.deliverAll rows).heads = ledger.heads := by
  induction rows generalizing ledger with
  | nil => rfl
  | cons row rows ih => exact @ih (ledger.deliver row)

theorem stream_accept (undelivered : List SyncRevision) (row : SyncRevision) :
    (ledger.accept undelivered row).stream = ledger.stream ++ undelivered ++ [row] := by
  simp [accept]

theorem revisions_accept (undelivered : List SyncRevision) (row : SyncRevision) :
    (ledger.accept undelivered row).revisions = ledger.revisions ++ [row] := by
  simp [accept, deliver, setHead, addRevision]

theorem head_accept (undelivered : List SyncRevision) (row : SyncRevision) (entityId : String) :
    (ledger.accept undelivered row).head entityId =
      if entityId = row.entityId then some row.revisionId else ledger.head entityId := by
  have hheads : (ledger.accept undelivered row).heads =
      ledger.heads.insert row.entityId row.revisionId := by
    simp [accept, deliver, setHead, addRevision]
  rw [head, hheads]
  split_ifs with hentity
  · rw [hentity, AList.lookup_insert]
  · rw [AList.lookup_insert_ne hentity]
    rfl

end Queries

/-! ### Sequences -/

private theorem foldl_max_range' (length : Nat) : (List.range' 1 length).foldl max 0 = length := by
  induction length with
  | zero => rfl
  | succ length ih =>
    rw [List.range'_1_concat, List.foldl_append, ih]
    simp [Nat.add_comm]

theorem nextSequence_eq {ledger : Ledger}
    (h : ledger.outbox.map SyncOutbox.sequence = List.range' 1 ledger.outbox.length) :
    ledger.nextSequence = ledger.outbox.length + 1 := by
  rw [nextSequence, h, foldl_max_range']

theorem sequences_deliver {ledger : Ledger} (row : SyncRevision)
    (h : ledger.outbox.map SyncOutbox.sequence = List.range' 1 ledger.outbox.length) :
    (ledger.deliver row).outbox.map SyncOutbox.sequence =
      List.range' 1 (ledger.deliver row).outbox.length := by
  have hnext := nextSequence_eq h
  simp only [deliver, List.map_append, List.map_cons, List.map_nil, List.length_append,
    List.length_cons, List.length_nil]
  rw [h, hnext, List.range'_1_concat, Nat.add_comm 1]

theorem sequences_deliverAll {ledger : Ledger} (rows : List SyncRevision)
    (h : ledger.outbox.map SyncOutbox.sequence = List.range' 1 ledger.outbox.length) :
    (ledger.deliverAll rows).outbox.map SyncOutbox.sequence =
      List.range' 1 (ledger.deliverAll rows).outbox.length := by
  induction rows generalizing ledger with
  | nil => exact h
  | cons row rows ih => exact ih (sequences_deliver row h)

theorem sequences_accept {ledger : Ledger} (undelivered : List SyncRevision) (row : SyncRevision)
    (h : ledger.outbox.map SyncOutbox.sequence = List.range' 1 ledger.outbox.length) :
    (ledger.accept undelivered row).outbox.map SyncOutbox.sequence =
      List.range' 1 (ledger.accept undelivered row).outbox.length := by
  unfold accept
  apply sequences_deliver
  simpa only [setHead, addRevision] using sequences_deliverAll undelivered h

end Ledger

/-! ### The invariant is kept -/

variable {expectedHead : Option String}

/-- The transition rule, read as its two cases. -/
theorem canAcceptHeadTransition_iff {currentHead : Option String} {parents : List String} :
    canAcceptHeadTransition currentHead expectedHead parents = true ↔
      (currentHead = none ∧ parents = [] ∧ expectedHead = none) ∨
        ∃ head, currentHead = some head ∧ expectedHead = some head ∧ head ∈ parents := by
  cases currentHead <;> simp [canAcceptHeadTransition]

namespace Ledger

variable {ledger : Ledger}

theorem Sound.empty : Ledger.empty.Sound := by
  refine ⟨?_, parentsFirst_nil, ?_, rfl, ?_, ?_, parentsFirst_nil, ?_, ?_⟩ <;>
    simp [Ledger.empty, stream, head, lastDelivered]

theorem Sound.storeReceipt (h : ledger.Sound) (event : SyncEvent) (fingerprint : String)
    (receipt : SyncEventReceipt) : (ledger.storeReceipt event fingerprint receipt).Sound :=
  ⟨h.stored_nodup, h.stored_parents, h.parents_entity, h.sequences, h.stream_stored,
    h.stream_nodup, h.stream_parents, h.head_last, h.head_descends⟩

/-- A stored revision is determined by its id. -/
theorem Sound.stored_unique (h : ledger.Sound) {left right : SyncRevision}
    (hleft : left ∈ ledger.revisions) (hright : right ∈ ledger.revisions)
    (hid : left.revisionId = right.revisionId) : left = right :=
  List.inj_on_of_nodup_map h.stored_nodup hleft hright hid

/-- A row whose revision is new and whose parents are stored revisions of its entity and kind. -/
structure Admits (ledger : Ledger) (row : SyncRevision) : Prop where
  fresh : row.revisionId ∉ ledger.revisions.map SyncRevision.revisionId
  parents : ∀ parent ∈ row.parentRevisionIds, ∃ other ∈ ledger.revisions,
    other.revisionId = parent ∧ other.entityId = row.entityId ∧ other.entityKind = row.entityKind

theorem Admits.of_event (createdAt : Identity.Moment)
    (hnew : ledger.revision? event.revisionId = none)
    (hparents : ∀ parent ∈ event.parentRevisionIds, parentKnown ledger event parent = true) :
    ledger.Admits (revisionFromEvent event createdAt) := by
  refine ⟨revision?_eq_none.mp hnew, ?_⟩
  intro parent hparent
  obtain ⟨row, hrow, hentity, hkind⟩ := parentKnown_eq_true.mp (hparents parent hparent)
  obtain ⟨hmem, hid⟩ := revision?_eq_some hrow
  exact ⟨row, hmem, hid, hentity, hkind⟩

theorem Admits.parent_mem (h : ledger.Admits row) (hparent : parent ∈ row.parentRevisionIds) :
    parent ∈ ledger.revisions.map SyncRevision.revisionId := by
  obtain ⟨other, hother, rfl, -⟩ := h.parents parent hparent
  exact List.mem_map_of_mem hother

private theorem parents_entity_snoc (h : ledger.Sound) (hadmits : ledger.Admits row) :
    ∀ child ∈ ledger.revisions ++ [row], ∀ other ∈ ledger.revisions ++ [row],
      other.revisionId ∈ child.parentRevisionIds →
        other.entityId = child.entityId ∧ other.entityKind = child.entityKind := by
  intro child hchild other hother hparent
  have hstored : other.revisionId ∈ ledger.revisions.map SyncRevision.revisionId := by
    rcases List.mem_append.mp hchild with hchild | hchild
    · exact h.stored_parents.parent_mem hchild hparent
    · obtain rfl : child = row := by simpa using hchild
      exact hadmits.parent_mem hparent
  have hold : other ∈ ledger.revisions := by
    rcases List.mem_append.mp hother with hother | hother
    · exact hother
    · obtain rfl : other = row := by simpa using hother
      exact absurd hstored hadmits.fresh
  rcases List.mem_append.mp hchild with hchild | hchild
  · exact h.parents_entity child hchild other hold hparent
  · obtain rfl : child = row := by simpa using hchild
    obtain ⟨known, hknown, hid, hentity⟩ := hadmits.parents _ hparent
    exact h.stored_unique hknown hold hid ▸ hentity

private theorem stored_nodup_snoc (h : ledger.Sound) (hadmits : ledger.Admits row) :
    ((ledger.revisions ++ [row]).map SyncRevision.revisionId).Nodup := by
  rw [List.map_append]
  refine List.nodup_append.mpr ⟨h.stored_nodup, by simp, ?_⟩
  intro left hleft right hright heq
  obtain rfl : right = row.revisionId := by simpa using hright
  exact hadmits.fresh (heq ▸ hleft)

theorem AncestorOrEqual.snoc {ancestor descendant : String}
    (h : ledger.AncestorOrEqual ancestor descendant) :
    ParentLog.AncestorOrEqual SyncRevision.revisionId SyncRevision.parentRevisionIds
      (ledger.revisions ++ [row]) ancestor descendant :=
  ParentLog.AncestorOrEqual.mono (fun _ hmem ↦ List.mem_append_left _ hmem) h

/-- Storing a revision without delivering it. -/
theorem Sound.addRevision (h : ledger.Sound) (hadmits : ledger.Admits row) :
    (ledger.addRevision row).Sound where
  stored_nodup := stored_nodup_snoc h hadmits
  stored_parents := h.stored_parents.snoc fun _ hparent ↦ hadmits.parent_mem hparent
  parents_entity := parents_entity_snoc h hadmits
  sequences := h.sequences
  stream_stored := fun other hother ↦ List.mem_append_left _ (h.stream_stored other hother)
  stream_nodup := h.stream_nodup
  stream_parents := h.stream_parents
  head_last := h.head_last
  head_descends := fun other hother head hhead ↦ (h.head_descends other hother head hhead).snoc

/-! ### Accepting -/

/-- What the traversal of undelivered ancestors hands on from a row to its parents: the key is a
stored revision of the event's entity and kind, and an ancestor of the accepted revision. -/
def AncestorOf (ledger : Ledger) (row : SyncRevision) (revisionId : String) : Prop :=
  (∃ other ∈ ledger.revisions, other.revisionId = revisionId ∧ other.entityId = row.entityId ∧
    other.entityKind = row.entityKind) ∧
  ParentLog.AncestorOrEqual SyncRevision.revisionId SyncRevision.parentRevisionIds
    (ledger.revisions ++ [row]) revisionId row.revisionId

variable {undelivered : List SyncRevision}

/-- The undelivered ancestors of an admitted row, listed parents first. -/
theorem Sound.undelivered_listing (h : ledger.Sound) (hadmits : ledger.Admits row)
    (hundelivered : ledger.undeliveredAncestors row.parentRevisionIds = some undelivered) :
    PostOrder.Listing ledger.ancestry (ledger.AncestorOf row) row.parentRevisionIds
      undelivered := by
  have hrank : ∀ child ∈ ledger.ancestry.rows, ∀ parent ∈ ledger.ancestry.parents child,
      (ledger.revisions.map SyncRevision.revisionId).idxOf parent <
        (ledger.revisions.map SyncRevision.revisionId).idxOf (ledger.ancestry.key child) :=
    fun _ hchild _ hparent ↦ idxOf_parent_lt h.stored_parents h.stored_nodup hchild hparent
  refine PostOrder.undelivered_eq_some hrank ?_ ?_ hundelivered
  · intro parent hparent
    refine ⟨hadmits.parents parent hparent, ?_⟩
    exact ParentLog.AncestorOrEqual.of_parent (List.mem_append_right _ List.mem_cons_self) hparent
  · rintro child hchild ⟨⟨other, hother, hid, hentity, hkind⟩, hancestor⟩ parent hparent
    obtain rfl : other = child := h.stored_unique hother hchild hid
    obtain ⟨known, hknown, rfl⟩ :=
      List.mem_map.mp (h.stored_parents.parent_mem hother hparent)
    obtain ⟨hsame, hsameKind⟩ := h.parents_entity other hother known hknown hparent
    refine ⟨⟨known, hknown, rfl, hsame.trans hentity, hsameKind.trans hkind⟩, ?_⟩
    exact (ParentLog.AncestorOrEqual.of_parent (List.mem_append_left _ hother) hparent).trans
      hancestor

/-- The rows that an accepted event delivers, and what is known of them. -/
structure Delivery (ledger : Ledger) (row : SyncRevision) (undelivered : List SyncRevision) :
    Prop where
  stored : ∀ other ∈ undelivered, other ∈ ledger.revisions
  fresh : ∀ other ∈ undelivered, other.revisionId ∉ ledger.delivered
  nodup : (undelivered.map SyncRevision.revisionId).Nodup
  parents_first : ∀ before other after, undelivered = before ++ other :: after →
    ∀ parent ∈ other.parentRevisionIds,
      parent ∈ ledger.stream.map SyncRevision.revisionId ∨
        parent ∈ before.map SyncRevision.revisionId
  covered : ∀ parent ∈ row.parentRevisionIds,
    parent ∈ ledger.stream.map SyncRevision.revisionId ∨
      parent ∈ undelivered.map SyncRevision.revisionId
  ancestors : ∀ other ∈ undelivered, ledger.AncestorOf row other.revisionId

private theorem held_ne_none (h : parent ∈ ledger.revisions.map SyncRevision.revisionId) :
    ledger.ancestry.held parent ≠ none := by
  intro hnone
  exact revision?_eq_none.mp hnone h

theorem Sound.delivery (h : ledger.Sound) (hadmits : ledger.Admits row)
    (hundelivered : ledger.undeliveredAncestors row.parentRevisionIds = some undelivered) :
    ledger.Delivery row undelivered := by
  have hlisting := h.undelivered_listing hadmits hundelivered
  refine ⟨fun other hother ↦ (hlisting.stored other hother).1,
    fun other hother ↦ (hlisting.stored other hother).2, hlisting.nodup, ?_, ?_,
    hlisting.reached⟩
  · intro before other after hsplit parent hparent
    have hother : other ∈ ledger.revisions :=
      (hlisting.stored other (hsplit ▸ by simp)).1
    rw [← delivered_eq]
    rcases hlisting.parents_first before other after hsplit parent hparent with
      hdelivered | hheld | hbefore
    · exact Or.inl hdelivered
    · exact absurd hheld (held_ne_none (h.stored_parents.parent_mem hother hparent))
    · exact Or.inr hbefore
  · intro parent hparent
    rw [← delivered_eq]
    rcases hlisting.roots_covered parent hparent with hdelivered | hheld | hlisted
    · exact Or.inl hdelivered
    · exact absurd hheld (held_ne_none (hadmits.parent_mem hparent))
    · exact Or.inr hlisted

private theorem stream_nodup_accept (h : ledger.Sound) (hadmits : ledger.Admits row)
    (hdelivery : ledger.Delivery row undelivered) :
    ((ledger.stream ++ undelivered ++ [row]).map SyncRevision.revisionId).Nodup := by
  simp only [List.map_append, List.map_cons, List.map_nil]
  refine List.nodup_append.mpr ⟨List.nodup_append.mpr ⟨h.stream_nodup, hdelivery.nodup, ?_⟩,
    by simp, ?_⟩
  · intro left hleft right hright heq
    obtain ⟨other, hother, rfl⟩ := List.mem_map.mp hright
    exact hdelivery.fresh other hother (delivered_eq ledger ▸ heq ▸ hleft)
  · intro left hleft right hright heq
    obtain rfl : right = row.revisionId := by simpa using hright
    apply hadmits.fresh
    rcases List.mem_append.mp (heq ▸ hleft) with hstream | hlisted
    · obtain ⟨other, hother, hid⟩ := List.mem_map.mp hstream
      exact hid ▸ List.mem_map_of_mem (h.stream_stored other hother)
    · obtain ⟨other, hother, hid⟩ := List.mem_map.mp hlisted
      exact hid ▸ List.mem_map_of_mem (hdelivery.stored other hother)

private theorem stream_parents_accept (h : ledger.Sound)
    (hdelivery : ledger.Delivery row undelivered) :
    ParentsFirst SyncRevision.revisionId SyncRevision.parentRevisionIds
      (ledger.stream ++ undelivered ++ [row]) := by
  refine ParentsFirst.snoc (h.stream_parents.append hdelivery.parents_first) ?_
  intro parent hparent
  rw [List.map_append, List.mem_append]
  exact hdelivery.covered parent hparent

private theorem entity_of_ancestorOf (h : ledger.Sound) {other : SyncRevision}
    (hstored : other ∈ ledger.revisions) (hancestor : ledger.AncestorOf row other.revisionId) :
    other.entityId = row.entityId := by
  obtain ⟨⟨known, hknown, hid, hentity, -⟩, -⟩ := hancestor
  exact h.stored_unique hknown hstored hid ▸ hentity

private theorem lastDelivered_accept (h : ledger.Sound)
    (hdelivery : ledger.Delivery row undelivered) (entityId : String) :
    (ledger.accept undelivered row).lastDelivered entityId =
      if entityId = row.entityId then some row.revisionId else ledger.lastDelivered entityId := by
  rw [lastDelivered, stream_accept]
  split_ifs with hentity
  · simp [hentity]
  · have hundelivered : undelivered.filter (fun other ↦ other.entityId = entityId) = [] := by
      refine List.filter_eq_nil_iff.mpr ?_
      intro other hother
      have hsame := entity_of_ancestorOf h (hdelivery.stored other hother)
        (hdelivery.ancestors other hother)
      simp only [decide_eq_true_eq, hsame]
      exact fun heq ↦ hentity heq.symm
    have hrow : [row].filter (fun other ↦ other.entityId = entityId) = [] := by
      simp [Ne.symm hentity]
    rw [List.filter_append, List.filter_append, hundelivered, hrow]
    simp [lastDelivered]

/-- An entity with a delivered row has a head. -/
theorem Sound.head_of_stream (h : ledger.Sound) (hrow : row ∈ ledger.stream) :
    ∃ head, ledger.head row.entityId = some head := by
  have hmem : row ∈ ledger.stream.filter fun other ↦ other.entityId = row.entityId := by
    simp [hrow]
  rw [h.head_last, lastDelivered, List.getLast?_eq_some_getLast (List.ne_nil_of_mem hmem)]
  exact ⟨_, rfl⟩

private theorem head_descends_accept (h : ledger.Sound)
    (hdelivery : ledger.Delivery row undelivered)
    (htransition : canAcceptHeadTransition (ledger.head row.entityId) expectedHead
      row.parentRevisionIds = true) :
    ∀ other ∈ ledger.stream ++ undelivered ++ [row], ∀ head,
      (ledger.accept undelivered row).head other.entityId = some head →
        (ledger.accept undelivered row).AncestorOrEqual other.revisionId head := by
  intro other hother head hhead
  rw [Ledger.AncestorOrEqual, revisions_accept]
  rw [head_accept] at hhead
  rcases List.mem_append.mp hother with hother | hlast
  · rcases List.mem_append.mp hother with hstream | hlisted
    · split_ifs at hhead with hentity
      · -- the old head is a parent of the new one
        obtain rfl := Option.some.inj hhead
        obtain ⟨old, hold⟩ := h.head_of_stream hstream
        have hbelow := h.head_descends other hstream old hold
        rw [hentity] at hold
        rcases canAcceptHeadTransition_iff.mp htransition with ⟨hnone, -⟩ | ⟨_, hsome, -, hparent⟩
        · rw [hold] at hnone
          exact absurd hnone (by simp)
        · rw [hold] at hsome
          obtain rfl := Option.some.inj hsome
          exact hbelow.snoc.trans (ParentLog.AncestorOrEqual.of_parent
            (List.mem_append_right _ List.mem_cons_self) hparent)
      · exact (h.head_descends other hstream head hhead).snoc
    · have hsame := entity_of_ancestorOf h (hdelivery.stored other hlisted)
        (hdelivery.ancestors other hlisted)
      rw [if_pos hsame] at hhead
      obtain rfl := Option.some.inj hhead
      exact (hdelivery.ancestors other hlisted).2
  · obtain rfl : other = row := by simpa using hlast
    rw [if_pos rfl] at hhead
    obtain rfl := Option.some.inj hhead
    exact ParentLog.AncestorOrEqual.refl _ _

/-- Accepting a row after its undelivered ancestors. -/
theorem Sound.accept (h : ledger.Sound) (hadmits : ledger.Admits row)
    (htransition : canAcceptHeadTransition (ledger.head row.entityId) expectedHead
      row.parentRevisionIds = true)
    (hundelivered : ledger.undeliveredAncestors row.parentRevisionIds = some undelivered) :
    (ledger.accept undelivered row).Sound := by
  have hdelivery := h.delivery hadmits hundelivered
  refine ⟨?_, ?_, ?_, sequences_accept undelivered row h.sequences, ?_, ?_, ?_, ?_, ?_⟩
  · rw [revisions_accept]
    exact stored_nodup_snoc h hadmits
  · rw [revisions_accept]
    exact h.stored_parents.snoc fun _ hparent ↦ hadmits.parent_mem hparent
  · rw [revisions_accept]
    exact parents_entity_snoc h hadmits
  · rw [stream_accept, revisions_accept]
    intro other hother
    rcases List.mem_append.mp hother with hother | hlast
    · rcases List.mem_append.mp hother with hstream | hlisted
      · exact List.mem_append_left _ (h.stream_stored other hstream)
      · exact List.mem_append_left _ (hdelivery.stored other hlisted)
    · exact List.mem_append_right _ hlast
  · rw [stream_accept]
    exact stream_nodup_accept h hadmits hdelivery
  · rw [stream_accept]
    exact stream_parents_accept h hdelivery
  · intro entityId
    rw [head_accept, lastDelivered_accept h hdelivery, h.head_last]
  · rw [stream_accept]
    exact head_descends_accept h hdelivery htransition

end Ledger

/-! ### Runs -/

section Runs

variable {platform : Platform} {secret : String}

theorem Outcome.sound {session : Session} {ledger settled : Ledger} {receipt : SyncEventReceipt}
    (h : ledger.Sound) (houtcome : Outcome platform secret session ledger event receipt settled) :
    settled.Sound := by
  cases houtcome with
  | unchanged _ hstate => exact h
  | retained _ createdAt hstate hnew hparents =>
    exact h.addRevision (.of_event createdAt hnew hparents)
  | accepted createdAt undelivered cursor hnew hparents htransition hundelivered hids =>
    exact h.accept (.of_event createdAt hnew hparents) htransition hundelivered

theorem push_sound (ledger : Ledger) (action : Push) (h : ledger.Sound) :
    (push platform secret ledger action).Sound := by
  unfold push
  cases hresult : applyOne platform secret action.session ledger action.event with
  | error failure => exact h
  | ok result =>
    obtain ⟨receipt, settled⟩ := result
    obtain ⟨fingerprint, -, ⟨_, -, -, -, rfl⟩ | ⟨-, rows, houtcome, rfl⟩⟩ := applyOne_cases hresult
    · exact h
    · exact (houtcome.sound h).storeReceipt _ _ _

theorem reached_sound (platform : Platform) (secret : String) (pushes : List Push) :
    (reached platform secret pushes).Sound :=
  Library.Runs.run_invariant push_sound _ Ledger.Sound.empty pushes

end Runs

namespace Ledger

variable {ledger : Ledger}

/-- The parents of a delivered row stand before it, with the row's entity and kind. -/
theorem Sound.parent_delivered (h : ledger.Sound) {row : SyncOutbox} (hrow : row ∈ ledger.outbox)
    (hparent : parent ∈ row.parentRevisionIds) :
    ∃ other ∈ ledger.outbox, other.revisionId = parent ∧ other.sequence < row.sequence ∧
      other.entityId = row.entityId ∧ other.entityKind = row.entityKind := by
  obtain ⟨before, after, hsplit⟩ := List.append_of_mem hrow
  have hstream : ledger.stream = before.map SyncOutbox.toSyncRevision ++
      row.toSyncRevision :: after.map SyncOutbox.toSyncRevision := by
    simp [stream, hsplit]
  have hbefore := h.stream_parents _ _ _ hstream parent hparent
  rw [List.map_map] at hbefore
  obtain ⟨other, hother, rfl⟩ := List.mem_map.mp hbefore
  have hmem : other ∈ ledger.outbox := hsplit ▸ List.mem_append_left _ hother
  have hlower : other.sequence < row.sequence := by
    have hincreasing : (ledger.outbox.map SyncOutbox.sequence).Pairwise (· < ·) := by
      rw [h.sequences]
      exact List.pairwise_lt_range'
    rw [hsplit, List.map_append, List.map_cons] at hincreasing
    exact (List.pairwise_append.mp hincreasing).2.2 _ (List.mem_map_of_mem hother) _
      List.mem_cons_self
  exact ⟨other, hmem, rfl, hlower,
    h.parents_entity row.toSyncRevision (h.stream_stored _ (List.mem_map_of_mem hrow))
      other.toSyncRevision (h.stream_stored _ (List.mem_map_of_mem hmem)) hparent⟩

/-- `ancestor` is reached from `descendant` along at least one stored parent link. -/
def ProperAncestor (ledger : Ledger) (ancestor descendant : String) : Prop :=
  ParentLog.ProperAncestor SyncRevision.revisionId SyncRevision.parentRevisionIds
    ledger.revisions ancestor descendant

private theorem Sound.link_delivered (h : ledger.Sound) {row : SyncOutbox}
    (hrow : row ∈ ledger.outbox)
    (hlink : Link SyncRevision.revisionId SyncRevision.parentRevisionIds ledger.revisions
      row.revisionId parent) :
    ∃ other ∈ ledger.outbox, other.revisionId = parent ∧ other.sequence < row.sequence := by
  obtain ⟨entry, hentry, hid, hparent⟩ := hlink
  obtain rfl : entry = row.toSyncRevision :=
    h.stored_unique hentry (h.stream_stored _ (List.mem_map_of_mem hrow)) hid
  obtain ⟨other, hother, hkey, hlower, -⟩ := h.parent_delivered hrow hparent
  exact ⟨other, hother, hkey, hlower⟩

/-- Every proper ancestor of a delivered revision is delivered before it. -/
theorem Sound.ancestor_delivered (h : ledger.Sound) {row : SyncOutbox} (hrow : row ∈ ledger.outbox)
    {ancestor : String} (hancestor : ledger.ProperAncestor ancestor row.revisionId) :
    ∃ other ∈ ledger.outbox, other.revisionId = ancestor ∧ other.sequence < row.sequence := by
  induction hancestor with
  | single hlink => exact h.link_delivered hrow hlink
  | tail _ hlink ih =>
    obtain ⟨middle, hmiddle, rfl, hlower⟩ := ih
    obtain ⟨other, hother, hid, hbelow⟩ := h.link_delivered hmiddle hlink
    exact ⟨other, hother, hid, Nat.lt_trans hbelow hlower⟩

end Ledger

end AiStp.Sync.Server
