import AiStp.Library.ParentLog
import AiStp.Sync.Client.Device

/-!
# Following the stream

A device receives the stream of its account page by page while the receipts of its own pushes come
in. Its recorded head of an entity is the last received event of the entity, or an accepted push
that is still to come (`HeadTracks`). Along a run the place of the head in the stream never goes
down (`Advances`), so the head never returns to an ancestor of an earlier one.

The stream is the server's: parents stand before their children, and an accepted push descends from
every event of its entity before it.
-/

set_option autoImplicit false

namespace AiStp.Sync.Client

open Library Library.Runs Library.ParentLog Foundation AiStp.Client AiStp.Client.Store

/-! ### The stream -/

/-- A stream repeats no revision, and the parents of an event are earlier events of its entity. -/
structure Stream (stream : List Event) : Prop where
  revisions : (stream.map Event.revisionId).Nodup
  parents : ParentsFirst Event.revisionId Event.parentRevisionIds stream
  entity : ∀ event ∈ stream, ∀ other ∈ stream, other.revisionId ∈ event.parentRevisionIds →
    other.entityId = event.entityId

/-- `ancestor` is a proper ancestor of `descendant` in the stream. -/
abbrev Precedes (stream : List Event) (ancestor descendant : String) : Prop :=
  ProperAncestor Event.revisionId Event.parentRevisionIds stream ancestor descendant

/-- The event descends from every event of its entity before it in the stream. -/
abbrev Event.Dominates (event : Event) (stream : List Event) : Prop :=
  ParentLog.Dominates Event.revisionId Event.parentRevisionIds Event.entityId stream event

/-- The place of a revision in the stream. -/
def rank (stream : List Event) (revisionId : String) : Nat :=
  (stream.map Event.revisionId).idxOf revisionId

/-- The revision of the last event of an entity. -/
def lastRevision (entityId : String) (events : List Event) : Option String :=
  ((events.filter fun event ↦ event.entityId = entityId).getLast?).map Event.revisionId

section Streams

variable {stream received rest : List Event} {event other : Event} {revisionId : String}

theorem lastRevision_snoc (entityId : String) (events : List Event) (event : Event) :
    lastRevision entityId (events ++ [event]) =
      if event.entityId = entityId then some event.revisionId
      else lastRevision entityId events := by
  unfold lastRevision
  by_cases hentity : event.entityId = entityId
  · simp [hentity]
  · simp [hentity]

theorem Stream.eq_of_revisionId (hstream : Stream stream) (hevent : event ∈ stream)
    (hother : other ∈ stream) (h : other.revisionId = event.revisionId) : other = event :=
  List.inj_on_of_nodup_map hstream.revisions hother hevent h

/-- An event that was not received has a revision that was not received. -/
theorem Stream.revisionId_notMem (hstream : Stream (received ++ rest))
    (hevent : event ∈ received ++ rest) (hnot : event ∉ received) :
    event.revisionId ∉ received.map Event.revisionId := by
  intro hmem
  obtain ⟨other, hother, hsame⟩ := List.mem_map.mp hmem
  have hunique := hstream.eq_of_revisionId hevent (List.mem_append_left _ hother) hsame
  exact hnot (hunique ▸ hother)

/-- What was received stands before what was not. -/
theorem Stream.rank_lt (hstream : Stream (received ++ rest)) (hother : other ∈ received)
    (hevent : event ∈ received ++ rest) (hnot : event ∉ received) :
    rank (received ++ rest) other.revisionId < rank (received ++ rest) event.revisionId := by
  unfold rank
  rw [List.map_append]
  exact idxOf_lt_of_append (List.mem_map_of_mem hother) (hstream.revisionId_notMem hevent hnot)

theorem Stream.rank_parent (hstream : Stream stream) (hevent : event ∈ stream)
    (hparent : revisionId ∈ event.parentRevisionIds) :
    rank stream revisionId < rank stream event.revisionId :=
  idxOf_parent_lt hstream.parents hstream.revisions hevent hparent

theorem Stream.rank_ancestor {ancestor descendant : String} (hstream : Stream stream)
    (h : Precedes stream ancestor descendant) : rank stream ancestor < rank stream descendant :=
  idxOf_properAncestor_lt hstream.parents hstream.revisions h

theorem Stream.precedes_of_dominates (hstream : Stream stream) (hevent : event ∈ stream)
    (hother : other ∈ stream) (hentity : other.entityId = event.entityId)
    (hdominates : event.Dominates stream)
    (hbefore : rank stream other.revisionId < rank stream event.revisionId) :
    Precedes stream other.revisionId event.revisionId :=
  hdominates.properAncestor hevent hother hstream.revisions hentity hbefore

end Streams

/-! ### The rows of received events -/

/-- The row holds the stream's event of its revision. -/
structure EventRow.AgreesWith (scope : Scope) (row : EventRow) (event : Event) : Prop where
  entityId : row.entityId = event.entityId
  eventId : row.direction = .push → row.eventId = event.eventId
  parents : ∀ request held, Canonical.parse scope.platform row.body = some request →
    Event.parse request = some held → held.parentRevisionIds = event.parentRevisionIds

/-- The row is a push that no answer settled. -/
def EventRow.unsettled (row : EventRow) : Prop :=
  row.direction = .push ∧ (row.state = .pending ∨ row.state = .failed)

/-- The rows hold the events of the stream, and every received event that was not skipped is
recorded and settled. -/
structure RowsTrack (scope : Scope) (stream received : List Event) (rows : List EventRow)
    (abandoned : List String) : Prop where
  agree : ∀ row ∈ rows, ∀ event ∈ stream, event.revisionId = row.remoteRevisionId →
    row.AgreesWith scope event
  recorded : ∀ event ∈ received, event.eventId ∉ abandoned → ∃ row ∈ rows,
    row.remoteRevisionId = event.revisionId ∧ row.entityId = event.entityId
  settled : ∀ event ∈ received, event.eventId ∉ abandoned → ∀ row ∈ rows,
    row.remoteRevisionId = event.revisionId → ¬ row.unsettled

variable {row : EventRow}

section Rows

variable {scope : Scope} {stream received : List Event} {rows : List EventRow}
  {abandoned : List String}

section

variable (h : RowsTrack scope stream received rows abandoned)
include h

/-- Answering unsettled rows keeps track of the stream. -/
theorem RowsTrack.map {change : EventRow → EventRow}
    (hsame : ∀ row, (change row).remoteRevisionId = row.remoteRevisionId ∧
      (change row).entityId = row.entityId ∧ (change row).eventId = row.eventId ∧
      (change row).direction = row.direction ∧ (change row).body = row.body)
    (hchange : ∀ row, ¬ row.unsettled → change row = row) :
    RowsTrack scope stream received (rows.map change) abandoned where
  agree := by
    rw [List.forall_mem_map]
    intro row hrow event hevent hrevision
    obtain ⟨hsameRevision, hsameEntity, hsameId, hsameDirection, hsameBody⟩ := hsame row
    have hagrees := h.agree row hrow event hevent (hrevision.trans hsameRevision)
    constructor
    · exact hsameEntity.trans hagrees.entityId
    · rw [hsameDirection, hsameId]
      exact hagrees.eventId
    · rw [hsameBody]
      exact hagrees.parents
  recorded := by
    intro event hevent hkept
    obtain ⟨row, hrow, hrevision, hentity⟩ := h.recorded event hevent hkept
    exact ⟨change row, List.mem_map_of_mem hrow, (hsame row).1.trans hrevision,
      (hsame row).2.1.trans hentity⟩
  settled := by
    intro event hevent hkept
    rw [List.forall_mem_map]
    intro row hrow hrevision
    have hsettled := h.settled event hevent hkept row hrow ((hsame row).1.symm.trans hrevision)
    rw [hchange row hsettled]
    exact hsettled

/-- A new row of another revision keeps track of the stream when it agrees with it. -/
theorem RowsTrack.append (hfresh : ∀ other ∈ rows, other.remoteRevisionId ≠ row.remoteRevisionId)
    (hagrees : ∀ event ∈ stream, event.revisionId = row.remoteRevisionId →
      row.AgreesWith scope event) :
    RowsTrack scope stream received (rows ++ [row]) abandoned where
  agree := by
    intro other hother event hevent hrevision
    rcases List.mem_append.mp hother with hother | hother
    · exact h.agree other hother event hevent hrevision
    · obtain rfl := List.mem_singleton.mp hother
      exact hagrees event hevent hrevision
  recorded := by
    intro event hevent hkept
    obtain ⟨other, hother, hnames⟩ := h.recorded event hevent hkept
    exact ⟨other, List.mem_append_left _ hother, hnames⟩
  settled := by
    intro event hevent hkept other hother hrevision
    rcases List.mem_append.mp hother with hother | hother
    · exact h.settled event hevent hkept other hother hrevision
    · obtain ⟨known, hknown, hsame, -⟩ := h.recorded event hevent hkept
      rw [List.mem_singleton.mp hother] at hrevision
      exact absurd (hsame.trans hrevision.symm) (hfresh known hknown)

/-- A received event that is skipped, or recorded and settled, is kept track of. -/
theorem RowsTrack.receive {event : Event} (hevent : event.eventId ∉ abandoned →
      (∃ row ∈ rows, row.remoteRevisionId = event.revisionId ∧ row.entityId = event.entityId) ∧
        ∀ row ∈ rows, row.remoteRevisionId = event.revisionId → ¬ row.unsettled) :
    RowsTrack scope stream (received ++ [event]) rows abandoned where
  agree := h.agree
  recorded := by
    intro other hother hkept
    rcases List.mem_append.mp hother with hother | hother
    · exact h.recorded other hother hkept
    · obtain rfl := List.mem_singleton.mp hother
      exact (hevent hkept).1
  settled := by
    intro other hother hkept
    rcases List.mem_append.mp hother with hother | hother
    · exact h.settled other hother hkept
    · obtain rfl := List.mem_singleton.mp hother
      exact (hevent hkept).2

theorem RowsTrack.skip {skipped : List String} (hsubset : ∀ id ∈ abandoned, id ∈ skipped) :
    RowsTrack scope stream received rows skipped where
  agree := h.agree
  recorded := fun event hevent hkept ↦
    h.recorded event hevent fun habandoned ↦ hkept (hsubset _ habandoned)
  settled := fun event hevent hkept ↦
    h.settled event hevent fun habandoned ↦ hkept (hsubset _ habandoned)

end

end Rows

/-! ### What the head can do -/

section Head

variable {scope : Scope} {stream received rest : List Event} {replica : Replica} {event : Event}

/-- The recorded parents of a revision of the stream are those of its event. -/
theorem RowsTrack.recordedParents_eq {abandoned : List String}
    (h : RowsTrack scope stream received replica.events abandoned) (hevent : event ∈ stream)
    {entityId : String} {parents : List String}
    (hparents : recordedParents scope replica entityId event.revisionId = .ok (some parents)) :
    parents = event.parentRevisionIds := by
  unfold recordedParents at hparents
  split at hparents
  · cases hparents
  · next row hrow =>
    simp only [bind_eq_ok, present_eq_ok] at hparents
    obtain ⟨value, hvalue, held, hheld, _, -, hsome⟩ := hparents
    have hfound := List.find?_some hrow
    rw [decide_eq_true_eq] at hfound
    have hagrees := h.agree row (List.mem_of_find?_eq_some hrow) event hevent hfound.1.symm
    rw [← hagrees.parents value held hvalue (validate_of_readEvent hheld).1]
    exact (Option.some.inj (Except.ok.inj hsome)).symm

/-- A recorded revision is not missed. -/
theorem recordedParents_ne_none (hrow : row ∈ replica.events) :
    recordedParents scope replica row.entityId row.remoteRevisionId ≠ .ok none := by
  unfold recordedParents
  split
  · next hnone =>
    have hnot := List.find?_eq_none.mp hnone row hrow
    simp at hnot
  · intro h
    simp only [bind_eq_ok] at h
    obtain ⟨_, -, _, -, _, -, hsome⟩ := h
    cases hsome

/-- The head is not moved back to an event that it descends from. -/
theorem RowsTrack.not_moves {abandoned : List String} (hstream : Stream stream)
    (h : RowsTrack scope stream received replica.events abandoned) (hevent : event ∈ stream)
    {head : String} (hhead : replica.remoteHead event.entityId = some head)
    (hprecedes : Precedes stream event.revisionId head) : moves scope replica event = false := by
  by_contra hmoves
  obtain ⟨-, hparent | hancestors⟩ := ancestors_of_moves hhead (Bool.of_not_eq_false hmoves)
  · have hback := hstream.rank_ancestor hprecedes
    have hforth := hstream.rank_parent hevent hparent
    omega
  -- The search met the head and, link by link, what it descends from.
  have hlink : ∀ child parent, Link Event.revisionId Event.parentRevisionIds stream child parent →
      AncestorWalk.Reaches (recordedParents scope replica event.entityId) head child →
      AncestorWalk.Reaches (recordedParents scope replica event.entityId) head parent := by
    rintro child parent ⟨entry, hentry, rfl, hparent⟩ hreached
    obtain ⟨-, parents, hparents⟩ := hancestors entry.revisionId hreached
    rw [← h.recordedParents_eq hentry hparents] at hparent
    exact hreached.tail ⟨parents, hparents, hparent⟩
  have hreaches : ∀ ancestor, Precedes stream ancestor head →
      AncestorWalk.Reaches (recordedParents scope replica event.entityId) head ancestor := by
    intro ancestor hancestor
    induction hancestor with
    | single hfirst => exact hlink _ _ hfirst Relation.ReflTransGen.refl
    | tail _ hlast ih => exact hlink _ _ hlast ih
  exact (hancestors event.revisionId (hreaches _ hprecedes)).1 rfl

/-- Where nothing was skipped, a received head does not keep against the next event. -/
theorem RowsTrack.not_keeps (hstream : Stream (received ++ event :: rest))
    (h : RowsTrack scope (received ++ event :: rest) received replica.events [])
    {head : Event} (hmem : head ∈ received) (hentity : head.entityId = event.entityId)
    (hhead : replica.remoteHead event.entityId = some head.revisionId) :
    ¬ HeadKeeps scope replica event := by
  have hnot : event.revisionId ∉ received.map Event.revisionId := by
    refine hstream.revisionId_notMem (by simp) ?_
    have hnodup : (received ++ event :: rest).Nodup := hstream.revisions.of_map _
    intro hreceived
    exact (List.nodup_append.mp hnodup).2.2 _ hreceived _ List.mem_cons_self rfl
  rintro ⟨current, hcurrent, hsame | ⟨-, ancestor, hreaches, hstop⟩⟩
  · rw [hhead, Option.some.injEq, hsame] at hcurrent
    exact hnot (hcurrent ▸ List.mem_map_of_mem hmem)
  obtain rfl : head.revisionId = current := Option.some.inj (hhead.symm.trans hcurrent)
  obtain ⟨known, hknown, rfl, hknownEntity⟩ : ∃ known ∈ received,
      known.revisionId = ancestor ∧ known.entityId = event.entityId := by
    clear hstop
    induction hreaches with
    | refl => exact ⟨head, hmem, rfl, hentity⟩
    | tail _ hlink ih =>
      obtain ⟨child, hchild, rfl, hchildEntity⟩ := ih
      obtain ⟨parents, hparents, hparent⟩ := hlink
      have hchildStream := List.mem_append_left (event :: rest) hchild
      rw [h.recordedParents_eq hchildStream hparents] at hparent
      obtain ⟨parent, hknown, rfl⟩ :=
        List.mem_map.mp (hstream.parents.of_append.parent_mem hchild hparent)
      refine ⟨parent, hknown, rfl, ?_⟩
      exact (hstream.entity child hchildStream parent (List.mem_append_left _ hknown)
        hparent).trans hchildEntity
  rcases hstop with htarget | hnone
  · exact hnot (htarget ▸ List.mem_map_of_mem hknown)
  · obtain ⟨row, hrow, hrevision, hrowEntity⟩ := h.recorded known hknown List.not_mem_nil
    rw [← hrevision, ← hknownEntity, ← hrowEntity] at hnone
    exact recordedParents_ne_none hrow hnone

end Head

/-! ### The head and the received events -/

/-- The event is an accepted push that was not received yet. -/
structure Ahead (stream received : List Event) (rows : List EventRow) (event : Event) : Prop where
  mem : event ∈ stream
  notMem : event ∉ received
  dominates : event.Dominates stream
  accepted : ∃ row ∈ rows, row.direction = .push ∧ row.state = .accepted ∧
    row.entityId = event.entityId ∧ row.remoteRevisionId = event.revisionId

/-- The head is an accepted push that was not received yet, or a received event, the last one where
nothing was skipped. -/
inductive HeadTracks (stream received : List Event) (replica : Replica) (entityId : String) : Prop
  | ahead (event : Event) (hentity : event.entityId = entityId)
      (hhead : replica.remoteHead entityId = some event.revisionId)
      (hahead : Ahead stream received replica.events event) :
      HeadTracks stream received replica entityId
  | received (hmem : ∀ head, replica.remoteHead entityId = some head →
        ∃ event ∈ received, event.entityId = entityId ∧ event.revisionId = head)
      (hlast : replica.abandoned = [] →
        replica.remoteHead entityId = lastRevision entityId received) :
      HeadTracks stream received replica entityId

/-- The database follows the stream up to the received events. -/
structure Tracks (scope : Scope) (stream : List Event) (replica : Replica)
    (received : List Event) : Prop where
  rows : RowsTrack scope stream received replica.events replica.abandoned
  heads : ∀ entityId, HeadTracks stream received replica entityId

/-- No head goes down in the stream. -/
def Advances (stream : List Event) (before after : Replica) : Prop :=
  ∀ entityId old, before.remoteHead entityId = some old → ∃ new,
    after.remoteHead entityId = some new ∧ rank stream old ≤ rank stream new

theorem Advances.refl (stream : List Event) (replica : Replica) : Advances stream replica replica :=
  fun _ old hold ↦ ⟨old, hold, Nat.le_refl _⟩

theorem Advances.trans {stream : List Event} {first middle last : Replica}
    (hfirst : Advances stream first middle) (hlast : Advances stream middle last) :
    Advances stream first last := by
  intro entityId old hold
  obtain ⟨between, hbetween, hup⟩ := hfirst entityId old hold
  obtain ⟨new, hnew, hfurther⟩ := hlast entityId between hbetween
  exact ⟨new, hnew, hup.trans hfurther⟩

theorem Advances.of_heads {stream : List Event} {before after : Replica}
    (h : after.remoteHeads = before.remoteHeads) : Advances stream before after := by
  intro entityId old hold
  refine ⟨old, ?_, Nat.le_refl _⟩
  rw [Replica.remoteHead, h]
  exact hold

section Tracking

variable {scope : Scope} {stream received rest : List Event} {replica settled : Replica}
  {event : Event} {entityId : String}

/-- The head of an entity that is neither offered nor delivered stays tracked. -/
theorem HeadTracks.congr (h : HeadTracks stream received replica entityId)
    (hhead : settled.remoteHead entityId = replica.remoteHead entityId)
    (habandoned : settled.abandoned = [] → replica.abandoned = [])
    (haccepted : ∀ row ∈ replica.events, row.direction = .push → row.state = .accepted →
      row ∈ settled.events) : HeadTracks stream received settled entityId := by
  cases h with
  | ahead event hentity hcurrent hahead =>
    refine .ahead event hentity (hhead.trans hcurrent)
      ⟨hahead.mem, hahead.notMem, hahead.dominates, ?_⟩
    obtain ⟨row, hrow, hpush, hstate, hrest⟩ := hahead.accepted
    exact ⟨row, haccepted row hrow hpush hstate, hpush, hstate, hrest⟩
  | received hmem hlast =>
    refine .received ?_ ?_
    · rw [hhead]
      exact hmem
    · intro hnone
      exact hhead.trans (hlast (habandoned hnone))

/-- An event that leaves the head alone is received; where nothing was skipped, the head of its
entity is not among the received events. -/
theorem HeadTracks.receive (h : HeadTracks stream received replica entityId)
    (hnext : event.entityId = entityId → replica.abandoned = [] → ∃ head,
      replica.remoteHead entityId = some head ∧
        ∀ known ∈ received, known.entityId = entityId → known.revisionId ≠ head) :
    HeadTracks stream (received ++ [event]) replica entityId := by
  cases h with
  | ahead held hentity hcurrent hahead =>
    by_cases hsame : held = event
    · subst hsame
      refine .received ?_ ?_
      · intro head hhead
        exact ⟨held, by simp, hentity, Option.some.inj (hcurrent.symm.trans hhead)⟩
      · intro _
        rw [lastRevision_snoc, if_pos hentity]
        exact hcurrent
    · refine .ahead held hentity hcurrent
        ⟨hahead.mem, ?_, hahead.dominates, hahead.accepted⟩
      simp [hahead.notMem, hsame]
  | received hmem hlast =>
    refine .received ?_ ?_
    · intro head hhead
      obtain ⟨known, hknown, hrest⟩ := hmem head hhead
      exact ⟨known, List.mem_append_left _ hknown, hrest⟩
    · intro hnone
      rw [lastRevision_snoc]
      by_cases hentity : event.entityId = entityId
      · obtain ⟨head, hhead, hother⟩ := hnext hentity hnone
        obtain ⟨known, hknown, hknownEntity, hsame⟩ := hmem head hhead
        exact absurd hsame (hother known hknown hknownEntity)
      · rw [if_neg hentity]
        exact hlast hnone

/-- An event that is offered and takes the head is not before it in the stream. -/
theorem rank_of_moves (hstream : Stream stream) (hsplit : stream = received ++ rest)
    (h : Tracks scope stream replica received) (hevent : event ∈ stream)
    (hnot : event ∉ received) (hmoves : moves scope replica event = true) {old : String}
    (hold : replica.remoteHead event.entityId = some old) :
    rank stream old ≤ rank stream event.revisionId := by
  cases h.heads event.entityId with
  | ahead held hentity hcurrent hahead =>
    obtain rfl : held.revisionId = old := Option.some.inj (hcurrent.symm.trans hold)
    by_contra hback
    have hprecedes := hstream.precedes_of_dominates hahead.mem hevent hentity.symm
      hahead.dominates (Nat.lt_of_not_le hback)
    rw [h.rows.not_moves hstream hevent hold hprecedes] at hmoves
    cases hmoves
  | received hmem hlast =>
    obtain ⟨known, hknown, -, rfl⟩ := hmem old hold
    subst hsplit
    exact (hstream.rank_lt hknown hevent hnot).le

/-- Taking the head of its own entity, an event goes up in the stream. -/
theorem advances_of_moves {revisionId : String}
    (hheads : settled.remoteHeads = replica.remoteHeads.insert entityId revisionId)
    (hrank : ∀ old, replica.remoteHead entityId = some old →
      rank stream old ≤ rank stream revisionId) : Advances stream replica settled := by
  intro other old hold
  by_cases hentity : other = entityId
  · subst hentity
    refine ⟨revisionId, ?_, hrank old hold⟩
    rw [Replica.remoteHead, hheads, AList.lookup_insert]
  · refine ⟨old, ?_, Nat.le_refl _⟩
    rw [Replica.remoteHead, hheads, AList.lookup_insert_ne hentity]
    exact hold

/-! ### One step -/

theorem not_unsettled_of_accepted (h : row.state = .accepted) : ¬ row.unsettled := by
  rintro ⟨-, hpending | hfailed⟩
  · cases h.symm.trans hpending
  · cases h.symm.trans hfailed

theorem RowsTrack.finish {abandoned : List String}
    (h : RowsTrack scope stream received replica.events abandoned) (state : EventState)
    (content : Json) (eventId : String) :
    RowsTrack scope stream received (replica.finish state content eventId).events abandoned := by
  refine h.map ?_ ?_
  · intro row
    split_ifs
    · exact ⟨rfl, rfl, rfl, rfl, rfl⟩
    · exact ⟨rfl, rfl, rfl, rfl, rfl⟩
  · intro row hsettled
    exact if_neg fun hall ↦ hsettled hall.2

theorem accepted_of_finish (state : EventState) (content : Json) (eventId : String)
    (hrow : row ∈ replica.events) (haccepted : row.state = .accepted) :
    row ∈ (replica.finish state content eventId).events :=
  List.mem_map.mpr
    ⟨row, hrow, if_neg fun hall ↦ not_unsettled_of_accepted haccepted hall.2⟩

/-- A delivered row holds its event. -/
theorem agreesWith_pullRow {raw body : Json} {localRevisionId : Option String}
    (hread : Event.stream scope.platform raw scope.account = .ok event)
    (hbody : encode scope.platform event.document = .ok body) :
    (pullRow event localRevisionId body).AgreesWith scope event where
  entityId := rfl
  eventId := by
    intro hpush
    cases hpush
  parents := by
    intro request held hrequest hheld
    simp only [encode, bind_eq_ok, present_eq_ok] at hbody
    obtain ⟨content, hcontent, _, -, hsame⟩ := hbody
    obtain rfl : content = body := Except.ok.inj hsame
    exact Event.parents_of_reread rfl (Event.plain_parents_of_stream hread) hcontent hrequest hheld

/-- A retained row holds its event. -/
theorem agreesWith_pushRow {request body : Json} {localRevisionId : Option String} {other : Event}
    (hread : Event.push scope.platform request scope.account = .ok event)
    (hbody : encoded scope.platform request = .ok body) (hid : event.eventId = other.eventId)
    (hentity : event.entityId = other.entityId)
    (hparents : event.parentRevisionIds = other.parentRevisionIds) :
    (pushRow event localRevisionId body).AgreesWith scope other where
  entityId := hentity
  eventId := fun _ ↦ hid
  parents := by
    intro stored held hstored hheld
    simp only [encoded, bind_eq_ok, present_eq_ok] at hbody
    obtain ⟨content, hcontent, _, -, hsame⟩ := hbody
    obtain rfl : content = body := Except.ok.inj hsame
    rw [← hparents]
    exact Event.parents_of_reread (Event.parents_of_parse (Event.push_eq_ok.mp hread).2.1)
      (Event.plain_parents_of_push hread) hcontent hstored hheld

/-- A delivered event enters the rows. -/
theorem RowsTrack.enter {abandoned : List String} {rows : List EventRow} {raw : Json}
    (hstream : Stream stream) (h : RowsTrack scope stream received replica.events abandoned)
    (hevent : event ∈ stream) (hread : Event.stream scope.platform raw scope.account = .ok event)
    (henters : Enters scope replica event rows) :
    RowsTrack scope stream (received ++ [event]) rows abandoned := by
  cases henters with
  | recorded row hknown hsettled =>
    refine h.receive fun _ ↦ ⟨⟨row, hknown.recorded, hknown.revisionId, hknown.entityId⟩, ?_⟩
    rintro other hother hrevision ⟨hpush, hwaits⟩
    obtain rfl := hknown.only other hother (Or.inr hrevision)
    exact hsettled ⟨hpush, hwaits,
      (h.agree other hother event hevent hrevision.symm).eventId hpush⟩
  | accepted row content hknown hwaits =>
    refine (h.finish .accepted content row.eventId).receive fun _ ↦ ⟨?_, ?_⟩
    · refine ⟨_, List.mem_map_of_mem hknown.recorded, ?_⟩
      split_ifs
      · exact ⟨hknown.revisionId, hknown.entityId⟩
      · exact ⟨hknown.revisionId, hknown.entityId⟩
    · intro other hother hrevision
      obtain ⟨held, hheld, rfl⟩ := List.mem_map.mp hother
      have hsame : held = row := by
        refine hknown.only held hheld (Or.inr ?_)
        rw [← hrevision]
        split_ifs
        · rfl
        · rfl
      subst hsame
      rw [if_pos ⟨rfl, hwaits.1, hwaits.2.1⟩]
      exact not_unsettled_of_accepted rfl
  | inserted localRevisionId body hfresh hbody =>
    have hother : ∀ other ∈ replica.events, other.remoteRevisionId ≠ event.revisionId := by
      intro other hmem hsame
      have hmatching : other ∈ matching replica event :=
        List.mem_filter.mpr ⟨hmem, decide_eq_true (Or.inr hsame)⟩
      rw [hfresh] at hmatching
      cases hmatching
    refine (h.append hother ?_).receive fun _ ↦ ⟨?_, ?_⟩
    · intro other hmem hrevision
      obtain rfl := hstream.eq_of_revisionId hevent hmem hrevision
      exact agreesWith_pullRow hread hbody
    · exact ⟨pullRow event localRevisionId body, by simp, rfl, rfl⟩
    · intro row hrow hrevision
      rcases List.mem_append.mp hrow with hrow | hrow
      · exact absurd hrevision (hother row hrow)
      · rw [List.mem_singleton.mp hrow]
        exact not_unsettled_of_accepted rfl

theorem accepted_of_enters {rows : List EventRow} (henters : Enters scope replica event rows)
    (hrow : row ∈ replica.events) (haccepted : row.state = .accepted) : row ∈ rows := by
  cases henters with
  | recorded _ _ _ => exact hrow
  | accepted _ _ _ _ => exact accepted_of_finish _ _ _ hrow haccepted
  | inserted _ _ _ _ => exact List.mem_append_left _ hrow

/-- The next event of the stream is followed, and the head does not go down. -/
theorem tracks_of_event {raw : Json} {replayed : Bool}
    (hstream : Stream (received ++ event :: rest))
    (h : Tracks scope (received ++ event :: rest) replica received)
    (hread : Event.stream scope.platform raw scope.account = .ok event)
    (happlied : applyEvent scope replica event = .ok (settled, replayed)) :
    Tracks scope (received ++ event :: rest) settled (received ++ [event]) ∧
      Advances (received ++ event :: rest) replica settled := by
  have heffect := applyEvent_effect (Event.stream_eq_ok.mp hread).2.2 happlied
  have hevent : event ∈ received ++ event :: rest := by simp
  have hnot : event ∉ received := by
    intro hreceived
    exact (List.nodup_append.mp (hstream.revisions.of_map _)).2.2 _ hreceived _
      List.mem_cons_self rfl
  have hrows : RowsTrack scope (received ++ event :: rest) (received ++ [event]) settled.events
      settled.abandoned := by
    rw [heffect.abandoned]
    exact h.rows.enter hstream hevent hread heffect.enters
  have hkept : ∀ entityId, settled.remoteHead entityId = replica.remoteHead entityId →
      HeadTracks (received ++ event :: rest) received settled entityId := by
    intro entityId hhead
    refine (h.heads entityId).congr hhead (fun hnone ↦ heffect.abandoned.symm.trans hnone) ?_
    intro row hrow _ hstate
    exact accepted_of_enters heffect.enters hrow hstate
  by_cases hmoves : moves scope replica event = true
  · have hheads := heffect.remoteHeads
    rw [if_pos hmoves] at hheads
    refine ⟨⟨hrows, ?_⟩, advances_of_moves hheads ?_⟩
    · intro entityId
      have hhead := heffect.remoteHead entityId
      by_cases hentity : event.entityId = entityId
      · rw [if_pos ⟨hentity.symm, hmoves⟩] at hhead
        refine .received ?_ ?_
        · intro head hcurrent
          exact ⟨event, by simp, hentity, Option.some.inj (hhead.symm.trans hcurrent)⟩
        · intro _
          rw [lastRevision_snoc, if_pos hentity]
          exact hhead
      · rw [if_neg fun hboth ↦ hentity hboth.1.symm] at hhead
        exact (hkept entityId hhead).receive fun hsame ↦ absurd hsame hentity
    · intro old hold
      exact rank_of_moves hstream rfl h hevent hnot hmoves hold
  · have hstays : moves scope replica event = false := Bool.not_eq_true _ ▸ hmoves
    have hheads := heffect.remoteHeads
    rw [if_neg hmoves] at hheads
    refine ⟨⟨hrows, ?_⟩, .of_heads hheads⟩
    intro entityId
    have hhead : settled.remoteHead entityId = replica.remoteHead entityId := by
      rw [Replica.remoteHead, hheads]
      rfl
    refine (hkept entityId hhead).receive ?_
    rintro rfl hnone
    obtain ⟨head, hcurrent, -⟩ := heffect.keeps hstays
    refine ⟨head, hhead.trans hcurrent, ?_⟩
    rintro known hknown hentity rfl
    have htracked := h.rows
    rw [← heffect.abandoned, hnone] at htracked
    exact htracked.not_keeps hstream hknown hentity hcurrent (heffect.keeps hstays)

/-- A skipped event is followed without a trace. -/
theorem tracks_of_skipped (h : Tracks scope stream replica received)
    (hskipped : event.eventId ∈ replica.abandoned) :
    Tracks scope stream replica (received ++ [event]) where
  rows := h.rows.receive fun hkept ↦ absurd hskipped hkept
  heads := by
    intro entityId
    refine (h.heads entityId).receive ?_
    intro _ hnone
    rw [hnone] at hskipped
    cases hskipped

/-- The item of a page carries an event of the stream. -/
structure Carries (scope : Scope) (raw : Json) (event : Event) : Prop where
  eventId : raw.index "event_id" = .string event.eventId
  reads : ∀ read, Event.stream scope.platform raw scope.account = .ok read → read = event

/-- The items of a page are followed. -/
theorem tracks_of_items {items : List Json} {report counted : PageReport}
    (happlied : applyItems scope replica report items = .ok (settled, counted)) :
    ∀ received events rest, Stream (received ++ events ++ rest) →
      List.Forall₂ (Carries scope) items events →
      Tracks scope (received ++ events ++ rest) replica received →
      Tracks scope (received ++ events ++ rest) settled (received ++ events) ∧
        Advances (received ++ events ++ rest) replica settled := by
  refine applyItems_induction (motive := fun replica items settled ↦
    ∀ received events rest, Stream (received ++ events ++ rest) →
      List.Forall₂ (Carries scope) items events →
      Tracks scope (received ++ events ++ rest) replica received →
      Tracks scope (received ++ events ++ rest) settled (received ++ events) ∧
        Advances (received ++ events ++ rest) replica settled) ?_ ?_ ?_ happlied
  · intro replica received events rest _ hcarries htracks
    cases hcarries
    rw [List.append_nil] at htracks ⊢
    exact ⟨htracks, .refl _ _⟩
  · intro replica raw items settled id hid habandoned ih received events rest hstream hcarries
      htracks
    cases hcarries with
    | cons hcarried hcarries =>
      next event events =>
      rw [hcarried.eventId] at hid
      obtain rfl : event.eventId = id := Option.some.inj hid
      have hsplit : received ++ event :: events = received ++ [event] ++ events := by simp
      rw [hsplit] at hstream htracks ⊢
      exact ih _ _ _ hstream hcarries (tracks_of_skipped htracks habandoned)
  · intro replica raw items middle settled id event replayed hid _ hread happlied ih received
      events rest hstream hcarries htracks
    cases hcarries with
    | cons hcarried hcarries =>
      next named events =>
      obtain rfl : event = named := hcarried.reads event hread
      have hsplit : received ++ event :: events ++ rest =
          received ++ event :: (events ++ rest) := by simp
      have hnext : received ++ event :: events ++ rest =
          received ++ [event] ++ events ++ rest := by simp
      obtain ⟨hmiddle, hfirst⟩ := tracks_of_event (hsplit ▸ hstream) (hsplit ▸ htracks) hread
        happlied
      rw [← hsplit, hnext] at hmiddle hfirst
      rw [hnext] at hstream
      obtain ⟨hsettled, hlast⟩ := ih _ _ _ hstream hcarries hmiddle
      rw [hnext, show received ++ event :: events = received ++ [event] ++ events by simp]
      exact ⟨hsettled, hfirst.trans hlast⟩

end Tracking

/-! ### Runs -/

/-- A device and how many events of the stream it received. -/
structure Progress where
  replica : Replica
  position : Nat

namespace Progress

def start : Progress := ⟨.empty, 0⟩

def received (progress : Progress) (stream : List Event) : List Event :=
  stream.take progress.position

end Progress

section Following

variable (scope : Scope)

/-- An action, and the events that it receives. -/
def follow (progress : Progress) (action : Action) : Progress :=
  { replica := perform scope progress.replica action
    position := match action with
      | .page response expectedCursor pageSize skip at_ =>
        if (applyTransaction scope progress.replica response expectedCursor pageSize skip
            at_).toBool then
          progress.position + (responseItems response).length
        else progress.position
      | _ => progress.position }

/-- The events that a device received. -/
def received (stream : List Event) (actions : List Action) : List Event :=
  (run (follow scope) .start actions).received stream

/-- The condition of a step: a page that is applied carries the next events of the stream, a push
with a revision of the stream is its event, and an accepted push is an event of the stream that was
not skipped and that descends from every event of its entity before it. -/
def Follows (stream : List Event) (progress : Progress) : Action → Prop
  | .page response expectedCursor pageSize skip at_ =>
    (applyTransaction scope progress.replica response expectedCursor pageSize skip at_).toBool =
      true →
    List.Forall₂ (Carries scope) (responseItems response)
      ((stream.drop progress.position).take (responseItems response).length)
  | .retain request => ∀ event, Event.push scope.platform request scope.account = .ok event →
    ∀ other ∈ stream, other.revisionId = event.revisionId →
      event.eventId = other.eventId ∧ event.entityId = other.entityId ∧
        event.parentRevisionIds = other.parentRevisionIds
  | .receipt receipt => receipt.index "state" = .string "accepted" →
    ∀ row ∈ progress.replica.events, row.direction = .push →
      receipt.index "event_id" = .string row.eventId →
      row.eventId ∉ progress.replica.abandoned ∧
        ∃ event ∈ stream, event.revisionId = row.remoteRevisionId ∧ event.Dominates stream
  | _ => True

variable {scope} {stream : List Event}

theorem replica_run (actions : List Action) (progress : Progress) :
    (run (follow scope) progress actions).replica =
      run (perform scope) progress.replica actions := by
  induction actions generalizing progress with
  | nil => rfl
  | cons action actions ih =>
    rw [run_cons, run_cons, ih]
    rfl

theorem tracks_of_retain {replica settled : Replica} {received : List Event} {request : Json}
    {held : Pending} (h : Tracks scope stream replica received)
    (hsame : ∀ event, Event.push scope.platform request scope.account = .ok event →
      ∀ other ∈ stream, other.revisionId = event.revisionId →
        event.eventId = other.eventId ∧ event.entityId = other.entityId ∧
          event.parentRevisionIds = other.parentRevisionIds)
    (hretain : retain scope replica request = .ok (held, settled)) :
    Tracks scope stream settled received ∧ Advances stream replica settled := by
  rcases retain_cases hretain with
    rfl | ⟨event, localRevisionId, body, hread, -, hbody, -, hfresh, rfl⟩
  · exact ⟨h, .refl _ _⟩
  refine ⟨⟨?_, ?_⟩, .of_heads rfl⟩
  · refine h.rows.append (fun other hother ↦ (hfresh other hother).2) ?_
    intro other hother hrevision
    obtain ⟨hid, hentity, hparents⟩ := hsame event hread other hother hrevision
    exact agreesWith_pushRow hread hbody hid hentity hparents
  · intro entityId
    exact (h.heads entityId).congr rfl id fun row hrow _ _ ↦ List.mem_append_left _ hrow

theorem state_of_accepted {receipt : Json}
    (h : (receipt.index "state").asString? >>= EventState.ofReceipt = some .accepted) :
    receipt.index "state" = .string "accepted" := by
  obtain ⟨text, htext, hstate⟩ := Option.bind_eq_some_iff.mp h
  have hwire := List.find?_some hstate
  rw [decide_eq_true_eq] at hwire
  obtain rfl : "accepted" = text := hwire
  cases hvalue : receipt.index "state" with
  | string held =>
    rw [hvalue] at htext
    rw [Option.some.inj htext]
  | null | bool | number | array | object =>
    rw [hvalue] at htext
    cases htext

/-- A receipt is followed: the head goes up to the accepted push or stays. -/
theorem tracks_of_receipt {replica settled : Replica} {received rest : List Event} {receipt : Json}
    (hstream : Stream stream) (hsplit : stream = received ++ rest)
    (h : Tracks scope stream replica received)
    (haccepted : receipt.index "state" = .string "accepted" →
      ∀ row ∈ replica.events, row.direction = .push →
        receipt.index "event_id" = .string row.eventId → row.eventId ∉ replica.abandoned ∧
          ∃ event ∈ stream, event.revisionId = row.remoteRevisionId ∧ event.Dominates stream)
    (hreceipt : recordReceipt scope replica receipt = .ok settled) :
    Tracks scope stream settled received ∧ Advances stream replica settled := by
  obtain ⟨row, hrow, held, event, hpush, hid, hreads, -, hcases⟩ := recordReceipt_cases hreceipt
  rcases hcases with ⟨rfl, -⟩ | ⟨hwaits, state, content, hstate, hsettled⟩
  · exact ⟨h, .refl _ _⟩
  have hwritten : ∀ entityId, HeadTracks stream received
      (replica.finish state content row.eventId) entityId := fun entityId ↦
    (h.heads entityId).congr rfl id fun _ hmem _ hkept ↦ accepted_of_finish _ _ _ hmem hkept
  simp only at hsettled
  by_cases hmoved : state = .accepted ∧ moves scope (replica.finish state content row.eventId)
      event = true
  · rw [if_pos hmoved] at hsettled
    obtain ⟨rfl, hmoves⟩ := hmoved
    have hwire := state_of_accepted hstate
    obtain ⟨hkept, push, hmem, hrevision, hdominates⟩ := haccepted hwire row hrow hpush hid
    have hagrees := h.rows.agree row hrow push hmem hrevision
    have hnot : push ∉ received := by
      intro hreceived
      refine h.rows.settled push hreceived ?_ row hrow hrevision.symm ⟨hpush, hwaits⟩
      rwa [← hagrees.eventId hpush]
    have hoffered : moves scope replica push = true := by
      have hrecords : moves scope (replica.finish .accepted content row.eventId) event =
          moves scope replica event :=
        moves_congr rfl fun _ _ ↦ recordedParents_finish _ _ _ _ _
      have hparents := hagrees.parents _ _ hreads.parses (validate_of_readEvent hreads.reads).1
      rwa [hrecords, moves_event_congr (hreads.entityId.trans hagrees.entityId)
        (hreads.revisionId.trans hrevision.symm) hparents] at hmoves
    have hentity : event.entityId = push.entityId := hreads.entityId.trans hagrees.entityId
    have hnamed : event.revisionId = push.revisionId := hreads.revisionId.trans hrevision.symm
    rw [hentity, hnamed] at hsettled
    subst hsettled
    refine ⟨⟨h.rows.finish _ _ _, ?_⟩, ?_⟩
    · intro entityId
      by_cases hsame : push.entityId = entityId
      · subst hsame
        refine .ahead push rfl (Replica.remoteHead_setRemoteHead _ _ _)
          ⟨hmem, hnot, hdominates, ?_⟩
        exact ⟨{ row with state := .accepted, receipt := some content },
          List.mem_map.mpr ⟨row, hrow, if_pos ⟨rfl, hpush, hwaits⟩⟩, hpush, rfl,
          hagrees.entityId, hrevision.symm⟩
      · exact (hwritten entityId).congr
          (Replica.remoteHead_setRemoteHead_of_ne _ _ _ (Ne.symm hsame)) id
          fun row hrow _ _ ↦ hrow
    · refine advances_of_moves rfl ?_
      intro old hold
      exact rank_of_moves hstream hsplit h hmem hnot hoffered hold
  · rw [if_neg hmoved] at hsettled
    subst hsettled
    exact ⟨⟨h.rows.finish _ _ _, hwritten⟩, .of_heads rfl⟩

/-- A page is followed. -/
theorem tracks_of_page {replica settled : Replica} {received events rest : List Event}
    {response : Json} {expectedCursor : Option String} {pageSize : Nat} {skip : List String}
    {at_ : String} {report : PageReport} (hstream : Stream (received ++ events ++ rest))
    (h : Tracks scope (received ++ events ++ rest) replica received)
    (hcarries : List.Forall₂ (Carries scope) (responseItems response) events)
    (happlied : applyTransaction scope replica response expectedCursor pageSize skip at_ =
      .ok (settled, report)) :
    Tracks scope (received ++ events ++ rest) settled (received ++ events) ∧
      Advances (received ++ events ++ rest) replica settled := by
  simp only [applyTransaction, bind_eq_ok] at happlied
  obtain ⟨_, -, _, -, _, -, _, -, _, -, ⟨applied, counted⟩, hitems, reconciled, hreconciled, moved,
    hmoved, _, -, hresult⟩ := happlied
  obtain rfl : moved = settled := (Prod.ext_iff.mp (Except.ok.inj hresult)).1
  have hskipped : Tracks scope (received ++ events ++ rest) (abandon replica skip) received := by
    refine ⟨h.rows.skip fun _ hid ↦ List.mem_append_left _ hid, fun entityId ↦ ?_⟩
    exact (h.heads entityId).congr rfl (fun hnone ↦ (List.append_eq_nil_iff.mp hnone).1)
      fun row hrow _ _ ↦ hrow
  obtain ⟨htracks, hadvances⟩ := tracks_of_items hitems _ _ _ hstream hcarries hskipped
  have hledger := sameLedger_of_reconcile hreconciled
  have hcursor := moveCursor_cases hmoved
  have hevents : moved.events = applied.events := by rw [hcursor, ← hledger.events]
  have habandoned : moved.abandoned = applied.abandoned := by rw [hcursor, ← hledger.abandoned]
  have hheads : moved.remoteHeads = applied.remoteHeads := by rw [hcursor, ← hledger.remoteHeads]
  refine ⟨⟨?_, fun entityId ↦ ?_⟩, ?_⟩
  · rw [hevents, habandoned]
    exact htracks.rows
  · refine (htracks.heads entityId).congr ?_ (fun hnone ↦ habandoned.symm.trans hnone) ?_
    · rw [Replica.remoteHead, hheads]
      rfl
    · intro row hrow _ _
      rw [hevents]
      exact hrow
  · exact Advances.trans hadvances (.of_heads hheads)

/-- One action is followed. -/
theorem tracks_of_follow (hstream : Stream stream) (progress : Progress) (action : Action)
    (h : Tracks scope stream progress.replica (progress.received stream))
    (hfollows : Follows scope stream progress action) :
    Tracks scope stream (follow scope progress action).replica
        ((follow scope progress action).received stream) ∧
      Advances stream progress.replica (follow scope progress action).replica := by
  have hsplit := (List.take_append_drop progress.position stream).symm
  have hkeep : Tracks scope stream progress.replica (progress.received stream) ∧
      Advances stream progress.replica progress.replica := ⟨h, .refl _ _⟩
  cases action with
  | page response expectedCursor pageSize skip at_ =>
    cases happlied : applyTransaction scope progress.replica response expectedCursor pageSize skip
        at_ with
    | error failure =>
      simpa [follow, perform, apply, happlied, Except.toBool, Progress.received] using hkeep
    | ok result =>
      have hcarries := hfollows (by simp [happlied, Except.toBool])
      have hnext := (List.take_append_drop (responseItems response).length
        (stream.drop progress.position)).symm
      have hwhole : stream = progress.received stream ++
          (stream.drop progress.position).take (responseItems response).length ++
            (stream.drop progress.position).drop (responseItems response).length := by
        rw [List.append_assoc, ← hnext]
        exact hsplit
      have hpage := tracks_of_page (hwhole ▸ hstream) (hwhole ▸ h) hcarries happlied
      rw [← hwhole] at hpage
      simpa [follow, perform, apply, happlied, Except.toBool, Progress.received,
        List.take_add] using hpage
  | retain request =>
    refine retain_invariant (fun settled ↦ Tracks scope stream settled (progress.received stream) ∧
      Advances stream progress.replica settled) hkeep ?_
    intro held settled hretain
    exact tracks_of_retain h hfollows hretain
  | receipt receipt =>
    refine orKeep_invariant (fun settled ↦ Tracks scope stream settled (progress.received stream) ∧
      Advances stream progress.replica settled) hkeep ?_
    intro settled hreceipt
    exact tracks_of_receipt hstream hsplit h hfollows hreceipt
  | retire request replacementDeviceId evidence =>
    refine orKeep_invariant (fun settled ↦ Tracks scope stream settled (progress.received stream) ∧
      Advances stream progress.replica settled) hkeep ?_
    intro settled hretire
    obtain ⟨eventId, content, rfl⟩ := retire_cases hretire
    have hchange : ∀ row : EventRow, ¬ row.unsettled →
        (if row.eventId = eventId ∧ row.direction = .push ∧ row.state = .pending ∧
            row.receipt = none then
          { row with state := .failed, receipt := some content }
        else row) = row :=
      fun row hsettled ↦ if_neg fun hall ↦ hsettled ⟨hall.2.1, Or.inl hall.2.2.1⟩
    refine ⟨⟨h.rows.map ?_ hchange, fun entityId ↦ ?_⟩, .of_heads rfl⟩
    · intro row
      split_ifs
      · exact ⟨rfl, rfl, rfl, rfl, rfl⟩
      · exact ⟨rfl, rfl, rfl, rfl, rfl⟩
    · refine (h.heads entityId).congr rfl id ?_
      intro row hrow _ hstate
      exact List.mem_map.mpr ⟨row, hrow, hchange row (not_unsettled_of_accepted hstate)⟩
  | edit registry versions consents =>
    exact ⟨⟨h.rows, fun entityId ↦ (h.heads entityId).congr rfl id fun row hrow _ _ ↦ hrow⟩,
      .of_heads rfl⟩

theorem tracks_start (stream : List Event) :
    Tracks scope stream Progress.start.replica (Progress.start.received stream) where
  rows := by
    constructor
    · intro row hrow
      cases hrow
    · intro event hevent
      cases hevent
    · intro event hevent
      cases hevent
  heads := by
    intro entityId
    refine .received ?_ fun _ ↦ rfl
    intro head hhead
    cases hhead

end Following

/-- Let the accepted pushes of a device be events of a stream that were not skipped and descend from
every event of their entity before them. Then at no moment of a run, with any pages and any pushes
in any order, the head of an entity is a proper ancestor of an earlier head; and where nothing was
skipped and every accepted push of the entity was received, the head is the last received event of
the entity. -/
theorem remote_head_follows (scope : Scope) (stream : List Event) (hstream : Stream stream)
    (first second : List Action)
    (hmeet : StepsMeet (follow scope) (Follows scope stream) .start (first ++ second))
    (entityId : String) :
    (∀ old, (after scope first).remoteHead entityId = some old →
      ∃ new, (after scope (first ++ second)).remoteHead entityId = some new ∧
        ¬ Precedes stream new old) ∧
    ((after scope first).abandoned = [] →
      (∀ row ∈ (after scope first).events, row.direction = .push → row.state = .accepted →
        row.entityId = entityId →
          ∃ event ∈ received scope stream first, event.revisionId = row.remoteRevisionId) →
      (after scope first).remoteHead entityId =
        lastRevision entityId (received scope stream first)) := by
  obtain ⟨hfirst, hsecond⟩ := stepsMeet_append.mp hmeet
  have hkeeps : ∀ progress action,
      Tracks scope stream progress.replica (progress.received stream) →
      Follows scope stream progress action →
      Tracks scope stream (follow scope progress action).replica
        ((follow scope progress action).received stream) :=
    fun progress action h hfollows ↦ (tracks_of_follow hstream progress action h hfollows).1
  have htracks := run_invariant_of_stepsMeet hkeeps .start (tracks_start stream) first hfirst
  have hadvances := run_related_of_stepsMeet
    (fun before after ↦ Advances stream before.replica after.replica)
    (fun progress ↦ Advances.refl stream progress.replica) Advances.trans hkeeps
    (fun progress action h hfollows ↦ (tracks_of_follow hstream progress action h hfollows).2)
    (run (follow scope) .start first) htracks second hsecond
  rw [replica_run, replica_run, replica_run, ← run_append] at hadvances
  constructor
  · intro old hold
    obtain ⟨new, hnew, hup⟩ := hadvances entityId old hold
    refine ⟨new, hnew, fun hback ↦ ?_⟩
    exact absurd (hstream.rank_ancestor hback) (Nat.not_lt.mpr hup)
  · intro hnone hall
    have hheads := htracks.heads entityId
    rw [replica_run] at hheads
    cases hheads with
    | ahead event hentity hhead hahead =>
      obtain ⟨row, hrow, hpush, hstate, hrowEntity, hrevision⟩ := hahead.accepted
      obtain ⟨other, hother, hsame⟩ :=
        hall row hrow hpush hstate (hrowEntity.trans hentity)
      have hmem : other ∈ stream := List.mem_of_mem_take hother
      obtain rfl := hstream.eq_of_revisionId hahead.mem hmem (hsame.trans hrevision)
      exact absurd hother hahead.notMem
    | received hmem hlast => exact hlast hnone

namespace Renewal

/-- The event as the stream carries it. -/
def streamed (event : SyncEvent) (sequence : Nat) : Event where
  eventId := event.eventId
  entityId := event.entityId
  entityKind := event.entityKind
  revisionId := event.revisionId
  parentRevisionIds := event.parentRevisionIds
  deviceId := event.deviceId
  actorId := event.actorId
  operation := event.operation
  contentDigest := event.contentDigest
  createdAt := event.createdAt
  payload := .object event.payload
  sequence := some sequence

/-- The grant is received, and the revocation is pushed and accepted before it is received. -/
def pushed : List Action :=
  [page [item granted 1] none (some "position-1"), .retain revoked.document, accepted revoked]

theorem carries_item {event : SyncEvent} {sequence : Nat}
    (hread : Event.stream scope.platform (item event sequence) scope.account =
      .ok (streamed event sequence)) :
    Carries scope (item event sequence) (streamed event sequence) where
  eventId := rfl
  reads := by
    intro read h
    exact (Except.ok.inj (hread.symm.trans h)).symm

/-- The page with some of its events left out. -/
def skipping (skip : List String) : Action → Action
  | .page response expectedCursor pageSize _ at_ =>
    .page response expectedCursor pageSize skip at_
  | action => action

/-- The stream of the grant and its revocation. -/
def short : List Event := [streamed granted 1, streamed revoked 2]

theorem stream_short : Stream short where
  revisions := by decide
  parents := (parentsFirst_nil.snoc (by simp [streamed, granted])).snoc
    (by simp [streamed, revoked, granted])
  entity := by decide

theorem dominates_revoked : (streamed revoked 2).Dominates short := by
  show (streamed revoked 2).Dominates ([streamed granted 1] ++ [streamed revoked 2])
  refine dominates_snoc stream_short.revisions ?_
  intro other hother _
  rw [List.mem_singleton.mp hother]
  exact ProperAncestor.of_parent (by simp) (by simp [streamed, revoked])

/-- The revocation is retained and waits for its answer. -/
def waiting : Progress :=
  run (follow scope) .start
    [page [item granted 1] none (some "position-1"), .retain revoked.document]

theorem after_snoc (actions : List Action) (action : Action) :
    after scope (actions ++ [action]) =
      perform scope (run (follow scope) .start actions).replica action := by
  rw [replica_run, after, run_append]
  rfl

theorem after_pushed : after scope pushed = perform scope waiting.replica (accepted revoked) :=
  after_snoc [page [item granted 1] none (some "position-1"), .retain revoked.document] _

theorem position_accepted (progress : Progress) (event : SyncEvent) :
    (follow scope progress (accepted event)).position = progress.position := rfl

/-- A second grant of the consent, made beside the first one. -/
def regranted : SyncEvent where
  eventId := "event-0005"
  entityId := entityId
  entityKind := .unverifiedConsent
  revisionId := "revision_3e3ac93533d642f2db16916721c7db29d276047e9f85eb097c1eee73bdd9d131"
  parentRevisionIds := []
  deviceId := otherDevice
  actorId := scope.account
  operation := .upsert
  contentDigest := "sha256:cf44c67661d63234cf76dee0d472ebd31b3f2f1e413fe7c805c961bb5f6fe153"
  createdAt := "2026-01-05T00:00:00.000Z"
  idempotencyKey := "key-event-0005-00000"
  expectedHeadRevisionId := none
  payload := grant "renewal"

/-- The streams with the second grant first and last. -/
def regrantedFirst : List Event :=
  [streamed regranted 1, streamed granted 2, streamed revoked 3]

def regrantedLast : List Event :=
  [streamed granted 1, streamed revoked 2, streamed regranted 3]

/-- The grant and its revocation are pushed and accepted. -/
def pushedBoth : List Action :=
  [.retain granted.document, accepted granted, .retain revoked.document, accepted revoked]

/-- Another grant comes before them. -/
def besidePage : Action :=
  page [item regranted 1, item granted 2] none (some "position-1")

/-- The grant is pushed and left out of the page that brings it and its revocation. -/
def leftOut : List Action :=
  [.retain granted.document,
    skipping [granted.eventId]
      (page [item granted 1, item revoked 2] none (some "position-1"))]

/-- Another grant comes after them, and then the first one is accepted. -/
def acceptedLate : List Action :=
  [page [item regranted 3] (some "position-1") (some "position-2"), accepted granted]

/-- What the runs come to: the head is the accepted revocation while only the grant is received, the
documents read as their events, and after both are settled the head may return to the grant. -/
theorem renewal_facts :
    (waiting.replica.abandoned = [] ∧
      (∀ row ∈ waiting.replica.events, row.direction = .push →
        row.remoteRevisionId = (streamed revoked 2).revisionId) ∧
      waiting.position = 1 ∧
      (perform scope waiting.replica (accepted revoked)).remoteHead entityId =
        some revoked.revisionId ∧
      ∀ row ∈ (perform scope waiting.replica (accepted revoked)).events, row.state = .accepted) ∧
    (Event.stream scope.platform (item granted 1) scope.account = .ok (streamed granted 1) ∧
      Event.stream scope.platform (item revoked 2) scope.account = .ok (streamed revoked 2) ∧
      Event.push scope.platform revoked.document scope.account =
        .ok { streamed revoked 2 with sequence := none }) ∧
    ((after scope pushedBoth).remoteHead entityId = some revoked.revisionId ∧
      (perform scope (after scope pushedBoth) besidePage).remoteHead entityId =
        some granted.revisionId) ∧
    (after scope leftOut).remoteHead entityId = some revoked.revisionId ∧
      (run (perform scope) (after scope leftOut) acceptedLate).remoteHead entityId =
        some granted.revisionId := by
  decide +kernel

theorem follows_short : StepsMeet (follow scope) (Follows scope short) .start
    (pushed ++ [page [item revoked 2] (some "position-1") (some "position-2")]) := by
  obtain ⟨⟨hnone, hrows, hposition, -⟩, ⟨hgranted, hrevoked, hpushed⟩, -⟩ := renewal_facts
  refine ⟨fun _ ↦ .cons (carries_item hgranted) .nil, ?_, ?_, fun _ ↦ ?_, trivial⟩
  · intro event hevent other hother hsame
    obtain rfl := Except.ok.inj (hpushed.symm.trans hevent)
    have hmem : streamed revoked 2 ∈ short := by simp [short]
    obtain rfl := stream_short.eq_of_revisionId hmem hother hsame
    exact ⟨rfl, rfl, rfl⟩
  · intro _ row hrow hpush _
    refine ⟨?_, streamed revoked 2, by simp [short], (hrows row hrow hpush).symm,
      dominates_revoked⟩
    show row.eventId ∉ waiting.replica.abandoned
    rw [hnone]
    exact List.not_mem_nil
  · show List.Forall₂ (Carries scope) [item revoked 2]
      ((short.drop (follow scope waiting (accepted revoked)).position).take 1)
    rw [position_accepted, hposition]
    exact .cons (carries_item hrevoked) .nil

end Renewal

/-- `remote_head_follows` at a revocation that is pushed, accepted and received. -/
theorem remote_head_follows_pushed :
    let second := [Renewal.page [Renewal.item Renewal.revoked 2] (some "position-1")
      (some "position-2")]
    (∀ old, (after Renewal.scope Renewal.pushed).remoteHead Renewal.entityId = some old →
      ∃ new, (after Renewal.scope (Renewal.pushed ++ second)).remoteHead Renewal.entityId =
          some new ∧ ¬ Precedes Renewal.short new old) ∧
    ((after Renewal.scope Renewal.pushed).abandoned = [] →
      (∀ row ∈ (after Renewal.scope Renewal.pushed).events, row.direction = .push →
        row.state = .accepted → row.entityId = Renewal.entityId →
          ∃ event ∈ received Renewal.scope Renewal.short Renewal.pushed,
            event.revisionId = row.remoteRevisionId) →
      (after Renewal.scope Renewal.pushed).remoteHead Renewal.entityId =
        lastRevision Renewal.entityId (received Renewal.scope Renewal.short Renewal.pushed)) :=
  remote_head_follows Renewal.scope Renewal.short Renewal.stream_short Renewal.pushed _
    Renewal.follows_short Renewal.entityId

/-- Before an accepted push is received, the head is not the last received event; and the head
returns to an ancestor over a stream with another event before the accepted pushes, and when a push
that was left out is accepted. -/
theorem head_goes_back :
    ((after Renewal.scope Renewal.pushed).remoteHead Renewal.entityId =
        some Renewal.revoked.revisionId ∧
      (∀ row ∈ (after Renewal.scope Renewal.pushed).events, row.state = .accepted) ∧
      lastRevision Renewal.entityId (received Renewal.scope Renewal.short Renewal.pushed) =
        some Renewal.granted.revisionId) ∧
    (Precedes Renewal.regrantedFirst Renewal.granted.revisionId Renewal.revoked.revisionId ∧
      let replica := after Renewal.scope Renewal.pushedBoth
      replica.remoteHead Renewal.entityId = some Renewal.revoked.revisionId ∧
        (perform Renewal.scope replica Renewal.besidePage).remoteHead Renewal.entityId =
          some Renewal.granted.revisionId) ∧
    Precedes Renewal.regrantedLast Renewal.granted.revisionId Renewal.revoked.revisionId ∧
      let replica := after Renewal.scope Renewal.leftOut
      replica.remoteHead Renewal.entityId = some Renewal.revoked.revisionId ∧
        (run (perform Renewal.scope) replica Renewal.acceptedLate).remoteHead Renewal.entityId =
          some Renewal.granted.revisionId := by
  obtain ⟨⟨-, -, hposition, hhead, hanswered⟩, -, hboth, hlate⟩ := Renewal.renewal_facts
  rw [Renewal.after_pushed]
  refine ⟨⟨hhead, hanswered, ?_⟩, ⟨?_, hboth⟩, ?_, hlate⟩
  · show lastRevision Renewal.entityId (Renewal.short.take
      (follow Renewal.scope Renewal.waiting (Renewal.accepted Renewal.revoked)).position) = _
    rw [Renewal.position_accepted, hposition]
    rfl
  · exact ProperAncestor.of_parent
      (show Renewal.streamed Renewal.revoked 3 ∈ Renewal.regrantedFirst by
        simp [Renewal.regrantedFirst])
      (by simp [Renewal.streamed, Renewal.revoked])
  · exact ProperAncestor.of_parent
      (show Renewal.streamed Renewal.revoked 2 ∈ Renewal.regrantedLast by
        simp [Renewal.regrantedLast])
      (by simp [Renewal.streamed, Renewal.revoked])

end AiStp.Sync.Client
