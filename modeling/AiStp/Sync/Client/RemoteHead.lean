import AiStp.Sync.Client.Device

/-!
# The remote head is an accepted event

A push refuses to start from a remote head that is not an accepted event of its history. Receipts
only move a head to a push they accept. A delivered event takes over the head as well when it is
recorded as a push with another receipt, and nothing accepts that row. `stranded` lists the
entities that a page leaves on such a row; when no applied page of a run leaves one, every remote
head is accepted at every moment, and only then (`remote_heads_accepted`).
-/

set_option autoImplicit false

namespace AiStp.Sync.Client

open Library Library.Runs Foundation AiStp.Client AiStp.Client.Store

/-! ### Accepted revisions -/

/-- The revision is recorded as an accepted event of the entity. -/
def AcceptedAs (rows : List EventRow) (entityId revisionId : String) : Prop :=
  ∃ row ∈ rows, row.entityId = entityId ∧ row.remoteRevisionId = revisionId ∧
    row.state = .accepted

instance (rows : List EventRow) (entityId revisionId : String) :
    Decidable (AcceptedAs rows entityId revisionId) :=
  inferInstanceAs (Decidable (∃ row ∈ rows, _))

/-- The remote head of the entity names an accepted event of it. -/
def HeadAccepted (replica : Replica) (entityId : String) : Prop :=
  ∀ revisionId, replica.remoteHead entityId = some revisionId →
    AcceptedAs replica.events entityId revisionId

/-- Every remote head names an accepted event of its entity. -/
def HeadsAccepted (replica : Replica) : Prop :=
  ∀ entityId, HeadAccepted replica entityId

/-- The event is recorded as a push that its delivery does not accept: one with another receipt,
or one that waits under another event id. -/
def unsettled (replica : Replica) (event : Event) : Bool :=
  replica.events.any fun row ↦
    (row.eventId = event.eventId ∨ row.remoteRevisionId = event.revisionId) ∧
      row.state ≠ .accepted ∧ ¬ row.waits event

variable {rows : List EventRow} {entityId : String}

section Effects

variable {scope : Scope} {replica settled : Replica} {event : Event}

/-- The acceptance of other revisions is left alone. -/
theorem acceptedAs_of_other (h : Enters scope replica event rows) {revisionId : String}
    (hother : ¬ (entityId = event.entityId ∧ revisionId = event.revisionId)) :
    AcceptedAs rows entityId revisionId ↔ AcceptedAs replica.events entityId revisionId := by
  cases h with
  | recorded row hknown hsettled => rfl
  | accepted row content hknown hwaits =>
    have hkept : ∀ other ∈ replica.events, other.entityId = entityId →
        other.remoteRevisionId = revisionId → other.eventId ≠ row.eventId := by
      intro other hmem hentity hrevision hid
      have hrow : other = row := hknown.only other hmem (Or.inl (hid.trans hwaits.2.2))
      subst hrow
      exact hother ⟨hentity.symm.trans hknown.entityId, hrevision.symm.trans hknown.revisionId⟩
    constructor
    · rintro ⟨found, hfound, hentity, hrevision, hstate⟩
      obtain ⟨other, hmem, rfl⟩ := List.mem_map.mp hfound
      have hsameEntity : other.entityId = entityId := by
        split_ifs at hentity <;> exact hentity
      have hsameRevision : other.remoteRevisionId = revisionId := by
        split_ifs at hrevision <;> exact hrevision
      have hid := hkept other hmem hsameEntity hsameRevision
      rw [if_neg fun hall ↦ hid hall.1] at hstate
      exact ⟨other, hmem, hsameEntity, hsameRevision, hstate⟩
    · rintro ⟨other, hmem, hentity, hrevision, hstate⟩
      refine ⟨other, List.mem_map.mpr ⟨other, hmem, ?_⟩, hentity, hrevision, hstate⟩
      exact if_neg fun hall ↦ hkept other hmem hentity hrevision hall.1
  | inserted localRevisionId body hfresh hbody =>
    unfold AcceptedAs
    simp only [List.mem_append, List.mem_singleton]
    constructor
    · rintro ⟨row, hrow | rfl, hentity, hrevision, hstate⟩
      · exact ⟨row, hrow, hentity, hrevision, hstate⟩
      · exact absurd ⟨hentity.symm, hrevision.symm⟩ hother
    · rintro ⟨row, hrow, hrest⟩
      exact ⟨row, Or.inl hrow, hrest⟩

/-- A delivered event is accepted afterwards unless it is an unsettled push. -/
theorem acceptedAs_of_event (h : Enters scope replica event rows) :
    AcceptedAs rows event.entityId event.revisionId ↔ unsettled replica event = false := by
  have hunsettled : unsettled replica event = false ↔ ∀ row ∈ replica.events,
      row.eventId = event.eventId ∨ row.remoteRevisionId = event.revisionId →
        row.state = .accepted ∨ row.waits event := by
    simp only [unsettled, List.any_eq_false, decide_eq_true_eq, not_and, not_not]
    constructor
    · intro hall row hrow hnames
      by_cases hstate : row.state = .accepted
      · exact Or.inl hstate
      · exact Or.inr (hall row hrow hnames hstate)
    · intro hall row hrow hnames hstate
      exact (hall row hrow hnames).resolve_left hstate
  rw [hunsettled]
  cases h with
  | recorded row hknown hsettled =>
    constructor
    · rintro ⟨found, hfound, -, hrevision, hstate⟩ other hother hnames
      have hsame : found = row := hknown.only found hfound (Or.inr hrevision)
      rw [hknown.only other hother hnames, ← hsame]
      exact Or.inl hstate
    · intro hall
      have hstate : row.state = .accepted :=
        (hall row hknown.recorded (Or.inr hknown.revisionId)).resolve_right hsettled
      exact ⟨row, hknown.recorded, hknown.entityId, hknown.revisionId, hstate⟩
  | accepted row content hknown hwaits =>
    constructor
    · intro _ other hother hnames
      rw [hknown.only other hother hnames]
      exact Or.inr hwaits
    · intro _
      refine ⟨{ row with state := .accepted, receipt := some content }, ?_, hknown.entityId,
        hknown.revisionId, rfl⟩
      refine List.mem_map.mpr ⟨row, hknown.recorded, ?_⟩
      exact if_pos ⟨rfl, hwaits.1, hwaits.2.1⟩
  | inserted localRevisionId body hfresh hbody =>
    constructor
    · intro _ row hrow hnames
      have hmem : row ∈ matching replica event :=
        List.mem_filter.mpr ⟨hrow, decide_eq_true hnames⟩
      rw [hfresh] at hmem
      cases hmem
    · intro _
      exact ⟨pullRow event localRevisionId body,
        List.mem_append_right _ (List.mem_singleton.mpr rfl), rfl, rfl, rfl⟩

theorem headAccepted_of_lands (h : Effect scope replica event settled)
    (hlands : lands scope replica event = true) :
    HeadAccepted settled event.entityId ↔ unsettled replica event = false := by
  have hhead := h.head_iff_lands.mpr hlands
  rw [← acceptedAs_of_event h.enters]
  constructor
  · intro haccepted
    exact haccepted event.revisionId hhead
  · intro haccepted revisionId hrevision
    rw [hhead] at hrevision
    rwa [← Option.some.inj hrevision]

theorem headAccepted_of_passes (h : Effect scope replica event settled)
    (hpasses : ¬ (entityId = event.entityId ∧ lands scope replica event = true)) :
    HeadAccepted settled entityId ↔ HeadAccepted replica entityId := by
  have hhead : settled.remoteHead entityId = replica.remoteHead entityId := by
    rw [h.remoteHead, if_neg]
    rintro ⟨hentity, hmoves⟩
    exact hpasses ⟨hentity, by simp [lands, hmoves]⟩
  have hother : ∀ revisionId, replica.remoteHead entityId = some revisionId →
      ¬ (entityId = event.entityId ∧ revisionId = event.revisionId) := by
    rintro revisionId hrevision ⟨rfl, rfl⟩
    exact hpasses ⟨rfl, by simp [lands, hrevision]⟩
  unfold HeadAccepted
  rw [hhead]
  refine forall₂_congr fun revisionId hrevision ↦ ?_
  exact acceptedAs_of_other h.enters (hother revisionId hrevision)

end Effects

/-! ### Pages -/

section Pages

variable (scope : Scope)

/-- The entities left on an unsettled push, after one more delivered event. -/
def strand (replica : Replica) (event : Event) (held : List String) : List String :=
  if lands scope replica event then
    if unsettled replica event then event.entityId :: held
    else held.filter (· ≠ event.entityId)
  else held

/-- The entities that the items of a page leave on an unsettled push: for each, the last event that
landed on its head was one at its turn. -/
def stranded (replica : Replica) (items : List Json) : List String :=
  alongPage scope (strand scope) replica [] items

variable {scope}

/-- The listed entities are those whose head is not accepted. -/
def Strands (replica : Replica) (held : List String) : Prop :=
  ∀ entityId, HeadAccepted replica entityId ↔ entityId ∉ held

theorem strands_of_event {replica settled : Replica} {event : Event} {held : List String}
    (hstrands : Strands replica held) (h : Effect scope replica event settled) :
    Strands settled (strand scope replica event held) := by
  intro entityId
  unfold strand
  by_cases hlands : lands scope replica event = true
  · rw [if_pos hlands]
    by_cases hentity : entityId = event.entityId
    · subst hentity
      rw [headAccepted_of_lands h hlands]
      split_ifs with hunsettled
      · simp [hunsettled]
      · simp [Bool.eq_false_iff.mpr hunsettled]
    · rw [headAccepted_of_passes h fun hboth ↦ hentity hboth.1, hstrands entityId]
      split_ifs
      · simp [hentity]
      · simp [hentity]
  · rw [if_neg hlands, headAccepted_of_passes h fun hboth ↦ hlands hboth.2, hstrands entityId]

/-- An applied page strands exactly the entities it is said to. -/
theorem strands_of_page {replica settled : Replica} {response : Json}
    {expectedCursor : Option String} {pageSize : Nat} {skip : List String} {at_ : String}
    {report : PageReport} (hreplica : HeadsAccepted replica)
    (h : applyTransaction scope replica response expectedCursor pageSize skip at_ =
      .ok (settled, report)) :
    Strands settled (stranded scope (abandon replica skip) (responseItems response)) := by
  have happly : apply scope replica response expectedCursor pageSize skip at_ = settled := by
    rw [apply, h]
  simp only [applyTransaction, bind_eq_ok] at h
  obtain ⟨_, -, _, -, _, -, _, -, _, -, ⟨applied, counted⟩, happlied, reconciled, hreconciled,
    moved, hmoved, _, -, h⟩ := h
  obtain rfl : moved = settled := (Prod.ext_iff.mp (Except.ok.inj h)).1
  have hstart : Strands (abandon replica skip) [] := by
    intro entityId
    have hsame : HeadAccepted (abandon replica skip) entityId := hreplica entityId
    simpa using hsame
  have hitems : Strands applied (stranded scope (abandon replica skip) (responseItems response)) := by
    refine alongPage_invariant ?_ happlied [] hstart
    intro replica event settled replayed held hstrands hvalid hevent
    exact strands_of_event hstrands (applyEvent_effect hvalid hevent)
  have hsame := sameLedger_of_reconcile hreconciled
  intro entityId
  rw [← hitems entityId, moveCursor_cases hmoved]
  unfold HeadAccepted
  simp only [Replica.remoteHead, hsame.remoteHeads, hsame.events]

end Pages

/-! ### Runs -/

section Actions

variable {scope : Scope} {replica settled : Replica}

theorem headAccepted_of_rows (hreplica : HeadsAccepted replica)
    (hheads : settled.remoteHeads = replica.remoteHeads)
    (hrows : ∀ entityId revisionId, AcceptedAs replica.events entityId revisionId →
      AcceptedAs settled.events entityId revisionId) : HeadsAccepted settled := by
  intro entityId revisionId hrevision
  rw [Replica.remoteHead, hheads] at hrevision
  exact hrows entityId revisionId (hreplica entityId revisionId hrevision)

/-- Changing rows that wait takes no accepted row away. -/
theorem acceptedAs_of_map {change : EventRow → EventRow}
    (hchange : ∀ row, row.state = .accepted → change row = row) {revisionId : String}
    (h : AcceptedAs rows entityId revisionId) :
    AcceptedAs (rows.map change) entityId revisionId := by
  obtain ⟨row, hrow, hentity, hrevision, hstate⟩ := h
  exact ⟨row, List.mem_map.mpr ⟨row, hrow, hchange row hstate⟩, hentity, hrevision, hstate⟩

private theorem finish_keeps {state : EventState} {content : Json} {eventId : String}
    {row : EventRow} (h : row.state = .accepted) :
    (if row.eventId = eventId ∧ row.direction = .push ∧
        (row.state = .pending ∨ row.state = .failed) then
      { row with state, receipt := some content }
    else row) = row := by
  rw [if_neg]
  rintro ⟨-, -, hpending | hfailed⟩
  · cases h.symm.trans hpending
  · cases h.symm.trans hfailed

theorem headAccepted_of_retain {request : Json} {held : Pending} (hreplica : HeadsAccepted replica)
    (h : retain scope replica request = .ok (held, settled)) : HeadsAccepted settled := by
  rcases retain_cases h with rfl | ⟨event, localRevisionId, body, -, -, -, -, -, rfl⟩
  · exact hreplica
  · refine headAccepted_of_rows hreplica rfl ?_
    rintro entityId revisionId ⟨row, hrow, hrest⟩
    exact ⟨row, List.mem_append_left _ hrow, hrest⟩

/-- A receipt moves the head only to the push that it accepts. -/
theorem headAccepted_of_receipt {receipt : Json} (hreplica : HeadsAccepted replica)
    (h : recordReceipt scope replica receipt = .ok settled) : HeadsAccepted settled := by
  obtain ⟨row, hrow, held, event, hpush, -, hreads, -, hcases⟩ := recordReceipt_cases h
  rcases hcases with ⟨rfl, -⟩ | ⟨hwaits, state, content, -, hsettled⟩
  · exact hreplica
  have hwritten : HeadsAccepted (replica.finish state content row.eventId) :=
    headAccepted_of_rows hreplica rfl fun _ _ haccepted ↦
      acceptedAs_of_map (fun _ hstate ↦ finish_keeps hstate) haccepted
  simp only at hsettled
  split_ifs at hsettled with hmoved
  · obtain ⟨rfl, -⟩ := hmoved
    subst hsettled
    intro entityId
    by_cases hentity : entityId = event.entityId
    · intro revisionId hrevision
      subst hentity
      rw [Replica.remoteHead_setRemoteHead] at hrevision
      refine ⟨{ row with state := .accepted, receipt := some content },
        List.mem_map.mpr ⟨row, hrow, if_pos ⟨rfl, hpush, hwaits⟩⟩, hreads.entityId.symm, ?_, rfl⟩
      exact hreads.revisionId.symm.trans (Option.some.inj hrevision)
    · intro revisionId hrevision
      rw [Replica.remoteHead_setRemoteHead_of_ne _ _ _ hentity] at hrevision
      exact hwritten entityId revisionId hrevision
  · subst hsettled
    exact hwritten

theorem headAccepted_of_retire {request evidence : Json} {replacementDeviceId : String}
    (hreplica : HeadsAccepted replica)
    (h : retire scope replica request replacementDeviceId evidence = .ok settled) :
    HeadsAccepted settled := by
  obtain ⟨eventId, content, rfl⟩ := retire_cases h
  refine headAccepted_of_rows hreplica rfl ?_
  intro entityId revisionId haccepted
  refine acceptedAs_of_map ?_ haccepted
  intro row hstate
  rw [if_neg]
  rintro ⟨-, -, hpending, -⟩
  cases hstate.symm.trans hpending

/-- The condition of a step: a page that is applied leaves no head on an unsettled push. -/
def Settles (scope : Scope) (replica : Replica) : Action → Prop
  | .page response expectedCursor pageSize skip at_ =>
    ∀ result, applyTransaction scope replica response expectedCursor pageSize skip at_ =
        .ok result →
      stranded scope (abandon replica skip) (responseItems response) = []
  | _ => True

/-- The condition decides whether a step keeps every head accepted. -/
theorem settles_iff (replica : Replica) (action : Action) (hreplica : HeadsAccepted replica) :
    Settles scope replica action ↔ HeadsAccepted (perform scope replica action) := by
  cases action with
  | page response expectedCursor pageSize skip at_ =>
    simp only [Settles, perform, apply]
    split
    · next settled report h =>
      have hstrands := strands_of_page hreplica h
      constructor
      · intro hnone entityId
        rw [hstrands entityId, hnone _ h]
        exact List.not_mem_nil
      · intro haccepted _ _
        refine List.eq_nil_iff_forall_not_mem.mpr ?_
        intro entityId
        exact (hstrands entityId).mp (haccepted entityId)
    · next failure h =>
      refine iff_of_true ?_ hreplica
      intro result hresult
      cases h.symm.trans hresult
  | retain request =>
    exact iff_of_true trivial
      (retain_invariant HeadsAccepted hreplica fun _ _ h ↦ headAccepted_of_retain hreplica h)
  | receipt receipt =>
    exact iff_of_true trivial
      (orKeep_invariant HeadsAccepted hreplica fun _ h ↦ headAccepted_of_receipt hreplica h)
  | retire request replacementDeviceId evidence =>
    exact iff_of_true trivial
      (orKeep_invariant HeadsAccepted hreplica fun _ h ↦ headAccepted_of_retire hreplica h)
  | edit registry versions consents =>
    exact iff_of_true trivial hreplica

end Actions

/-! ### Loading the history -/

section History

variable {scope : Scope} {replica : Replica}

theorem rows_of_entries {stored : List Pending} {entries : List Entry}
    (hstored : readRows scope replica rows = .ok stored)
    (hentries : entriesOf stored = .ok entries) :
    entries.map (fun entry ↦ (entry.event.revisionId, entry.stored.state)) =
      rows.map fun row ↦ (row.remoteRevisionId, row.state) := by
  induction rows generalizing stored entries with
  | nil =>
    obtain rfl : [] = stored := Except.ok.inj hstored
    obtain rfl : [] = entries := Except.ok.inj hentries
    rfl
  | cons row rows ih =>
    simp only [readRows, bind_eq_ok] at hstored
    obtain ⟨held, hheld, rest, hrest, h⟩ := hstored
    obtain rfl : held :: rest = stored := Except.ok.inj h
    simp only [entriesOf, entryOf, bind_eq_ok, present_eq_ok] at hentries
    obtain ⟨entry, ⟨event, hevent, hentry⟩, tail, htail, hlist⟩ := hentries
    obtain rfl : { event, stored := held } = entry := Except.ok.inj hentry
    obtain rfl : _ :: tail = entries := Except.ok.inj hlist
    obtain ⟨read, hreads⟩ := readRow_cases hheld
    have hparsed := (validate_of_readEvent hreads.reads).1
    obtain rfl : event = read := Option.some.inj (hevent.symm.trans hparsed)
    rw [List.map_cons, List.map_cons, ih hrest htail, hreads.revisionId, hreads.state]

/-- The history of an entity is refused for its head exactly when the head is not accepted. -/
theorem headAccepted_iff {stored : List Pending} {entries : List Entry}
    (hstored : history scope replica entityId = .ok stored)
    (hentries : entriesOf stored = .ok entries) :
    headAccepted entries (replica.remoteHead entityId) = true ↔ HeadAccepted replica entityId := by
  simp only [history, bind_eq_ok] at hstored
  obtain ⟨_, -, _, -, hstored⟩ := hstored
  have hrows := rows_of_entries hstored hentries
  have hentry : ∀ revisionId, (∃ entry ∈ entries, entry.event.revisionId = revisionId ∧
      entry.stored.state = .accepted) ↔ AcceptedAs replica.events entityId revisionId := by
    intro revisionId
    have hpairs : (revisionId, EventState.accepted) ∈
          entries.map (fun entry ↦ (entry.event.revisionId, entry.stored.state)) ↔
        (revisionId, EventState.accepted) ∈
          (replica.events.filter fun row ↦ row.entityId = entityId).map
            fun row ↦ (row.remoteRevisionId, row.state) := by
      rw [hrows]
    simpa [AcceptedAs, and_assoc] using hpairs
  unfold headAccepted HeadAccepted
  cases replica.remoteHead entityId with
  | none => simp
  | some head => simpa using hentry head

end History

/-- At every moment of a run every remote head names an accepted event of its entity, and loading
the history of an entity is not refused for its head, if and only if no applied page of the run
leaves a head on an unsettled push. -/
theorem remote_heads_accepted (scope : Scope) (actions : List Action) :
    StepsMeet (perform scope) (Settles scope) .empty actions ↔
      ∀ before, before <+: actions → ∀ entityId,
        HeadAccepted (after scope before) entityId ∧
        ∀ stored entries, history scope (after scope before) entityId = .ok stored →
          entriesOf stored = .ok entries →
          headAccepted entries ((after scope before).remoteHead entityId) = true := by
  have hempty : HeadsAccepted .empty := by
    intro entityId revisionId hrevision
    cases hrevision
  rw [stepsMeet_iff settles_iff .empty hempty actions]
  refine forall₂_congr fun before _ ↦ ⟨?_, fun hall entityId ↦ (hall entityId).1⟩
  intro haccepted entityId
  refine ⟨haccepted entityId, ?_⟩
  intro stored entries hstored hentries
  exact (headAccepted_iff hstored hentries).mpr (haccepted entityId)

namespace Renewal

/-- A revocation is retained beside a renewal and answered with a conflict; its merge is retained
and the answer is lost; a page ends between the revocation and the merge. -/
def cutBeforeMerge : List Action :=
  [page [item granted 1] none (some "position-1"),
    .retain revoked.document,
    conflicting revoked,
    page [item renewed 2] (some "position-1") (some "position-2"),
    .retain merged.document,
    page [item revoked 3] (some "position-2") (some "position-3")]

end Renewal

/-- The head is left on the conflicting revocation, and the next push of the entity is refused. -/
theorem head_left_on_conflict :
    ¬ HeadAccepted (after Renewal.scope Renewal.cutBeforeMerge) Renewal.entityId ∧
      loadHistory Renewal.scope (after Renewal.scope Renewal.cutBeforeMerge) Renewal.entityId =
        .error invalidPush := by
  have hfacts : let replica := after Renewal.scope Renewal.cutBeforeMerge
      replica.remoteHead Renewal.entityId = some Renewal.revoked.revisionId ∧
        ¬ AcceptedAs replica.events Renewal.entityId Renewal.revoked.revisionId ∧
        loadHistory Renewal.scope replica Renewal.entityId = .error invalidPush := by
    decide +kernel
  obtain ⟨hhead, hnot, hrefused⟩ := hfacts
  exact ⟨fun haccepted ↦ hnot (haccepted _ hhead), hrefused⟩

end AiStp.Sync.Client
