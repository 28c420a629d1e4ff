import AiStp.Sync.Client.Device

/-!
# Pages once more

A page is applied as a whole or not at all. An event that was applied stays applied, and applying
it again offers it to the remote head and receives its version bindings again: nothing changes
exactly when the head keeps (`HeadKeeps`) and no binding is left to store or to record
(`redelivery_iff`). `page_application` puts the parts together.
-/

set_option autoImplicit false

namespace AiStp.Sync.Client

open Library Library.Runs Foundation AiStp.Client AiStp.Client.Store

/-! ### Version bindings -/

namespace Replica

/-- Receiving a binding has nothing to store and nothing to record. -/
def holds (replica : Replica) (id : String) (binding : Binding) : Prop :=
  if replica.registry.stored binding.revisionId then
    (replica.version? id binding.version).isSome = true
  else binding.snapshot = none

/-- The number of revisions and of versions, neither of which a page takes away. -/
def size (replica : Replica) : Nat :=
  replica.registry.revisions.length + replica.versions.length

end Replica

/-- The passports and the versions of two databases are the same. -/
def SameStore (before after : Replica) : Prop :=
  after.registry = before.registry ∧ after.versions = before.versions

section Bindings

variable {scope : Scope} {replica settled : Replica} {id kind eventId deviceId : String}

/-- The snapshot of a binding is its revision. -/
def Binding.Addressed (binding : Binding) : Prop :=
  ∀ snapshot, binding.snapshot = some snapshot →
    snapshot.index "revision_id" = .string binding.revisionId

theorem addressed_of_read {platform : Platform} {raw : Json} {binding : Binding}
    (h : Binding.read platform raw id kind = .ok binding) : binding.Addressed := by
  simp only [Binding.read, bind_eq_ok] at h
  obtain ⟨parsed, -, _, -, _, -, h⟩ := h
  split at h
  · next snapshot hsnapshot =>
    obtain ⟨_, hcheck, h⟩ := bind_eq_ok.mp h
    obtain rfl : parsed = binding := Except.ok.inj h
    simp only [checkSnapshot, bind_eq_ok, ensure_eq_ok, Bool.and_eq_true, beq_iff_eq] at hcheck
    obtain ⟨_, -, _, ⟨⟨⟨-, hrevision⟩, -⟩, -⟩, -⟩ := hcheck
    intro held hheld
    rw [hsnapshot] at hheld
    rw [← Option.some.inj hheld]
    exact hrevision
  · next hnone =>
    obtain rfl : parsed = binding := Except.ok.inj h
    intro held hheld
    rw [hnone] at hheld
    cases hheld

theorem addressed_of_bindings {platform : Platform} {payload : Json} {list : List Binding}
    (h : bindings platform payload id kind = .ok list) : ∀ binding ∈ list, binding.Addressed := by
  have hread : ∀ (rows : List Json) (seen list : List Binding),
      readBindings platform id kind seen rows = .ok list →
        ∀ binding ∈ list, binding.Addressed := by
    intro rows
    induction rows with
    | nil =>
      intro seen list h
      rw [← Except.ok.inj h]
      simp
    | cons raw rows ih =>
      intro seen list h
      simp only [readBindings, bind_eq_ok] at h
      obtain ⟨binding, hbinding, _, -, rest, hrest, h⟩ := h
      rw [← Except.ok.inj h, List.forall_mem_cons]
      exact ⟨addressed_of_read hbinding, ih _ _ hrest⟩
  unfold bindings at h
  split at h
  · rw [← Except.ok.inj h]
    simp
  · simp only [bind_eq_ok] at h
    obtain ⟨_, -, _, -, h⟩ := h
    exact hread _ _ _ h
  · cases h

theorem recordVersion_versions (replica : Replica) (id : String) (binding : Binding)
    (major minor : Nat) :
    (replica.recordVersion id binding major minor).versions = replica.versions ∧
        (replica.version? id binding.version).isSome ∨
      (replica.version? id binding.version).isSome = false ∧ replica.versions.length <
        (replica.recordVersion id binding major minor).versions.length := by
  unfold Replica.recordVersion
  cases hversion : (replica.version? id binding.version).isSome with
  | true => exact Or.inl ⟨by simp, rfl⟩
  | false => exact Or.inr ⟨rfl, by simp⟩

/-- The snapshot of a binding is stored already, or it is a new revision. -/
theorem receiveSnapshot_cases {binding : Binding} (haddressed : binding.Addressed)
    (h : receiveSnapshot scope replica deviceId binding = .ok settled) :
    (settled = replica ∧
        (replica.registry.stored binding.revisionId = true ∨ binding.snapshot = none)) ∨
      replica.registry.stored binding.revisionId = false ∧ binding.snapshot ≠ none ∧
        settled.versions = replica.versions ∧
        replica.registry.revisions.length < settled.registry.revisions.length := by
  unfold receiveSnapshot at h
  split at h
  · next snapshot hsnapshot =>
    obtain ⟨⟨_, registry⟩, hcommit, h⟩ := bind_eq_ok.mp h
    have hregistry := commit_external rfl (haddressed snapshot hsnapshot) hcommit
    rw [← Except.ok.inj h]
    split_ifs at hregistry with hstored
    · exact Or.inl ⟨by simp only [hregistry], Or.inl hstored⟩
    · obtain ⟨row, -, hrevisions⟩ := hregistry
      refine Or.inr ⟨Bool.not_eq_true _ ▸ hstored, by simp [hsnapshot], rfl, ?_⟩
      simp [hrevisions]
  · next hsnapshot => exact Or.inl ⟨(Except.ok.inj h).symm, Or.inr hsnapshot⟩

theorem postpone_store (replica : Replica) (id eventId : String) (binding : Binding) :
    SameStore replica (replica.postpone id eventId binding) := by
  unfold Replica.postpone
  split_ifs
  · exact ⟨rfl, rfl⟩
  · exact ⟨rfl, rfl⟩

/-- Receiving a binding changes nothing, or the passports and versions grow. -/
theorem receive_cases {binding : Binding} (haddressed : binding.Addressed)
    (h : receive scope replica id kind eventId deviceId binding = .ok settled) :
    (SameStore replica settled ∧ replica.holds id binding) ∨
      ¬ replica.holds id binding ∧ replica.size < settled.size := by
  simp only [receive, bind_eq_ok] at h
  obtain ⟨⟨major, minor⟩, -, _, -, _, -, received, hreceived, h⟩ := h
  unfold Replica.holds
  rcases receiveSnapshot_cases haddressed hreceived with
    ⟨rfl, hheld⟩ | ⟨hstored, hsnapshot, hversions, hgrows⟩
  · by_cases hstored : received.registry.stored binding.revisionId = true
    · rw [if_pos hstored] at h ⊢
      simp only [bind_eq_ok] at h
      obtain ⟨_, -, _, -, h⟩ := h
      rw [← Except.ok.inj h]
      rcases recordVersion_versions received id binding major minor with
        ⟨hkept, hrecorded⟩ | ⟨hmissing, hmore⟩
      · exact Or.inl ⟨⟨rfl, hkept⟩, hrecorded⟩
      · exact Or.inr ⟨by simp [hmissing], Nat.add_lt_add_left hmore _⟩
    · rw [if_neg hstored] at h ⊢
      rw [← Except.ok.inj h]
      exact Or.inl ⟨postpone_store received id eventId binding, hheld.resolve_left hstored⟩
  · rw [if_neg (by simp [hstored])]
    refine Or.inr ⟨hsnapshot, ?_⟩
    split_ifs at h with hnow
    · simp only [bind_eq_ok] at h
      obtain ⟨_, -, _, -, h⟩ := h
      rw [← Except.ok.inj h]
      rcases recordVersion_versions received id binding major minor with
        ⟨hkept, -⟩ | ⟨-, hmore⟩
      · rw [Replica.size, Replica.size, hkept, hversions]
        exact Nat.add_lt_add_right hgrows _
      · rw [hversions] at hmore
        exact Nat.add_lt_add hgrows hmore
    · obtain ⟨hregistry, hsame⟩ := postpone_store received id eventId binding
      rw [← Except.ok.inj h, Replica.size, Replica.size, hregistry, hsame, hversions]
      exact Nat.add_lt_add_right hgrows _

/-- Receiving bindings changes nothing if all of them hold, and otherwise the store grows. -/
theorem receiveAll_cases {list : List Binding} (haddressed : ∀ binding ∈ list, binding.Addressed)
    (h : receiveAll scope id kind eventId deviceId replica list = .ok settled) :
    (SameStore replica settled ∧ ∀ binding ∈ list, replica.holds id binding) ∨
      (¬ ∀ binding ∈ list, replica.holds id binding) ∧ replica.size < settled.size := by
  induction list generalizing replica with
  | nil =>
    rw [← Except.ok.inj h]
    exact Or.inl ⟨⟨rfl, rfl⟩, by simp⟩
  | cons binding list ih =>
    rw [List.forall_mem_cons] at haddressed ⊢
    obtain ⟨received, hreceived, h⟩ := bind_eq_ok.mp h
    have hrest := ih haddressed.2 h
    rcases receive_cases haddressed.1 hreceived with
      ⟨⟨hregistry, hversions⟩, hholds⟩ | ⟨hnot, hgrows⟩
    · have hsame : ∀ other, received.holds id other ↔ replica.holds id other := by
        intro other
        simp only [Replica.holds, Replica.version?, hregistry, hversions]
      simp only [hsame, SameStore, hregistry, hversions, Replica.size] at hrest
      rcases hrest with ⟨hstore, hall⟩ | ⟨hnone, hmore⟩
      · exact Or.inl ⟨hstore, hholds, hall⟩
      · exact Or.inr ⟨fun hall ↦ hnone hall.2, hmore⟩
    · refine Or.inr ⟨fun hall ↦ hnot hall.1, lt_of_lt_of_le hgrows ?_⟩
      rcases hrest with ⟨⟨hregistry, hversions⟩, -⟩ | ⟨-, hmore⟩
      · rw [Replica.size, Replica.size, hregistry, hversions]
      · exact hmore.le

/-- Receiving the bindings of the event has nothing to store and nothing to record. -/
def BindingsHold (scope : Scope) (replica : Replica) (event : Event) : Prop :=
  ∀ kind list, event.passportKind = some kind → event.operation = .upsert →
    bindings scope.platform event.payload event.entityId kind = .ok list →
    ∀ binding ∈ list, replica.holds event.entityId binding

theorem receiveBindings_store {event : Event}
    (h : receiveBindings scope replica event = .ok settled) :
    SameStore replica settled ↔ BindingsHold scope replica event := by
  unfold receiveBindings at h
  unfold BindingsHold
  cases hkind : event.passportKind with
  | none =>
    rw [hkind] at h
    rw [← Except.ok.inj h]
    exact iff_of_true ⟨rfl, rfl⟩ (by simp)
  | some kind =>
    simp only [hkind] at h
    by_cases hupsert : event.operation = .upsert
    · rw [if_pos hupsert] at h
      obtain ⟨list, hlist, h⟩ := bind_eq_ok.mp h
      have hcases := receiveAll_cases (addressed_of_bindings hlist) h
      constructor
      · rintro ⟨hregistry, hversions⟩ other rows hother _ hrows
        obtain rfl : kind = other := Option.some.inj hother
        obtain rfl : list = rows := Except.ok.inj (hlist.symm.trans hrows)
        rcases hcases with ⟨-, hall⟩ | ⟨-, hgrows⟩
        · exact hall
        · rw [Replica.size, Replica.size, hregistry, hversions] at hgrows
          exact absurd hgrows (lt_irrefl _)
      · intro hall
        rcases hcases with ⟨hstore, -⟩ | ⟨hnot, -⟩
        · exact hstore
        · exact absurd (hall kind list rfl hupsert hlist) hnot
    · rw [if_neg hupsert] at h
      rw [← Except.ok.inj h]
      exact iff_of_true ⟨rfl, rfl⟩ (by simp [hupsert])

end Bindings

/-! ### Applied events -/

/-- The event is recorded and waits for nothing. -/
def Applied (replica : Replica) (event : Event) : Prop :=
  ∃ row ∈ replica.events, row.remoteRevisionId = event.revisionId ∧ ¬ row.waits event

section Persistence

variable {scope : Scope} {replica settled : Replica} {event other : Event}

/-- Changing only pushes that wait, and no event id or revision, keeps every applied event. -/
theorem applied_of_map {change : EventRow → EventRow}
    (hid : ∀ row, (change row).eventId = row.eventId)
    (hrevision : ∀ row, (change row).remoteRevisionId = row.remoteRevisionId)
    (hchange : ∀ row, change row = row ∨
      row.direction = .push ∧ (row.state = .pending ∨ row.state = .failed))
    (happlied : Applied replica event) (hevents : settled.events = replica.events.map change) :
    Applied settled event := by
  obtain ⟨row, hrow, hrow_revision, hsettled⟩ := happlied
  refine ⟨change row, ?_, (hrevision row).trans hrow_revision, ?_⟩
  · rw [hevents]
    exact List.mem_map_of_mem hrow
  · intro hwaits
    rcases hchange row with hsame | ⟨hpush, hwaiting⟩
    · exact hsettled (hsame ▸ hwaits)
    · exact hsettled ⟨hpush, hwaiting, (hid row).symm.trans hwaits.2.2⟩

theorem applied_of_append {row : EventRow} (happlied : Applied replica event)
    (hevents : settled.events = replica.events ++ [row]) : Applied settled event := by
  obtain ⟨held, hheld, hrest⟩ := happlied
  refine ⟨held, ?_, hrest⟩
  rw [hevents]
  exact List.mem_append_left _ hheld

theorem applied_of_finish {state : EventState} {content : Json} {eventId : String}
    (happlied : Applied replica event)
    (hevents : settled.events = (replica.finish state content eventId).events) :
    Applied settled event := by
  refine applied_of_map ?_ ?_ ?_ happlied hevents
  · intro row
    split_ifs <;> rfl
  · intro row
    split_ifs <;> rfl
  · intro row
    by_cases hwaits : row.eventId = eventId ∧ row.direction = .push ∧
        (row.state = .pending ∨ row.state = .failed)
    · exact Or.inr hwaits.2
    · exact Or.inl (if_neg hwaits)

/-- A delivered event is applied. -/
theorem applied_of_delivery (h : Effect scope replica event settled) : Applied settled event := by
  have henters := h.enters
  revert henters
  generalize hrows : settled.events = rows
  intro henters
  cases henters with
  | recorded row hknown hsettled =>
    exact ⟨row, hrows ▸ hknown.recorded, hknown.revisionId, hsettled⟩
  | accepted row content hknown hwaits =>
    refine ⟨{ row with state := .accepted, receipt := some content }, ?_, hknown.revisionId, ?_⟩
    · rw [hrows]
      exact List.mem_map.mpr ⟨row, hknown.recorded, if_pos ⟨rfl, hwaits.1, hwaits.2.1⟩⟩
    · rintro ⟨-, hpending | hfailed, -⟩
      · cases hpending
      · cases hfailed
  | inserted localRevisionId body hfresh hbody =>
    refine ⟨pullRow event localRevisionId body, ?_, rfl, ?_⟩
    · rw [hrows]
      exact List.mem_append_right _ (List.mem_singleton.mpr rfl)
    · rintro ⟨hpush, -⟩
      cases hpush

/-- An applied event stays applied when another one is delivered. -/
theorem applied_of_effect (h : Effect scope replica other settled)
    (happlied : Applied replica event) : Applied settled event := by
  have henters := h.enters
  revert henters
  generalize hrows : settled.events = rows
  intro henters
  cases henters with
  | recorded row hknown hsettled =>
    obtain ⟨held, hheld, hrest⟩ := happlied
    exact ⟨held, hrows ▸ hheld, hrest⟩
  | accepted row content hknown hwaits => exact applied_of_finish happlied hrows
  | inserted localRevisionId body hfresh hbody => exact applied_of_append happlied hrows

/-- The items of a page that are not left out are applied after it. -/
theorem applied_of_items {items : List Json} {report counted : PageReport}
    (h : applyItems scope replica report items = .ok (settled, counted)) :
    (∀ event, Applied replica event → Applied settled event) ∧
      settled.abandoned = replica.abandoned ∧
      ∀ raw ∈ items, ∃ id, (raw.index "event_id").asString? = some id ∧
        (id ∉ replica.abandoned → ∃ event,
          Event.stream scope.platform raw scope.account = .ok event ∧ Applied settled event) := by
  refine applyItems_induction (motive := fun replica items settled ↦
    (∀ event, Applied replica event → Applied settled event) ∧
      settled.abandoned = replica.abandoned ∧
      ∀ raw ∈ items, ∃ id, (raw.index "event_id").asString? = some id ∧
        (id ∉ replica.abandoned → ∃ event,
          Event.stream scope.platform raw scope.account = .ok event ∧ Applied settled event))
    ?_ ?_ ?_ h
  · intro replica
    exact ⟨fun _ happlied ↦ happlied, rfl, by simp⟩
  · intro replica raw items settled id hid habandoned ih
    obtain ⟨hkeeps, hsame, hitems⟩ := ih
    rw [List.forall_mem_cons]
    exact ⟨hkeeps, hsame, ⟨id, hid, fun hnot ↦ absurd habandoned hnot⟩, hitems⟩
  · intro replica raw items middle settled id event replayed hid habandoned hevent happlied ih
    obtain ⟨hkeeps, hsame, hitems⟩ := ih
    have heffect := applyEvent_effect (Event.stream_eq_ok.mp hevent).2.2 happlied
    rw [List.forall_mem_cons]
    rw [heffect.abandoned] at hsame hitems
    refine ⟨?_, hsame, ⟨id, hid, fun _ ↦ ⟨event, hevent, ?_⟩⟩, hitems⟩
    · intro other hother
      exact hkeeps other (applied_of_effect heffect hother)
    · exact hkeeps event (applied_of_delivery heffect)

theorem applied_of_perform (action : Action) (happlied : Applied replica event) :
    Applied (perform scope replica action) event := by
  cases action with
  | retain request =>
    refine retain_invariant (Applied · event) happlied ?_
    intro held settled h
    rcases retain_cases h with rfl | ⟨pushed, localRevisionId, body, -, -, -, -, -, rfl⟩
    · exact happlied
    · exact applied_of_append happlied rfl
  | receipt receipt =>
    refine orKeep_invariant (Applied · event) happlied ?_
    intro settled h
    obtain ⟨row, -, held, pushed, -, -, -, -, hcases⟩ := recordReceipt_cases h
    rcases hcases with ⟨rfl, -⟩ | ⟨-, state, content, -, hsettled⟩
    · exact happlied
    · have hevents : settled.events = (replica.finish state content row.eventId).events := by
        rw [hsettled]
        split_ifs
        · rfl
        · rfl
      exact applied_of_finish happlied hevents
  | page response expectedCursor pageSize skip at_ =>
    rcases apply_cases _ replica response expectedCursor pageSize skip at_ with
      hsame | ⟨-, applied, reconciled, report, counted, happly, hreconciled, hmoved⟩
    · rw [perform, hsame]
      exact happlied
    · have hstart : Applied (abandon replica skip) event := happlied
      obtain ⟨row, hrow, hrest⟩ := (applied_of_items happly).1 event hstart
      refine ⟨row, ?_, hrest⟩
      rw [perform, moveCursor_cases hmoved, (sameLedger_of_reconcile hreconciled).events]
      exact hrow
  | retire request replacementDeviceId evidence =>
    refine orKeep_invariant (Applied · event) happlied ?_
    intro settled h
    obtain ⟨eventId, content, rfl⟩ := retire_cases h
    refine applied_of_map ?_ ?_ ?_ happlied rfl
    · intro row
      split_ifs <;> rfl
    · intro row
      split_ifs <;> rfl
    · intro row
      by_cases hwaits : row.eventId = eventId ∧ row.direction = .push ∧ row.state = .pending ∧
          row.receipt = none
      · exact Or.inr ⟨hwaits.2.1, Or.inl hwaits.2.2.1⟩
      · exact Or.inl (if_neg hwaits)
  | edit registry versions consents => exact happlied

/-! ### Applying an event again -/

/-- Revisions, local heads, versions, remote heads and consents are the same. -/
structure Unchanged (before after : Replica) : Prop where
  store : SameStore before after
  remoteHeads : after.remoteHeads = before.remoteHeads
  consents : after.consents = before.consents

/-- The head keeps and the bindings have nothing to store or to record. -/
def Replays (scope : Scope) (replica : Replica) (event : Event) : Prop :=
  HeadKeeps scope replica event ∧ BindingsHold scope replica event

/-- Applying an applied event again is a replay, and it changes nothing if and only if the head
keeps and no binding is left to store or to record. -/
theorem redelivery_iff {replayed : Bool}
    (hvalid : event.validate scope.platform scope.account = .ok ())
    (happlied : Applied replica event)
    (h : applyEvent scope replica event = .ok (settled, replayed)) :
    replayed = true ∧ (Unchanged replica settled ↔ Replays scope replica event) := by
  obtain ⟨held, hheld, hrevision, hsettled⟩ := happlied
  have heffect := applyEvent_effect hvalid h
  rcases applyEvent_cases hvalid h with
    ⟨row, kept, received, hreplayed, hknown, hkept, hreceived, hadvanced⟩ | ⟨-, hfresh, -⟩
  · obtain rfl : held = row := hknown.only held hheld (Or.inr hrevision)
    have hsame : kept = replica := by
      rcases acceptDelivered_cases hknown hkept with ⟨-, hsame⟩ | ⟨hwaits, -⟩
      · exact hsame
      · exact absurd hwaits hsettled
    subst hsame
    have hledger := sameLedger_of_receiveBindings hreceived
    have hparts : settled.registry = received.registry ∧ settled.versions = received.versions ∧
        settled.consents = received.consents := by
      rw [advance_cases hadvanced]
      split_ifs
      · exact ⟨rfl, rfl, rfl⟩
      · exact ⟨rfl, rfl, rfl⟩
    have hstore : SameStore kept settled ↔ BindingsHold scope kept event := by
      rw [SameStore, hparts.1, hparts.2.1]
      exact receiveBindings_store hreceived
    have hhead : settled.remoteHeads = kept.remoteHeads ↔ HeadKeeps scope kept event := by
      have hsameRecords : HeadKeeps scope received event ↔ HeadKeeps scope kept event := by
        have hlookup : recordedParents scope received event.entityId =
            recordedParents scope kept event.entityId := by
          ext1 revisionId
          exact recordedParents_of_sameLedger hledger _ _
        rw [HeadKeeps, HeadKeeps, hlookup, hledger.remoteHead]
      rw [← hsameRecords, ← moves_eq_false_iff hadvanced, moves_of_sameLedger hledger,
        heffect.remoteHeads]
      cases hmoves : moves scope kept event with
      | false => simp
      | true =>
        simp only [if_true, Bool.true_eq_false, iff_false]
        intro hsameHeads
        have hlookup : kept.remoteHead event.entityId = some event.revisionId := by
          rw [Replica.remoteHead, ← hsameHeads]
          exact AList.lookup_insert _
        rw [not_moves_of_head hlookup] at hmoves
        cases hmoves
    refine ⟨hreplayed, ?_, ?_⟩
    · rintro ⟨hsameStore, hheads, -⟩
      exact ⟨hhead.mp hheads, hstore.mp hsameStore⟩
    · rintro ⟨hkeeps, hhold⟩
      exact ⟨hstore.mpr hhold, hhead.mpr hkeeps, hparts.2.2.trans hledger.consents⟩
  · have hmem : held ∈ matching replica event :=
      List.mem_filter.mpr ⟨hheld, decide_eq_true (Or.inr hrevision)⟩
    rw [hfresh] at hmem
    cases hmem

end Persistence

/-! ### One page -/

/-- An applied page: it was expected, every item that was not left out is applied, and the position
is the next one, unless the page names none. -/
structure PageApplied (scope : Scope) (replica : Replica) (response : Json)
    (expectedCursor : Option String) (pageSize : Nat) (skip : List String) (at_ : String)
    (settled : Replica) : Prop where
  committed : ∃ report, applyTransaction scope replica response expectedCursor pageSize skip at_ =
    .ok (settled, report)
  expected : replica.cursor = expectedCursor
  items : ∀ raw ∈ responseItems response, ∃ id, (raw.index "event_id").asString? = some id ∧
    (id ∉ (abandon replica skip).abandoned → ∃ event,
      Event.stream scope.platform raw scope.account = .ok event ∧ Applied settled event)
  position : (settled.cursor = replica.cursor ∧
      (response.index "page").index "next_cursor" = .null) ∨
    ∃ next, settled.cursor = some next ∧
      (response.index "page").index "next_cursor" = .string next

theorem pageApplied_or_unchanged (scope : Scope) (replica : Replica) (response : Json)
    (expectedCursor : Option String) (pageSize : Nat) (skip : List String) (at_ : String) :
    apply scope replica response expectedCursor pageSize skip at_ = replica ∨
      PageApplied scope replica response expectedCursor pageSize skip at_
        (apply scope replica response expectedCursor pageSize skip at_) := by
  by_cases hunchanged : apply scope replica response expectedCursor pageSize skip at_ = replica
  · exact Or.inl hunchanged
  obtain ⟨hexpected, applied, reconciled, report, counted, happly, hreconciled, hmoved⟩ :=
    (apply_cases _ replica response expectedCursor pageSize skip at_).resolve_left hunchanged
  obtain ⟨-, -, hitems⟩ := applied_of_items happly
  have hledger := sameLedger_of_reconcile hreconciled
  have hcursor : applied.cursor = (abandon replica skip).cursor := by
    refine applyItems_induction (motive := fun replica items settled ↦
      settled.cursor = replica.cursor) ?_ ?_ ?_ happly
    · intro replica
      rfl
    · intro replica raw items settled id _ _ ih
      exact ih
    · intro replica raw items middle settled id event replayed _ _ hevent happlied ih
      exact ih.trans (applyEvent_effect (Event.stream_eq_ok.mp hevent).2.2 happlied).cursor
  refine Or.inr ⟨?_, hexpected, ?_, ?_⟩
  · cases htransaction : applyTransaction scope replica response expectedCursor pageSize skip at_ with
    | error failure =>
      refine absurd ?_ hunchanged
      rw [apply, htransaction]
    | ok result =>
      refine ⟨result.2, ?_⟩
      rw [apply, htransaction]
  · intro raw hraw
    obtain ⟨id, hid, hevent⟩ := hitems raw hraw
    refine ⟨id, hid, fun hnot ↦ ?_⟩
    obtain ⟨event, hstream, row, hrow, hrest⟩ := hevent hnot
    refine ⟨event, hstream, row, ?_, hrest⟩
    rw [moveCursor_cases hmoved, hledger.events]
    exact hrow
  · unfold moveCursor at hmoved
    split at hmoved
    · next hnone =>
      refine Or.inl ⟨?_, hnone⟩
      rw [← Except.ok.inj hmoved]
      exact hledger.cursor.trans hcursor
    · next next hnext =>
      refine Or.inr ⟨next, ?_, hnext⟩
      rw [← Except.ok.inj hmoved]
    · cases hmoved

/-- A page is applied as a whole or leaves the database as it was, which it does at another
position; a page that names no next position, or the one it was asked from, keeps the position;
what it applied stays applied over any later operations; and applying an applied event again, at
any moment, changes nothing if and only if the head keeps and no binding is left to store or to
record. -/
theorem page_application (scope : Scope) (replica : Replica) (response : Json)
    (expectedCursor : Option String) (pageSize : Nat) (skip : List String) (at_ : String) :
    let settled := apply scope replica response expectedCursor pageSize skip at_
    (settled = replica ∨ PageApplied scope replica response expectedCursor pageSize skip at_ settled) ∧
    (replica.cursor ≠ expectedCursor → settled = replica) ∧
    ((response.index "page").index "next_cursor" = .null ∨
        (response.index "page").index "next_cursor" = jsonOptional expectedCursor →
      settled.cursor = replica.cursor) ∧
    (∀ event later, Applied settled event → Applied (run (perform scope) settled later) event) ∧
    (∀ now again event replayed, Applied now event →
      event.validate scope.platform scope.account = .ok () →
      applyEvent scope now event = .ok (again, replayed) →
      (Unchanged now again ↔ Replays scope now event)) := by
  intro settled
  have hpage := pageApplied_or_unchanged scope replica response expectedCursor pageSize skip at_
  refine ⟨hpage, ?_, ?_, ?_, ?_⟩
  · intro hother
    rcases hpage with hsame | hpage
    · exact hsame
    · exact absurd hpage.expected hother
  · intro hnext
    rcases hpage with hsame | hpage
    · exact congrArg Replica.cursor hsame
    rcases hpage.position with ⟨hkept, -⟩ | ⟨next, hmoved, hnamed⟩
    · exact hkept
    · rw [hnamed] at hnext
      rcases hnext with hnone | hecho
      · cases hnone
      · rw [hpage.expected]
        refine hmoved.trans ?_
        cases expectedCursor with
        | none => cases hecho
        | some cursor => rw [Json.string.inj hecho]
  · intro event later happlied
    have hkeeps : ∀ state action, Applied state event →
        Applied (perform scope state action) event :=
      fun _ action hstate ↦ applied_of_perform action hstate
    exact run_invariant hkeeps _ happlied later
  · intro now again event replayed happlied hvalid h
    exact (redelivery_iff hvalid happlied h).2

namespace Renewal

/-- The grant, its renewal and its revocation beside the renewal, in the order of the stream. -/
def delivered : Replica :=
  after scope [page [item granted 1, item renewed 2, item revoked 3] none (some "position-3")]

end Renewal

/-- Delivering the renewal once more takes the head back from the revocation. -/
theorem redelivery_moves_head :
    Renewal.delivered.remoteHead Renewal.entityId = some Renewal.revoked.revisionId ∧
      (perform Renewal.scope Renewal.delivered
          (Renewal.page [Renewal.item Renewal.renewed 2] (some "position-3")
            (some "position-2"))).remoteHead Renewal.entityId =
        some Renewal.renewed.revisionId := by
  decide +kernel

end AiStp.Sync.Client
