import AiStp.Sync.Client.Pages

/-!
# The effect of a delivered event

Storing passports and versions leaves the ledger alone (`SameLedger`). A delivered event is recorded
already, is a push that waited for its receipt, or is new (`Enters`), and it takes over the remote
head of its entity exactly when `moves` says so before it is applied (`applyEvent_effect`). Pages are
applied event by event (`applyItems_induction`).
-/

set_option autoImplicit false

namespace AiStp.Sync.Client

open Library Foundation AiStp.Client AiStp.Client.Store

/-! ### What applying an event can do -/

/-- The parts of the database that storing a passport and its versions leaves alone. -/
structure SameLedger (before after : Replica) : Prop where
  events : after.events = before.events
  remoteHeads : after.remoteHeads = before.remoteHeads
  cursor : after.cursor = before.cursor
  abandoned : after.abandoned = before.abandoned
  consents : after.consents = before.consents

namespace SameLedger

theorem refl (replica : Replica) : SameLedger replica replica := ⟨rfl, rfl, rfl, rfl, rfl⟩

theorem trans {first middle last : Replica} (hfirst : SameLedger first middle)
    (hlast : SameLedger middle last) : SameLedger first last where
  events := hlast.events.trans hfirst.events
  remoteHeads := hlast.remoteHeads.trans hfirst.remoteHeads
  cursor := hlast.cursor.trans hfirst.cursor
  abandoned := hlast.abandoned.trans hfirst.abandoned
  consents := hlast.consents.trans hfirst.consents

theorem remoteHead {before after : Replica} (h : SameLedger before after) (entityId : String) :
    after.remoteHead entityId = before.remoteHead entityId := by
  rw [Replica.remoteHead, Replica.remoteHead, h.remoteHeads]

end SameLedger

section Cases

variable {scope : Scope} {replica settled : Replica} {event : Event}

theorem sameLedger_of_receive {id kind eventId deviceId : String} {binding : Binding}
    (h : receive scope replica id kind eventId deviceId binding = .ok settled) :
    SameLedger replica settled := by
  simp only [receive, bind_eq_ok] at h
  obtain ⟨⟨major, minor⟩, -, _, -, _, -, received, hreceived, h⟩ := h
  have hsnapshot : SameLedger replica received := by
    unfold receiveSnapshot at hreceived
    split at hreceived
    · obtain ⟨⟨_, registry⟩, -, hreceived⟩ := bind_eq_ok.mp hreceived
      rw [← Except.ok.inj hreceived]
      exact ⟨rfl, rfl, rfl, rfl, rfl⟩
    · rw [← Except.ok.inj hreceived]
      exact SameLedger.refl replica
  refine hsnapshot.trans ?_
  split at h
  · simp only [bind_eq_ok] at h
    obtain ⟨_, -, _, -, h⟩ := h
    rw [← Except.ok.inj h]
    exact ⟨rfl, rfl, rfl, rfl, rfl⟩
  · rw [← Except.ok.inj h]
    unfold Replica.postpone
    split_ifs
    · exact SameLedger.refl received
    · exact ⟨rfl, rfl, rfl, rfl, rfl⟩

theorem sameLedger_of_receiveAll {id kind eventId deviceId : String} {bindings : List Binding}
    (h : receiveAll scope id kind eventId deviceId replica bindings = .ok settled) :
    SameLedger replica settled := by
  induction bindings generalizing replica with
  | nil =>
    rw [← Except.ok.inj h]
    exact SameLedger.refl replica
  | cons binding bindings ih =>
    obtain ⟨received, hreceived, h⟩ := bind_eq_ok.mp h
    exact (sameLedger_of_receive hreceived).trans (ih h)

theorem sameLedger_of_receiveBindings (h : receiveBindings scope replica event = .ok settled) :
    SameLedger replica settled := by
  unfold receiveBindings at h
  split at h
  · split_ifs at h
    · obtain ⟨_, -, h⟩ := bind_eq_ok.mp h
      exact sameLedger_of_receiveAll h
    · rw [← Except.ok.inj h]
      exact SameLedger.refl replica
  · rw [← Except.ok.inj h]
    exact SameLedger.refl replica

theorem sameLedger_of_storePassport {localRevisionId : Option String}
    (h : storePassport scope replica event = .ok (localRevisionId, settled)) :
    SameLedger replica settled := by
  unfold storePassport at h
  split_ifs at h with hkind hupsert
  · obtain rfl : replica = settled := (Prod.ext_iff.mp (Except.ok.inj h)).2
    exact SameLedger.refl replica
  · simp only [bind_eq_ok] at h
    obtain ⟨_, -, document, -, ⟨_, registry⟩, -, received, hreceived, h⟩ := h
    have hstored : SameLedger replica { replica with registry } := ⟨rfl, rfl, rfl, rfl, rfl⟩
    obtain rfl : received = settled := (Prod.ext_iff.mp (Except.ok.inj h)).2
    exact hstored.trans (sameLedger_of_receiveBindings hreceived)
  · obtain ⟨forgotten, hforgotten, h⟩ := bind_eq_ok.mp h
    unfold Replica.forget at hforgotten
    split_ifs at hforgotten
    obtain rfl : forgotten = settled := (Prod.ext_iff.mp (Except.ok.inj h)).2
    rw [← Except.ok.inj hforgotten]
    exact ⟨rfl, rfl, rfl, rfl, rfl⟩

theorem sameLedger_of_reconcileAll {rows : List (PendingVersion × String)}
    (h : reconcileAll scope replica rows = .ok settled) : SameLedger replica settled := by
  induction rows generalizing replica with
  | nil =>
    rw [← Except.ok.inj h]
    exact SameLedger.refl replica
  | cons row rows ih =>
    obtain ⟨row, kind⟩ := row
    simp only [reconcileAll, bind_eq_ok] at h
    obtain ⟨binding, -, received, hreceived, h⟩ := h
    exact (sameLedger_of_receive hreceived).trans (ih h)

theorem sameLedger_of_reconcile (h : reconcile scope replica = .ok settled) :
    SameLedger replica settled := by
  obtain ⟨_, -, h⟩ := bind_eq_ok.mp h
  exact sameLedger_of_reconcileAll h

/-- Everything but the consents is as it was. -/
theorem consent_cases {platform : Platform} (h : consent platform replica event = .ok settled) :
    settled = { replica with consents := settled.consents } := by
  unfold consent at h
  split at h
  · simp only [bind_eq_ok] at h
    obtain ⟨_, -, _, -, _, -, h⟩ := h
    rw [← Except.ok.inj h]
    rfl
  · obtain ⟨row, -, h⟩ := bind_eq_ok.mp h
    unfold Replica.grant at h
    split_ifs at h <;> rw [← Except.ok.inj h]

theorem applyConsent_cases (h : applyConsent scope replica event = .ok settled) :
    settled = { replica with consents := settled.consents } := by
  unfold applyConsent at h
  split_ifs at h
  · exact consent_cases h
  · rw [← Except.ok.inj h]

/-- The one recorded row of a delivered event. -/
structure KnownRow (scope : Scope) (replica : Replica) (event : Event) (row : EventRow) :
    Prop where
  recorded : row ∈ replica.events
  only : ∀ other ∈ replica.events, other.eventId = event.eventId ∨
    other.remoteRevisionId = event.revisionId → other = row
  admitted : row.direction = .push ∨ row.state = .accepted
  entityId : row.entityId = event.entityId
  revisionId : row.remoteRevisionId = event.revisionId
  parents : ∃ request held, Canonical.parse scope.platform row.body = some request ∧
    readEvent scope row.direction request = .ok held ∧
    held.parentRevisionIds = event.parentRevisionIds

variable (hvalid : event.validate scope.platform scope.account = .ok ())

include hvalid in
theorem knownRow_of_checkKnown {row : EventRow} (hmatching : matching replica event = [row])
    (h : checkKnown scope replica event row = .ok ()) : KnownRow scope replica event row := by
  simp only [checkKnown, bind_eq_ok, present_eq_ok, ensure_eq_ok, Bool.and_eq_true,
    Bool.or_eq_true, beq_iff_eq] at h
  obtain ⟨request, hrequest, _, hadmitted, held, hheld, _,
    ⟨⟨⟨-, hrevision⟩, hentity⟩, hsealed⟩, -⟩ := h
  have hsame := Event.sameRevision_of_sealed (validate_of_readEvent hheld).2 hvalid hsealed
  have hmem : ∀ other, other ∈ replica.events ∧ (other.eventId = event.eventId ∨
      other.remoteRevisionId = event.revisionId) ↔ other = row := by
    intro other
    have hother : other ∈ matching replica event ↔ other = row := by
      rw [hmatching, List.mem_singleton]
    rwa [matching, List.mem_filter, decide_eq_true_eq] at hother
  exact
    { recorded := ((hmem row).mpr rfl).1
      only := fun other hother hnames ↦ (hmem other).mp ⟨hother, hnames⟩
      admitted := hadmitted
      entityId := hentity.symm.trans hsame.entityId
      revisionId := hrevision.symm.trans hsame.revisionId
      parents := ⟨request, held, hrequest, hheld, hsame.parentRevisionIds⟩ }

/-- A delivered event finds a push of its own that still waits for the answer. -/
def EventRow.waits (row : EventRow) (event : Event) : Prop :=
  row.direction = .push ∧ (row.state = .pending ∨ row.state = .failed) ∧
    row.eventId = event.eventId

instance (row : EventRow) (event : Event) : Decidable (row.waits event) :=
  inferInstanceAs (Decidable (_ ∧ _))

theorem moves_event_congr {held : Event} (hentity : held.entityId = event.entityId)
    (hrevision : held.revisionId = event.revisionId)
    (hparents : held.parentRevisionIds = event.parentRevisionIds) :
    moves scope replica held = moves scope replica event := by
  unfold moves
  rw [hentity, hrevision, hparents]

/-- Only a push that waits is accepted and offered to the remote head. -/
theorem acceptDelivered_cases {row : EventRow} {kept : Replica}
    (hknown : KnownRow scope replica event row)
    (h : acceptDelivered scope replica event row = .ok kept) :
    (¬ row.waits event ∧ kept = replica) ∨
      row.waits event ∧ ∃ content,
        let written := replica.finish .accepted content row.eventId
        kept =
          if moves scope written event then
            written.setRemoteHead event.entityId event.revisionId
          else written := by
  unfold acceptDelivered at h
  by_cases hpush : row.direction = .push
  · rw [if_pos hpush] at h
    obtain ⟨_, -, h⟩ := bind_eq_ok.mp h
    by_cases hwaits : (row.state = .pending ∨ row.state = .failed) ∧ row.eventId = event.eventId
    · rw [if_pos hwaits] at h
      refine Or.inr ⟨⟨hpush, hwaits⟩, ?_⟩
      obtain ⟨found, hfound, held, read, -, hid, hreads, -, hcases⟩ := recordReceipt_cases h
      have hfoundId : event.eventId = found.eventId := Json.string.inj hid
      obtain rfl : found = row := hknown.only found hfound (Or.inl hfoundId.symm)
      rcases hcases with ⟨-, previous, hprevious, hsame⟩ | ⟨-, state, content, hstate, hkept⟩
      · have hwire : found.state.wire = "accepted" := by
          have hagree := Json.sameValue_index hsame "state"
          rw [hreads.settled previous hprevious] at hagree
          exact Event.string_eq_of_sameValue hagree
        rcases hwaits.1 with hpending | hfailed
        · rw [hpending] at hwire
          exact absurd hwire (by decide)
        · rw [hfailed] at hwire
          exact absurd hwire (by decide)
      · obtain rfl : .accepted = state := by
          have haccepted : EventState.ofReceipt "accepted" = some .accepted := by decide
          exact Option.some.inj (haccepted.symm.trans hstate)
        obtain ⟨request, other, hrequest, hother, hparents⟩ := hknown.parents
        obtain rfl : held.request = request :=
          Option.some.inj (hreads.parses.symm.trans hrequest)
        obtain rfl : read = other := Except.ok.inj (hreads.reads.symm.trans hother)
        have hentity : read.entityId = event.entityId := hreads.entityId.trans hknown.entityId
        have hrevision : read.revisionId = event.revisionId :=
          hreads.revisionId.trans hknown.revisionId
        refine ⟨content, ?_⟩
        simpa [moves_event_congr hentity hrevision hparents, hentity, hrevision] using hkept
    · rw [if_neg hwaits] at h
      refine Or.inl ⟨?_, (Except.ok.inj h).symm⟩
      intro hall
      exact hwaits hall.2
  · rw [if_neg hpush] at h
    refine Or.inl ⟨?_, (Except.ok.inj h).symm⟩
    intro hall
    exact hpush hall.1

include hvalid in
/-- A recorded event is offered to the remote head again; any other one is stored, recorded and
offered, and its consent is applied. -/
theorem applyEvent_cases {replayed : Bool}
    (h : applyEvent scope replica event = .ok (settled, replayed)) :
    (∃ row kept received, replayed = true ∧ KnownRow scope replica event row ∧
        acceptDelivered scope replica event row = .ok kept ∧
        receiveBindings scope kept event = .ok received ∧
        advance scope received event = .ok settled) ∨
      replayed = false ∧ matching replica event = [] ∧
        ∃ localRevisionId stored body advanced,
          storePassport scope replica event = .ok (localRevisionId, stored) ∧
          encode scope.platform event.document = .ok body ∧
          advance scope { stored with
            events := stored.events ++ [pullRow event localRevisionId body] } event =
              .ok advanced ∧
          applyConsent scope advanced event = .ok settled := by
  obtain ⟨delivered, hdelivered, h⟩ := bind_eq_ok.mp h
  unfold known at hdelivered
  split at hdelivered
  · next hmatching =>
    obtain rfl : none = delivered := Except.ok.inj hdelivered
    obtain ⟨applied, happlied, h⟩ := bind_eq_ok.mp h
    obtain ⟨rfl, rfl⟩ : applied = settled ∧ false = replayed := by simpa using Except.ok.inj h
    simp only [applyNew, bind_eq_ok] at happlied
    obtain ⟨⟨localRevisionId, stored⟩, hstored, body, hbody, inserted, hinserted, advanced,
      hadvanced, hconsent⟩ := happlied
    unfold Replica.insertEvent at hinserted
    split_ifs at hinserted
    obtain rfl := Except.ok.inj hinserted
    exact Or.inr ⟨rfl, hmatching, localRevisionId, stored, body, advanced, hstored, hbody,
      hadvanced, hconsent⟩
  · next row hmatching =>
    simp only [bind_eq_ok] at hdelivered
    obtain ⟨_, hcheck, kept, hkept, hdelivered⟩ := hdelivered
    obtain rfl : some kept = delivered := Except.ok.inj hdelivered
    obtain ⟨offered, hoffered, h⟩ := bind_eq_ok.mp h
    obtain ⟨rfl, rfl⟩ : offered = settled ∧ true = replayed := by simpa using Except.ok.inj h
    obtain ⟨received, hreceived, hadvanced⟩ := bind_eq_ok.mp hoffered
    exact Or.inl ⟨row, kept, received, rfl, knownRow_of_checkKnown hvalid hmatching hcheck,
      hkept, hreceived, hadvanced⟩
  · cases hdelivered

/-- How the rows take in a delivered event: it is recorded, or it accepts a push that waited, or
it is a new row. -/
inductive Enters (scope : Scope) (replica : Replica) (event : Event) : List EventRow → Prop
  | recorded (row : EventRow) (hknown : KnownRow scope replica event row)
      (hsettled : ¬ row.waits event) : Enters scope replica event replica.events
  | accepted (row : EventRow) (content : Json) (hknown : KnownRow scope replica event row)
      (hwaits : row.waits event) :
      Enters scope replica event (replica.finish .accepted content row.eventId).events
  | inserted (localRevisionId : Option String) (body : Json)
      (hfresh : matching replica event = [])
      (hbody : encode scope.platform event.document = .ok body) :
      Enters scope replica event (replica.events ++ [pullRow event localRevisionId body])

/-- What a delivered event does to the ledger. -/
structure Effect (scope : Scope) (replica : Replica) (event : Event) (settled : Replica) :
    Prop where
  enters : Enters scope replica event settled.events
  remoteHeads : settled.remoteHeads =
    if moves scope replica event then
      replica.remoteHeads.insert event.entityId event.revisionId
    else replica.remoteHeads
  keeps : moves scope replica event = false → HeadKeeps scope replica event
  cursor : settled.cursor = replica.cursor
  abandoned : settled.abandoned = replica.abandoned

/-- An event that is the head already does not move it. -/
theorem not_moves_of_head (h : replica.remoteHead event.entityId = some event.revisionId) :
    moves scope replica event = false := by
  simp [moves, h]

theorem recordedParents_of_sameLedger {before after : Replica} (h : SameLedger before after)
    (entityId revisionId : String) :
    recordedParents scope after entityId revisionId =
      recordedParents scope before entityId revisionId := by
  refine recordedParents_congr ?_
  rw [h.events]

theorem moves_of_sameLedger {before after : Replica} (h : SameLedger before after) :
    moves scope after event = moves scope before event :=
  moves_congr (h.remoteHead _) fun _ _ ↦ recordedParents_of_sameLedger h _ _

/-- A head that was offered the event and did not move keeps. -/
private theorem headKeeps_of_offer {taken : Replica}
    (hhead : taken.remoteHead event.entityId = replica.remoteHead event.entityId)
    (hrecords : ∀ revisionId, revisionId ≠ event.revisionId →
      recordedParents scope taken event.entityId revisionId =
        recordedParents scope replica event.entityId revisionId)
    (hadvanced : advance scope taken event = .ok settled)
    (hstays : moves scope replica event = false) : HeadKeeps scope replica event := by
  obtain ⟨kept, hkept⟩ := advance_congr hhead hrecords hadvanced
  exact (moves_eq_false_iff hkept).mp hstays

/-- An event that entered the rows is offered to the head. -/
private theorem effect_of_offer {taken : Replica} (henters : Enters scope replica event taken.events)
    (hheads : taken.remoteHeads = replica.remoteHeads) (hcursor : taken.cursor = replica.cursor)
    (habandoned : taken.abandoned = replica.abandoned)
    (hmoves : moves scope taken event = moves scope replica event)
    (hkeeps : moves scope replica event = false → HeadKeeps scope replica event)
    (hsettled : settled =
      if moves scope taken event then taken.setRemoteHead event.entityId event.revisionId
      else taken) :
    Effect scope replica event settled := by
  rw [hmoves] at hsettled
  by_cases hmoved : moves scope replica event = true
  · rw [if_pos hmoved] at hsettled
    subst hsettled
    exact ⟨henters, by simp [hmoved, hheads, Replica.setRemoteHead], hkeeps, hcursor, habandoned⟩
  · rw [if_neg hmoved] at hsettled
    subst hsettled
    exact ⟨henters, by simp [hmoved, hheads], hkeeps, hcursor, habandoned⟩

private theorem Effect.sameLedger {kept : Replica} (h : Effect scope replica event kept)
    (hsame : SameLedger kept settled) : Effect scope replica event settled where
  enters := hsame.events ▸ h.enters
  remoteHeads := hsame.remoteHeads.trans h.remoteHeads
  keeps := h.keeps
  cursor := hsame.cursor.trans h.cursor
  abandoned := hsame.abandoned.trans h.abandoned

private theorem effect_of_known {row : EventRow} {kept received : Replica}
    (hknown : KnownRow scope replica event row)
    (hkept : acceptDelivered scope replica event row = .ok kept)
    (hreceived : SameLedger kept received)
    (hadvanced : advance scope received event = .ok settled) :
    Effect scope replica event settled := by
  have hsettled := advance_cases hadvanced
  rcases acceptDelivered_cases hknown hkept with ⟨hnot, rfl⟩ | ⟨hwaits, content, hwritten⟩
  · refine effect_of_offer ?_ hreceived.remoteHeads hreceived.cursor hreceived.abandoned
      (moves_of_sameLedger hreceived) ?_ hsettled
    · rw [hreceived.events]
      exact Enters.recorded row hknown hnot
    · refine headKeeps_of_offer (hreceived.remoteHead _) ?_ hadvanced
      intro revisionId _
      exact recordedParents_of_sameLedger hreceived _ _
  · have hmoves : moves scope (replica.finish .accepted content row.eventId) event =
        moves scope replica event :=
      moves_congr rfl fun _ _ ↦ recordedParents_finish _ _ _ _ _
    have hkeeps : moves scope replica event = false → HeadKeeps scope replica event := by
      intro hfalse
      simp only [hmoves, hfalse, Bool.false_eq_true, if_false] at hwritten
      subst hwritten
      refine headKeeps_of_offer (hreceived.remoteHead _) ?_ hadvanced hfalse
      intro revisionId _
      exact (recordedParents_of_sameLedger hreceived _ _).trans
        (recordedParents_finish _ _ _ _ _)
    have heffect : Effect scope replica event kept :=
      effect_of_offer (Enters.accepted row content hknown hwaits) rfl rfl rfl hmoves hkeeps
        hwritten
    -- The head took the event when its receipt was written, or it will not take it now.
    have hstays : moves scope received event = false := by
      rw [moves_of_sameLedger hreceived]
      simp only at hwritten
      split_ifs at hwritten with hmoved
      · exact not_moves_of_head (by rw [hwritten, Replica.remoteHead_setRemoteHead])
      · rw [hwritten]
        exact Bool.not_eq_true _ ▸ hmoved
    rw [hstays] at hsettled
    exact hsettled ▸ heffect.sameLedger hreceived

private theorem effect_of_new {localRevisionId : Option String} {stored advanced : Replica}
    {body : Json} (hfresh : matching replica event = []) (hstored : SameLedger replica stored)
    (hbody : encode scope.platform event.document = .ok body)
    (hadvanced : advance scope { stored with
      events := stored.events ++ [pullRow event localRevisionId body] } event = .ok advanced)
    (hconsent : applyConsent scope advanced event = .ok settled) :
    Effect scope replica event settled := by
  generalize htaken : { stored with
    events := stored.events ++ [pullRow event localRevisionId body] } = taken at hadvanced
  have hhead : taken.remoteHead event.entityId = replica.remoteHead event.entityId := by
    rw [← htaken]
    exact hstored.remoteHead _
  have hrecords : ∀ revisionId, revisionId ≠ event.revisionId →
      recordedParents scope taken event.entityId revisionId =
        recordedParents scope replica event.entityId revisionId := by
    intro revisionId hother
    rw [← htaken]
    exact recordedParents_append (congrArg (· ++ _) hstored.events) hother
  have hentered : Effect scope replica event advanced := by
    refine effect_of_offer ?_ ?_ ?_ ?_ (moves_congr hhead hrecords)
      (headKeeps_of_offer hhead hrecords hadvanced) (advance_cases hadvanced)
    · simp only [← htaken, hstored.events]
      exact Enters.inserted localRevisionId body hfresh hbody
    · rw [← htaken, hstored.remoteHeads]
    · rw [← htaken, hstored.cursor]
    · rw [← htaken, hstored.abandoned]
  rw [applyConsent_cases hconsent]
  exact ⟨hentered.enters, hentered.remoteHeads, hentered.keeps, hentered.cursor,
    hentered.abandoned⟩

include hvalid in
/-- A delivered event enters the rows and takes over the head exactly when `moves` says so. -/
theorem applyEvent_effect {replayed : Bool}
    (h : applyEvent scope replica event = .ok (settled, replayed)) :
    Effect scope replica event settled := by
  rcases applyEvent_cases hvalid h with
    ⟨row, kept, received, -, hknown, hkept, hreceived, hadvanced⟩ |
      ⟨-, hfresh, localRevisionId, stored, body, advanced, hstored, hbody, hadvanced, hconsent⟩
  · exact effect_of_known hknown hkept (sameLedger_of_receiveBindings hreceived) hadvanced
  · exact effect_of_new hfresh (sameLedger_of_storePassport hstored) hbody hadvanced hconsent

/-- The head of an entity after an event. -/
theorem Effect.remoteHead (h : Effect scope replica event settled) (entityId : String) :
    settled.remoteHead entityId =
      if entityId = event.entityId ∧ moves scope replica event then some event.revisionId
      else replica.remoteHead entityId := by
  rw [Replica.remoteHead, h.remoteHeads]
  by_cases hmoved : moves scope replica event = true
  · rw [if_pos hmoved]
    by_cases hentity : entityId = event.entityId
    · rw [if_pos ⟨hentity, hmoved⟩, hentity]
      exact AList.lookup_insert _
    · rw [if_neg fun hboth ↦ hentity hboth.1]
      exact AList.lookup_insert_ne hentity
  · rw [if_neg hmoved, if_neg fun hboth ↦ hmoved hboth.2]
    rfl

/-- The event is the head of its entity or takes it over. -/
def lands (scope : Scope) (replica : Replica) (event : Event) : Bool :=
  decide (replica.remoteHead event.entityId = some event.revisionId) ||
    moves scope replica event

theorem Effect.head_iff_lands (h : Effect scope replica event settled) :
    settled.remoteHead event.entityId = some event.revisionId ↔
      lands scope replica event = true := by
  rw [h.remoteHead]
  simp only [lands, true_and, Bool.or_eq_true, decide_eq_true_eq]
  constructor
  · intro hhead
    split_ifs at hhead with hmoves
    · exact Or.inr hmoves
    · exact Or.inl hhead
  · rintro (hhead | hmoves)
    · rw [if_neg (by simp [not_moves_of_head hhead])]
      exact hhead
    · rw [if_pos hmoves]

end Cases

/-! ### Pages -/

section Pages

variable {scope : Scope}

/-- What holds of no items and is passed on by a skipped and by an applied item holds of every
page. -/
theorem applyItems_induction {motive : Replica → List Json → Replica → Prop}
    (nil : ∀ replica, motive replica [] replica)
    (skipped : ∀ replica raw items settled id, (raw.index "event_id").asString? = some id →
      id ∈ replica.abandoned → motive replica items settled → motive replica (raw :: items) settled)
    (applied : ∀ replica raw items middle settled id event replayed,
      (raw.index "event_id").asString? = some id → id ∉ replica.abandoned →
      Event.stream scope.platform raw scope.account = .ok event →
      applyEvent scope replica event = .ok (middle, replayed) →
      motive middle items settled → motive replica (raw :: items) settled)
    {replica settled : Replica} {items : List Json} {report counted : PageReport}
    (h : applyItems scope replica report items = .ok (settled, counted)) :
    motive replica items settled := by
  induction items generalizing replica report with
  | nil =>
    obtain rfl : replica = settled := (Prod.ext_iff.mp (Except.ok.inj h)).1
    exact nil replica
  | cons raw items ih =>
    simp only [applyItems, bind_eq_ok, present_eq_ok] at h
    obtain ⟨id, hid, h⟩ := h
    split_ifs at h with habandoned
    · exact skipped replica raw items settled id hid habandoned (ih h)
    · obtain ⟨⟨middle, replayed⟩, hitem, h⟩ := bind_eq_ok.mp h
      unfold applyItem at hitem
      split at hitem
      · next result hresult =>
        obtain rfl := Except.ok.inj hitem
        obtain ⟨event, hevent, happlied⟩ := bind_eq_ok.mp hresult
        exact applied replica raw items middle settled id event replayed hid habandoned hevent
          happlied (ih h)
      · cases hitem

/-- What is noted along the items of a page: of every event that is applied at its turn, with the
database that it meets. -/
def alongPage {Note : Type} (scope : Scope) (note : Replica → Event → Note → Note) :
    Replica → Note → List Json → Note
  | _, noted, [] => noted
  | replica, noted, raw :: items =>
    if (raw.index "event_id").asString?.any fun id ↦ id ∈ replica.abandoned then
      alongPage scope note replica noted items
    else
      match Event.stream scope.platform raw scope.account with
      | .error _ => noted
      | .ok event =>
        match applyEvent scope replica event with
        | .error _ => noted
        | .ok (settled, _) => alongPage scope note settled (note replica event noted) items

/-- What every event keeps between the database and the notes holds after the items of a page. -/
theorem alongPage_invariant {Note : Type} {note : Replica → Event → Note → Note}
    {Invariant : Replica → Note → Prop}
    (hevent : ∀ replica event settled replayed noted, Invariant replica noted →
      event.validate scope.platform scope.account = .ok () →
      applyEvent scope replica event = .ok (settled, replayed) →
      Invariant settled (note replica event noted))
    {replica settled : Replica} {items : List Json} {report counted : PageReport}
    (h : applyItems scope replica report items = .ok (settled, counted)) :
    ∀ noted, Invariant replica noted →
      Invariant settled (alongPage scope note replica noted items) := by
  refine applyItems_induction (motive := fun replica items settled ↦
    ∀ noted, Invariant replica noted →
      Invariant settled (alongPage scope note replica noted items)) ?_ ?_ ?_ h
  · intro replica noted hnoted
    exact hnoted
  · intro replica raw items settled id hid habandoned ih noted hnoted
    rw [alongPage, if_pos (by simp [hid, habandoned])]
    exact ih noted hnoted
  · intro replica raw items middle settled id event replayed hid habandoned hstream happlied ih
      noted hnoted
    rw [alongPage, if_neg (by simp [hid, habandoned]), hstream]
    simp only [happlied]
    exact ih _ (hevent replica event middle replayed noted hnoted
      (Event.stream_eq_ok.mp hstream).2.2 happlied)

/-- A page is applied as a whole, from the position it expects, or not at all. -/
theorem apply_cases (scope : Scope) (replica : Replica) (response : Json) (expectedCursor : Option String)
    (pageSize : Nat) (skip : List String) (at_ : String) :
    apply scope replica response expectedCursor pageSize skip at_ = replica ∨
      replica.cursor = expectedCursor ∧ ∃ applied reconciled report counted,
        applyItems scope (abandon replica skip) report (responseItems response) =
          .ok (applied, counted) ∧
        reconcile scope applied = .ok reconciled ∧
        moveCursor reconciled response =
          .ok (apply scope replica response expectedCursor pageSize skip at_) := by
  unfold apply
  split
  · next settled report h =>
    simp only [applyTransaction, bind_eq_ok, ensure_eq_ok, beq_iff_eq] at h
    obtain ⟨_, -, _, -, _, -, held, hheld, _, hcursor, ⟨applied, counted⟩, happlied, reconciled,
      hreconciled, moved, hmoved, _, -, h⟩ := h
    obtain rfl : moved = settled := (Prod.ext_iff.mp (Except.ok.inj h)).1
    simp only [heldCursor, bind_eq_ok] at hheld
    obtain ⟨_, -, _, -, hheld⟩ := hheld
    refine Or.inr ⟨(Except.ok.inj hheld).trans hcursor, applied, reconciled, _, counted,
      happlied, hreconciled, hmoved⟩
  · exact Or.inl rfl

theorem moveCursor_cases {replica settled : Replica} {response : Json}
    (h : moveCursor replica response = .ok settled) :
    settled = { replica with cursor := settled.cursor } := by
  unfold moveCursor at h
  split at h
  · rw [← Except.ok.inj h]
  · rw [← Except.ok.inj h]
  · cases h

end Pages

end AiStp.Sync.Client
