import AiStp.Library.Naming
import AiStp.Library.Runs
import AiStp.Telemetry.Services

/-!
# Erasure

While a subject has revoked its telemetry, or is erased, no operation stores a row that names it
(`apply_noNewRows`): every service asks the rights of both the account and the device before it
writes, and what is already stored is only ever rewritten under the same names. An erasure deletes
what there is, and its state is never left (`erased_apply`). So from the erasure on, along every run,
no governed table names the subject.
-/

set_option autoImplicit false

namespace AiStp.Telemetry

open Library Runs

/-! ### Rows that name a subject -/

/-- A governed row of an organization. -/
inductive RowId where
  | event (eventId : String)
  | usage (eventId : String)
  | operation (operationId : String)
  | inventory (scanId : String)
  | heartbeat (deviceId : String)
  | heartbeatEvent (deviceId : String) (checkedAt : Nat)
deriving DecidableEq

section Names

variable (organizationId : String) (subject : Subject)

def eventNames (key : String × String) (row : TelemetryEvent) : Prop :=
  key.1 = organizationId ∧ subject.names row.accountId row.deviceId = true

def attributionNames {Row : Type} (attribution : Row → Attribution) (key : String × String)
    (row : Row) : Prop :=
  key.1 = organizationId ∧ subject.names (some (attribution row).employeeAccountId)
    (some (attribution row).deviceId) = true

def heartbeatNames (key : String × String) (row : InstallationHeartbeat) : Prop :=
  key.1 = organizationId ∧ subject.names (some row.accountId) (some key.2) = true

def heartbeatEventNames (key : String × String × Nat) (row : InstallationHeartbeatEvent) : Prop :=
  key.1 = organizationId ∧ subject.names (some row.accountId) (some key.2.1) = true

/-- The governed row is stored and names the subject. -/
def Store.Holds (store : Store) : RowId → Prop
  | .event eventId =>
    store.events.NamedAt (eventNames organizationId subject) (organizationId, eventId)
  | .usage eventId => store.usage.NamedAt
    (attributionNames organizationId subject (·.toAttribution)) (organizationId, eventId)
  | .operation operationId => store.operations.NamedAt
    (attributionNames organizationId subject (·.toAttribution)) (organizationId, operationId)
  | .inventory scanId => store.inventory.NamedAt
    (attributionNames organizationId subject (·.toAttribution)) (organizationId, scanId)
  | .heartbeat deviceId =>
    store.heartbeats.NamedAt (heartbeatNames organizationId subject) (organizationId, deviceId)
  | .heartbeatEvent deviceId checkedAt => store.heartbeatEvents.NamedAt
    (heartbeatEventNames organizationId subject) (organizationId, deviceId, checkedAt)

/-- No governed table of the organization names the subject where it did not before. -/
structure NoNewRows (before after : Store) : Prop where
  events : before.events.NamesNoMore (eventNames organizationId subject) after.events
  usage : before.usage.NamesNoMore
    (attributionNames organizationId subject (·.toAttribution)) after.usage
  operations : before.operations.NamesNoMore
    (attributionNames organizationId subject (·.toAttribution)) after.operations
  inventory : before.inventory.NamesNoMore
    (attributionNames organizationId subject (·.toAttribution)) after.inventory
  heartbeats : before.heartbeats.NamesNoMore (heartbeatNames organizationId subject)
    after.heartbeats
  heartbeatEvents : before.heartbeatEvents.NamesNoMore
    (heartbeatEventNames organizationId subject) after.heartbeatEvents

end Names

section Relation

variable {organizationId : String} {subject : Subject} {before middle after : Store}

theorem NoNewRows.refl (store : Store) : NoNewRows organizationId subject store store :=
  ⟨.refl _ _, .refl _ _, .refl _ _, .refl _ _, .refl _ _, .refl _ _⟩

theorem NoNewRows.trans (hfirst : NoNewRows organizationId subject before middle)
    (hsecond : NoNewRows organizationId subject middle after) :
    NoNewRows organizationId subject before after :=
  ⟨hfirst.events.trans hsecond.events, hfirst.usage.trans hsecond.usage,
    hfirst.operations.trans hsecond.operations, hfirst.inventory.trans hsecond.inventory,
    hfirst.heartbeats.trans hsecond.heartbeats,
    hfirst.heartbeatEvents.trans hsecond.heartbeatEvents⟩

theorem NoNewRows.holds (h : NoNewRows organizationId subject before after) {row : RowId}
    (hrow : after.Holds organizationId subject row) : before.Holds organizationId subject row := by
  cases row with
  | event eventId => exact h.events _ hrow
  | usage eventId => exact h.usage _ hrow
  | operation operationId => exact h.operations _ hrow
  | inventory scanId => exact h.inventory _ hrow
  | heartbeat deviceId => exact h.heartbeats _ hrow
  | heartbeatEvent deviceId checkedAt => exact h.heartbeatEvents _ hrow

end Relation

/-! ### Services that store rows -/

variable {first : Store} {report : HeartbeatReport}

section Services

variable {organizationId tenantId : String} {subject : Subject} {store after : Store} {now : Nat}
  {caller : Caller}

section

variable (hblocked : subjectBlocked store organizationId subject = true)
include hblocked

/-- The rights of both parties of a row cover every subject that it names. -/
theorem blocked_of_names {accountId deviceId : Option String}
    (hnames : subject.names accountId deviceId = true) :
    accountId.any (subjectBlocked store organizationId <| .account ·) = true ∨
      deviceId.any (subjectBlocked store organizationId <| .device ·) = true := by
  cases subject with
  | account subjectId =>
    have haccount : accountId = some subjectId := of_decide_eq_true hnames
    rw [haccount]
    exact .inl hblocked
  | device subjectId =>
    have hdevice : deviceId = some subjectId := of_decide_eq_true hnames
    rw [hdevice]
    exact .inr hblocked

theorem ingestEvent_noNewRows {kind : String} {columns : EventColumns}
    (h : ingestEvent tenantId kind columns now store = some after) :
    NoNewRows organizationId subject store after := by
  unfold ingestEvent at h
  split_ifs at h with hrefused
  split at h
  · exact Option.some.inj h ▸ .refl store
  · next events hinsert =>
    rw [← Option.some.inj h]
    refine { NoNewRows.refl store with events := Table.namesNoMore_insert? ?_ hinsert }
    intro ⟨htenant, hnames⟩
    change tenantId = organizationId at htenant
    rw [htenant] at hrefused
    rcases blocked_of_names hblocked hnames with haccount | hdevice
    · exact hrefused (.inl haccount)
    · exact hrefused (.inr (.inl hdevice))

theorem not_admitted {named : String} {fact : Attribution} {moment : Nat}
    (hnames : subject.names (some fact.employeeAccountId) (some fact.deviceId) = true) :
    admitted store organizationId caller now named fact moment = false := by
  rw [Bool.eq_false_iff]
  intro hadmitted
  unfold admitted at hadmitted
  obtain ⟨-, -, -, -, haccount, hdevice, -⟩ := of_decide_eq_true hadmitted
  rcases blocked_of_names hblocked hnames with hfound | hfound
  · exact haccount hfound
  · exact hdevice hfound

theorem attributionNames_not_of_admitted {Row : Type} {attribution : Row → Attribution} {row : Row}
    {key named : String} {moment : Nat}
    (hadmitted : admitted store tenantId caller now named (attribution row) moment = true) :
    ¬ attributionNames organizationId subject attribution (tenantId, key) row := by
  intro ⟨htenant, hnames⟩
  change tenantId = organizationId at htenant
  rw [htenant, not_admitted hblocked hnames] at hadmitted
  cases hadmitted

end

theorem repeatUsage_attribution {stored reported kept : RuntimeUsageEvent}
    (h : repeatUsage stored reported = some kept) : kept.toAttribution = stored.toAttribution := by
  unfold repeatUsage at h
  split_ifs at h <;> rw [← Option.some.inj h]

variable {state : Store × Receipt}

section

variable (hblocked : subjectBlocked first organizationId subject = true)
include hblocked

theorem ingestUsage_noNewRows {event : ReportedUsage} :
    NoNewRows organizationId subject state.1
      (ingestUsage tenantId caller now first state event).1 := by
  unfold ingestUsage
  dsimp only
  split_ifs with hadmitted
  · split
    · refine { NoNewRows.refl state.1 with usage := Table.namesNoMore_set fun hnames ↦ ?_ }
      exact absurd hnames (attributionNames_not_of_admitted hblocked hadmitted)
    · next stored hstored =>
      split
      · exact .refl state.1
      · next kept hkept =>
        refine { NoNewRows.refl state.1 with usage := Table.namesNoMore_set fun hnames ↦ ?_ }
        refine ⟨stored, hstored, hnames.1, ?_⟩
        show subject.names (some stored.toAttribution.employeeAccountId)
          (some stored.toAttribution.deviceId) = true
        rw [← repeatUsage_attribution hkept]
        exact hnames.2
  · exact .refl state.1

theorem ingestOperation_noNewRows {fact : ReportedOperation} :
    NoNewRows organizationId subject state.1
      (ingestOperation tenantId caller now first state fact).1 := by
  unfold ingestOperation
  dsimp only
  split_ifs with hadmitted
  · split
    · refine { NoNewRows.refl state.1 with operations := Table.namesNoMore_set fun hnames ↦ ?_ }
      exact absurd hnames (attributionNames_not_of_admitted hblocked hadmitted)
    · split_ifs <;> exact .refl state.1
  · exact .refl state.1

theorem ingestSnapshot_noNewRows {snapshot : ReportedSnapshot} :
    NoNewRows organizationId subject state.1
      (ingestSnapshot tenantId caller now first state snapshot).1 := by
  unfold ingestSnapshot
  dsimp only
  split_ifs with hadmitted
  · split
    · refine { NoNewRows.refl state.1 with inventory := Table.namesNoMore_set fun hnames ↦ ?_ }
      exact absurd hnames (attributionNames_not_of_admitted hblocked hadmitted)
    · split_ifs <;> exact .refl state.1
  · exact .refl state.1

end

/-- A batch stores no row that its items do not. -/
theorem foldl_noNewRows {Item : Type} {ingest : Store × Receipt → Item → Store × Receipt}
    (hingest : ∀ state item, NoNewRows organizationId subject state.1 (ingest state item).1)
    (batch : List Item) (state : Store × Receipt) :
    NoNewRows organizationId subject state.1 (batch.foldl ingest state).1 := by
  induction batch generalizing state with
  | nil => exact .refl state.1
  | cons item batch ih => exact (hingest state item).trans (ih (ingest state item))

theorem writeHeartbeat_noNewRows {revision : Nat}
    (haccount : ¬ subjectBlocked store tenantId (.account report.accountId) = true)
    (hdevice : ¬ subjectBlocked store tenantId (.device report.deviceId) = true)
    (hblocked : subjectBlocked store organizationId subject = true)
    (h : writeHeartbeat tenantId report now revision store = some after) :
    NoNewRows organizationId subject store after := by
  obtain ⟨events, hinsert, rfl⟩ := Option.map_eq_some_iff.mp h
  have hfree : tenantId = organizationId →
      ¬ subject.names (some report.accountId) (some report.deviceId) = true := by
    intro htenant hnames
    rw [htenant] at haccount hdevice
    rcases blocked_of_names hblocked hnames with hfound | hfound
    · exact haccount hfound
    · exact hdevice hfound
  refine { NoNewRows.refl store with
    heartbeats := Table.namesNoMore_set fun hnames ↦ absurd hnames.2 (hfree hnames.1)
    heartbeatEvents := Table.namesNoMore_insert? (fun hnames ↦ hfree hnames.1 hnames.2) hinsert }

theorem recordHeartbeat_noNewRows (hblocked : subjectBlocked store organizationId subject = true)
    (h : recordHeartbeat tenantId report now store = some after) :
    NoNewRows organizationId subject store after := by
  unfold recordHeartbeat at h
  split at h
  · next hadmitted =>
    obtain ⟨-, -, haccount, hdevice, -⟩ := hadmitted
    split at h
    · exact writeHeartbeat_noNewRows haccount hdevice hblocked h
    · split_ifs at h
      · exact writeHeartbeat_noNewRows haccount hdevice hblocked h
      · exact Option.some.inj h ▸ .refl store
  · cases h

end Services

/-! ### Rights, erasures and retention -/

section Erasures

variable {organizationId tenantId : String} {subject other : Subject} {store after : Store}
  {now : Nat}

theorem setRight_noNewRows (row : TelemetryRevocation) :
    NoNewRows organizationId subject store (setRight tenantId other row store) :=
  ⟨.refl _ _, .refl _ _, .refl _ _, .refl _ _, .refl _ _, .refl _ _⟩

theorem eraseStreamSubjectRows_noNewRows :
    NoNewRows organizationId subject store (eraseStreamSubjectRows tenantId other store) :=
  ⟨.refl _ _, Table.namesNoMore_filter _, Table.namesNoMore_filter _, Table.namesNoMore_filter _,
    Table.namesNoMore_filter _, Table.namesNoMore_filter _⟩

theorem anonymizeSubject_noNewRows :
    NoNewRows organizationId subject store (anonymizeSubject tenantId other store) := by
  refine NoNewRows.trans ?_ eraseStreamSubjectRows_noNewRows
  refine { NoNewRows.refl store with events := Table.namesNoMore_mapRows fun key row hnames ↦ ?_ }
  split_ifs at hnames
  · exact absurd hnames.2 (by cases subject <;> simp [Subject.names])
  · exact hnames

theorem deleteSubject_noNewRows (mode : ErasureMode) :
    NoNewRows organizationId subject store (deleteSubject tenantId other now store mode) := by
  cases mode with
  | delete =>
    refine NoNewRows.trans ?_ (setRight_noNewRows _)
    refine NoNewRows.trans ?_ eraseStreamSubjectRows_noNewRows
    exact { NoNewRows.refl store with events := Table.namesNoMore_filter _ }
  | anonymize => exact anonymizeSubject_noNewRows.trans (setRight_noNewRows _)

theorem revokeSubject_noNewRows {anonymize : Bool}
    (h : revokeSubject tenantId other anonymize now store = some after) :
    NoNewRows organizationId subject store after := by
  unfold revokeSubject at h
  dsimp only at h
  split_ifs at h
  · exact Option.some.inj h ▸ anonymizeSubject_noNewRows.trans (setRight_noNewRows _)
  · exact Option.some.inj h ▸ setRight_noNewRows _

theorem recordRight_noNewRows {legalBasis : String} {noticeRevision : Nat}
    (h : recordRight tenantId other legalBasis noticeRevision now store = some after) :
    NoNewRows organizationId subject store after := by
  unfold recordRight at h
  split_ifs at h
  exact Option.some.inj h ▸ setRight_noNewRows _

theorem applyRetention_noNewRows (limit : Nat) :
    NoNewRows organizationId subject store (applyRetention tenantId now limit store) :=
  ⟨Table.namesNoMore_filter _, Table.namesNoMore_filter _, Table.namesNoMore_filter _,
    Table.namesNoMore_filter _, Table.namesNoMore_filter _, Table.namesNoMore_filter _⟩

/-- An erasure leaves no row that names the subject. -/
theorem deleteSubject_not_holds (row : RowId) :
    ¬ (deleteSubject organizationId subject now store .delete).Holds organizationId subject row := by
  cases row with
  | event eventId =>
    refine Table.not_namedAt_filter fun key event hkeep hnames ↦ ?_
    simp only [namesEvent, decide_eq_true_eq] at hkeep
    exact hkeep hnames
  | usage | operation | inventory | heartbeat | heartbeatEvent =>
    refine Table.not_namedAt_filter fun key row hkeep hnames ↦ ?_
    simp only [decide_eq_true_eq] at hkeep
    exact hkeep hnames

end Erasures

/-! ### One operation -/

section Operations

variable {organizationId tenantId : String} {subject : Subject} {store : Store} {now : Nat}

theorem noNewRows_of_some {outcome : Option Store}
    (h : ∀ after, outcome = some after → NoNewRows organizationId subject store after) :
    NoNewRows organizationId subject store (outcome.getD store) := by
  cases outcome with
  | none => exact .refl store
  | some after => exact h after rfl

/-- No operation stores a row that names a subject whose telemetry is blocked. -/
theorem apply_noNewRows (hblocked : subjectBlocked store organizationId subject = true)
    (operation : Operation) :
    NoNewRows organizationId subject store (operation.apply tenantId now store) := by
  cases operation with
  | ingestEvent kind columns =>
    exact noNewRows_of_some fun after h ↦ ingestEvent_noNewRows hblocked h
  | ingestEvents batch caller =>
    show NoNewRows organizationId subject store (ingestEvents tenantId batch caller now store).1
    unfold ingestEvents
    split
    · exact foldl_noNewRows (fun state event ↦ ingestUsage_noNewRows hblocked) batch (store, {})
    · exact .refl store
  | ingestOperations batch caller =>
    exact foldl_noNewRows (fun state fact ↦ ingestOperation_noNewRows hblocked) batch (store, {})
  | ingestSnapshots batch caller =>
    show NoNewRows organizationId subject store (ingestSnapshots tenantId batch caller now store).1
    unfold ingestSnapshots
    split
    · exact foldl_noNewRows (fun state snapshot ↦ ingestSnapshot_noNewRows hblocked) batch
        (store, {})
    · exact .refl store
  | recordHeartbeat report =>
    exact noNewRows_of_some fun after h ↦ recordHeartbeat_noNewRows hblocked h
  | recordRight other legalBasis noticeRevision =>
    exact noNewRows_of_some fun after h ↦ recordRight_noNewRows h
  | revokeSubject other anonymize =>
    exact noNewRows_of_some fun after h ↦ revokeSubject_noNewRows h
  | deleteSubject other mode => exact deleteSubject_noNewRows mode
  | applyRetention limit => exact applyRetention_noNewRows limit
  | writePolicy policy => exact ⟨.refl _ _, .refl _ _, .refl _ _, .refl _ _, .refl _ _, .refl _ _⟩

end Operations

/-! ### Erased subjects -/

/-- The rights of the subject say that it was erased. -/
def Erased (store : Store) (organizationId : String) (subject : Subject) : Prop :=
  (right store organizationId subject).state = .deleted

def Revoked (store : Store) (organizationId : String) (subject : Subject) : Prop :=
  (right store organizationId subject).state = .revoked

section Erased

variable {organizationId tenantId : String} {subject other : Subject} {store after : Store}
  {now : Nat}

theorem blocked_of_state (h : Erased store organizationId subject ∨
    Revoked store organizationId subject) : subjectBlocked store organizationId subject = true := by
  unfold Erased Revoked right at h
  unfold subjectBlocked
  cases hright : store.rights.get? (organizationId, subject) with
  | none =>
    rw [hright] at h
    rcases h with h | h <;> cases h
  | some row =>
    rw [hright] at h
    simp only [Option.getD_some] at h
    simp only [Option.any_some, decide_eq_true_eq]
    exact h.symm

theorem right_of_rights_eq (h : after.rights = store.rights) :
    right after organizationId subject = right store organizationId subject := by
  unfold right
  rw [h]

theorem foldl_rights {Item : Type} {ingest : Store × Receipt → Item → Store × Receipt}
    (hingest : ∀ state item, (ingest state item).1.rights = state.1.rights) (batch : List Item)
    (state : Store × Receipt) : (batch.foldl ingest state).1.rights = state.1.rights := by
  induction batch generalizing state with
  | nil => rfl
  | cons item batch ih => exact (ih (ingest state item)).trans (hingest state item)

theorem ingestEvent_rights {kind : String} {columns : EventColumns}
    (h : ingestEvent tenantId kind columns now store = some after) :
    after.rights = store.rights := by
  unfold ingestEvent at h
  split_ifs at h
  split at h <;> rw [← Option.some.inj h]

theorem recordHeartbeat_rights (h : recordHeartbeat tenantId report now store = some after) :
    after.rights = store.rights := by
  have hwrite : ∀ revision, writeHeartbeat tenantId report now revision store = some after →
      after.rights = store.rights := by
    intro revision hwritten
    obtain ⟨events, -, rfl⟩ := Option.map_eq_some_iff.mp hwritten
    rfl
  unfold recordHeartbeat at h
  split at h
  · split at h
    · exact hwrite _ h
    · split_ifs at h
      · exact hwrite _ h
      · rw [← Option.some.inj h]
  · cases h

variable {caller : Caller}

theorem ingestUsage_rights (state : Store × Receipt) (event : ReportedUsage) :
    (ingestUsage tenantId caller now first state event).1.rights = state.1.rights := by
  unfold ingestUsage
  dsimp only
  split_ifs
  · split
    · rfl
    · split <;> rfl
  · rfl

theorem ingestOperation_rights (state : Store × Receipt) (fact : ReportedOperation) :
    (ingestOperation tenantId caller now first state fact).1.rights = state.1.rights := by
  unfold ingestOperation
  dsimp only
  split_ifs
  · split
    · rfl
    · split_ifs <;> rfl
  · rfl

theorem ingestSnapshot_rights (state : Store × Receipt) (snapshot : ReportedSnapshot) :
    (ingestSnapshot tenantId caller now first state snapshot).1.rights = state.1.rights := by
  unfold ingestSnapshot
  dsimp only
  split_ifs
  · split
    · rfl
    · split_ifs <;> rfl
  · rfl

theorem recordRight_rights {legalBasis : String} {noticeRevision : Nat}
    (h : recordRight tenantId other legalBasis noticeRevision now store = some after) :
    ¬ Erased store tenantId other ∧ ∃ row,
      after.rights = store.rights.set (tenantId, other) row ∧ row.state ≠ .deleted := by
  unfold recordRight at h
  split_ifs at h with hstate
  rw [← Option.some.inj h]
  exact ⟨hstate, _, rfl, fun hdeleted ↦ nomatch hdeleted⟩

theorem revokeSubject_rights {anonymize : Bool}
    (h : revokeSubject tenantId other anonymize now store = some after) :
    ¬ Erased store tenantId other ∧ ∃ row,
      after.rights = store.rights.set (tenantId, other) row ∧ row.state ≠ .deleted := by
  unfold revokeSubject at h
  dsimp only at h
  split_ifs at h with hstate
  · rw [← Option.some.inj h]
    exact ⟨hstate, _, rfl, fun hdeleted ↦ nomatch hdeleted⟩
  · rw [← Option.some.inj h]
    exact ⟨hstate, _, rfl, fun hdeleted ↦ nomatch hdeleted⟩

/-- What an operation that writes the rights of a subject, unless it is erased, does to them. -/
theorem rights_of_some {outcome : Option Store} {erasure : Prop}
    (h : ∀ after, outcome = some after → ¬ Erased store tenantId other ∧ ∃ row,
      after.rights = store.rights.set (tenantId, other) row ∧ row.state ≠ .deleted) :
    (outcome.getD store).rights = store.rights ∨
      ∃ row, (outcome.getD store).rights = store.rights.set (tenantId, other) row ∧
        (Erased store tenantId other → row.state = .deleted) ∧
        (row.state = .deleted → Erased store tenantId other ∨ erasure) := by
  cases outcome with
  | none => exact .inl rfl
  | some after =>
    obtain ⟨hkept, row, hset, hstate⟩ := h after rfl
    exact .inr ⟨row, hset, fun herased ↦ absurd herased hkept, fun hdeleted ↦ absurd hdeleted hstate⟩

/-- What an operation does to the rights: nothing, or it writes those of one subject. They are never
changed from erased, and changed to erased by an erasure only. -/
theorem apply_rights (tenantId : String) (now : Nat) (store : Store) (operation : Operation) :
    (operation.apply tenantId now store).rights = store.rights ∨
      ∃ other row, (operation.apply tenantId now store).rights =
        store.rights.set (tenantId, other) row ∧
        (Erased store tenantId other → row.state = .deleted) ∧
        (row.state = .deleted → Erased store tenantId other ∨
          operation = .deleteSubject other .delete) := by
  have hsome : ∀ outcome : Option Store, (∀ later, outcome = some later →
      later.rights = store.rights) → (outcome.getD store).rights = store.rights := by
    intro outcome hlater
    cases outcome with
    | none => rfl
    | some later => exact hlater later rfl
  cases operation with
  | ingestEvent kind columns => exact .inl (hsome _ fun later ↦ ingestEvent_rights)
  | ingestEvents batch caller =>
    left
    show (ingestEvents tenantId batch caller now store).1.rights = store.rights
    unfold ingestEvents
    split
    · exact foldl_rights ingestUsage_rights batch (store, {})
    · rfl
  | ingestOperations batch caller =>
    exact .inl (foldl_rights ingestOperation_rights batch (store, {}))
  | ingestSnapshots batch caller =>
    left
    show (ingestSnapshots tenantId batch caller now store).1.rights = store.rights
    unfold ingestSnapshots
    split
    · exact foldl_rights ingestSnapshot_rights batch (store, {})
    · rfl
  | recordHeartbeat report => exact .inl (hsome _ fun later ↦ recordHeartbeat_rights)
  | recordRight other legalBasis noticeRevision =>
    exact (rights_of_some fun later ↦ recordRight_rights).imp_right fun hset ↦ ⟨other, hset⟩
  | revokeSubject other anonymize =>
    exact (rights_of_some fun later ↦ revokeSubject_rights).imp_right fun hset ↦ ⟨other, hset⟩
  | deleteSubject other mode =>
    right
    cases mode with
    | delete => exact ⟨other, _, rfl, fun _ ↦ rfl, fun _ ↦ .inr rfl⟩
    | anonymize =>
      refine ⟨other, _, rfl, fun herased ↦ ?_, fun hdeleted ↦ .inl ?_⟩
      · have hstate : (right store tenantId other).state = .deleted := herased
        show (if (right store tenantId other).state ≠ .deleted then RightState.revoked
          else (right store tenantId other).state) = .deleted
        rw [if_neg (not_not.mpr hstate), hstate]
      · by_contra herased
        have hstate : (right store tenantId other).state ≠ .deleted := herased
        change (if (right store tenantId other).state ≠ .deleted then RightState.revoked
          else (right store tenantId other).state) = .deleted at hdeleted
        rw [if_pos hstate] at hdeleted
        cases hdeleted
  | applyRetention limit => exact .inl rfl
  | writePolicy policy => exact .inl rfl

theorem erased_of_set {other : Subject} {row : TelemetryRevocation}
    (h : after.rights = store.rights.set (tenantId, other) row) :
    Erased after organizationId subject ↔
      if (organizationId, subject) = (tenantId, other) then row.state = .deleted
      else Erased store organizationId subject := by
  unfold Erased right
  rw [h, Table.get?_set]
  split <;> rfl

/-- A subject that is erased stays erased. -/
theorem erased_apply (herased : Erased store organizationId subject) (operation : Operation) :
    Erased (operation.apply tenantId now store) organizationId subject := by
  rcases apply_rights tenantId now store operation with
    hsame | ⟨other, row, hset, hkeep, -⟩
  · unfold Erased
    rw [right_of_rights_eq hsame]
    exact herased
  · rw [erased_of_set hset]
    split_ifs with hsubject
    · obtain ⟨rfl, rfl⟩ := Prod.mk.inj hsubject
      exact hkeep herased
    · exact herased

/-- No governed table names a subject that is erased. -/
def Clean (organizationId : String) (subject : Subject) (store : Store) : Prop :=
  Erased store organizationId subject → ∀ row, ¬ store.Holds organizationId subject row

/-- A subject becomes erased by an erasure, which leaves none of its rows. -/
theorem clean_apply (hclean : Clean organizationId subject store) (operation : Operation) :
    Clean organizationId subject (operation.apply tenantId now store) := by
  intro hafter row hrow
  have hkept : ¬ Erased store organizationId subject := by
    intro herased
    exact hclean herased row ((apply_noNewRows (blocked_of_state (.inl herased)) operation).holds
      hrow)
  rcases apply_rights tenantId now store operation with
    hsame | ⟨other, written, hset, -, hnew⟩
  · unfold Erased at hafter
    rw [right_of_rights_eq hsame] at hafter
    exact hkept hafter
  · rw [erased_of_set hset] at hafter
    split_ifs at hafter with hsubject
    · obtain ⟨rfl, rfl⟩ := Prod.mk.inj hsubject
      rcases hnew hafter with herased | rfl
      · exact hkept herased
      · exact deleteSubject_not_holds row hrow
    · exact hkept hafter

end Erased

/-! ### Runs -/

section Runs

variable {organizationId : String} {subject : Subject}

theorem holds_platform {store : Store} {devices : Table String Device}
    {projects : List (String × String)} {row : RowId} :
    Store.Holds organizationId subject { store with devices := devices, projects := projects } row ↔
      store.Holds organizationId subject row := by
  cases row <;> rfl

theorem step_erased (store : Store) (step : Step) (herased : Erased store organizationId subject) :
    Erased (store.step step) organizationId subject := by
  let current : Store := { store with devices := step.devices, projects := step.projects }
  have hcurrent : Erased current organizationId subject := herased
  exact erased_apply hcurrent step.operation

theorem step_clean (store : Store) (step : Step) (hclean : Clean organizationId subject store) :
    Clean organizationId subject (store.step step) := by
  let current : Store := { store with devices := step.devices, projects := step.projects }
  have hcurrent : Clean organizationId subject current :=
    fun herased row hrow ↦ hclean herased row (holds_platform.mp hrow)
  exact clean_apply hcurrent step.operation

end Runs

end AiStp.Telemetry
