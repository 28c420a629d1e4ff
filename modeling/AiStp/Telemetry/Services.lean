import AiStp.Library.Tables

/-!
# Telemetry services

Six tables are governed: telemetry events, usage events, operation facts, inventory snapshots and
heartbeats with their history. Five services write them, each for a caller who is signed in; the
rights service records what a subject, an account or a device, has agreed to, revokes it or erases
the subject. Every call is one transaction.
-/

set_option autoImplicit false

namespace AiStp.Telemetry

open Library

/-! ### Rows -/

inductive Subject where
  | account (accountId : String)
  | device (deviceId : String)
deriving DecidableEq

/-- A row with these columns names the subject. -/
def Subject.names (accountId deviceId : Option String) : Subject → Bool
  | .account subjectId => accountId = some subjectId
  | .device subjectId => deviceId = some subjectId

inductive RightState where
  | active
  | revoked
  | deleted
deriving DecidableEq

structure TelemetryRevocation where
  state : RightState := .active
  legalBasis : Option String := none
  noticeRevision : Nat := 0
  noticeAcknowledgedAt : Option Nat := none
  revokedAt : Option Nat := none
  deletionRequestedAt : Option Nat := none
  anonymizedAt : Option Nat := none
  deletedAt : Option Nat := none
deriving DecidableEq

inductive SubjectState where
  | active
  | anonymized
deriving DecidableEq

structure TelemetryEvent where
  kind : String
  accountId : Option String
  deviceId : Option String
  projectId : Option String
  /-- The other columns of the event. -/
  payload : List (String × String)
  subjectState : SubjectState
  occurredAt : Nat
deriving DecidableEq

/-- Who and what a reported fact is about. -/
structure Attribution where
  employeeAccountId : String
  deviceId : String
  projectId : Option String
deriving DecidableEq

inductive UsageSource where
  | agentReported
  | nativeHook
deriving DecidableEq

structure RuntimeUsageEvent extends Attribution where
  /-- The columns, besides the attribution, in which a repeated event has to agree. -/
  activity : List (String × String)
  source : UsageSource
  outcome : String
  invokedAt : Nat
deriving DecidableEq

structure InstallationOperationFact extends Attribution where
  factDigest : String
  occurredAt : Nat
  payload : List (String × String)
deriving DecidableEq

structure InstallationInventorySnapshot extends Attribution where
  snapshotDigest : String
  scannedAt : Nat
  payload : List (String × String)
deriving DecidableEq

structure InstallationHeartbeat where
  accountId : String
  cliVersion : String
  capabilities : List String
  lastSyncAt : Option Nat
  reportedState : String
  checkedAt : Nat
  receivedAt : Nat
  revision : Nat
deriving DecidableEq

structure InstallationHeartbeatEvent where
  accountId : String
  receivedAt : Nat
  reportedState : String
  intervalSeconds : Nat
  policyVersion : Nat
deriving DecidableEq

structure TelemetryPolicy where
  rawRetentionDays : Nat
  heartbeatEnabled : Bool
  inventoryScanEnabled : Bool
  usageCollectionEnabled : Bool
  heartbeatIntervalSeconds : Nat
  policyVersion : Nat
deriving DecidableEq

structure Device where
  accountId : String
  active : Bool
deriving DecidableEq

/-- The tables; the first part of a key is the organization. -/
structure Store where
  policies : Table String TelemetryPolicy
  rights : Table (String × Subject) TelemetryRevocation
  events : Table (String × String) TelemetryEvent
  usage : Table (String × String) RuntimeUsageEvent
  operations : Table (String × String) InstallationOperationFact
  inventory : Table (String × String) InstallationInventorySnapshot
  /-- By device. -/
  heartbeats : Table (String × String) InstallationHeartbeat
  /-- By device and the moment that was reported. -/
  heartbeatEvents : Table (String × String × Nat) InstallationHeartbeatEvent
  devices : Table String Device
  /-- The active projects of an organization. -/
  projects : List (String × String)

def Store.empty : Store where
  policies := .empty
  rights := .empty
  events := .empty
  usage := .empty
  operations := .empty
  inventory := .empty
  heartbeats := .empty
  heartbeatEvents := .empty
  devices := .empty
  projects := []

/-! ### Checks -/

def maxFutureSkew : Nat := 300

def daySeconds : Nat := 86400

def defaultRawRetentionDays : Nat := 90

def rawRetentionDays (store : Store) (organizationId : String) : Nat :=
  match (store.policies.get? organizationId).map (·.rawRetentionDays) with
  | none => defaultRawRetentionDays
  | some days => if days = 0 then defaultRawRetentionDays else days

/-- The subject has revoked its telemetry, or was erased. -/
def subjectBlocked (store : Store) (organizationId : String) (subject : Subject) : Bool :=
  (store.rights.get? (organizationId, subject)).any fun right ↦
    right.state = .revoked ∨ right.state = .deleted

structure Caller where
  accountId : String
  deviceId : Option String
deriving DecidableEq

/-- A caller may report for the active devices of their account, or only for the one in use. -/
def callerDevice (store : Store) (caller : Caller) (deviceId : String) : Bool :=
  (store.devices.get? deviceId).any (fun device ↦
    device.accountId = caller.accountId ∧ device.active) ∧
  (caller.deviceId = none ∨ caller.deviceId = some deviceId)

scoped instance lawful_pair : LawfulBEq (String × String) := inferInstance

/-- A fact is taken from its caller, for subjects that have not revoked their telemetry, within the
time that is retained. -/
def admitted (store : Store) (organizationId : String) (caller : Caller) (now : Nat)
    (named : String) (fact : Attribution) (moment : Nat) : Bool :=
  named = organizationId ∧ fact.employeeAccountId = caller.accountId ∧
    callerDevice store caller fact.deviceId ∧
    fact.projectId.all (fun projectId ↦ (organizationId, projectId) ∈ store.projects) ∧
    ¬ subjectBlocked store organizationId (.account fact.employeeAccountId) ∧
    ¬ subjectBlocked store organizationId (.device fact.deviceId) ∧
    moment ≤ now + maxFutureSkew ∧
    now ≤ moment + rawRetentionDays store organizationId * daySeconds

/-! ### Telemetry events -/

/-- The columns that an event may have, if it keeps within the boundary. -/
structure EventColumns where
  eventId : String
  accountId : Option String
  deviceId : Option String
  projectId : Option String
  payload : List (String × String)
  occurredAt : Nat
deriving DecidableEq

/-- A repeated event is answered with the stored one; an event that is refused fails the call. -/
def ingestEvent (organizationId kind : String) (columns : EventColumns) (now : Nat)
    (store : Store) : Option Store :=
  if columns.accountId.any (subjectBlocked store organizationId <| .account ·) ∨
      columns.deviceId.any (subjectBlocked store organizationId <| .device ·) ∨
      now + maxFutureSkew < columns.occurredAt then none
  else
    match store.events.insert? (organizationId, columns.eventId)
      { kind := kind
        accountId := columns.accountId
        deviceId := columns.deviceId
        projectId := columns.projectId
        payload := columns.payload
        subjectState := .active
        occurredAt := columns.occurredAt } with
    | none => some store
    | some events => some { store with events := events }

/-! ### Batches -/

/-- What became of the items of a batch. -/
structure Receipt where
  accepted : List String := []
  duplicates : List String := []
  rejected : List String := []
deriving DecidableEq

structure ReportedUsage where
  organizationId : String
  eventId : String
  row : RuntimeUsageEvent
deriving DecidableEq

/-- A repeated event has to agree with the stored one; what a hook reports is taken over from an
agent's report. -/
def repeatUsage (stored reported : RuntimeUsageEvent) : Option RuntimeUsageEvent :=
  if stored.toAttribution = reported.toAttribution ∧ stored.activity = reported.activity then
    if stored.source = .agentReported ∧ reported.source = .nativeHook then
      some { stored with
        source := reported.source
        outcome := reported.outcome
        invokedAt := reported.invokedAt }
    else some stored
  else none

def ingestUsage (organizationId : String) (caller : Caller) (now : Nat) (first : Store)
    (state : Store × Receipt) (event : ReportedUsage) : Store × Receipt :=
  let store := state.1
  let receipt := state.2
  let key := (organizationId, event.eventId)
  let rejected := { receipt with rejected := receipt.rejected ++ [event.eventId] }
  if admitted first organizationId caller now event.organizationId event.row.toAttribution
      event.row.invokedAt then
    match store.usage.get? key with
    | none => ({ store with usage := store.usage.set key event.row },
        { receipt with accepted := receipt.accepted ++ [event.eventId] })
    | some stored =>
      match repeatUsage stored event.row with
      | none => (store, rejected)
      | some kept => ({ store with usage := store.usage.set key kept },
          { receipt with duplicates := receipt.duplicates ++ [event.eventId] })
  else (store, rejected)

def ingestEvents (organizationId : String) (batch : List ReportedUsage) (caller : Caller)
    (now : Nat) (store : Store) : Store × Receipt :=
  if (store.policies.get? organizationId).any (·.usageCollectionEnabled) then
    batch.foldl (ingestUsage organizationId caller now store) (store, {})
  else (store, { rejected := batch.map (·.eventId) })

structure ReportedOperation where
  organizationId : String
  operationId : String
  row : InstallationOperationFact
deriving DecidableEq

def ingestOperation (organizationId : String) (caller : Caller) (now : Nat) (first : Store)
    (state : Store × Receipt) (fact : ReportedOperation) : Store × Receipt :=
  let store := state.1
  let receipt := state.2
  let key := (organizationId, fact.operationId)
  let rejected := { receipt with rejected := receipt.rejected ++ [fact.operationId] }
  if admitted first organizationId caller now fact.organizationId fact.row.toAttribution
      fact.row.occurredAt then
    match store.operations.get? key with
    | none => ({ store with operations := store.operations.set key fact.row },
        { receipt with accepted := receipt.accepted ++ [fact.operationId] })
    | some stored =>
      if stored.factDigest = fact.row.factDigest then
        (store, { receipt with duplicates := receipt.duplicates ++ [fact.operationId] })
      else (store, rejected)
  else (store, rejected)

def ingestOperations (organizationId : String) (batch : List ReportedOperation) (caller : Caller)
    (now : Nat) (store : Store) : Store × Receipt :=
  batch.foldl (ingestOperation organizationId caller now store) (store, {})

structure ReportedSnapshot where
  organizationId : String
  scanId : String
  row : InstallationInventorySnapshot
deriving DecidableEq

def ingestSnapshot (organizationId : String) (caller : Caller) (now : Nat) (first : Store)
    (state : Store × Receipt) (snapshot : ReportedSnapshot) : Store × Receipt :=
  let store := state.1
  let receipt := state.2
  let key := (organizationId, snapshot.scanId)
  let rejected := { receipt with rejected := receipt.rejected ++ [snapshot.scanId] }
  if admitted first organizationId caller now snapshot.organizationId snapshot.row.toAttribution
      snapshot.row.scannedAt then
    match store.inventory.get? key with
    | none => ({ store with inventory := store.inventory.set key snapshot.row },
        { receipt with accepted := receipt.accepted ++ [snapshot.scanId] })
    | some stored =>
      if stored.snapshotDigest = snapshot.row.snapshotDigest then
        (store, { receipt with duplicates := receipt.duplicates ++ [snapshot.scanId] })
      else (store, rejected)
  else (store, rejected)

def ingestSnapshots (organizationId : String) (batch : List ReportedSnapshot) (caller : Caller)
    (now : Nat) (store : Store) : Store × Receipt :=
  if (store.policies.get? organizationId).any (·.inventoryScanEnabled) then
    batch.foldl (ingestSnapshot organizationId caller now store) (store, {})
  else (store, { rejected := batch.map (·.scanId) })

/-! ### Heartbeats -/

structure HeartbeatReport where
  accountId : String
  deviceId : String
  policyVersion : Option Nat
  cliVersion : String
  capabilities : List String
  lastSyncAt : Option Nat
  reportedState : String
  checkedAt : Nat
deriving DecidableEq

def acceptsUpdate (row : InstallationHeartbeat) (checkedAt : Nat) : Bool :=
  row.checkedAt < checkedAt

/-- A report of the moment that is stored has to repeat what was stored for it. -/
def repeatsHeartbeat (store : Store) (organizationId : String) (row : InstallationHeartbeat)
    (report : HeartbeatReport) : Bool :=
  (store.heartbeatEvents.get? (organizationId, report.deviceId, report.checkedAt)).any
    (fun event ↦ some event.policyVersion = report.policyVersion) ∧
  row.cliVersion = report.cliVersion ∧ row.capabilities = report.capabilities ∧
    row.lastSyncAt = report.lastSyncAt ∧ row.reportedState = report.reportedState

def heartbeatRow (report : HeartbeatReport) (now revision : Nat) : InstallationHeartbeat where
  accountId := report.accountId
  cliVersion := report.cliVersion
  capabilities := report.capabilities
  lastSyncAt := report.lastSyncAt
  reportedState := report.reportedState
  checkedAt := report.checkedAt
  receivedAt := now
  revision := revision

def defaultHeartbeatIntervalSeconds : Nat := 21600

def heartbeatPolicyVersion (store : Store) (organizationId : String) : Nat :=
  ((store.policies.get? organizationId).map (·.policyVersion)).getD 0

/-- The row of the device with a report, and a row of its history. -/
def writeHeartbeat (organizationId : String) (report : HeartbeatReport) (now revision : Nat)
    (store : Store) : Option Store :=
  (store.heartbeatEvents.insert? (organizationId, report.deviceId, report.checkedAt)
    { accountId := report.accountId
      receivedAt := now
      reportedState := report.reportedState
      intervalSeconds := ((store.policies.get? organizationId).map
        (·.heartbeatIntervalSeconds)).getD defaultHeartbeatIntervalSeconds
      policyVersion := heartbeatPolicyVersion store organizationId }).map fun events ↦
  { store with
    heartbeats := store.heartbeats.set (organizationId, report.deviceId)
      (heartbeatRow report now revision)
    heartbeatEvents := events }

/-- A heartbeat that is refused fails the call. -/
def recordHeartbeat (organizationId : String) (report : HeartbeatReport) (now : Nat)
    (store : Store) : Option Store :=
  if ((store.policies.get? organizationId).all (·.heartbeatEnabled) ∧
      report.policyVersion.all (· = heartbeatPolicyVersion store organizationId) ∧
      ¬ subjectBlocked store organizationId (.account report.accountId) ∧
      ¬ subjectBlocked store organizationId (.device report.deviceId) ∧
      report.checkedAt ≤ now + maxFutureSkew) then
    match store.heartbeats.get? (organizationId, report.deviceId) with
    | none => writeHeartbeat organizationId report now 1 store
    | some row =>
      if row.accountId ≠ report.accountId then none
      else if acceptsUpdate row report.checkedAt then
        writeHeartbeat organizationId report now (row.revision + 1) store
      else if report.policyVersion ≠ none ∧ row.checkedAt = report.checkedAt ∧
          ¬ repeatsHeartbeat store organizationId row report then none
      else some store
  else none

/-! ### Rights -/

def right (store : Store) (organizationId : String) (subject : Subject) : TelemetryRevocation :=
  (store.rights.get? (organizationId, subject)).getD {}

def setRight (organizationId : String) (subject : Subject) (row : TelemetryRevocation)
    (store : Store) : Store :=
  { store with rights := store.rights.set (organizationId, subject) row }

def recordRight (organizationId : String) (subject : Subject) (legalBasis : String)
    (noticeRevision now : Nat) (store : Store) : Option Store :=
  if (right store organizationId subject).state = .deleted then none
  else some (setRight organizationId subject
    { state := .active
      legalBasis := some legalBasis
      noticeRevision := noticeRevision
      noticeAcknowledgedAt := some now } store)

/-- Deletes the rows of a subject from the tables of the streams. -/
def eraseStreamSubjectRows (organizationId : String) (subject : Subject) (store : Store) : Store :=
  let attributed (key : String) (fact : Attribution) : Bool :=
    key = organizationId ∧ subject.names (some fact.employeeAccountId) (some fact.deviceId)
  { store with
    usage := store.usage.filter fun key row ↦ ¬ attributed key.1 row.toAttribution
    operations := store.operations.filter fun key row ↦ ¬ attributed key.1 row.toAttribution
    inventory := store.inventory.filter fun key row ↦ ¬ attributed key.1 row.toAttribution
    heartbeats := store.heartbeats.filter fun key row ↦
      ¬ (key.1 = organizationId ∧ subject.names (some row.accountId) (some key.2))
    heartbeatEvents := store.heartbeatEvents.filter fun key row ↦
      ¬ (key.1 = organizationId ∧ subject.names (some row.accountId) (some key.2.1)) }

def namesEvent (organizationId : String) (subject : Subject) (key : String × String)
    (row : TelemetryEvent) : Bool :=
  key.1 = organizationId ∧ subject.names row.accountId row.deviceId

/-- Strips the subject from its events, and deletes its rows in the streams. -/
def anonymizeSubject (organizationId : String) (subject : Subject) (store : Store) : Store :=
  eraseStreamSubjectRows organizationId subject
    { store with
      events := store.events.mapRows fun key row ↦
        if namesEvent organizationId subject key row then
          { row with accountId := none, deviceId := none, subjectState := .anonymized }
        else row }

def revokeSubject (organizationId : String) (subject : Subject) (anonymize : Bool) (now : Nat)
    (store : Store) : Option Store :=
  let row := right store organizationId subject
  if row.state = .deleted then none
  else if anonymize then
    some (setRight organizationId subject
      { row with state := .revoked, revokedAt := some now, anonymizedAt := some now }
      (anonymizeSubject organizationId subject store))
  else
    some (setRight organizationId subject { row with state := .revoked, revokedAt := some now } store)

inductive ErasureMode where
  | delete
  | anonymize
deriving DecidableEq

def deleteSubject (organizationId : String) (subject : Subject) (now : Nat) (store : Store) :
    ErasureMode → Store
  | .delete =>
    let row := right store organizationId subject
    setRight organizationId subject
      { row with
        state := .deleted
        deletedAt := some now
        deletionRequestedAt := some (row.deletionRequestedAt.getD now) }
      (eraseStreamSubjectRows organizationId subject
        { store with
          events := store.events.filter fun key event ↦
            ¬ namesEvent organizationId subject key event })
  | .anonymize =>
    let row := right store organizationId subject
    setRight organizationId subject
      { row with
        state := if row.state ≠ .deleted then .revoked else row.state
        anonymizedAt := some now
        deletionRequestedAt := some (row.deletionRequestedAt.getD now) }
      (anonymizeSubject organizationId subject store)

/-! ### Retention -/

/-- A table without the oldest rows of an organization from before a moment, as many as a batch
takes. -/
def deleteExpiredBatch {Key Row : Type} [DecidableEq Key] (limit : Nat) (now : Nat)
    (retained : Nat) (mine : Key → Bool) (moment : Row → Nat) (table : Table Key Row) :
    Table Key Row :=
  let expired := (table.entries.filter fun entry ↦
    mine entry.1 ∧ moment entry.2 + retained < now).mergeSort fun first second ↦
      moment first.2 ≤ moment second.2
  let keys := (expired.take limit).map Prod.fst
  table.filter fun key row ↦ ¬ (key ∈ keys ∧ moment row + retained < now)

def applyRetention (organizationId : String) (now limit : Nat) (store : Store) : Store :=
  let days := ((store.policies.get? organizationId).map (·.rawRetentionDays)).getD
    defaultRawRetentionDays
  let retained := days * daySeconds
  { store with
    events := deleteExpiredBatch limit now retained (·.1 = organizationId)
      TelemetryEvent.occurredAt store.events
    usage := deleteExpiredBatch limit now retained (·.1 = organizationId)
      RuntimeUsageEvent.invokedAt store.usage
    operations := deleteExpiredBatch limit now retained (·.1 = organizationId)
      InstallationOperationFact.occurredAt store.operations
    inventory := deleteExpiredBatch limit now retained (·.1 = organizationId)
      InstallationInventorySnapshot.scannedAt store.inventory
    heartbeats := deleteExpiredBatch limit now retained (·.1 = organizationId)
      InstallationHeartbeat.receivedAt store.heartbeats
    heartbeatEvents := deleteExpiredBatch limit now retained (·.1 = organizationId)
      InstallationHeartbeatEvent.receivedAt store.heartbeatEvents }

/-! ### Runs -/

inductive Operation where
  | ingestEvent (kind : String) (columns : EventColumns)
  | ingestEvents (batch : List ReportedUsage) (caller : Caller)
  | ingestOperations (batch : List ReportedOperation) (caller : Caller)
  | ingestSnapshots (batch : List ReportedSnapshot) (caller : Caller)
  | recordHeartbeat (report : HeartbeatReport)
  | recordRight (subject : Subject) (legalBasis : String) (noticeRevision : Nat)
  | revokeSubject (subject : Subject) (anonymize : Bool)
  | deleteSubject (subject : Subject) (mode : ErasureMode)
  | applyRetention (limit : Nat)
  /-- The policy of the organization is written. -/
  | writePolicy (policy : TelemetryPolicy)

/-- An operation for an organization, with the time at which it is carried out. Devices and projects
may be others than before. -/
structure Step where
  organizationId : String
  now : Nat
  devices : Table String Device
  projects : List (String × String)
  operation : Operation

def Operation.apply (organizationId : String) (now : Nat) (store : Store) : Operation → Store
  | .ingestEvent kind columns =>
    (Telemetry.ingestEvent organizationId kind columns now store).getD store
  | .ingestEvents batch caller => (Telemetry.ingestEvents organizationId batch caller now store).1
  | .ingestOperations batch caller =>
    (Telemetry.ingestOperations organizationId batch caller now store).1
  | .ingestSnapshots batch caller =>
    (Telemetry.ingestSnapshots organizationId batch caller now store).1
  | .recordHeartbeat report =>
    (Telemetry.recordHeartbeat organizationId report now store).getD store
  | .recordRight subject legalBasis noticeRevision =>
    (Telemetry.recordRight organizationId subject legalBasis noticeRevision now store).getD store
  | .revokeSubject subject anonymize =>
    (Telemetry.revokeSubject organizationId subject anonymize now store).getD store
  | .deleteSubject subject mode => Telemetry.deleteSubject organizationId subject now store mode
  | .applyRetention limit => Telemetry.applyRetention organizationId now limit store
  | .writePolicy policy =>
    { store with policies := store.policies.set organizationId policy }

def Store.step (store : Store) (step : Step) : Store :=
  step.operation.apply step.organizationId step.now
    { store with devices := step.devices, projects := step.projects }

end AiStp.Telemetry
