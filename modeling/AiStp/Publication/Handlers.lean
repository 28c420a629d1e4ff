import AiStp.Library.Transactions
import AiStp.Publication.Records
import AiStp.Queue.Job

/-!
# Publication handlers

The transactions of publication, one statement at a time: creating and confirming a plan, the
validate and publish jobs, the settling of a dead-lettered job and the transfer of a component line.
A statement reads the committed rows and may lock some of them; what a handler writes is flushed by
its last statement, which also commits.

A job may be delivered any number of times once it was enqueued. A handler that raises leaves
nothing: a plan that a request finds expired is marked `stale` in its session, but the request then
raises and the session is rolled back.
-/

set_option autoImplicit false

namespace AiStp.Publication

open Library Library.Transactions
open Queue (flushed)

inductive Lock where
  | account (id : String)
  /-- The advisory lock of the rows of a line. -/
  | line (objectKind : ObjectKind) (stableId : String)
  | identity (stableId : String)
  | version (key : VersionKey)
  | case (id : String)
  | claim (id : String)
deriving DecidableEq

/-- The answer of the object store. -/
inductive ArtifactRead where
  | unavailable
  | corrupt
  | missing
  | verified
deriving DecidableEq

/-- What a statement meets outside the rows of publication. -/
structure Surroundings where
  now : Moment
  /-- An identifier drawn by the statement. -/
  newId : String
  /-- The process stops here, or a call to the outside fails for now. -/
  interrupted : Bool
  /-- The device is active, and the account may publish with the visibility it asks for. -/
  admitted : Bool
  /-- The connector's answer: refused, or whether the plan has a bound source. -/
  boundSource : Option Bool
  /-- How many of the author's attestations are signed for this plan. -/
  attested : Nat
  /-- What the safety suite found, and whether the assessments verify the component. -/
  scan : List Binding
  verified : Bool
  artifact : ArtifactRead
  recipientExists : Bool

/-! ### Stages -/

/-- A request for a plan, with the visibility that it asks for. -/
structure PlanRequest where
  actorAccountId : String
  deviceId : String
  objectKind : ObjectKind
  stableId : String
  version : String
  contentDigest : String
  artifactInventory : List String
  visibility : Visibility
  sourceBindingId : Option String
  gitlabSourceBindingId : Option String
  policyVersion : String
  passport : Json
  attestations : List Json
  idempotencyKey : String

/-- The names of a line: canonical, English and Russian. -/
structure LineNames where
  canonical : String
  english : String
  russian : String

/-- Who makes a plan: a request, or the sync of an official upstream, which names the line. -/
inductive Origin where
  | request
  | upstream (names : LineNames)

inductive CreateStage where
  | account
  | accept
  | replay
  | occupied (passport : Passport)
  | identity (passport : Passport)
  | peek (passport : Passport)
  | line (passport : Passport) (held : Option CatalogIdentity)
  | rows (passport : Passport) (held : Option CatalogIdentity)
  | again (passport : Passport)
  | insert (passport : Passport) (held : Option CatalogIdentity)

structure ConfirmCall where
  accountId : String
  planId : String
  planHash : String
  idempotencyKey : String

inductive ConfirmStage where
  | load
  | key (plan : PublicationPlan)
  | confirm (plan : PublicationPlan)

inductive ValidateStage where
  | load
  | existing (plan : PublicationPlan)
  | sources (plan : PublicationPlan)
  | record (plan : PublicationPlan) (bindings : List Binding)

inductive PublishStage where
  | load
  | expiry (plan : PublicationPlan)
  | sources (plan : PublicationPlan)
  | line (plan : PublicationPlan) (passport : Passport)
  | rows (plan : PublicationPlan) (passport : Passport)
  | identity (plan : PublicationPlan) (passport : Passport)
  | artifact (plan : PublicationPlan) (passport : Passport) (held : Option CatalogIdentity)
  | version (plan : PublicationPlan) (passport : Passport) (digest : String)
    (held : Option CatalogIdentity)
  | snapshot (plan : PublicationPlan) (passport : Passport) (digest : String)
    (held : Option CatalogIdentity) (existing : Option CatalogMetadata)
  | ensure (plan : PublicationPlan) (passport : Passport) (digest : String)
    (held : Option CatalogIdentity) (existing : Option CatalogMetadata)
    (snapshot : ValidationSnapshot)
  | again (plan : PublicationPlan) (passport : Passport) (digest : String)
    (existing : Option CatalogMetadata) (snapshot : ValidationSnapshot)
  | write (plan : PublicationPlan) (passport : Passport) (digest : String)
    (held : Option CatalogIdentity) (existing : Option CatalogMetadata)
    (snapshot : ValidationSnapshot)
  | republish (plan : PublicationPlan) (existing : CatalogMetadata)

structure DraftRequest where
  ownerAccountId : String
  key : VersionKey
  currentRevisionId : String
  visibility : Visibility
  name : Option String

inductive DraftStage where
  | line
  | rows
  | identity
  | insert

structure TransferCall where
  caseId : String
  expectedOwnerAccountId : String
  expectedOwnershipRevisionId : String
  recipientAccountId : String

inductive TransferStage where
  | case
  | identity (stableId : String) (case : ReportCase)
  | claim (stableId : String) (case : ReportCase) (identity : CatalogIdentity)
  | rows (stableId : String) (identity : CatalogIdentity) (claimId : Option String)
  | commit (stableId : String) (identity : CatalogIdentity) (claimId : Option String)
    (keys : List VersionKey)

/-- Where a transaction stands. -/
inductive Work where
  | draft (request : DraftRequest) (stage : DraftStage)
  | create (origin : Origin) (request : PlanRequest) (stage : CreateStage)
  | confirm (call : ConfirmCall) (stage : ConfirmStage)
  | validate (planId : String) (stage : ValidateStage)
  | publish (planId : String) (stage : PublishStage)
  | settle (jobType : JobType) (planId : String)
  /-- `_record_refusal_snapshot` -/
  | refuseValidation (planId : String) (plan : PublicationPlan)
  /-- `_refuse_publish` -/
  | refusePublish (planId : String) (plan : PublicationPlan)
  | transfer (call : TransferCall) (stage : TransferStage)
  /-- A case or a claim written by the services that handle them. -/
  | fileCase (id : String) (case : ReportCase)
  | fileClaim (id : String) (claim : OwnershipClaim)

abbrev Step := Outcome Database Lock Work

/-- What a handler writes is committed, unless a constraint refuses it. -/
def committed : Option Database → Step
  | some database => .commit [] database
  | none => .abort

/-! ### Writing back a plan -/

/-- The columns of a plan that change, written where the session changed them. -/
def PublicationPlan.flush (loaded written current : PublicationPlan) : PublicationPlan :=
  { current with
    state := flushed loaded.state written.state current.state
    componentVerified :=
      flushed loaded.componentVerified written.componentVerified current.componentVerified
    confirmIdempotencyKey := flushed loaded.confirmIdempotencyKey written.confirmIdempotencyKey
      current.confirmIdempotencyKey }

def Database.flushPlan (database : Database) (planId : String)
    (loaded written : PublicationPlan) : Database :=
  { database with
    plans := database.plans.mapRows fun id current ↦
      if id = planId then loaded.flush written current else current }

/-! ### The owner of a line -/

/-- The identity belongs to another account, or its ownership has moved on. -/
def CatalogIdentity.refuses (identity : CatalogIdentity) (accountId : String)
    (expectedOwnershipRevisionId : Option String) : Bool :=
  identity.ownerAccountId ≠ accountId ||
    expectedOwnershipRevisionId.any (· ≠ identity.ownershipRevisionId)

/-- The identity that `ensure_catalog_identity` creates, if the names are admissible. -/
def newIdentity (registry : Registry) (ownerAccountId : String) (names : LineNames) :
    Option CatalogIdentity := do
  let slug ← registry.canonicalSlug names.canonical
  let english ← registry.submittedDisplayName names.english
  let russian ← registry.submittedDisplayName names.russian
  return ⟨ownerAccountId, slug, english, russian, ""⟩

/-- The line as `ensure_catalog_identity` leaves it: the identity that exists, or a new one. -/
def ensureIdentity (registry : Registry) (database : Database) (stableId ownerAccountId : String)
    (names : LineNames) (held : Option CatalogIdentity) : Option (Database × CatalogIdentity) := do
  let fresh ← newIdentity registry ownerAccountId names
  match held with
  | some identity => return (database, identity)
  | none =>
    let database ← database.insertIdentity? registry stableId fresh
    return (database, fresh)

/-! ### Plans -/

def planTtl : Int := 24 * 60 * 60

/-- The body that `compute_plan_hash` hashes. -/
def planBody (request : PlanRequest) (passport : Json) : Json :=
  .object ([("actor_account_id", .string request.actorAccountId),
    ("device_id", .string request.deviceId), ("object_kind", .string request.objectKind.text),
    ("stable_id", .string request.stableId), ("version", .string request.version),
    ("content_digest", .string request.contentDigest),
    ("policy_version", .string request.policyVersion), ("passport", passport),
    ("attestations", .array request.attestations),
    ("artifact_inventory", .array (request.artifactInventory.map .string)),
    ("visibility", .string request.visibility.text)] ++
    (request.sourceBindingId.map fun id ↦ ("source_binding_id", Json.string id)).toList ++
    (request.gitlabSourceBindingId.map fun id ↦
      ("gitlab_source_binding_id", Json.string id)).toList)

def computePlanHash (registry : Registry) (request : PlanRequest) (passport : Json) : String :=
  "plan_" ++ registry.textDigest (planBody request passport)

/-- The plan of a request: an upstream sync starts its validation at once. -/
def newPlan (registry : Registry) (origin : Origin) (request : PlanRequest) (passport : Passport)
    (expectedOwnershipRevisionId : Option String) (now : Moment) : PublicationPlan where
  actorAccountId := request.actorAccountId
  deviceId := request.deviceId
  objectKind := request.objectKind
  stableId := request.stableId
  version := request.version
  contentDigest := request.contentDigest
  artifactInventory := request.artifactInventory
  visibility := request.visibility
  sourceBindingId := request.sourceBindingId
  gitlabSourceBindingId := request.gitlabSourceBindingId
  policyVersion := request.policyVersion
  planHash := computePlanHash registry request passport.document
  state := match origin with
    | .request => .ready
    | .upstream _ => .validating
  passport := passport.document
  attestations := request.attestations
  componentVerified := false
  idempotencyKey := request.idempotencyKey
  confirmIdempotencyKey := none
  expectedOwnershipRevisionId := expectedOwnershipRevisionId
  expiresAt := now + planTtl

/-- A request names the line by its passport, `str(passport.get("name") or stable_id)`. -/
def lineNames (request : PlanRequest) (passport : Passport) : Origin → LineNames
  | .upstream names => names
  | .request =>
    let name := match passport.document.index "name" with
      | .string name => if name = "" then request.stableId else name
      | _ => request.stableId
    ⟨name, name, name⟩

def bindsSource (request : PlanRequest) : Bool :=
  request.sourceBindingId.isSome || request.gitlabSourceBindingId.isSome

/-- A version row that is in the way of a request. -/
def occupiedRefuses (accountId : String) (digest : Option String) (row : CatalogMetadata) : Bool :=
  row.ownerAccountId ≠ accountId ||
    (row.passportDigest.any (fun held ↦ held ≠ "" && digest ≠ some held)) ||
    (row.lifecycleState = .draft && row.publishedAt.isSome)

/-- The identity of a component line is read under its lock. -/
def afterOccupied (request : PlanRequest) (passport : Passport) : CreateStage :=
  match request.objectKind with
  | .setup => .line passport none
  | .component => .identity passport

section Statements

variable (registry : Registry)

/-- The last statement of a plan's creation. -/
def insertPlan (database : Database) (surroundings : Surroundings) (origin : Origin)
    (request : PlanRequest) (passport : Passport) (held : Option CatalogIdentity) :
    Option Database :=
  match request.objectKind with
  | .setup =>
    database.insertPlan? surroundings.newId
      (newPlan registry origin request passport none surroundings.now)
  | .component => do
    guard (held.all fun identity ↦ !identity.refuses request.actorAccountId none)
    let (database, identity) ← ensureIdentity registry database request.stableId
      request.actorAccountId (lineNames request passport origin) held
    let plan := newPlan registry origin request passport (some identity.ownershipRevisionId)
      surroundings.now
    let database ← database.insertPlan? surroundings.newId plan
    match origin with
    | .request => return database
    | .upstream _ => return database.enqueue .validate surroundings.newId

/-- `create_plan`, and the end of `_start_publication` for an upstream. -/
def createStatement (database : Database) (surroundings : Surroundings) (origin : Origin)
    (request : PlanRequest) : CreateStage → Step
  | .account => .next [.account request.actorAccountId] (.create origin request .replay)
  | .accept =>
    match validatePublicationPassport registry request.passport request.objectKind
        request.stableId request.version request.contentDigest (some request.actorAccountId)
        false with
    | .error _ => .abort
    | .ok passport => .next [] (.create origin request (.peek passport))
  | .replay =>
    if surroundings.admitted ∧ (database.plans.find? fun _ plan ↦
        plan.actorAccountId = request.actorAccountId ∧
          plan.idempotencyKey = request.idempotencyKey) = none then
      match validatePublicationPassport registry request.passport request.objectKind
          request.stableId request.version request.contentDigest (some request.actorAccountId)
          (bindsSource request) with
      | .error _ => .abort
      | .ok passport => .next [] (.create origin request (.occupied passport))
    else .abort
  | .occupied passport =>
    let key : VersionKey := ⟨request.objectKind, request.stableId, request.version⟩
    match database.catalog.get? key with
    | none => .next [] (.create origin request (afterOccupied request passport))
    | some row =>
      if occupiedRefuses request.actorAccountId (passportDigest registry passport) row then .abort
      else .next [.version key] (.create origin request (afterOccupied request passport))
  | .identity passport =>
    match database.identities.get? request.stableId with
    | none => .next [] (.create origin request (.line passport none))
    | some identity =>
      .next [.identity request.stableId] (.create origin request (.line passport (some identity)))
  -- An upstream reads the identity without a lock.
  | .peek passport =>
    .next [] (.create origin request (.line passport (database.identities.get? request.stableId)))
  | .line passport held =>
    .next [.line request.objectKind request.stableId]
      (.create origin request (.rows passport held))
  | .rows passport held =>
    match database.foreignRow request.objectKind request.stableId request.actorAccountId with
    | some _ => .abort
    | none =>
      match request.objectKind, held with
      | .component, none => .next [] (.create origin request (.again passport))
      | _, _ => .next [] (.create origin request (.insert passport held))
  | .again passport =>
    .next []
      (.create origin request (.insert passport (database.identities.get? request.stableId)))
  | .insert passport held =>
    committed (insertPlan registry database surroundings origin request passport held)

/-- `confirm_plan` -/
def confirmStatement (database : Database) (surroundings : Surroundings) (call : ConfirmCall) :
    ConfirmStage → Step
  | .load =>
    match database.plans.get? call.planId with
    | none => .abort
    | some plan =>
      if plan.actorAccountId ≠ call.accountId ∨ ¬ surroundings.admitted ∨
          call.planHash ≠ plan.planHash ∨
          plan.confirmIdempotencyKey = some call.idempotencyKey then .abort
      else match plan.state with
        | .validating | .publishPlanned | .published => .next [] (.confirm call (.key plan))
        | .failed | .cancelled | .stale => .abort
        | .draft | .ready => .next [] (.confirm call (.confirm plan))
  | .key plan =>
    .commit [] (database.flushPlan call.planId plan
      { plan with confirmIdempotencyKey := some call.idempotencyKey })
  | .confirm plan =>
    -- The stale mark of an expired plan goes with the session.
    if plan.expiresAt ≤ surroundings.now ∨ surroundings.artifact ≠ .verified ∨
        surroundings.boundSource = none then .abort
    else
      .commit [] ((database.flushPlan call.planId plan
        { plan with
          state := .validating
          confirmIdempotencyKey := some call.idempotencyKey }).enqueue .validate call.planId)

/-! ### Validation -/

def credentialBindings (plan : PublicationPlan) (attested : Nat) : List Binding :=
  if truthy (plan.passport.index "requires_credentials") then
    if attested = 0 then [⟨"credentials", .notRun, true⟩]
    else List.replicate attested ⟨"credentials", .passed, true⟩
  else []

/-- The snapshot of a plan that is refused before its checks. -/
def refusalSnapshot (planId : String) (plan : PublicationPlan) : ValidationSnapshot where
  planId := planId
  contentDigest := plan.contentDigest
  policyVersion := plan.policyVersion
  state := .failed
  componentVerified := false
  evidence := [⟨"plan_gate", .failed, true⟩]

def Database.refuseValidation (database : Database) (surroundings : Surroundings)
    (planId : String) (plan : PublicationPlan) : Option Database := do
  let database ← database.insertSnapshot? surroundings.newId (refusalSnapshot planId plan)
  return database.flushPlan planId plan { plan with state := .failed }

def verdictSnapshot (planId : String) (plan : PublicationPlan) (bindings : List Binding)
    (componentVerified : Bool) : ValidationSnapshot where
  planId := planId
  contentDigest := plan.contentDigest
  policyVersion := plan.policyVersion
  state := (snapshotOutcome bindings).1
  componentVerified := componentVerified
  evidence := bindings

/-- A component is verified by its assessments, when its passport has a digest. -/
def verifiedBy (plan : PublicationPlan) (surroundings : Surroundings) (common : Bool) : Bool :=
  match plan.objectKind, registry.model plan.objectKind plan.passport with
  | .component, .ok _ => surroundings.verified
  | _, _ => common

/-- The verdict is recorded in a new transaction, on the plan as it was before the scan. -/
def Database.recordVerdict (database : Database) (surroundings : Surroundings) (planId : String)
    (plan : PublicationPlan) (bindings : List Binding) : Option Database := do
  let outcome := snapshotOutcome bindings
  let verified := verifiedBy registry plan surroundings outcome.2
  let database ← database.insertSnapshot? surroundings.newId
    (verdictSnapshot planId plan bindings verified)
  if outcome.1 = .failed then
    return database.flushPlan planId plan { plan with state := .failed }
  else
    return (database.flushPlan planId plan
      { plan with state := .publishPlanned, componentVerified := verified }).enqueue .publish planId

/-- `execute_validate` -/
def validateStatement (database : Database) (surroundings : Surroundings) (planId : String) :
    ValidateStage → Step
  | .load =>
    match database.plans.get? planId with
    | none => .abort
    | some plan => .next [] (.validate planId (.existing plan))
  | .existing plan =>
    match database.snapshotOf planId with
    | some _ => .abort
    | none =>
      if plan.state ∈ [.failed, .cancelled, .stale] then .next [] (.refuseValidation planId plan)
      else .next [] (.validate planId (.sources plan))
  | .sources plan =>
    match surroundings.boundSource with
    | none => .next [] (.refuseValidation planId plan)
    | some bound =>
      .next [] (.validate planId (.record plan
        (runPlatformChecks plan.passport plan.contentDigest bound ++
          credentialBindings plan surroundings.attested)))
  | .record plan bindings =>
    committed (database.recordVerdict registry surroundings planId plan
      (bindings ++ surroundings.scan))

/-! ### Publishing -/

/-- Plans older than their visibility column take it from the passport. -/
def planVisibility (plan : PublicationPlan) : Visibility :=
  if (plan.passport.index "visibility").same (.string "public") then .toEveryone
  else plan.visibility

def publishName (plan : PublicationPlan) : Option String :=
  (plan.passport.index "name").asString?

def publishNames (plan : PublicationPlan) : LineNames :=
  let name := (publishName plan).getD plan.stableId
  ⟨name, name, name⟩

/-- A published row that is not what the plan would publish. -/
def republishRefuses (passport : Passport) (digest : String) (row : CatalogMetadata) : Bool :=
  row.passportDigest ≠ some digest || row.publishedAt.isNone ||
    row.passportDocument.all fun document ↦
      !(match Foundation.Canonical.canonize registry.platform document,
          Foundation.Canonical.canonize registry.platform passport.document with
        | some held, some canonical => held.same canonical
        | _, _ => false)

/-- The columns that a publication writes to a version row. -/
def publishedRow (plan : PublicationPlan) (passport : Passport) (digest : String) (now : Moment)
    (snapshot : ValidationSnapshot) (row : CatalogMetadata) : CatalogMetadata :=
  { row with
    currentRevisionId := passport.revisionId
    visibility := planVisibility plan
    lifecycleState := .active
    name := publishName plan
    publishedAt := some now
    componentVerified := snapshot.componentVerified
    passportDigest := some digest
    passportDocument := some passport.document }

def blankRow (ownerAccountId : String) : CatalogMetadata :=
  ⟨ownerAccountId, "", .toOwner, .draft, none, none, false, none, none⟩

/-- The version row is inserted, or the draft that the transaction holds is written over. -/
def Database.writeVersion (database : Database) (plan : PublicationPlan) (passport : Passport)
    (digest : String) (now : Moment) (snapshot : ValidationSnapshot) :
    Option CatalogMetadata → Option Database
  | none =>
    database.insertVersion? (.of plan)
      (publishedRow plan passport digest now snapshot (blankRow plan.actorAccountId))
  | some _ =>
    some { database with
      catalog := database.catalog.mapRows fun key row ↦
        if key = .of plan then publishedRow plan passport digest now snapshot row else row }

/-- The last statement of a publication. -/
def Database.publishVersion (database : Database) (surroundings : Surroundings) (planId : String)
    (plan : PublicationPlan) (passport : Passport) (digest : String)
    (held : Option CatalogIdentity) (existing : Option CatalogMetadata)
    (snapshot : ValidationSnapshot) : Option Database :=
  match plan.objectKind with
  | .setup => do
    let database ← database.writeVersion plan passport digest surroundings.now snapshot existing
    return database.flushPlan planId plan
      { plan with state := .published, componentVerified := snapshot.componentVerified }
  | .component => do
    let (database, _) ← ensureIdentity registry database plan.stableId plan.actorAccountId
      (publishNames plan) held
    let database ← database.writeVersion plan passport digest surroundings.now snapshot existing
    return database.flushPlan planId plan
      { plan with state := .published, componentVerified := snapshot.componentVerified }

/-- The version was published before; its assessments may have changed since. -/
def Database.republish (database : Database) (surroundings : Surroundings) (planId : String)
    (plan : PublicationPlan) (existing : CatalogMetadata) : Database :=
  let verified := match plan.objectKind with
    | .component => surroundings.verified
    | .setup => existing.componentVerified
  { database.flushPlan planId plan { plan with state := .published, componentVerified := verified }
    with
    catalog := database.catalog.mapRows fun key row ↦
      if key = .of plan then { row with componentVerified := verified } else row }

/-- `execute_publish` -/
def publishStatement (database : Database) (surroundings : Surroundings) (planId : String) :
    PublishStage → Step
  | .load =>
    match database.plans.get? planId with
    | none => .abort
    | some plan =>
      if plan.state ∈ [.failed, .cancelled, .stale] then .abort
      else .next [] (.publish planId (.expiry plan))
  | .expiry plan =>
    if plan.expiresAt ≤ surroundings.now then .next [] (.refusePublish planId plan)
    else .next [] (.publish planId (.sources plan))
  | .sources plan =>
    match surroundings.boundSource with
    | none => .next [] (.refusePublish planId plan)
    | some bound =>
      match validatePublicationPassport registry plan.passport plan.objectKind plan.stableId
          plan.version plan.contentDigest (some plan.actorAccountId) bound with
      | .error _ => .next [] (.refusePublish planId plan)
      | .ok passport => .next [] (.publish planId (.line plan passport))
  | .line plan passport =>
    .next [.line plan.objectKind plan.stableId] (.publish planId (.rows plan passport))
  | .rows plan passport =>
    match database.foreignRow plan.objectKind plan.stableId plan.actorAccountId,
        plan.objectKind with
    | some _, _ => .next [] (.refusePublish planId plan)
    | none, .setup => .next [] (.publish planId (.artifact plan passport none))
    | none, .component => .next [] (.publish planId (.identity plan passport))
  | .identity plan passport =>
    match database.identities.get? plan.stableId with
    | none => .next [] (.publish planId (.artifact plan passport none))
    | some identity =>
      if identity.refuses plan.actorAccountId plan.expectedOwnershipRevisionId then
        .next [.identity plan.stableId] (.refusePublish planId plan)
      else
        .next [.identity plan.stableId] (.publish planId (.artifact plan passport (some identity)))
  | .artifact plan passport held =>
    match passportDigest registry passport, surroundings.artifact with
    | none, _ => .abort
    | some _, .unavailable => .abort
    | some _, .corrupt => .next [] (.refusePublish planId plan)
    | some _, .missing => .next [] (.refusePublish planId plan)
    | some digest, .verified => .next [] (.publish planId (.version plan passport digest held))
  | .version plan passport digest held =>
    match database.catalog.get? (.of plan) with
    | none => .next [] (.publish planId (.snapshot plan passport digest held none))
    | some row =>
      if occupiedRefuses plan.actorAccountId (some digest) row then
        .next [.version (.of plan)] (.refusePublish planId plan)
      else if row.lifecycleState = .draft then
        .next [.version (.of plan)]
          (.publish planId (.snapshot plan passport digest held (some row)))
      else if republishRefuses registry passport digest row then
        .next [.version (.of plan)] (.refusePublish planId plan)
      else .next [.version (.of plan)] (.publish planId (.republish plan row))
  | .snapshot plan passport digest held existing =>
    match database.snapshotOf planId with
    | none => .next [] (.refusePublish planId plan)
    | some (_, snapshot) =>
      if snapshot.state = .failed then .next [] (.refusePublish planId plan)
      else match plan.objectKind with
        | .component =>
          .next [] (.publish planId (.ensure plan passport digest held existing snapshot))
        | .setup => .next [] (.publish planId (.write plan passport digest held existing snapshot))
  | .ensure plan passport digest held existing snapshot =>
    if (newIdentity registry plan.actorAccountId (publishNames plan)).isNone ∨
        (database.foreignRow .component plan.stableId plan.actorAccountId).isSome then
      .next [] (.refusePublish planId plan)
    else match held with
      | none => .next [] (.publish planId (.again plan passport digest existing snapshot))
      | some identity =>
        if identity.refuses plan.actorAccountId plan.expectedOwnershipRevisionId then
          .next [] (.refusePublish planId plan)
        else .next [] (.publish planId (.write plan passport digest held existing snapshot))
  | .again plan passport digest existing snapshot =>
    match database.identities.get? plan.stableId with
    | none => .next [] (.publish planId (.write plan passport digest none existing snapshot))
    | some identity =>
      if identity.refuses plan.actorAccountId plan.expectedOwnershipRevisionId then
        .next [] (.refusePublish planId plan)
      else
        .next [] (.publish planId (.write plan passport digest (some identity) existing snapshot))
  | .write plan passport digest held existing snapshot =>
    committed (database.publishVersion registry surroundings planId plan passport digest held
      existing snapshot)
  | .republish plan existing =>
    .commit [] (database.republish surroundings planId plan existing)

/-- `settle_dead_lettered_plan` -/
def settleStatement (database : Database) (jobType : JobType) (planId : String) : Step :=
  match database.plans.get? planId with
  | none => .abort
  | some plan =>
    if plan.state.terminal then .abort
    else match jobType with
      | .publish => .next [] (.refusePublish planId plan)
      | .validate => .next [] (.refuseValidation planId plan)

/-! ### Drafts and transfers -/

/-- `create_catalog_metadata_and_enqueue_upload` -/
def draftStatement (database : Database) (request : DraftRequest) : DraftStage → Step
  | .line =>
    .next [.line request.key.objectKind request.key.stableId] (.draft request .rows)
  | .rows =>
    match database.foreignRow request.key.objectKind request.key.stableId request.ownerAccountId,
        request.key.objectKind with
    | some _, _ => .abort
    | none, .setup => .next [] (.draft request .insert)
    | none, .component => .next [] (.draft request .identity)
  | .identity =>
    match database.identities.get? request.key.stableId with
    | none => .next [] (.draft request .insert)
    | some identity =>
      if identity.refuses request.ownerAccountId none then .abort
      else .next [.identity request.key.stableId] (.draft request .insert)
  | .insert =>
    committed (database.insertVersion? request.key
      { blankRow request.ownerAccountId with
        currentRevisionId := request.currentRevisionId
        visibility := request.visibility
        name := request.name })

def openCaseStates : List CaseState := [.submitted, .triaged, .awaitingAuthor, .resolved]

/-- The identifier of a new ownership revision, `new_id("operation")`. -/
def operationId (unique : String) : String := "operation_" ++ unique

/-- The rows of a line, with another owner for the versions that the transfer has read. -/
def moveRows (catalog : Table VersionKey CatalogMetadata) (keys : List VersionKey)
    (recipientAccountId : String) : Table VersionKey CatalogMetadata :=
  catalog.mapRows fun key row ↦
    if key ∈ keys then { row with ownerAccountId := recipientAccountId } else row

def Database.transfer (database : Database) (surroundings : Surroundings) (call : TransferCall)
    (stableId : String) (identity : CatalogIdentity) (claimId : Option String)
    (keys : List VersionKey) : Option Database := do
  let revisionId := operationId surroundings.newId
  let revisions ← database.revisions.insert? revisionId
    ⟨claimId, call.caseId, stableId, identity.ownerAccountId, call.recipientAccountId⟩
  return { database with
    revisions := revisions
    identities := database.identities.update stableId
      { identity with
        ownerAccountId := call.recipientAccountId
        ownershipRevisionId := revisionId }
    cases := database.cases.mapRows fun id row ↦
      if id = call.caseId then { row with state := .resolved } else row
    claims := database.claims.mapRows fun id row ↦
      if some id = claimId then { row with state := .approved } else row
    catalog := moveRows database.catalog keys call.recipientAccountId }

/-- `transfer_catalog_line` -/
def transferStatement (database : Database) (surroundings : Surroundings) (call : TransferCall) :
    TransferStage → Step
  | .case =>
    match database.cases.get? call.caseId with
    | none => .abort
    | some row =>
      if row.topic ≠ "ownership_transfer" ∨
          row.recipientAccountId ≠ some call.recipientAccountId ∨
          -- A resolved case answers with the revision that it made.
          (row.state = .resolved ∧
            (database.revisions.find? fun _ revision ↦ revision.caseId = call.caseId).isSome) ∨
          row.state ∉ openCaseStates ∨ ¬ surroundings.recipientExists then .abort
      else match row.stableId with
        | none => .abort
        | some stableId =>
          if stableId = "" then .abort
          else .next [.case call.caseId] (.transfer call (.identity stableId row))
  | .identity stableId row =>
    match database.identities.get? stableId with
    | none => .abort
    | some identity =>
      if identity.refuses call.expectedOwnerAccountId (some call.expectedOwnershipRevisionId) ∨
          identity.ownerAccountId = call.recipientAccountId then .abort
      else .next [.identity stableId] (.transfer call (.claim stableId row identity))
  | .claim stableId row identity =>
    match database.claims.find? fun _ claim ↦ claim.stableId = stableId ∧
        claim.toAccountId = call.recipientAccountId ∧
        claim.idempotencyKey = row.idempotencyKey with
    | none => .next [] (.transfer call (.rows stableId identity none))
    | some (claimId, claim) =>
      if claim.state ≠ .requested then .abort
      else .next [.claim claimId] (.transfer call (.rows stableId identity (some claimId)))
  | .rows stableId identity claimId =>
    let keys := (database.catalog.entries.map Prod.fst).filter fun key ↦
      key.objectKind = .component ∧ key.stableId = stableId
    .next (keys.map .version) (.transfer call (.commit stableId identity claimId keys))
  | .commit stableId identity claimId keys =>
    committed (database.transfer surroundings call stableId identity claimId keys)

/-! ### The system -/

/-- One statement of a transaction. -/
def statement (database : Database) (work : Work) (surroundings : Surroundings) : Step :=
  if surroundings.interrupted then .abort
  else match work with
    | .draft request stage => draftStatement database request stage
    | .create origin request stage =>
      createStatement registry database surroundings origin request stage
    | .confirm call stage => confirmStatement database surroundings call stage
    | .validate planId stage => validateStatement registry database surroundings planId stage
    | .publish planId stage => publishStatement registry database surroundings planId stage
    | .settle jobType planId => settleStatement database jobType planId
    | .refuseValidation planId plan =>
      committed (database.refuseValidation surroundings planId plan)
    | .refusePublish planId plan =>
      .commit [] (database.flushPlan planId plan { plan with state := .failed })
    | .transfer call stage => transferStatement database surroundings call stage
    | .fileCase id row => .commit [.case id] { database with cases := database.cases.set id row }
    | .fileClaim id row =>
      .commit [.claim id] { database with claims := database.claims.set id row }

/-- Where a transaction may start: requests at any time, jobs once they were enqueued. -/
def starts (database : Database) : Work → Bool
  | .draft _ .line => true
  | .create .request _ .account => true
  | .create (.upstream _) request .accept => request.objectKind = .component
  | .confirm _ .load => true
  | .validate planId .load => (JobType.validate, planId) ∈ database.jobs
  | .publish planId .load => (JobType.publish, planId) ∈ database.jobs
  | .settle jobType planId => (jobType, planId) ∈ database.jobs
  | .transfer _ .case => true
  | .fileCase _ _ => true
  | .fileClaim _ _ => true
  | _ => false

/-- The server: the transactions that run side by side. -/
def server : System Database Lock Work Surroundings where
  starts := starts
  statement := statement registry

end Statements

end AiStp.Publication
