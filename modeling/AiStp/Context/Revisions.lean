import AiStp.Context.Records
import AiStp.Library.LevelSearch

/-!
# Project revisions and sync plans

A push stores one revision of a remote project and moves the head if the revision is the first one
or names the head as a parent; otherwise the revision is stored as a conflict of the link. A sync
plan is decided from the fields of a link and applied later, after its digest, its link and the head
are compared with what they were.

A request reads most rows without a lock. `Seen` holds the committed states that such reads saw;
the rows that the request locks, and the unique keys that its writes meet, are those of the current
state.
-/

set_option autoImplicit false

namespace AiStp.Context

open Foundation Library

/-- What the service uses of its platform. -/
structure System where
  platform : Platform
  /-- The SHA-256 of the compact text of an object with sorted keys. -/
  planDigest : Json → String
  timestamp : Int → String

/-- The committed states that reads without a lock saw: the search for an earlier answer under the
same key, the links, the head and the stored revisions. -/
structure Seen where
  replay : Database
  links : Database
  head : Database
  revisions : Database

/-- Every read saw one state. -/
def Seen.at (db : Database) : Seen := ⟨db, db, db, db⟩

def textJson (text : String) : Json := .string text

def optionalJson : Option String → Json
  | none => .null
  | some text => .string text

def naturalJson (value : Nat) : Json := .number (.integer value)

/-! ### The stored graph -/

/-- The parents of a stored revision; none for a revision that is not stored. -/
def projectParents (revisions : Table (ProjectKey × String) ProjectRevision)
    (project : ProjectKey) (revisionId : String) : List String :=
  match revisions.get? (project, revisionId) with
  | some row => row.parentRevisionIds
  | none => []

def isStored (db : Database) (project : ProjectKey) (revisionId : String) : Bool :=
  (db.revisions.get? (project, revisionId)).isSome

def projectIsAncestor (db : Database) (project : ProjectKey) (ancestor descendant : String) :
    Bool :=
  LevelSearch.isAncestor (projectParents db.revisions project) 256 ancestor descendant

/-! ### Pushes -/

structure ProjectRevisionPushRequest where
  eventId : String
  revisionId : String
  parentRevisionIds : List String
  operation : Operation
  contentDigest : String
  projection : Json
  expectedHeadRevisionId : Option String
  authorizationRevision : String
  idempotencyKey : String

def Operation.text : Operation → String
  | .upsert => "upsert"
  | .tombstone => "tombstone"

def ProjectRevisionPushRequest.dump (payload : ProjectRevisionPushRequest) : Json :=
  .object [
    ("schema_version", naturalJson 1),
    ("event_id", textJson payload.eventId),
    ("revision_id", textJson payload.revisionId),
    ("parent_revision_ids", .array (payload.parentRevisionIds.map textJson)),
    ("operation", textJson payload.operation.text),
    ("content_digest", textJson payload.contentDigest),
    ("projection", payload.projection),
    ("expected_head_revision_id", optionalJson payload.expectedHeadRevisionId),
    ("authorization_revision", textJson payload.authorizationRevision),
    ("idempotency_key", textJson payload.idempotencyKey)]

/-- The signed, path-free body of a revision. -/
def projectRevisionDocument (payload : ProjectRevisionPushRequest) (remoteProjectId : String) :
    Json :=
  .object [
    ("schema_version", naturalJson 1),
    ("remote_project_id", textJson remoteProjectId),
    ("parent_revision_ids", .array (payload.parentRevisionIds.map textJson)),
    ("operation", textJson payload.operation.text),
    ("projection", payload.projection)]

def System.digestCanonical (system : System) (value : Json) : Except ApiError String :=
  match Canonical.digestCanonical system.platform Canonical.revisionDomain value with
  | some digest => .ok digest
  | none => .error internalError

/-- The head as a locking read finds it: the current one, unless there was no row to lock. -/
def readHead (seen db : Database) (project : ProjectKey) : Option String :=
  match seen.heads.get? project with
  | none => none
  | some _ => db.heads.get? project

/-- The projection names no other remote project. -/
def namesProject (projection : Json) (remoteProjectId : String) : Bool :=
  match projection.get? "remote_project_id" with
  | none => true
  | some .null => true
  | some declared => declared = .string remoteProjectId

def isFastForward (serverHead : Option String) (payload : ProjectRevisionPushRequest) : Bool :=
  match serverHead with
  | none => payload.parentRevisionIds = [] ∧ payload.expectedHeadRevisionId = none
  | some head => payload.expectedHeadRevisionId = some head ∧ head ∈ payload.parentRevisionIds

/-- The two sides of the conflict of a link are the parents of its resolution. -/
def namesConflict (link : ProjectLink) (payload : ProjectRevisionPushRequest) : Bool :=
  (payload.parentRevisionIds.map some).toFinset =
    {link.conflictServerRevision, link.conflictClientRevision}

def checkResolution (link : ProjectLink) (serverHead : Option String)
    (payload : ProjectRevisionPushRequest) : Except ApiError Unit := do
  require (link.state = .conflict ∧ link.conflictServerRevision ≠ none ∧
      link.conflictClientRevision ≠ none) .precondition
    "project link is not in a resolvable conflict"
  require (serverHead = link.conflictServerRevision) .precondition "project conflict is stale"
  require (payload.expectedHeadRevisionId = link.conflictServerRevision) .precondition
    "project conflict server head is stale"
  require (namesConflict link payload) .precondition "project conflict parents are stale"
  require (payload.parentRevisionIds.length = 2) .validation
    "resolution requires exactly two parents"
  require (serverHead ≠ none ∧ payload.expectedHeadRevisionId = serverHead) .precondition
    "project head is stale"

/-- Only a resolution names the two sides of a conflict. -/
def checkPushed (link : ProjectLink) (serverHead : Option String)
    (payload : ProjectRevisionPushRequest) (resolution : Bool) : Except ApiError Unit :=
  if resolution then checkResolution link serverHead payload else .ok ()

/-- The common ancestor of the head and the revision that is being stored. -/
def projectCommonAncestor (seen : Database) (project : ProjectKey)
    (payload : ProjectRevisionPushRequest) (serverHead : Option String) : Option String :=
  LevelSearch.commonAncestor
    (fun id ↦ if id = payload.revisionId then payload.parentRevisionIds
      else projectParents seen.revisions project id)
    256 (serverHead.getD payload.revisionId) payload.revisionId

/-- What a push writes besides the revision and the receipt. -/
structure PushEffect where
  link : ProjectLink
  heads : Table ProjectKey String
  body : ProjectRevisionReceipt

def conflictEffect (seen db : Database) (link : ProjectLink)
    (payload : ProjectRevisionPushRequest) (serverHead : Option String) : PushEffect :=
  let common := projectCommonAncestor seen link.project payload serverHead
  { link := { link with
      state := .conflict
      conflictServerRevision := serverHead
      conflictClientRevision := some payload.revisionId
      conflictCommonAncestor := common
      revision := link.revision + 1 }
    heads := db.heads
    body := {
      eventId := payload.eventId
      state := .conflict
      revisionId := some payload.revisionId
      serverHeadRevisionId := serverHead
      clientHeadRevisionId := payload.expectedHeadRevisionId
      commonAncestorRevisionId := common
      errorCode := some "divergent_heads" } }

/-- The head of an accepted push. A project without a head gets a new row, whose key may be taken
by then. -/
def acceptedHeads (db : Database) (project : ProjectKey) (serverHead : Option String)
    (revisionId : String) : Option (Table ProjectKey String) :=
  match serverHead with
  | none => db.heads.insert? project revisionId
  | some _ => some (db.heads.update project revisionId)

def acceptedEffect (db : Database) (link : ProjectLink) (payload : ProjectRevisionPushRequest)
    (serverHead : Option String) : Option PushEffect :=
  (acceptedHeads db link.project serverHead payload.revisionId).map fun heads ↦
    { link := { link with
        state := .linked
        remoteRevision := payload.revisionId
        conflictServerRevision := none
        conflictClientRevision := none
        conflictCommonAncestor := none
        revision := link.revision + 1 }
      heads := heads
      body := {
        eventId := payload.eventId
        state := .accepted
        revisionId := some payload.revisionId
        serverHeadRevisionId := some payload.revisionId
        clientHeadRevisionId := payload.expectedHeadRevisionId
        commonAncestorRevisionId := none
        errorCode := none } }

def pushEffect (seen db : Database) (link : ProjectLink) (payload : ProjectRevisionPushRequest)
    (serverHead : Option String) : Option PushEffect :=
  if isFastForward serverHead payload then acceptedEffect db link payload serverHead
  else some (conflictEffect seen db link payload serverHead)

/-- The writes of a push in its savepoint: nothing when a unique key is taken. -/
def pushWrites (seen db : Database) (linkId : String) (link : ProjectLink)
    (payload : ProjectRevisionPushRequest) (serverHead : Option String)
    (revision : ProjectRevision) (fingerprint : String) :
    Option (ProjectRevisionReceipt × Database) := do
  let revisions ← db.revisions.insert? (link.project, payload.revisionId) revision
  let effect ← pushEffect seen db link payload serverHead
  let receipts ← db.receipts.insert? (link.project, payload.idempotencyKey)
    ⟨fingerprint, effect.body⟩
  return (effect.body, { db with
    links := db.links.update linkId effect.link
    revisions := revisions
    heads := effect.heads
    receipts := receipts })

/-- The answer of an earlier push under the same key. -/
def replayedPush (receipt : ReceiptRow) (fingerprint : String) :
    Except ApiError ProjectRevisionReceipt := do
  require (receipt.requestFingerprint = fingerprint) .conflict
    "idempotency key belongs to another revision"
  return receipt.responseBody

/-- Another push took a unique key first: its answer, if it is under the same key. -/
def lostPush (db : Database) (project : ProjectKey) (payload : ProjectRevisionPushRequest)
    (fingerprint : String) : Except ApiError (ProjectRevisionReceipt × Database) := do
  let winner ← found (db.receipts.get? (project, payload.idempotencyKey)) .conflict
    "project revision was already recorded"
  let body ← replayedPush winner fingerprint
  return (body, db)

/-- The checks of a push that no earlier answer settles; they give the head that it found. -/
def checkPush (system : System) (seen : Seen) (db : Database) (link : ProjectLink)
    (payload : ProjectRevisionPushRequest) (resolution : Bool) :
    Except ApiError (Option String) := do
  let expectedContent ← system.digestCanonical payload.projection
  let expectedRevision ← system.digestCanonical
    (projectRevisionDocument payload link.remoteProjectId)
  require (namesProject payload.projection link.remoteProjectId) .permission
    "project projection names another remote project"
  require (payload.contentDigest = expectedContent ∧ payload.revisionId = expectedRevision)
    .validation "project revision digest does not match content"
  require (payload.parentRevisionIds.all (isStored seen.revisions link.project)) .validation
    "project revision parent is unknown"
  require (payload.expectedHeadRevisionId.all (isStored seen.revisions link.project)) .precondition
    "client project head is unknown"
  checkPushed link (readHead seen.head db link.project) payload resolution
  return readHead seen.head db link.project

/-- Stores one project revision, accepting only first revisions and fast-forwards. -/
def pushProjectRevision (system : System) (surroundings : Surroundings) (seen : Seen)
    (db : Database) (ctx : AuthContext) (organizationId linkId : String)
    (payload : ProjectRevisionPushRequest) (resolution : Bool) :
    Except ApiError (ProjectRevisionReceipt × Database) := do
  let deviceId ← requireActiveDevice surroundings ctx
  let link ← linkForMember surroundings db.links ctx organizationId linkId
  requireLinked link resolution
  requireCapability surroundings ctx link.organizationId "project.update"
    payload.authorizationRevision
  let fingerprint ← system.digestCanonical payload.dump
  match seen.replay.receipts.get? (link.project, payload.idempotencyKey) with
  | some receipt => do
    let body ← replayedPush receipt fingerprint
    return (body, db)
  | none => do
    let serverHead ← checkPush system seen db link payload resolution
    let revision : ProjectRevision := {
      parentRevisionIds := payload.parentRevisionIds
      operation := payload.operation
      contentDigest := payload.contentDigest
      projection := payload.projection
      actorAccountId := ctx.accountId
      deviceId := deviceId
      eventId := payload.eventId }
    match pushWrites seen.revisions db linkId link payload serverHead revision fingerprint with
    | some answer => .ok answer
    | none => lostPush db link.project payload fingerprint

/-! ### Sync plans -/

structure ProjectSyncPlanRequest where
  linkId : String
  expectedLinkRevision : Nat
  localRevision : String
  remoteRevision : String
  providerRevision : Option String
  authorizationRevision : String
  idempotencyKey : String

def SyncAction.text : SyncAction → String
  | .noop => "noop"
  | .localToRemote => "local_to_remote"
  | .remoteToLocal => "remote_to_local"
  | .mergeRequired => "merge_required"

def ConflictCode.text : ConflictCode → String
  | .remoteMissing => "remote_missing"
  | .providerMismatch => "provider_mismatch"
  | .bothChanged => "both_changed"

/-- The object that the digest of a sync plan covers. -/
def syncPlanPreimage (system : System) (plan : ProjectSyncPlan) (organizationId : String) : Json :=
  .object [
    ("link_id", textJson plan.linkId),
    ("action", textJson plan.action.text),
    ("expected_link_revision", naturalJson plan.expectedLinkRevision),
    ("local_revision", textJson plan.localRevision),
    ("remote_revision", textJson plan.remoteRevision),
    ("provider_revision", optionalJson plan.providerRevision),
    ("remote_identity_revision", naturalJson plan.remoteIdentityRevision),
    ("provider_identity_revision",
      (plan.providerIdentityRevision.map naturalJson).getD .null),
    ("conflict_code", optionalJson (plan.conflictCode.map ConflictCode.text)),
    ("common_ancestor_revision", optionalJson plan.commonAncestorRevision),
    ("organization_id", textJson organizationId),
    ("actor_account_id", textJson plan.actorAccountId),
    ("device_id", textJson plan.deviceId),
    ("expires_at", textJson (system.timestamp plan.expiresAt))]

structure SyncDecision where
  state : SyncState
  action : SyncAction
  conflictCode : Option ConflictCode

/-- Both sides changed: the descendant wins, and unrelated revisions need a merge. -/
def decideBoth (seen : Database) (project : ProjectKey) (localRevision remoteRevision : String) :
    SyncDecision :=
  if projectIsAncestor seen project localRevision remoteRevision then
    ⟨.ready, .remoteToLocal, none⟩
  else if projectIsAncestor seen project remoteRevision localRevision then
    ⟨.ready, .localToRemote, none⟩
  else
    ⟨.conflict, .mergeRequired, some .bothChanged⟩

/-- The provider that the link names is not there, or not as it was. -/
def providerMismatch (link : ProjectLink) (provider : Option ProjectIdentity)
    (providerChanged : Bool) : Bool :=
  (provider.isNone ∧ link.providerProjectId.isSome) ∨
    provider.any (fun identity ↦ identity.state ≠ .active) ∨ providerChanged

def decideSync (seen : Database) (link : ProjectLink) (remote provider : Option ProjectIdentity)
    (payload : ProjectSyncPlanRequest) : SyncDecision :=
  let localChanged := payload.localRevision ≠ link.localRevision
  let remoteChanged := payload.remoteRevision ≠ link.remoteRevision
  let providerChanged := payload.providerRevision ≠ link.providerRevision
  if remote.all fun identity ↦ identity.state ≠ .active then
    ⟨.conflict, .mergeRequired, some .remoteMissing⟩
  else if providerMismatch link provider providerChanged then
    ⟨.conflict, .mergeRequired, some .providerMismatch⟩
  else if localChanged ∧ remoteChanged then
    decideBoth seen link.project payload.localRevision payload.remoteRevision
  else if localChanged then
    ⟨.ready, .localToRemote, none⟩
  else if remoteChanged then
    ⟨.ready, .remoteToLocal, none⟩
  else
    ⟨.ready, .noop, none⟩

/-- The revisions of a request that the link does not have. -/
def changedRevisions (link : ProjectLink) (payload : ProjectSyncPlanRequest) : List String :=
  (if payload.localRevision ≠ link.localRevision then [payload.localRevision] else []) ++
    if payload.remoteRevision ≠ link.remoteRevision then [payload.remoteRevision] else []

def planMinutes : Int := 15

/-- Plans expire fifteen minutes after they are made; time counts microseconds. -/
def planExpiry (now : Int) : Int := now + planMinutes * 60 * 1000000

/-- The provider identity of a link, if the link names one. -/
def providerOf (surroundings : Surroundings) (organizationId : String) (link : ProjectLink) :
    Option ProjectIdentity :=
  link.providerProjectId.bind (identityOf surroundings organizationId .provider)

/-- The plan row before its digest is known. -/
def syncPlanRow (seen : Database) (link : ProjectLink) (remote provider : Option ProjectIdentity)
    (ctx : AuthContext) (deviceId : String) (payload : ProjectSyncPlanRequest) (now : Int) :
    ProjectSyncPlan :=
  let decision := decideSync seen link remote provider payload
  { linkId := payload.linkId
    actorAccountId := ctx.accountId
    deviceId := deviceId
    state := decision.state
    action := decision.action
    expectedLinkRevision := payload.expectedLinkRevision
    localRevision := payload.localRevision
    remoteRevision := payload.remoteRevision
    providerRevision := payload.providerRevision
    remoteIdentityRevision := (remote.map (·.revision)).getD 0
    providerIdentityRevision := provider.map (·.revision)
    conflictCode := decision.conflictCode
    commonAncestorRevision :=
      if decision.state = .conflict ∧ decision.conflictCode = some .bothChanged then
        LevelSearch.commonAncestor (projectParents seen.revisions link.project) 256
          payload.localRevision payload.remoteRevision
      else none
    idempotencyKey := payload.idempotencyKey
    planDigest := ""
    applyIdempotencyKey := none
    expiresAt := planExpiry now }

/-- The plan that already answers the request. -/
def replayedSyncPlan (planId : String) (replay : ProjectSyncPlan) (ctx : AuthContext)
    (deviceId : String) (payload : ProjectSyncPlanRequest) :
    Except ApiError (String × ProjectSyncPlan) := do
  require (replay.expectedLinkRevision = payload.expectedLinkRevision ∧
      replay.localRevision = payload.localRevision ∧
      replay.remoteRevision = payload.remoteRevision ∧
      replay.providerRevision = payload.providerRevision ∧
      replay.actorAccountId = ctx.accountId ∧ replay.deviceId = deviceId) .conflict
    "idempotency key belongs to another sync plan"
  return (planId, replay)

/-- The plan of a link under a key. -/
def findSyncPlan (db : Database) (linkId idempotencyKey : String) :
    Option (String × ProjectSyncPlan) :=
  db.syncPlans.find? fun _ plan ↦ plan.linkId = linkId ∧ plan.idempotencyKey = idempotencyKey

/-- Stores a new plan; a taken key is an error that no handler expects. -/
def storeSyncPlan (db : Database) (planId : String) (plan : ProjectSyncPlan) :
    Except ApiError ((String × ProjectSyncPlan) × Database) := do
  require ((findSyncPlan db plan.linkId plan.idempotencyKey).isNone) .internal "internal error"
  let syncPlans ← found (db.syncPlans.insert? planId plan) .internal "internal error"
  return ((planId, plan), { db with syncPlans := syncPlans })

/-- Persists a sync decision without changing either endpoint. -/
def createSyncPlan (system : System) (surroundings : Surroundings) (seen : Seen) (db : Database)
    (ctx : AuthContext) (organizationId : String) (payload : ProjectSyncPlanRequest)
    (newId : String) (now : Int) : Except ApiError ((String × ProjectSyncPlan) × Database) := do
  let deviceId ← requireActiveDevice surroundings ctx
  let link ← linkForMember surroundings db.links ctx organizationId payload.linkId
  requireLinked link false
  requireCapability surroundings ctx link.organizationId "project.read"
    payload.authorizationRevision
  match findSyncPlan seen.replay payload.linkId payload.idempotencyKey with
  | some (planId, replay) => do
    let answer ← replayedSyncPlan planId replay ctx deviceId payload
    return (answer, db)
  | none => do
    require (link.revision = payload.expectedLinkRevision) .precondition
      "project link revision is stale"
    require ((changedRevisions link payload).all (isStored seen.revisions link.project))
      .precondition "project revision is not in the organization ledger"
    let remote := identityOf surroundings organizationId .remote link.remoteProjectId
    let provider := providerOf surroundings organizationId link
    let plan := syncPlanRow seen.revisions link remote provider ctx deviceId payload now
    storeSyncPlan db newId
      { plan with planDigest := system.planDigest (syncPlanPreimage system plan organizationId) }

structure ProjectSyncApplyRequest where
  planDigest : String
  expectedLinkRevision : Nat
  authorizationRevision : String
  idempotencyKey : String

/-- The identities of a link are as the plan recorded them. -/
def identitiesCurrent (surroundings : Surroundings) (organizationId : String) (link : ProjectLink)
    (plan : ProjectSyncPlan) : Bool :=
  (identityOf surroundings organizationId .remote link.remoteProjectId).any (fun remote ↦
    remote.state = .active ∧ remote.revision = plan.remoteIdentityRevision) ∧
  (link.providerProjectId.isSome → (providerOf surroundings organizationId link).isSome) ∧
  (providerOf surroundings organizationId link).all (fun provider ↦
    provider.state = .active ∧ some provider.revision = plan.providerIdentityRevision)

/-- What a request to apply a sync plan finds: the answer it was given before, or a plan and a link
that pass every check. -/
inductive SyncStanding where
  | replayed (plan : ProjectSyncPlan)
  | admitted (plan : ProjectSyncPlan) (link : ProjectLink)

/-- The checks of a plan that was not applied under this key. -/
def admitSyncPlan (system : System) (surroundings : Surroundings) (db : Database)
    (organizationId : String) (plan : ProjectSyncPlan) (link : ProjectLink)
    (payload : ProjectSyncApplyRequest) (now : Int) : Except ApiError SyncStanding := do
  require (plan.applyIdempotencyKey = none) .conflict "sync plan was already applied"
  require (plan.planDigest = payload.planDigest) .precondition "sync plan digest is stale"
  require (plan.planDigest = system.planDigest (syncPlanPreimage system plan organizationId))
    .precondition "sync plan digest is stale"
  require (now < plan.expiresAt) .precondition "sync plan has expired"
  require (plan.state = .ready ∧ plan.action ≠ .mergeRequired) .conflict
    "sync plan requires explicit conflict resolution"
  require (link.revision = payload.expectedLinkRevision ∧
      link.revision = plan.expectedLinkRevision) .precondition "project link revision is stale"
  require (identitiesCurrent surroundings organizationId link plan) .precondition
    "project identity is stale"
  require ((db.heads.get? link.project).getD "initial" = plan.remoteRevision) .precondition
    "project revision head is stale"
  return .admitted plan link

def syncStanding (system : System) (surroundings : Surroundings) (db : Database)
    (ctx : AuthContext) (organizationId planId linkId : String)
    (payload : ProjectSyncApplyRequest) (now : Int) : Except ApiError SyncStanding := do
  let deviceId ← requireActiveDevice surroundings ctx
  let plan ← found (db.syncPlans.get? planId) .notFound "sync plan not found"
  require (plan.linkId = linkId) .notFound "sync plan not found"
  let link ← linkForMember surroundings db.links ctx organizationId plan.linkId
  requireLinked link false
  requireCapability surroundings ctx link.organizationId "project.update"
    payload.authorizationRevision
  require (plan.actorAccountId = ctx.accountId ∧ plan.deviceId = deviceId) .permission
    "sync plan belongs to another device"
  if plan.applyIdempotencyKey = some payload.idempotencyKey then .ok (.replayed plan)
  else admitSyncPlan system surroundings db organizationId plan link payload now

/-- The head that a plan selects. -/
def selectedHead (plan : ProjectSyncPlan) : Option String :=
  match plan.action with
  | .localToRemote => some plan.localRevision
  | .remoteToLocal => some plan.remoteRevision
  | _ => none

def syncHeads (db : Database) (project : ProjectKey) (plan : ProjectSyncPlan) :
    Table ProjectKey String :=
  match selectedHead plan with
  | some revisionId => db.heads.set project revisionId
  | none => db.heads

/-- The writes of an admitted plan. -/
def syncWrites (db : Database) (planId : String) (plan : ProjectSyncPlan) (link : ProjectLink)
    (idempotencyKey : String) : ProjectSyncPlan × Database :=
  let applied := { plan with state := .applied, applyIdempotencyKey := some idempotencyKey }
  (applied, { db with
    links := db.links.update plan.linkId { link with
      localRevision := plan.localRevision
      remoteRevision := plan.remoteRevision
      providerRevision := plan.providerRevision
      revision := link.revision + 1 }
    heads := syncHeads db link.project plan
    syncPlans := db.syncPlans.update planId applied })

/-- No plan was applied under the key. -/
def freeApplyKey (db : Database) (idempotencyKey : String) : Bool :=
  (db.syncPlans.find? fun _ plan ↦ plan.applyIdempotencyKey = some idempotencyKey).isNone

/-- Applies one exact ready plan. -/
def applySyncPlan (system : System) (surroundings : Surroundings) (db : Database)
    (ctx : AuthContext) (organizationId planId linkId : String)
    (payload : ProjectSyncApplyRequest) (now : Int) :
    Except ApiError (ProjectSyncPlan × Database) := do
  let standing ← syncStanding system surroundings db ctx organizationId planId linkId payload now
  match standing with
  | .replayed plan => .ok (plan, db)
  | .admitted plan link => do
    require (freeApplyKey db payload.idempotencyKey) .internal "internal error"
    return syncWrites db planId plan link payload.idempotencyKey

end AiStp.Context
