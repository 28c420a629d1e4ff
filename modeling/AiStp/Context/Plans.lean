import AiStp.Context.Revisions

/-!
# Link and unlink plans

A link is created, and ended, in two requests: the server makes a plan, and the device confirms the
exact plan before it expires. The confirmation locks the row of the plan and stores its answer there
and in the link. An outcome is read later from the plan and the link; a settlement is an outcome read
under the lock of the plan.
-/

set_option autoImplicit false

namespace AiStp.Context

open Foundation Library

/-! ### Link plans -/

structure ProjectLinkPlanRequest where
  localProjectId : String
  remoteProjectId : String
  providerProjectId : Option String
  localRevision : String
  remoteRevision : String
  providerRevision : Option String
  authorizationRevision : String
  idempotencyKey : String

/-- Another repository that the remote project is linked with. -/
def otherRepository (surroundings : Surroundings) (seen : Database) (organizationId : String)
    (remoteProjectId providerProjectId : String) : Bool :=
  seen.links.entries.any (fun entry ↦
    entry.2.organizationId = organizationId ∧ entry.2.remoteProjectId = remoteProjectId ∧
      entry.2.state = .linked ∧ entry.2.providerProjectId.any (· ≠ providerProjectId)) ||
  surroundings.repositoryBindings.any fun binding ↦
    binding.organizationId = organizationId ∧ binding.remoteProjectId = remoteProjectId ∧
      binding.linked ∧ binding.providerProjectId ≠ providerProjectId

def activeIdentity (surroundings : Surroundings) (organizationId : String)
    (identityNamespace : Corporate.IdentityNamespace) (id : String) : Option ProjectIdentity :=
  (identityOf surroundings organizationId identityNamespace id).filter (·.state = .active)

def validateLinkTargets (surroundings : Surroundings) (seen : Database) (organizationId : String)
    (remoteProjectId : String) (providerProjectId : Option String) : Except ApiError Unit := do
  let _ ← found (activeIdentity surroundings organizationId .remote remoteProjectId) .notFound
    "remote project not found"
  match providerProjectId with
  | none => .ok ()
  | some provider => do
    let _ ← found (activeIdentity surroundings organizationId .provider provider) .notFound
      "provider project not found"
    require (!otherRepository surroundings seen organizationId remoteProjectId provider) .conflict
      "corporate project already has a different repository"

/-- The revision of the provider is the one that a plan names; without a provider it names none. -/
def providerRevisionCurrent (surroundings : Surroundings) (organizationId : String)
    (providerProjectId providerRevision : Option String) : Bool :=
  match providerProjectId with
  | none => providerRevision.isNone
  | some provider => (activeIdentity surroundings organizationId .provider provider).any
      fun identity ↦ providerRevision = some (toString identity.revision)

/-- Refuses a plan or a confirmation that rests on stale evidence. -/
def validateLinkTargetRevisions (surroundings : Surroundings) (seen : Seen)
    (organizationId remoteProjectId : String) (providerProjectId : Option String)
    (remoteRevision : String) (providerRevision : Option String) : Except ApiError Unit := do
  validateLinkTargets surroundings seen.links organizationId remoteProjectId providerProjectId
  require (remoteRevision =
      (seen.head.heads.get? (organizationId, remoteProjectId)).getD "initial") .precondition
    "remote project revision is stale"
  require (providerRevisionCurrent surroundings organizationId providerProjectId providerRevision)
    .precondition "provider project revision is stale"

/-- The open link of a local project. -/
def findOpenLink (db : Database) (organizationId localProjectId : String) :
    Option (String × ProjectLink) :=
  db.links.find? fun _ link ↦
    link.organizationId = organizationId ∧ link.localProjectId = localProjectId ∧ link.isOpen

/-- The object that the digest of a link plan covers. -/
def linkPlanPreimage (system : System) (plan : ProjectLinkPlan) : Json :=
  .object [
    ("organization_id", textJson plan.organizationId),
    ("actor_account_id", textJson plan.actorAccountId),
    ("device_id", textJson plan.deviceId),
    ("local_project_id", textJson plan.localProjectId),
    ("remote_project_id", textJson plan.remoteProjectId),
    ("provider_project_id", optionalJson plan.providerProjectId),
    ("local_revision", textJson plan.localRevision),
    ("remote_revision", textJson plan.remoteRevision),
    ("provider_revision", optionalJson plan.providerRevision),
    ("authorization_revision", textJson plan.authorizationRevision),
    ("expires_at", textJson (system.timestamp plan.expiresAt))]

/-- The plan row before its digest is known. -/
def linkPlanRow (ctx : AuthContext) (deviceId organizationId : String)
    (payload : ProjectLinkPlanRequest) (now : Int) : ProjectLinkPlan :=
  { organizationId := organizationId
    actorAccountId := ctx.accountId
    deviceId := deviceId
    localProjectId := payload.localProjectId
    remoteProjectId := payload.remoteProjectId
    providerProjectId := payload.providerProjectId
    localRevision := payload.localRevision
    remoteRevision := payload.remoteRevision
    providerRevision := payload.providerRevision
    authorizationRevision := payload.authorizationRevision
    idempotencyKey := payload.idempotencyKey
    planDigest := ""
    state := .ready
    linkId := none
    expiresAt := planExpiry now }

def findLinkPlan (db : Database) (organizationId idempotencyKey : String) :
    Option (String × ProjectLinkPlan) :=
  db.linkPlans.find? fun _ plan ↦
    plan.organizationId = organizationId ∧ plan.idempotencyKey = idempotencyKey

/-- The plan that already answers the request. -/
def replayedLinkPlan (planId : String) (replay : ProjectLinkPlan) (ctx : AuthContext)
    (payload : ProjectLinkPlanRequest) : Except ApiError (String × ProjectLinkPlan) := do
  require (replay.localProjectId = payload.localProjectId ∧
      replay.remoteProjectId = payload.remoteProjectId ∧
      replay.providerProjectId = payload.providerProjectId ∧
      replay.localRevision = payload.localRevision ∧
      replay.remoteRevision = payload.remoteRevision ∧
      replay.providerRevision = payload.providerRevision ∧
      replay.actorAccountId = ctx.accountId) .conflict
    "idempotency key belongs to another link plan"
  return (planId, replay)

def storeLinkPlan (db : Database) (planId : String) (plan : ProjectLinkPlan) :
    Except ApiError ((String × ProjectLinkPlan) × Database) := do
  require ((findLinkPlan db plan.organizationId plan.idempotencyKey).isNone) .internal
    "internal error"
  let linkPlans ← found (db.linkPlans.insert? planId plan) .internal "internal error"
  return ((planId, plan), { db with linkPlans := linkPlans })

/-- Creates or replays the server-authored link decision. -/
def createProjectLinkPlan (system : System) (surroundings : Surroundings) (seen : Seen)
    (db : Database) (ctx : AuthContext) (organizationId : String)
    (payload : ProjectLinkPlanRequest) (newId : String) (now : Int) :
    Except ApiError ((String × ProjectLinkPlan) × Database) := do
  let deviceId ← requireActiveDevice surroundings ctx
  requireCapability surroundings ctx organizationId "project.link" payload.authorizationRevision
  match findLinkPlan seen.replay organizationId payload.idempotencyKey with
  | some (planId, replay) => do
    let answer ← replayedLinkPlan planId replay ctx payload
    return (answer, db)
  | none => do
    surroundings.linkProject organizationId ctx.accountId payload.remoteProjectId
    validateLinkTargetRevisions surroundings seen organizationId payload.remoteProjectId
      payload.providerProjectId payload.remoteRevision payload.providerRevision
    require ((findOpenLink seen.links organizationId payload.localProjectId).isNone) .conflict
      "local project is already linked"
    let plan := linkPlanRow ctx deviceId organizationId payload now
    storeLinkPlan db newId { plan with planDigest := system.planDigest (linkPlanPreimage system plan) }

/-! ### Confirmed links -/

structure ProjectLinkRequest where
  planId : String
  planDigest : String
  authorizationRevision : String
  idempotencyKey : String

def findLinkByKey (db : Database) (idempotencyKey : String) : Option (String × ProjectLink) :=
  db.links.find? fun _ link ↦ link.createIdempotencyKey = idempotencyKey

/-- The link that already answers the confirmation. -/
def replayedLink (linkId : String) (replay : ProjectLink) (organizationId : String)
    (payload : ProjectLinkRequest) : Except ApiError (String × ProjectLink) := do
  require (replay.organizationId = organizationId ∧ replay.planId = payload.planId ∧
      replay.planDigest = payload.planDigest) .conflict
    "idempotency key belongs to another project link"
  return (linkId, replay)

/-- The link of a confirmed plan. -/
def newLink (planId : String) (plan : ProjectLinkPlan) (ctx : AuthContext) (deviceId : String)
    (organizationId idempotencyKey : String) : ProjectLink :=
  { planId := planId
    planDigest := plan.planDigest
    organizationId := organizationId
    actorAccountId := ctx.accountId
    deviceId := deviceId
    localProjectId := plan.localProjectId
    remoteProjectId := plan.remoteProjectId
    providerProjectId := plan.providerProjectId
    state := .linked
    localRevision := plan.localRevision
    remoteRevision := plan.remoteRevision
    providerRevision := plan.providerRevision
    conflictServerRevision := none
    conflictClientRevision := none
    conflictCommonAncestor := none
    revision := 1
    createIdempotencyKey := idempotencyKey
    unlinkIdempotencyKey := none }

/-- The checks of the locked row of a link plan. -/
def checkLinkPlan (system : System) (plan : ProjectLinkPlan) (ctx : AuthContext)
    (deviceId organizationId : String) (payload : ProjectLinkRequest) (now : Int) :
    Except ApiError Unit := do
  require (plan.organizationId = organizationId) .notFound "project link plan not found"
  require (plan.actorAccountId = ctx.accountId ∧ plan.deviceId = deviceId) .permission
    "project link plan belongs to another device"
  require (plan.planDigest = payload.planDigest) .precondition "project link plan digest is stale"
  require (plan.planDigest = system.planDigest (linkPlanPreimage system plan)) .precondition
    "project link plan digest is stale"
  require (plan.authorizationRevision = payload.authorizationRevision) .precondition
    "project link plan authorization is stale"
  require (plan.state = .ready ∧ now < plan.expiresAt) .precondition
    "project link plan is no longer active"

/-- Stores a link. Its keys and the local project of an open link are unique. -/
def storeLink (db : Database) (linkId : String) (link : ProjectLink) :
    Except ApiError (Table String ProjectLink) := do
  require ((findLinkByKey db link.createIdempotencyKey).isNone ∧
      (findOpenLink db link.organizationId link.localProjectId).isNone) .internal "internal error"
  found (db.links.insert? linkId link) .internal "internal error"

/-- Confirms one exact server-authored link plan. -/
def createProjectLink (system : System) (surroundings : Surroundings) (seen : Seen)
    (db : Database) (ctx : AuthContext) (organizationId : String) (payload : ProjectLinkRequest)
    (newId : String) (now : Int) : Except ApiError ((String × ProjectLink) × Database) := do
  let deviceId ← requireActiveDevice surroundings ctx
  requireCapability surroundings ctx organizationId "project.link" payload.authorizationRevision
  match findLinkByKey seen.replay payload.idempotencyKey with
  | some (linkId, replay) => do
    let answer ← replayedLink linkId replay organizationId payload
    return (answer, db)
  | none => do
    let plan ← found (db.linkPlans.get? payload.planId) .notFound "project link plan not found"
    checkLinkPlan system plan ctx deviceId organizationId payload now
    surroundings.linkProject organizationId ctx.accountId plan.remoteProjectId
    validateLinkTargetRevisions surroundings seen organizationId plan.remoteProjectId
      plan.providerProjectId plan.remoteRevision plan.providerRevision
    require ((findOpenLink seen.links organizationId plan.localProjectId).isNone) .conflict
      "local project is already linked"
    let link := newLink payload.planId plan ctx deviceId organizationId payload.idempotencyKey
    let links ← storeLink db newId link
    return ((newId, link), { db with
      links := links
      linkPlans := db.linkPlans.update payload.planId
        { plan with state := .applied, linkId := some newId } })

/-! ### Unlink plans -/

structure ProjectUnlinkPlanRequest where
  linkId : String
  expectedLinkRevision : Nat
  authorizationRevision : String
  idempotencyKey : String

/-- The object that the digest of an unlink plan covers. -/
def unlinkPlanPreimage (system : System) (plan : ProjectUnlinkPlan) : Json :=
  .object [
    ("organization_id", textJson plan.organizationId),
    ("link_id", textJson plan.linkId),
    ("actor_account_id", textJson plan.actorAccountId),
    ("device_id", textJson plan.deviceId),
    ("local_project_id", textJson plan.localProjectId),
    ("remote_project_id", textJson plan.remoteProjectId),
    ("provider_project_id", optionalJson plan.providerProjectId),
    ("expected_link_revision", naturalJson plan.expectedLinkRevision),
    ("local_revision", textJson plan.localRevision),
    ("remote_revision", textJson plan.remoteRevision),
    ("provider_revision", optionalJson plan.providerRevision),
    ("authorization_revision", textJson plan.authorizationRevision),
    ("expires_at", textJson (system.timestamp plan.expiresAt))]

/-- The plan row before its digest is known. -/
def unlinkPlanRow (ctx : AuthContext) (deviceId organizationId : String) (link : ProjectLink)
    (payload : ProjectUnlinkPlanRequest) (now : Int) : ProjectUnlinkPlan :=
  { organizationId := organizationId
    linkId := payload.linkId
    actorAccountId := ctx.accountId
    deviceId := deviceId
    localProjectId := link.localProjectId
    remoteProjectId := link.remoteProjectId
    providerProjectId := link.providerProjectId
    expectedLinkRevision := link.revision
    localRevision := link.localRevision
    remoteRevision := link.remoteRevision
    providerRevision := link.providerRevision
    authorizationRevision := payload.authorizationRevision
    idempotencyKey := payload.idempotencyKey
    planDigest := ""
    state := .ready
    confirmationIdempotencyKey := none
    expiresAt := planExpiry now }

def findUnlinkPlan (db : Database) (organizationId idempotencyKey : String) :
    Option (String × ProjectUnlinkPlan) :=
  db.unlinkPlans.find? fun _ plan ↦
    plan.organizationId = organizationId ∧ plan.idempotencyKey = idempotencyKey

/-- The plan that already answers the request. -/
def replayedUnlinkPlan (planId : String) (replay : ProjectUnlinkPlan) (ctx : AuthContext)
    (payload : ProjectUnlinkPlanRequest) : Except ApiError (String × ProjectUnlinkPlan) := do
  require (replay.linkId = payload.linkId ∧
      replay.expectedLinkRevision = payload.expectedLinkRevision ∧
      replay.actorAccountId = ctx.accountId) .conflict
    "idempotency key belongs to another unlink plan"
  return (planId, replay)

def storeUnlinkPlan (db : Database) (planId : String) (plan : ProjectUnlinkPlan) :
    Except ApiError ((String × ProjectUnlinkPlan) × Database) := do
  require ((findUnlinkPlan db plan.organizationId plan.idempotencyKey).isNone) .internal
    "internal error"
  let unlinkPlans ← found (db.unlinkPlans.insert? planId plan) .internal "internal error"
  return ((planId, plan), { db with unlinkPlans := unlinkPlans })

/-- Creates or replays the server-authored unlink decision. -/
def createProjectUnlinkPlan (system : System) (surroundings : Surroundings) (seen : Seen)
    (db : Database) (ctx : AuthContext) (organizationId : String)
    (payload : ProjectUnlinkPlanRequest) (newId : String) (now : Int) :
    Except ApiError ((String × ProjectUnlinkPlan) × Database) := do
  let deviceId ← requireActiveDevice surroundings ctx
  let link ← linkForMember surroundings seen.links.links ctx organizationId payload.linkId
  requireCapability surroundings ctx organizationId "project.unlink" payload.authorizationRevision
  match findUnlinkPlan seen.replay organizationId payload.idempotencyKey with
  | some (planId, replay) => do
    let answer ← replayedUnlinkPlan planId replay ctx payload
    return (answer, db)
  | none => do
    require link.isOpen .precondition "project link is already unlinked"
    require (link.revision = payload.expectedLinkRevision) .precondition
      "project link revision is stale"
    let plan := unlinkPlanRow ctx deviceId organizationId link payload now
    storeUnlinkPlan db newId
      { plan with planDigest := system.planDigest (unlinkPlanPreimage system plan) }

/-! ### Confirmed unlinks -/

structure ProjectUnlinkRequest where
  planId : String
  planDigest : String
  authorizationRevision : String
  idempotencyKey : String

/-- The checks of an unlink plan that hold for a first confirmation and for a repeated one. -/
def checkUnlinkPlan (system : System) (plan : ProjectUnlinkPlan) (ctx : AuthContext)
    (deviceId : String) (payload : ProjectUnlinkRequest) : Except ApiError Unit := do
  require (plan.actorAccountId = ctx.accountId ∧ plan.deviceId = deviceId) .permission
    "project unlink plan belongs to another device"
  require (plan.planDigest = payload.planDigest) .precondition "project unlink plan digest is stale"
  require (plan.planDigest = system.planDigest (unlinkPlanPreimage system plan)) .precondition
    "project unlink plan digest is stale"
  require (plan.authorizationRevision = payload.authorizationRevision) .precondition
    "project unlink plan authorization is stale"

/-- The checks of a first confirmation. -/
def checkUnlink (plan : ProjectUnlinkPlan) (link : ProjectLink) (now : Int) :
    Except ApiError Unit := do
  require (plan.state = .ready ∧ now < plan.expiresAt) .precondition
    "project unlink plan is no longer active"
  require link.isOpen .precondition "project link is already unlinked"
  require (link.revision = plan.expectedLinkRevision ∧ link.localRevision = plan.localRevision ∧
      link.remoteRevision = plan.remoteRevision ∧
      link.providerRevision = plan.providerRevision) .precondition "project link revision is stale"

/-- No link was ended and no plan confirmed under the key. -/
def freeUnlinkKey (db : Database) (idempotencyKey : String) : Bool :=
  (db.links.find? fun _ link ↦ link.unlinkIdempotencyKey = some idempotencyKey).isNone ∧
    (db.unlinkPlans.find? fun _ plan ↦
      plan.confirmationIdempotencyKey = some idempotencyKey).isNone

/-- The writes of a confirmed unlink plan. -/
def unlinkWrites (db : Database) (planId : String) (plan : ProjectUnlinkPlan) (link : ProjectLink)
    (idempotencyKey : String) : ProjectLink × Database :=
  let ended := { link with
    state := .unlinked
    revision := link.revision + 1
    unlinkIdempotencyKey := some idempotencyKey }
  (ended, { db with
    links := db.links.update plan.linkId ended
    unlinkPlans := db.unlinkPlans.update planId
      { plan with state := .applied, confirmationIdempotencyKey := some idempotencyKey } })

/-- Confirms one exact unlink plan, retaining identities and history. -/
def unlinkProjectLink (system : System) (surroundings : Surroundings) (db : Database)
    (ctx : AuthContext) (organizationId linkId : String) (payload : ProjectUnlinkRequest)
    (now : Int) : Except ApiError (ProjectLink × Database) := do
  let deviceId ← requireActiveDevice surroundings ctx
  let plan ← found (db.unlinkPlans.get? payload.planId) .notFound "project unlink plan not found"
  require (plan.linkId = linkId) .notFound "project unlink plan not found"
  let link ← linkForMember surroundings db.links ctx organizationId plan.linkId
  require (link.organizationId = plan.organizationId) .notFound "project unlink plan not found"
  requireCapability surroundings ctx link.organizationId "project.unlink"
    payload.authorizationRevision
  checkUnlinkPlan system plan ctx deviceId payload
  if plan.state = .applied ∧ plan.confirmationIdempotencyKey = some payload.idempotencyKey then
    .ok (link, db)
  else do
    checkUnlink plan link now
    require (freeUnlinkKey db payload.idempotencyKey) .internal "internal error"
    return unlinkWrites db payload.planId plan link payload.idempotencyKey

/-! ### Outcomes -/

/-- The state of a plan at a reading of the clock. -/
def outcomeState (state : PlanState) (expiresAt now : Int) : PlanState :=
  if state = .ready ∧ expiresAt ≤ now then .expired else state

structure ProjectLinkPlanOutcome where
  plan : ProjectLinkPlan
  state : PlanState
  link : Option ProjectLink
  authorizationRevision : String
  observedAt : Int

/-- The link that an applied plan names, if it is the one the plan created for the caller. -/
def linkOfPlan (links : Table String ProjectLink) (planId : String) (plan : ProjectLinkPlan)
    (ctx : AuthContext) (organizationId : String) : Option ProjectLink :=
  (plan.linkId.bind links.get?).filter fun link ↦
    link.organizationId = organizationId ∧ link.actorAccountId = ctx.accountId ∧
    link.deviceId = plan.deviceId ∧ link.planId = planId ∧ link.planDigest = plan.planDigest ∧
    link.localProjectId = plan.localProjectId ∧ link.remoteProjectId = plan.remoteProjectId ∧
    link.providerProjectId = plan.providerProjectId

/-- The outcome of a link plan of the caller. The plan and its link are read in two statements:
under the lock of a settlement both see one state, otherwise the link is read from a later one. -/
def projectLinkPlanOutcome (surroundings : Surroundings) (plans links : Database)
    (ctx : AuthContext) (organizationId planId : String) (now : Int) :
    Except ApiError ProjectLinkPlanOutcome := do
  let _ ← requireActiveDevice surroundings ctx
  let projection ← remoteProjection surroundings ctx organizationId
  requireCapability surroundings ctx organizationId "project.link"
    projection.authorizationRevision
  let plan ← found
    ((plans.linkPlans.get? planId).filter fun plan ↦
      plan.organizationId = organizationId ∧ plan.actorAccountId = ctx.accountId)
    .notFound "project link plan not found"
  let state := outcomeState plan.state plan.expiresAt now
  let link :=
    if state = .applied then linkOfPlan links.links planId plan ctx organizationId else none
  require ((state = .applied ↔ link ≠ none) ∧ (state = .applied ∨ plan.linkId = none))
    .precondition "project link outcome is inconsistent"
  return ⟨plan, state, link, projection.authorizationRevision, now⟩

structure ProjectUnlinkPlanOutcome where
  plan : ProjectUnlinkPlan
  state : PlanState
  link : Option ProjectLink
  authorizationRevision : String
  observedAt : Int

/-- The link that an applied unlink plan ended, if it still is as the confirmation left it. -/
def linkOfUnlinkPlan (links : Table String ProjectLink) (plan : ProjectUnlinkPlan)
    (confirmationIdempotencyKey : String) : Option ProjectLink :=
  (links.get? plan.linkId).filter fun link ↦
    link.organizationId = plan.organizationId ∧ link.localProjectId = plan.localProjectId ∧
    link.remoteProjectId = plan.remoteProjectId ∧
    link.providerProjectId = plan.providerProjectId ∧ link.localRevision = plan.localRevision ∧
    link.remoteRevision = plan.remoteRevision ∧ link.providerRevision = plan.providerRevision ∧
    link.state = .unlinked ∧ link.revision = plan.expectedLinkRevision + 1 ∧
    link.unlinkIdempotencyKey = some confirmationIdempotencyKey

/-- The outcome of an unlink plan of the caller. -/
def projectUnlinkPlanOutcome (surroundings : Surroundings) (plans links : Database)
    (ctx : AuthContext) (organizationId planId : String) (now : Int) :
    Except ApiError ProjectUnlinkPlanOutcome := do
  let _ ← requireActiveDevice surroundings ctx
  let projection ← remoteProjection surroundings ctx organizationId
  requireCapability surroundings ctx organizationId "project.unlink"
    projection.authorizationRevision
  let plan ← found
    ((plans.unlinkPlans.get? planId).filter fun plan ↦
      plan.organizationId = organizationId ∧ plan.actorAccountId = ctx.accountId)
    .notFound "project unlink plan not found"
  let state := outcomeState plan.state plan.expiresAt now
  require (state = .applied → plan.confirmationIdempotencyKey.isSome) .precondition
    "project unlink outcome is inconsistent"
  let link :=
    if state = .applied then
      plan.confirmationIdempotencyKey.bind (linkOfUnlinkPlan links.links plan)
    else none
  require ((state = .applied ↔ link ≠ none) ∧
      (state = .applied ∨ plan.confirmationIdempotencyKey = none)) .precondition
    "project unlink outcome is inconsistent"
  return ⟨plan, state, link, projection.authorizationRevision, now⟩

end AiStp.Context
