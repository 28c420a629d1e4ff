import AiStp.Corporate.Records
import AiStp.Foundation.Canonical
import AiStp.Foundation.Errors
import AiStp.Library.Tables

/-!
# Project context records

The rows that requests about linked projects read and write. A link binds a local project of a
device to a remote project of an organization; link, unlink and sync plans are decisions that a
device confirms later; the ledger of a remote project is its revisions and its head.

`Surroundings` holds what these requests read and never write: devices, memberships, capability
projections, identities and the repositories bound by an organization. Every request is given its
own surroundings, since other requests may change them at any time.
-/

set_option autoImplicit false

namespace AiStp.Context

open Foundation Library

/-! ### Rows -/

inductive LinkState where
  | linked
  | unlinked
  | conflict
deriving DecidableEq

structure ProjectLink where
  planId : String
  planDigest : String
  organizationId : String
  actorAccountId : String
  deviceId : String
  localProjectId : String
  remoteProjectId : String
  providerProjectId : Option String
  state : LinkState
  localRevision : String
  remoteRevision : String
  providerRevision : Option String
  conflictServerRevision : Option String
  conflictClientRevision : Option String
  conflictCommonAncestor : Option String
  revision : Nat
  createIdempotencyKey : String
  unlinkIdempotencyKey : Option String
deriving DecidableEq

inductive PlanState where
  | ready
  | applied
  | expired
deriving DecidableEq

structure ProjectLinkPlan where
  organizationId : String
  actorAccountId : String
  deviceId : String
  localProjectId : String
  remoteProjectId : String
  providerProjectId : Option String
  localRevision : String
  remoteRevision : String
  providerRevision : Option String
  authorizationRevision : String
  idempotencyKey : String
  planDigest : String
  state : PlanState
  linkId : Option String
  expiresAt : Int
deriving DecidableEq

structure ProjectUnlinkPlan where
  organizationId : String
  linkId : String
  actorAccountId : String
  deviceId : String
  localProjectId : String
  remoteProjectId : String
  providerProjectId : Option String
  expectedLinkRevision : Nat
  localRevision : String
  remoteRevision : String
  providerRevision : Option String
  authorizationRevision : String
  idempotencyKey : String
  planDigest : String
  state : PlanState
  confirmationIdempotencyKey : Option String
  expiresAt : Int
deriving DecidableEq

inductive SyncState where
  | ready
  | conflict
  | applied
  | failed
  | unknown
deriving DecidableEq

inductive SyncAction where
  | noop
  | localToRemote
  | remoteToLocal
  | mergeRequired
deriving DecidableEq

inductive ConflictCode where
  | remoteMissing
  | providerMismatch
  | bothChanged
deriving DecidableEq

structure ProjectSyncPlan where
  linkId : String
  actorAccountId : String
  deviceId : String
  state : SyncState
  action : SyncAction
  expectedLinkRevision : Nat
  localRevision : String
  remoteRevision : String
  providerRevision : Option String
  remoteIdentityRevision : Nat
  providerIdentityRevision : Option Nat
  conflictCode : Option ConflictCode
  commonAncestorRevision : Option String
  idempotencyKey : String
  planDigest : String
  applyIdempotencyKey : Option String
  expiresAt : Int
deriving DecidableEq

inductive Operation where
  | upsert
  | tombstone
deriving DecidableEq

structure ProjectRevision where
  parentRevisionIds : List String
  operation : Operation
  contentDigest : String
  projection : Json
  actorAccountId : String
  deviceId : String
  eventId : String

inductive ReceiptState where
  | accepted
  | conflict
deriving DecidableEq

/-- The body of the answer to a push. -/
structure ProjectRevisionReceipt where
  eventId : String
  state : ReceiptState
  revisionId : Option String
  serverHeadRevisionId : Option String
  clientHeadRevisionId : Option String
  commonAncestorRevisionId : Option String
  errorCode : Option String
deriving DecidableEq

structure ReceiptRow where
  requestFingerprint : String
  responseBody : ProjectRevisionReceipt
deriving DecidableEq

/-- An organization and a remote project of it. -/
abbrev ProjectKey := String × String

structure Database where
  links : Table String ProjectLink
  linkPlans : Table String ProjectLinkPlan
  unlinkPlans : Table String ProjectUnlinkPlan
  syncPlans : Table String ProjectSyncPlan
  revisions : Table (ProjectKey × String) ProjectRevision
  heads : Table ProjectKey String
  receipts : Table (ProjectKey × String) ReceiptRow

/-- No project was ever linked. -/
def Database.empty : Database :=
  ⟨.empty, .empty, .empty, .empty, .empty, .empty, .empty⟩

def ProjectLink.project (link : ProjectLink) : ProjectKey :=
  (link.organizationId, link.remoteProjectId)

/-- A link that still binds its local project. -/
def ProjectLink.isOpen (link : ProjectLink) : Bool :=
  link.state = .linked ∨ link.state = .conflict

/-! ### Surroundings -/

structure Device where
  accountId : String
  active : Bool

structure CapabilityProjection where
  authorizationRevision : String
  capabilities : List String

structure ProjectIdentity where
  organizationId : String
  identityNamespace : Corporate.IdentityNamespace
  state : Corporate.IdentityState
  revision : Nat

structure RepositoryBinding where
  organizationId : String
  remoteProjectId : String
  providerProjectId : String
  linked : Bool

structure Surroundings where
  devices : Table String Device
  /-- The account has an active membership in the organization. -/
  member : String → String → Bool
  /-- What an account may do in an active organization; nothing without an active membership. -/
  projection : String → String → Option CapabilityProjection
  /-- The account may link the project: in a corporate organization it can read the project, and
  the project is active. -/
  linkProject : String → String → String → Except ApiError Unit
  identities : Table String ProjectIdentity
  repositoryBindings : List RepositoryBinding

structure AuthContext where
  accountId : String
  deviceId : Option String

def requireActiveDevice (surroundings : Surroundings) (ctx : AuthContext) :
    Except ApiError String := do
  let deviceId ← found ctx.deviceId .authRequired "device-bound session required"
  let device ← found (surroundings.devices.get? deviceId) .authRequired
    "device-bound session required"
  require (device.accountId = ctx.accountId) .authRequired "device-bound session required"
  require device.active .deviceRevoked "device is revoked"
  return deviceId

/-- The projection of the organization for the caller. -/
def remoteProjection (surroundings : Surroundings) (ctx : AuthContext) (organizationId : String) :
    Except ApiError CapabilityProjection :=
  found (surroundings.projection organizationId ctx.accountId) .permission
    "organization access denied"

def requireCapability (surroundings : Surroundings) (ctx : AuthContext) (organizationId : String)
    (capability authorizationRevision : String) : Except ApiError Unit := do
  let projection ← remoteProjection surroundings ctx organizationId
  require (authorizationRevision = projection.authorizationRevision) .precondition
    "capability projection is stale"
  require (capability ∈ projection.capabilities) .permission
    "capability is not available in this context"

/-- An identity of the organization in a namespace. -/
def identityOf (surroundings : Surroundings) (organizationId : String)
    (identityNamespace : Corporate.IdentityNamespace) (id : String) : Option ProjectIdentity :=
  (surroundings.identities.get? id).filter fun identity ↦
    identity.organizationId = organizationId ∧ identity.identityNamespace = identityNamespace

/-- The row of a link, reached only through an active membership in its organization. -/
def linkForMember (surroundings : Surroundings) (links : Table String ProjectLink)
    (ctx : AuthContext) (organizationId linkId : String) : Except ApiError ProjectLink :=
  found
    ((links.get? linkId).filter fun link ↦
      link.organizationId = organizationId ∧
        surroundings.member organizationId ctx.accountId ∧
        (identityOf surroundings organizationId .remote link.remoteProjectId).isSome)
    .notFound "project link not found"

def requireLinked (link : ProjectLink) (allowConflict : Bool) : Except ApiError Unit :=
  require (link.state = .linked ∨ (allowConflict ∧ link.state = .conflict)) .precondition
    "project link is not active"

theorem linkForMember_eq_ok {surroundings : Surroundings} {links : Table String ProjectLink}
    {ctx : AuthContext} {organizationId linkId : String} {link : ProjectLink}
    (h : linkForMember surroundings links ctx organizationId linkId = .ok link) :
    links.get? linkId = some link ∧ link.organizationId = organizationId := by
  unfold linkForMember at h
  rw [found_eq_ok, Option.filter_eq_some_iff] at h
  refine ⟨h.1, ?_⟩
  have hmeets := of_decide_eq_true h.2
  exact hmeets.1

end AiStp.Context
