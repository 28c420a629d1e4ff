import AiStp.Corporate.Members
import AiStp.Foundation.Identity
import AiStp.Library.Transactions

/-!
# Access grants and the invitations to them

An access grant gives an account a major line of an object, and every account has one row for each
line: a revoked grant keeps its row. A grant comes from an invitation that the account accepts, or
from a direct grant. Requests are transactions over these tables. Accepting locks the row of the
invitation and reads the grant without a lock; revoking an invitation reads its row without a lock
and writes it later; direct grants and their revocations lock the key of the request first, and the
row of the grant when they read it. What a statement finds elsewhere, the owners of objects and the
identities of accounts, is its `Scene`.
-/

set_option autoImplicit false

namespace AiStp.Grants

open Foundation Library Library.Transactions
open Corporate (strip isSpace)

/-! ### Rows -/

inductive ObjectKind where
  | component
  | setup
deriving DecidableEq

def ObjectKind.text : ObjectKind → String
  | .component => "component"
  | .setup => "setup"

/-- A major line of an object. -/
structure Target where
  objectKind : ObjectKind
  stableId : String
  major : Nat
deriving DecidableEq

inductive GrantState where
  | active
  | revoked
deriving DecidableEq

inductive InvitationState where
  | pending
  | accepted
  | expired
  | revoked
deriving DecidableEq

def InvitationState.text : InvitationState → String
  | .pending => "pending"
  | .accepted => "accepted"
  | .expired => "expired"
  | .revoked => "revoked"

structure AccessGrant where
  target : Target
  ownerAccountId : String
  granteeAccountId : String
  revision : Nat := 1
  state : GrantState := .active
deriving DecidableEq

structure GrantInvitation where
  target : Target
  ownerAccountId : String
  recipientEmailNormalized : String
  tokenHash : String
  state : InvitationState := .pending
  idempotencyKey : String
  expiresAt : Nat
  acceptedGrantId : Option String := none
deriving DecidableEq

inductive RecipientKind where
  | githubUsername
  | userId
deriving DecidableEq

def RecipientKind.text : RecipientKind → String
  | .githubUsername => "github_username"
  | .userId => "user_id"

structure GrantRecipientReference where
  identifierKind : RecipientKind
  identifierValue : String
deriving DecidableEq

inductive OperationAction where
  | direct
  | revoke
deriving DecidableEq

structure GrantOperationReceipt where
  action : OperationAction
  requestDigest : String
  grantId : String
deriving DecidableEq

structure GrantView where
  grantId : String
  grant : AccessGrant
  reference : Option GrantRecipientReference
deriving DecidableEq

structure InvitationView where
  invitationId : String
  target : Target
  state : InvitationState
  expiresAt : Nat
deriving DecidableEq

/-- What a caller was answered. -/
inductive Answer where
  | invited (view : InvitationView)
  | accepted (invitationId accountId : String) (view : GrantView)
  | granted (accountId : String) (view : GrantView)
  | revokedInvitation (invitationId : String)
  | revokedGrant (accountId grantId : String)
deriving DecidableEq

structure Desk where
  grants : Table String AccessGrant
  invitations : Table String GrantInvitation
  references : Table String GrantRecipientReference
  /-- The receipts, under actors and keys. -/
  receipts : Table (String × String) GrantOperationReceipt
  answers : List Answer

def Desk.opened : Desk := ⟨.empty, .empty, .empty, .empty, []⟩

def Desk.answer (desk : Desk) (answer : Answer) : Desk :=
  { desk with answers := desk.answers ++ [answer] }

def AccessGrant.isFor (grant : AccessGrant) (target : Target) (accountId : String) : Bool :=
  grant.target = target ∧ grant.granteeAccountId = accountId

/-- The row of a line and an account. -/
def Desk.grantOf (desk : Desk) (target : Target) (accountId : String) :
    Option (String × AccessGrant) :=
  desk.grants.find? fun _ grant ↦ grant.isFor target accountId

def Desk.view (desk : Desk) (grantId : String) (grant : AccessGrant) : GrantView :=
  ⟨grantId, grant, desk.references.get? grantId⟩

/-! ### Requests -/

structure DirectGrantCreateRequest where
  target : Target
  recipientKind : RecipientKind
  recipient : String
  expectedGrantId : Option String
  expectedRevision : Option Nat
  idempotencyKey : String

structure GrantInvitationCreateRequest where
  target : Target
  recipientEmail : String
  ttlSeconds : Nat
  idempotencyKey : String

structure GrantRevokeRequest where
  reason : String
  expectedRevision : Option Nat
  idempotencyKey : String

def naturalJson (value : Nat) : Json := .number (.integer value)

/-- A field that is left out when it is absent. -/
def sparse (name : String) : Option Json → List (String × Json)
  | none => []
  | some value => [(name, value)]

def DirectGrantCreateRequest.dump (body : DirectGrantCreateRequest) : Json :=
  .object ([
    ("schema_version", naturalJson 1),
    ("object_kind", .string body.target.objectKind.text),
    ("stable_id", .string body.target.stableId),
    ("major", naturalJson body.target.major),
    ("recipient_kind", .string body.recipientKind.text),
    ("recipient", .string body.recipient)] ++
    sparse "expected_grant_id" (body.expectedGrantId.map .string) ++
    sparse "expected_revision" (body.expectedRevision.map naturalJson))

def GrantRevokeRequest.dump (body : GrantRevokeRequest) (grantId : String) : Json :=
  .object ([
    ("grant_id", .string grantId),
    ("schema_version", naturalJson 1),
    ("reason", .string body.reason)] ++
    sparse "expected_revision" (body.expectedRevision.map naturalJson))

structure Primitives where
  /-- The SHA-256 of a token, in hexadecimal digits. -/
  hashToken : String → String
  /-- The SHA-256 of the canonical encoding of a request. -/
  digest : Json → String
  lower : String → String
  isDigit : Char → Bool

def Primitives.normalizeEmail (primitives : Primitives) (email : String) : String :=
  primitives.lower (strip email)

/-- A linked identity with a verified address. -/
structure VerifiedIdentity where
  accountId : String
  email : String
deriving DecidableEq

/-- What a statement finds outside the tables of grants. -/
structure Scene where
  now : Nat := 0
  /-- The account owns the object, or resolves its ownership for an organization. -/
  mayIssue : String → Target → Bool
  corporateOwner : String → Target → Bool := fun _ _ ↦ false
  githubAccount : String → Option String := fun _ ↦ none
  accounts : List String := []
  identities : List VerifiedIdentity := []
  /-- The token and the id of a new row that the request draws. -/
  token : String := ""
  id : String := ""

/-! ### Invitations -/

def invitationToWire (invitationId : String) (row : GrantInvitation) : InvitationView :=
  ⟨invitationId, row.target, row.state, row.expiresAt⟩

variable (primitives : Primitives)

def newInvitation (scene : Scene) (accountId : String) (body : GrantInvitationCreateRequest) :
    GrantInvitation where
  target := body.target
  ownerAccountId := accountId
  recipientEmailNormalized := primitives.normalizeEmail body.recipientEmail
  tokenHash := primitives.hashToken scene.token
  idempotencyKey := body.idempotencyKey
  expiresAt := scene.now + body.ttlSeconds

/-- The invitation of the owner under the key, if there is one, or a new one. -/
def createInvitation (desk : Desk) (scene : Scene) (accountId : String)
    (body : GrantInvitationCreateRequest) : Except ApiError Desk := do
  require (scene.mayIssue accountId body.target) .permission "not the owner of the object"
  match desk.invitations.find? fun _ row ↦
      row.ownerAccountId = accountId ∧ row.idempotencyKey = body.idempotencyKey with
  | some (invitationId, row) => .ok (desk.answer (.invited (invitationToWire invitationId row)))
  | none => do
    let row := newInvitation primitives scene accountId body
    let invitations ← found (desk.invitations.insert? scene.id row) .internal "internal error"
    return { desk with invitations := invitations }.answer
      (.invited (invitationToWire scene.id row))

/-- The grant of an acceptance that was completed before. -/
def completedGrant (desk : Desk) (row : GrantInvitation) : Option (String × AccessGrant) :=
  if row.state = .accepted then
    row.acceptedGrantId.bind fun grantId ↦ (desk.grants.get? grantId).map (grantId, ·)
  else none

/-- A completed retry still needs the original recipient and proof. -/
def checkRetry (row : GrantInvitation) (grant : AccessGrant) (accountId token : String) :
    Except ApiError Unit := do
  require (grant.granteeAccountId = accountId) .notFound "invitation not found"
  require (primitives.hashToken token = row.tokenHash) .validation "invitation token invalid"

def checkAcceptance (scene : Scene) (row : GrantInvitation) (accountId token : String) :
    Except ApiError Unit := do
  require (row.state = .pending) .conflict ("invitation is " ++ row.state.text)
  require (scene.now < row.expiresAt) .validation "invitation expired"
  require (primitives.hashToken token = row.tokenHash) .validation "invitation token invalid"
  require (row.recipientEmailNormalized ∈ (scene.identities.filter (·.accountId = accountId)).map
    fun identity ↦ primitives.normalizeEmail identity.email) .validation
    "verified email does not match invitation"

def Desk.activeGrantId (desk : Desk) (target : Target) (accountId : String) : Option String :=
  (desk.grants.find? fun _ grant ↦ grant.isFor target accountId ∧ grant.state = .active).map
    Prod.fst

/-- The invitation as the acceptance leaves it. -/
def GrantInvitation.acceptedBy (row : GrantInvitation) (grantId : String) : GrantInvitation :=
  { row with state := .accepted, acceptedGrantId := some grantId }

/-- The issuer or the current corporate owner of the object may withdraw. -/
def mayWithdraw (scene : Scene) (accountId issuerAccountId : String) (target : Target) : Bool :=
  issuerAccountId = accountId ∨ scene.corporateOwner accountId target

/-! ### Direct grants -/

def isUsernameCharacter (isDigit : Char → Bool) (character : Char) : Bool :=
  ('a' ≤ character ∧ character ≤ 'z') ∨ isDigit character

/-- Letters, digits, and hyphens before a letter or a digit. -/
def matchesUsernameRest (isDigit : Char → Bool) : List Char → Bool
  | [] => true
  | character :: rest =>
    (isUsernameCharacter isDigit character ||
      (character == '-' && rest.head?.any (isUsernameCharacter isDigit))) &&
    matchesUsernameRest isDigit rest

def matchesUsername (isDigit : Char → Bool) : List Char → Bool
  | [] => false
  | first :: rest =>
    isUsernameCharacter isDigit first && matchesUsernameRest isDigit rest && rest.length ≤ 38

def withoutAt : List Char → List Char
  | '@' :: rest => rest
  | characters => characters

/-- GitHub's canonical case-insensitive form of a name. -/
def normalizeGithubUsername (value : String) : Except ApiError String := do
  let normalized := withoutAt (primitives.lower (strip value)).toList
  require (matchesUsername primitives.isDigit normalized) .validation "invalid GitHub username"
  return String.ofList normalized

def normalizeRecipient (kind : RecipientKind) (recipient : String) : Except ApiError String :=
  match kind with
  | .githubUsername => normalizeGithubUsername primitives recipient
  | .userId => .ok (strip recipient)

/-- The account that a normalized recipient names. -/
def granteeAccount (scene : Scene) (kind : RecipientKind) (recipient : String) :
    Except ApiError String :=
  match kind with
  | .githubUsername => found (scene.githubAccount recipient) .notFound "recipient not found"
  | .userId => do
    require (Identity.matchesStableId "account" recipient) .validation "invalid user ID"
    require (recipient ∈ scene.accounts) .notFound "recipient not found"
    return recipient

/-- `operations.lookup`: the receipt of a request that was carried out under the key. -/
def lookup (desk : Desk) (actor key : String) (action : OperationAction) (digest : String) :
    Except ApiError (Option GrantOperationReceipt) :=
  match desk.receipts.get? (actor, key) with
  | none => .ok none
  | some receipt => do
    require (receipt.action = action ∧ receipt.requestDigest = digest) .conflict
      "idempotency key belongs to another grant request"
    return some receipt

/-- `operations.complete` -/
def complete (desk : Desk) (actor key : String) (action : OperationAction) (digest : String)
    (grantId : String) : Except ApiError Desk := do
  let receipts ← found (desk.receipts.insert? (actor, key) ⟨action, digest, grantId⟩) .internal
    "internal error"
  return { desk with receipts := receipts }

/-- `_revision` -/
def checkRevision (grant : AccessGrant) (expected : Option Nat) : Except ApiError Unit :=
  require (expected = some grant.revision ∧ grant.revision < 2147483647) .precondition
    "read the grant and explicitly bind its current revision before changing access"

/-- A request that binds anything binds the row and its revision; one that reactivates must. -/
def checkExisting (body : DirectGrantCreateRequest) (grantId : String) (grant : AccessGrant) :
    Except ApiError Unit :=
  if body.expectedRevision ≠ none ∨ body.expectedGrantId ≠ none ∨ grant.state = .revoked then do
    require (body.expectedGrantId = some grantId) .precondition
      "the expected grant identity changed"
    checkRevision grant body.expectedRevision
  else .ok ()

def AccessGrant.reactivated (grant : AccessGrant) : AccessGrant :=
  if grant.state = .revoked then { grant with revision := grant.revision + 1, state := .active }
  else grant

def AccessGrant.withdrawn (grant : AccessGrant) : AccessGrant :=
  if grant.state = .active then { grant with revision := grant.revision + 1, state := .revoked }
  else grant

/-! ### Statements -/

/-- `request` is the advisory lock of an actor and a key. -/
inductive Lock where
  | request (actor key : String)
  | grant (grantId : String)
  | invitation (invitationId : String)
deriving DecidableEq

/-- Where a transaction stands. -/
inductive Work where
  | invite (accountId : String) (body : GrantInvitationCreateRequest)
  | accept (accountId invitationId token : String)
  /-- The retry of an acceptance, with the grant that it will answer. -/
  | replaying (accountId invitationId : String) (view : GrantView)
  /-- The invitation is locked and checked, and `bound` is the grant to be answered. -/
  | accepting (accountId invitationId : String) (row : GrantInvitation) (bound : Option String)
  | direct (accountId : String) (body : DirectGrantCreateRequest)
  | directing (accountId : String) (body : DirectGrantCreateRequest) (digest : String)
  /-- No row was found. -/
  | inserting (accountId : String) (body : DirectGrantCreateRequest) (digest : String)
    (grantee : String)
  | revokeInvitation (accountId invitationId : String)
  | withdrawing (invitationId : String) (row : GrantInvitation)
  | revokeGrant (accountId grantId : String) (body : GrantRevokeRequest)
  | revoking (accountId grantId : String) (body : GrantRevokeRequest) (digest : String)
    (receipt : Option GrantOperationReceipt)

abbrev Step := Outcome Desk Lock Work

/-- A refused request is rolled back. -/
def committed (taken : List Lock) : Except ApiError Desk → Step
  | .ok desk => .commit taken desk
  | .error _ => .abort

def continued (taken : List Lock) : Except ApiError Work → Step
  | .ok work => .next taken work
  | .error _ => .abort

/-- The first statements of an acceptance: the locked row decides how it goes on. -/
def acceptInvitation (desk : Desk) (scene : Scene) (accountId invitationId token : String) :
    Except ApiError Work := do
  let row ← found (desk.invitations.get? invitationId) .notFound "invitation not found"
  match completedGrant desk row with
  | some (grantId, grant) => do
    checkRetry primitives row grant accountId token
    return .replaying accountId invitationId ⟨grantId, grant, none⟩
  | none => do
    checkAcceptance primitives scene row accountId token
    return .accepting accountId invitationId row (desk.activeGrantId row.target accountId)

/-- The end of an acceptance, once a grant is bound. -/
def acceptGrant (desk : Desk) (accountId invitationId : String) (row : GrantInvitation)
    (grantId : String) : Except ApiError Desk := do
  let grant ← found (desk.grants.get? grantId) .internal "internal error"
  return { desk with
    invitations := desk.invitations.update invitationId (row.acceptedBy grantId) }.answer
      (.accepted invitationId accountId ⟨grantId, grant, none⟩)

/-- The insertion of a grant, which skips where the account has a row for the line already. -/
def insertGrant (desk : Desk) (grantId : String) (target : Target) (owner grantee : String) :
    Except ApiError Desk := do
  let grants ← found (desk.grants.insert? grantId
    { target := target, ownerAccountId := owner, granteeAccountId := grantee }) .internal
    "internal error"
  return { desk with grants := grants }

def acceptInsert (desk : Desk) (scene : Scene) (accountId invitationId : String)
    (row : GrantInvitation) : Step :=
  match desk.grantOf row.target accountId with
  | some (grantId, _) => .next [] (.accepting accountId invitationId row (some grantId))
  | none => committed [] do
    let desk ← insertGrant desk scene.id row.target row.ownerAccountId accountId
    acceptGrant desk accountId invitationId row scene.id

/-- Up to the receipt: the lock of the request is taken. -/
def createDirectGrant (desk : Desk) (scene : Scene) (accountId : String)
    (body : DirectGrantCreateRequest) : Step :=
  let request : Except ApiError (DirectGrantCreateRequest × Option GrantOperationReceipt) := do
    require (scene.mayIssue accountId body.target) .permission "not the owner of the object"
    let recipient ← normalizeRecipient primitives body.recipientKind body.recipient
    let body := { body with recipient := recipient }
    let receipt ← lookup desk accountId body.idempotencyKey .direct (primitives.digest body.dump)
    return (body, receipt)
  match request with
  | .error _ => .abort
  | .ok (body, none) => .next [.request accountId body.idempotencyKey]
      (.directing accountId body (primitives.digest body.dump))
  | .ok (body, some receipt) => committed [.request accountId body.idempotencyKey] do
    let grant ← found (desk.grants.get? receipt.grantId) .notFound "grant not found"
    return desk.answer (.granted accountId (desk.view receipt.grantId grant))

/-- The locked row of the recipient is reactivated where it is revoked. -/
def grantExisting (desk : Desk) (accountId : String) (body : DirectGrantCreateRequest)
    (digest grantId : String) (grant : AccessGrant) : Except ApiError Desk := do
  checkExisting body grantId grant
  let desk ← complete { desk with grants := desk.grants.update grantId grant.reactivated }
    accountId body.idempotencyKey .direct digest grantId
  return desk.answer (.granted accountId (desk.view grantId grant.reactivated))

def directGrant (desk : Desk) (scene : Scene) (accountId : String)
    (body : DirectGrantCreateRequest) (digest : String) : Step :=
  match granteeAccount scene body.recipientKind body.recipient with
  | .error _ => .abort
  | .ok grantee =>
    match desk.grantOf body.target grantee with
    | some (grantId, grant) =>
      committed [.grant grantId] (grantExisting desk accountId body digest grantId grant)
    | none => continued [] do
      require (body.expectedRevision = none ∧ body.expectedGrantId = none) .precondition
        "the expected grant no longer exists"
      return .inserting accountId body digest grantee

def insertDirectGrant (desk : Desk) (scene : Scene) (accountId : String)
    (body : DirectGrantCreateRequest) (digest grantee : String) : Except ApiError Desk :=
  match desk.grantOf body.target grantee with
  | some (grantId, grant) => do
    let desk ← complete desk accountId body.idempotencyKey .direct digest grantId
    return desk.answer (.granted accountId (desk.view grantId grant))
  | none => do
    let desk ← insertGrant desk scene.id body.target accountId grantee
    let references ← found (desk.references.insert? scene.id
      ⟨body.recipientKind, body.recipient⟩) .internal "internal error"
    let desk ← complete { desk with references := references } accountId body.idempotencyKey
      .direct digest scene.id
    let grant ← found (desk.grants.get? scene.id) .internal "internal error"
    return desk.answer (.granted accountId (desk.view scene.id grant))

/-- The invitation is read without a lock. -/
def revokeInvitation (desk : Desk) (scene : Scene) (accountId invitationId : String) :
    Except ApiError Work := do
  let row ← found ((desk.invitations.get? invitationId).filter fun row ↦
    mayWithdraw scene accountId row.ownerAccountId row.target) .notFound "invitation not found"
  return .withdrawing invitationId row

/-- Only a row that was read as pending is written; the caller is answered in any case. -/
def withdrawInvitation (desk : Desk) (invitationId : String) (row : GrantInvitation) : Step :=
  if row.state = .pending then committed [.invitation invitationId] do
    let current ← found (desk.invitations.get? invitationId) .internal "internal error"
    return { desk with
      invitations := desk.invitations.update invitationId
        { current with state := .revoked } }.answer (.revokedInvitation invitationId)
  else .commit [] (desk.answer (.revokedInvitation invitationId))

def revokeGrant (desk : Desk) (accountId grantId : String) (body : GrantRevokeRequest) :
    Except ApiError Work := do
  let receipt ← lookup desk accountId body.idempotencyKey .revoke
    (primitives.digest (body.dump grantId))
  return .revoking accountId grantId body (primitives.digest (body.dump grantId)) receipt

def withdrawGrant (desk : Desk) (scene : Scene) (accountId grantId : String)
    (body : GrantRevokeRequest) (digest : String) (receipt : Option GrantOperationReceipt) :
    Except ApiError Desk := do
  let grant ← found ((desk.grants.get? grantId).filter fun grant ↦
    mayWithdraw scene accountId grant.ownerAccountId grant.target) .notFound "grant not found"
  match receipt with
  | some _ => .ok (desk.answer (.revokedGrant accountId grantId))
  | none => do
    checkRevision grant body.expectedRevision
    let desk ← complete { desk with grants := desk.grants.update grantId grant.withdrawn }
      accountId body.idempotencyKey .revoke digest grantId
    return desk.answer (.revokedGrant accountId grantId)

def statement (desk : Desk) (work : Work) (scene : Scene) : Step :=
  match work with
  | .invite accountId body => committed [] (createInvitation primitives desk scene accountId body)
  | .accept accountId invitationId token => continued [.invitation invitationId]
      (acceptInvitation primitives desk scene accountId invitationId token)
  | .replaying accountId invitationId view =>
      .commit [] (desk.answer (.accepted invitationId accountId view))
  | .accepting accountId invitationId row (some grantId) =>
      committed [] (acceptGrant desk accountId invitationId row grantId)
  | .accepting accountId invitationId row none =>
      acceptInsert desk scene accountId invitationId row
  | .direct accountId body => createDirectGrant primitives desk scene accountId body
  | .directing accountId body digest => directGrant desk scene accountId body digest
  | .inserting accountId body digest grantee =>
      committed [] (insertDirectGrant desk scene accountId body digest grantee)
  | .revokeInvitation accountId invitationId => continued []
      (revokeInvitation desk scene accountId invitationId)
  | .withdrawing invitationId row => withdrawInvitation desk invitationId row
  | .revokeGrant accountId grantId body => continued
      [.request accountId body.idempotencyKey]
      (revokeGrant primitives desk accountId grantId body)
  | .revoking accountId grantId body digest receipt => committed [.grant grantId]
      (withdrawGrant desk scene accountId grantId body digest receipt)

/-- The requests that clients send. -/
def Work.isRequest : Work → Bool
  | .invite .. | .accept .. | .direct .. | .revokeInvitation .. | .revokeGrant .. => true
  | _ => false

def service : System Desk Lock Work Scene where
  starts := fun _ work ↦ work.isRequest
  statement := statement primitives

end AiStp.Grants
