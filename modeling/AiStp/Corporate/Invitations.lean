import AiStp.Corporate.Gate

/-!
# Invitations into an organization

An invitation is accepted with the token that was mailed to the invited address. An account whose
verified addresses include the invited one becomes a member at once; any other account claims the
invitation, and a second token is mailed to the invited address, which the claimant has to present.

Accepting and confirming lock the row of the invitation until they commit, so each is one event.
Creating and revoking lock the row of the organization, but a revocation reads the invitation
without a lock and writes it later: it is a reading event and a finishing event, and between the two
the row belongs to whoever locks it (`Office.revoking`). What the statements of a request find in
other tables is the `Scene` of the event: any organization, any members, any identities. Three parts
of the state belong to no table: the mails that were sent, the memberships that invitations led to,
and the invitations of which a caller was told that they are revoked.
-/

set_option autoImplicit false

namespace AiStp.Corporate

open Foundation Library

/-! ### Rows -/

inductive InvitationState where
  | pending
  | emailConfirmPending
  | accepted
  | expired
  | revoked
deriving DecidableEq

def InvitationState.text : InvitationState → String
  | .pending => "pending"
  | .emailConfirmPending => "email_confirm_pending"
  | .accepted => "accepted"
  | .expired => "expired"
  | .revoked => "revoked"

structure CorporateInvitation where
  organizationId : String
  issuerAccountId : String
  recipientEmailNormalized : String
  displayName : String
  role : String
  teamIds : List String
  projectIds : List String
  jobTitleId : Option String
  tokenHash : String
  state : InvitationState
  idempotencyKey : String
  expiresAt : Nat
  acceptedAccountId : Option String := none
  claimantAccountId : Option String := none
  confirmationTokenHash : Option String := none
deriving DecidableEq

/-- An identity of a sign-in provider. -/
structure OAuthIdentity where
  accountId : String
  linked : Bool
  emailVerified : Bool
  email : String
deriving DecidableEq

/-- What a caller is told about an invitation. -/
structure InvitationView where
  invitationId : String
  organizationId : String
  recipientEmail : String
  displayName : String
  role : String
  teamIds : List String
  projectIds : List String
  jobTitleId : Option String
  state : InvitationState
  expiresAt : Nat
  issuerAccountId : String
  acceptedAccountId : Option String
  claimantAccountId : Option String
  token : Option String
deriving DecidableEq

structure InvitationReceipt where
  operation : String
  requestFingerprint : String
  responseBody : InvitationView
deriving DecidableEq

/-- A mail to the invited address; a confirmation is sent for the account that claims. -/
structure InvitationMail where
  invitationId : String
  toEmail : String
  claimant : Option String
  token : String
deriving DecidableEq

/-! ### Requests -/

structure CorporateInvitationCreateRequest where
  recipientEmail : String
  displayName : String
  role : String
  teamIds : List String
  projectIds : List String
  jobTitleId : Option String
  ttlSeconds : Option Nat
  authorizationRevision : Int
  idempotencyKey : String

def CorporateInvitationCreateRequest.dump (payload : CorporateInvitationCreateRequest) : Json :=
  .object [
    ("schema_version", integerJson 1),
    ("recipient_email", .string payload.recipientEmail),
    ("display_name", .string payload.displayName),
    ("role", .string payload.role),
    ("team_ids", textsJson payload.teamIds),
    ("project_ids", textsJson payload.projectIds),
    ("job_title_id", optionalText payload.jobTitleId),
    ("ttl_seconds", (payload.ttlSeconds.map fun seconds ↦ integerJson seconds).getD .null),
    ("authorization_revision", integerJson payload.authorizationRevision)]

structure CorporateInvitationRevokeRequest where
  reason : String
  authorizationRevision : Int
  idempotencyKey : String

/-- The invitation is named by the path of the request, not by its body. -/
def CorporateInvitationRevokeRequest.dump (payload : CorporateInvitationRevokeRequest) : Json :=
  .object [
    ("schema_version", integerJson 1),
    ("reason", .string payload.reason),
    ("authorization_revision", integerJson payload.authorizationRevision)]

/-- The functions of the standard library that invitations rest on. -/
structure Digests where
  /-- The SHA-256 of a text, in hexadecimal digits. -/
  hash : String → String
  fingerprint : Json → String
  lower : String → String

def Digests.normalizeEmail (digests : Digests) (email : String) : String :=
  digests.lower (strip email)

/-- What the statements of a request find outside the invitations. -/
structure Scene where
  organizations : String → Option View
  identities : List OAuthIdentity := []
  /-- A member of the organization is known under the address. -/
  joined : String → Bool := fun _ ↦ false
  invitationTtlSeconds : Nat := 0
  /-- The token that the request draws. -/
  token : String := ""
  ids : Nat → String := fun _ ↦ ""

/-- The normalized addresses that an account has verified. -/
def verifiedEmails (digests : Digests) (scene : Scene) (accountId : String) : List String :=
  (scene.identities.filter fun identity ↦
    identity.accountId = accountId ∧ identity.linked ∧ identity.emailVerified).map
      fun identity ↦ digests.normalizeEmail identity.email

/-! ### Accepting and confirming -/

def CorporateInvitation.expired (row : CorporateInvitation) (now : Nat) : Bool :=
  (row.state = .pending ∨ row.state = .emailConfirmPending) ∧ row.expiresAt ≤ now

/-- How the handling of a locked invitation ends, if it is not refused. -/
inductive Ending where
  /-- The account had accepted the invitation before. -/
  | known (member : Response)
  | expired
  | confirmationSent
  | activated (member : Response)

def acceptedMember (scene : Scene) (row : CorporateInvitation) (accountId : String) :
    Option Response :=
  if row.state = .accepted ∧ row.acceptedAccountId = some accountId then
    (scene.organizations row.organizationId).bind fun view ↦
      (view.tenant.members.get? accountId).bind fun member ↦
        (view.surroundings.accounts.lookup accountId).map fun name ↦
          memberView accountId member name
  else none

def requireOrganization (scene : Scene) (row : CorporateInvitation) : Except ApiError View := do
  let view ← found ((scene.organizations row.organizationId).filter
    (·.tenant.organization.state = .active)) .conflict "organization is unavailable"
  require (view.surroundings.emailAllowed row.recipientEmailNormalized) .validation
    "email domain is not allowed"
  return view

/-- The roles that an invitation hands out. -/
def delegatedRoles (role : String) (teamIds : List String) : Finset String :=
  {role} ∪ if teamIds = [] then ∅ else {"staff"}

/-- The issuer may still invite, and may still hand out the roles of the invitation. -/
def issuerHonored (view : View) (row : CorporateInvitation) : Bool :=
  view.hasCorporatePermission row.issuerAccountId "member.invite" .organization
      view.tenant.organization.id &&
    (assertDelegableRoles view row.issuerAccountId
      (delegatedRoles row.role row.teamIds)).isOk

def activateMembership (scene : Scene) (view : View) (row : CorporateInvitation)
    (accountId : String) : Except ApiError Response := do
  require (view.tenant.members.get? accountId).isNone .conflict "member already exists"
  ensureActiveTeams view row.teamIds
  ensureActiveProjects view row.projectIds
  ensureCurrentJobTitle view row.jobTitleId
  require (issuerHonored view row) .conflict "invitation can no longer be honored"
  let member : MemberRow :=
    ⟨some (strip row.displayName), row.role, row.jobTitleId, .active, 1⟩
  let _ ← insertMembershipGraph view.tenant scene.ids accountId member row.teamIds row.projectIds
  return memberView accountId member ((view.surroundings.accounts.lookup accountId).join)

variable (digests : Digests)

/-- The checks of an account that accepts, for an invitation nobody has claimed. -/
def acceptPending (scene : Scene) (row : CorporateInvitation) (accountId token : String) :
    Except ApiError Ending := do
  require (digests.hash token = row.tokenHash) .validation "invitation token invalid"
  let view ← requireOrganization scene row
  if row.recipientEmailNormalized ∈ verifiedEmails digests scene accountId then
    (activateMembership scene view row accountId).map .activated
  else .ok .confirmationSent

def acceptInvitation (scene : Scene) (now : Nat) (row : CorporateInvitation)
    (accountId token : String) : Except ApiError Ending :=
  match acceptedMember scene row accountId with
  | some member => .ok (.known member)
  | none =>
    match row.state with
    | .emailConfirmPending => do
      require (row.claimantAccountId = some accountId) .conflict
        "invitation is claimed by another account"
      if row.expired now then .ok .expired
      else do
        require (digests.hash token = row.tokenHash) .validation "invitation token invalid"
        let _ ← requireOrganization scene row
        return .confirmationSent
    | .pending =>
      if row.expired now then .ok .expired else acceptPending digests scene row accountId token
    | state => .error ⟨.conflict, "invitation is " ++ state.text⟩

def confirmInvitation (scene : Scene) (now : Nat) (row : CorporateInvitation)
    (accountId token : String) : Except ApiError Ending :=
  match acceptedMember scene row accountId with
  | some member => .ok (.known member)
  | none =>
    match row.state with
    | .emailConfirmPending =>
      if row.expired now then .ok .expired
      else do
        require (row.claimantAccountId = some accountId) .conflict
          "signed-in account did not claim the invitation"
        require (row.confirmationTokenHash = some (digests.hash token)) .validation
          "confirmation token invalid"
        let view ← requireOrganization scene row
        (activateMembership scene view row accountId).map .activated
    | state => .error ⟨.conflict, "invitation is " ++ state.text⟩

/-! ### The state -/

/-- A revocation between its read and its write. -/
structure Revoking where
  invitationId : String
  accountId : String
  request : CorporateInvitationRevokeRequest
  /-- The row as it was read. -/
  row : CorporateInvitation

/-- How an account came in: with an identity of the sign-in provider, or with a mailed token. -/
inductive Evidence where
  | identity (identity : OAuthIdentity) (token : String)
  | confirmation (token : String)
deriving DecidableEq

/-- A membership that an invitation led to. -/
structure Joining where
  invitationId : String
  accountId : String
  evidence : Evidence
deriving DecidableEq

structure Office where
  now : Nat
  invitations : Table String CorporateInvitation
  /-- The receipts, under organizations and keys. -/
  receipts : Table (String × String) InvitationReceipt
  /-- The revocations that hold the lock of an organization. -/
  revoking : Table String Revoking
  mails : List InvitationMail
  joinings : List Joining
  /-- The invitations that a caller asked to revoke and was answered with success. -/
  answered : List String

def Office.opened : Office := ⟨0, .empty, .empty, .empty, [], [], []⟩

/-- A membership, for the account that the row now names. -/
def Office.activate (office : Office) (invitationId : String) (row : CorporateInvitation)
    (accountId : String) (evidence : Evidence) : Office :=
  { office with
    invitations := office.invitations.update invitationId
      { row with
        state := .accepted
        acceptedAccountId := some accountId
        confirmationTokenHash := none }
    joinings := office.joinings ++ [⟨invitationId, accountId, evidence⟩] }

/-- Binds the claimant and mails a confirmation token to the invited address. -/
def Office.sendConfirmation (office : Office) (scene : Scene) (invitationId : String)
    (row : CorporateInvitation) (accountId : String) : Office :=
  { office with
    invitations := office.invitations.update invitationId
      { row with
        state := .emailConfirmPending
        claimantAccountId := some accountId
        confirmationTokenHash := some (digests.hash scene.token) }
    mails := office.mails ++
      [⟨invitationId, row.recipientEmailNormalized, some accountId, scene.token⟩] }

def Office.expire (office : Office) (invitationId : String) (row : CorporateInvitation) : Office :=
  { office with
    invitations := office.invitations.update invitationId { row with state := .expired } }

/-- What is committed at an ending; a refusal commits nothing. -/
def Office.conclude (office : Office) (scene : Scene) (invitationId : String)
    (row : CorporateInvitation) (accountId : String) (evidence : Evidence) :
    Except ApiError Ending → Office
  | .error _ | .ok (.known _) => office
  | .ok .expired => office.expire invitationId row
  | .ok .confirmationSent => office.sendConfirmation digests scene invitationId row accountId
  | .ok (.activated _) => office.activate invitationId row accountId evidence

/-! ### Creating and revoking -/

def invitationView (office : Office) (invitationId : String) (row : CorporateInvitation)
    (token : Option String) : InvitationView where
  invitationId := invitationId
  organizationId := row.organizationId
  recipientEmail := row.recipientEmailNormalized
  displayName := row.displayName
  role := row.role
  teamIds := row.teamIds
  projectIds := row.projectIds
  jobTitleId := row.jobTitleId
  state := if row.expired office.now then .expired else row.state
  expiresAt := row.expiresAt
  issuerAccountId := row.issuerAccountId
  acceptedAccountId := row.acceptedAccountId
  claimantAccountId := row.claimantAccountId
  token := token

/-- What the gate of the organization needs to know about a request. -/
structure InvitationRequest where
  accountId : String
  organizationId : String
  operation : String
  authorizationRevision : Int
  idempotencyKey : String
  body : Json

def createGate (accountId organizationId : String) (payload : CorporateInvitationCreateRequest) :
    InvitationRequest :=
  ⟨accountId, organizationId, "member.invitation.create", payload.authorizationRevision,
    payload.idempotencyKey, payload.dump⟩

def revokeGate (accountId organizationId : String) (payload : CorporateInvitationRevokeRequest) :
    InvitationRequest :=
  ⟨accountId, organizationId, "member.invitation.revoke", payload.authorizationRevision,
    payload.idempotencyKey, payload.dump⟩

/-- The receipt that answers the request, or nothing if the request is fresh. -/
def Office.authorizeIdempotent (office : Office) (scene : Scene) (request : InvitationRequest) :
    Except ApiError (View × Option InvitationReceipt) := do
  let view ← found (scene.organizations request.organizationId) .permission
    "organization access denied"
  let membership ← view.authorize request.accountId "member.invite" .organization none
  match office.receipts.get? (request.organizationId, request.idempotencyKey) with
  | some receipt => do
    require (receipt.operation = request.operation ∧
      receipt.requestFingerprint = digests.fingerprint request.body) .conflict
      "idempotency key was reused"
    return (view, some receipt)
  | none => do
    require (revisionCurrent view.tenant.organization membership
      (.policy request.authorizationRevision)) .precondition "capability revision is stale"
    return (view, none)

/-- The row of a new invitation. -/
def newInvitation (scene : Scene) (now : Nat) (accountId organizationId : String)
    (payload : CorporateInvitationCreateRequest) : CorporateInvitation where
  organizationId := organizationId
  issuerAccountId := accountId
  recipientEmailNormalized := digests.normalizeEmail payload.recipientEmail
  displayName := strip payload.displayName
  role := payload.role
  teamIds := payload.teamIds.eraseDups
  projectIds := payload.projectIds.eraseDups
  jobTitleId := payload.jobTitleId
  tokenHash := digests.hash scene.token
  state := .pending
  idempotencyKey := payload.idempotencyKey
  expiresAt := now + payload.ttlSeconds.getD scene.invitationTtlSeconds

/-- What a fresh request to invite has to pass. -/
def checkInvitation (view : View) (scene : Scene) (accountId : String)
    (payload : CorporateInvitationCreateRequest) : Except ApiError Unit := do
  ensureActiveTeams view payload.teamIds
  ensureActiveProjects view payload.projectIds
  ensureRoleExists view payload.role
  assertDelegableRoles view accountId (delegatedRoles payload.role payload.teamIds)
  ensureCurrentJobTitle view payload.jobTitleId
  require (view.surroundings.emailAllowed payload.recipientEmail) .validation
    "email domain is not allowed"
  require (!scene.joined (digests.normalizeEmail payload.recipientEmail)) .conflict
    "member already exists"

/-- Stores the invitation, its mail and the receipt; the receipt has no token. -/
def Office.addInvitation (office : Office) (scene : Scene) (accountId organizationId : String)
    (payload : CorporateInvitationCreateRequest) : Except ApiError (InvitationView × Office) := do
  let row := newInvitation digests scene office.now accountId organizationId payload
  require (office.invitations.entries.all fun entry ↦
    ¬(entry.2.organizationId = organizationId ∧ entry.2.idempotencyKey = payload.idempotencyKey))
    .internal "internal error"
  let invitations ← found (office.invitations.insert? (scene.ids 0) row) .internal "internal error"
  let receipts ← found (office.receipts.insert? (organizationId, payload.idempotencyKey)
    ⟨"member.invitation.create", digests.fingerprint payload.dump,
      invitationView office (scene.ids 0) row none⟩) .internal "internal error"
  return (invitationView office (scene.ids 0) row (some scene.token),
    { office with
      invitations := invitations
      receipts := receipts
      mails := office.mails ++
        [⟨scene.ids 0, row.recipientEmailNormalized, none, scene.token⟩] })

def Office.createInvitation (office : Office) (scene : Scene) (accountId organizationId : String)
    (payload : CorporateInvitationCreateRequest) : Except ApiError (InvitationView × Office) := do
  let (view, receipt) ← office.authorizeIdempotent digests scene
    (createGate accountId organizationId payload)
  match receipt with
  | some receipt => .ok (receipt.responseBody, office)
  | none => do
    checkInvitation digests view scene accountId payload
    office.addInvitation digests scene accountId organizationId payload

/-- Up to the read of the invitation: an answer from a receipt, or the lock of the organization with
the row that was read. -/
def Office.readRevocation (office : Office) (scene : Scene) (accountId organizationId : String)
    (invitationId : String) (payload : CorporateInvitationRevokeRequest) :
    Except ApiError (InvitationView ⊕ Revoking) := do
  let (_, receipt) ← office.authorizeIdempotent digests scene
    (revokeGate accountId organizationId payload)
  match receipt with
  | some receipt => .ok (.inl receipt.responseBody)
  | none => do
    let row ← found ((office.invitations.get? invitationId).filter
      (·.organizationId = organizationId)) .notFound "invitation not found"
    return .inr ⟨invitationId, accountId, payload, row⟩

/-- The row that a revocation answers with. -/
def Revoking.written (revoking : Revoking) : CorporateInvitation :=
  if revoking.row.state = .pending then { revoking.row with state := .revoked } else revoking.row

/-- The statement sets the state of the row, whatever the row has become since it was read. -/
def Revoking.write (revoking : Revoking) (row : CorporateInvitation) : CorporateInvitation :=
  if revoking.row.state = .pending then { row with state := .revoked } else row

/-- The rest of a revocation: its write, its receipt and its answer. -/
def Office.finishRevocation (office : Office) (organizationId : String) (revoking : Revoking) :
    Except ApiError (InvitationView × Office) := do
  let view := invitationView office revoking.invitationId revoking.written none
  let receipts ← found (office.receipts.insert? (organizationId, revoking.request.idempotencyKey)
    ⟨"member.invitation.revoke", digests.fingerprint revoking.request.dump, view⟩) .internal
    "internal error"
  return (view,
    { office with
      invitations := office.invitations.mapRows fun invitationId row ↦
        if invitationId = revoking.invitationId then revoking.write row else row
      receipts := receipts })

/-! ### Runs -/

inductive Event where
  | tick
  | create (scene : Scene) (accountId organizationId : String)
      (payload : CorporateInvitationCreateRequest)
  | accept (scene : Scene) (invitationId accountId token : String)
  | confirm (scene : Scene) (invitationId accountId token : String)
  | revoke (scene : Scene) (accountId organizationId invitationId : String)
      (payload : CorporateInvitationRevokeRequest)
  | finish (organizationId : String)
  | abort (organizationId : String)

/-- A locked row is handled; an unknown invitation is refused. -/
def Office.handle (office : Office) (scene : Scene) (invitationId accountId : String)
    (evidence : Evidence) (handler : CorporateInvitation → Except ApiError Ending) : Office :=
  match office.invitations.get? invitationId with
  | some row => office.conclude digests scene invitationId row accountId evidence (handler row)
  | none => office

/-- The identity through which an account has verified an address. -/
def verifiedIdentity (scene : Scene) (accountId email : String) : Option OAuthIdentity :=
  scene.identities.find? fun identity ↦ identity.accountId = accountId ∧ identity.linked ∧
    identity.emailVerified ∧ digests.normalizeEmail identity.email = email

def acceptEvidence (office : Office) (scene : Scene) (invitationId accountId token : String) :
    Evidence :=
  match (office.invitations.get? invitationId).bind fun row ↦
      verifiedIdentity digests scene accountId row.recipientEmailNormalized with
  | some identity => .identity identity token
  | none => .confirmation token

/-- The lock of the organization is taken while a revocation is between its read and its write. -/
def Office.unlocked (office : Office) (organizationId : String) : Bool :=
  (office.revoking.get? organizationId).isNone

def Office.release (office : Office) (organizationId : String) : Office :=
  { office with revoking := office.revoking.filter fun id _ ↦ id ≠ organizationId }

def Office.takeRevocation (office : Office) (organizationId invitationId : String) :
    Except ApiError (InvitationView ⊕ Revoking) → Office
  | .error _ => office
  | .ok (.inl _) => { office with answered := office.answered ++ [invitationId] }
  | .ok (.inr revoking) =>
    { office with revoking := office.revoking.set organizationId revoking }

def Office.settleRevocation (office : Office) (organizationId : String) (revoking : Revoking) :
    Office :=
  match office.finishRevocation digests organizationId revoking with
  | .error _ => office.release organizationId
  | .ok (_, after) =>
    { after.release organizationId with answered := after.answered ++ [revoking.invitationId] }

def Office.step (office : Office) : Event → Office
  | .tick => { office with now := office.now + 1 }
  | .create scene accountId organizationId payload =>
    if office.unlocked organizationId then
      match office.createInvitation digests scene accountId organizationId payload with
      | .ok (_, after) => after
      | .error _ => office
    else office
  | .accept scene invitationId accountId token =>
    office.handle digests scene invitationId accountId
      (acceptEvidence digests office scene invitationId accountId token)
      fun row ↦ acceptInvitation digests scene office.now row accountId token
  | .confirm scene invitationId accountId token =>
    office.handle digests scene invitationId accountId (.confirmation token)
      fun row ↦ confirmInvitation digests scene office.now row accountId token
  | .revoke scene accountId organizationId invitationId payload =>
    if office.unlocked organizationId then
      office.takeRevocation organizationId invitationId
        (office.readRevocation digests scene accountId organizationId invitationId payload)
    else office
  | .finish organizationId =>
    match office.revoking.get? organizationId with
    | some revoking => office.settleRevocation digests organizationId revoking
    | none => office
  | .abort organizationId => office.release organizationId

end AiStp.Corporate
