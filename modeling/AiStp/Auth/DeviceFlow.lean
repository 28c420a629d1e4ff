import AiStp.Corporate.Members
import AiStp.Library.Transactions

/-!
# Device sign-in

A device code waits for an account to approve it, and a poll exchanges an approved code for a pair
of sessions of the device that polls. A device is one row under its public key; an exchange or a
registration finds the row or inserts it, and a revoke closes the device and its sessions. Requests
are transactions over these rows. A poll is two of them: the first writes the time of the poll, and
the second goes on with the row that the first has read. Claims of codes are conditional updates;
devices are read without locks, and their rows are locked when they are written. A request reads the
clock itself, and may fail at every statement, which leaves nothing.
-/

set_option autoImplicit false

namespace AiStp.Auth.DeviceFlow

open Library Library.Transactions
open Corporate (strip)

/-! ### Rows -/

inductive AuthorizationStatus where
  | pending
  | approved
  | declined
  | consumed
deriving DecidableEq

structure DeviceAuthorization where
  userCode : String
  status : AuthorizationStatus := .pending
  accountId : Option String := none
  intervalSeconds : Nat := 5
  expiresAt : Nat
  lastPollAt : Option Nat := none
deriving DecidableEq

inductive DeviceState where
  | active
  | revoked
deriving DecidableEq

structure Device where
  id : String
  accountId : String
  state : DeviceState := .active
  displayName : Option String
  userAgent : Option String := none
  approximateLocation : Option String := none
  lastSeenAt : Nat
deriving DecidableEq

inductive SessionKind where
  | access
  | refresh
deriving DecidableEq

structure AccountSession where
  accountId : String
  deviceId : Option String
  expiresAt : Nat
  revokedAt : Option Nat := none
  kind : SessionKind := .access
deriving DecidableEq

structure DeviceTokenRequest where
  deviceCode : String
  deviceId : String
  publicKey : String
  displayName : String
  expectedAccountId : Option String := none
  revokedPublicKey : Option String := none
deriving DecidableEq

/-- What the first transaction of a poll leaves to the second: the row as it was read, and the
moment. -/
structure Poll where
  request : DeviceTokenRequest
  row : DeviceAuthorization
  now : Nat
deriving DecidableEq

inductive Refusal where
  | unknownDeviceCode
  | slowDown
  | authorizationExpired
  | authorizationPending
  | authorizationDeclined
  | differentAccount
  | retiredKeyForeign
  | recoveryKeys
  | invalidDeviceId
  | invalidPublicKey
  | deviceKeyForeign
  | deviceRevoked
  | unknownUserCode
  | alreadyResolved
  | authRequired
  | permissionDenied
deriving DecidableEq

def Refusal.message : Refusal → String
  | .unknownDeviceCode => "unknown device code"
  | .slowDown => "slow down"
  | .authorizationExpired => "authorization expired"
  | .authorizationPending => "authorization pending"
  | .authorizationDeclined => "authorization declined"
  | .differentAccount => "the authorization belongs to a different account"
  | .retiredKeyForeign => "the retired key does not belong to this account"
  | .recoveryKeys => "recovery requires a revoked device and a new key"
  | .invalidDeviceId => "invalid device id"
  | .invalidPublicKey => "public key must be 32 bytes"
  | .deviceKeyForeign => "device key belongs to another account"
  | .deviceRevoked => "device is revoked; register a new device key"
  | .unknownUserCode => "unknown user code"
  | .alreadyResolved => "authorization already resolved"
  | .authRequired => "authentication required"
  | .permissionDenied => "permission denied"

/-- The sessions of an exchange, and the clock of its poll. -/
structure Exchange where
  deviceCode : String
  accountId : String
  deviceId : String
  polledAt : Nat
  accessId : String
  refreshId : String
deriving DecidableEq

/-- What a request was answered. -/
inductive Answer where
  | started (deviceCode : String)
  | approved (deviceCode accountId : String)
  | exchanged (exchange : Exchange)
  | registered (deviceId : String)
  | deviceRevoked (deviceId : String)
  | refused (refusal : Refusal)
deriving DecidableEq

structure Registry where
  /-- The authorizations under their device codes. -/
  grants : Table String DeviceAuthorization
  /-- The devices under their public keys. -/
  devices : Table String Device
  sessions : Table String AccountSession
  /-- The polls whose first transaction is committed. -/
  polls : List Poll
  answers : List Answer

def Registry.opened : Registry := ⟨.empty, .empty, .empty, [], []⟩

def Registry.answer (registry : Registry) (answer : Answer) : Registry :=
  { registry with answers := registry.answers ++ [answer] }

def Registry.deviceOf (registry : Registry) (deviceId : String) : Option (String × Device) :=
  registry.devices.find? fun _ device ↦ device.id = deviceId

/-- `session_is_active`, the clock apart: a session of a revoked device is dead. -/
def Registry.live (registry : Registry) (session : AccountSession) : Bool :=
  session.revokedAt = none ∧ ∀ deviceId ∈ session.deviceId,
    ∀ entry ∈ registry.deviceOf deviceId, entry.2.state = .active

/-! ### Statements -/

inductive Lock where
  | grant (deviceCode : String)
  | device (publicKey : String)
  | session (sessionId : String)
deriving DecidableEq

/-- Who attaches a device: an exchange, or a session that registers it. -/
inductive Attachment where
  | exchange (poll : Poll) (accountId : String)
  | registration (sessionId : String) (loaded : AccountSession) (displayName : Option String)
deriving DecidableEq

def Attachment.accountId : Attachment → String
  | .exchange _ accountId => accountId
  | .registration _ loaded _ => loaded.accountId

def Attachment.displayName : Attachment → Option String
  | .exchange poll _ => if poll.request.displayName = "" then none else poll.request.displayName
  | .registration _ _ displayName => displayName.filter (· ≠ "")

/-- Where a transaction stands. -/
inductive Work where
  | start
  | approve (userCode accountId : String)
  /-- The conditional update has matched, and the row is locked. -/
  | approving (deviceCode accountId : String)
  | poll (request : DeviceTokenRequest)
  | polling (poll : Poll)
  /-- The second transaction of a poll. -/
  | exchange (poll : Poll)
  | checkingKey (poll : Poll) (accountId retiredKey : String)
  | claiming (poll : Poll) (accountId : String)
  | register (sessionId publicKey : String) (displayName : Option String)
  | attaching (who : Attachment) (publicKey : String)
  /-- No row was found under the key; the id of a new one is chosen next. -/
  | naming (who : Attachment) (publicKey : String)
  | inserting (who : Attachment) (publicKey deviceId : String)
  /-- The row was read as `device` and passed the checks. -/
  | touching (who : Attachment) (publicKey : String) (device : Device)
  | attached (who : Attachment) (publicKey deviceId : String) (created : Bool)
  | revoke (accountId deviceId : String)
  | revoking (publicKey deviceId : String)
  | cascading (publicKey deviceId : String)
  | closing (publicKey deviceId : String) (sessionIds : List String)

abbrev Step := Outcome Registry Lock Work

/-- What a statement reads outside the rows: the clock, what is drawn at random, and where the
request comes from. -/
structure Scene where
  now : Nat := 0
  deviceCode : String := ""
  userCode : String := ""
  deviceId : String := ""
  accessId : String := ""
  refreshId : String := ""
  userAgent : Option String := none
  location : Option String := none
  /-- The connection is lost, or a row elsewhere is refused. -/
  fails : Bool := false

structure Settings where
  upper : String → String
  /-- `normalize_public_key`; a text that is no key raises. -/
  normalizePublicKey : String → Option String
  sessionTtlSeconds : Nat

/-- A refused request is rolled back. -/
def Registry.refuse (registry : Registry) (refusal : Refusal) : Step :=
  .commit [] (registry.answer (.refused refusal))

variable (settings : Settings)

/-- `start_device_authorization`, for an intent without an earlier row. -/
def startDeviceAuthorization (registry : Registry) (scene : Scene) : Step :=
  if registry.grants.find? (fun _ row ↦ row.userCode = scene.userCode) = none then
    match registry.grants.insert? scene.deviceCode
        { userCode := scene.userCode, expiresAt := scene.now + 600 } with
    | some grants => .commit [] ({ registry with grants := grants }.answer
        (.started scene.deviceCode))
    | none => .abort
  else .abort

/-! #### Approval -/

/-- The conditional update; who matches no row reads the verdict. -/
def approveDeviceAuthorization (registry : Registry) (scene : Scene)
    (userCode accountId : String) : Step :=
  match registry.grants.find? fun _ row ↦ row.userCode = settings.upper (strip userCode) with
  | none => registry.refuse .unknownUserCode
  | some (deviceCode, row) =>
    if row.status = .pending ∧ scene.now < row.expiresAt then
      .next [.grant deviceCode] (.approving deviceCode accountId)
    else if row.expiresAt ≤ scene.now ∨ row.status = .consumed ∨ row.status = .declined then
      registry.refuse .authorizationExpired
    else if row.status = .approved ∧ row.accountId = some accountId then
      .commit [] (registry.answer (.approved deviceCode accountId))
    else registry.refuse .alreadyResolved

def commitApproval (registry : Registry) (deviceCode accountId : String) : Step :=
  match registry.grants.get? deviceCode with
  | none => .abort
  | some held =>
    .commit [] ({ registry with
      grants := registry.grants.update deviceCode
        { held with status := .approved, accountId := some accountId } }.answer
      (.approved deviceCode accountId))

/-! #### Exchange -/

/-- Up to the commit of the time of the poll. -/
def readAuthorization (registry : Registry) (scene : Scene) (request : DeviceTokenRequest) : Step :=
  match registry.grants.get? request.deviceCode with
  | none => registry.refuse .unknownDeviceCode
  | some row =>
    if row.lastPollAt.any fun last ↦ scene.now < last + row.intervalSeconds then
      registry.refuse .slowDown
    else .next [] (.polling ⟨request, row, scene.now⟩)

def commitPoll (registry : Registry) (poll : Poll) : Step :=
  match registry.grants.get? poll.request.deviceCode with
  | none => .abort
  | some held =>
    .commit [.grant poll.request.deviceCode] { registry with
      grants := registry.grants.update poll.request.deviceCode
        { held with lastPollAt := some poll.now }
      polls := registry.polls ++ [poll] }

/-- The verdict on the row as it was read: the account that approved it. -/
def Poll.verdict (poll : Poll) : Except Refusal String :=
  if poll.row.expiresAt ≤ poll.now ∨ poll.row.status = .consumed then .error .authorizationExpired
  else
    match poll.row.status, poll.row.accountId with
    | .declined, _ => .error .authorizationDeclined
    | .approved, some accountId =>
      if poll.request.expectedAccountId.any (· ≠ accountId) then .error .differentAccount
      else .ok accountId
    | _, _ => .error .authorizationPending

/-- The checks before the claim, up to the key of a device that is replaced. -/
def exchangeDeviceCode (registry : Registry) (poll : Poll) : Step :=
  match poll.verdict with
  | .error refusal => registry.refuse refusal
  | .ok accountId =>
    match poll.request.revokedPublicKey with
    | none => .next [] (.claiming poll accountId)
    | some retired =>
      match settings.normalizePublicKey retired with
      | none => registry.refuse .invalidPublicKey
      | some retiredKey => .next [] (.checkingKey poll accountId retiredKey)

def checkRetiredKey (registry : Registry) (poll : Poll) (accountId retiredKey : String) : Step :=
  match (registry.devices.get? retiredKey).filter (·.accountId = accountId) with
  | none => registry.refuse .retiredKeyForeign
  | some previous =>
    if previous.state ≠ .revoked ∨
        settings.normalizePublicKey poll.request.publicKey = some retiredKey then
      registry.refuse .recoveryKeys
    else .next [] (.claiming poll accountId)

/-- The single-use claim is a conditional update; who matches no row reads the verdict. -/
def claimAuthorization (registry : Registry) (poll : Poll) (accountId : String) : Step :=
  if !poll.request.deviceId.startsWith "device_" then registry.refuse .invalidDeviceId
  else
    match registry.grants.get? poll.request.deviceCode with
    | none => .abort
    | some row =>
      if row.status = .approved ∧ poll.now < row.expiresAt then
        match settings.normalizePublicKey poll.request.publicKey with
        | none => registry.refuse .invalidPublicKey
        | some publicKey => .next [.grant poll.request.deviceCode]
            (.attaching (.exchange poll accountId) publicKey)
      else if row.expiresAt ≤ poll.now ∨ row.status = .consumed then
        registry.refuse .authorizationExpired
      else if row.status = .declined then registry.refuse .authorizationDeclined
      else registry.refuse .authorizationPending

/-! #### Registration -/

/-- The session that authenticates the request; the proof of the key is checked before. -/
def registerDevice (registry : Registry) (sessionId publicKey : String)
    (displayName : Option String) : Step :=
  match (registry.sessions.get? sessionId).filter registry.live with
  | none => registry.refuse .authRequired
  | some loaded =>
    match settings.normalizePublicKey publicKey with
    | none => registry.refuse .invalidPublicKey
    | some publicKey =>
      .next [] (.attaching (.registration sessionId loaded displayName) publicKey)

/-! #### The row of a device -/

/-- The row under the key is read and checked. -/
def attachDevice (registry : Registry) (who : Attachment) (publicKey : String) : Step :=
  match registry.devices.get? publicKey with
  | none => .next [] (.naming who publicKey)
  | some device =>
    if device.accountId ≠ who.accountId then registry.refuse .deviceKeyForeign
    else if device.state = .revoked then registry.refuse .deviceRevoked
    else .next [] (.touching who publicKey device)

/-- An exchange prefers the id that the client supplies. -/
def nameDevice (registry : Registry) (scene : Scene) (who : Attachment) (publicKey : String) :
    Step :=
  match who with
  | .exchange poll _ =>
    if registry.deviceOf poll.request.deviceId = none then
      .next [] (.inserting who publicKey poll.request.deviceId)
    else .next [] (.inserting who publicKey scene.deviceId)
  | .registration .. => .next [] (.inserting who publicKey scene.deviceId)

/-- The insertion is skipped where the key has a row by now, which is read again. -/
def insertDevice (registry : Registry) (who : Attachment) (publicKey deviceId : String) : Step :=
  match registry.devices.get? publicKey with
  | some _ => .next [] (.attaching who publicKey)
  | none =>
    if registry.deviceOf deviceId = none then
      .next [.device publicKey] (.attached who publicKey deviceId true)
    else .abort

/-- An exchange goes by the clock of its poll. -/
def Attachment.now (who : Attachment) (scene : Scene) : Nat :=
  match who with
  | .exchange poll _ => poll.now
  | .registration .. => scene.now

def Attachment.newDevice (who : Attachment) (scene : Scene) (deviceId : String) : Device where
  id := deviceId
  accountId := who.accountId
  displayName := who.displayName
  userAgent := scene.userAgent
  approximateLocation := scene.location
  lastSeenAt := who.now scene

def Device.touched (device : Device) (who : Attachment) (scene : Scene) : Device :=
  { device with
    lastSeenAt := who.now scene
    displayName := who.displayName.or device.displayName
    userAgent := scene.userAgent
    approximateLocation := scene.location }

/-- The devices with the row that is inserted, or with the row that is written again. -/
def writeDevice (registry : Registry) (scene : Scene) (who : Attachment)
    (publicKey deviceId : String) (created : Bool) : Option (Table String Device) :=
  if created then
    if registry.deviceOf deviceId = none then
      registry.devices.insert? publicKey (who.newDevice scene deviceId)
    else none
  else
    (registry.devices.get? publicKey).map fun held ↦
      registry.devices.update publicKey (held.touched who scene)

/-- `ACCESS_TTL_CAP` -/
def accessTtlCap : Nat := 86400

/-- `issue_session` -/
def issueSession (sessions : Table String AccountSession) (scene : Scene)
    (sessionId accountId deviceId : String) (ttl : Nat) (kind : SessionKind) :
    Option (Table String AccountSession) :=
  sessions.insert? sessionId
    { accountId := accountId, deviceId := some deviceId, expiresAt := scene.now + ttl,
      kind := kind }

def issuePair (sessions : Table String AccountSession) (scene : Scene)
    (accountId deviceId : String) : Option (Table String AccountSession) := do
  let sessions ← issueSession sessions scene scene.accessId accountId deviceId
    (min settings.sessionTtlSeconds accessTtlCap) .access
  issueSession sessions scene scene.refreshId accountId deviceId settings.sessionTtlSeconds
    .refresh

/-- The session is bound to the device unless it was read as bound. -/
def bindSession (sessions : Table String AccountSession) (sessionId deviceId : String)
    (loaded : AccountSession) : Table String AccountSession :=
  match loaded.deviceId, sessions.get? sessionId with
  | none, some held => sessions.update sessionId { held with deviceId := some deviceId }
  | _, _ => sessions

def commitExchange (registry : Registry) (scene : Scene) (devices : Table String Device)
    (poll : Poll) (accountId deviceId : String) : Step :=
  match registry.grants.get? poll.request.deviceCode,
      issuePair settings registry.sessions scene accountId deviceId with
  | some held, some sessions => .commit [] ({ registry with
      grants := registry.grants.update poll.request.deviceCode { held with status := .consumed }
      devices := devices
      sessions := sessions }.answer (.exchanged
        { deviceCode := poll.request.deviceCode, accountId := accountId, deviceId := deviceId,
          polledAt := poll.now, accessId := scene.accessId, refreshId := scene.refreshId }))
  | _, _ => .abort

def commitAttachment (registry : Registry) (scene : Scene) (who : Attachment)
    (publicKey deviceId : String) (created : Bool) : Step :=
  match writeDevice registry scene who publicKey deviceId created with
  | none => .abort
  | some devices =>
    match who with
    | .exchange poll accountId =>
      commitExchange settings registry scene devices poll accountId deviceId
    | .registration sessionId loaded _ =>
      .commit [.session sessionId] ({ registry with
        devices := devices
        sessions := bindSession registry.sessions sessionId deviceId loaded }.answer
          (.registered deviceId))

/-! #### Revocation -/

/-- The row is read without a lock; a device that is revoked already stays so. -/
def revokeDevice (registry : Registry) (accountId deviceId : String) : Step :=
  match registry.deviceOf deviceId with
  | none => registry.refuse .permissionDenied
  | some (publicKey, device) =>
    if device.accountId ≠ accountId then registry.refuse .permissionDenied
    else if device.state = .revoked then
      .commit [] (registry.answer (.deviceRevoked deviceId))
    else .next [] (.revoking publicKey deviceId)

/-- `revoke_sessions_for_device`: the sessions of the device that are not revoked. -/
def Registry.openSessions (registry : Registry) (deviceId : String) : List String :=
  (registry.sessions.entries.filter fun entry ↦
    entry.2.deviceId = some deviceId ∧ entry.2.revokedAt = none).map Prod.fst

def commitRevoke (registry : Registry) (scene : Scene) (publicKey deviceId : String)
    (sessionIds : List String) : Step :=
  match registry.devices.get? publicKey with
  | none => .abort
  | some held =>
    .commit (sessionIds.map .session) ({ registry with
      devices := registry.devices.update publicKey { held with state := .revoked }
      sessions := registry.sessions.mapRows fun sessionId session ↦
        if sessionId ∈ sessionIds then { session with revokedAt := some scene.now } else session
      }.answer (.deviceRevoked deviceId))

def statement (registry : Registry) (work : Work) (scene : Scene) : Step :=
  if scene.fails then .abort
  else
    match work with
    | .start => startDeviceAuthorization registry scene
    | .approve userCode accountId =>
        approveDeviceAuthorization settings registry scene userCode accountId
    | .approving deviceCode accountId => commitApproval registry deviceCode accountId
    | .poll request => readAuthorization registry scene request
    | .polling poll => commitPoll registry poll
    | .exchange poll => exchangeDeviceCode settings registry poll
    | .checkingKey poll accountId retiredKey =>
        checkRetiredKey settings registry poll accountId retiredKey
    | .claiming poll accountId => claimAuthorization settings registry poll accountId
    | .register sessionId publicKey displayName =>
        registerDevice settings registry sessionId publicKey displayName
    | .attaching who publicKey => attachDevice registry who publicKey
    | .naming who publicKey => nameDevice registry scene who publicKey
    | .inserting who publicKey deviceId => insertDevice registry who publicKey deviceId
    | .touching who publicKey device =>
        .next [.device publicKey] (.attached who publicKey device.id false)
    | .attached who publicKey deviceId created =>
        commitAttachment settings registry scene who publicKey deviceId created
    | .revoke accountId deviceId => revokeDevice registry accountId deviceId
    | .revoking publicKey deviceId =>
        .next [.device publicKey] (.cascading publicKey deviceId)
    | .cascading publicKey deviceId =>
        .next [] (.closing publicKey deviceId (registry.openSessions deviceId))
    | .closing publicKey deviceId sessionIds =>
        commitRevoke registry scene publicKey deviceId sessionIds

/-- Requests come in, and a poll whose first transaction is committed goes on. -/
def starts (registry : Registry) : Work → Bool
  | .start | .approve .. | .poll .. | .register .. | .revoke .. => true
  | .exchange poll => poll ∈ registry.polls
  | _ => false

def service : System Registry Lock Work Scene where
  starts := starts
  statement := statement settings

end AiStp.Auth.DeviceFlow
