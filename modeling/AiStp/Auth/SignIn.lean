import AiStp.Auth.DeviceFlow

/-!
# Device sign-in over runs

`Commit` lists what the last statement of a request may write (`statement_commit`). From it follow
what a commit leaves to the others (`Effect`), what holds of the rows at every moment (`Sound`), and
what an open request relies on (`Relies`): a code that it has claimed, a device whose row it has
locked, and, before a revoke ends, the list of all open sessions of the device. One thing nobody
relies on: that a device which was read as active is active when its sessions are written. `Fits`
asks for it, `sign_in_safe` is about the runs that meet it, and `sign_in_unsafe` is a run that does
not.
-/

set_option autoImplicit false

namespace AiStp.Auth.DeviceFlow

open Library Library.Transactions

/-! ### Invariants -/

def Answer.exchange? : Answer → Option Exchange
  | .exchanged exchange => some exchange
  | _ => none

def Registry.exchanges (registry : Registry) : List Exchange :=
  registry.answers.filterMap Answer.exchange?

/-- The row of a poll is a row of the code as it was: an account that had approved it then has. -/
def Registry.Recalls (registry : Registry) (poll : Poll) : Prop :=
  ∃ row, registry.grants.get? poll.request.deviceCode = some row ∧
    row.expiresAt = poll.row.expiresAt ∧
    (poll.row.status = .approved → row.status ≠ .pending ∧ row.accountId = poll.row.accountId)

/-- An account has approved the code of a poll. -/
def Registry.ApprovedFor (registry : Registry) (poll : Poll) (accountId : String) : Prop :=
  ∃ row, registry.grants.get? poll.request.deviceCode = some row ∧
    row.status ≠ .pending ∧ row.accountId = some accountId

structure Registry.Sound (registry : Registry) : Prop where
  ids : ∀ first second one two, registry.devices.get? first = some one →
    registry.devices.get? second = some two → one.id = two.id → first = second
  approved : ∀ code row, registry.grants.get? code = some row →
    row.status = .approved ∨ row.status = .consumed →
      ∃ accountId, row.accountId = some accountId ∧ .approved code accountId ∈ registry.answers
  exchanged : ∀ exchange ∈ registry.exchanges,
    ∃ row, registry.grants.get? exchange.deviceCode = some row ∧ row.status = .consumed ∧
      row.accountId = some exchange.accountId ∧ exchange.polledAt < row.expiresAt
  single : (registry.exchanges.map Exchange.deviceCode).Nodup
  polls : ∀ poll ∈ registry.polls, registry.Recalls poll

/-- The sessions of a revoked device are revoked. -/
def Registry.Closed (registry : Registry) : Prop :=
  ∀ key device, registry.devices.get? key = some device → device.state = .revoked →
    ∀ sessionId session, registry.sessions.get? sessionId = some session →
      session.deviceId = some device.id → session.revokedAt ≠ none

variable {sessionId : String} {device : Device} {session : AccountSession}

section Reading

variable {registry : Registry} {deviceId : String}

theorem deviceOf_eq_none : registry.deviceOf deviceId = none ↔
    ∀ key device, registry.devices.get? key = some device → device.id ≠ deviceId := by
  unfold Registry.deviceOf
  rw [Table.find?_eq_none]
  simp

theorem deviceOf_eq_some {key : String} (h : registry.deviceOf deviceId = some (key, device)) :
    registry.devices.get? key = some device ∧ device.id = deviceId := by
  obtain ⟨hget, hid⟩ := Table.find?_eq_some h
  exact ⟨hget, of_decide_eq_true hid⟩

theorem mem_openSessions : sessionId ∈ registry.openSessions deviceId ↔
    ∃ session, registry.sessions.get? sessionId = some session ∧
      session.deviceId = some deviceId ∧ session.revokedAt = none := by
  unfold Registry.openSessions
  simp only [List.mem_map, List.mem_filter, Prod.exists, Table.mem_entries, decide_eq_true_eq]
  constructor
  · rintro ⟨other, session, ⟨hsession, hopen⟩, rfl⟩
    exact ⟨session, hsession, hopen⟩
  · rintro ⟨session, hsession, hopen⟩
    exact ⟨sessionId, session, ⟨hsession, hopen⟩, rfl⟩

/-- The clock and the revocation time apart, a session of a revoked device is refused. -/
theorem not_live_of_revoked (hsound : registry.Sound) {key : String}
    (hdevice : registry.devices.get? key = some device) (hrevoked : device.state = .revoked)
    (hsession : session.deviceId = some device.id) : registry.live session = false := by
  unfold Registry.live
  rw [decide_eq_false_iff_not]
  rintro ⟨-, hactive⟩
  cases hfound : registry.deviceOf device.id with
  | none => exact deviceOf_eq_none.mp hfound key device hdevice rfl
  | some entry =>
    obtain ⟨other, found⟩ := entry
    obtain ⟨hget, hid⟩ := deviceOf_eq_some hfound
    have hsame := hsound.ids other key found device hget hdevice hid
    rw [hsame, hdevice] at hget
    have hstate := hactive device.id hsession (other, found) hfound
    rw [← Option.some.inj hget, hrevoked] at hstate
    cases hstate

end Reading

/-! ### The row of a device that is written -/

/-- The devices with the row of a key inserted or written again. -/
structure Attached (registry : Registry) (devices : Table String Device)
    (publicKey deviceId accountId : String) (row : Device) : Prop where
  get : devices.get? publicKey = some row
  id : row.id = deviceId
  account : row.accountId = accountId
  elsewhere : ∀ other, other ≠ publicKey → devices.get? other = registry.devices.get? other
  existing : ∀ device ∈ registry.devices.get? publicKey,
    row.state = device.state ∧ row.id = device.id ∧ row.accountId = device.accountId
  fresh : registry.devices.get? publicKey = none →
    row.state = .active ∧ registry.deviceOf deviceId = none

section Attaching

variable {registry : Registry} {devices : Table String Device} {scene : Scene} {who : Attachment}
  {publicKey deviceId accountId : String} {created : Bool} {row : Device}

theorem writeDevice_attached
    (hread : created = false → ∃ device, registry.devices.get? publicKey = some device ∧
      device.id = deviceId ∧ device.accountId = who.accountId)
    (h : writeDevice registry scene who publicKey deviceId created = some devices) :
    ∃ row, Attached registry devices publicKey deviceId who.accountId row := by
  unfold writeDevice at h
  cases created with
  | true =>
    rw [if_pos rfl] at h
    split_ifs at h with hfree
    obtain ⟨hnone, hget⟩ := Table.insert?_eq_some h
    refine ⟨who.newDevice scene deviceId, ?_, rfl, rfl, ?_, ?_, fun _ ↦ ⟨rfl, hfree⟩⟩
    · rw [hget, if_pos rfl]
    · intro other hother
      rw [hget, if_neg hother]
    · intro device hdevice
      rw [hnone] at hdevice
      cases hdevice
  | false =>
    rw [if_neg Bool.false_ne_true] at h
    obtain ⟨device, hdevice, hid, haccount⟩ := hread rfl
    rw [hdevice] at h
    have hdevices := Option.some.inj h
    refine ⟨device.touched who scene, ?_, hid, haccount, ?_, ?_, ?_⟩
    · rw [← hdevices]
      exact Table.get?_update_self hdevice
    · intro other hother
      rw [← hdevices]
      exact Table.get?_update_of_ne hother
    · intro held hheld
      rw [hdevice] at hheld
      rw [← Option.some.inj hheld]
      exact ⟨rfl, rfl, rfl⟩
    · intro hnone
      rw [hdevice] at hnone
      cases hnone

/-- Another key has another id. -/
theorem Attached.id_ne (h : Attached registry devices publicKey deviceId accountId row)
    (hsound : registry.Sound) {other : String} (hdevice : registry.devices.get? other = some device)
    (hother : other ≠ publicKey) : device.id ≠ deviceId := by
  intro hsame
  cases hheld : registry.devices.get? publicKey with
  | none => exact deviceOf_eq_none.mp (h.fresh hheld).2 other device hdevice hsame
  | some held =>
    apply hother
    apply hsound.ids other publicKey device held hdevice hheld
    rw [hsame, ← h.id, (h.existing held hheld).2.1]

theorem Attached.ids (h : Attached registry devices publicKey deviceId accountId row)
    (hsound : registry.Sound) : ∀ first second one two, devices.get? first = some one →
      devices.get? second = some two → one.id = two.id → first = second := by
  have hbeside : ∀ other device, other ≠ publicKey → devices.get? other = some device →
      device.id ≠ row.id := by
    intro other device hother hdevice
    rw [h.elsewhere other hother] at hdevice
    rw [h.id]
    exact h.id_ne hsound hdevice hother
  intro first second one two hone htwo hsame
  by_cases hfirst : first = publicKey
  · by_cases hsecond : second = publicKey
    · rw [hfirst, hsecond]
    · rw [hfirst, h.get] at hone
      rw [← Option.some.inj hone] at hsame
      exact absurd hsame.symm (hbeside second two hsecond htwo)
  · by_cases hsecond : second = publicKey
    · rw [hsecond, h.get] at htwo
      rw [← Option.some.inj htwo] at hsame
      exact absurd hsame (hbeside first one hfirst hone)
    · rw [h.elsewhere first hfirst] at hone
      rw [h.elsewhere second hsecond] at htwo
      exact hsound.ids first second one two hone htwo hsame

end Attaching

/-! ### Sessions that are issued -/

/-- Two sessions more, of one account and device. -/
structure Issued (before after : Table String AccountSession) (exchange : Exchange) : Prop where
  access : before.get? exchange.accessId = none
  refresh : before.get? exchange.refreshId = none
  elsewhere : ∀ sessionId, sessionId ≠ exchange.accessId → sessionId ≠ exchange.refreshId →
    after.get? sessionId = before.get? sessionId
  pair : ∀ sessionId, sessionId = exchange.accessId ∨ sessionId = exchange.refreshId →
    ∃ session, after.get? sessionId = some session ∧ session.accountId = exchange.accountId ∧
      session.deviceId = some exchange.deviceId

variable {sessions : Table String AccountSession}

theorem issuePair_issued {settings : Settings} {after : Table String AccountSession} {scene : Scene}
    {deviceCode accountId deviceId : String} {polledAt : Nat}
    (h : issuePair settings sessions scene accountId deviceId = some after) :
    Issued sessions after ⟨deviceCode, accountId, deviceId, polledAt, scene.accessId,
      scene.refreshId⟩ := by
  unfold issuePair at h
  simp only [Option.bind_eq_bind, Option.bind_eq_some_iff] at h
  obtain ⟨middle, hfirst, hsecond⟩ := h
  obtain ⟨haccess, hmiddle⟩ := Table.insert?_eq_some hfirst
  obtain ⟨hrefresh, hafter⟩ := Table.insert?_eq_some hsecond
  rw [hmiddle] at hrefresh
  split_ifs at hrefresh with hsame
  refine ⟨haccess, hrefresh, ?_, ?_⟩
  · intro sessionId hnotAccess hnotRefresh
    rw [hafter, if_neg hnotRefresh, hmiddle, if_neg hnotAccess]
  · intro sessionId hsession
    by_cases hlast : sessionId = scene.refreshId
    · exact ⟨_, by rw [hafter, if_pos hlast], rfl, rfl⟩
    · have hone : sessionId = scene.accessId := hsession.resolve_right hlast
      exact ⟨_, by rw [hafter, if_neg hlast, hmiddle, if_pos hone], rfl, rfl⟩

/-! ### What a statement commits -/

/-- An answer after which nothing is written. -/
def Answer.quiet (registry : Registry) : Answer → Prop
  | .refused _ | .deviceRevoked _ => True
  | .approved code accountId =>
      ∃ row, registry.grants.get? code = some row ∧ row.accountId = some accountId
  | _ => False

inductive Commit (registry : Registry) : Work → List Lock → Registry → Prop
  | answered (work : Work) (answer : Answer) (hquiet : answer.quiet registry) :
      Commit registry work [] (registry.answer answer)
  | started (code userCode : String) (expiresAt : Nat) (grants : Table String DeviceAuthorization)
      (hinsert : registry.grants.insert? code
        { userCode := userCode, expiresAt := expiresAt } = some grants) :
      Commit registry .start [] ({ registry with grants := grants }.answer (.started code))
  | approved (code accountId : String) (held : DeviceAuthorization)
      (hheld : registry.grants.get? code = some held) :
      Commit registry (.approving code accountId) []
        ({ registry with
          grants := registry.grants.update code
            { held with status := .approved, accountId := some accountId } }.answer
          (.approved code accountId))
  | polled (poll : Poll) (held : DeviceAuthorization)
      (hheld : registry.grants.get? poll.request.deviceCode = some held) :
      Commit registry (.polling poll) [.grant poll.request.deviceCode]
        { registry with
          grants := registry.grants.update poll.request.deviceCode
            { held with lastPollAt := some poll.now }
          polls := registry.polls ++ [poll] }
  | exchanged (poll : Poll) (accountId publicKey deviceId accessId refreshId : String)
      (created : Bool) (scene : Scene) (held : DeviceAuthorization) (devices : Table String Device)
      (sessions : Table String AccountSession)
      (hdevices : writeDevice registry scene (.exchange poll accountId) publicKey deviceId
        created = some devices)
      (hheld : registry.grants.get? poll.request.deviceCode = some held)
      (hissued : Issued registry.sessions sessions
        ⟨poll.request.deviceCode, accountId, deviceId, poll.now, accessId, refreshId⟩) :
      Commit registry (.attached (.exchange poll accountId) publicKey deviceId created) []
        ({ registry with
          grants := registry.grants.update poll.request.deviceCode
            { held with status := .consumed }
          devices := devices
          sessions := sessions }.answer (.exchanged
            ⟨poll.request.deviceCode, accountId, deviceId, poll.now, accessId, refreshId⟩))
  | registered (sessionId publicKey deviceId : String) (loaded : AccountSession)
      (displayName : Option String) (created : Bool) (scene : Scene) (devices : Table String Device)
      (hdevices : writeDevice registry scene (.registration sessionId loaded displayName) publicKey
        deviceId created = some devices) :
      Commit registry (.attached (.registration sessionId loaded displayName) publicKey deviceId
          created) [.session sessionId]
        ({ registry with
          devices := devices
          sessions := bindSession registry.sessions sessionId deviceId loaded }.answer
            (.registered deviceId))
  | revoked (publicKey deviceId : String) (sessionIds : List String) (now : Nat) (held : Device)
      (hheld : registry.devices.get? publicKey = some held) :
      Commit registry (.closing publicKey deviceId sessionIds) (sessionIds.map .session)
        ({ registry with
          devices := registry.devices.update publicKey { held with state := .revoked }
          sessions := registry.sessions.mapRows fun sessionId session ↦
            if sessionId ∈ sessionIds then { session with revokedAt := some now } else session
          }.answer (.deviceRevoked deviceId))

section Statements

variable {settings : Settings} {registry after : Registry} {work : Work} {scene : Scene}
  {taken : List Lock}

theorem statement_commit (h : statement settings registry work scene = .commit taken after) :
    Commit registry work taken after := by
  have hrefuse : ∀ {work : Work} {refusal : Refusal},
      registry.refuse refusal = .commit taken after → Commit registry work taken after := by
    intro work refusal h
    obtain ⟨rfl, rfl⟩ := Outcome.commit.inj h
    exact .answered work (.refused refusal) trivial
  unfold statement at h
  split_ifs at h
  cases work with
  | start =>
    simp only [startDeviceAuthorization] at h
    split_ifs at h
    split at h
    · next grants hinsert =>
      obtain ⟨rfl, rfl⟩ := Outcome.commit.inj h
      exact .started _ _ _ grants hinsert
    · cases h
  | approve userCode accountId =>
    simp only [approveDeviceAuthorization] at h
    split at h
    · exact hrefuse h
    · next code row hfind =>
      split_ifs at h with hpending hover hsame
      · exact hrefuse h
      · obtain ⟨rfl, rfl⟩ := Outcome.commit.inj h
        exact .answered _ _ ⟨row, (Table.find?_eq_some hfind).1, hsame.2⟩
      · exact hrefuse h
  | approving code accountId =>
    simp only [commitApproval] at h
    split at h
    · cases h
    · next held hheld =>
      obtain ⟨rfl, rfl⟩ := Outcome.commit.inj h
      exact .approved code accountId held hheld
  | poll request =>
    simp only [readAuthorization] at h
    split at h
    · exact hrefuse h
    · split_ifs at h
      exact hrefuse h
  | polling poll =>
    simp only [commitPoll] at h
    split at h
    · cases h
    · next held hheld =>
      obtain ⟨rfl, rfl⟩ := Outcome.commit.inj h
      exact .polled poll held hheld
  | exchange poll =>
    simp only [exchangeDeviceCode] at h
    split at h
    · exact hrefuse h
    · split at h
      · cases h
      · split at h
        · exact hrefuse h
        · cases h
  | checkingKey poll accountId retiredKey =>
    simp only [checkRetiredKey] at h
    split at h
    · exact hrefuse h
    · split_ifs at h
      exact hrefuse h
  | claiming poll accountId =>
    simp only [claimAuthorization] at h
    split_ifs at h
    · exact hrefuse h
    · split at h
      · cases h
      · split_ifs at h
        · split at h
          · exact hrefuse h
          · cases h
        · exact hrefuse h
        · exact hrefuse h
        · exact hrefuse h
  | register sessionId publicKey displayName =>
    simp only [registerDevice] at h
    split at h
    · exact hrefuse h
    · split at h
      · exact hrefuse h
      · cases h
  | attaching who publicKey =>
    simp only [attachDevice] at h
    split at h
    · cases h
    · split_ifs at h
      · exact hrefuse h
      · exact hrefuse h
  | naming who publicKey =>
    simp only [nameDevice] at h
    split at h
    · split_ifs at h
    · cases h
  | inserting who publicKey deviceId =>
    simp only [insertDevice] at h
    split at h
    · cases h
    · split_ifs at h
  | touching who publicKey device => cases h
  | attached who publicKey deviceId created =>
    simp only [commitAttachment] at h
    split at h
    · cases h
    · next devices hdevices =>
      cases who with
      | exchange poll accountId =>
        simp only [commitExchange] at h
        split at h
        · next held sessions hheld hsessions =>
          obtain ⟨rfl, rfl⟩ := Outcome.commit.inj h
          exact .exchanged poll accountId publicKey deviceId _ _ created scene held devices
            sessions hdevices hheld (issuePair_issued hsessions)
        · cases h
      | registration sessionId loaded displayName =>
        obtain ⟨rfl, rfl⟩ := Outcome.commit.inj h
        exact .registered sessionId publicKey deviceId loaded displayName created scene devices
          hdevices
  | revoke accountId deviceId =>
    simp only [revokeDevice] at h
    split at h
    · exact hrefuse h
    · split_ifs at h
      · exact hrefuse h
      · obtain ⟨rfl, rfl⟩ := Outcome.commit.inj h
        exact .answered _ _ trivial
  | revoking publicKey deviceId => cases h
  | cascading publicKey deviceId => cases h
  | closing publicKey deviceId sessionIds =>
    simp only [commitRevoke] at h
    split at h
    · cases h
    · next held hheld =>
      obtain ⟨rfl, rfl⟩ := Outcome.commit.inj h
      exact .revoked publicKey deviceId sessionIds _ held hheld

end Statements

/-! ### What a transaction relies on -/

/-- The code that an exchange has claimed is approved for its account, and locked. -/
def Attachment.Relies (registry : Registry) (locks : List Lock) : Attachment → Prop
  | .exchange poll accountId => Lock.grant poll.request.deviceCode ∈ locks ∧
      ∃ row, registry.grants.get? poll.request.deviceCode = some row ∧ row.status = .approved ∧
        row.accountId = some accountId ∧ poll.now < row.expiresAt
  | .registration .. => True

/-- The key has a row with the id. -/
def Registry.HasDevice (registry : Registry) (publicKey deviceId : String) : Prop :=
  ∃ device, registry.devices.get? publicKey = some device ∧ device.id = deviceId

/-- The key has a row with the id and the account. -/
def Registry.HasDeviceOf (registry : Registry) (publicKey deviceId accountId : String) : Prop :=
  ∃ device, registry.devices.get? publicKey = some device ∧ device.id = deviceId ∧
    device.accountId = accountId

def Relies (registry : Registry) (locks : List Lock) : Work → Prop
  | .approving code _ => Lock.grant code ∈ locks ∧
      ∃ row, registry.grants.get? code = some row ∧ row.status = .pending
  | .polling poll | .exchange poll => registry.Recalls poll
  | .checkingKey poll accountId _ | .claiming poll accountId =>
      registry.ApprovedFor poll accountId
  | .attaching who _ | .naming who _ | .inserting who _ _ => who.Relies registry locks
  | .touching who publicKey device => who.Relies registry locks ∧
      registry.HasDeviceOf publicKey device.id who.accountId
  | .attached who publicKey deviceId created => who.Relies registry locks ∧
      Lock.device publicKey ∈ locks ∧
      (created = false → registry.HasDeviceOf publicKey deviceId who.accountId)
  | .revoking publicKey deviceId => registry.HasDevice publicKey deviceId
  | .cascading publicKey deviceId => Lock.device publicKey ∈ locks ∧
      registry.HasDevice publicKey deviceId
  | .closing publicKey deviceId sessionIds => Lock.device publicKey ∈ locks ∧
      registry.HasDevice publicKey deviceId ∧
      ∀ sessionId session, registry.sessions.get? sessionId = some session →
        session.deviceId = some deviceId → session.revokedAt = none → sessionId ∈ sessionIds
  | _ => True

/-! ### What a commit leaves -/

/-- A code keeps its expiry, and its account once it is approved; a consumed one stays so. -/
structure GrantKept (row later : DeviceAuthorization) : Prop where
  expiresAt : later.expiresAt = row.expiresAt
  account : row.status ≠ .pending → later.accountId = row.accountId ∧ later.status ≠ .pending
  consumed : row.status = .consumed → later.status = .consumed

/-- A device keeps its id and its account, and a revoked one stays revoked. -/
structure DeviceKept (row later : Device) : Prop where
  id : later.id = row.id
  account : later.accountId = row.accountId
  revoked : row.state = .revoked → later.state = .revoked

theorem GrantKept.refl (row : DeviceAuthorization) : GrantKept row row :=
  ⟨rfl, fun h ↦ ⟨rfl, h⟩, fun h ↦ h⟩

theorem GrantKept.trans {first second third : DeviceAuthorization} (h : GrantKept first second)
    (h' : GrantKept second third) : GrantKept first third where
  expiresAt := h'.expiresAt.trans h.expiresAt
  account := by
    intro hstatus
    obtain ⟨haccount, hmiddle⟩ := h.account hstatus
    obtain ⟨haccount', hlast⟩ := h'.account hmiddle
    exact ⟨haccount'.trans haccount, hlast⟩
  consumed := fun hstatus ↦ h'.consumed (h.consumed hstatus)

theorem DeviceKept.refl (row : Device) : DeviceKept row row := ⟨rfl, rfl, fun hstate ↦ hstate⟩

theorem DeviceKept.trans {first second third : Device} (h : DeviceKept first second)
    (h' : DeviceKept second third) : DeviceKept first third :=
  ⟨h'.id.trans h.id, h'.account.trans h.account, fun hstate ↦ h'.revoked (h.revoked hstate)⟩

structure Effect (before after : Registry) (locks : List Lock) : Prop where
  grants : before.grants.Keeps GrantKept after.grants
  grant : ∀ code row, before.grants.get? code = some row → Lock.grant code ∉ locks →
    after.grants.get? code = some row
  devices : before.devices.Keeps DeviceKept after.devices
  sessions : ∀ key device, before.devices.get? key = some device → Lock.device key ∉ locks →
    ∀ sessionId session, after.sessions.get? sessionId = some session →
      session.deviceId = some device.id → session.revokedAt = none →
        sessionId ∈ before.openSessions device.id

variable {poll : Poll}

section Effects

variable {before after : Registry} {taken locks : List Lock}

section

variable (heffect : Effect before after taken)
include heffect

theorem Effect.attachment (hfree : ∀ lock ∈ taken, lock ∉ locks) {who : Attachment}
    (h : who.Relies before locks) : who.Relies after locks := by
  cases who with
  | exchange poll accountId =>
    obtain ⟨hlock, row, hrow, happroved⟩ := h
    exact ⟨hlock, row, heffect.grant _ row hrow fun htaken ↦ hfree _ htaken hlock, happroved⟩
  | registration => trivial

theorem Effect.recalls (h : before.Recalls poll) : after.Recalls poll := by
  obtain ⟨row, hrow, hexpires, happroved⟩ := h
  obtain ⟨later, hlater, hkept⟩ := heffect.grants _ row hrow
  refine ⟨later, hlater, hkept.expiresAt.trans hexpires, fun hstatus ↦ ?_⟩
  obtain ⟨hpending, haccount⟩ := happroved hstatus
  obtain ⟨hsame, hstill⟩ := hkept.account hpending
  exact ⟨hstill, hsame.trans haccount⟩

theorem Effect.approvedFor {accountId : String} (h : before.ApprovedFor poll accountId) :
    after.ApprovedFor poll accountId := by
  obtain ⟨row, hrow, hstatus, haccount⟩ := h
  obtain ⟨later, hlater, hkept⟩ := heffect.grants _ row hrow
  obtain ⟨hsame, hstill⟩ := hkept.account hstatus
  exact ⟨later, hlater, hstill, hsame.trans haccount⟩

theorem Effect.hasDevice {publicKey deviceId : String} (h : before.HasDevice publicKey deviceId) :
    after.HasDevice publicKey deviceId := by
  obtain ⟨device, hdevice, hid⟩ := h
  obtain ⟨later, hlater, hkept⟩ := heffect.devices _ device hdevice
  exact ⟨later, hlater, hkept.id.trans hid⟩

theorem Effect.hasDeviceOf {publicKey deviceId accountId : String}
    (h : before.HasDeviceOf publicKey deviceId accountId) :
    after.HasDeviceOf publicKey deviceId accountId := by
  obtain ⟨device, hdevice, hid, haccount⟩ := h
  obtain ⟨later, hlater, hkept⟩ := heffect.devices _ device hdevice
  exact ⟨later, hlater, hkept.id.trans hid, hkept.account.trans haccount⟩

end

end Effects

/-! ### Commits and their effects -/

theorem Attached.keeps {registry : Registry} {devices : Table String Device}
    {publicKey deviceId accountId : String} {row : Device}
    (h : Attached registry devices publicKey deviceId accountId row) :
    registry.devices.Keeps DeviceKept devices := by
  intro key device hdevice
  by_cases hkey : key = publicKey
  · subst hkey
    obtain ⟨hstate, hid, haccount⟩ := h.existing device hdevice
    exact ⟨row, h.get, hid, haccount, fun hrevoked ↦ hstate.trans hrevoked⟩
  · exact ⟨device, (h.elsewhere key hkey).trans hdevice, .refl device⟩

/-- What is bound to a device was bound to it, or is bound to the one that a session registers. -/
theorem bindSession_cases {deviceId : String} {loaded : AccountSession} {other : String}
    (h : (bindSession sessions sessionId deviceId loaded).get? other = some session) :
    sessions.get? other = some session ∨ (loaded.deviceId = none ∧ other = sessionId ∧
      ∃ held, sessions.get? sessionId = some held ∧
        session = { held with deviceId := some deviceId }) := by
  unfold bindSession at h
  split at h
  · next held hloaded hheld =>
    by_cases hother : other = sessionId
    · rw [hother, Table.get?_update_self hheld] at h
      exact .inr ⟨hloaded, hother, held, hheld, (Option.some.inj h).symm⟩
    · rw [Table.get?_update_of_ne hother] at h
      exact .inl h
  · exact .inl h

theorem revoked_cases {sessionIds : List String} {now : Nat}
    (h : (sessions.mapRows fun sessionId session ↦ if sessionId ∈ sessionIds then
      { session with revokedAt := some now } else session).get? sessionId = some session) :
    ∃ held, sessions.get? sessionId = some held ∧ session.deviceId = held.deviceId ∧
      (session.revokedAt = none → session = held ∧ sessionId ∉ sessionIds) := by
  rw [Table.get?_mapRows] at h
  obtain ⟨held, hheld, hsession⟩ := Option.map_eq_some_iff.mp h
  refine ⟨held, hheld, ?_⟩
  by_cases hmem : sessionId ∈ sessionIds
  · rw [if_pos hmem] at hsession
    rw [← hsession]
    exact ⟨rfl, fun hnone ↦ nomatch hnone⟩
  · rw [if_neg hmem] at hsession
    exact ⟨by rw [hsession], fun _ ↦ ⟨hsession.symm, hmem⟩⟩

section Commits

variable {registry after : Registry} {work : Work} {locks taken : List Lock}

theorem Commit.effect (hcommit : Commit registry work taken after) (hsound : registry.Sound)
    (hrelies : Relies registry locks work) : Effect registry after (locks ++ taken) := by
  have hopen : ∀ key device, registry.devices.get? key = some device →
      Lock.device key ∉ locks ++ taken → ∀ sessionId session,
        registry.sessions.get? sessionId = some session → session.deviceId = some device.id →
          session.revokedAt = none → sessionId ∈ registry.openSessions device.id :=
    fun _ _ _ _ _ session hsession hbound hnone ↦
      mem_openSessions.mpr ⟨session, hsession, hbound, hnone⟩
  cases hcommit with
  | answered =>
    exact ⟨.refl .refl _, fun _ _ hrow _ ↦ hrow, .refl .refl _, hopen⟩
  | started code userCode expiresAt grants hinsert =>
    refine ⟨Table.keeps_insert? .refl hinsert, ?_, .refl .refl _, hopen⟩
    intro other row hrow _
    obtain ⟨kept, hkept, rfl⟩ := Table.keeps_insert? (fun _ ↦ rfl) hinsert other row hrow
    exact hkept
  | approved code accountId held hheld =>
    obtain ⟨hlock, row, hrow, hpending⟩ := hrelies
    have hsame : row = held := Option.some.inj (hrow.symm.trans hheld)
    subst hsame
    refine ⟨Table.keeps_update .refl hheld ⟨rfl, ?_, ?_⟩, ?_, .refl .refl _, hopen⟩
    · intro hstatus
      exact absurd hpending hstatus
    · intro hconsumed
      rw [hpending] at hconsumed
      cases hconsumed
    · intro other row hrow hfree
      refine (Table.get?_update_of_ne ?_).trans hrow
      rintro rfl
      exact hfree (List.mem_append_left _ hlock)
  | polled poll held hheld =>
    refine ⟨Table.keeps_update .refl hheld ⟨rfl, fun hstatus ↦ ⟨rfl, hstatus⟩, fun h ↦ h⟩, ?_,
      .refl .refl _, hopen⟩
    intro other row hrow hfree
    refine (Table.get?_update_of_ne ?_).trans hrow
    rintro rfl
    exact hfree (List.mem_append_right _ (List.mem_singleton_self _))
  | exchanged poll accountId publicKey deviceId accessId refreshId created scene held devices
      sessions hdevices hheld hissued =>
    obtain ⟨⟨hlock, row, hrow, hstatus, -, -⟩, hdevice, hread⟩ := hrelies
    have hsame : row = held := Option.some.inj (hrow.symm.trans hheld)
    subst hsame
    obtain ⟨written, hattached⟩ := writeDevice_attached hread hdevices
    refine ⟨Table.keeps_update .refl hheld ⟨rfl, ?_, ?_⟩, ?_, hattached.keeps, ?_⟩
    · intro _
      exact ⟨rfl, AuthorizationStatus.noConfusion⟩
    · intro _
      rfl
    · intro other row hrow hfree
      refine (Table.get?_update_of_ne ?_).trans hrow
      rintro rfl
      exact hfree (List.mem_append_left _ hlock)
    · intro key device hget hfree sessionId session hsession hbound hnone
      change sessions.get? sessionId = some session at hsession
      have hkey : key ≠ publicKey := by
        rintro rfl
        exact hfree (List.mem_append_left _ hdevice)
      by_cases hnew : sessionId = accessId ∨ sessionId = refreshId
      · obtain ⟨issued, hget', -, hid⟩ := hissued.pair sessionId hnew
        rw [hsession] at hget'
        rw [← Option.some.inj hget', hbound] at hid
        exact absurd (Option.some.inj hid) (hattached.id_ne hsound hget hkey)
      · push Not at hnew
        rw [hissued.elsewhere sessionId hnew.1 hnew.2] at hsession
        exact hopen key device hget hfree sessionId session hsession hbound hnone
  | registered sessionId publicKey deviceId loaded displayName created scene devices hdevices =>
    obtain ⟨-, hdevice, hread⟩ := hrelies
    obtain ⟨written, hattached⟩ := writeDevice_attached hread hdevices
    refine ⟨.refl .refl _, fun _ _ hrow _ ↦ hrow, hattached.keeps, ?_⟩
    intro key device hget hfree other session hsession hbound hnone
    have hkey : key ≠ publicKey := by
      rintro rfl
      exact hfree (List.mem_append_left _ hdevice)
    rcases bindSession_cases hsession with hold | ⟨-, -, held, -, hnew⟩
    · exact hopen key device hget hfree other session hold hbound hnone
    · rw [hnew] at hbound
      exact absurd (Option.some.inj hbound).symm (hattached.id_ne hsound hget hkey)
  | revoked publicKey deviceId sessionIds now held hheld =>
    refine ⟨.refl .refl _, fun _ _ hrow _ ↦ hrow,
      Table.keeps_update .refl hheld ⟨rfl, rfl, fun _ ↦ rfl⟩, ?_⟩
    intro key device hget hfree sessionId session hsession hbound hnone
    obtain ⟨before, hbefore, -, hsame⟩ := revoked_cases hsession
    obtain ⟨rfl, -⟩ := hsame hnone
    exact hopen key device hget hfree sessionId session hbefore hbound hnone

end Commits

theorem Effect.relies {before after : Registry} {taken locks : List Lock} {work : Work}
    (heffect : Effect before after taken) (hfree : ∀ lock ∈ taken, lock ∉ locks)
    (h : Relies before locks work) : Relies after locks work := by
  cases work with
  | approving code accountId =>
    obtain ⟨hlock, row, hrow, hstatus⟩ := h
    exact ⟨hlock, row, heffect.grant code row hrow fun htaken ↦ hfree _ htaken hlock, hstatus⟩
  | polling poll => exact heffect.recalls h
  | exchange poll => exact heffect.recalls h
  | checkingKey poll accountId retiredKey => exact heffect.approvedFor h
  | claiming poll accountId => exact heffect.approvedFor h
  | attaching who publicKey => exact heffect.attachment hfree h
  | naming who publicKey => exact heffect.attachment hfree h
  | inserting who publicKey deviceId => exact heffect.attachment hfree h
  | touching who publicKey device =>
    exact ⟨heffect.attachment hfree h.1, heffect.hasDeviceOf h.2⟩
  | attached who publicKey deviceId created =>
    obtain ⟨hwho, hlock, hread⟩ := h
    exact ⟨heffect.attachment hfree hwho, hlock, fun hcreated ↦
      heffect.hasDeviceOf (hread hcreated)⟩
  | revoking publicKey deviceId => exact heffect.hasDevice h
  | cascading publicKey deviceId => exact ⟨h.1, heffect.hasDevice h.2⟩
  | closing publicKey deviceId sessionIds =>
    obtain ⟨hlock, hdevice, hall⟩ := h
    refine ⟨hlock, heffect.hasDevice hdevice, ?_⟩
    intro sessionId session hsession hbound hnone
    -- Sessions are bound to the device under the lock of its row only.
    obtain ⟨device, hget, hid⟩ := hdevice
    obtain ⟨held, hheld, hheldBound, hheldNone⟩ := mem_openSessions.mp
      (heffect.sessions publicKey device hget (fun htaken ↦ hfree _ htaken hlock) sessionId session
        hsession (hid ▸ hbound) hnone)
    exact hall sessionId held hheld (hid ▸ hheldBound) hheldNone
  | start => trivial
  | approve => trivial
  | poll => trivial
  | register => trivial
  | revoke => trivial

/-! ### What a transaction relies on next -/

theorem verdict_eq_ok {accountId : String} (h : poll.verdict = .ok accountId) :
    poll.row.status = .approved ∧ poll.row.accountId = some accountId := by
  unfold Poll.verdict at h
  split_ifs at h with hover
  split at h
  · cases h
  · next held hstatus haccount =>
    split_ifs at h with hexpected
    rw [← Except.ok.inj h]
    exact ⟨hstatus, haccount⟩
  · cases h

section Next

variable {settings : Settings} {registry : Registry} {work later : Work} {scene : Scene}
  {locks taken : List Lock}

theorem Attachment.Relies.append {who : Attachment} (h : who.Relies registry locks)
    (taken : List Lock) : who.Relies registry (locks ++ taken) := by
  cases who with
  | exchange poll accountId => exact ⟨List.mem_append_left _ h.1, h.2⟩
  | registration => trivial

theorem claimAuthorization_relies {accountId : String}
    (hrelies : registry.ApprovedFor poll accountId)
    (h : claimAuthorization settings registry poll accountId = .next taken later) :
    Relies registry (locks ++ taken) later := by
  unfold claimAuthorization Registry.refuse at h
  split_ifs at h
  split at h
  · cases h
  · next row hrow =>
    split_ifs at h with hclaim
    split at h
    · cases h
    · obtain ⟨rfl, rfl⟩ := Outcome.next.inj h
      obtain ⟨held, hheld, -, haccount⟩ := hrelies
      have hsame : held = row := Option.some.inj (hheld.symm.trans hrow)
      subst hsame
      exact ⟨List.mem_append_right _ (List.mem_singleton_self _), held, hrow, hclaim.1, haccount,
        hclaim.2⟩

theorem attachDevice_relies {who : Attachment} {publicKey : String}
    (hrelies : who.Relies registry locks)
    (h : attachDevice registry who publicKey = .next taken later) :
    Relies registry (locks ++ taken) later := by
  unfold attachDevice Registry.refuse at h
  split at h
  · obtain ⟨rfl, rfl⟩ := Outcome.next.inj h
    exact hrelies.append []
  · next device hdevice =>
    split_ifs at h with haccount hstate
    obtain ⟨rfl, rfl⟩ := Outcome.next.inj h
    exact ⟨hrelies.append [], device, hdevice, rfl, not_ne_iff.mp haccount⟩

theorem statement_relies (hrelies : Relies registry locks work)
    (h : statement settings registry work scene = .next taken later) :
    Relies registry (locks ++ taken) later := by
  unfold statement at h
  split_ifs at h
  cases work with
  | start =>
    simp only [startDeviceAuthorization] at h
    split_ifs at h
    split at h <;> cases h
  | approve userCode accountId =>
    simp only [approveDeviceAuthorization, Registry.refuse] at h
    split at h
    · cases h
    · next code row hfind =>
      split_ifs at h with hpending
      obtain ⟨rfl, rfl⟩ := Outcome.next.inj h
      exact ⟨List.mem_append_right _ (List.mem_singleton_self _), row,
        (Table.find?_eq_some hfind).1, hpending.1⟩
  | approving code accountId =>
    simp only [commitApproval] at h
    split at h <;> cases h
  | poll request =>
    simp only [readAuthorization, Registry.refuse] at h
    split at h
    · cases h
    · next row hrow =>
      split_ifs at h
      obtain ⟨rfl, rfl⟩ := Outcome.next.inj h
      refine ⟨row, hrow, rfl, fun hstatus ↦ ⟨?_, rfl⟩⟩
      rw [hstatus]
      exact AuthorizationStatus.noConfusion
  | polling poll =>
    simp only [commitPoll] at h
    split at h <;> cases h
  | exchange poll =>
    simp only [exchangeDeviceCode, Registry.refuse] at h
    split at h
    · cases h
    · next accountId hverdict =>
      obtain ⟨hstatus, haccount⟩ := verdict_eq_ok hverdict
      obtain ⟨row, hrow, -, happroved⟩ := hrelies
      obtain ⟨hpending, hsame⟩ := happroved hstatus
      have hfor : registry.ApprovedFor poll accountId :=
        ⟨row, hrow, hpending, hsame.trans haccount⟩
      split at h
      · obtain ⟨rfl, rfl⟩ := Outcome.next.inj h
        exact hfor
      · split at h
        · cases h
        · obtain ⟨rfl, rfl⟩ := Outcome.next.inj h
          exact hfor
  | checkingKey poll accountId retiredKey =>
    simp only [checkRetiredKey, Registry.refuse] at h
    split at h
    · cases h
    · split_ifs at h
      obtain ⟨rfl, rfl⟩ := Outcome.next.inj h
      exact hrelies
  | claiming poll accountId => exact claimAuthorization_relies hrelies h
  | register sessionId publicKey displayName =>
    simp only [registerDevice, Registry.refuse] at h
    split at h
    · cases h
    · split at h
      · cases h
      · obtain ⟨rfl, rfl⟩ := Outcome.next.inj h
        trivial
  | attaching who publicKey => exact attachDevice_relies hrelies h
  | naming who publicKey =>
    simp only [nameDevice] at h
    have hwho : who.Relies registry locks := hrelies
    split at h
    · split_ifs at h
      · obtain ⟨rfl, rfl⟩ := Outcome.next.inj h
        exact hwho.append []
      · obtain ⟨rfl, rfl⟩ := Outcome.next.inj h
        exact hwho.append []
    · obtain ⟨rfl, rfl⟩ := Outcome.next.inj h
      trivial
  | inserting who publicKey deviceId =>
    simp only [insertDevice] at h
    split at h
    · obtain ⟨rfl, rfl⟩ := Outcome.next.inj h
      exact hrelies.append []
    · split_ifs at h
      obtain ⟨rfl, rfl⟩ := Outcome.next.inj h
      exact ⟨hrelies.append _, List.mem_append_right _ (List.mem_singleton_self _),
        fun hcreated ↦ nomatch hcreated⟩
  | touching who publicKey device =>
    obtain ⟨rfl, rfl⟩ := Outcome.next.inj h
    exact ⟨hrelies.1.append _, List.mem_append_right _ (List.mem_singleton_self _),
      fun _ ↦ hrelies.2⟩
  | attached who publicKey deviceId created =>
    simp only [commitAttachment, commitExchange] at h
    split at h
    · cases h
    · split at h
      · split at h <;> cases h
      · cases h
  | revoke accountId deviceId =>
    simp only [revokeDevice, Registry.refuse] at h
    split at h
    · cases h
    · next publicKey device hfound =>
      split_ifs at h
      obtain ⟨rfl, rfl⟩ := Outcome.next.inj h
      exact ⟨device, deviceOf_eq_some hfound⟩
  | revoking publicKey deviceId =>
    obtain ⟨rfl, rfl⟩ := Outcome.next.inj h
    exact ⟨List.mem_append_right _ (List.mem_singleton_self _), hrelies⟩
  | cascading publicKey deviceId =>
    obtain ⟨rfl, rfl⟩ := Outcome.next.inj h
    refine ⟨List.mem_append_left _ hrelies.1, hrelies.2, ?_⟩
    intro sessionId session hsession hbound hnone
    exact mem_openSessions.mpr ⟨session, hsession, hbound, hnone⟩
  | closing publicKey deviceId sessionIds =>
    simp only [commitRevoke] at h
    split at h <;> cases h

end Next

/-! ### What holds of the rows -/

section Soundness

variable {registry after : Registry} {work : Work} {locks taken : List Lock}

/-- What is said of the grants is kept where the answers only grow. -/
theorem approved_of_grants (hsound : registry.Sound) {grants : Table String DeviceAuthorization}
    {answers : List Answer} (hanswers : registry.answers ⊆ answers)
    (hold : ∀ code row, grants.get? code = some row →
      row.status = .approved ∨ row.status = .consumed →
        (∃ accountId, row.accountId = some accountId ∧ .approved code accountId ∈ answers) ∨
        ∃ before, registry.grants.get? code = some before ∧ row.accountId = before.accountId ∧
          (before.status = .approved ∨ before.status = .consumed)) :
    ∀ code row, grants.get? code = some row → row.status = .approved ∨ row.status = .consumed →
      ∃ accountId, row.accountId = some accountId ∧ .approved code accountId ∈ answers := by
  intro code row hrow hstatus
  rcases hold code row hrow hstatus with hnew | ⟨before, hbefore, hsame, hheld⟩
  · exact hnew
  · obtain ⟨accountId, haccount, hanswer⟩ := hsound.approved code before hbefore hheld
    exact ⟨accountId, hsame.trans haccount, hanswers hanswer⟩

theorem exchanged_of_effect (hsound : registry.Sound) (heffect : Effect registry after locks) :
    ∀ exchange ∈ registry.exchanges,
      ∃ row, after.grants.get? exchange.deviceCode = some row ∧ row.status = .consumed ∧
        row.accountId = some exchange.accountId ∧ exchange.polledAt < row.expiresAt := by
  intro exchange hexchange
  obtain ⟨row, hrow, hconsumed, haccount, hbefore⟩ := hsound.exchanged exchange hexchange
  obtain ⟨later, hlater, hkept⟩ := heffect.grants _ row hrow
  refine ⟨later, hlater, hkept.consumed hconsumed, ?_, hkept.expiresAt ▸ hbefore⟩
  rw [(hkept.account (by rw [hconsumed]; exact AuthorizationStatus.noConfusion)).1]
  exact haccount

theorem exchanges_of_answer (registry : Registry) {answer : Answer} (hanswers : after.answers =
    registry.answers ++ [answer]) :
    after.exchanges = registry.exchanges ++ [answer].filterMap Answer.exchange? := by
  unfold Registry.exchanges
  rw [hanswers, List.filterMap_append]

theorem exchanges_of_none (registry : Registry) {answer : Answer} (hanswers : after.answers =
    registry.answers ++ [answer]) (hnone : answer.exchange? = none) :
    after.exchanges = registry.exchanges := by
  rw [exchanges_of_answer registry hanswers, List.filterMap_cons_none hnone, List.filterMap_nil,
    List.append_nil]

/-- The grants of a row that is written again. -/
theorem get?_update_cases {Row : Type} {table : Table String Row} {key other : String}
    {held row later : Row} (hheld : table.get? key = some held)
    (h : (table.update key row).get? other = some later) :
    (other = key ∧ later = row) ∨ table.get? other = some later := by
  rw [Table.get?_update, hheld] at h
  split_ifs at h with hother
  · exact .inl ⟨hother, (Option.some.inj h).symm⟩
  · exact .inr h

theorem Commit.sound (hcommit : Commit registry work taken after) (hsound : registry.Sound)
    (hrelies : Relies registry locks work) : after.Sound := by
  have heffect := hcommit.effect hsound hrelies
  have hexchanged := exchanged_of_effect hsound heffect
  have hpolls : ∀ poll ∈ registry.polls, after.Recalls poll := fun poll hpoll ↦
    heffect.recalls (hsound.polls poll hpoll)
  cases hcommit with
  | answered _ answer hquiet =>
    have hnone : answer.exchange? = none := by
      cases answer with
      | exchanged => exact hquiet.elim
      | _ => rfl
    have hsame : (registry.answer answer).exchanges = registry.exchanges :=
      exchanges_of_none registry rfl hnone
    refine ⟨hsound.ids, ?_, ?_, ?_, hpolls⟩
    · exact approved_of_grants hsound (List.subset_append_left _ _)
        fun code row hrow hstatus ↦ .inr ⟨row, hrow, rfl, hstatus⟩
    · rw [hsame]
      exact hexchanged
    · rw [hsame]
      exact hsound.single
  | started code userCode expiresAt grants hinsert =>
    refine ⟨hsound.ids, ?_, ?_, ?_, hpolls⟩
    · refine approved_of_grants hsound (List.subset_append_left _ _)
        fun other row hrow hstatus ↦ .inr ?_
      change grants.get? other = some row at hrow
      rw [(Table.insert?_eq_some hinsert).2] at hrow
      split_ifs at hrow
      · rw [← Option.some.inj hrow] at hstatus
        rcases hstatus with h | h <;> cases h
      · exact ⟨row, hrow, rfl, hstatus⟩
    · rw [exchanges_of_none registry rfl rfl]
      exact hexchanged
    · rw [exchanges_of_none registry rfl rfl]
      exact hsound.single
  | approved code accountId held hheld =>
    refine ⟨hsound.ids, ?_, ?_, ?_, hpolls⟩
    · refine approved_of_grants hsound (List.subset_append_left _ _) fun other row hrow hstatus ↦ ?_
      rcases get?_update_cases hheld hrow with ⟨rfl, rfl⟩ | hold
      · exact .inl ⟨accountId, rfl, List.mem_append_right _ (List.mem_singleton_self _)⟩
      · exact .inr ⟨row, hold, rfl, hstatus⟩
    · rw [exchanges_of_none registry rfl rfl]
      exact hexchanged
    · rw [exchanges_of_none registry rfl rfl]
      exact hsound.single
  | polled poll held hheld =>
    refine ⟨hsound.ids, ?_, hexchanged, hsound.single, ?_⟩
    · refine approved_of_grants hsound (List.Subset.refl _) fun other row hrow hstatus ↦ .inr ?_
      rcases get?_update_cases hheld hrow with ⟨rfl, rfl⟩ | hold
      · exact ⟨held, hheld, rfl, hstatus⟩
      · exact ⟨row, hold, rfl, hstatus⟩
    · intro other hother
      rcases List.mem_append.mp hother with hother | hother
      · exact hpolls other hother
      · rw [List.mem_singleton.mp hother]
        exact heffect.recalls hrelies
  | exchanged poll accountId publicKey deviceId accessId refreshId created scene held devices
      sessions hdevices hheld hissued =>
    obtain ⟨⟨-, row, hrow, hstatus, haccount, hclock⟩, hdevice, hread⟩ := hrelies
    have hrows : row = held := Option.some.inj (hrow.symm.trans hheld)
    subst hrows
    obtain ⟨written, hattached⟩ := writeDevice_attached hread hdevices
    have hsame : (({ registry with
        grants := registry.grants.update poll.request.deviceCode { row with status := .consumed }
        devices := devices
        sessions := sessions } : Registry).answer (.exchanged ⟨poll.request.deviceCode, accountId,
          deviceId, poll.now, accessId, refreshId⟩)).exchanges = registry.exchanges ++
            [⟨poll.request.deviceCode, accountId, deviceId, poll.now, accessId, refreshId⟩] := by
      rw [exchanges_of_answer registry rfl]
      rfl
    refine ⟨hattached.ids hsound, ?_, ?_, ?_, hpolls⟩
    · refine approved_of_grants hsound (List.subset_append_left _ _)
        fun other later hlater hstate ↦ .inr ?_
      rcases get?_update_cases hheld hlater with ⟨rfl, rfl⟩ | hold
      · exact ⟨row, hrow, rfl, .inl hstatus⟩
      · exact ⟨later, hold, rfl, hstate⟩
    · rw [hsame]
      intro exchange hexchange
      rcases List.mem_append.mp hexchange with hold | hnew
      · exact hexchanged exchange hold
      · rw [List.mem_singleton.mp hnew]
        exact ⟨_, Table.get?_update_self hheld, rfl, haccount, hclock⟩
    · rw [hsame, List.map_append, List.nodup_append]
      refine ⟨hsound.single, List.nodup_singleton _, ?_⟩
      -- A code that was exchanged is consumed, and this one is approved.
      intro code hcode other hother hsame'
      obtain ⟨exchange, hexchange, rfl⟩ := List.mem_map.mp hcode
      obtain ⟨consumed, hconsumed, hstate, -⟩ := hsound.exchanged exchange hexchange
      rw [hsame', List.mem_singleton.mp hother] at hconsumed
      change registry.grants.get? poll.request.deviceCode = some consumed at hconsumed
      rw [hrow] at hconsumed
      rw [← Option.some.inj hconsumed, hstatus] at hstate
      cases hstate
  | registered sessionId publicKey deviceId loaded displayName created scene devices hdevices =>
    obtain ⟨-, hdevice, hread⟩ := hrelies
    obtain ⟨written, hattached⟩ := writeDevice_attached hread hdevices
    refine ⟨hattached.ids hsound, ?_, ?_, ?_, hpolls⟩
    · exact approved_of_grants hsound (List.subset_append_left _ _)
        fun code row hrow hstatus ↦ .inr ⟨row, hrow, rfl, hstatus⟩
    · rw [exchanges_of_none registry rfl rfl]
      exact hexchanged
    · rw [exchanges_of_none registry rfl rfl]
      exact hsound.single
  | revoked publicKey deviceId sessionIds now held hheld =>
    have hids : ∀ key device,
        (registry.devices.update publicKey { held with state := .revoked }).get? key = some device →
        ∃ before, registry.devices.get? key = some before ∧ before.id = device.id := by
      intro key device hget
      rcases get?_update_cases hheld hget with ⟨rfl, rfl⟩ | hold
      · exact ⟨held, hheld, rfl⟩
      · exact ⟨device, hold, rfl⟩
    refine ⟨?_, ?_, ?_, ?_, hpolls⟩
    · intro first second one two hone htwo hsame
      obtain ⟨before, hbefore, hid⟩ := hids first one hone
      obtain ⟨other, hother, hid'⟩ := hids second two htwo
      exact hsound.ids first second before other hbefore hother (by rw [hid, hid', hsame])
    · exact approved_of_grants hsound (List.subset_append_left _ _)
        fun code row hrow hstatus ↦ .inr ⟨row, hrow, rfl, hstatus⟩
    · rw [exchanges_of_none registry rfl rfl]
      exact hexchanged
    · rw [exchanges_of_none registry rfl rfl]
      exact hsound.single

end Soundness

/-! ### Revoked devices -/

/-- What is asked of a statement: a device that was read as active is active when its sessions are
written. -/
def Fits (registry : Registry) : Work → Prop
  | .attached (.exchange _ _) publicKey _ _ =>
      ∀ device ∈ registry.devices.get? publicKey, device.state = .active
  | .attached (.registration _ loaded _) publicKey _ _ => loaded.deviceId = none →
      ∀ device ∈ registry.devices.get? publicKey, device.state = .active
  | _ => True

instance (registry : Registry) (work : Work) : Decidable (Fits registry work) := by
  unfold Fits
  split <;> infer_instance

section Closing

variable {registry after : Registry} {work : Work} {locks taken : List Lock}

theorem Attached.active {devices : Table String Device} {publicKey deviceId accountId : String}
    {row : Device} (h : Attached registry devices publicKey deviceId accountId row)
    (hactive : ∀ device ∈ registry.devices.get? publicKey, device.state = .active) :
    row.state = .active := by
  cases hheld : registry.devices.get? publicKey with
  | none => exact (h.fresh hheld).1
  | some device => exact (h.existing device hheld).1.trans (hactive device hheld)

theorem Commit.closed (hcommit : Commit registry work taken after) (hsound : registry.Sound)
    (hclosed : registry.Closed) (hrelies : Relies registry locks work)
    (hfits : Fits registry work) : after.Closed := by
  cases hcommit with
  | answered => exact hclosed
  | started => exact hclosed
  | approved => exact hclosed
  | polled => exact hclosed
  | exchanged poll accountId publicKey deviceId accessId refreshId created scene held devices
      sessions hdevices hheld hissued =>
    obtain ⟨-, -, hread⟩ := hrelies
    obtain ⟨written, hattached⟩ := writeDevice_attached hread hdevices
    intro key device hget hrevoked sessionId session hsession hbound
    change devices.get? key = some device at hget
    change sessions.get? sessionId = some session at hsession
    have hkey : key ≠ publicKey := by
      rintro rfl
      rw [hattached.get] at hget
      rw [← Option.some.inj hget, hattached.active hfits] at hrevoked
      cases hrevoked
    rw [hattached.elsewhere key hkey] at hget
    by_cases hnew : sessionId = accessId ∨ sessionId = refreshId
    · obtain ⟨issued, hissuedGet, -, hid⟩ := hissued.pair sessionId hnew
      rw [hsession] at hissuedGet
      rw [← Option.some.inj hissuedGet, hbound] at hid
      exact absurd (Option.some.inj hid) (hattached.id_ne hsound hget hkey)
    · push Not at hnew
      rw [hissued.elsewhere sessionId hnew.1 hnew.2] at hsession
      exact hclosed key device hget hrevoked sessionId session hsession hbound
  | registered sessionId publicKey deviceId loaded displayName created scene devices hdevices =>
    obtain ⟨-, -, hread⟩ := hrelies
    obtain ⟨written, hattached⟩ := writeDevice_attached hread hdevices
    intro key device hget hrevoked other session hsession hbound
    change devices.get? key = some device at hget
    rcases bindSession_cases hsession with hold | ⟨hloaded, -, held, -, hnew⟩
    · by_cases hkey : key = publicKey
      · subst hkey
        rw [hattached.get] at hget
        have hwritten : written = device := Option.some.inj hget
        subst hwritten
        cases hbefore : registry.devices.get? key with
        | none =>
          rw [(hattached.fresh hbefore).1] at hrevoked
          cases hrevoked
        | some before =>
          obtain ⟨hstate, hid, -⟩ := hattached.existing before hbefore
          exact hclosed key before hbefore (hstate.symm.trans hrevoked) other session hold
            (by rw [hbound, hid])
      · rw [hattached.elsewhere key hkey] at hget
        exact hclosed key device hget hrevoked other session hold hbound
    · by_cases hkey : key = publicKey
      · subst hkey
        rw [hattached.get] at hget
        rw [← Option.some.inj hget, hattached.active (hfits hloaded)] at hrevoked
        cases hrevoked
      · rw [hattached.elsewhere key hkey] at hget
        rw [hnew] at hbound
        exact absurd (Option.some.inj hbound).symm (hattached.id_ne hsound hget hkey)
  | revoked publicKey deviceId sessionIds now held hheld =>
    obtain ⟨-, ⟨known, hknown, hid⟩, hall⟩ := hrelies
    have hsame : known = held := Option.some.inj (hknown.symm.trans hheld)
    subst hsame
    intro key device hget hrevoked sessionId session hsession hbound hnone
    obtain ⟨before, hbefore, -, hkept⟩ := revoked_cases hsession
    obtain ⟨rfl, hunlisted⟩ := hkept hnone
    rcases get?_update_cases hheld hget with ⟨rfl, rfl⟩ | hold
    · exact hunlisted (hall sessionId session hbefore (hbound.trans (congrArg some hid)) hnone)
    · exact hclosed key device hold hrevoked sessionId session hbefore hbound hnone

/-! ### Sessions that are issued -/

/-- New sessions are those of an exchange: of a code that an account had approved and nobody had
exchanged, by a poll before its expiry, for an active device of the account. -/
structure Exchanged (before after : Registry) (exchange : Exchange) : Prop where
  answers : after.answers = before.answers ++ [.exchanged exchange]
  sessions : Issued before.sessions after.sessions exchange
  approval : .approved exchange.deviceCode exchange.accountId ∈ before.answers
  grant : ∃ row, before.grants.get? exchange.deviceCode = some row ∧ row.status = .approved ∧
    row.accountId = some exchange.accountId ∧ exchange.polledAt < row.expiresAt
  device : ∃ key device, after.devices.get? key = some device ∧
    device.id = exchange.deviceId ∧ device.accountId = exchange.accountId ∧ device.state = .active

/-- No session more than before, or those of an exchange. -/
def NewSessions (before after : Registry) : Prop :=
  (after.exchanges = before.exchanges ∧ ∀ sessionId, before.sessions.get? sessionId = none →
      after.sessions.get? sessionId = none) ∨
    ∃ exchange, Exchanged before after exchange

theorem get?_bindSession_eq_none {deviceId other : String} {loaded : AccountSession}
    (h : sessions.get? other = none) :
    (bindSession sessions sessionId deviceId loaded).get? other = none := by
  cases hget : (bindSession sessions sessionId deviceId loaded).get? other with
  | none => rfl
  | some session =>
    rcases bindSession_cases hget with hold | ⟨-, rfl, held, hheld, -⟩
    · rw [h] at hold
      cases hold
    · rw [h] at hheld
      cases hheld

theorem Commit.newSessions (hcommit : Commit registry work taken after) (hsound : registry.Sound)
    (hrelies : Relies registry locks work) (hfits : Fits registry work) :
    NewSessions registry after := by
  cases hcommit with
  | answered _ answer hquiet =>
    have hnone : answer.exchange? = none := by
      cases answer with
      | exchanged => exact hquiet.elim
      | _ => rfl
    exact .inl ⟨exchanges_of_none registry rfl hnone, fun _ h ↦ h⟩
  | started => exact .inl ⟨exchanges_of_none registry rfl rfl, fun _ h ↦ h⟩
  | approved => exact .inl ⟨exchanges_of_none registry rfl rfl, fun _ h ↦ h⟩
  | polled => exact .inl ⟨rfl, fun _ h ↦ h⟩
  | exchanged poll accountId publicKey deviceId accessId refreshId created scene held devices
      sessions hdevices hheld hissued =>
    obtain ⟨⟨-, row, hrow, hstatus, haccount, hclock⟩, -, hread⟩ := hrelies
    obtain ⟨written, hattached⟩ := writeDevice_attached hread hdevices
    obtain ⟨approver, happrover, hanswer⟩ := hsound.approved _ row hrow (.inl hstatus)
    rw [haccount] at happrover
    rw [← Option.some.inj happrover] at hanswer
    exact .inr ⟨_, rfl, hissued, hanswer, ⟨row, hrow, hstatus, haccount, hclock⟩,
      ⟨publicKey, written, hattached.get, hattached.id, hattached.account,
        hattached.active hfits⟩⟩
  | registered sessionId publicKey deviceId loaded displayName created scene devices hdevices =>
    exact .inl ⟨exchanges_of_none registry rfl rfl, fun _ h ↦ get?_bindSession_eq_none h⟩
  | revoked publicKey deviceId sessionIds now held hheld =>
    refine .inl ⟨exchanges_of_none registry rfl rfl, fun sessionId h ↦ ?_⟩
    show (registry.sessions.mapRows _).get? sessionId = none
    rw [Table.get?_mapRows, h]
    rfl

end Closing

theorem service_keeps (settings : Settings) :
    Keeps (service settings) Registry.Sound Relies where
  start := by
    intro registry work hsound hstarts
    cases work with
    | start => trivial
    | approve => trivial
    | poll => trivial
    | register => trivial
    | revoke => trivial
    | exchange poll => exact hsound.polls poll (of_decide_eq_true hstarts)
    | _ => cases hstarts
  next := fun registry locks work scene taken later _ hrelies hnext ↦
    statement_relies hrelies hnext
  commit := by
    intro registry locks work scene taken after hsound hrelies hstatement
    exact (statement_commit hstatement).sound hsound hrelies
  others := by
    intro registry locks work scene taken after hsound hrelies hstatement otherLocks other hfree
    exact ((statement_commit hstatement).effect hsound hrelies).relies hfree

/-! ### Runs -/

section Runs

variable {settings : Settings}

/-- Codes keep their accounts and devices theirs, what is consumed or revoked stays so, and no
exchange is for a device that was revoked. -/
structure Onward (before after : Registry) : Prop where
  grants : before.grants.Keeps GrantKept after.grants
  devices : before.devices.Keeps DeviceKept after.devices
  exchanges : ∀ key device, before.devices.get? key = some device → device.state = .revoked →
    ∀ exchange ∈ after.exchanges, exchange ∈ before.exchanges ∨ exchange.deviceId ≠ device.id

theorem Onward.refl (registry : Registry) : Onward registry registry :=
  ⟨.refl .refl _, .refl .refl _, fun _ _ _ _ _ hexchange ↦ .inl hexchange⟩

theorem Onward.trans {first second third : Registry} (h : Onward first second)
    (h' : Onward second third) : Onward first third where
  grants := h.grants.trans (fun _ _ _ ↦ .trans) h'.grants
  devices := h.devices.trans (fun _ _ _ ↦ .trans) h'.devices
  exchanges := by
    intro key device hdevice hrevoked exchange hexchange
    obtain ⟨later, hlater, hkept⟩ := h.devices key device hdevice
    rcases h'.exchanges key later hlater (hkept.revoked hrevoked) exchange hexchange with
      hmiddle | hother
    · exact h.exchanges key device hdevice hrevoked exchange hmiddle
    · exact .inr (hkept.id ▸ hother)

/-- The statement that a transaction takes fits. -/
def Meets (machine : Machine Registry Lock Work) : Action Work Scene → Prop
  | .begin .. => True
  | .advance id _ => ∀ current ∈ machine.running.get? id, Fits machine.db current.state

instance (machine : Machine Registry Lock Work) (action : Action Work Scene) :
    Decidable (Meets machine action) := by
  unfold Meets
  split <;> infer_instance

structure Safe (machine : Machine Registry Lock Work) : Prop where
  sound : Transactions.Sound Registry.Sound Relies machine
  closed : machine.db.Closed

variable {machine : Machine Registry Lock Work} {action : Action Work Scene}

/-- A step commits nothing, or what one transaction commits. -/
theorem step_commit (settings : Settings) (hsafe : Safe machine) (hmeets : Meets machine action) :
    (step (service settings) machine action).db = machine.db ∨
      ∃ work locks taken, Commit machine.db work taken (step (service settings) machine action).db ∧
        Relies machine.db locks work ∧ Fits machine.db work := by
  rcases step_db (service settings) machine action with hsame | ⟨id, scene, current, taken, rfl,
    hcurrent, -, hstatement⟩
  · exact .inl hsame
  · exact .inr ⟨current.state, current.locks, taken, statement_commit hstatement,
      hsafe.sound.relies id current hcurrent, hmeets current hcurrent⟩

theorem step_safe (settings : Settings) (machine : Machine Registry Lock Work)
    (action : Action Work Scene) (hsafe : Safe machine) (hmeets : Meets machine action) :
    Safe (step (service settings) machine action) := by
  refine ⟨step_sound (service_keeps settings) machine action hsafe.sound, ?_⟩
  rcases step_commit settings hsafe hmeets with hsame | ⟨work, locks, taken, hcommit, hrelies,
    hfits⟩
  · rw [hsame]
    exact hsafe.closed
  · exact hcommit.closed hsafe.sound.invariant hsafe.closed hrelies hfits

theorem step_newSessions (settings : Settings) (hsafe : Safe machine)
    (hmeets : Meets machine action) :
    NewSessions machine.db (step (service settings) machine action).db := by
  rcases step_commit settings hsafe hmeets with hsame | ⟨work, locks, taken, hcommit, hrelies,
    hfits⟩
  · rw [hsame]
    exact .inl ⟨rfl, fun _ h ↦ h⟩
  · exact hcommit.newSessions hsafe.sound.invariant hrelies hfits

theorem step_onward (settings : Settings) (hsafe : Safe machine) (hmeets : Meets machine action) :
    Onward machine.db (step (service settings) machine action).db := by
  have hafter := (step_safe settings machine action hsafe hmeets).sound.invariant
  have hnew := step_newSessions settings hsafe hmeets
  rcases step_commit settings hsafe hmeets with hsame | ⟨work, locks, taken, hcommit, hrelies,
    hfits⟩
  · rw [hsame]
    exact .refl machine.db
  · have heffect := hcommit.effect hsafe.sound.invariant hrelies
    refine ⟨heffect.grants, heffect.devices, ?_⟩
    intro key device hdevice hrevoked exchange hexchange
    rcases hnew with ⟨hsame, -⟩ | ⟨issued, hissued⟩
    · rw [hsame] at hexchange
      exact .inl hexchange
    · rw [exchanges_of_answer machine.db hissued.answers] at hexchange
      rcases List.mem_append.mp hexchange with hold | hlast
      · exact .inl hold
      · -- The device of the exchange is active, and the revoked one stays revoked.
        right
        intro hid
        have hthis : exchange = issued := by simpa [Answer.exchange?] using hlast
        subst hthis
        obtain ⟨other, active, hactive, hactiveId, -, hstate⟩ := hissued.device
        obtain ⟨later, hlater, hkept⟩ := heffect.devices key device hdevice
        have hkeys : other = key := hafter.ids other key active later hactive hlater
          (by rw [hactiveId, hid, hkept.id])
        rw [hkeys, hlater] at hactive
        rw [← Option.some.inj hactive, hkept.revoked hrevoked] at hstate
        cases hstate

/-- The machine after some actions on a registry that no request has opened. -/
def serve (settings : Settings) (registry : Registry) (actions : List (Action Work Scene)) :
    Machine Registry Lock Work :=
  Runs.run (step (service settings)) ⟨registry, .empty⟩ actions

/-- At every moment of a run a code is bound to one account and was exchanged once at most, by its
account; new sessions are those of an exchange, after the approval and before the expiry; codes and
devices keep their accounts; and a revoked device has no session that is live or not revoked, and
gets none. -/
structure SignInSafe (settings : Settings) (registry : Registry)
    (actions : List (Action Work Scene)) : Prop where
  onward : ∀ before after, before ++ after = actions →
    Onward (serve settings registry before).db (serve settings registry actions).db
  sound : ∀ before, before <+: actions → (serve settings registry before).db.Sound
  issued : ∀ before action, before ++ [action] <+: actions →
    NewSessions (serve settings registry before).db
      (serve settings registry (before ++ [action])).db
  closed : ∀ before, before <+: actions → (serve settings registry before).db.Closed
  dead : ∀ before, before <+: actions → ∀ key device,
    (serve settings registry before).db.devices.get? key = some device →
      device.state = .revoked → ∀ session : AccountSession, session.deviceId = some device.id →
        (serve settings registry before).db.live session = false

theorem serve_safe {registry : Registry} (hsound : registry.Sound) (hclosed : registry.Closed)
    (actions : List (Action Work Scene))
    (hmeet : Runs.StepsMeet (step (service settings)) Meets ⟨registry, .empty⟩ actions) :
    Safe (serve settings registry actions) :=
  Runs.run_invariant_of_stepsMeet (step_safe settings) _ ⟨sound_idle hsound, hclosed⟩ actions hmeet

theorem sign_in_safe (settings : Settings) (registry : Registry) (hsound : registry.Sound)
    (hclosed : registry.Closed) (actions : List (Action Work Scene))
    (hmeet : Runs.StepsMeet (step (service settings)) Meets ⟨registry, .empty⟩ actions) :
    SignInSafe settings registry actions := by
  have hsafe : ∀ before, before <+: actions → Safe (serve settings registry before) := by
    rintro before ⟨after, rfl⟩
    exact serve_safe hsound hclosed before (Runs.stepsMeet_append.mp hmeet).1
  constructor
  · rintro before after rfl
    unfold serve
    rw [Runs.run_append]
    refine Runs.run_related_of_stepsMeet (fun first last ↦ Onward first.db last.db)
      (fun machine ↦ .refl machine.db) .trans (step_safe settings) ?_ _
      (hsafe before (List.prefix_append before after)) after (Runs.stepsMeet_append.mp hmeet).2
    intro machine action hsafe hmeets
    exact step_onward settings hsafe hmeets
  · intro before hbefore
    exact (hsafe before hbefore).sound.invariant
  · rintro before action ⟨after, rfl⟩
    have hbefore := hsafe before
      ((List.prefix_append before [action]).trans (List.prefix_append _ after))
    rw [List.append_assoc] at hmeet
    have hstep := step_newSessions settings hbefore (Runs.stepsMeet_append.mp hmeet).2.1
    unfold serve at hstep ⊢
    rw [Runs.run_append]
    exact hstep
  · intro before hbefore
    exact (hsafe before hbefore).closed
  · intro before hbefore key device hdevice hrevoked session hsession
    exact not_live_of_revoked (hsafe before hbefore).sound.invariant hdevice hrevoked hsession

theorem opened_sound : Registry.opened.Sound where
  ids := by
    intro first second one two hone
    cases hone
  approved := by
    intro code row hrow
    cases hrow
  exchanged := by
    intro exchange hexchange
    cases hexchange
  single := List.nodup_nil
  polls := by
    intro poll hpoll
    cases hpoll

theorem opened_closed : Registry.opened.Closed := by
  intro key device hdevice
  cases hdevice

/-! ### A run that does not fit -/

/-- Settings that leave texts as they are. -/
def plain : Settings where
  upper := id
  normalizePublicKey := some
  sessionTtlSeconds := 86400

def tokenRequest (deviceCode : String) : DeviceTokenRequest where
  deviceCode := deviceCode
  deviceId := "device_1"
  publicKey := "key"
  displayName := "laptop"

/-- A code that is started and approved, and a poll of it up to its second transaction. -/
def polled (id : Nat) (deviceCode userCode : String) : List (Action Work Scene) :=
  [.begin id .start, .advance id { deviceCode := deviceCode, userCode := userCode },
    .begin id (.approve userCode "account-a"), .advance id {}, .advance id {},
    .begin id (.poll (tokenRequest deviceCode)), .advance id { now := 10 }, .advance id {},
    .begin id (.exchange ⟨tokenRequest deviceCode, ⟨userCode, .approved, some "account-a", 5, 600,
      none⟩, 10⟩)]

def exchanging (id count : Nat) (accessId refreshId : String) : List (Action Work Scene) :=
  List.replicate count (.advance id { accessId := accessId, refreshId := refreshId })

/-- A first sign-in of a device. -/
def firstSignIn : List (Action Work Scene) :=
  polled 0 "code-1" "AAAA-1111" ++ exchanging 0 6 "access-1" "refresh-1"

/-- A second sign-in reads the device as active, and its owner revokes it. -/
def revokedMeanwhile : List (Action Work Scene) :=
  firstSignIn ++ polled 1 "code-2" "BBBB-2222" ++ exchanging 1 3 "access-2" "refresh-2" ++
  [.begin 2 (.revoke "account-a" "device_1")] ++ exchanging 2 4 "" ""

/-- The sign-in goes on and is answered with two sessions of the revoked device. -/
theorem sign_in_unsafe : ¬ SignInSafe plain .opened
    (revokedMeanwhile ++ exchanging 1 2 "access-2" "refresh-2") := by
  intro h
  have honward := h.onward revokedMeanwhile (exchanging 1 2 "access-2" "refresh-2") rfl
  let exchange : Exchange := ⟨"code-2", "account-a", "device_1", 10, "access-2", "refresh-2"⟩
  have hfacts : (serve plain .opened revokedMeanwhile).db.devices.get? "key" = some
        { id := "device_1", accountId := "account-a", state := .revoked,
          displayName := some "laptop", lastSeenAt := 10 } ∧
      exchange ∈ (serve plain .opened
        (revokedMeanwhile ++ exchanging 1 2 "access-2" "refresh-2")).db.exchanges ∧
      exchange ∉ (serve plain .opened revokedMeanwhile).db.exchanges := by
    decide +kernel
  obtain ⟨hdevice, hexchange, hnew⟩ := hfacts
  rcases honward.exchanges "key" _ hdevice rfl _ hexchange with hbefore | hother
  · exact hnew hbefore
  · exact hother rfl

/-- A sign-in, a revoke, and a later sign-in. -/
def revokedBefore : List (Action Work Scene) :=
  firstSignIn ++ [.begin 2 (.revoke "account-a" "device_1")] ++ exchanging 2 4 "" "" ++
  polled 1 "code-2" "BBBB-2222" ++ exchanging 1 3 "access-2" "refresh-2"

theorem sign_in_safe_revoked : SignInSafe plain .opened revokedBefore ∧
    (serve plain .opened revokedBefore).db.answers = [
      .started "code-1", .approved "code-1" "account-a",
      .exchanged ⟨"code-1", "account-a", "device_1", 10, "access-1", "refresh-1"⟩,
      .deviceRevoked "device_1",
      .started "code-2", .approved "code-2" "account-a", .refused .deviceRevoked] := by
  have hfacts : Runs.StepsMeet (step (service plain)) Meets ⟨.opened, .empty⟩ revokedBefore ∧
      (serve plain .opened revokedBefore).db.answers = [
        .started "code-1", .approved "code-1" "account-a",
        .exchanged ⟨"code-1", "account-a", "device_1", 10, "access-1", "refresh-1"⟩,
        .deviceRevoked "device_1",
        .started "code-2", .approved "code-2" "account-a", .refused .deviceRevoked] := by
    decide +kernel
  exact ⟨sign_in_safe plain .opened opened_sound opened_closed revokedBefore hfacts.1, hfacts.2⟩

end Runs

end AiStp.Auth.DeviceFlow
