import AiStp.Corporate.Mutations

/-!
# Members and assignments

A member has one binding of its own at organization scope, which follows the role of the membership;
an assignment to a team or a project owns a binding at that scope.
-/

set_option autoImplicit false

namespace AiStp.Corporate

open Foundation Library

/-! ### Checks -/

def ensureActiveTeams (view : View) (teamIds : List String) : Except ApiError Unit :=
  require (teamIds.all fun teamId ↦ view.surroundings.teams.any fun team ↦
      team.organizationId = view.tenant.organization.id ∧ team.id = teamId ∧ team.state = .active)
    .validation "team relationship is unavailable"

def ensureActiveProjects (view : View) (projectIds : List String) : Except ApiError Unit :=
  require (projectIds.all fun projectId ↦ view.surroundings.projects.any fun project ↦
      project.organizationId = view.tenant.organization.id ∧ project.id = projectId ∧
        project.state = .active ∧ projectId ∈ view.surroundings.activeLifecycles)
    .validation "project relationship is unavailable"

def ensureRoleExists (view : View) (role : String) : Except ApiError Unit :=
  require (view.tenant.roleExists role) .validation "corporate role is unavailable"

def ensureCurrentJobTitle (view : View) (jobTitleId : Option String) : Except ApiError Unit :=
  require (jobTitleId.all (· ∈ view.surroundings.currentJobTitles)) .validation
    "job title is unavailable"

/-- A binding of an assignment of an account. -/
def assignmentBinding (accountId role : String) (scopeKind : ScopeKind) (scopeId : String) :
    BindingRow where
  principal := .user accountId
  role := role
  scopeKind := scopeKind
  scopeId := scopeId
  state := .active
  origin := .assignment
  coverage := .self
  revision := 1

/-- The binding of a membership. -/
def membershipBinding (tenant : Tenant) (accountId role : String) : BindingRow where
  principal := .user accountId
  role := role
  scopeKind := .organization
  scopeId := tenant.organization.id
  state := .active
  origin := .membership
  coverage := tenant.roleCoverage role
  revision := 1

/-- Adds rows under fresh ids. -/
def insertBindings (bindings : Table String BindingRow) (ids : Nat → String) (start : Nat) :
    List BindingRow → Except ApiError (Table String BindingRow)
  | [] => .ok bindings
  | row :: rows => do
    let after ← found (bindings.insert? (ids start) row) .internal "internal error"
    insertBindings after ids (start + 1) rows

/-- Adds participations; each account takes part in a team or a project once. -/
def insertParticipations (table : Table (String × String) String) (accountId : String) :
    List String → Except ApiError (Table (String × String) String)
  | [] => .ok table
  | id :: rest => do
    let after ← found (table.insert? (id, accountId) "staff") .internal "internal error"
    insertParticipations after accountId rest

def memberView (accountId : String) (row : MemberRow) (accountName : Option String) : Response :=
  .member accountId (row.displayName.or accountName) row.role row.state row.revision
    row.jobTitleId

/-! ### Creation -/

structure CorporateMemberCatalogAssignment where
  stableId : String
  version : String
deriving DecidableEq

structure CorporateMemberCreateRequest where
  accountId : Option String
  email : Option String
  displayName : String
  role : String
  teamIds : List String
  projectIds : List String
  catalogAssignments : List CorporateMemberCatalogAssignment
  jobTitleId : Option String
  authorizationRevision : Int
  idempotencyKey : String

def CorporateMemberCreateRequest.dump (payload : CorporateMemberCreateRequest) : Json :=
  .object [
    ("schema_version", integerJson 1),
    ("account_id", optionalText payload.accountId),
    ("email", optionalText payload.email),
    ("display_name", .string payload.displayName),
    ("role", .string payload.role),
    ("team_ids", textsJson payload.teamIds),
    ("project_ids", textsJson payload.projectIds),
    ("catalog_assignments", .array (payload.catalogAssignments.map fun assignment ↦ .object [
      ("object_kind", .string "component"),
      ("stable_id", .string assignment.stableId),
      ("version", .string assignment.version)])),
    ("job_title_id", optionalText payload.jobTitleId),
    ("authorization_revision", integerJson payload.authorizationRevision)]

/-- The components that a new member starts with, one after another. -/
def checkCatalogVersions (view : View) (actor : String)
    (seen : List CorporateMemberCatalogAssignment) :
    List CorporateMemberCatalogAssignment → Except ApiError Unit
  | [] => .ok ()
  | assignment :: rest => do
    require (assignment ∉ seen) .validation "duplicate catalog assignment"
    require (view.surroundings.catalogVersion actor assignment.stableId assignment.version)
      .permission "catalog version is unavailable"
    checkCatalogVersions view actor (assignment :: seen) rest

def checkCatalogAssignments (view : View) (actor : String)
    (assignments : List CorporateMemberCatalogAssignment) : Except ApiError Unit := do
  require (assignments = [] ∨ view.hasCorporatePermission actor "catalog_object.assign"
      .organization view.tenant.organization.id) .permission "catalog assignment access denied"
  checkCatalogVersions view actor [] assignments

/-- The code points of white space. -/
def isSpace (character : Char) : Bool :=
  character.toNat ∈ [9, 10, 11, 12, 13, 28, 29, 30, 31, 32, 0x85, 0xa0, 0x1680, 0x2028, 0x2029,
    0x202f, 0x205f, 0x3000] ∨ 0x2000 ≤ character.toNat ∧ character.toNat ≤ 0x200a

/-- A text without the white space around it. -/
def strip (text : String) : String :=
  String.ofList ((text.toList.dropWhile isSpace).reverse.dropWhile isSpace).reverse

/-- The account of a new member: a known one, or a fresh one. -/
def newMemberAccount (view : View) (ids : Nat → String)
    (payload : CorporateMemberCreateRequest) : String :=
  match payload.accountId.filter fun accountId ↦
      (view.surroundings.accounts.lookup accountId).isSome with
  | some accountId => accountId
  | none => ids 0

def checkEmail (view : View) (email : Option String) : Except ApiError Unit := do
  require (email.all view.surroundings.emailAllowed) .validation "email domain is not allowed"
  require (email.all view.surroundings.emailFree) .internal "internal error"

/-- The membership row with its organization, team and project bindings. -/
def insertMembershipGraph (tenant : Tenant) (ids : Nat → String) (accountId : String)
    (row : MemberRow) (teamIds projectIds : List String) : Except ApiError Tenant := do
  let members ← found (tenant.members.insert? accountId row) .internal "internal error"
  let bindings ← insertBindings tenant.bindings ids 1
    (membershipBinding tenant accountId row.role ::
      (teamIds.map (assignmentBinding accountId "staff" .team) ++
        projectIds.map (assignmentBinding accountId "staff" .project)))
  checkBindings bindings
  let teamMembers ← insertParticipations tenant.teamMembers accountId teamIds
  let projectMembers ← insertParticipations tenant.projectMembers accountId projectIds
  return { tenant with
    members := members
    bindings := bindings
    teamMembers := teamMembers
    projectMembers := projectMembers }

def createMember (payload : CorporateMemberCreateRequest) : Mutation where
  permission := "member.create"
  operation := "member.create"
  authorizationRevision := .policy payload.authorizationRevision
  idempotencyKey := payload.idempotencyKey
  body := payload.dump
  effect := fun actor view ids ↦ do
    ensureActiveTeams view payload.teamIds
    ensureActiveProjects view payload.projectIds
    ensureRoleExists view payload.role
    assertDelegableRoles view actor
      ({payload.role} ∪ if payload.teamIds = [] then ∅ else {"staff"})
    ensureCurrentJobTitle view payload.jobTitleId
    checkCatalogAssignments view actor payload.catalogAssignments
    let accountId := newMemberAccount view ids payload
    checkEmail view payload.email
    require ((view.tenant.members.get? accountId).isNone) .conflict "member already exists"
    let row : MemberRow :=
      ⟨some (strip payload.displayName), payload.role, payload.jobTitleId, .active, 1⟩
    let tenant ← insertMembershipGraph view.tenant ids accountId row payload.teamIds.dedup
      payload.projectIds.dedup
    return (memberView accountId row none, tenant.bumped)

/-! ### Changes -/

structure CorporateMemberUpdateRequest where
  role : String
  state : AccountState
  jobTitleId : Option String
  expectedRevision : Nat
  authorizationRevision : Int
  idempotencyKey : String

def AccountState.text : AccountState → String
  | .active => "active"
  | .suspended => "suspended"

def CorporateMemberUpdateRequest.dump (payload : CorporateMemberUpdateRequest) : Json :=
  .object [
    ("schema_version", integerJson 1),
    ("role", .string payload.role),
    ("state", .string payload.state.text),
    ("job_title_id", optionalText payload.jobTitleId),
    ("expected_revision", integerJson payload.expectedRevision),
    ("authorization_revision", integerJson payload.authorizationRevision)]

/-- An active binding that a membership owns. -/
def BindingRow.ownedByMembership (row : BindingRow) (accountId : String) : Bool :=
  row.principal = .user accountId ∧ row.state = .active ∧ row.origin = .membership

/-- The membership binding that already carries the role. -/
def Tenant.membershipTarget (tenant : Tenant) (accountId role : String) : Option String :=
  (tenant.bindings.find? fun _ row ↦ row.ownedByMembership accountId ∧
    row.scopeKind = .organization ∧ row.scopeId = tenant.organization.id ∧ row.role = role).map
      (·.1)

/-- The bindings of a member that takes a role: its other membership bindings are revoked. -/
def keptMembershipBindings (tenant : Tenant) (accountId role : String) : Table String BindingRow :=
  tenant.bindings.mapRows fun id row ↦
    if row.ownedByMembership accountId then
      if tenant.membershipTarget accountId role = some id then
        if row.coverage = tenant.roleCoverage role then row
        else { row with coverage := tenant.roleCoverage role, revision := row.revision + 1 }
      else { row with state := .revoked, revision := row.revision + 1 }
    else row

def memberBindings (tenant : Tenant) (ids : Nat → String) (accountId role : String) :
    Except ApiError (Table String BindingRow) :=
  match tenant.membershipTarget accountId role with
  | some _ => .ok (keptMembershipBindings tenant accountId role)
  | none => found ((keptMembershipBindings tenant accountId role).insert? (ids 0)
      (membershipBinding tenant accountId role)) .internal "internal error"

/-- A new role is within what the caller may delegate. -/
def checkRoleChange (view : View) (actor role newRole : String) : Except ApiError Unit :=
  if newRole ≠ role then assertDelegableRoles view actor {newRole} else .ok ()

def updateMember (accountId : String) (payload : CorporateMemberUpdateRequest) : Mutation where
  permission := "member.update"
  scopeKind := .member
  scopeId := some accountId
  operation := "member.update"
  target := some accountId
  authorizationRevision := .policy payload.authorizationRevision
  idempotencyKey := payload.idempotencyKey
  body := payload.dump
  effect := fun actor view ids ↦ do
    let row ← found (view.tenant.members.get? accountId) .permission "member access denied"
    let accountName ← found (view.surroundings.accounts.lookup accountId) .internal
      "member account is missing"
    require (row.revision = payload.expectedRevision) .conflict "member revision changed"
    require (view.hasCorporatePermission actor "member.update" .organization
        view.tenant.organization.id ∨
      accountId ∉ view.tenant.administrators ∧ payload.role = row.role) .permission
      "member role change is forbidden"
    ensureRoleExists view payload.role
    ensureCurrentJobTitle view payload.jobTitleId
    checkRoleChange view actor row.role payload.role
    assertSuperadminSurvives view.tenant accountId
      (insert payload.role (view.tenant.orgRoles accountId fun _ binding ↦
        binding.origin ≠ .membership))
      (payload.state = .active)
    let bindings ← memberBindings view.tenant ids accountId payload.role
    checkBindings bindings
    let after : MemberRow := { row with
      role := payload.role
      state := payload.state
      jobTitleId := payload.jobTitleId
      revision := row.revision + 1 }
    return (memberView accountId after accountName, { view.tenant.bumped with
      members := view.tenant.members.update accountId after
      bindings := bindings })

structure CorporateDeleteRequest where
  expectedRevision : Nat
  authorizationRevision : Int
  idempotencyKey : String

def CorporateDeleteRequest.dump (payload : CorporateDeleteRequest) : Json :=
  .object [
    ("schema_version", integerJson 1),
    ("expected_revision", integerJson payload.expectedRevision),
    ("authorization_revision", integerJson payload.authorizationRevision)]

def deleteMember (accountId : String) (payload : CorporateDeleteRequest) : Mutation where
  permission := "member.delete"
  scopeKind := .member
  scopeId := some accountId
  operation := "member.delete"
  target := some accountId
  authorizationRevision := .policy payload.authorizationRevision
  idempotencyKey := payload.idempotencyKey
  body := payload.dump
  effect := fun actor view _ ↦ do
    let row ← found (view.tenant.members.get? accountId) .permission "member access denied"
    require (row.revision = payload.expectedRevision) .conflict "member revision changed"
    require (view.hasCorporatePermission actor "member.delete" .organization
        view.tenant.organization.id ∨ accountId ∉ view.tenant.administrators) .permission
      "member delete is forbidden"
    require (accountId ∉ view.tenant.administrators ∨ 1 < view.tenant.administrators.card)
      .conflict "last superadmin cannot be changed"
    return (.deleted accountId, { view.tenant.bumped with
      members := view.tenant.members.filter fun member _ ↦ member ≠ accountId
      bindings := view.tenant.bindings.filter fun _ binding ↦
        binding.principal ≠ .user accountId
      grants := view.tenant.grants.filter fun _ grant ↦ grant.principal ≠ .user accountId
      teamMembers := view.tenant.teamMembers.filter fun key _ ↦ key.2 ≠ accountId
      projectMembers := view.tenant.projectMembers.filter fun key _ ↦ key.2 ≠ accountId })

/-! ### Assignments -/

structure CorporateMembershipAssignmentRequest where
  accountId : String
  teamId : Option String
  projectId : Option String
  teamRole : String
  projectRole : String
  operation : AssignmentOperation
  authorizationRevision : Int
  idempotencyKey : String

def AssignmentOperation.text : AssignmentOperation → String
  | .assign => "assign"
  | .remove => "remove"

def CorporateMembershipAssignmentRequest.fields (payload : CorporateMembershipAssignmentRequest) :
    List (String × Json) :=
  [("schema_version", integerJson 1),
    ("account_id", .string payload.accountId),
    ("team_id", optionalText payload.teamId),
    ("project_id", optionalText payload.projectId),
    ("team_role", .string payload.teamRole),
    ("project_role", .string payload.projectRole),
    ("operation", .string payload.operation.text)]

/-- The part of an assignment at one scope: a participation and a binding. -/
structure AssignedScope where
  scopeKind : ScopeKind
  scopeId : String
  participationRole : String
  bindingRole : String

/-- Participation as owner or lead of a project binds the role `lead`. -/
def projectBindingRole (projectRole : String) : String :=
  if projectRole = "owner" ∨ projectRole = "lead" then "lead" else "staff"

def checkAssignedTeam (view : View) (actor : String)
    (payload : CorporateMembershipAssignmentRequest) (teamId : String) :
    Except ApiError AssignedScope := do
  require (view.surroundings.teams.any fun team ↦
      team.organizationId = view.tenant.organization.id ∧ team.id = teamId ∧
        (payload.operation = .assign → team.state = .active)) .permission "team access denied"
  require (payload.operation = .remove ∨
      view.tenant.permissionsOf payload.teamRole ⊆ view.callerPermissions actor) .permission
    "grant exceeds delegated authority"
  return ⟨.team, teamId, payload.teamRole, payload.teamRole⟩

def checkAssignedProject (view : View) (actor : String)
    (payload : CorporateMembershipAssignmentRequest) (projectId : String) :
    Except ApiError AssignedScope := do
  require (view.surroundings.projects.any fun project ↦
      project.organizationId = view.tenant.organization.id ∧ project.id = projectId ∧
        project.state = .active) .permission "project access denied"
  require (payload.operation = .remove ∨
      view.tenant.permissionsOf (projectBindingRole payload.projectRole) ⊆
        view.callerPermissions actor) .permission "grant exceeds delegated authority"
  return ⟨.project, projectId, payload.projectRole, projectBindingRole payload.projectRole⟩

def optionalScope (id : Option String) (check : String → Except ApiError AssignedScope) :
    Except ApiError (Option AssignedScope) :=
  match id with
  | none => .ok none
  | some id => (check id).map some

/-- The participations after an assignment or a removal. -/
def participations (table : Table (String × String) String) (accountId : String)
    (operation : AssignmentOperation) : Option AssignedScope → Table (String × String) String
  | none => table
  | some scope =>
    match operation with
    | .assign => table.set (scope.scopeId, accountId) scope.participationRole
    | .remove => table.filter fun key _ ↦ key ≠ (scope.scopeId, accountId)

/-- The earlier assignment at a scope is revoked. -/
def revokeAssigned (bindings : Table String BindingRow) (accountId : String) :
    Option AssignedScope → Table String BindingRow
  | none => bindings
  | some scope => bindings.mapRows fun _ row ↦
      if row.principal = .user accountId ∧ row.scopeKind = scope.scopeKind ∧
          row.scopeId = scope.scopeId ∧ row.state = .active ∧ row.origin = .assignment then
        { row with state := .revoked, revision := row.revision + 1 }
      else row

/-- The bindings of an assignment. -/
def assignedBindings (accountId : String) (operation : AssignmentOperation)
    (scopes : List AssignedScope) : List BindingRow :=
  match operation with
  | .remove => []
  | .assign => scopes.map fun scope ↦
      assignmentBinding accountId scope.bindingRole scope.scopeKind scope.scopeId

def assignMember (payload : CorporateMembershipAssignmentRequest) : Mutation where
  permission := "member.manage"
  operation := "member." ++ payload.operation.text
  authorizationRevision := .policy payload.authorizationRevision
  idempotencyKey := payload.idempotencyKey
  -- The authorization revision is a precondition of a fresh request, not part of its effect.
  body := .object payload.fields
  legacyBody := some (.object (payload.fields ++
    [("authorization_revision", integerJson payload.authorizationRevision)]))
  effect := fun actor view ids ↦ do
    require (payload.teamId ≠ none ∨ payload.projectId ≠ none) .validation
      "team_id or project_id is required"
    let _ ← found ((view.tenant.members.get? payload.accountId).filter fun member ↦
      payload.operation = .assign → member.state = .active) .permission "member access denied"
    let team ← optionalScope payload.teamId (checkAssignedTeam view actor payload)
    let project ← optionalScope payload.projectId (checkAssignedProject view actor payload)
    let rows := assignedBindings payload.accountId payload.operation
      (team.toList ++ project.toList)
    let bindings ← insertBindings
      (revokeAssigned (revokeAssigned view.tenant.bindings payload.accountId team)
        payload.accountId project) ids 0 rows
    checkBindings bindings
    return (.assignment payload.accountId payload.teamId payload.projectId payload.teamRole
        payload.projectRole payload.operation (rows.mapIdx fun index row ↦ (ids index, row)),
      { view.tenant.bumped with
        bindings := bindings
        teamMembers := participations view.tenant.teamMembers payload.accountId payload.operation
          team
        projectMembers := participations view.tenant.projectMembers payload.accountId
          payload.operation project })

end AiStp.Corporate
