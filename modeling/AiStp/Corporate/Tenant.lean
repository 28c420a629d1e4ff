import AiStp.Corporate.Authorization
import AiStp.Foundation.Errors
import Mathlib.Data.Finset.Card
import AiStp.Library.Tables

/-!
# The corporate tenant

A deployment has one corporate organization. `Tenant` is the part of its rows that the mutations of
roles, members, bindings, assignments and direct grants write; `Surroundings` is what they only read.
`Tenant.database` lays both out as the tables that the permission evaluators query.

An administrator is an active member whose active organization-scope bindings together carry the
whole permission set of the role `superadmin`.
-/

set_option autoImplicit false

namespace AiStp.Corporate

open Foundation Library

/-! ### Built-in roles -/

def technologyPermissions : List String :=
  ["area.create", "area.read", "area.update", "area.delete", "area.list", "category.create",
    "category.read", "category.update", "category.delete", "category.list", "technology.create",
    "technology.read", "technology.update", "technology.delete", "technology.list",
    "technology.approve", "technology.merge", "technology.responsibility", "landscape.read",
    "landscape.manage", "technology.scan.publish"]

def relationPermissions : List String :=
  ["project_team", "project_technology", "technology_team", "technology_decision"].flatMap
    fun resource ↦ ["create", "read", "update", "delete", "list"].map
      fun action ↦ resource ++ "." ++ action

def governancePermissions : List String :=
  ["catalog_object.read", "catalog_object.edit", "catalog_object.delete", "catalog_object.publish",
    "catalog_object.verify", "catalog_object.assign", "catalog_object.ownership_transfer",
    "catalog_object.maintainer", "catalog_object.lifecycle", "catalog_object.audit",
    "catalog_object.explain"]

def connectorPermissions (actions : List String) : List String :=
  ["github", "gitlab"].flatMap fun provider ↦ actions.map
    fun action ↦ "connector." ++ provider ++ "." ++ action

def superadminPermissions : List String :=
  ["organization.read", "organization.manage", "member.create", "member.invite", "member.read",
    "member.update", "member.delete", "member.list", "member.manage", "binding.create",
    "binding.read", "binding.update", "binding.delete", "binding.list", "project.create",
    "project.read", "project.update", "project.delete", "project.list", "project.link",
    "project.unlink", "team.create", "team.read", "team.update", "team.delete", "team.list",
    "audit.read", "audit.list", "audit.export", "service_principal.manage",
    "service_principal.read", "service_principal.list", "service_principal.delete", "role.create",
    "role.read", "role.update", "role.delete", "role.list", "job_title.create", "job_title.read",
    "job_title.update", "job_title.list", "telemetry.write", "telemetry.read", "telemetry.list",
    "telemetry.export", "telemetry.manage", "telemetry.delete", "telemetry_usage.ingest",
    "telemetry_usage.read", "telemetry_usage.events", "telemetry_usage.export"] ++
  technologyPermissions ++ relationPermissions ++ governancePermissions ++
  connectorPermissions ["use", "read", "write", "create", "visibility", "access"]

def leadPermissions : List String :=
  ["organization.read", "member.invite", "member.read", "member.update", "member.delete",
    "member.manage", "project.read", "project.update", "project.list", "project.link",
    "project.unlink", "team.read", "team.update", "team.delete", "team.list", "telemetry.read",
    "telemetry_usage.ingest", "telemetry_usage.read", "catalog_object.read",
    "catalog_object.assign"] ++ connectorPermissions ["use", "read"]

def staffPermissions : List String :=
  ["organization.read", "project.read", "project.list", "project.link", "team.read", "team.list",
    "telemetry_usage.ingest", "catalog_object.read"] ++ connectorPermissions ["use", "read"]

def builtInRoles : List String := ["superadmin", "lead", "staff"]

def knownPermissions : List String :=
  superadminPermissions ++ leadPermissions ++ staffPermissions

/-! ### Rows -/

inductive Principal where
  | user (accountId : String)
  | servicePrincipal (id : String)
deriving DecidableEq

/-- A role with the rows of its permission matrix. -/
structure RoleRow where
  permissions : List String
  revision : Nat
deriving DecidableEq

structure MemberRow where
  displayName : Option String
  role : String
  jobTitleId : Option String
  state : AccountState
  revision : Nat
deriving DecidableEq

structure BindingRow where
  principal : Principal
  role : String
  scopeKind : ScopeKind
  scopeId : String
  state : RowState
  origin : BindingOrigin
  coverage : Coverage
  revision : Nat
deriving DecidableEq

structure GrantRow where
  principal : Principal
  permission : String
  scopeKind : ScopeKind
  scopeId : String
  issuerAccountId : String
  state : RowState
  revision : Nat
deriving DecidableEq

structure Tenant where
  organization : Organization
  roles : Table String RoleRow
  members : Table String MemberRow
  bindings : Table String BindingRow
  grants : Table String GrantRow
  /-- The participation role of an account in a team. -/
  teamMembers : Table (String × String) String
  /-- The participation role of an account in a project. -/
  projectMembers : Table (String × String) String

structure Surroundings where
  teams : List CorporateTeam := []
  projects : List CorporateProject := []
  /-- The projects whose lifecycle is active. -/
  activeLifecycles : List String := []
  identities : List ProjectIdentity := []
  projectTeams : List ProjectTeamRelation := []
  /-- The current relations of projects to the teams that own them. -/
  projectOwners : List (String × String) := []
  projectTechnologies : List ProjectTechnologyRelation := []
  usageFacts : List TechnologyUsageFact := []
  technologies : List Technology := []
  responsibilities : List TechnologyTeamResponsibility := []
  classifications : List TechnologyClassification := []
  servicePrincipals : List CorporateServicePrincipal := []
  catalogObjects : List String := []
  activeCategories : List String := []
  currentJobTitles : List String := []
  accounts : List (String × Option String) := []
  /-- The account sees a version of a component that is published and not withdrawn. -/
  catalogVersion : String → String → String → Bool := fun _ _ _ ↦ false
  emailAllowed : String → Bool := fun _ ↦ true
  /-- No identity was provisioned for the address. -/
  emailFree : String → Bool := fun _ ↦ true

/-! ### The tables of the evaluators -/

def Principal.kind : Principal → PrincipalType
  | .user _ => .user
  | .servicePrincipal _ => .servicePrincipal

def Principal.accountId : Principal → Option String
  | .user accountId => some accountId
  | .servicePrincipal _ => none

def Principal.servicePrincipalId : Principal → Option String
  | .user _ => none
  | .servicePrincipal id => some id

def BindingRow.toBinding (row : BindingRow) (organizationId id : String) :
    CorporateRoleBinding where
  id := id
  organizationId := organizationId
  principalType := row.principal.kind
  accountId := row.principal.accountId
  servicePrincipalId := row.principal.servicePrincipalId
  scopeKind := row.scopeKind
  scopeId := row.scopeId
  state := row.state
  role := row.role
  coverage := row.coverage
  origin := row.origin

def GrantRow.toGrant (row : GrantRow) (organizationId id : String) :
    CorporatePermissionGrant where
  id := id
  organizationId := organizationId
  principalType := row.principal.kind
  accountId := row.principal.accountId
  servicePrincipalId := row.principal.servicePrincipalId
  scopeKind := row.scopeKind
  scopeId := row.scopeId
  state := row.state
  permission := row.permission

def Tenant.database (tenant : Tenant) (surroundings : Surroundings) : Database where
  organizations := [tenant.organization]
  memberships := tenant.members.entries.map fun (accountId, row) ↦
    ⟨tenant.organization.id, accountId, row.state⟩
  servicePrincipals := surroundings.servicePrincipals
  roleBindings := tenant.bindings.entries.map fun (id, row) ↦
    row.toBinding tenant.organization.id id
  permissionGrants := tenant.grants.entries.map fun (id, row) ↦
    row.toGrant tenant.organization.id id
  rolePermissions := tenant.roles.entries.flatMap fun (role, row) ↦
    row.permissions.map fun permission ↦ ⟨tenant.organization.id, role, permission⟩
  teams := surroundings.teams
  teamMembers := tenant.teamMembers.entries.map fun (key, _) ↦
    ⟨tenant.organization.id, key.1, key.2⟩
  projects := surroundings.projects
  projectMembers := tenant.projectMembers.entries.map fun (key, _) ↦
    ⟨tenant.organization.id, key.1, key.2⟩
  identities := surroundings.identities
  projectTeams := surroundings.projectTeams
  projectTechnologies := surroundings.projectTechnologies
  usageFacts := surroundings.usageFacts
  technologies := surroundings.technologies
  responsibilities := surroundings.responsibilities
  classifications := surroundings.classifications

/-! ### Administration -/

/-- The permission set of a role. -/
def Tenant.permissionsOf (tenant : Tenant) (role : String) : Finset String :=
  ((tenant.roles.get? role).map fun row ↦ row.permissions.toFinset).getD ∅

def Tenant.adminSet (tenant : Tenant) : Finset String :=
  tenant.permissionsOf "superadmin"

/-- The roles cover the whole permission set of the role `superadmin`. -/
def Tenant.covers (tenant : Tenant) (roles : Finset String) : Bool :=
  tenant.adminSet ⊆ roles.biUnion tenant.permissionsOf

def Tenant.membershipActive (tenant : Tenant) (accountId : String) : Bool :=
  (tenant.members.get? accountId).any (·.state = .active)

/-- An active binding of an account at organization scope. -/
def BindingRow.administers (row : BindingRow) (accountId : String) : Bool :=
  row.principal = .user accountId ∧ row.scopeKind = .organization ∧ row.state = .active

/-- The organization-scope roles of an account, over the bindings that a condition keeps. -/
def Tenant.orgRoles (tenant : Tenant) (accountId : String) (keep : String → BindingRow → Bool) :
    Finset String :=
  ((tenant.bindings.entries.filter fun entry ↦
    entry.2.administers accountId ∧ keep entry.1 entry.2).map (·.2.role)).toFinset

/-- The accounts with an active organization-scope binding and an active membership. -/
def Tenant.boundAccounts (tenant : Tenant) : Finset String :=
  ((tenant.bindings.entries.filterMap fun entry ↦ entry.2.principal.accountId).filter
    fun accountId ↦ tenant.membershipActive accountId ∧
      (tenant.orgRoles accountId fun _ _ ↦ true) ≠ ∅).toFinset

/-- The administrators of the organization; none if the role `superadmin` permits nothing. -/
def Tenant.administrators (tenant : Tenant) : Finset String :=
  if tenant.adminSet = ∅ then ∅
  else tenant.boundAccounts.filter fun accountId ↦
    tenant.covers (tenant.orgRoles accountId fun _ _ ↦ true)

/-- The guard of the last administrator, for a change of one account. -/
def assertSuperadminSurvives (tenant : Tenant) (accountId : String) (orgRolesAfter : Finset String)
    (membershipActiveAfter : Bool) : Except ApiError Unit :=
  if accountId ∉ tenant.administrators then .ok ()
  else if membershipActiveAfter ∧ orgRolesAfter ≠ ∅ ∧ tenant.covers orgRolesAfter then .ok ()
  else require (1 < tenant.administrators.card) .conflict "last superadmin cannot be changed"

/-! ### Authorization -/

/-- The tables that one statement sees. -/
structure View where
  tenant : Tenant
  surroundings : Surroundings

def View.effectivePermissions (view : View) (accountId : String) (scopeKind : ScopeKind)
    (scopeId : String) : Option (Finset String) :=
  corporateEffectivePermissions (view.tenant.database view.surroundings)
    view.tenant.organization.id .user accountId scopeKind scopeId none

def View.hasCorporatePermission (view : View) (accountId permission : String)
    (scopeKind : ScopeKind) (scopeId : String) : Bool :=
  (view.effectivePermissions accountId scopeKind scopeId).any (permission ∈ ·)

/-- The active teams that the account leads. -/
def View.ledTeams (view : View) (accountId : String) : List String :=
  (view.tenant.teamMembers.entries.filter fun entry ↦
    entry.1.2 = accountId ∧ entry.2 = "lead" ∧ view.surroundings.teams.any fun team ↦
      team.organizationId = view.tenant.organization.id ∧ team.id = entry.1.1 ∧
        team.state = .active).map (·.1.1)

/-- The account leads the team, or a team that owns the project. -/
def View.leadsSubject (view : View) (accountId : String) (scopeKind : ScopeKind)
    (scopeId : String) : Bool :=
  match scopeKind with
  | .team => scopeId ∈ view.ledTeams accountId
  | .project => view.surroundings.projectOwners.any fun (projectId, teamId) ↦
      projectId = scopeId ∧ teamId ∈ view.ledTeams accountId
  | _ => false

/-- Whether the caller may act on the subject. -/
def View.subjectPermissionAllowed (view : View) (accountId permission : String)
    (scopeKind : ScopeKind) (scopeId : String) : Bool :=
  view.hasCorporatePermission accountId permission scopeKind scopeId ||
  (scopeKind = .member &&
    view.hasCorporatePermission accountId permission .organization view.tenant.organization.id) ||
  (permission ∈ ["team.update", "project.update"] &&
    corporatePrincipalActive (view.tenant.database view.surroundings) view.tenant.organization.id
      .user accountId none &&
    view.leadsSubject accountId scopeKind scopeId)

/-- The membership through which the caller may act. -/
def View.authorize (view : View) (accountId permission : String) (scopeKind : ScopeKind)
    (scopeId : Option String) : Except ApiError MemberRow := do
  require (view.tenant.organization.kind = .corporate ∧
      view.tenant.organization.state = .active) .permission "organization access denied"
  let membership ← found ((view.tenant.members.get? accountId).filter (·.state = .active))
    .permission "organization access denied"
  require (view.subjectPermissionAllowed accountId permission scopeKind
      (requestedScope scopeId view.tenant.organization.id)) .permission "capability is forbidden"
  return membership

/-! ### Delegation -/

/-- What the caller may do at organization scope. -/
def View.callerPermissions (view : View) (accountId : String) : Finset String :=
  (view.effectivePermissions accountId .organization view.tenant.organization.id).getD ∅

/-- A mutation grants nothing that its issuer does not have. -/
def assertDelegablePermissions (view : View) (accountId : String) (permissions : Finset String) :
    Except ApiError Unit :=
  require (permissions ⊆ view.callerPermissions accountId) .permission
    "grant exceeds delegated authority"

def assertDelegableRoles (view : View) (accountId : String) (roles : Finset String) :
    Except ApiError Unit :=
  assertDelegablePermissions view accountId (roles.biUnion view.tenant.permissionsOf)

/-- Only a principal that holds descendant coverage may mint it. -/
def assertDelegableCoverage (view : View) (accountId : String) (coverage : Coverage) :
    Except ApiError Unit :=
  require (coverage ≠ .descendants ∨ view.tenant.bindings.entries.any fun entry ↦
      entry.2.administers accountId ∧ entry.2.coverage = .descendants) .permission
    "descendant coverage exceeds delegated authority"

/-- A role that carries the full administrative permission set reaches below the organization. -/
def Tenant.roleCoverage (tenant : Tenant) (role : String) : Coverage :=
  if tenant.adminSet ≠ ∅ ∧ tenant.adminSet ⊆ tenant.permissionsOf role then .descendants
  else .self

/-! ### Bootstrap -/

/-- A fresh organization, with one superadmin. -/
def bootstrap (organizationId accountId bindingId : String) : Tenant where
  organization := ⟨organizationId, .corporate, .active, 1⟩
  roles := ((Table.empty.set "superadmin" ⟨superadminPermissions, 1⟩).set "lead"
    ⟨leadPermissions, 1⟩).set "staff" ⟨staffPermissions, 1⟩
  members := Table.empty.set accountId ⟨none, "superadmin", none, .active, 1⟩
  bindings := Table.empty.set bindingId
    { principal := .user accountId
      role := "superadmin"
      scopeKind := .organization
      scopeId := organizationId
      state := .active
      origin := .membership
      coverage := .descendants
      revision := 1 }
  grants := .empty
  teamMembers := .empty
  projectMembers := .empty

end AiStp.Corporate
