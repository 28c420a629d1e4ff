import AiStp.Library.Query

/-!
# Corporate records

The tables that the evaluators of corporate permissions read, with the columns that they read. Every
row belongs to one organization. A role binding and a direct grant are both rows that allow a
principal something at a scope (`ScopedRow`).
-/

set_option autoImplicit false

namespace AiStp.Corporate

inductive PrincipalType where
  | user
  | servicePrincipal
deriving DecidableEq

/-- The kinds of scope that rows are bound to or that callers ask about. -/
inductive ScopeKind where
  | system
  | organization
  | team
  | project
  | technology
  | category
  | catalogObject
  | telemetry
  | member
  | other (name : String)
deriving DecidableEq

inductive OrganizationKind where
  | personal
  | corporate
deriving DecidableEq

/-- The state of an organization, a membership or a service principal. -/
inductive AccountState where
  | active
  | suspended
deriving DecidableEq

/-- The state of a team or a project. -/
inductive EntityState where
  | active
  | archived
deriving DecidableEq

inductive IdentityState where
  | active
  | archived
  | deleted
deriving DecidableEq

inductive IdentityNamespace where
  | remote
  | provider
deriving DecidableEq

/-- The state of a link between two records. -/
inductive LinkState where
  | current
  | retired
deriving DecidableEq

inductive RowState where
  | active
  | revoked
deriving DecidableEq

inductive Coverage where
  | self
  | descendants
deriving DecidableEq

inductive BindingOrigin where
  | membership
  | assignment
  | direct
  | servicePrincipal
deriving DecidableEq

inductive FactReview where
  | proposed
  | confirmed
  | rejected
  | overridden
  | retired
deriving DecidableEq

inductive FactFreshness where
  | current
  | stale
  | absent
  | unknown
deriving DecidableEq

inductive TechnologyLifecycle where
  | draft
  | active
  | deprecated
  | archived
deriving DecidableEq

structure Organization where
  id : String
  kind : OrganizationKind
  state : AccountState
  policyRevision : Int

structure OrganizationMembership where
  organizationId : String
  accountId : String
  state : AccountState

structure CorporateServicePrincipal where
  organizationId : String
  id : String
  state : AccountState

/-- What bindings and direct grants share: a principal and a scope. -/
structure ScopedRow where
  id : String
  organizationId : String
  principalType : PrincipalType
  accountId : Option String
  servicePrincipalId : Option String
  scopeKind : ScopeKind
  scopeId : String
  state : RowState

structure CorporateRoleBinding extends ScopedRow where
  role : String
  coverage : Coverage
  origin : BindingOrigin

structure CorporatePermissionGrant extends ScopedRow where
  permission : String

structure CorporateRolePermission where
  organizationId : String
  role : String
  permission : String

structure CorporateTeam where
  organizationId : String
  id : String
  state : EntityState

structure CorporateTeamMember where
  organizationId : String
  teamId : String
  accountId : String

structure CorporateProject where
  organizationId : String
  id : String
  state : EntityState

structure CorporateProjectMember where
  organizationId : String
  projectId : String
  accountId : String

structure ProjectIdentity where
  organizationId : String
  id : String
  identityNamespace : IdentityNamespace
  state : IdentityState

structure ProjectTeamRelation where
  organizationId : String
  projectId : String
  teamId : String
  state : LinkState

structure ProjectTechnologyRelation where
  organizationId : String
  id : String
  projectId : String
  technologyId : String
  state : LinkState

structure TechnologyUsageFact where
  organizationId : String
  relationId : String
  review : FactReview
  freshness : FactFreshness

structure Technology where
  organizationId : String
  id : String
  lifecycle : TechnologyLifecycle
  redirectId : Option String

structure TechnologyTeamResponsibility where
  organizationId : String
  technologyId : String
  teamId : String
  state : LinkState

structure TechnologyClassification where
  organizationId : String
  technologyId : String
  categoryId : String

structure Database where
  organizations : List Organization := []
  memberships : List OrganizationMembership := []
  servicePrincipals : List CorporateServicePrincipal := []
  roleBindings : List CorporateRoleBinding := []
  permissionGrants : List CorporatePermissionGrant := []
  rolePermissions : List CorporateRolePermission := []
  teams : List CorporateTeam := []
  teamMembers : List CorporateTeamMember := []
  projects : List CorporateProject := []
  projectMembers : List CorporateProjectMember := []
  identities : List ProjectIdentity := []
  projectTeams : List ProjectTeamRelation := []
  projectTechnologies : List ProjectTechnologyRelation := []
  usageFacts : List TechnologyUsageFact := []
  technologies : List Technology := []
  responsibilities : List TechnologyTeamResponsibility := []
  classifications : List TechnologyClassification := []

end AiStp.Corporate
