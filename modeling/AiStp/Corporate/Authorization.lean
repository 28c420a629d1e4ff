import AiStp.Corporate.Records
import AiStp.Library.TextOrder
import Mathlib.Data.List.Sort

/-!
# Corporate permissions

Three evaluators of the permissions of a principal at a scope: for one scope
(`corporateEffectivePermissions`), for one scope with the rows that contribute
(`explainEffectivePermissions`), and for many scopes of one kind (`bulkEffectivePermissions`). The
first two ask the database with `scopeClause`; the third reads every row of the principal and
decides with maps that it has collected before.
-/

set_option autoImplicit false

namespace AiStp.Corporate

open Library Query

/-! ### The principal -/

/-- The gate: an active corporate organization at the expected policy revision, and an active
principal record. -/
def corporatePrincipalActive (database : Database) (organizationId : String)
    (principalType : PrincipalType) (principalId : String) (authorizationRevision : Option Int) :
    Bool :=
  match database.organizations.find? (·.id = organizationId) with
  | none => false
  | some organization =>
    if organization.kind ≠ .corporate ∨ organization.state ≠ .active then
      false
    else if authorizationRevision.any (organization.policyRevision ≠ ·) then
      false
    else
      match principalType with
      | .user => database.memberships.any fun membership ↦
          membership.organizationId = organizationId ∧ membership.accountId = principalId ∧
            membership.state = .active
      | .servicePrincipal => database.servicePrincipals.any fun principal ↦
          principal.organizationId = organizationId ∧ principal.id = principalId ∧
            principal.state = .active

def ScopedRow.isOf (row : ScopedRow) (principalType : PrincipalType) (principalId : String) :
    Bool :=
  match principalType with
  | .user => row.accountId = some principalId
  | .servicePrincipal => row.servicePrincipalId = some principalId

/-- The active rows of a principal that meet a further clause. A row that is bound to an inactive
team allows nothing. -/
def principalRows {Row : Type} (database : Database) (rows : List Row) (scopeOf : Row → ScopedRow)
    (organizationId : String) (principalType : PrincipalType) (principalId : String)
    (extraClause : Row → Bool) : List Row :=
  rows.filter fun row ↦
    (scopeOf row).organizationId = organizationId ∧
    (scopeOf row).principalType = principalType ∧
    (scopeOf row).isOf principalType principalId ∧
    (scopeOf row).state = .active ∧
    ((scopeOf row).scopeKind ≠ .team ∨
      (scopeOf row).scopeId ∈ select database.teams
        (fun team ↦ team.organizationId = organizationId ∧ team.state = .active) (·.id)) ∧
    extraClause row

def principalBindings (database : Database) (organizationId : String)
    (principalType : PrincipalType) (principalId : String)
    (extraClause : CorporateRoleBinding → Bool) : List CorporateRoleBinding :=
  principalRows database database.roleBindings (·.toScopedRow) organizationId principalType
    principalId extraClause

def principalGrants (database : Database) (organizationId : String)
    (principalType : PrincipalType) (principalId : String)
    (extraClause : CorporatePermissionGrant → Bool) : List CorporatePermissionGrant :=
  principalRows database database.permissionGrants (·.toScopedRow) organizationId principalType
    principalId extraClause

/-! ### Role permissions -/

/-- Every permission granted to any of the roles. -/
def grantsForRoles (database : Database) (organizationId : String) (roles : Finset String) :
    Finset String :=
  (select database.rolePermissions
    (fun row ↦ row.organizationId = organizationId ∧ row.role ∈ roles) (·.permission)).toFinset

/-- Each named role's own permission set. -/
def rolePermissions (database : Database) (organizationId : String) (roles : Finset String) :
    String → Finset String :=
  group (fun _ ↦ ∅) (select database.rolePermissions
    (fun row ↦ row.organizationId = organizationId ∧ row.role ∈ roles)
    (fun row ↦ (row.role, row.permission)))

/-! ### The clause of one scope -/

/-- The current links of projects to active teams. -/
def activeProjectTeams (database : Database) (organizationId : String) :
    List (ProjectTeamRelation × CorporateTeam) :=
  (join database.projectTeams database.teams fun relation team ↦
    team.organizationId = relation.organizationId ∧ team.id = relation.teamId).filter
      fun (relation, team) ↦
        relation.organizationId = organizationId ∧ relation.state = .current ∧
          team.state = .active

/-- The active teams of an eligible project. -/
def projectCurrentTeams (database : Database) (organizationId projectId : String) : List String :=
  select
    (join
      (join (activeProjectTeams database organizationId) database.projects
        fun (relation, _) project ↦
          project.organizationId = relation.organizationId ∧ project.id = relation.projectId)
      database.identities
      fun (_, project) identity ↦
        identity.organizationId = project.organizationId ∧ identity.id = project.id)
    (fun (((relation, _), project), identity) ↦
      relation.projectId = projectId ∧ project.state = .active ∧ identity.state = .active ∧
        identity.identityNamespace = .remote)
    (fun (((relation, _), _), _) ↦ relation.teamId)

/-- The projects whose link to the technology is current, confirmed and fresh. -/
def technologyCurrentProjects (database : Database) (organizationId technologyId : String) :
    List String :=
  select
    (join
      (join
        (join
          (join database.projectTechnologies database.usageFacts fun relation fact ↦
            fact.organizationId = relation.organizationId ∧ fact.relationId = relation.id)
          database.projects
          fun (relation, _) project ↦
            project.organizationId = relation.organizationId ∧ project.id = relation.projectId)
        database.identities
        fun (_, project) identity ↦
          identity.organizationId = project.organizationId ∧ identity.id = project.id)
      database.technologies
      fun (((relation, _), _), _) technology ↦
        technology.organizationId = relation.organizationId ∧
          technology.id = relation.technologyId)
    (fun ((((relation, fact), project), identity), technology) ↦
      relation.organizationId = organizationId ∧ relation.technologyId = technologyId ∧
      relation.state = .current ∧ fact.review ∈ [.confirmed, .overridden] ∧
      fact.freshness ≠ .absent ∧ project.state = .active ∧ identity.state = .active ∧
      identity.identityNamespace = .remote ∧ technology.lifecycle ∈ [.active, .deprecated] ∧
      technology.redirectId = none)
    (fun ((((relation, _), _), _), _) ↦ relation.projectId)

def technologyResponsibleTeams (database : Database) (organizationId technologyId : String) :
    List String :=
  select
    (join database.responsibilities database.technologies fun responsibility technology ↦
      technology.organizationId = responsibility.organizationId ∧
        technology.id = responsibility.technologyId)
    (fun (responsibility, technology) ↦
      responsibility.organizationId = organizationId ∧
      responsibility.technologyId = technologyId ∧ responsibility.state = .current ∧
      technology.lifecycle ∈ [.active, .deprecated] ∧ technology.redirectId = none)
    (fun (responsibility, _) ↦ responsibility.teamId)

/-- The teams that answer for a technology, and those of the projects that use it. -/
def technologyTeams (database : Database) (organizationId technologyId : String) : List String :=
  technologyResponsibleTeams database organizationId technologyId ++
    select (activeProjectTeams database organizationId)
      (fun (relation, _) ↦
        relation.projectId ∈ technologyCurrentProjects database organizationId technologyId)
      (fun (relation, _) ↦ relation.teamId)

def technologyCategories (database : Database) (organizationId technologyId : String) :
    List String :=
  select database.classifications
    (fun row ↦ row.organizationId = organizationId ∧ row.technologyId = technologyId)
    (·.categoryId)

def memberTeams (database : Database) (organizationId accountId : String) : List String :=
  select
    (join database.teamMembers database.teams fun row team ↦
      team.organizationId = row.organizationId ∧ team.id = row.teamId)
    (fun (row, team) ↦
      row.organizationId = organizationId ∧ row.accountId = accountId ∧ team.state = .active)
    (fun (row, _) ↦ row.teamId)

def memberProjects (database : Database) (organizationId accountId : String) : List String :=
  select
    (join database.projectMembers database.projects fun row project ↦
      project.organizationId = row.organizationId ∧ project.id = row.projectId)
    (fun (row, project) ↦
      row.organizationId = organizationId ∧ row.accountId = accountId ∧ project.state = .active)
    (fun (row, _) ↦ row.projectId)

/-- The scope-matching arms that bindings and direct grants share. `orgDescendants` lets a row of
the organization reach a scope below it. -/
def scopeClause (database : Database) (kind : ScopeKind) (scopeId : String)
    (scopeKind : ScopeKind) (scope organizationId : String) (orgDescendants : Bool) : Bool :=
  let orgArm :=
    if scopeKind = .organization then decide (kind = .organization)
    else kind = .organization ∧ orgDescendants
  let clause := orgArm || decide (kind = scopeKind ∧ (scopeId = "*" ∨ scopeId = scope))
  match scopeKind with
  | .project =>
    clause || decide (kind = .team ∧ scopeId ∈ projectCurrentTeams database organizationId scope)
  | .technology =>
    clause ||
      decide (kind = .project ∧ scopeId ∈ technologyCurrentProjects database organizationId scope) ||
      decide (kind = .team ∧ scopeId ∈ technologyTeams database organizationId scope) ||
      decide (kind = .category ∧ scopeId ∈ technologyCategories database organizationId scope)
  | .member =>
    clause || decide (kind = .team ∧ scopeId ∈ memberTeams database organizationId scope) ||
      decide (kind = .project ∧ scopeId ∈ memberProjects database organizationId scope)
  | _ => clause

/-! ### One scope -/

/-- The scope that a caller asks about: the organization when it names none. -/
def requestedScope (scopeId : Option String) (organizationId : String) : String :=
  match scopeId with
  | none => organizationId
  | some scope => if scope = "" then organizationId else scope

/-- The bindings of a principal that reach a scope. -/
def scopeBindings (database : Database) (organizationId : String) (principalType : PrincipalType)
    (principalId : String) (scopeKind : ScopeKind) (scope : String) :
    List CorporateRoleBinding :=
  principalBindings database organizationId principalType principalId fun binding ↦
    scopeClause database binding.scopeKind binding.scopeId scopeKind scope organizationId
      (binding.coverage = .descendants)

/-- The direct grants of a principal that reach a scope. -/
def scopeGrants (database : Database) (organizationId : String) (principalType : PrincipalType)
    (principalId : String) (scopeKind : ScopeKind) (scope : String) :
    List CorporatePermissionGrant :=
  principalGrants database organizationId principalType principalId fun grant ↦
    scopeClause database grant.scopeKind grant.scopeId scopeKind scope organizationId false

/-- The permissions that an active principal holds at one scope. -/
def corporateEffectivePermissions (database : Database) (organizationId : String)
    (principalType : PrincipalType) (principalId : String) (scopeKind : ScopeKind)
    (scopeId : Option String) (authorizationRevision : Option Int) : Option (Finset String) :=
  if corporatePrincipalActive database organizationId principalType principalId
      authorizationRevision then
    let scope := requestedScope scopeId organizationId
    let bindings := scopeBindings database organizationId principalType principalId scopeKind scope
    let grants := scopeGrants database organizationId principalType principalId scopeKind scope
    let roles := (bindings.map (·.role)).toFinset
    some (grantsForRoles database organizationId roles ∪ (grants.map (·.permission)).toFinset)
  else
    none

inductive SourceKind where
  | binding
  | grant
deriving DecidableEq

/-- One row that contributes permissions at an evaluated scope. -/
structure PermissionSourceRecord where
  kind : SourceKind
  sourceId : String
  role : Option String
  origin : Option BindingOrigin
  scopeKind : ScopeKind
  scopeId : String
  permissions : Finset String

def CorporateRoleBinding.record (binding : CorporateRoleBinding) (permissions : Finset String) :
    PermissionSourceRecord where
  kind := .binding
  sourceId := binding.id
  role := binding.role
  origin := binding.origin
  scopeKind := binding.scopeKind
  scopeId := binding.scopeId
  permissions := permissions

def CorporatePermissionGrant.record (grant : CorporatePermissionGrant) :
    PermissionSourceRecord where
  kind := .grant
  sourceId := grant.id
  role := none
  origin := none
  scopeKind := grant.scopeKind
  scopeId := grant.scopeId
  permissions := {grant.permission}

/-- The decision at one scope with every row that fed it. -/
def explainEffectivePermissions (database : Database) (organizationId : String)
    (principalType : PrincipalType) (principalId : String) (scopeKind : ScopeKind)
    (scopeId : Option String) : Option (Finset String × List PermissionSourceRecord) :=
  if corporatePrincipalActive database organizationId principalType principalId none then
    let scope := requestedScope scopeId organizationId
    let bindings := scopeBindings database organizationId principalType principalId scopeKind scope
    let grants := scopeGrants database organizationId principalType principalId scopeKind scope
    let grantsByRole :=
      rolePermissions database organizationId (bindings.map (·.role)).toFinset
    let contributed := bindings.foldl (fun effective binding ↦
      effective ∪ grantsByRole binding.role) ∅
    let effective := grants.foldl (fun effective grant ↦ insert grant.permission effective)
      contributed
    some (effective, bindings.map (fun binding ↦ binding.record (grantsByRole binding.role)) ++
      grants.map (·.record))
  else
    none

/-! ### Many scopes of one kind -/

/-- What the bulk evaluator collects about its scopes before it matches rows. -/
structure ScopeMaps where
  projects : String → Finset String
  responsible : String → Finset String
  categories : String → Finset String
  projectTeams : String → Finset String
  memberTeams : String → Finset String
  memberProjects : String → Finset String

def categoryRows (database : Database) (organizationId : String) (ids : List String) :
    List (String × String) :=
  select database.classifications
    (fun row ↦ row.organizationId = organizationId ∧ row.technologyId ∈ ids)
    (fun row ↦ (row.technologyId, row.categoryId))

def technologyProjectRows (database : Database) (organizationId : String) (ids : List String) :
    List (String × String) :=
  select
    (join
      (join
        (join
          (join database.projectTechnologies database.usageFacts fun relation fact ↦
            fact.organizationId = relation.organizationId ∧ fact.relationId = relation.id)
          database.projects
          fun (relation, _) project ↦
            project.organizationId = relation.organizationId ∧ project.id = relation.projectId)
        database.identities
        fun (_, project) identity ↦
          identity.organizationId = project.organizationId ∧ identity.id = project.id)
      database.technologies
      fun (((relation, _), _), _) technology ↦
        technology.organizationId = relation.organizationId ∧
          technology.id = relation.technologyId)
    (fun ((((relation, fact), project), identity), technology) ↦
      relation.organizationId = organizationId ∧ relation.technologyId ∈ ids ∧
      relation.state = .current ∧ fact.review ∈ [.confirmed, .overridden] ∧
      fact.freshness ≠ .absent ∧ project.state = .active ∧ identity.state = .active ∧
      identity.identityNamespace = .remote ∧ technology.lifecycle ∈ [.active, .deprecated] ∧
      technology.redirectId = none)
    (fun ((((relation, _), _), _), _) ↦ (relation.technologyId, relation.projectId))

def responsibleRows (database : Database) (organizationId : String) (ids : List String) :
    List (String × String) :=
  select
    (join database.responsibilities database.technologies fun responsibility technology ↦
      technology.organizationId = responsibility.organizationId ∧
        technology.id = responsibility.technologyId)
    (fun (responsibility, technology) ↦
      responsibility.organizationId = organizationId ∧
      responsibility.technologyId ∈ ids ∧ responsibility.state = .current ∧
      technology.lifecycle ∈ [.active, .deprecated] ∧ technology.redirectId = none)
    (fun (responsibility, _) ↦ (responsibility.technologyId, responsibility.teamId))

/-- The projects among the scopes that team bindings reach. -/
def eligibleProjects (database : Database) (organizationId : String) (ids : List String) :
    Finset String :=
  (select
    (join database.projects database.identities fun project identity ↦
      identity.organizationId = project.organizationId ∧ identity.id = project.id)
    (fun (project, identity) ↦
      project.organizationId = organizationId ∧ project.id ∈ ids ∧ project.state = .active ∧
        identity.state = .active ∧ identity.identityNamespace = .remote)
    (fun (project, _) ↦ project.id)).toFinset

def projectTeamRows (database : Database) (organizationId : String) (projects : Finset String) :
    List (String × String) :=
  select
    (join database.projectTeams database.teams fun relation team ↦
      team.organizationId = relation.organizationId ∧ team.id = relation.teamId)
    (fun (relation, team) ↦
      relation.organizationId = organizationId ∧ relation.projectId ∈ projects ∧
        relation.state = .current ∧ team.state = .active)
    (fun (relation, _) ↦ (relation.projectId, relation.teamId))

def memberTeamRows (database : Database) (organizationId : String) (ids : List String) :
    List (String × String) :=
  select
    (join database.teamMembers database.teams fun row team ↦
      team.organizationId = row.organizationId ∧ team.id = row.teamId)
    (fun (row, team) ↦
      row.organizationId = organizationId ∧ row.accountId ∈ ids ∧ team.state = .active)
    (fun (row, _) ↦ (row.accountId, row.teamId))

def memberProjectRows (database : Database) (organizationId : String) (ids : List String) :
    List (String × String) :=
  select
    (join database.projectMembers database.projects fun row project ↦
      project.organizationId = row.organizationId ∧ project.id = row.projectId)
    (fun (row, project) ↦
      row.organizationId = organizationId ∧ row.accountId ∈ ids ∧ project.state = .active)
    (fun (row, _) ↦ (row.accountId, row.projectId))

/-- The rows of a query that is sent for one kind of scope only. -/
def rowsFor (scopeKind kind : ScopeKind) (rows : List (String × String)) :
    String → Finset String :=
  group (fun _ ↦ ∅) (if scopeKind = kind then rows else [])

def scopeMaps (database : Database) (organizationId : String) (scopeKind : ScopeKind)
    (ids : List String) : ScopeMaps :=
  let projects := rowsFor scopeKind .technology (technologyProjectRows database organizationId ids)
  let teamProjects :=
    match scopeKind with
    | .project => eligibleProjects database organizationId ids
    | .technology => ids.toFinset.biUnion projects
    | _ => ∅
  { projects := projects
    responsible := rowsFor scopeKind .technology (responsibleRows database organizationId ids)
    categories := rowsFor scopeKind .technology (categoryRows database organizationId ids)
    projectTeams := group (fun _ ↦ ∅) (projectTeamRows database organizationId teamProjects)
    memberTeams := rowsFor scopeKind .member (memberTeamRows database organizationId ids)
    memberProjects := rowsFor scopeKind .member (memberProjectRows database organizationId ids) }

/-- The arms of the clause, decided with the maps. -/
def ScopeMaps.matches (maps : ScopeMaps) (scopeKind kind : ScopeKind)
    (boundId scopeId : String) (descendants : Bool) : Bool :=
  let direct := decide (kind = .organization ∧ (descendants ∨ scopeKind = .organization) ∨
    kind = scopeKind ∧ (boundId = "*" ∨ boundId = scopeId))
  let viaProject := decide (scopeKind = .technology ∧ kind = .project ∧
    boundId ∈ maps.projects scopeId)
  let viaTeam := decide (kind = .team) &&
    match scopeKind with
    | .project => decide (boundId ∈ maps.projectTeams scopeId)
    | .technology => decide (boundId ∈
        maps.responsible scopeId ∪ (maps.projects scopeId).biUnion maps.projectTeams)
    | .member => decide (boundId ∈ maps.memberTeams scopeId)
    | _ => false
  let viaProjectMember := decide (scopeKind = .member ∧ kind = .project ∧
    boundId ∈ maps.memberProjects scopeId)
  let viaCategory := decide (scopeKind = .technology ∧ kind = .category ∧
    boundId ∈ maps.categories scopeId)
  direct || viaProject || viaTeam || viaProjectMember || viaCategory

/-- Permission sets for many scopes of one kind. -/
def bulkEffectivePermissions (database : Database) (organizationId : String)
    (principalType : PrincipalType) (principalId : String) (scopeKind : ScopeKind)
    (scopeIds : List String) : Option (List (String × Finset String)) :=
  if corporatePrincipalActive database organizationId principalType principalId none then
    let ids := scopeIds.dedup.insertionSort (· ≤ ·)
    let bindings := principalBindings database organizationId principalType principalId fun _ ↦ true
    let directGrants := principalGrants database organizationId principalType principalId
      fun _ ↦ true
    let maps := scopeMaps database organizationId scopeKind ids
    let matchedRoles := bindings.flatMap fun binding ↦
      (ids.filter fun scopeId ↦ maps.matches scopeKind binding.scopeKind binding.scopeId scopeId
        (binding.coverage = .descendants)).map fun scopeId ↦ (scopeId, binding.role)
    let matchedGrants := directGrants.flatMap fun grant ↦
      (ids.filter fun scopeId ↦
        maps.matches scopeKind grant.scopeKind grant.scopeId scopeId false).map
          fun scopeId ↦ (scopeId, grant.permission)
    let rolesPerScope := group (fun _ ↦ ∅) matchedRoles
    let grantsPerScope := group (fun _ ↦ ∅) matchedGrants
    let allRoles := (matchedRoles.map (·.2)).toFinset
    let grants := rolePermissions database organizationId
      (if allRoles = ∅ then {""} else allRoles)
    some (ids.map fun scopeId ↦
      (scopeId, (rolesPerScope scopeId).biUnion grants ∪ grantsPerScope scopeId))
  else
    none

end AiStp.Corporate
