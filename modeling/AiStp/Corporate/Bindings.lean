import AiStp.Corporate.Members

/-!
# Direct bindings and permission grants

Bindings that no membership, assignment or service principal owns, and grants of single permissions.
-/

set_option autoImplicit false

namespace AiStp.Corporate

open Foundation Library

/-- The record that a scope names is there. -/
def View.scopeTargetExists (view : View) (scopeKind : ScopeKind) (scopeId : String) : Bool :=
  match scopeKind with
  | .organization => scopeId = "*" ∨ scopeId = view.tenant.organization.id
  | .team => view.surroundings.teams.any fun team ↦
      team.organizationId = view.tenant.organization.id ∧ team.id = scopeId ∧ team.state = .active
  | .project => view.surroundings.projects.any fun project ↦
      project.organizationId = view.tenant.organization.id ∧ project.id = scopeId ∧
        project.state = .active
  | .technology => view.surroundings.technologies.any fun technology ↦
      technology.organizationId = view.tenant.organization.id ∧ technology.id = scopeId ∧
        technology.lifecycle ∈ [.active, .deprecated] ∧ technology.redirectId = none
  | .catalogObject => scopeId ∈ view.surroundings.catalogObjects
  | .category => scopeId ∈ view.surroundings.activeCategories
  | _ => false

def ScopeKind.text : ScopeKind → String
  | .system => "system"
  | .organization => "organization"
  | .team => "team"
  | .project => "project"
  | .technology => "technology"
  | .category => "category"
  | .catalogObject => "catalog_object"
  | .telemetry => "telemetry"
  | .member => "member"
  | .other name => name

def Coverage.text : Coverage → String
  | .self => "self"
  | .descendants => "descendants"

def RowState.text : RowState → String
  | .active => "active"
  | .revoked => "revoked"

/-- No other active binding has the scope. -/
def scopeFree (bindings : Table String BindingRow) (bindingId : Option String)
    (principal : Principal) (role : String) (scopeKind : ScopeKind) (scopeId : String) : Bool :=
  bindings.entries.all fun entry ↦ some entry.1 = bindingId ∨ ¬ (entry.2.principal = principal ∧
    entry.2.role = role ∧ entry.2.scopeKind = scopeKind ∧ entry.2.scopeId = scopeId ∧
      entry.2.state = .active)

/-! ### Creation -/

structure CorporateBindingRequest where
  accountId : String
  role : String
  scopeKind : ScopeKind
  scopeId : String
  coverage : Coverage
  authorizationRevision : Int
  idempotencyKey : String

def createBinding (payload : CorporateBindingRequest) : Mutation where
  permission := "binding.create"
  operation := "binding.create"
  authorizationRevision := .policy payload.authorizationRevision
  idempotencyKey := payload.idempotencyKey
  body := .object [
    ("schema_version", integerJson 1),
    ("account_id", .string payload.accountId),
    ("role", .string payload.role),
    ("scope_kind", .string payload.scopeKind.text),
    ("scope_id", .string payload.scopeId),
    ("coverage", .string payload.coverage.text),
    ("authorization_revision", integerJson payload.authorizationRevision)]
  effect := fun actor view ids ↦ do
    ensureRoleExists view payload.role
    require (view.tenant.membershipActive payload.accountId) .permission "member access denied"
    require (view.scopeTargetExists payload.scopeKind payload.scopeId) .permission
      "binding scope denied"
    assertDelegableRoles view actor {payload.role}
    assertDelegableCoverage view actor payload.coverage
    require (scopeFree view.tenant.bindings none (.user payload.accountId) payload.role
      payload.scopeKind payload.scopeId) .conflict "binding already exists"
    let row : BindingRow :=
      ⟨.user payload.accountId, payload.role, payload.scopeKind, payload.scopeId, .active, .direct,
        payload.coverage, 1⟩
    let bindings ← insertBindings view.tenant.bindings ids 0 [row]
    checkBindings bindings
    return (.binding (ids 0) row, { view.tenant.bumped with bindings := bindings })

/-! ### Changes -/

structure CorporateBindingUpdateRequest where
  role : String
  scopeKind : ScopeKind
  scopeId : String
  coverage : Coverage
  state : RowState
  expectedRevision : Nat
  authorizationRevision : Int
  idempotencyKey : String

/-- The row of a binding that only this interface changes. -/
def directBinding (view : View) (bindingId : String) (expectedRevision : Nat) :
    Except ApiError BindingRow := do
  let row ← found (view.tenant.bindings.get? bindingId) .permission "binding access denied"
  require (row.revision = expectedRevision) .conflict "binding revision changed"
  require (row.origin = .direct) .conflict "binding is managed by its owner"
  return row

/-- The checks of a binding that is to be active. -/
def checkActiveBinding (view : View) (actor : String) (payload : CorporateBindingUpdateRequest) :
    Except ApiError Unit := do
  require (view.scopeTargetExists payload.scopeKind payload.scopeId) .permission
    "binding scope denied"
  assertDelegableRoles view actor {payload.role}
  assertDelegableCoverage view actor payload.coverage

def checkActivation (view : View) (actor : String) (payload : CorporateBindingUpdateRequest) :
    Except ApiError Unit :=
  if payload.state = .active then checkActiveBinding view actor payload else .ok ()

def checkUpdatedBinding (view : View) (actor bindingId : String) (row : BindingRow)
    (payload : CorporateBindingUpdateRequest) : Except ApiError Unit := do
  checkActivation view actor payload
  require (payload.state = .revoked ∨ scopeFree view.tenant.bindings (some bindingId) row.principal
    payload.role payload.scopeKind payload.scopeId) .conflict "binding already exists"

/-- The organization-scope roles of a member after one of its bindings changes. -/
def Tenant.memberOrgRolesAfter (tenant : Tenant) (accountId bindingId : String)
    (replacement : Option (ScopeKind × String)) : Finset String :=
  let roles := tenant.orgRoles accountId fun id _ ↦ id ≠ bindingId
  match replacement with
  | some (.organization, role) => insert role roles
  | _ => roles

/-- The guard of a binding that is changed or deleted. -/
def checkBindingOwner (tenant : Tenant) (bindingId : String) (row : BindingRow)
    (replacement : Option (ScopeKind × String)) : Except ApiError Unit :=
  match row.principal with
  | .user accountId => assertSuperadminSurvives tenant accountId
      (tenant.memberOrgRolesAfter accountId bindingId replacement)
      (tenant.membershipActive accountId)
  | .servicePrincipal _ => .ok ()

def updateBinding (bindingId : String) (payload : CorporateBindingUpdateRequest) : Mutation where
  permission := "binding.update"
  operation := "binding.update"
  target := some bindingId
  authorizationRevision := .policy payload.authorizationRevision
  idempotencyKey := payload.idempotencyKey
  body := .object [
    ("schema_version", integerJson 1),
    ("role", .string payload.role),
    ("scope_kind", .string payload.scopeKind.text),
    ("scope_id", .string payload.scopeId),
    ("coverage", .string payload.coverage.text),
    ("state", .string payload.state.text),
    ("expected_revision", integerJson payload.expectedRevision),
    ("authorization_revision", integerJson payload.authorizationRevision)]
  effect := fun actor view _ ↦ do
    let row ← directBinding view bindingId payload.expectedRevision
    ensureRoleExists view payload.role
    checkUpdatedBinding view actor bindingId row payload
    checkBindingOwner view.tenant bindingId row
      (if payload.state = .active then some (payload.scopeKind, payload.role) else none)
    let after : BindingRow := { row with
      role := payload.role
      scopeKind := payload.scopeKind
      scopeId := payload.scopeId
      coverage := payload.coverage
      state := payload.state
      revision := row.revision + 1 }
    let bindings := view.tenant.bindings.update bindingId after
    checkBindings bindings
    return (.binding bindingId after, { view.tenant.bumped with bindings := bindings })

def deleteBinding (bindingId : String) (payload : CorporateDeleteRequest) : Mutation where
  permission := "binding.delete"
  operation := "binding.delete"
  target := some bindingId
  authorizationRevision := .policy payload.authorizationRevision
  idempotencyKey := payload.idempotencyKey
  body := payload.dump
  effect := fun _ view _ ↦ do
    let row ← directBinding view bindingId payload.expectedRevision
    checkBindingOwner view.tenant bindingId row none
    return (.deleted bindingId, { view.tenant.bumped with
      bindings := view.tenant.bindings.filter fun id _ ↦ id ≠ bindingId })

/-! ### Permission grants -/

structure CorporatePermissionGrantRequest where
  principal : Principal
  permission : String
  scopeKind : ScopeKind
  scopeId : String
  authorizationRevision : Int
  idempotencyKey : String

def checkGrantPrincipal (view : View) : Principal → Except ApiError Unit
  | .user accountId => require (view.tenant.membershipActive accountId) .permission
      "member access denied"
  | .servicePrincipal id => require (view.surroundings.servicePrincipals.any fun principal ↦
      principal.organizationId = view.tenant.organization.id ∧ principal.id = id) .permission
      "service principal access denied"

/-- No active grant is the same. -/
def grantFree (grants : Table String GrantRow) (principal : Principal) (permission : String)
    (scopeKind : ScopeKind) (scopeId : String) : Bool :=
  grants.entries.all fun entry ↦ ¬ (entry.2.principal = principal ∧
    entry.2.permission = permission ∧ entry.2.scopeKind = scopeKind ∧
      entry.2.scopeId = scopeId ∧ entry.2.state = .active)

def createPermissionGrant (payload : CorporatePermissionGrantRequest) : Mutation where
  permission := "binding.create"
  operation := "permission_grant.create"
  authorizationRevision := .policy payload.authorizationRevision
  idempotencyKey := payload.idempotencyKey
  body := .object [
    ("schema_version", integerJson 1),
    ("account_id", optionalText payload.principal.accountId),
    ("service_principal_id", optionalText payload.principal.servicePrincipalId),
    ("permission", .string payload.permission),
    ("scope_kind", .string payload.scopeKind.text),
    ("scope_id", .string payload.scopeId),
    ("authorization_revision", integerJson payload.authorizationRevision)]
  effect := fun actor view ids ↦ do
    require (payload.permission ∈ knownPermissions) .validation "permission is not enforceable"
    checkGrantPrincipal view payload.principal
    let scopeId :=
      if payload.scopeKind = .organization then view.tenant.organization.id else payload.scopeId
    require (view.scopeTargetExists payload.scopeKind payload.scopeId) .permission
      "grant scope denied"
    assertDelegablePermissions view actor {payload.permission}
    require (grantFree view.tenant.grants payload.principal payload.permission payload.scopeKind
      scopeId) .conflict "permission grant already exists"
    let row : GrantRow :=
      ⟨payload.principal, payload.permission, payload.scopeKind, scopeId, actor, .active, 1⟩
    let grants ← found (view.tenant.grants.insert? (ids 0) row) .internal "internal error"
    return (.grant (ids 0) row, { view.tenant.bumped with grants := grants })

/-- The tenant after a grant is revoked; a revoked grant stays as it is. -/
def revokedGrant (tenant : Tenant) (grantId : String) (row : GrantRow) : GrantRow × Tenant :=
  if row.state = .active then
    let after : GrantRow := { row with state := .revoked, revision := row.revision + 1 }
    (after, { tenant.bumped with grants := tenant.grants.update grantId after })
  else (row, tenant)

def revokePermissionGrant (grantId : String) (payload : CorporateDeleteRequest) : Mutation where
  permission := "binding.delete"
  operation := "permission_grant.revoke"
  target := some grantId
  authorizationRevision := .policy payload.authorizationRevision
  idempotencyKey := payload.idempotencyKey
  body := payload.dump
  effect := fun _ view _ ↦ do
    let row ← found (view.tenant.grants.get? grantId) .permission "permission grant access denied"
    require (row.revision = payload.expectedRevision) .conflict
      "permission grant revision changed"
    let answer := revokedGrant view.tenant grantId row
    return (.grant grantId answer.1, answer.2)

end AiStp.Corporate
