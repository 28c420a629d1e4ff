import AiStp.Corporate.Tenant
import AiStp.Library.Json

/-!
# Mutations of the corporate tenant

Every mutation first passes one gate: the caller is authorized, the row of the organization is
locked, the caller is authorized again, and a receipt under the same key answers a repeated request
(`authorizeIdempotent`). What a handler hands to the gate and what it does behind it is a `Mutation`:
one definition for each handler, written as the handler is.
-/

set_option autoImplicit false

namespace AiStp.Corporate

open Foundation Library

/-! ### Answers -/

inductive AssignmentOperation where
  | assign
  | remove
deriving DecidableEq

inductive Response where
  | role (name : String) (permissions : List String) (revision : Nat)
  | member (accountId : String) (displayName : Option String) (role : String)
      (state : AccountState) (revision : Nat) (jobTitleId : Option String)
  | deleted (resourceId : String)
  | binding (bindingId : String) (row : BindingRow)
  | assignment (accountId : String) (teamId projectId : Option String)
      (teamRole projectRole : String) (operation : AssignmentOperation)
      (bindings : List (String × BindingRow))
  | grant (grantId : String) (row : GrantRow)
  /-- The view of a team, a project, a job title or a service principal, with its id fields. -/
  | view (ids : List (String × String)) (body : Json)

/-- The text under a name of the response body. -/
def Response.idField : Response → String → Option (Option String)
  | .deleted resourceId, "resource_id" => some (some resourceId)
  | .assignment _ teamId _ _ _ _ _, "team_id" => some teamId
  | .assignment _ _ projectId _ _ _ _, "project_id" => some projectId
  | .view ids _, name => (ids.lookup name).map some
  | _, _ => none

/-- The team or project that a response is about. -/
def Response.scopeId (response : Response) (scope : String) : Option String :=
  ((response.idField (scope ++ "_id")).or
    ((response.idField "resource_id").or (response.idField "subject_id"))).join

/-! ### What a handler hands over -/

inductive AuthorizationRevision where
  | policy (revision : Int)
  | context (text : String)
deriving DecidableEq

/-- What follows behind the gate, for a caller and the ids of new rows. -/
abbrev Effect := String → View → (Nat → String) → Except ApiError (Response × Tenant)

structure Mutation where
  permission : String
  scopeKind : ScopeKind := .organization
  scopeId : Option String := none
  operation : String
  /-- The record that the path of the request names. -/
  target : Option String := none
  authorizationRevision : AuthorizationRevision
  idempotencyKey : String
  /-- What the fingerprint covers. -/
  body : Json
  legacyBody : Option Json := none
  effect : Effect

def integerJson (value : Int) : Json := .number (.integer value)

def optionalText : Option String → Json
  | none => .null
  | some text => .string text

def textsJson (texts : List String) : Json := .array (texts.map .string)

def Tenant.bumped (tenant : Tenant) : Tenant :=
  { tenant with organization :=
    { tenant.organization with policyRevision := tenant.organization.policyRevision + 1 } }

/-- The scopes of the active bindings; each is unique. -/
def activeScopes (bindings : Table String BindingRow) :
    List (Principal × String × ScopeKind × String) :=
  (bindings.entries.filter fun entry ↦ entry.2.state = .active).map fun entry ↦
    (entry.2.principal, entry.2.role, entry.2.scopeKind, entry.2.scopeId)

def checkBindings (bindings : Table String BindingRow) : Except ApiError Unit :=
  require ((activeScopes bindings).Nodup) .internal "internal error"

def Tenant.roleExists (tenant : Tenant) (role : String) : Bool :=
  (tenant.roles.get? role).isSome

/-! ### Roles -/

/-- A lowercase letter and up to 63 letters, digits, underscores and hyphens. -/
def roleNameValid (name : String) : Bool :=
  match name.toList with
  | [] => false
  | first :: rest => first.isLower ∧ rest.length ≤ 63 ∧ rest.all fun character ↦
      character.isLower ∨ character.isDigit ∨ character = '_' ∨ character = '-'

def rolePermissionList (payload : List String) : Except ApiError (List String) := do
  require (payload.all (· ∈ knownPermissions)) .validation "corporate permission is unavailable"
  return payload.dedup.insertionSort (· ≤ ·)

structure CorporateRoleCreateRequest where
  name : String
  permissions : List String
  authorizationRevision : Int
  idempotencyKey : String

def createRole (payload : CorporateRoleCreateRequest) : Mutation where
  permission := "role.create"
  operation := "role.create"
  authorizationRevision := .policy payload.authorizationRevision
  idempotencyKey := payload.idempotencyKey
  body := .object [
    ("schema_version", integerJson 1),
    ("name", .string payload.name),
    ("permissions", textsJson payload.permissions),
    ("authorization_revision", integerJson payload.authorizationRevision)]
  effect := fun actor view _ ↦ do
    require (roleNameValid payload.name) .validation "corporate role name is invalid"
    let permissions ← rolePermissionList payload.permissions
    assertDelegablePermissions view actor permissions.toFinset
    let roles ← found (view.tenant.roles.insert? payload.name ⟨permissions, 1⟩) .conflict
      "corporate role already exists"
    return (.role payload.name permissions 1, { view.tenant.bumped with roles := roles })

/-- The row of a custom role at the revision that the request expects. -/
def customRole (view : View) (roleName : String) (expectedRevision : Nat) :
    Except ApiError RoleRow := do
  let row ← found (view.tenant.roles.get? roleName) .notFound "corporate role not found"
  require (roleName ∉ builtInRoles) .conflict "built-in corporate role is immutable"
  require (row.revision = expectedRevision) .conflict "corporate role revision changed"
  return row

structure CorporateRoleUpdateRequest where
  permissions : List String
  expectedRevision : Nat
  authorizationRevision : Int
  idempotencyKey : String

def updateRole (roleName : String) (payload : CorporateRoleUpdateRequest) : Mutation where
  permission := "role.update"
  operation := "role.update"
  target := some roleName
  authorizationRevision := .policy payload.authorizationRevision
  idempotencyKey := payload.idempotencyKey
  body := .object [
    ("schema_version", integerJson 1),
    ("permissions", textsJson payload.permissions),
    ("expected_revision", integerJson payload.expectedRevision),
    ("authorization_revision", integerJson payload.authorizationRevision)]
  effect := fun actor view _ ↦ do
    let row ← customRole view roleName payload.expectedRevision
    let permissions ← rolePermissionList payload.permissions
    assertDelegablePermissions view actor permissions.toFinset
    return (.role roleName permissions (row.revision + 1),
      { view.tenant.bumped with
        roles := view.tenant.roles.update roleName ⟨permissions, row.revision + 1⟩ })

structure CorporateRoleDeleteRequest where
  expectedRevision : Nat
  replacementRole : Option String
  authorizationRevision : Int
  idempotencyKey : String

/-- A binding or a membership names the role. -/
def Tenant.roleReferenced (tenant : Tenant) (roleName : String) : Bool :=
  tenant.bindings.entries.any (·.2.role = roleName) ||
    tenant.members.entries.any (·.2.role = roleName)

def checkReplacement (view : View) (actor roleName : String) (replacement : Option String) :
    Except ApiError Unit :=
  match replacement with
  | none => require (!view.tenant.roleReferenced roleName) .conflict
      "corporate role is still referenced"
  | some replacement => do
    require (replacement ≠ roleName) .validation "replacement role must differ from deleted role"
    require (view.tenant.roleExists replacement) .conflict
      "replacement corporate role not found"
    assertDelegableRoles view actor {replacement}

/-- The accounts whose roles a deletion changes. -/
def Tenant.affectedAccounts (tenant : Tenant) (roleName : String) : List String :=
  (tenant.bindings.entries.filter fun entry ↦ entry.2.role = roleName ∧ entry.2.state = .active ∧
    entry.2.scopeKind = .organization).filterMap (·.2.principal.accountId) ++
  (tenant.members.entries.filter (·.2.role = roleName)).map (·.1)

/-- The guard of each affected account, against the administrators as they are. -/
def checkAffected (tenant : Tenant) (roleName : String) (replacement : Option String) :
    Except ApiError Unit :=
  if tenant.roleReferenced roleName then
    (tenant.affectedAccounts roleName).forM fun accountId ↦
      assertSuperadminSurvives tenant accountId
        (((tenant.orgRoles accountId fun _ _ ↦ true) ∪ replacement.toFinset).erase roleName)
        (tenant.membershipActive accountId)
  else .ok ()

/-- The bindings after a role is replaced; those that it leaves behind are deleted. -/
def replacedBindings (bindings : Table String BindingRow) (roleName : String)
    (replacement : Option String) : Table String BindingRow :=
  match replacement with
  | none => bindings.filter fun _ row ↦ row.role ≠ roleName
  | some replacement => (bindings.filter fun _ row ↦ row.role ≠ roleName ∨ row.state = .active).mapRows
      fun _ row ↦ if row.role = roleName then
        { row with role := replacement, revision := row.revision + 1 } else row

def deleteRole (roleName : String) (payload : CorporateRoleDeleteRequest) : Mutation where
  permission := "role.delete"
  operation := "role.delete"
  target := some roleName
  authorizationRevision := .policy payload.authorizationRevision
  idempotencyKey := payload.idempotencyKey
  body := .object [
    ("schema_version", integerJson 1),
    ("expected_revision", integerJson payload.expectedRevision),
    ("authorization_revision", integerJson payload.authorizationRevision),
    ("replacement_role", optionalText payload.replacementRole)]
  effect := fun actor view _ ↦ do
    let _ ← customRole view roleName payload.expectedRevision
    checkReplacement view actor roleName payload.replacementRole
    checkAffected view.tenant roleName payload.replacementRole
    let bindings := replacedBindings view.tenant.bindings roleName payload.replacementRole
    checkBindings bindings
    return (.deleted roleName, { view.tenant.bumped with
      bindings := bindings
      members := view.tenant.members.mapRows fun _ row ↦ if row.role = roleName then
        { row with role := payload.replacementRole.getD "staff", revision := row.revision + 1 }
        else row
      roles := view.tenant.roles.filter fun name _ ↦ name ≠ roleName })

end AiStp.Corporate
