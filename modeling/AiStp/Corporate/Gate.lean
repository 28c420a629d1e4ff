import AiStp.Corporate.Bindings
import AiStp.Library.Runs

/-!
# The gate of corporate mutations

The row of the organization is locked while a mutation is decided and written, so mutations are taken
one after another; only the check before the lock may see an earlier state (`Call.seen`). A mutation
that is not refused stores its answer under its key.

The handlers of teams, projects, job titles and service principals pass the same gate. What they
write is not described here: `Handler` lists what each of them hands over, for any effect.
-/

set_option autoImplicit false

namespace AiStp.Corporate

open Foundation Library

structure CorporateMutationReceipt where
  operation : String
  requestFingerprint : String
  responseBody : Response

structure Server where
  tenant : Tenant
  receipts : Table String CorporateMutationReceipt

structure Call where
  accountId : String
  mutation : Mutation
  /-- What the check before the lock saw. -/
  seen : View
  surroundings : Surroundings
  ids : Nat → String

def Server.view (server : Server) (call : Call) : View := ⟨server.tenant, call.surroundings⟩

/-- The revision of a context names its mode, its organization and both revisions. -/
def contextAuthorizationRevision (organization : Organization) (membership : MemberRow) : String :=
  "corporate:" ++ organization.id ++ ":" ++ toString organization.policyRevision ++ ":" ++
    toString membership.revision

def revisionCurrent (organization : Organization) (membership : MemberRow) :
    AuthorizationRevision → Bool
  | .policy revision => revision = organization.policyRevision
  | .context text => text = contextAuthorizationRevision organization membership

/-- Uploads and updates of profiles, and distributions, do not repeat their scope in the answer. -/
def unscopedOperations : List String :=
  ["entity.profile.upload", "entity.profile.update", "catalog_assignment.distribute"]

def sameScope (receipt : CorporateMutationReceipt) (operation scope scopeId : String) : Bool :=
  scopeId = "*" || match receipt.responseBody.scopeId scope with
    | none => operation ∈ unscopedOperations
    | some receiptScopeId => receiptScopeId = scopeId

/-- The receipt is about the team or project of the request. -/
def scopeMatches (receipt : CorporateMutationReceipt) (mutation : Mutation) : Bool :=
  match mutation.scopeKind, mutation.scopeId with
  | .team, some scopeId => sameScope receipt mutation.operation "team" scopeId
  | .project, some scopeId => sameScope receipt mutation.operation "project" scopeId
  | _, _ => true

/-- The receipt answers the request. -/
def receiptMatches (fingerprint : Json → String) (receipt : CorporateMutationReceipt)
    (mutation : Mutation) : Bool :=
  receipt.operation = mutation.operation ∧
    (receipt.requestFingerprint = fingerprint mutation.body ∨
      mutation.legacyBody.any fun body ↦ receipt.requestFingerprint = fingerprint body) ∧
    scopeMatches receipt mutation

/-- Both checks of the caller, before and under the lock. -/
def authorized (server : Server) (call : Call) : Except ApiError MemberRow := do
  let _ ← call.seen.authorize call.accountId call.mutation.permission call.mutation.scopeKind
    call.mutation.scopeId
  (server.view call).authorize call.accountId call.mutation.permission call.mutation.scopeKind
    call.mutation.scopeId

/-- The receipt that answers the request, or nothing if the request is fresh. -/
def authorizeIdempotent (fingerprint : Json → String) (server : Server) (call : Call) :
    Except ApiError (Option CorporateMutationReceipt) := do
  let membership ← authorized server call
  match server.receipts.get? call.mutation.idempotencyKey with
  | some receipt => do
    require (receiptMatches fingerprint receipt call.mutation) .conflict
      "idempotency key was reused"
    return some receipt
  | none => do
    require (revisionCurrent server.tenant.organization membership
      call.mutation.authorizationRevision) .precondition "capability revision is stale"
    return none

/-- The answer and the state after a mutation. -/
def mutate (fingerprint : Json → String) (server : Server) (call : Call) :
    Except ApiError (Response × Server) := do
  let receipt ← authorizeIdempotent fingerprint server call
  match receipt with
  | some receipt => .ok (receipt.responseBody, server)
  | none => do
    let (response, tenant) ← call.mutation.effect call.accountId (server.view call) call.ids
    let receipts ← found (server.receipts.insert? call.mutation.idempotencyKey
      ⟨call.mutation.operation, fingerprint call.mutation.body, response⟩) .internal
      "internal error"
    return (response, ⟨tenant, receipts⟩)

/-- A refused mutation changes nothing. -/
def step (fingerprint : Json → String) (server : Server) (call : Call) : Server :=
  match mutate fingerprint server call with
  | .ok answer => answer.2
  | .error _ => server

/-! ### What a mutation does -/

section Step

variable {fingerprint : Json → String} {server : Server} {call : Call}

variable (hfresh : authorizeIdempotent fingerprint server call = .ok none)

include hfresh in
theorem authorizeIdempotent_eq_none : server.receipts.get? call.mutation.idempotencyKey = none := by
  unfold authorizeIdempotent at hfresh
  rw [bind_eq_ok] at hfresh
  obtain ⟨membership, -, hfresh⟩ := hfresh
  cases hreceipt : server.receipts.get? call.mutation.idempotencyKey with
  | none => rfl
  | some receipt =>
    rw [hreceipt] at hfresh
    dsimp only at hfresh
    rw [bind_eq_ok] at hfresh
    obtain ⟨-, -, hfresh⟩ := hfresh
    cases Except.ok.inj hfresh

include hfresh in
/-- The key of a fresh request is free, so its answer is stored. -/
theorem mutate_of_fresh {response : Response} {tenant : Tenant}
    (heffect : call.mutation.effect call.accountId (server.view call) call.ids =
      .ok (response, tenant)) :
    ∃ receipts, server.receipts.insert? call.mutation.idempotencyKey
        ⟨call.mutation.operation, fingerprint call.mutation.body, response⟩ = some receipts ∧
      mutate fingerprint server call = .ok (response, ⟨tenant, receipts⟩) := by
  have hkey : call.mutation.idempotencyKey ∉ server.receipts.entries.map Prod.fst :=
    Table.get?_eq_none.mp (authorizeIdempotent_eq_none hfresh)
  obtain ⟨receipts, hinsert⟩ : ∃ receipts, server.receipts.insert? call.mutation.idempotencyKey
      ⟨call.mutation.operation, fingerprint call.mutation.body, response⟩ = some receipts := by
    unfold Table.insert?
    rw [dif_neg hkey]
    exact ⟨_, rfl⟩
  refine ⟨receipts, hinsert, ?_⟩
  unfold mutate
  refine bind_eq_ok.mpr ⟨none, hfresh, ?_⟩
  simp only [bind_eq_ok, found_eq_ok]
  exact ⟨(response, tenant), heffect, receipts, hinsert, rfl⟩

/-- What a mutation that is not refused has done. -/
theorem mutate_eq_ok {response : Response} {after : Server}
    (h : mutate fingerprint server call = .ok (response, after)) :
    (∃ receipt, authorizeIdempotent fingerprint server call = .ok (some receipt) ∧
      response = receipt.responseBody ∧ after = server) ∨
    (authorizeIdempotent fingerprint server call = .ok none ∧
      ∃ tenant receipts, call.mutation.effect call.accountId (server.view call) call.ids =
          .ok (response, tenant) ∧
        server.receipts.insert? call.mutation.idempotencyKey
          ⟨call.mutation.operation, fingerprint call.mutation.body, response⟩ = some receipts ∧
        after = ⟨tenant, receipts⟩) := by
  unfold mutate at h
  rw [bind_eq_ok] at h
  obtain ⟨receipt, hreceipt, h⟩ := h
  cases receipt with
  | some receipt =>
    obtain ⟨hresponse, hafter⟩ := Prod.mk.inj (Except.ok.inj h)
    exact .inl ⟨receipt, hreceipt, hresponse.symm, hafter.symm⟩
  | none =>
    simp only [bind_eq_ok, found_eq_ok] at h
    obtain ⟨⟨answer, tenant⟩, heffect, receipts, hinsert, h⟩ := h
    obtain ⟨rfl, rfl⟩ := Prod.mk.inj (Except.ok.inj h)
    exact .inr ⟨hreceipt, tenant, receipts, heffect, hinsert, rfl⟩

include hfresh in
theorem step_of_fresh {response : Response} {tenant : Tenant}
    (heffect : call.mutation.effect call.accountId (server.view call) call.ids =
      .ok (response, tenant)) : (step fingerprint server call).tenant = tenant := by
  obtain ⟨receipts, -, hmutate⟩ := mutate_of_fresh hfresh heffect
  unfold step
  rw [hmutate]

/-- Only a fresh request that its handler accepts changes the tenant. -/
theorem step_tenant (fingerprint : Json → String) (server : Server) (call : Call) :
    (step fingerprint server call).tenant = server.tenant ∨
    (authorizeIdempotent fingerprint server call = .ok none ∧
      ∃ response, call.mutation.effect call.accountId (server.view call) call.ids =
        .ok (response, (step fingerprint server call).tenant)) := by
  cases hmutate : mutate fingerprint server call with
  | error error =>
    left
    unfold step
    rw [hmutate]
  | ok answer =>
    obtain ⟨response, after⟩ := answer
    have hstep : step fingerprint server call = after := by
      unfold step
      rw [hmutate]
    rw [hstep]
    rcases mutate_eq_ok hmutate with ⟨receipt, -, -, rfl⟩ | ⟨hfresh, tenant, receipts, heffect, -,
      rfl⟩
    · exact .inl rfl
    · exact .inr ⟨hfresh, response, heffect⟩

end Step

def Server.bootstrap (organizationId accountId bindingId : String) : Server :=
  ⟨Corporate.bootstrap organizationId accountId bindingId, .empty⟩

/-! ### Requests -/

/-- A request about a role, a member, a binding, an assignment or a direct grant. -/
inductive Request where
  | createRole (payload : CorporateRoleCreateRequest)
  | updateRole (roleName : String) (payload : CorporateRoleUpdateRequest)
  | deleteRole (roleName : String) (payload : CorporateRoleDeleteRequest)
  | createMember (payload : CorporateMemberCreateRequest)
  | updateMember (accountId : String) (payload : CorporateMemberUpdateRequest)
  | deleteMember (accountId : String) (payload : CorporateDeleteRequest)
  | assignMember (payload : CorporateMembershipAssignmentRequest)
  | createBinding (payload : CorporateBindingRequest)
  | updateBinding (bindingId : String) (payload : CorporateBindingUpdateRequest)
  | deleteBinding (bindingId : String) (payload : CorporateDeleteRequest)
  | createPermissionGrant (payload : CorporatePermissionGrantRequest)
  | revokePermissionGrant (grantId : String) (payload : CorporateDeleteRequest)

/-- What the handler of a request does. -/
def Request.mutation : Request → Mutation
  | .createRole payload => Corporate.createRole payload
  | .updateRole roleName payload => Corporate.updateRole roleName payload
  | .deleteRole roleName payload => Corporate.deleteRole roleName payload
  | .createMember payload => Corporate.createMember payload
  | .updateMember accountId payload => Corporate.updateMember accountId payload
  | .deleteMember accountId payload => Corporate.deleteMember accountId payload
  | .assignMember payload => Corporate.assignMember payload
  | .createBinding payload => Corporate.createBinding payload
  | .updateBinding bindingId payload => Corporate.updateBinding bindingId payload
  | .deleteBinding bindingId payload => Corporate.deleteBinding bindingId payload
  | .createPermissionGrant payload => Corporate.createPermissionGrant payload
  | .revokePermissionGrant grantId payload => Corporate.revokePermissionGrant grantId payload

/-- A request of an account, with what its statements see. -/
structure RequestCall where
  accountId : String
  request : Request
  seen : View
  surroundings : Surroundings
  ids : Nat → String

def RequestCall.call (call : RequestCall) : Call :=
  ⟨call.accountId, call.request.mutation, call.seen, call.surroundings, call.ids⟩

def stepRequest (fingerprint : Json → String) (server : Server) (call : RequestCall) : Server :=
  step fingerprint server call.call

end AiStp.Corporate
