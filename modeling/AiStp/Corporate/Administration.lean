import AiStp.Corporate.Agreement
import AiStp.Corporate.Gate
import AiStp.Foundation.Platform

/-!
# The last administrator

A change of one account is guarded: it keeps the account an administrator, or another one is there
(`guarded`). Two mutations change the roles of several accounts at once. An update of a role has no
guard, and a deletion that replaces a role asks for each affected account whether another
administrator is there, although that one may be affected too.

`administrator_kept` says when an organization keeps an administrator: in the runs whose role updates
and role replacements leave one administrator who still covers the permissions of `superadmin`.
-/

set_option autoImplicit false

namespace AiStp.Corporate

open Foundation Library

/-- Someone administers the organization: an active member whose active organization-scope bindings
carry the whole permission set of `superadmin`. -/
def Tenant.Administered (tenant : Tenant) : Prop :=
  ∃ accountId, tenant.membershipActive accountId = true ∧
    superadminPermissions.toFinset ⊆
      (tenant.orgRoles accountId fun _ _ ↦ true).biUnion tenant.permissionsOf

/-- The role `superadmin` is as it was made. -/
def Tenant.Founded (tenant : Tenant) : Prop :=
  ∃ row, tenant.roles.get? "superadmin" = some row ∧ row.permissions = superadminPermissions

/-- The organization has an administrator, and the role `superadmin` is as it was made. -/
structure Tenant.Governed (tenant : Tenant) : Prop where
  superadmin : tenant.Founded
  administered : tenant.Administered

/-! ### Who administers -/

section Administrators

variable {tenant : Tenant} {accountId : String}

theorem mem_orgRoles {keep : String → BindingRow → Bool} {role : String} :
    role ∈ tenant.orgRoles accountId keep ↔ ∃ id row, tenant.bindings.get? id = some row ∧
      row.administers accountId = true ∧ keep id row = true ∧ row.role = role := by
  unfold Tenant.orgRoles
  simp only [List.mem_toFinset, List.mem_map, List.mem_filter, decide_eq_true_eq, Prod.exists,
    ← Table.mem_entries, and_assoc]

theorem Tenant.Governed.adminSet (h : tenant.Governed) :
    tenant.adminSet = superadminPermissions.toFinset := by
  obtain ⟨row, hrow, hpermissions⟩ := h.superadmin
  unfold Tenant.adminSet Tenant.permissionsOf
  rw [hrow, Option.map_some, Option.getD_some, hpermissions]

theorem superadminPermissions_ne_empty : superadminPermissions.toFinset ≠ ∅ := by
  apply Finset.nonempty_iff_ne_empty.mp
  exact ⟨"organization.read", List.mem_toFinset.mpr (by simp [superadminPermissions])⟩

/-- An administrator, as the guards find it. -/
theorem mem_administrators (h : tenant.Governed) :
    accountId ∈ tenant.administrators ↔ tenant.membershipActive accountId = true ∧
      superadminPermissions.toFinset ⊆
        (tenant.orgRoles accountId fun _ _ ↦ true).biUnion tenant.permissionsOf := by
  unfold Tenant.administrators
  have hne : tenant.adminSet ≠ ∅ := by
    rw [h.adminSet]
    exact superadminPermissions_ne_empty
  rw [if_neg hne, Finset.mem_filter]
  unfold Tenant.covers
  rw [h.adminSet, decide_eq_true_eq]
  constructor
  · rintro ⟨hbound, hcovers⟩
    unfold Tenant.boundAccounts at hbound
    rw [List.mem_toFinset, List.mem_filter, decide_eq_true_eq] at hbound
    exact ⟨hbound.2.1, hcovers⟩
  · rintro ⟨hactive, hcovers⟩
    have hroles : (tenant.orgRoles accountId fun _ _ ↦ true) ≠ ∅ := by
      intro hnone
      rw [hnone, Finset.biUnion_empty, Finset.subset_empty] at hcovers
      exact superadminPermissions_ne_empty hcovers
    refine ⟨?_, hcovers⟩
    obtain ⟨role, hrole⟩ := Finset.nonempty_iff_ne_empty.mpr hroles
    obtain ⟨id, row, hrow, hadministers, -⟩ := mem_orgRoles.mp hrole
    have hprincipal : row.principal = .user accountId := (of_decide_eq_true hadministers).1
    unfold Tenant.boundAccounts
    rw [List.mem_toFinset, List.mem_filter]
    refine ⟨List.mem_filterMap.mpr ⟨(id, row), Table.mem_entries.mpr hrow, ?_⟩,
      decide_eq_true ⟨hactive, hroles⟩⟩
    rw [hprincipal]
    rfl

theorem administered_iff (h : tenant.Governed) :
    tenant.Administered ↔ ∃ accountId, accountId ∈ tenant.administrators :=
  exists_congr fun _ ↦ (mem_administrators h).symm

end Administrators

/-! ### What a mutation leaves of an administrator -/

variable {orgRolesAfter : Finset String} {membershipActiveAfter : Bool}

section Kept

variable {before after : Tenant} {accountId : String}

/-- The account loses neither its membership nor an organization-scope role. -/
structure Stays (before after : Tenant) (accountId : String) : Prop where
  active : before.membershipActive accountId = true → after.membershipActive accountId = true
  roles : (before.orgRoles accountId fun _ _ ↦ true) ⊆ after.orgRoles accountId fun _ _ ↦ true

/-- No role that is still there loses a permission. -/
def Grows (before after : Tenant) : Prop :=
  ∀ role, before.permissionsOf role ⊆ after.permissionsOf role

theorem Stays.administers (h : Stays before after accountId) (hgrows : Grows before after)
    (hactive : before.membershipActive accountId = true) (hcovers : superadminPermissions.toFinset ⊆
      (before.orgRoles accountId fun _ _ ↦ true).biUnion before.permissionsOf) :
    after.Administered := by
  refine ⟨accountId, h.active hactive, hcovers.trans ?_⟩
  intro permission hpermission
  obtain ⟨role, hrole, hmem⟩ := Finset.mem_biUnion.mp hpermission
  exact Finset.mem_biUnion.mpr ⟨role, h.roles hrole, hgrows role hmem⟩

/-- A mutation that takes nothing from anyone. -/
theorem administered_of_stays (h : before.Governed) (hstays : ∀ accountId, Stays before after accountId)
    (hgrows : Grows before after) : after.Administered := by
  obtain ⟨accountId, hactive, hcovers⟩ := h.administered
  exact (hstays accountId).administers hgrows hactive hcovers

/-- What the guard of the last administrator has established. -/
theorem assertSuperadminSurvives_eq_ok (h : before.Governed)
    (hguard : assertSuperadminSurvives before accountId orgRolesAfter membershipActiveAfter =
      .ok ()) :
    accountId ∉ before.administrators ∨
      (membershipActiveAfter = true ∧ superadminPermissions.toFinset ⊆
        orgRolesAfter.biUnion before.permissionsOf) ∨
      1 < before.administrators.card := by
  unfold assertSuperadminSurvives at hguard
  by_cases habsent : accountId ∉ before.administrators
  · exact .inl habsent
  · rw [if_neg habsent] at hguard
    right
    by_cases hsurvives : membershipActiveAfter = true ∧ orgRolesAfter ≠ ∅ ∧
        before.covers orgRolesAfter = true
    · obtain ⟨hactive, -, hcovers⟩ := hsurvives
      unfold Tenant.covers at hcovers
      rw [h.adminSet, decide_eq_true_eq] at hcovers
      exact .inl ⟨hactive, hcovers⟩
    · rw [if_neg hsurvives, require_eq_ok, decide_eq_true_eq] at hguard
      exact .inr hguard

/-- A guarded change of one account. -/
theorem guarded (h : before.Governed) (hguard : accountId ∉ before.administrators ∨
      (membershipActiveAfter = true ∧ superadminPermissions.toFinset ⊆
        orgRolesAfter.biUnion before.permissionsOf) ∨
      1 < before.administrators.card)
    (hothers : ∀ other, other ≠ accountId → Stays before after other) (hgrows : Grows before after)
    (hactive : membershipActiveAfter = true → after.membershipActive accountId = true)
    (hroles : orgRolesAfter ⊆ after.orgRoles accountId fun _ _ ↦ true) : after.Administered := by
  have hother : ∀ other, other ≠ accountId → other ∈ before.administrators →
      after.Administered := by
    intro other hne hadmin
    obtain ⟨hmember, hcovers⟩ := (mem_administrators h).mp hadmin
    exact (hothers other hne).administers hgrows hmember hcovers
  rcases hguard with habsent | ⟨hmember, hcovers⟩ | htwo
  · obtain ⟨other, hadmin⟩ := (administered_iff h).mp h.administered
    refine hother other ?_ hadmin
    intro hsame
    exact habsent (hsame ▸ hadmin)
  · refine ⟨accountId, hactive hmember, hcovers.trans ?_⟩
    intro permission hpermission
    obtain ⟨role, hrole, hmem⟩ := Finset.mem_biUnion.mp hpermission
    exact Finset.mem_biUnion.mpr ⟨role, hroles hrole, hgrows role hmem⟩
  · obtain ⟨other, hadmin, hne⟩ := Finset.exists_mem_ne htwo accountId
    exact hother other hne hadmin

/-! ### Bindings and roles that stay -/

/-- Bindings that are kept keep the roles of every account. -/
theorem orgRoles_of_keeps (hkeeps : ∀ id row, before.bindings.get? id = some row →
      row.administers accountId = true →
        ∃ later, after.bindings.get? id = some later ∧ later.administers accountId = true ∧
          later.role = row.role) :
    (before.orgRoles accountId fun _ _ ↦ true) ⊆ after.orgRoles accountId fun _ _ ↦ true := by
  intro role hrole
  obtain ⟨id, row, hrow, hadministers, -, hsame⟩ := mem_orgRoles.mp hrole
  obtain ⟨later, hlater, hlaterAdministers, hlaterRole⟩ := hkeeps id row hrow hadministers
  exact mem_orgRoles.mpr ⟨id, later, hlater, hlaterAdministers, rfl, hlaterRole.trans hsame⟩

theorem insertBindings_keeps {ids : Nat → String} {start : Nat} {rows : List BindingRow}
    {bindings written : Table String BindingRow}
    (h : insertBindings bindings ids start rows = .ok written) : bindings.Keeps Eq written := by
  induction rows generalizing bindings start with
  | nil =>
    rw [← Except.ok.inj h]
    exact .refl (fun _ ↦ rfl) _
  | cons row rows ih =>
    unfold insertBindings at h
    simp only [bind_eq_ok, found_eq_ok] at h
    obtain ⟨next, hinsert, hrest⟩ := h
    exact (Table.keeps_insert? (fun _ ↦ rfl) hinsert).trans (fun _ _ _ h h' ↦ h.trans h') (ih hrest)

/-- Bindings that are only added. -/
theorem orgRoles_of_insert (hkeeps : before.bindings.Keeps Eq after.bindings) :
    (before.orgRoles accountId fun _ _ ↦ true) ⊆ after.orgRoles accountId fun _ _ ↦ true := by
  apply orgRoles_of_keeps
  intro id row hrow hadministers
  obtain ⟨later, hlater, rfl⟩ := hkeeps id row hrow
  exact ⟨row, hlater, hadministers, rfl⟩

theorem grows_of_roles (hroles : before.roles.Keeps (fun row later ↦
    row.permissions = later.permissions) after.roles) : Grows before after := by
  intro role permission hpermission
  unfold Tenant.permissionsOf at hpermission ⊢
  cases hrow : before.roles.get? role with
  | none =>
    rw [hrow] at hpermission
    exact absurd hpermission (Finset.notMem_empty permission)
  | some row =>
    obtain ⟨later, hlater, hsame⟩ := hroles role row hrow
    rw [hrow, Option.map_some, Option.getD_some, hsame] at hpermission
    rw [hlater, Option.map_some, Option.getD_some]
    exact hpermission

theorem grows_of_same (hroles : after.roles = before.roles) : Grows before after := by
  apply grows_of_roles
  intro role row hrow
  exact ⟨row, by rw [hroles, hrow], rfl⟩

end Kept

/-! ### Mutations that take nothing away -/

variable {row : BindingRow}

section Growing

variable {actor : String} {view : View} {ids : Nat → String} {response : Response}
  {after : Tenant}

section

variable (h : view.tenant.Governed)
include h

/-- The roles, the members and the bindings are as they were or grew. -/
theorem governed_of_keeps (hroles : view.tenant.roles.Keeps Eq after.roles)
    (hmembers : view.tenant.members.Keeps Eq after.members)
    (hbindings : ∀ accountId, (view.tenant.orgRoles accountId fun _ _ ↦ true) ⊆
      after.orgRoles accountId fun _ _ ↦ true) : after.Governed where
  superadmin := by
    obtain ⟨row, hrow, hpermissions⟩ := h.superadmin
    obtain ⟨later, hlater, rfl⟩ := hroles _ row hrow
    exact ⟨row, hlater, hpermissions⟩
  administered := by
    apply administered_of_stays h
    · intro accountId
      refine ⟨?_, hbindings accountId⟩
      intro hactive
      unfold Tenant.membershipActive at hactive ⊢
      cases hrow : view.tenant.members.get? accountId with
      | none =>
        rw [hrow] at hactive
        cases hactive
      | some row =>
        obtain ⟨later, hlater, rfl⟩ := hmembers _ row hrow
        rw [hrow] at hactive
        rw [hlater]
        exact hactive
    · apply grows_of_roles
      intro role row hrow
      obtain ⟨later, hlater, rfl⟩ := hroles _ row hrow
      exact ⟨row, hlater, rfl⟩

theorem createRole_governed {payload : CorporateRoleCreateRequest}
    (heffect : (createRole payload).effect actor view ids = .ok (response, after)) :
    after.Governed := by
  unfold createRole at heffect
  simp only [bind_eq_ok, require_eq_ok, found_eq_ok] at heffect
  obtain ⟨-, -, permissions, -, -, -, roles, hinsert, hafter⟩ := heffect
  obtain ⟨-, rfl⟩ := Prod.mk.inj (Except.ok.inj hafter)
  exact governed_of_keeps h (Table.keeps_insert? (fun _ ↦ rfl) hinsert) (.refl (fun _ ↦ rfl) _)
    fun _ ↦ subset_rfl

theorem createMember_governed {payload : CorporateMemberCreateRequest}
    (heffect : (createMember payload).effect actor view ids = .ok (response, after)) :
    after.Governed := by
  unfold createMember insertMembershipGraph at heffect
  simp only [bind_eq_ok, require_eq_ok, found_eq_ok] at heffect
  obtain ⟨-, -, -, -, -, -, -, -, -, -, -, -, -, -, -, -, tenant, ⟨members, hmembers, bindings,
    hbindings, -, -, teamMembers, -, projectMembers, -, htenant⟩, hafter⟩ := heffect
  obtain ⟨-, rfl⟩ := Prod.mk.inj (Except.ok.inj hafter)
  obtain rfl := Except.ok.inj htenant
  exact governed_of_keeps h (.refl (fun _ ↦ rfl) _) (Table.keeps_insert? (fun _ ↦ rfl) hmembers)
    fun _ ↦ orgRoles_of_insert (insertBindings_keeps hbindings)

theorem createBinding_governed {payload : CorporateBindingRequest}
    (heffect : (createBinding payload).effect actor view ids = .ok (response, after)) :
    after.Governed := by
  unfold createBinding at heffect
  simp only [bind_eq_ok, require_eq_ok] at heffect
  obtain ⟨-, -, -, -, -, -, -, -, -, -, -, -, bindings, hbindings, -, -, hafter⟩ := heffect
  obtain ⟨-, rfl⟩ := Prod.mk.inj (Except.ok.inj hafter)
  exact governed_of_keeps h (.refl (fun _ ↦ rfl) _) (.refl (fun _ ↦ rfl) _)
    fun _ ↦ orgRoles_of_insert (insertBindings_keeps hbindings)

theorem createPermissionGrant_governed {payload : CorporatePermissionGrantRequest}
    (heffect : (createPermissionGrant payload).effect actor view ids = .ok (response, after)) :
    after.Governed := by
  unfold createPermissionGrant at heffect
  simp only [bind_eq_ok, require_eq_ok, found_eq_ok] at heffect
  obtain ⟨-, -, -, -, -, -, -, -, -, -, grants, -, hafter⟩ := heffect
  obtain ⟨-, rfl⟩ := Prod.mk.inj (Except.ok.inj hafter)
  exact governed_of_keeps h (.refl (fun _ ↦ rfl) _) (.refl (fun _ ↦ rfl) _) fun _ ↦ subset_rfl

theorem revokePermissionGrant_governed {grantId : String} {payload : CorporateDeleteRequest}
    (heffect : (revokePermissionGrant grantId payload).effect actor view ids =
      .ok (response, after)) : after.Governed := by
  unfold revokePermissionGrant at heffect
  simp only [bind_eq_ok, require_eq_ok, found_eq_ok] at heffect
  obtain ⟨row, -, -, -, hafter⟩ := heffect
  obtain ⟨-, rfl⟩ := Prod.mk.inj (Except.ok.inj hafter)
  unfold revokedGrant
  split_ifs
  · exact governed_of_keeps h (.refl (fun _ ↦ rfl) _) (.refl (fun _ ↦ rfl) _) fun _ ↦ subset_rfl
  · exact h

end

/-! ### Assignments -/

/-- Only bindings at the scope of an assignment are revoked. -/
theorem revokeAssigned_administers {bindings : Table String BindingRow} {accountId : String}
    {scope : Option AssignedScope}
    (hscope : ∀ held, scope = some held → held.scopeKind ≠ .organization) {other id : String}
    (hrow : bindings.get? id = some row) (hadministers : row.administers other = true) :
    (revokeAssigned bindings accountId scope).get? id = some row := by
  cases scope with
  | none => exact hrow
  | some held =>
    show (bindings.mapRows _).get? id = some row
    rw [Table.get?_mapRows, hrow, Option.map_some, if_neg]
    rintro ⟨-, hkind, -⟩
    have horganization : row.scopeKind = .organization := (of_decide_eq_true hadministers).2.1
    rw [horganization] at hkind
    exact hscope held rfl hkind.symm

theorem optionalScope_kind {id : Option String} {check : String → Except ApiError AssignedScope}
    {scope : Option AssignedScope} (h : optionalScope id check = .ok scope)
    (hcheck : ∀ id held, check id = .ok held → held.scopeKind ≠ .organization) :
    ∀ held, scope = some held → held.scopeKind ≠ .organization := by
  unfold optionalScope at h
  cases id with
  | none =>
    intro held hheld
    rw [← Except.ok.inj h] at hheld
    cases hheld
  | some id =>
    intro held hheld
    subst hheld
    change (check id).map some = .ok (some held) at h
    cases hresult : check id with
    | error error =>
      rw [hresult] at h
      cases h
    | ok found =>
      rw [hresult] at h
      rw [← Option.some.inj (Except.ok.inj h)]
      exact hcheck id found hresult

theorem checkAssignedTeam_kind {payload : CorporateMembershipAssignmentRequest} {teamId : String}
    {scope : AssignedScope} (h : checkAssignedTeam view actor payload teamId = .ok scope) :
    scope.scopeKind ≠ .organization := by
  unfold checkAssignedTeam at h
  simp only [bind_eq_ok] at h
  obtain ⟨-, -, -, -, h⟩ := h
  rw [← Except.ok.inj h]
  exact ScopeKind.noConfusion

theorem checkAssignedProject_kind {payload : CorporateMembershipAssignmentRequest}
    {projectId : String} {scope : AssignedScope}
    (h : checkAssignedProject view actor payload projectId = .ok scope) :
    scope.scopeKind ≠ .organization := by
  unfold checkAssignedProject at h
  simp only [bind_eq_ok] at h
  obtain ⟨-, -, -, -, h⟩ := h
  rw [← Except.ok.inj h]
  exact ScopeKind.noConfusion

theorem assignMember_governed {payload : CorporateMembershipAssignmentRequest}
    (h : view.tenant.Governed)
    (heffect : (assignMember payload).effect actor view ids = .ok (response, after)) :
    after.Governed := by
  unfold assignMember at heffect
  simp only [bind_eq_ok, require_eq_ok, found_eq_ok] at heffect
  obtain ⟨-, -, member, -, team, hteam, project, hproject, bindings, hbindings, -, -, hafter⟩ :=
    heffect
  obtain ⟨-, rfl⟩ := Prod.mk.inj (Except.ok.inj hafter)
  refine governed_of_keeps h (.refl (fun _ ↦ rfl) _) (.refl (fun _ ↦ rfl) _) ?_
  intro accountId
  apply orgRoles_of_keeps
  intro id row hrow hadministers
  have hfirst : (revokeAssigned view.tenant.bindings payload.accountId team).get? id = some row :=
    revokeAssigned_administers (optionalScope_kind hteam fun _ _ ↦ checkAssignedTeam_kind) hrow
      hadministers
  have hsecond : (revokeAssigned (revokeAssigned view.tenant.bindings payload.accountId team)
      payload.accountId project).get? id = some row :=
    revokeAssigned_administers (optionalScope_kind hproject fun _ _ ↦ checkAssignedProject_kind)
      hfirst hadministers
  obtain ⟨later, hlater, rfl⟩ := insertBindings_keeps hbindings id row hsecond
  exact ⟨row, hlater, hadministers, rfl⟩

end Growing

/-! ### Guarded mutations -/

section Guarded

variable {before after : Tenant} {accountId actor : String} {view : View} {ids : Nat → String}
  {response : Response}

/-- A guarded change of one account that leaves the roles as they are. -/
theorem governed_of_guarded (h : before.Governed) (hroles : after.roles = before.roles)
    (hguard : accountId ∉ before.administrators ∨
      (membershipActiveAfter = true ∧ superadminPermissions.toFinset ⊆
        orgRolesAfter.biUnion before.permissionsOf) ∨
      1 < before.administrators.card)
    (hothers : ∀ other, other ≠ accountId → Stays before after other)
    (hactive : membershipActiveAfter = true → after.membershipActive accountId = true)
    (hkept : orgRolesAfter ⊆ after.orgRoles accountId fun _ _ ↦ true) : after.Governed where
  superadmin := by
    unfold Tenant.Founded
    rw [hroles]
    exact h.superadmin
  administered := guarded h hguard hothers (grows_of_same hroles) hactive hkept

theorem administers_iff : row.administers accountId = true ↔
    row.principal = .user accountId ∧ row.scopeKind = .organization ∧ row.state = .active :=
  decide_eq_true_iff

theorem ownedByMembership_iff : row.ownedByMembership accountId = true ↔
    row.principal = .user accountId ∧ row.state = .active ∧ row.origin = .membership :=
  decide_eq_true_iff

/-- The bindings of a member that takes a role: the other bindings stay, and one carries the role. -/
theorem memberBindings_eq_ok {tenant : Tenant} {role : String} {bindings : Table String BindingRow}
    (h : memberBindings tenant ids accountId role = .ok bindings) :
    (∀ id row, tenant.bindings.get? id = some row → row.ownedByMembership accountId = false →
      bindings.get? id = some row) ∧
    ∃ id row, bindings.get? id = some row ∧ row.administers accountId = true ∧ row.role = role := by
  have hothers : ∀ id row, tenant.bindings.get? id = some row →
      row.ownedByMembership accountId = false →
        (keptMembershipBindings tenant accountId role).get? id = some row := by
    intro id row hrow howned
    unfold keptMembershipBindings
    rw [Table.get?_mapRows, hrow, Option.map_some, if_neg (by rw [howned]; exact Bool.false_ne_true)]
  unfold memberBindings at h
  cases htarget : tenant.membershipTarget accountId role with
  | some id =>
    rw [htarget] at h
    rw [← Except.ok.inj h]
    refine ⟨hothers, id, ?_⟩
    have hfound := htarget
    unfold Tenant.membershipTarget at hfound
    obtain ⟨⟨key, row⟩, hfind, hkey⟩ := Option.map_eq_some_iff.mp hfound
    obtain ⟨hrow, hcondition⟩ := Table.find?_eq_some hfind
    obtain ⟨howned, hkind, -, hrole⟩ := of_decide_eq_true hcondition
    obtain ⟨hprincipal, hstate, -⟩ := ownedByMembership_iff.mp howned
    have hsame : key = id := hkey
    subst hsame
    unfold keptMembershipBindings
    rw [Table.get?_mapRows, hrow, Option.map_some, if_pos howned, if_pos htarget]
    by_cases hcoverage : row.coverage = tenant.roleCoverage role
    · rw [if_pos hcoverage]
      exact ⟨row, rfl, administers_iff.mpr ⟨hprincipal, hkind, hstate⟩, hrole⟩
    · rw [if_neg hcoverage]
      exact ⟨_, rfl, administers_iff.mpr ⟨hprincipal, hkind, hstate⟩, hrole⟩
  | none =>
    rw [htarget] at h
    dsimp only at h
    rw [found_eq_ok] at h
    refine ⟨fun id row hrow howned ↦ ?_, ids 0, membershipBinding tenant accountId role, ?_,
      administers_iff.mpr ⟨rfl, rfl, rfl⟩, rfl⟩
    · obtain ⟨later, hlater, rfl⟩ :=
        Table.keeps_insert? (fun _ ↦ rfl) h id row (hothers id row hrow howned)
      exact hlater
    · rw [(Table.insert?_eq_some h).2, if_pos rfl]

theorem updateMember_governed {payload : CorporateMemberUpdateRequest} (h : view.tenant.Governed)
    (heffect : (updateMember accountId payload).effect actor view ids = .ok (response, after)) :
    after.Governed := by
  unfold updateMember at heffect
  simp only [bind_eq_ok, require_eq_ok, found_eq_ok] at heffect
  obtain ⟨row, hrow, name, -, -, -, -, -, -, -, -, -, -, -, guarded, hguard, bindings, hbindings, -,
    -, hafter⟩ := heffect
  obtain ⟨-, rfl⟩ := Prod.mk.inj (Except.ok.inj hafter)
  obtain ⟨hothers, id, carrier, hcarrier, hadministers, hrole⟩ := memberBindings_eq_ok hbindings
  refine governed_of_guarded h rfl (assertSuperadminSurvives_eq_ok h hguard) ?_ ?_ ?_
  · intro other hother
    constructor
    · intro hactive
      show ((view.tenant.members.update accountId _).get? other).any _ = true
      rw [Table.get?_update_of_ne hother]
      exact hactive
    · apply orgRoles_of_keeps
      intro id binding hbinding hothersBinding
      refine ⟨binding, hothers id binding hbinding ?_, hothersBinding, rfl⟩
      have hprincipal := (administers_iff.mp hothersBinding).1
      rw [Bool.eq_false_iff, ne_eq, ownedByMembership_iff, hprincipal]
      rintro ⟨hsame, -⟩
      exact hother (Principal.user.inj hsame)
  · intro hactive
    show ((view.tenant.members.update accountId _).get? accountId).any _ = true
    rw [Table.get?_update_self hrow]
    exact hactive
  · intro role hmem
    rcases Finset.mem_insert.mp hmem with rfl | hmem
    · exact mem_orgRoles.mpr ⟨id, carrier, hcarrier, hadministers, rfl, hrole⟩
    · obtain ⟨id, binding, hbinding, hown, horigin, hsame⟩ := mem_orgRoles.mp hmem
      refine mem_orgRoles.mpr ⟨id, binding, hothers id binding hbinding ?_, hown, rfl, hsame⟩
      rw [Bool.eq_false_iff, ne_eq, ownedByMembership_iff]
      rintro ⟨-, -, hmembership⟩
      exact of_decide_eq_true horigin hmembership

theorem deleteMember_governed {payload : CorporateDeleteRequest} (h : view.tenant.Governed)
    (heffect : (deleteMember accountId payload).effect actor view ids = .ok (response, after)) :
    after.Governed := by
  unfold deleteMember at heffect
  simp only [bind_eq_ok, require_eq_ok, found_eq_ok, decide_eq_true_eq] at heffect
  obtain ⟨row, -, -, -, -, -, guarded, hguard, hafter⟩ := heffect
  obtain ⟨-, rfl⟩ := Prod.mk.inj (Except.ok.inj hafter)
  have hremoved : accountId ∉ view.tenant.administrators ∨
      (false = true ∧ superadminPermissions.toFinset ⊆
        (∅ : Finset String).biUnion view.tenant.permissionsOf) ∨
      1 < view.tenant.administrators.card := hguard.imp_right .inr
  refine governed_of_guarded h rfl hremoved ?_ ?_ ?_
  · intro other hother
    constructor
    · intro hactive
      show ((view.tenant.members.filter _).get? other).any _ = true
      rw [Table.get?_filter]
      cases hmember : view.tenant.members.get? other with
      | none =>
        unfold Tenant.membershipActive at hactive
        rw [hmember] at hactive
        cases hactive
      | some member =>
        unfold Tenant.membershipActive at hactive
        rw [hmember] at hactive
        rw [Option.filter_some, if_pos (decide_eq_true hother)]
        exact hactive
    · apply orgRoles_of_keeps
      intro id binding hbinding hadministers
      refine ⟨binding, ?_, hadministers, rfl⟩
      show (view.tenant.bindings.filter _).get? id = some binding
      rw [Table.get?_filter, hbinding, Option.filter_some, if_pos]
      rw [decide_eq_true_eq, (administers_iff.mp hadministers).1]
      exact fun hsame ↦ hother (Principal.user.inj hsame)
  · exact fun hfalse ↦ absurd hfalse Bool.false_ne_true
  · exact Finset.empty_subset _

variable {bindingId : String}

/-- A change of one binding, guarded for the account that it belongs to. -/
theorem governed_of_binding (h : before.Governed) {replacement : Option (ScopeKind × String)}
    (hrow : before.bindings.get? bindingId = some row)
    (hguard : checkBindingOwner before bindingId row replacement = .ok ())
    (hroles : after.roles = before.roles) (hmembers : after.members = before.members)
    (hothers : ∀ id, id ≠ bindingId → after.bindings.get? id = before.bindings.get? id)
    (hreplacement : ∀ owner role, row.principal = .user owner →
      replacement = some (.organization, role) →
        ∃ later, after.bindings.get? bindingId = some later ∧ later.administers owner = true ∧
          later.role = role) : after.Governed := by
  have hstays : ∀ other, row.principal ≠ .user other → Stays before after other := by
    intro other hother
    constructor
    · unfold Tenant.membershipActive
      rw [hmembers]
      exact id
    · apply orgRoles_of_keeps
      intro id binding hbinding hadministers
      refine ⟨binding, ?_, hadministers, rfl⟩
      rw [hothers id ?_, hbinding]
      intro hsame
      rw [hsame, hrow] at hbinding
      rw [← Option.some.inj hbinding] at hadministers
      exact hother (administers_iff.mp hadministers).1
  cases hprincipal : row.principal with
  | servicePrincipal id =>
    constructor
    · unfold Tenant.Founded
      rw [hroles]
      exact h.superadmin
    · apply administered_of_stays h _ (grows_of_same hroles)
      intro other
      apply hstays
      rw [hprincipal]
      exact Principal.noConfusion
  | user owner =>
    unfold checkBindingOwner at hguard
    rw [hprincipal] at hguard
    apply governed_of_guarded h hroles (assertSuperadminSurvives_eq_ok h hguard)
    · intro other hother
      apply hstays
      rw [hprincipal]
      exact fun hsame ↦ hother (Principal.user.inj hsame).symm
    · unfold Tenant.membershipActive
      rw [hmembers]
      exact id
    · have hkept : (before.orgRoles owner fun id _ ↦ id ≠ bindingId) ⊆
          after.orgRoles owner fun _ _ ↦ true := by
        intro role hmem
        obtain ⟨id, binding, hbinding, hadministers, hid, hrole⟩ := mem_orgRoles.mp hmem
        refine mem_orgRoles.mpr ⟨id, binding, ?_, hadministers, rfl, hrole⟩
        rw [hothers id (of_decide_eq_true hid), hbinding]
      unfold Tenant.memberOrgRolesAfter
      split
      · rename_i role
        apply Finset.insert_subset _ hkept
        obtain ⟨later, hlater, hadministers, hrole⟩ := hreplacement owner role hprincipal rfl
        exact mem_orgRoles.mpr ⟨bindingId, later, hlater, hadministers, rfl, hrole⟩
      · exact hkept

theorem directBinding_eq_ok {expectedRevision : Nat}
    (h : directBinding view bindingId expectedRevision = .ok row) :
    view.tenant.bindings.get? bindingId = some row := by
  unfold directBinding at h
  simp only [bind_eq_ok, found_eq_ok] at h
  obtain ⟨held, hheld, -, -, -, -, hrow⟩ := h
  rw [hheld, Except.ok.inj hrow]

theorem updateBinding_governed {payload : CorporateBindingUpdateRequest} (h : view.tenant.Governed)
    (heffect : (updateBinding bindingId payload).effect actor view ids = .ok (response, after)) :
    after.Governed := by
  unfold updateBinding at heffect
  simp only [bind_eq_ok] at heffect
  obtain ⟨row, hdirect, -, -, -, -, guarded, hguard, -, -, hafter⟩ := heffect
  obtain ⟨-, rfl⟩ := Prod.mk.inj (Except.ok.inj hafter)
  have hrow := directBinding_eq_ok hdirect
  refine governed_of_binding h hrow hguard rfl rfl ?_ ?_
  · intro id hid
    exact Table.get?_update_of_ne hid
  · intro owner role hprincipal hreplacement
    refine ⟨_, Table.get?_update_self hrow, ?_⟩
    by_cases hstate : payload.state = .active
    · rw [if_pos hstate] at hreplacement
      obtain ⟨hkind, hrole⟩ := Prod.mk.inj (Option.some.inj hreplacement)
      exact ⟨administers_iff.mpr ⟨hprincipal, hkind, hstate⟩, hrole⟩
    · rw [if_neg hstate] at hreplacement
      cases hreplacement

theorem deleteBinding_governed {payload : CorporateDeleteRequest} (h : view.tenant.Governed)
    (heffect : (deleteBinding bindingId payload).effect actor view ids = .ok (response, after)) :
    after.Governed := by
  unfold deleteBinding at heffect
  simp only [bind_eq_ok] at heffect
  obtain ⟨row, hdirect, guarded, hguard, hafter⟩ := heffect
  obtain ⟨-, rfl⟩ := Prod.mk.inj (Except.ok.inj hafter)
  refine governed_of_binding h (directBinding_eq_ok hdirect) hguard rfl rfl ?_ ?_
  · intro id hid
    show (view.tenant.bindings.filter _).get? id = view.tenant.bindings.get? id
    rw [Table.get?_filter]
    cases view.tenant.bindings.get? id with
    | none => rfl
    | some binding => rw [Option.filter_some, if_pos (decide_eq_true hid)]
  · intro owner role _ hreplacement
    cases hreplacement

end Guarded

/-! ### Changes of several accounts at once -/

/-- An active member whose organization-scope roles cover the permissions of `superadmin`, if each
role permits what is said. -/
def Tenant.CoveredWith (tenant : Tenant) (permissionsAfter : String → Finset String) : Prop :=
  ∃ accountId, tenant.membershipActive accountId = true ∧
    superadminPermissions.toFinset ⊆
      (tenant.orgRoles accountId fun _ _ ↦ true).biUnion permissionsAfter

/-- What the roles permit after one of them is updated. -/
def Tenant.updatedPermissions (tenant : Tenant) (roleName : String) (permissions : List String) :
    String → Finset String :=
  Function.update tenant.permissionsOf roleName permissions.toFinset

/-- What the roles permit after one of them is replaced by another. -/
def Tenant.replacedPermissions (tenant : Tenant) (roleName replacement : String)
    (role : String) : Finset String :=
  tenant.permissionsOf (if role = roleName then replacement else role)

variable {payload : CorporateRoleDeleteRequest}

section Roles

variable {after : Tenant} {actor roleName : String} {view : View} {ids : Nat → String}
  {response : Response}

theorem customRole_eq_ok {expectedRevision : Nat} {row : RoleRow}
    (h : customRole view roleName expectedRevision = .ok row) :
    view.tenant.roles.get? roleName = some row ∧ roleName ≠ "superadmin" := by
  unfold customRole at h
  simp only [bind_eq_ok, found_eq_ok, require_eq_ok, decide_eq_true_eq] at h
  obtain ⟨held, hheld, accepted, hcustom, -, -, hrow⟩ := h
  refine ⟨by rw [hheld, Except.ok.inj hrow], ?_⟩
  rintro rfl
  exact hcustom (by simp [builtInRoles])

theorem rolePermissionList_eq_ok {payload permissions : List String}
    (h : rolePermissionList payload = .ok permissions) : permissions.toFinset = payload.toFinset := by
  unfold rolePermissionList at h
  simp only [bind_eq_ok] at h
  obtain ⟨-, -, h⟩ := h
  rw [← Except.ok.inj h]
  ext permission
  rw [List.mem_toFinset, List.mem_insertionSort, List.mem_dedup, List.mem_toFinset]

theorem updateRole_founded {payload : CorporateRoleUpdateRequest} (h : view.tenant.Founded)
    (heffect : (updateRole roleName payload).effect actor view ids = .ok (response, after)) :
    after.Founded := by
  unfold updateRole at heffect
  simp only [bind_eq_ok] at heffect
  obtain ⟨row, hcustom, permissions, -, -, -, hafter⟩ := heffect
  obtain ⟨-, rfl⟩ := Prod.mk.inj (Except.ok.inj hafter)
  obtain ⟨-, hne⟩ := customRole_eq_ok hcustom
  obtain ⟨superadmin, hsuperadmin, hall⟩ := h
  exact ⟨superadmin, by rw [Table.get?_update_of_ne hne.symm, hsuperadmin], hall⟩

/-- An update of a role keeps an administrator exactly when someone is one with the new permissions. -/
theorem updateRole_administered_iff {payload : CorporateRoleUpdateRequest}
    (heffect : (updateRole roleName payload).effect actor view ids = .ok (response, after)) :
    after.Administered ↔
      view.tenant.CoveredWith (view.tenant.updatedPermissions roleName payload.permissions) := by
  unfold updateRole at heffect
  simp only [bind_eq_ok] at heffect
  obtain ⟨row, hcustom, permissions, hpermissions, -, -, hafter⟩ := heffect
  obtain ⟨-, hafter⟩ := Prod.mk.inj (Except.ok.inj hafter)
  obtain ⟨hrow, -⟩ := customRole_eq_ok hcustom
  have hpermissionsOf : after.permissionsOf =
      view.tenant.updatedPermissions roleName payload.permissions := by
    funext role
    rw [← hafter]
    unfold Tenant.permissionsOf Tenant.updatedPermissions
    by_cases hrole : role = roleName
    · subst hrole
      rw [Table.get?_update_self hrow, Function.update_self]
      exact rolePermissionList_eq_ok hpermissions
    · rw [Table.get?_update_of_ne hrole, Function.update_of_ne hrole]
      rfl
  unfold Tenant.Administered Tenant.CoveredWith
  rw [hpermissionsOf, ← hafter]
  rfl

/-! ### Deletion of a role -/

theorem active_mapRows {members : Table String MemberRow} {accountId : String}
    {write : String → MemberRow → MemberRow} (hstate : ∀ key row, (write key row).state = row.state) :
    ((members.mapRows write).get? accountId).any (·.state = .active) =
      (members.get? accountId).any (·.state = .active) := by
  rw [Table.get?_mapRows]
  cases members.get? accountId with
  | none => rfl
  | some row =>
    show decide ((write accountId row).state = .active) = decide (row.state = .active)
    rw [hstate]

theorem deleteRole_founded (h : view.tenant.Founded)
    (heffect : (deleteRole roleName payload).effect actor view ids = .ok (response, after)) :
    after.Founded := by
  unfold deleteRole at heffect
  simp only [bind_eq_ok] at heffect
  obtain ⟨row, hcustom, -, -, -, -, -, -, hafter⟩ := heffect
  obtain ⟨-, rfl⟩ := Prod.mk.inj (Except.ok.inj hafter)
  obtain ⟨-, hne⟩ := customRole_eq_ok hcustom
  obtain ⟨superadmin, hsuperadmin, hall⟩ := h
  refine ⟨superadmin, ?_, hall⟩
  show (view.tenant.roles.filter _).get? "superadmin" = some superadmin
  rw [Table.get?_filter, hsuperadmin, Option.filter_some, if_pos (decide_eq_true hne.symm)]

/-- Nothing refers to the role: whoever was an administrator still is one. -/
theorem deleteRole_administered (h : view.tenant.Administered)
    (hnone : payload.replacementRole = none)
    (heffect : (deleteRole roleName payload).effect actor view ids = .ok (response, after)) :
    after.Administered := by
  unfold deleteRole at heffect
  simp only [bind_eq_ok, hnone] at heffect
  obtain ⟨row, -, accepted, hreplacement, -, -, -, -, hafter⟩ := heffect
  obtain ⟨-, rfl⟩ := Prod.mk.inj (Except.ok.inj hafter)
  have hfree : ∀ id binding, view.tenant.bindings.get? id = some binding →
      binding.role ≠ roleName := by
    intro id binding hbinding hrole
    have hreferenced : view.tenant.roleReferenced roleName = true := by
      unfold Tenant.roleReferenced
      rw [Bool.or_eq_true]
      exact .inl (List.any_eq_true.mpr
        ⟨(id, binding), Table.mem_entries.mpr hbinding, decide_eq_true hrole⟩)
    unfold checkReplacement at hreplacement
    rw [require_eq_ok, hreferenced] at hreplacement
    cases hreplacement
  obtain ⟨accountId, hactive, hcovers⟩ := h
  refine ⟨accountId, ?_, hcovers.trans ?_⟩
  · show ((view.tenant.members.mapRows _).get? accountId).any _ = true
    rw [active_mapRows]
    · exact hactive
    · intro _ member
      split_ifs <;> rfl
  · intro permission hpermission
    obtain ⟨role, hrole, hmem⟩ := Finset.mem_biUnion.mp hpermission
    obtain ⟨id, binding, hbinding, hadministers, -, rfl⟩ := mem_orgRoles.mp hrole
    have hother := hfree id binding hbinding
    refine Finset.mem_biUnion.mpr ⟨binding.role, mem_orgRoles.mpr
      ⟨id, binding, ?_, hadministers, rfl, rfl⟩, ?_⟩
    · show (view.tenant.bindings.filter _).get? id = some binding
      rw [Table.get?_filter, hbinding, Option.filter_some, if_pos (decide_eq_true hother)]
    · unfold Tenant.permissionsOf at hmem ⊢
      cases hheld : view.tenant.roles.get? binding.role with
      | none =>
        rw [hheld] at hmem
        exact absurd hmem (Finset.notMem_empty permission)
      | some held =>
        rw [hheld] at hmem
        rw [Table.get?_filter, hheld, Option.filter_some, if_pos (decide_eq_true hother)]
        exact hmem

/-- The roles of an account after one role is replaced. -/
theorem mem_orgRoles_replaced {before : Tenant} {accountId replacement role : String}
    (hbindings : after.bindings = replacedBindings before.bindings roleName (some replacement)) :
    (role ∈ after.orgRoles accountId fun _ _ ↦ true) ↔
      ∃ earlier ∈ before.orgRoles accountId fun _ _ ↦ true,
        role = if earlier = roleName then replacement else earlier := by
  rw [mem_orgRoles]
  simp only [mem_orgRoles, hbindings, replacedBindings, Table.get?_mapRows, Table.get?_filter,
    Option.map_eq_some_iff, Option.filter_eq_some_iff, decide_eq_true_eq]
  constructor
  · rintro ⟨id, later, ⟨binding, ⟨hbinding, -⟩, rfl⟩, hadministers, -, hrole⟩
    refine ⟨binding.role, ⟨id, binding, hbinding, ?_, trivial, rfl⟩, ?_⟩
    · split_ifs at hadministers
      · exact hadministers
      · exact hadministers
    · rw [← hrole]
      split_ifs <;> rfl
  · rintro ⟨earlier, ⟨id, binding, hbinding, hadministers, -, rfl⟩, rfl⟩
    refine ⟨id, _, ⟨binding, ⟨hbinding, .inr (administers_iff.mp hadministers).2.2⟩, rfl⟩, ?_,
      trivial, ?_⟩
    · split_ifs
      · exact hadministers
      · exact hadministers
    · split_ifs <;> rfl

/-- A replacement of a role keeps an administrator exactly when someone is one with the other role
in its place. -/
theorem deleteRole_administered_iff {replacement : String}
    (hsome : payload.replacementRole = some replacement)
    (heffect : (deleteRole roleName payload).effect actor view ids = .ok (response, after)) :
    after.Administered ↔
      view.tenant.CoveredWith (view.tenant.replacedPermissions roleName replacement) := by
  unfold deleteRole at heffect
  simp only [bind_eq_ok, hsome] at heffect
  obtain ⟨row, -, accepted, hreplacement, -, -, -, -, hafter⟩ := heffect
  obtain ⟨-, hafter⟩ := Prod.mk.inj (Except.ok.inj hafter)
  have hother : replacement ≠ roleName := by
    unfold checkReplacement at hreplacement
    simp only [bind_eq_ok, require_eq_ok, decide_eq_true_eq] at hreplacement
    obtain ⟨-, hother, -⟩ := hreplacement
    exact hother
  have hbindings : after.bindings =
      replacedBindings view.tenant.bindings roleName (some replacement) := by rw [← hafter]
  have hactive : ∀ accountId, after.membershipActive accountId =
      view.tenant.membershipActive accountId := by
    intro accountId
    rw [← hafter]
    apply active_mapRows
    intro _ member
    split_ifs <;> rfl
  have hpermissionsOf : ∀ role, role ≠ roleName →
      after.permissionsOf role = view.tenant.permissionsOf role := by
    intro role hrole
    rw [← hafter]
    show (((view.tenant.roles.filter _).get? role).map _).getD ∅ = _
    rw [Table.get?_filter]
    unfold Tenant.permissionsOf
    cases view.tenant.roles.get? role with
    | none => rfl
    | some held => rw [Option.filter_some, if_pos (decide_eq_true hrole)]
  have hcovered : ∀ accountId, (after.orgRoles accountId fun _ _ ↦ true).biUnion
      after.permissionsOf = (view.tenant.orgRoles accountId fun _ _ ↦ true).biUnion
        (view.tenant.replacedPermissions roleName replacement) := by
    intro accountId
    ext permission
    simp only [Finset.mem_biUnion, mem_orgRoles_replaced hbindings]
    have hname : ∀ earlier, (if earlier = roleName then replacement else earlier) ≠ roleName := by
      intro earlier
      split_ifs with hsame
      · exact hother
      · exact hsame
    constructor
    · rintro ⟨role, ⟨earlier, hearlier, rfl⟩, hmem⟩
      rw [hpermissionsOf _ (hname earlier)] at hmem
      exact ⟨earlier, hearlier, hmem⟩
    · rintro ⟨earlier, hearlier, hmem⟩
      refine ⟨_, ⟨earlier, hearlier, rfl⟩, ?_⟩
      rw [hpermissionsOf _ (hname earlier)]
      exact hmem
  unfold Tenant.Administered Tenant.CoveredWith
  simp only [hactive, hcovered]

end Roles

/-! ### Runs -/

/-- The handler of a role update accepts the request. -/
def UpdateAccepted (view : View) (actor roleName : String) (payload : CorporateRoleUpdateRequest) :
    Prop :=
  (∃ row, customRole view roleName payload.expectedRevision = .ok row) ∧
    ∃ permissions, rolePermissionList payload.permissions = .ok permissions ∧
      assertDelegablePermissions view actor permissions.toFinset = .ok ()

/-- The handler of a role deletion accepts the request. -/
def DeletionAccepted (view : View) (actor roleName : String)
    (payload : CorporateRoleDeleteRequest) : Prop :=
  (∃ row, customRole view roleName payload.expectedRevision = .ok row) ∧
    checkReplacement view actor roleName payload.replacementRole = .ok () ∧
    checkAffected view.tenant roleName payload.replacementRole = .ok () ∧
    checkBindings (replacedBindings view.tenant.bindings roleName payload.replacementRole) = .ok ()

/-- The handler accepts an update or a deletion of a role. -/
def Request.Accepted (view : View) (actor : String) : Request → Prop
  | .updateRole roleName payload => UpdateAccepted view actor roleName payload
  | .deleteRole roleName payload => DeletionAccepted view actor roleName payload
  | _ => True

/-- An update or a replacement of a role leaves one account that covers the permissions of
`superadmin`. -/
def Request.LeavesAdministrator (tenant : Tenant) : Request → Prop
  | .updateRole roleName payload =>
      tenant.CoveredWith (tenant.updatedPermissions roleName payload.permissions)
  | .deleteRole roleName payload => ∀ replacement, payload.replacementRole = some replacement →
      tenant.CoveredWith (tenant.replacedPermissions roleName replacement)
  | _ => True

/-- A fresh update or replacement of a role that its handler accepts leaves an administrator. -/
def KeepsAdministrator (fingerprint : Json → String) (server : Server) (call : RequestCall) : Prop :=
  authorizeIdempotent fingerprint server call.call = .ok none →
    call.request.Accepted (server.view call.call) call.accountId →
      call.request.LeavesAdministrator server.tenant

section Runs

variable {fingerprint : Json → String} {server : Server} {call : RequestCall}

variable {view : View}

/-- Who is accepted is answered. -/
theorem updateAccepted_iff {actor roleName : String} (ids : Nat → String)
    {payload : CorporateRoleUpdateRequest} :
    UpdateAccepted view actor roleName payload ↔
      ∃ response after, (updateRole roleName payload).effect actor view ids =
        .ok (response, after) := by
  unfold UpdateAccepted updateRole
  simp only [bind_eq_ok]
  constructor
  · rintro ⟨⟨row, hrow⟩, permissions, hpermissions, hdelegable⟩
    exact ⟨_, _, row, hrow, permissions, hpermissions, (), hdelegable, rfl⟩
  · rintro ⟨response, after, row, hrow, permissions, hpermissions, accepted, hdelegable, -⟩
    exact ⟨⟨row, hrow⟩, permissions, hpermissions, hdelegable⟩

theorem deletionAccepted_iff {actor roleName : String} (ids : Nat → String) :
    DeletionAccepted view actor roleName payload ↔
      ∃ response after, (deleteRole roleName payload).effect actor view ids =
        .ok (response, after) := by
  unfold DeletionAccepted deleteRole
  simp only [bind_eq_ok]
  constructor
  · rintro ⟨⟨row, hrow⟩, hreplacement, haffected, hbindings⟩
    exact ⟨_, _, row, hrow, (), hreplacement, (), haffected, (), hbindings, rfl⟩
  · rintro ⟨response, after, row, hrow, replaced, hreplacement, affected, haffected, distinct,
      hbindings, -⟩
    exact ⟨⟨row, hrow⟩, hreplacement, haffected, hbindings⟩

/-- What one accepted request leaves. -/
theorem effect_founded {request : Request} {actor : String} {ids : Nat → String}
    {response : Response} {after : Tenant} (h : view.tenant.Governed)
    (heffect : request.mutation.effect actor view ids = .ok (response, after)) :
    after.Founded ∧ (request.LeavesAdministrator view.tenant ↔ after.Administered) := by
  have hgoverned : ∀ {Leaves : Prop}, Leaves → after.Governed →
      after.Founded ∧ (Leaves ↔ after.Administered) := by
    intro Leaves hleaves hafter
    exact ⟨hafter.superadmin, fun _ ↦ hafter.administered, fun _ ↦ hleaves⟩
  cases request with
  | createRole payload => exact hgoverned trivial (createRole_governed h heffect)
  | updateRole roleName payload =>
    exact ⟨updateRole_founded h.superadmin heffect, (updateRole_administered_iff heffect).symm⟩
  | deleteRole roleName payload =>
    refine ⟨deleteRole_founded h.superadmin heffect, ?_⟩
    show (∀ replacement, payload.replacementRole = some replacement → _) ↔ _
    cases hreplacement : payload.replacementRole with
    | none =>
      constructor
      · exact fun _ ↦ deleteRole_administered h.administered hreplacement heffect
      · intro _ replacement hnone
        cases hnone
    | some replacement =>
      rw [deleteRole_administered_iff hreplacement heffect]
      constructor
      · exact fun hleaves ↦ hleaves replacement rfl
      · rintro hcovered _ hsame
        rw [← Option.some.inj hsame]
        exact hcovered
  | createMember payload => exact hgoverned trivial (createMember_governed h heffect)
  | updateMember accountId payload => exact hgoverned trivial (updateMember_governed h heffect)
  | deleteMember accountId payload => exact hgoverned trivial (deleteMember_governed h heffect)
  | assignMember payload => exact hgoverned trivial (assignMember_governed h heffect)
  | createBinding payload => exact hgoverned trivial (createBinding_governed h heffect)
  | updateBinding bindingId payload => exact hgoverned trivial (updateBinding_governed h heffect)
  | deleteBinding bindingId payload => exact hgoverned trivial (deleteBinding_governed h heffect)
  | createPermissionGrant payload =>
    exact hgoverned trivial (createPermissionGrant_governed h heffect)
  | revokePermissionGrant grantId payload =>
    exact hgoverned trivial (revokePermissionGrant_governed h heffect)

theorem accepted_of_effect {request : Request} {actor : String} {ids : Nat → String}
    {response : Response} {after : Tenant}
    (heffect : request.mutation.effect actor view ids = .ok (response, after)) :
    request.Accepted view actor := by
  cases request with
  | updateRole roleName payload => exact (updateAccepted_iff ids).mpr ⟨response, after, heffect⟩
  | deleteRole roleName payload => exact (deletionAccepted_iff ids).mpr ⟨response, after, heffect⟩
  | _ => trivial

/-- One request keeps an administrator exactly when it meets the condition. -/
theorem step_governed_iff (h : server.tenant.Governed) :
    KeepsAdministrator fingerprint server call ↔
      (stepRequest fingerprint server call).tenant.Governed := by
  unfold stepRequest
  constructor
  · intro hkeeps
    rcases step_tenant fingerprint server call.call with hsame | ⟨hfresh, response, heffect⟩
    · rw [hsame]
      exact h
    · have hview : (server.view call.call).tenant.Governed := h
      obtain ⟨hfounded, hleaves⟩ := effect_founded hview heffect
      exact ⟨hfounded, hleaves.mp (hkeeps hfresh (accepted_of_effect heffect))⟩
  · intro hafter hfresh haccepted
    have hleaves : ∀ response after, call.request.mutation.effect call.accountId
        (server.view call.call) call.ids = .ok (response, after) →
          call.request.LeavesAdministrator server.tenant := by
      intro response after heffect
      rw [step_of_fresh hfresh heffect] at hafter
      exact (effect_founded h heffect).2.mpr hafter.administered
    obtain ⟨accountId, request, seen, surroundings, ids⟩ := call
    cases request with
    | updateRole roleName payload =>
      obtain ⟨response, after, heffect⟩ := (updateAccepted_iff ids).mp haccepted
      exact hleaves response after heffect
    | deleteRole roleName payload =>
      obtain ⟨response, after, heffect⟩ := (deletionAccepted_iff ids).mp haccepted
      exact hleaves response after heffect
    | _ => trivial

/-- No request touches the role `superadmin`. -/
theorem step_founded (h : server.tenant.Governed) :
    (stepRequest fingerprint server call).tenant.Founded := by
  unfold stepRequest
  rcases step_tenant fingerprint server call.call with hsame | ⟨-, response, heffect⟩
  · rw [hsame]
    exact h.superadmin
  · have hview : (server.view call.call).tenant.Governed := h
    exact (effect_founded hview heffect).1

theorem bootstrap_superadmin (organizationId accountId bindingId : String) :
    (bootstrap organizationId accountId bindingId).roles.get? "superadmin" =
      some ⟨superadminPermissions, 1⟩ := by
  show ((Table.set _ "lead" _).set "staff" _).get? "superadmin" = _
  rw [Table.get?_set, if_neg (by decide), Table.get?_set, if_neg (by decide), Table.get?_set,
    if_pos rfl]

theorem bootstrap_governed (organizationId accountId bindingId : String) :
    (bootstrap organizationId accountId bindingId).Governed := by
  have hsuperadmin := bootstrap_superadmin organizationId accountId bindingId
  refine ⟨⟨_, hsuperadmin, rfl⟩, accountId, ?_, ?_⟩
  · show ((Table.set _ accountId _).get? accountId).any _ = true
    rw [Table.get?_set, if_pos rfl]
    rfl
  · have hbinding : ∃ row, (bootstrap organizationId accountId bindingId).bindings.get? bindingId =
        some row ∧ row.administers accountId = true ∧ row.role = "superadmin" := by
      show ∃ row, (Table.set _ bindingId _).get? bindingId = some row ∧ _
      rw [Table.get?_set, if_pos rfl]
      exact ⟨_, rfl, administers_iff.mpr ⟨rfl, rfl, rfl⟩, rfl⟩
    obtain ⟨row, hrow, hadministers, hrole⟩ := hbinding
    intro permission hpermission
    refine Finset.mem_biUnion.mpr ⟨"superadmin", mem_orgRoles.mpr ⟨bindingId, row, hrow,
      hadministers, rfl, hrole⟩, ?_⟩
    unfold Tenant.permissionsOf
    rw [hsuperadmin]
    exact hpermission

end Runs

/-- In every run from the bootstrap, the requests all meet the condition exactly when every state
that is reached has an administrator; a refused request changes nothing. -/
theorem administrator_kept (fingerprint : Json → String)
    (organizationId accountId bindingId : String) (calls : List RequestCall) :
    (Runs.StepsMeet (stepRequest fingerprint) (KeepsAdministrator fingerprint)
        (.bootstrap organizationId accountId bindingId) calls ↔
      ∀ before, before <+: calls →
        (Runs.run (stepRequest fingerprint) (.bootstrap organizationId accountId bindingId)
          before).tenant.Administered) ∧
    ∀ server (call : RequestCall) error, mutate fingerprint server call.call = .error error →
      stepRequest fingerprint server call = server := by
  have hstart : (Server.bootstrap organizationId accountId bindingId).tenant.Governed :=
    bootstrap_governed organizationId accountId bindingId
  have hstep : ∀ (server : Server) (call : RequestCall), server.tenant.Governed →
      (KeepsAdministrator fingerprint server call ↔
        (stepRequest fingerprint server call).tenant.Governed) :=
    fun _ _ h ↦ step_governed_iff h
  constructor
  · rw [Runs.stepsMeet_iff hstep _ hstart]
    constructor
    · exact fun hall before hbefore ↦ (hall before hbefore).administered
    · intro hall before hbefore
      induction before using List.reverseRecOn with
      | nil => exact hstart
      | append_singleton before call ih =>
        have hgoverned := ih ((List.prefix_append before [call]).trans hbefore)
        have hadministered := hall _ hbefore
        rw [Runs.run_append] at hadministered ⊢
        exact ⟨step_founded hgoverned, hadministered⟩
  · intro server call error herror
    unfold stepRequest step
    rw [herror]

/-! ### Loss of the administrator -/

namespace Example

def fingerprint (value : Json) : String := "sha256:" ++ asciiPlatform.sha256 "" value

def surroundings : Surroundings := { accounts := [("root", none)] }

/-- A request of the account `root`, taken by itself. -/
def call (server : Server) (request : Request) : RequestCall :=
  ⟨"root", request, ⟨server.tenant, surroundings⟩, surroundings, fun _ ↦ "binding 2"⟩

def oneAfterAnother (server : Server) : List Request → List RequestCall
  | [] => []
  | request :: requests =>
    call server request ::
      oneAfterAnother (stepRequest fingerprint server (call server request)) requests

/-- The only administrator takes a role of its own making, and then empties it. -/
def requests : List Request :=
  [.createRole ⟨"owners", superadminPermissions, 1, "create role"⟩,
    .updateMember "root" ⟨"owners", .active, none, 1, 2, "take role"⟩,
    .updateRole "owners" ⟨["organization.read"], 1, 3, "empty role"⟩]

def calls : List RequestCall :=
  oneAfterAnother (.bootstrap "organization" "root" "binding 1") requests

end Example

/-- Some member has the permission in the organization. -/
def Tenant.permits (tenant : Tenant) (permission : String) : Bool :=
  tenant.members.entries.any fun entry ↦
    permission ∈ (tenant.orgRoles entry.1 fun _ _ ↦ true).biUnion tenant.permissionsOf

theorem Tenant.Administered.permits {tenant : Tenant} {permission : String}
    (h : tenant.Administered) (hpermission : permission ∈ superadminPermissions) :
    tenant.permits permission = true := by
  obtain ⟨accountId, hactive, hcovers⟩ := h
  unfold Tenant.membershipActive at hactive
  obtain ⟨row, hrow, -⟩ := (Option.any_eq_true _ _).mp hactive
  refine List.any_eq_true.mpr ⟨(accountId, row), Table.mem_entries.mpr hrow, decide_eq_true ?_⟩
  exact Finset.mem_of_subset hcovers (List.mem_toFinset.mpr hpermission)

open Example in
/-- The only administrator takes a role of its own making and empties it: nobody is left. -/
theorem administrator_lost :
    ¬ (Runs.run (stepRequest fingerprint) (.bootstrap "organization" "root" "binding 1")
      calls).tenant.Administered := by
  have hpowerless : (Runs.run (stepRequest fingerprint) (.bootstrap "organization" "root" "binding 1")
      calls).tenant.permits "role.create" = false := by
    decide +kernel
  intro hadministered
  rw [hadministered.permits (by simp [superadminPermissions])] at hpowerless
  cases hpowerless

end AiStp.Corporate
