import AiStp.Corporate.Authorization

/-!
# The evaluators agree

Every arm of the bulk evaluator finds what the subquery of the same arm finds (`matches_eq`), so the
bulk evaluator answers for each of its scopes what the single one answers
(`permissions_agree`), and so does the explanation. The one exception is the empty scope, which the
single evaluator reads as the organization itself and the bulk one takes as it is
(`empty_scope_differs`).
-/

set_option autoImplicit false

namespace AiStp.Corporate

open Library Query

variable {database : Database} {organizationId : String}

/-! ### The explanation -/

/-- The organization grants the permission to the role. -/
def Granted (database : Database) (organizationId role permission : String) : Prop :=
  ∃ row ∈ database.rolePermissions, row.organizationId = organizationId ∧ row.role = role ∧
    row.permission = permission

theorem mem_rolePermissions {roles : Finset String} {role permission : String} :
    permission ∈ rolePermissions database organizationId roles role ↔
      role ∈ roles ∧ Granted database organizationId role permission := by
  simp only [rolePermissions, Granted, mem_group, mem_select, Finset.notMem_empty, false_or,
    decide_eq_true_eq, Prod.mk.injEq]
  constructor
  · rintro ⟨row, hrow, ⟨horganization, hrole⟩, rfl, rfl⟩
    exact ⟨hrole, row, hrow, horganization, rfl, rfl⟩
  · rintro ⟨hrole, row, hrow, horganization, rfl, rfl⟩
    exact ⟨row, hrow, ⟨horganization, hrole⟩, rfl, rfl⟩

theorem mem_grantsForRoles {roles : Finset String} {permission : String} :
    permission ∈ grantsForRoles database organizationId roles ↔
      ∃ role ∈ roles, Granted database organizationId role permission := by
  simp only [grantsForRoles, Granted, List.mem_toFinset, mem_select, decide_eq_true_eq]
  constructor
  · rintro ⟨row, hrow, ⟨horganization, hrole⟩, hpermission⟩
    exact ⟨row.role, hrole, row, hrow, horganization, rfl, hpermission⟩
  · rintro ⟨role, hrole, row, hrow, horganization, rfl, hpermission⟩
    exact ⟨row, hrow, ⟨horganization, hrole⟩, hpermission⟩

theorem explain_eq (principalType : PrincipalType) (principalId : String) (scopeKind : ScopeKind)
    (scopeId : Option String) :
    (explainEffectivePermissions database organizationId principalType principalId scopeKind
        scopeId).map Prod.fst =
      corporateEffectivePermissions database organizationId principalType principalId scopeKind
        scopeId none := by
  unfold explainEffectivePermissions corporateEffectivePermissions
  split_ifs
  · simp only [Option.map_some]
    congr 1
    ext permission
    simp only [mem_foldl_insert, mem_foldl_union, Finset.mem_union, mem_grantsForRoles,
      mem_rolePermissions, Finset.notMem_empty, false_or, List.mem_toFinset, List.mem_map]
    refine or_congr_left ?_
    constructor
    · rintro ⟨binding, hbinding, hrole, hgranted⟩
      exact ⟨binding.role, hrole, hgranted⟩
    · rintro ⟨role, ⟨binding, hbinding, rfl⟩, hgranted⟩
      exact ⟨binding, hbinding, ⟨binding, hbinding, rfl⟩, hgranted⟩
  · rfl

/-! ### The maps of the bulk evaluator -/

section Maps

variable {ids : List String} {id value : String}

theorem mem_categories (hid : id ∈ ids) :
    value ∈ (scopeMaps database organizationId .technology ids).categories id ↔
      value ∈ technologyCategories database organizationId id := by
  refine mem_group_select (fun _ ↦ rfl) fun row ↦ ?_
  grind

theorem mem_projects (hid : id ∈ ids) :
    value ∈ (scopeMaps database organizationId .technology ids).projects id ↔
      value ∈ technologyCurrentProjects database organizationId id := by
  refine mem_group_select (fun _ ↦ rfl) fun row ↦ ?_
  grind

theorem mem_responsible (hid : id ∈ ids) :
    value ∈ (scopeMaps database organizationId .technology ids).responsible id ↔
      value ∈ technologyResponsibleTeams database organizationId id := by
  refine mem_group_select (fun _ ↦ rfl) fun row ↦ ?_
  grind

theorem mem_memberTeams (hid : id ∈ ids) :
    value ∈ (scopeMaps database organizationId .member ids).memberTeams id ↔
      value ∈ memberTeams database organizationId id := by
  refine mem_group_select (fun _ ↦ rfl) fun row ↦ ?_
  grind

theorem mem_memberProjects (hid : id ∈ ids) :
    value ∈ (scopeMaps database organizationId .member ids).memberProjects id ↔
      value ∈ memberProjects database organizationId id := by
  refine mem_group_select (fun _ ↦ rfl) fun row ↦ ?_
  grind

/-- The teams of one project, as the bulk query lists them. -/
theorem mem_projectTeamRows {projects : Finset String} :
    (id, value) ∈ projectTeamRows database organizationId projects ↔
      id ∈ projects ∧ ∃ link ∈ activeProjectTeams database organizationId,
        link.1.projectId = id ∧ link.1.teamId = value := by
  simp only [projectTeamRows, activeProjectTeams, mem_select, List.mem_filter, decide_eq_true_eq,
    Prod.mk.injEq]
  constructor
  · rintro ⟨link, hlink, ⟨horganization, hproject, hrest⟩, rfl, rfl⟩
    exact ⟨hproject, link, ⟨hlink, horganization, hrest⟩, rfl, rfl⟩
  · rintro ⟨hproject, link, ⟨hlink, horganization, hrest⟩, rfl, rfl⟩
    exact ⟨link, hlink, ⟨horganization, hproject, hrest⟩, rfl, rfl⟩

theorem mem_technologyTeams (hid : id ∈ ids) :
    let maps := scopeMaps database organizationId .technology ids
    value ∈ maps.responsible id ∪ (maps.projects id).biUnion maps.projectTeams ↔
      value ∈ technologyTeams database organizationId id := by
  intro maps
  rw [Finset.mem_union, Finset.mem_biUnion, technologyTeams, List.mem_append,
    mem_responsible hid, mem_select]
  refine or_congr_right ?_
  have hteams : ∀ project, value ∈ maps.projectTeams project ↔
      (project, value) ∈ projectTeamRows database organizationId (ids.toFinset.biUnion maps.projects) := by
    intro project
    show value ∈ group (fun _ ↦ ∅) _ project ↔ _
    rw [mem_group]
    simp
    rfl
  constructor
  · rintro ⟨project, hproject, hteam⟩
    obtain ⟨-, link, hlink, hlinkProject, hlinkTeam⟩ := mem_projectTeamRows.mp ((hteams _).mp hteam)
    refine ⟨link, hlink, ?_, hlinkTeam⟩
    rw [decide_eq_true_eq, hlinkProject]
    exact (mem_projects hid).mp hproject
  · rintro ⟨link, hlink, hproject, hteam⟩
    have hmem := (mem_projects hid).mpr (of_decide_eq_true hproject)
    refine ⟨link.1.projectId, hmem, (hteams _).mpr (mem_projectTeamRows.mpr ⟨?_, link, hlink, rfl, hteam⟩)⟩
    exact Finset.mem_biUnion.mpr ⟨id, List.mem_toFinset.mpr hid, hmem⟩

theorem mem_projectTeams (hid : id ∈ ids) :
    value ∈ (scopeMaps database organizationId .project ids).projectTeams id ↔
      value ∈ projectCurrentTeams database organizationId id := by
  show value ∈ group (fun _ ↦ ∅) (projectTeamRows database organizationId
    (eligibleProjects database organizationId ids)) id ↔ _
  rw [mem_group, mem_projectTeamRows]
  simp only [eligibleProjects, projectCurrentTeams, mem_select, List.mem_toFinset, Prod.exists,
    mem_join, decide_eq_true_eq, Finset.notMem_empty, false_or]
  constructor
  · rintro ⟨⟨project, identity, ⟨hproject, hidentity, hsame⟩, hconditions, rfl⟩,
      relation, team, hlink, hlinkProject, hteam⟩
    have horganization : relation.organizationId = organizationId :=
      (of_decide_eq_true (List.mem_filter.mp hlink).2).1
    refine ⟨relation, team, project, identity,
      ⟨⟨hlink, hproject, ?_⟩, hidentity, hsame⟩, ⟨hlinkProject, hconditions.2.2⟩, hteam⟩
    exact ⟨hconditions.1.trans horganization.symm, hlinkProject.symm⟩
  · rintro ⟨relation, team, project, identity, hrow, hconditions, hteam⟩
    obtain ⟨⟨hlink, hproject, horganization, hprojectId⟩, hidentity, hsame⟩ := hrow
    have hrelation : relation.organizationId = organizationId :=
      (of_decide_eq_true (List.mem_filter.mp hlink).2).1
    have hprojectSame : project.id = id := hprojectId.trans hconditions.1
    refine ⟨⟨project, identity, ⟨hproject, hidentity, hsame⟩,
      ⟨horganization.trans hrelation, ?_, hconditions.2⟩, hprojectSame⟩,
      relation, team, hlink, hconditions.1, hteam⟩
    rw [hprojectSame]
    exact hid

end Maps

/-! ### The arms -/

theorem matches_eq {ids : List String} {scope : String} (hscope : scope ∈ ids)
    (scopeKind kind : ScopeKind) (boundId : String) (descendants : Bool) :
    (scopeMaps database organizationId scopeKind ids).matches scopeKind kind boundId scope
        descendants =
      scopeClause database kind boundId scopeKind scope organizationId descendants := by
  rw [Bool.eq_iff_iff]
  cases scopeKind with
  | project =>
    have hteams : boundId ∈ (scopeMaps database organizationId .project ids).projectTeams scope ↔
      boundId ∈ projectCurrentTeams database organizationId scope := mem_projectTeams hscope
    simp [ScopeMaps.matches, scopeClause, hteams]
  | technology =>
    have hprojects : boundId ∈ (scopeMaps database organizationId .technology ids).projects scope ↔
      boundId ∈ technologyCurrentProjects database organizationId scope := mem_projects hscope
    have hteams := (mem_technologyTeams hscope :
      boundId ∈ (scopeMaps database organizationId .technology ids).responsible scope ∪
        ((scopeMaps database organizationId .technology ids).projects scope).biUnion
          (scopeMaps database organizationId .technology ids).projectTeams ↔
        boundId ∈ technologyTeams database organizationId scope)
    have hcategories : boundId ∈
        (scopeMaps database organizationId .technology ids).categories scope ↔
      boundId ∈ technologyCategories database organizationId scope := mem_categories hscope
    simp [ScopeMaps.matches, scopeClause, hteams, hprojects, hcategories]
  | member =>
    have hteams : boundId ∈ (scopeMaps database organizationId .member ids).memberTeams scope ↔
      boundId ∈ memberTeams database organizationId scope := mem_memberTeams hscope
    have hprojects : boundId ∈
        (scopeMaps database organizationId .member ids).memberProjects scope ↔
      boundId ∈ memberProjects database organizationId scope := mem_memberProjects hscope
    simp [ScopeMaps.matches, scopeClause, hteams, hprojects]
  | _ =>
    simp [ScopeMaps.matches, scopeClause]

/-! ### Agreement -/

section Bulk

variable (principalType : PrincipalType) (principalId : String) (scopeKind : ScopeKind)

theorem mem_scopeBindings {scope : String} {binding : CorporateRoleBinding} :
    binding ∈ scopeBindings database organizationId principalType principalId scopeKind scope ↔
      binding ∈ principalBindings database organizationId principalType principalId
          (fun _ ↦ true) ∧
        scopeClause database binding.scopeKind binding.scopeId scopeKind scope organizationId
          (binding.coverage = .descendants) = true := by
  simp [scopeBindings, principalBindings, principalRows, and_assoc]

theorem mem_scopeGrants {scope : String} {grant : CorporatePermissionGrant} :
    grant ∈ scopeGrants database organizationId principalType principalId scopeKind scope ↔
      grant ∈ principalGrants database organizationId principalType principalId (fun _ ↦ true) ∧
        scopeClause database grant.scopeKind grant.scopeId scopeKind scope organizationId false =
          true := by
  simp [scopeGrants, principalGrants, principalRows, and_assoc]

/-- What the loop of the bulk evaluator collects for one scope from the rows that match it. -/
theorem mem_matched {Row : Type} {rows : List Row} {ids : List String}
    {meets : Row → String → Bool} {column : Row → String} {id value : String} (hid : id ∈ ids) :
    value ∈ group (fun _ ↦ ∅) (rows.flatMap fun row ↦
        (ids.filter (meets row)).map fun scopeId ↦ (scopeId, column row)) id ↔
      ∃ row ∈ rows, meets row id = true ∧ column row = value := by
  simp only [mem_group, Finset.notMem_empty, false_or, List.mem_flatMap, List.mem_map,
    List.mem_filter, Prod.mk.injEq]
  constructor
  · rintro ⟨row, hrow, scopeId, ⟨-, hmeets⟩, rfl, hvalue⟩
    exact ⟨row, hrow, hmeets, hvalue⟩
  · rintro ⟨row, hrow, hmeets, hvalue⟩
    exact ⟨row, hrow, id, ⟨hid, hmeets⟩, rfl, hvalue⟩

/-- The role query of the bulk evaluator covers the roles of every scope. -/
theorem mem_queried {rows : List (String × String)} {id role : String}
    (hrole : role ∈ group (fun _ ↦ ∅) rows id) :
    role ∈ (if (rows.map (·.2)).toFinset = ∅ then {""} else (rows.map (·.2)).toFinset :
      Finset String) := by
  have hmem : role ∈ (rows.map (·.2)).toFinset := by
    rw [mem_group] at hrole
    have hpair : (id, role) ∈ rows := by simpa using hrole
    exact List.mem_toFinset.mpr (List.mem_map_of_mem hpair)
  rw [if_neg (Finset.ne_empty_of_mem hmem)]
  exact hmem

theorem bulk_eq {scopeIds : List String} {id : String} (hid : id ∈ scopeIds) (hne : id ≠ "") :
    (bulkEffectivePermissions database organizationId principalType principalId scopeKind
        scopeIds).bind (·.lookup id) =
      corporateEffectivePermissions database organizationId principalType principalId scopeKind
        (some id) none := by
  unfold bulkEffectivePermissions corporateEffectivePermissions
  split_ifs with hactive
  · have hsorted : id ∈ scopeIds.dedup.insertionSort (· ≤ ·) := by simpa using hid
    simp only [Option.bind_some, requestedScope, if_neg hne]
    rw [List.lookup_graph _ hsorted]
    congr 1
    ext permission
    rw [Finset.mem_union, Finset.mem_union]
    refine or_congr ?_ ?_
    · rw [Finset.mem_biUnion, mem_grantsForRoles]
      refine exists_congr fun role ↦ ?_
      rw [mem_rolePermissions, ← and_assoc, and_iff_left_of_imp mem_queried]
      refine and_congr_left fun _ ↦ ?_
      rw [mem_matched hsorted]
      simp only [List.mem_toFinset, List.mem_map, mem_scopeBindings, matches_eq hsorted, and_assoc]
    · rw [mem_matched hsorted]
      simp only [List.mem_toFinset, List.mem_map, mem_scopeGrants, matches_eq hsorted, and_assoc]
  · rfl

end Bulk

/-- For every state of the database, the bulk evaluator is denied exactly when the single one is,
answers for each scope that is not empty what the single evaluator answers there, and the
explanation of any scope names the same permissions. -/
theorem permissions_agree (database : Database) (organizationId : String)
    (principalType : PrincipalType) (principalId : String) (scopeKind : ScopeKind)
    (scopeIds : List String) :
    (∀ scopeId, bulkEffectivePermissions database organizationId principalType principalId scopeKind
        scopeIds = none ↔
      corporateEffectivePermissions database organizationId principalType principalId scopeKind
        scopeId none = none) ∧
    (∀ id ∈ scopeIds, id ≠ "" →
      (bulkEffectivePermissions database organizationId principalType principalId scopeKind
          scopeIds).bind (·.lookup id) =
        corporateEffectivePermissions database organizationId principalType principalId scopeKind
          (some id) none) ∧
    (∀ scopeId,
      (explainEffectivePermissions database organizationId principalType principalId scopeKind
          scopeId).map Prod.fst =
        corporateEffectivePermissions database organizationId principalType principalId scopeKind
          scopeId none) := by
  refine ⟨fun scopeId ↦ ?_, ?_, explain_eq principalType principalId scopeKind⟩
  · unfold bulkEffectivePermissions corporateEffectivePermissions
    split_ifs
    · simp
    · simp
  · intro id hid hne
    exact bulk_eq principalType principalId scopeKind hid hne

/-- A member whose role may read the telemetry of the organization. -/
def telemetryReader : Database where
  organizations := [⟨"organization_1", .corporate, .active, 1⟩]
  memberships := [⟨"organization_1", "account_1", .active⟩]
  roleBindings := [{
    id := "binding_1"
    organizationId := "organization_1"
    principalType := .user
    accountId := some "account_1"
    servicePrincipalId := none
    scopeKind := .telemetry
    scopeId := "organization_1"
    state := .active
    role := "analyst"
    coverage := .self
    origin := .assignment }]
  rolePermissions := [⟨"organization_1", "analyst", "telemetry.read"⟩]

theorem permissions_agree_telemetry :
    (bulkEffectivePermissions telemetryReader "organization_1" .user "account_1" .telemetry
        ["organization_1"]).bind (·.lookup "organization_1") =
      corporateEffectivePermissions telemetryReader "organization_1" .user "account_1" .telemetry
        (some "organization_1") none :=
  (permissions_agree telemetryReader "organization_1" .user "account_1" .telemetry
    ["organization_1"]).2.1 "organization_1" (by decide) (by decide)

/-- The empty scope is the organization for one evaluator and no scope for the other. -/
theorem empty_scope_differs :
    (bulkEffectivePermissions telemetryReader "organization_1" .user "account_1" .telemetry
        [""]).bind (·.lookup "") = some ∅ ∧
      corporateEffectivePermissions telemetryReader "organization_1" .user "account_1" .telemetry
        (some "") none = some {"telemetry.read"} := by
  constructor
  · decide
  · decide

end AiStp.Corporate
