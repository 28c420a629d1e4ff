import AiStp.Publication.Handlers

/-!
# What a commit leaves

Every commit of the server is one of the writes listed by `Writes`. Plans, snapshots, revisions,
identities and jobs stay in the database (`Grows`), and every row that is there after a commit was
there before or comes from the transaction that commits: `rowOrigin`, `identityOrigin`,
`snapshotOrigin` and `planOrigin` say how.
-/

set_option autoImplicit false

namespace AiStp.Publication

open Library Library.Transactions
open Queue (flushed)

/-! ### Commits -/

/-- The statements that commit, and what they leave. -/
inductive Writes (registry : Registry) (database : Database) (surroundings : Surroundings) :
    Work → Database → Prop
  | draft {request : DraftRequest} {after : Database}
      (h : database.insertVersion? request.key
        { blankRow request.ownerAccountId with
          currentRevisionId := request.currentRevisionId
          visibility := request.visibility
          name := request.name } = some after) :
      Writes registry database surroundings (.draft request .insert) after
  | create {origin : Origin} {request : PlanRequest} {passport : Passport}
      {held : Option CatalogIdentity} {after : Database}
      (h : insertPlan registry database surroundings origin request passport held = some after) :
      Writes registry database surroundings (.create origin request (.insert passport held)) after
  | key (call : ConfirmCall) (plan : PublicationPlan) :
      Writes registry database surroundings (.confirm call (.key plan))
        (database.flushPlan call.planId plan
          { plan with confirmIdempotencyKey := some call.idempotencyKey })
  | confirm (call : ConfirmCall) (plan : PublicationPlan) :
      Writes registry database surroundings (.confirm call (.confirm plan))
        ((database.flushPlan call.planId plan
          { plan with
            state := .validating
            confirmIdempotencyKey := some call.idempotencyKey }).enqueue .validate call.planId)
  | record {planId : String} {plan : PublicationPlan} {bindings : List Binding}
      {after : Database}
      (h : database.recordVerdict registry surroundings planId plan
        (bindings ++ surroundings.scan) = some after) :
      Writes registry database surroundings (.validate planId (.record plan bindings)) after
  | refuseValidation {planId : String} {plan : PublicationPlan} {after : Database}
      (h : database.refuseValidation surroundings planId plan = some after) :
      Writes registry database surroundings (.refuseValidation planId plan) after
  | refusePublish (planId : String) (plan : PublicationPlan) :
      Writes registry database surroundings (.refusePublish planId plan)
        (database.flushPlan planId plan { plan with state := .failed })
  | publish {planId : String} {plan : PublicationPlan} {passport : Passport} {digest : String}
      {held : Option CatalogIdentity} {existing : Option CatalogMetadata}
      {snapshot : ValidationSnapshot} {after : Database}
      (h : database.publishVersion registry surroundings planId plan passport digest held existing
        snapshot = some after) :
      Writes registry database surroundings
        (.publish planId (.write plan passport digest held existing snapshot)) after
  | republish (planId : String) (plan : PublicationPlan) (existing : CatalogMetadata) :
      Writes registry database surroundings (.publish planId (.republish plan existing))
        (database.republish surroundings planId plan existing)
  | transfer {call : TransferCall} {stableId : String} {identity : CatalogIdentity}
      {claimId : Option String} {keys : List VersionKey} {after : Database}
      (h : database.transfer surroundings call stableId identity claimId keys = some after) :
      Writes registry database surroundings
        (.transfer call (.commit stableId identity claimId keys)) after
  | fileCase (id : String) (row : ReportCase) :
      Writes registry database surroundings (.fileCase id row)
        { database with cases := database.cases.set id row }
  | fileClaim (id : String) (row : OwnershipClaim) :
      Writes registry database surroundings (.fileClaim id row)
        { database with claims := database.claims.set id row }

variable {registry : Registry} {database after : Database} {surroundings : Surroundings}
  {work : Work} {taken : List Lock}

theorem committed_eq_commit {result : Option Database}
    (h : committed result = .commit taken after) : result = some after := by
  cases result with
  | none => cases h
  | some database =>
    unfold committed at h
    injection h with _ hdatabase
    rw [hdatabase]

variable {request : PlanRequest} {origin : Origin}

theorem writes_of_createStatement {stage : CreateStage}
    (h : createStatement registry database surroundings origin request stage = .commit taken after) :
    Writes registry database surroundings (.create origin request stage) after := by
  cases stage with
  | insert passport held => exact .create (committed_eq_commit h)
  | _ =>
    simp only [createStatement] at h
    repeat' split at h
    all_goals cases h

variable {planId : String}

theorem writes_of_publishStatement {stage : PublishStage}
    (h : publishStatement registry database surroundings planId stage = .commit taken after) :
    Writes registry database surroundings (.publish planId stage) after := by
  cases stage with
  | write plan passport digest held existing snapshot => exact .publish (committed_eq_commit h)
  | republish plan existing =>
    injection h with _ hafter
    rw [← hafter]
    exact .republish planId plan existing
  | _ =>
    simp only [publishStatement] at h
    repeat' split at h
    all_goals cases h

theorem writes_of_confirmStatement {call : ConfirmCall} {stage : ConfirmStage}
    (h : confirmStatement database surroundings call stage = .commit taken after) :
    Writes registry database surroundings (.confirm call stage) after := by
  cases stage with
  | load =>
    simp only [confirmStatement] at h
    repeat' split at h
    all_goals cases h
  | key plan =>
    injection h with _ hafter
    rw [← hafter]
    exact .key call plan
  | confirm plan =>
    simp only [confirmStatement] at h
    split at h
    · cases h
    · injection h with _ hafter
      rw [← hafter]
      exact .confirm call plan

theorem writes_of_validateStatement {stage : ValidateStage}
    (h : validateStatement registry database surroundings planId stage = .commit taken after) :
    Writes registry database surroundings (.validate planId stage) after := by
  cases stage with
  | record plan bindings => exact .record (committed_eq_commit h)
  | _ =>
    simp only [validateStatement] at h
    repeat' split at h
    all_goals cases h

theorem writes_of_draftStatement {request : DraftRequest} {stage : DraftStage}
    (h : draftStatement database request stage = .commit taken after) :
    Writes registry database surroundings (.draft request stage) after := by
  cases stage with
  | insert => exact .draft (committed_eq_commit h)
  | _ =>
    simp only [draftStatement] at h
    repeat' split at h
    all_goals cases h

variable {call : TransferCall}

theorem writes_of_transferStatement {stage : TransferStage}
    (h : transferStatement database surroundings call stage = .commit taken after) :
    Writes registry database surroundings (.transfer call stage) after := by
  cases stage with
  | commit stableId identity claimId keys => exact .transfer (committed_eq_commit h)
  | _ =>
    simp only [transferStatement] at h
    repeat' split at h
    all_goals cases h

/-- Whatever a statement commits is one of the writes. -/
theorem writes_of_commit (h : statement registry database work surroundings =
    .commit taken after) : Writes registry database surroundings work after := by
  unfold statement at h
  split_ifs at h
  cases work with
  | draft request stage => exact writes_of_draftStatement h
  | create origin request stage => exact writes_of_createStatement h
  | confirm call stage => exact writes_of_confirmStatement h
  | validate planId stage => exact writes_of_validateStatement h
  | publish planId stage => exact writes_of_publishStatement h
  | settle jobType planId =>
    simp only [settleStatement] at h
    repeat' split at h
    all_goals cases h
  | refuseValidation planId plan => exact .refuseValidation (committed_eq_commit h)
  | refusePublish planId plan =>
    injection h with _ hafter
    rw [← hafter]
    exact .refusePublish planId plan
  | transfer call stage => exact writes_of_transferStatement h
  | fileCase id row =>
    injection h with _ hafter
    rw [← hafter]
    exact .fileCase id row
  | fileClaim id row =>
    injection h with _ hafter
    rw [← hafter]
    exact .fileClaim id row

/-! ### Rows that stay -/

/-- Two states of one plan: everything is the same but the columns that handlers write. -/
def PublicationPlan.SameSurface (plan later : PublicationPlan) : Prop :=
  later = { plan with
    state := later.state
    componentVerified := later.componentVerified
    confirmIdempotencyKey := later.confirmIdempotencyKey }

variable {plan later : PublicationPlan}

namespace PublicationPlan

theorem SameSurface.refl (plan : PublicationPlan) : plan.SameSurface plan := rfl

theorem SameSurface.symm (h : plan.SameSurface later) : later.SameSurface plan := by
  unfold SameSurface at h ⊢
  rw [h]

theorem SameSurface.trans {first second third : PublicationPlan} (h : first.SameSurface second)
    (h' : second.SameSurface third) : first.SameSurface third := by
  unfold SameSurface at h h' ⊢
  rw [h', h]

theorem sameSurface_flush (loaded written current : PublicationPlan) :
    current.SameSurface (loaded.flush written current) := rfl

end PublicationPlan

/-- What one commit, or many, leave of the rows that were there. -/
structure Grows (before after : Database) : Prop where
  plans : before.plans.Keeps PublicationPlan.SameSurface after.plans
  snapshots : before.snapshots.Keeps (· = ·) after.snapshots
  revisions : before.revisions.Keeps (· = ·) after.revisions
  identities : before.identities.Keeps (fun _ _ ↦ True) after.identities
  catalog : before.catalog.Keeps (fun _ _ ↦ True) after.catalog
  jobs : before.jobs ⊆ after.jobs

theorem Grows.refl (database : Database) : Grows database database where
  plans := Table.Keeps.refl PublicationPlan.SameSurface.refl _
  snapshots := Table.Keeps.refl (fun _ ↦ rfl) _
  revisions := Table.Keeps.refl (fun _ ↦ rfl) _
  identities := Table.Keeps.refl (fun _ ↦ trivial) _
  catalog := Table.Keeps.refl (fun _ ↦ trivial) _
  jobs := List.Subset.refl _

theorem Grows.trans {first second third : Database} (h : Grows first second)
    (h' : Grows second third) : Grows first third where
  plans := Table.Keeps.trans (fun _ _ _ hone htwo ↦ hone.trans htwo) h.plans h'.plans
  snapshots := Table.Keeps.trans (fun _ _ _ hone htwo ↦ hone.trans htwo) h.snapshots h'.snapshots
  revisions := Table.Keeps.trans (fun _ _ _ hone htwo ↦ hone.trans htwo) h.revisions h'.revisions
  identities := Table.Keeps.trans (fun _ _ _ _ _ ↦ trivial) h.identities h'.identities
  catalog := Table.Keeps.trans (fun _ _ _ _ _ ↦ trivial) h.catalog h'.catalog
  jobs := List.Subset.trans h.jobs h'.jobs

/-- Rewriting catalog rows leaves the rest. -/
theorem grows_catalog (database : Database)
    (write : VersionKey → CatalogMetadata → CatalogMetadata) :
    Grows database { database with catalog := database.catalog.mapRows write } :=
  { Grows.refl database with catalog := Table.keeps_mapRows fun _ _ ↦ trivial }

theorem grows_enqueue (database : Database) (jobType : JobType) (planId : String) :
    Grows database (database.enqueue jobType planId) := by
  unfold Database.enqueue
  split_ifs
  · exact Grows.refl database
  · exact { Grows.refl database with jobs := List.subset_append_left _ _ }

theorem grows_flushPlan (database : Database) (planId : String) (loaded written : PublicationPlan) :
    Grows database (database.flushPlan planId loaded written) := by
  refine { Grows.refl database with plans := Table.keeps_mapRows ?_ }
  intro id row
  split_ifs
  · exact PublicationPlan.sameSurface_flush loaded written row
  · exact PublicationPlan.SameSurface.refl row

variable {key : VersionKey}

theorem insertVersion?_eq_some {row : CatalogMetadata}
    (h : database.insertVersion? key row = some after) :
    ∃ catalog, database.catalog.insert? key row = some catalog ∧
      after = { database with catalog := catalog } := by
  unfold Database.insertVersion? at h
  simp only [Option.bind_eq_bind, Option.bind_eq_some_iff] at h
  obtain ⟨-, -, catalog, hcatalog, hafter⟩ := h
  exact ⟨catalog, hcatalog, (Option.some.inj hafter).symm⟩

variable {snapshot : ValidationSnapshot} {id : String}

theorem insertSnapshot?_eq_some (h : database.insertSnapshot? id snapshot = some after) :
    database.snapshotOf snapshot.planId = none ∧
      ∃ snapshots, database.snapshots.insert? id snapshot = some snapshots ∧
        after = { database with snapshots := snapshots } := by
  unfold Database.insertSnapshot? at h
  simp only [Option.bind_eq_bind, Option.bind_eq_some_iff, Option.guard_eq_some'] at h
  obtain ⟨-, hnone, -, -, snapshots, hsnapshots, hafter⟩ := h
  exact ⟨hnone, snapshots, hsnapshots, (Option.some.inj hafter).symm⟩

variable {identity : CatalogIdentity} {stableId : String}

theorem insertIdentity?_eq_some
    (h : database.insertIdentity? registry stableId identity = some after) :
    ∃ identities, database.identities.insert? stableId identity = some identities ∧
      after = { database with identities := identities } := by
  unfold Database.insertIdentity? at h
  simp only [Option.bind_eq_bind, Option.bind_eq_some_iff] at h
  obtain ⟨-, -, identities, hidentities, hafter⟩ := h
  exact ⟨identities, hidentities, (Option.some.inj hafter).symm⟩

theorem insertPlan?_eq_some (h : database.insertPlan? id plan = some after) :
    ∃ plans, database.plans.insert? id plan = some plans ∧
      after = { database with plans := plans } := by
  unfold Database.insertPlan? at h
  simp only [Option.bind_eq_bind, Option.bind_eq_some_iff] at h
  obtain ⟨-, -, plans, hplans, hafter⟩ := h
  exact ⟨plans, hplans, (Option.some.inj hafter).symm⟩

theorem grows_insertVersion? {row : CatalogMetadata}
    (h : database.insertVersion? key row = some after) : Grows database after := by
  obtain ⟨catalog, hcatalog, rfl⟩ := insertVersion?_eq_some h
  exact { Grows.refl database with
    catalog := Table.keeps_insert? (fun _ ↦ trivial) hcatalog }

theorem grows_insertSnapshot? (h : database.insertSnapshot? id snapshot = some after) :
    Grows database after := by
  obtain ⟨-, snapshots, hsnapshots, rfl⟩ := insertSnapshot?_eq_some h
  exact { Grows.refl database with
    snapshots := Table.keeps_insert? (fun _ ↦ rfl) hsnapshots }

theorem grows_insertIdentity?
    (h : database.insertIdentity? registry stableId identity = some after) :
    Grows database after := by
  obtain ⟨identities, hidentities, rfl⟩ := insertIdentity?_eq_some h
  exact { Grows.refl database with
    identities := Table.keeps_insert? (fun _ ↦ trivial) hidentities }

theorem grows_insertPlan? (h : database.insertPlan? id plan = some after) :
    Grows database after := by
  obtain ⟨plans, hplans, rfl⟩ := insertPlan?_eq_some h
  exact { Grows.refl database with
    plans := Table.keeps_insert? PublicationPlan.SameSurface.refl hplans }

variable {held : Option CatalogIdentity} {names : LineNames} {ownerAccountId : String}

section

variable (h : ensureIdentity registry database stableId ownerAccountId names held =
  some (after, identity))
include h

theorem ensureIdentity_eq_some :
    (held = some identity ∧ after = database) ∨
      (held = none ∧ identity.ownerAccountId = ownerAccountId ∧
        identity.ownershipRevisionId = "" ∧
        database.insertIdentity? registry stableId identity = some after) := by
  unfold ensureIdentity at h
  rw [Option.bind_eq_bind, Option.bind_eq_some_iff] at h
  obtain ⟨fresh, hfresh, h⟩ := h
  cases held with
  | some other =>
    obtain ⟨rfl, rfl⟩ := Prod.mk.inj (Option.some.inj h)
    exact .inl ⟨rfl, rfl⟩
  | none =>
    rw [Option.bind_eq_bind, Option.bind_eq_some_iff] at h
    obtain ⟨middle, hmiddle, h⟩ := h
    obtain ⟨rfl, rfl⟩ := Prod.mk.inj (Option.some.inj h)
    unfold newIdentity at hfresh
    simp only [Option.bind_eq_bind, Option.bind_eq_some_iff] at hfresh
    obtain ⟨slug, -, english, -, russian, -, hidentity⟩ := hfresh
    obtain rfl := Option.some.inj hidentity
    exact .inr ⟨rfl, rfl, rfl, hmiddle⟩

/-- Nothing but the identities may change. -/
theorem ensureIdentity_only :
    ∃ identities, after = { database with identities := identities } := by
  rcases ensureIdentity_eq_some h with ⟨-, rfl⟩ | ⟨-, -, -, hinsert⟩
  · exact ⟨after.identities, rfl⟩
  · obtain ⟨identities, -, rfl⟩ := insertIdentity?_eq_some hinsert
    exact ⟨identities, rfl⟩

theorem grows_ensureIdentity : Grows database after := by
  rcases ensureIdentity_eq_some h with ⟨-, rfl⟩ | ⟨-, -, -, hinsert⟩
  · exact Grows.refl after
  · exact grows_insertIdentity? hinsert

theorem catalog_ensureIdentity : after.catalog = database.catalog := by
  obtain ⟨identities, rfl⟩ := ensureIdentity_only h
  rfl

theorem plans_ensureIdentity : after.plans = database.plans := by
  obtain ⟨identities, rfl⟩ := ensureIdentity_only h
  rfl

end

variable {passport : Passport}

section

variable (h : insertPlan registry database surroundings origin request passport held = some after)
include h

/-- A plan that is inserted: a component's is made under the revision of its line. -/
theorem insertPlan_eq_some :
    ∃ middle expected inserted,
      middle.insertPlan? surroundings.newId
        (newPlan registry origin request passport expected surroundings.now) = some inserted ∧
      (after = inserted ∨ after = inserted.enqueue .validate surroundings.newId) ∧
      ((request.objectKind = .setup ∧ expected = none ∧ middle = database) ∨
        (request.objectKind = .component ∧ ∃ identity,
          expected = some identity.ownershipRevisionId ∧
          ensureIdentity registry database request.stableId request.actorAccountId
            (lineNames request passport origin) held = some (middle, identity))) := by
  unfold insertPlan at h
  split at h
  · next hkind => exact ⟨database, none, after, h, .inl rfl, .inl ⟨hkind, rfl, rfl⟩⟩
  · next hkind =>
    simp only [Option.bind_eq_bind, Option.bind_eq_some_iff] at h
    obtain ⟨-, -, ⟨middle, identity⟩, hensure, inserted, hinserted, h⟩ := h
    refine ⟨middle, _, inserted, hinserted, ?_, .inr ⟨hkind, identity, rfl, hensure⟩⟩
    cases origin with
    | request => exact .inl (Option.some.inj h).symm
    | upstream names => exact .inr (Option.some.inj h).symm

theorem grows_insertPlan : Grows database after := by
  obtain ⟨middle, expected, inserted, hinserted, hafter, hmiddle⟩ := insertPlan_eq_some h
  have hstart : Grows database middle := by
    rcases hmiddle with ⟨-, -, rfl⟩ | ⟨-, identity, -, hensure⟩
    · exact Grows.refl middle
    · exact grows_ensureIdentity hensure
  have hend : Grows inserted after := by
    rcases hafter with rfl | rfl
    · exact Grows.refl after
    · exact grows_enqueue inserted .validate surroundings.newId
  exact (hstart.trans (grows_insertPlan? hinserted)).trans hend

end

theorem refuseValidation_eq_some
    (h : database.refuseValidation surroundings planId plan = some after) :
    ∃ inserted,
      database.insertSnapshot? surroundings.newId (refusalSnapshot planId plan) = some inserted ∧
        after = inserted.flushPlan planId plan { plan with state := .failed } := by
  unfold Database.refuseValidation at h
  rw [Option.bind_eq_bind, Option.bind_eq_some_iff] at h
  obtain ⟨inserted, hinserted, hafter⟩ := h
  exact ⟨inserted, hinserted, (Option.some.inj hafter).symm⟩

/-- A verdict that is recorded: the snapshot, and where the plan goes with it. -/
theorem recordVerdict_eq_some {bindings : List Binding}
    (h : database.recordVerdict registry surroundings planId plan bindings = some after) :
    ∃ verified inserted,
      database.insertSnapshot? surroundings.newId
        (verdictSnapshot planId plan bindings verified) = some inserted ∧
      ((snapshotOutcome bindings).1 = .failed ∧
          after = inserted.flushPlan planId plan { plan with state := .failed } ∨
        (snapshotOutcome bindings).1 ≠ .failed ∧
          after = (inserted.flushPlan planId plan
            { plan with state := .publishPlanned, componentVerified := verified }).enqueue
              .publish planId) := by
  unfold Database.recordVerdict at h
  rw [Option.bind_eq_bind, Option.bind_eq_some_iff] at h
  obtain ⟨inserted, hinserted, h⟩ := h
  refine ⟨_, inserted, hinserted, ?_⟩
  split_ifs at h with hfailed
  · exact .inl ⟨hfailed, (Option.some.inj h).symm⟩
  · exact .inr ⟨hfailed, (Option.some.inj h).symm⟩

variable {existing : Option CatalogMetadata} {digest : String}

/-- Nothing but the catalog changes. -/
theorem writeVersion_only {now : Moment}
    (h : database.writeVersion plan passport digest now snapshot existing = some after) :
    ∃ catalog, after = { database with catalog := catalog } := by
  cases existing with
  | none =>
    obtain ⟨catalog, -, rfl⟩ := insertVersion?_eq_some h
    exact ⟨catalog, rfl⟩
  | some row => exact ⟨_, (Option.some.inj h).symm⟩

theorem grows_writeVersion {now : Moment}
    (h : database.writeVersion plan passport digest now snapshot existing = some after) :
    Grows database after := by
  cases existing with
  | none => exact grows_insertVersion? h
  | some row =>
    obtain rfl := Option.some.inj h
    exact grows_catalog database _

variable (h : database.publishVersion registry surroundings planId plan passport digest held
  existing snapshot = some after)

include h in
/-- A version that is published: the row is written, and the plan ends. -/
theorem publishVersion_eq_some :
    ∃ middle written,
      middle.writeVersion plan passport digest surroundings.now snapshot existing =
        some written ∧
      after = written.flushPlan planId plan
        { plan with state := .published, componentVerified := snapshot.componentVerified } ∧
      ((plan.objectKind = .setup ∧ middle = database) ∨
        (plan.objectKind = .component ∧ ∃ identity,
          ensureIdentity registry database plan.stableId plan.actorAccountId (publishNames plan)
            held = some (middle, identity))) := by
  unfold Database.publishVersion at h
  split at h
  · next hkind =>
    rw [Option.bind_eq_bind, Option.bind_eq_some_iff] at h
    obtain ⟨written, hwritten, hafter⟩ := h
    exact ⟨database, written, hwritten, (Option.some.inj hafter).symm, .inl ⟨hkind, rfl⟩⟩
  · next hkind =>
    simp only [Option.bind_eq_bind, Option.bind_eq_some_iff] at h
    obtain ⟨⟨middle, identity⟩, hensure, written, hwritten, hafter⟩ := h
    exact ⟨middle, written, hwritten, (Option.some.inj hafter).symm,
      .inr ⟨hkind, identity, hensure⟩⟩

include h in
/-- Nothing but the identities, the catalog and the plans may change. -/
theorem publishVersion_only :
    ∃ identities catalog plans, after = { database with
      identities := identities
      catalog := catalog
      plans := plans } := by
  obtain ⟨middle, written, hwritten, rfl, hmiddle⟩ := publishVersion_eq_some h
  obtain ⟨catalog, rfl⟩ := writeVersion_only hwritten
  rcases hmiddle with ⟨-, rfl⟩ | ⟨-, identity, hensure⟩
  · exact ⟨middle.identities, catalog, _, rfl⟩
  · obtain ⟨identities, rfl⟩ := ensureIdentity_only hensure
    exact ⟨identities, catalog, _, rfl⟩

theorem transfer_eq_some {claimId : Option String} {keys : List VersionKey}
    (h : database.transfer surroundings call stableId identity claimId keys = some after) :
    ∃ revision revisions,
      database.revisions.insert? (operationId surroundings.newId) revision = some revisions ∧
      revision.stableId = stableId ∧ after.plans = database.plans ∧
      after.snapshots = database.snapshots ∧ after.jobs = database.jobs ∧
      after.revisions = revisions ∧
      after.identities = database.identities.update stableId
        { identity with
          ownerAccountId := call.recipientAccountId
          ownershipRevisionId := operationId surroundings.newId } ∧
      after.catalog = moveRows database.catalog keys call.recipientAccountId := by
  unfold Database.transfer at h
  simp only [Option.bind_eq_bind, Option.bind_eq_some_iff] at h
  obtain ⟨revisions, hrevisions, hafter⟩ := h
  obtain rfl := Option.some.inj hafter
  exact ⟨_, revisions, hrevisions, rfl, rfl, rfl, rfl, rfl, rfl, rfl⟩

theorem grows_transfer {claimId : Option String} {keys : List VersionKey}
    (h : database.transfer surroundings call stableId identity claimId keys = some after) :
    Grows database after := by
  obtain ⟨revision, revisions, hrevisions, -, hplans, hsnapshots, hjobs, hafter, hidentities,
    hcatalog⟩ := transfer_eq_some h
  refine { Grows.refl database with
    plans := ?_, snapshots := ?_, revisions := ?_, identities := ?_, catalog := ?_, jobs := ?_ }
  · rw [hplans]
    exact (Grows.refl database).plans
  · rw [hsnapshots]
    exact (Grows.refl database).snapshots
  · rw [hafter]
    exact Table.keeps_insert? (fun _ ↦ rfl) hrevisions
  · rw [hidentities]
    intro other row hrow
    rw [Table.get?_update]
    by_cases hother : other = stableId
    · rw [if_pos hother, ← hother, hrow]
      exact ⟨_, rfl, trivial⟩
    · rw [if_neg hother]
      exact ⟨row, hrow, trivial⟩
  · rw [hcatalog]
    exact Table.keeps_mapRows fun _ _ ↦ trivial
  · rw [hjobs]
    exact List.Subset.refl _

/-- No commit takes a plan, a snapshot, a revision, an identity or a job away. -/
theorem grows_of_writes (h : Writes registry database surroundings work after) :
    Grows database after := by
  cases h with
  | draft h => exact grows_insertVersion? h
  | create h => exact grows_insertPlan h
  | key call plan => exact grows_flushPlan database call.planId plan _
  | confirm call plan =>
    exact (grows_flushPlan database call.planId plan _).trans (grows_enqueue _ _ _)
  | record h =>
    obtain ⟨verified, inserted, hinserted, ⟨-, rfl⟩ | ⟨-, rfl⟩⟩ := recordVerdict_eq_some h
    · exact (grows_insertSnapshot? hinserted).trans (grows_flushPlan inserted _ _ _)
    · exact ((grows_insertSnapshot? hinserted).trans (grows_flushPlan inserted _ _ _)).trans
        (grows_enqueue _ _ _)
  | refuseValidation h =>
    obtain ⟨inserted, hinserted, rfl⟩ := refuseValidation_eq_some h
    exact (grows_insertSnapshot? hinserted).trans (grows_flushPlan inserted _ _ _)
  | refusePublish planId plan => exact grows_flushPlan database planId plan _
  | publish h =>
    obtain ⟨middle, written, hwritten, rfl, hmiddle⟩ := publishVersion_eq_some h
    have hstart : Grows database middle := by
      rcases hmiddle with ⟨-, rfl⟩ | ⟨-, identity, hensure⟩
      · exact Grows.refl middle
      · exact grows_ensureIdentity hensure
    exact (hstart.trans (grows_writeVersion hwritten)).trans (grows_flushPlan written _ _ _)
  | republish planId plan existing =>
    exact (grows_flushPlan database planId plan _).trans (grows_catalog _ _)
  | transfer h => exact grows_transfer h
  | fileCase id row => exact { Grows.refl database with jobs := List.Subset.refl _ }
  | fileClaim id row => exact { Grows.refl database with jobs := List.Subset.refl _ }

/-! ### Where a row comes from -/

/-- A version row after a commit. -/
inductive RowOrigin (database : Database) (surroundings : Surroundings) (work : Work)
    (key : VersionKey) (later : CatalogMetadata) : Prop
  | kept (hrow : database.catalog.get? key = some later)
  | drafted (hfree : database.catalog.get? key = none) (hdraft : later.lifecycleState = .draft)
  | published (planId : String) (plan : PublicationPlan) (passport : Passport) (digest : String)
      (held : Option CatalogIdentity) (existing : Option CatalogMetadata)
      (snapshot : ValidationSnapshot) (row : CatalogMetadata)
      (hwork : work = .publish planId (.write plan passport digest held existing snapshot))
      (hkey : key = .of plan)
      (hrow : (existing = none ∧ database.catalog.get? key = none ∧
          row = blankRow plan.actorAccountId) ∨
        (existing.isSome ∧ database.catalog.get? key = some row))
      (hlater : later = publishedRow plan passport digest surroundings.now snapshot row)
  | verified (planId : String) (plan : PublicationPlan) (existing row : CatalogMetadata)
      (hwork : work = .publish planId (.republish plan existing)) (hkey : key = .of plan)
      (hrow : database.catalog.get? key = some row)
      (hlater : later = { row with componentVerified := later.componentVerified })
  | moved (call : TransferCall) (stableId : String) (identity : CatalogIdentity)
      (claimId : Option String) (keys : List VersionKey) (row : CatalogMetadata)
      (hwork : work = .transfer call (.commit stableId identity claimId keys)) (hkey : key ∈ keys)
      (hrow : database.catalog.get? key = some row)
      (hlater : later = { row with ownerAccountId := call.recipientAccountId })

@[simp] theorem catalog_flushPlan {loaded written : PublicationPlan} :
    (database.flushPlan planId loaded written).catalog = database.catalog := rfl

variable {jobType : JobType}

@[simp] theorem catalog_enqueue : (database.enqueue jobType planId).catalog = database.catalog := by
  unfold Database.enqueue
  split_ifs <;> rfl

theorem catalog_insertSnapshot? (h : database.insertSnapshot? id snapshot = some after) :
    after.catalog = database.catalog := by
  obtain ⟨-, snapshots, -, rfl⟩ := insertSnapshot?_eq_some h
  rfl

theorem catalog_insertPlan
    (h : insertPlan registry database surroundings origin request passport held = some after) :
    after.catalog = database.catalog := by
  obtain ⟨middle, expected, inserted, hinserted, hafter, hmiddle⟩ := insertPlan_eq_some h
  have hstart : middle.catalog = database.catalog := by
    rcases hmiddle with ⟨-, -, rfl⟩ | ⟨-, identity, -, hensure⟩
    · rfl
    · exact catalog_ensureIdentity hensure
  obtain ⟨plans, -, rfl⟩ := insertPlan?_eq_some hinserted
  rcases hafter with rfl | rfl
  · exact hstart
  · rw [catalog_enqueue]
    exact hstart

/-- A table whose rows are rewritten under some keys. -/
theorem get?_rewritten {Key Row : Type} [DecidableEq Key] {table : Table Key Row}
    (condition : Key → Prop) [DecidablePred condition] {write : Row → Row} {key : Key} {later : Row}
    (h : (table.mapRows fun other row ↦ if condition other then write row else row).get? key =
      some later) : ∃ row, table.get? key = some row ∧
        ((¬ condition key ∧ later = row) ∨ (condition key ∧ later = write row)) := by
  rw [Table.get?_mapRows, Option.map_eq_some_iff] at h
  obtain ⟨row, hrow, hlater⟩ := h
  refine ⟨row, hrow, ?_⟩
  split_ifs at hlater with hkey
  · exact .inr ⟨hkey, hlater.symm⟩
  · exact .inl ⟨hkey, hlater.symm⟩

include h in
theorem rowOrigin_of_publish {later : CatalogMetadata}
    (hlater : after.catalog.get? key = some later) :
    RowOrigin database surroundings
      (.publish planId (.write plan passport digest held existing snapshot)) key later := by
  obtain ⟨middle, written, hwritten, rfl, hmiddle⟩ := publishVersion_eq_some h
  have hcatalog : middle.catalog = database.catalog := by
    rcases hmiddle with ⟨-, rfl⟩ | ⟨-, identity, hensure⟩
    · rfl
    · exact catalog_ensureIdentity hensure
  rw [catalog_flushPlan] at hlater
  cases existing with
  | none =>
    obtain ⟨catalog, hinsert, rfl⟩ := insertVersion?_eq_some hwritten
    obtain ⟨hfree, hget⟩ := Table.insert?_eq_some hinsert
    change catalog.get? key = some later at hlater
    rw [hget] at hlater
    split_ifs at hlater with hkey
    · refine .published planId plan passport digest held none snapshot _ rfl hkey
        (.inl ⟨rfl, ?_, rfl⟩) (Option.some.inj hlater).symm
      rw [hkey, ← hcatalog]
      exact hfree
    · rw [hcatalog] at hlater
      exact .kept hlater
  | some row =>
    obtain rfl := Option.some.inj hwritten
    obtain ⟨held', hheld, hcase⟩ := get?_rewritten _ hlater
    rw [hcatalog] at hheld
    rcases hcase with ⟨-, rfl⟩ | ⟨hkey, rfl⟩
    · exact .kept hheld
    · exact .published planId plan passport digest held (some row) snapshot held' rfl hkey
        (.inr ⟨rfl, hheld⟩) rfl

theorem rowOrigin (h : Writes registry database surroundings work after) {later : CatalogMetadata}
    (hlater : after.catalog.get? key = some later) :
    RowOrigin database surroundings work key later := by
  cases h with
  | draft h =>
    obtain ⟨catalog, hinsert, rfl⟩ := insertVersion?_eq_some h
    obtain ⟨hfree, hget⟩ := Table.insert?_eq_some hinsert
    change catalog.get? key = some later at hlater
    rw [hget] at hlater
    split_ifs at hlater with hkey
    · exact .drafted (by rw [hkey, hfree]) (by rw [← Option.some.inj hlater]; rfl)
    · exact .kept hlater
  | create h =>
    rw [catalog_insertPlan h] at hlater
    exact .kept hlater
  | key call plan => exact .kept hlater
  | confirm call plan =>
    rw [catalog_enqueue] at hlater
    exact .kept hlater
  | record h =>
    obtain ⟨verified, inserted, hinserted, hcase⟩ := recordVerdict_eq_some h
    have hcatalog : after.catalog = inserted.catalog := by
      rcases hcase with ⟨-, rfl⟩ | ⟨-, rfl⟩
      · rfl
      · exact catalog_enqueue
    rw [hcatalog, catalog_insertSnapshot? hinserted] at hlater
    exact .kept hlater
  | refuseValidation h =>
    obtain ⟨inserted, hinserted, rfl⟩ := refuseValidation_eq_some h
    rw [catalog_flushPlan, catalog_insertSnapshot? hinserted] at hlater
    exact .kept hlater
  | refusePublish planId plan => exact .kept hlater
  | publish h => exact rowOrigin_of_publish h hlater
  | republish planId plan existing =>
    obtain ⟨row, hrow, hcase⟩ := get?_rewritten _ hlater
    rcases hcase with ⟨-, rfl⟩ | ⟨hkey, rfl⟩
    · exact .kept hrow
    · exact .verified planId plan existing row rfl hkey hrow rfl
  | @transfer call stableId identity claimId keys _ h =>
    obtain ⟨-, -, -, -, -, -, -, -, -, hcatalog⟩ := transfer_eq_some h
    rw [hcatalog] at hlater
    obtain ⟨row, hrow, hcase⟩ := get?_rewritten _ hlater
    rcases hcase with ⟨-, rfl⟩ | ⟨hkey, rfl⟩
    · exact .kept hrow
    · exact .moved call stableId identity claimId keys row rfl hkey hrow rfl
  | fileCase id row => exact .kept hlater
  | fileClaim id row => exact .kept hlater

/-- A line identity after a commit. -/
inductive IdentityOrigin (database : Database) (surroundings : Surroundings) (work : Work)
    (stableId : String) (later : CatalogIdentity) : Prop
  | kept (hidentity : database.identities.get? stableId = some later)
  | created (hfree : database.identities.get? stableId = none)
      (hrevision : later.ownershipRevisionId = "")
      (hwork : (∃ origin request passport,
          work = .create origin request (.insert passport none)) ∨
        ∃ planId plan passport digest existing snapshot,
          work = .publish planId (.write plan passport digest none existing snapshot) ∧
            plan.objectKind = .component)
  | moved (call : TransferCall) (identity : CatalogIdentity) (claimId : Option String)
      (keys : List VersionKey) (held : CatalogIdentity)
      (hwork : work = .transfer call (.commit stableId identity claimId keys))
      (hidentity : database.identities.get? stableId = some held)
      (hlater : later = { identity with
        ownerAccountId := call.recipientAccountId
        ownershipRevisionId := operationId surroundings.newId })

theorem identities_insertPlan? (h : database.insertPlan? id plan = some after) :
    after.identities = database.identities := by
  obtain ⟨plans, -, rfl⟩ := insertPlan?_eq_some h
  rfl

@[simp] theorem identities_enqueue :
    (database.enqueue jobType planId).identities = database.identities := by
  unfold Database.enqueue
  split_ifs <;> rfl

theorem identities_insertSnapshot? (h : database.insertSnapshot? id snapshot = some after) :
    after.identities = database.identities := by
  obtain ⟨-, snapshots, -, rfl⟩ := insertSnapshot?_eq_some h
  rfl

theorem identities_writeVersion {now : Moment}
    (h : database.writeVersion plan passport digest now snapshot existing = some after) :
    after.identities = database.identities := by
  obtain ⟨catalog, rfl⟩ := writeVersion_only h
  rfl

/-- The line that `ensure_catalog_identity` leaves. -/
theorem get?_ensureIdentity {other : String} {later : CatalogIdentity}
    (h : ensureIdentity registry database stableId ownerAccountId names held =
      some (after, identity)) (hlater : after.identities.get? other = some later) :
    database.identities.get? other = some later ∨
      (held = none ∧ other = stableId ∧ later = identity ∧
        database.identities.get? other = none ∧ later.ownershipRevisionId = "") := by
  rcases ensureIdentity_eq_some h with ⟨-, rfl⟩ | ⟨hheld, -, hrevision, hinsert⟩
  · exact .inl hlater
  · obtain ⟨identities, hidentities, rfl⟩ := insertIdentity?_eq_some hinsert
    obtain ⟨hfree, hget⟩ := Table.insert?_eq_some hidentities
    change identities.get? other = some later at hlater
    rw [hget] at hlater
    split_ifs at hlater with hother
    · obtain rfl := Option.some.inj hlater
      exact .inr ⟨hheld, hother, rfl, by rw [hother, hfree], hrevision⟩
    · exact .inl hlater

theorem identityOrigin (h : Writes registry database surroundings work after)
    {later : CatalogIdentity} (hlater : after.identities.get? stableId = some later) :
    IdentityOrigin database surroundings work stableId later := by
  cases h with
  | draft h =>
    obtain ⟨catalog, -, rfl⟩ := insertVersion?_eq_some h
    exact .kept hlater
  | @create origin request passport held _ h =>
    obtain ⟨middle, expected, inserted, hinserted, hafter, hmiddle⟩ := insertPlan_eq_some h
    have hidentities : after.identities = middle.identities := by
      rcases hafter with rfl | rfl
      · exact identities_insertPlan? hinserted
      · rw [identities_enqueue]
        exact identities_insertPlan? hinserted
    rw [hidentities] at hlater
    rcases hmiddle with ⟨-, -, rfl⟩ | ⟨-, identity, -, hensure⟩
    · exact .kept hlater
    · rcases get?_ensureIdentity hensure hlater with hkept | ⟨rfl, -, -, hfree, hrevision⟩
      · exact .kept hkept
      · exact .created hfree hrevision (.inl ⟨origin, request, passport, rfl⟩)
  | key call plan => exact .kept hlater
  | confirm call plan =>
    rw [identities_enqueue] at hlater
    exact .kept hlater
  | record h =>
    obtain ⟨verified, inserted, hinserted, hcase⟩ := recordVerdict_eq_some h
    have hidentities : after.identities = inserted.identities := by
      rcases hcase with ⟨-, rfl⟩ | ⟨-, rfl⟩
      · rfl
      · exact identities_enqueue
    rw [hidentities, identities_insertSnapshot? hinserted] at hlater
    exact .kept hlater
  | refuseValidation h =>
    obtain ⟨inserted, hinserted, rfl⟩ := refuseValidation_eq_some h
    change inserted.identities.get? stableId = some later at hlater
    rw [identities_insertSnapshot? hinserted] at hlater
    exact .kept hlater
  | refusePublish planId plan => exact .kept hlater
  | @publish planId plan passport digest held existing snapshot _ h =>
    obtain ⟨middle, written, hwritten, rfl, hmiddle⟩ := publishVersion_eq_some h
    change written.identities.get? stableId = some later at hlater
    rw [identities_writeVersion hwritten] at hlater
    rcases hmiddle with ⟨-, rfl⟩ | ⟨hkind, identity, hensure⟩
    · exact .kept hlater
    · rcases get?_ensureIdentity hensure hlater with hkept | ⟨rfl, -, -, hfree, hrevision⟩
      · exact .kept hkept
      · exact .created hfree hrevision
          (.inr ⟨planId, plan, passport, digest, existing, snapshot, rfl, hkind⟩)
  | republish planId plan existing => exact .kept hlater
  | @transfer call line identity claimId keys _ h =>
    obtain ⟨-, -, -, -, -, -, -, -, hidentities, -⟩ := transfer_eq_some h
    rw [hidentities, Table.get?_update] at hlater
    split_ifs at hlater with hline
    · subst hline
      obtain ⟨held, hheld, hlater⟩ := Option.map_eq_some_iff.mp hlater
      exact .moved call identity claimId keys held rfl hheld hlater.symm
    · exact .kept hlater
  | fileCase id row => exact .kept hlater
  | fileClaim id row => exact .kept hlater

/-- A snapshot after a commit: a new one belongs to a plan that had none. -/
theorem snapshotOrigin (h : Writes registry database surroundings work after)
    {later : ValidationSnapshot} (hlater : after.snapshots.get? id = some later) :
    database.snapshots.get? id = some later ∨
      (id = surroundings.newId ∧ database.snapshotOf later.planId = none ∧
        later.state = (snapshotOutcome later.evidence).1 ∧
        ∃ plan, later.contentDigest = plan.contentDigest ∧
          ((∃ bindings, work = .validate later.planId (.record plan bindings)) ∨
            work = .refuseValidation later.planId plan)) := by
  have hinserted : ∀ {inserted : Database} {newId : String} {snapshot : ValidationSnapshot},
      database.insertSnapshot? newId snapshot = some inserted →
        inserted.snapshots.get? id = some later →
          database.snapshots.get? id = some later ∨
            (id = newId ∧ database.snapshotOf snapshot.planId = none ∧ later = snapshot) := by
    intro inserted newId snapshot hinsert hsnapshot
    obtain ⟨hnone, snapshots, hsnapshots, rfl⟩ := insertSnapshot?_eq_some hinsert
    change snapshots.get? id = some later at hsnapshot
    rw [(Table.insert?_eq_some hsnapshots).2] at hsnapshot
    split_ifs at hsnapshot with hid
    · exact .inr ⟨hid, hnone, (Option.some.inj hsnapshot).symm⟩
    · exact .inl hsnapshot
  cases h with
  | draft h =>
    obtain ⟨catalog, -, rfl⟩ := insertVersion?_eq_some h
    exact .inl hlater
  | create h =>
    obtain ⟨middle, expected, inserted, hinsert, hafter, hmiddle⟩ := insertPlan_eq_some h
    have hstart : middle.snapshots = database.snapshots := by
      rcases hmiddle with ⟨-, -, rfl⟩ | ⟨-, identity, -, hensure⟩
      · rfl
      · obtain ⟨identities, rfl⟩ := ensureIdentity_only hensure
        rfl
    obtain ⟨plans, -, rfl⟩ := insertPlan?_eq_some hinsert
    left
    rw [← hstart]
    rcases hafter with rfl | rfl
    · exact hlater
    · unfold Database.enqueue at hlater
      split_ifs at hlater
      · exact hlater
      · exact hlater
  | key call plan => exact .inl hlater
  | confirm call plan =>
    unfold Database.enqueue at hlater
    split_ifs at hlater
    · exact .inl hlater
    · exact .inl hlater
  | @record planId plan bindings _ h =>
    obtain ⟨verified, inserted, hinsert, hcase⟩ := recordVerdict_eq_some h
    have hsnapshots : after.snapshots = inserted.snapshots := by
      rcases hcase with ⟨-, rfl⟩ | ⟨-, rfl⟩
      · rfl
      · unfold Database.enqueue
        split_ifs <;> rfl
    rw [hsnapshots] at hlater
    rcases hinserted hinsert hlater with hkept | ⟨hid, hnone, rfl⟩
    · exact .inl hkept
    · exact .inr ⟨hid, hnone, rfl, plan, rfl, .inl ⟨bindings, rfl⟩⟩
  | @refuseValidation planId plan _ h =>
    obtain ⟨inserted, hinsert, rfl⟩ := refuseValidation_eq_some h
    rcases hinserted hinsert hlater with hkept | ⟨hid, hnone, rfl⟩
    · exact .inl hkept
    · exact .inr ⟨hid, hnone, rfl, plan, rfl, .inr rfl⟩
  | refusePublish planId plan => exact .inl hlater
  | publish h =>
    obtain ⟨identities, catalog, plans, rfl⟩ := publishVersion_only h
    exact .inl hlater
  | republish planId plan existing => exact .inl hlater
  | transfer h =>
    obtain ⟨-, -, -, -, -, hsnapshots, -, -, -, -⟩ := transfer_eq_some h
    rw [hsnapshots] at hlater
    exact .inl hlater
  | fileCase id row => exact .inl hlater
  | fileClaim id row => exact .inl hlater

/-- The plan whose state the next statement writes: as it was loaded, and the state it is given. -/
def Work.settles (surroundings : Surroundings) :
    Work → Option (String × PublicationPlan × PlanState)
  | .confirm call (.confirm plan) => some (call.planId, plan, .validating)
  | .validate planId (.record plan bindings) =>
    some (planId, plan,
      if (snapshotOutcome (bindings ++ surroundings.scan)).1 = .failed then .failed
      else .publishPlanned)
  | .refuseValidation planId plan => some (planId, plan, .failed)
  | .refusePublish planId plan => some (planId, plan, .failed)
  | .publish planId (.write plan _ _ _ _ _) => some (planId, plan, .published)
  | .publish planId (.republish plan _) => some (planId, plan, .published)
  | _ => none

/-- A plan after a commit. -/
inductive PlanOrigin (registry : Registry) (database : Database) (surroundings : Surroundings)
    (work : Work) (id : String) (later : PublicationPlan) : Prop
  | kept (row : PublicationPlan) (hrow : database.plans.get? id = some row)
      (hsame : row.SameSurface later) (hstate : later.state = row.state)
  | settled (row loaded : PublicationPlan) (target : PlanState)
      (hrow : database.plans.get? id = some row) (hsame : row.SameSurface later)
      (hsettles : work.settles surroundings = some (id, loaded, target))
      (hstate : later.state = flushed loaded.state target row.state)
  | created (origin : Origin) (request : PlanRequest) (passport : Passport)
      (held : Option CatalogIdentity) (expected : Option String)
      (hfree : database.plans.get? id = none)
      (hwork : work = .create origin request (.insert passport held))
      (hlater : later = newPlan registry origin request passport expected surroundings.now)
      (hline : (request.objectKind = .setup ∧ expected = none) ∨
        (request.objectKind = .component ∧ ∃ middle identity,
          expected = some identity.ownershipRevisionId ∧
          ensureIdentity registry database request.stableId request.actorAccountId
            (lineNames request passport origin) held = some (middle, identity)))

@[simp] theorem plans_enqueue : (database.enqueue jobType planId).plans = database.plans := by
  unfold Database.enqueue
  split_ifs <;> rfl

/-- A plan after its row was flushed to the plans of the database. -/
theorem planOrigin_flushPlan (middle : Database) (hplans : middle.plans = database.plans)
    {loaded written : PublicationPlan}
    (hlater : (middle.flushPlan planId loaded written).plans.get? id = some later)
    (hwork : written.state = loaded.state ∨
      work.settles surroundings = some (planId, loaded, written.state)) :
    PlanOrigin registry database surroundings work id later := by
  obtain ⟨row, hrow, hcase⟩ := get?_rewritten (fun other ↦ other = planId) hlater
  rw [hplans] at hrow
  rcases hcase with ⟨-, rfl⟩ | ⟨rfl, rfl⟩
  · exact .kept later hrow (.refl later) rfl
  · have hsame := PublicationPlan.sameSurface_flush loaded written row
    rcases hwork with hstate | hsettles
    · refine .kept row hrow hsame ?_
      change flushed loaded.state written.state row.state = row.state
      rw [hstate, Queue.flushed_self]
    · exact .settled row loaded written.state hrow hsame hsettles rfl

theorem planOrigin_of_create
    (h : insertPlan registry database surroundings origin request passport held = some after)
    (hlater : after.plans.get? id = some later) :
    PlanOrigin registry database surroundings (.create origin request (.insert passport held)) id
      later := by
  obtain ⟨middle, expected, inserted, hinserted, hafter, hmiddle⟩ := insertPlan_eq_some h
  have hstart : middle.plans = database.plans := by
    rcases hmiddle with ⟨-, -, rfl⟩ | ⟨-, identity, -, hensure⟩
    · rfl
    · exact plans_ensureIdentity hensure
  have hline : (request.objectKind = .setup ∧ expected = none) ∨
      (request.objectKind = .component ∧ ∃ middle identity,
        expected = some identity.ownershipRevisionId ∧
        ensureIdentity registry database request.stableId request.actorAccountId
          (lineNames request passport origin) held = some (middle, identity)) := by
    rcases hmiddle with ⟨hkind, hexpected, -⟩ | ⟨hkind, identity, hexpected, hensure⟩
    · exact .inl ⟨hkind, hexpected⟩
    · exact .inr ⟨hkind, middle, identity, hexpected, hensure⟩
  obtain ⟨plans, hplans, rfl⟩ := insertPlan?_eq_some hinserted
  have hget : plans.get? id = some later := by
    rcases hafter with rfl | rfl
    · exact hlater
    · rw [plans_enqueue] at hlater
      exact hlater
  obtain ⟨hfree, hget'⟩ := Table.insert?_eq_some hplans
  rw [hget'] at hget
  rw [hstart] at hfree hget
  split_ifs at hget with hid
  · exact .created origin request passport held expected (by rw [hid, hfree]) rfl
      (Option.some.inj hget).symm hline
  · exact .kept later hget (.refl later) rfl

theorem planOrigin (h : Writes registry database surroundings work after)
    (hlater : after.plans.get? id = some later) :
    PlanOrigin registry database surroundings work id later := by
  cases h with
  | draft h =>
    obtain ⟨catalog, -, rfl⟩ := insertVersion?_eq_some h
    exact .kept later hlater (.refl later) rfl
  | create h => exact planOrigin_of_create h hlater
  | key call plan => exact planOrigin_flushPlan _ rfl hlater (.inl rfl)
  | confirm call plan =>
    rw [plans_enqueue] at hlater
    exact planOrigin_flushPlan _ rfl hlater (.inr rfl)
  | @record planId plan bindings _ h =>
    obtain ⟨verified, inserted, hinserted, hcase⟩ := recordVerdict_eq_some h
    obtain ⟨-, snapshots, -, rfl⟩ := insertSnapshot?_eq_some hinserted
    rcases hcase with ⟨hfailed, rfl⟩ | ⟨hpassed, rfl⟩
    · refine planOrigin_flushPlan _ rfl hlater (.inr ?_)
      simp only [Work.settles]
      rw [if_pos hfailed]
    · rw [plans_enqueue] at hlater
      refine planOrigin_flushPlan _ rfl hlater (.inr ?_)
      simp only [Work.settles]
      rw [if_neg hpassed]
  | refuseValidation h =>
    obtain ⟨inserted, hinserted, rfl⟩ := refuseValidation_eq_some h
    obtain ⟨-, snapshots, -, rfl⟩ := insertSnapshot?_eq_some hinserted
    exact planOrigin_flushPlan _ rfl hlater (.inr rfl)
  | refusePublish planId plan => exact planOrigin_flushPlan _ rfl hlater (.inr rfl)
  | publish h =>
    obtain ⟨middle, written, hwritten, rfl, hmiddle⟩ := publishVersion_eq_some h
    have hstart : middle.plans = database.plans := by
      rcases hmiddle with ⟨-, rfl⟩ | ⟨-, identity, hensure⟩
      · rfl
      · exact plans_ensureIdentity hensure
    obtain ⟨catalog, rfl⟩ := writeVersion_only hwritten
    exact planOrigin_flushPlan middle hstart hlater (.inr rfl)
  | republish planId plan existing =>
    exact planOrigin_flushPlan database rfl hlater (.inr rfl)
  | transfer h =>
    obtain ⟨-, -, -, -, hplans, -, -, -, -, -⟩ := transfer_eq_some h
    rw [hplans] at hlater
    exact .kept later hlater (.refl later) rfl
  | fileCase id row => exact .kept later hlater (.refl later) rfl
  | fileClaim id row => exact .kept later hlater (.refl later) rfl

/-- A publish job is enqueued by the verdict that lets its plan go on. -/
theorem publishJob_of_writes (h : Writes registry database surroundings work after)
    (hjob : (JobType.publish, planId) ∈ after.jobs) :
    (JobType.publish, planId) ∈ database.jobs ∨ ∃ plan bindings,
      work = .validate planId (.record plan bindings) := by
  have henqueue : ∀ {middle : Database} {jobType : JobType} {other : String},
      (JobType.publish, planId) ∈ (middle.enqueue jobType other).jobs →
        (JobType.publish, planId) ∈ middle.jobs ∨ (jobType = .publish ∧ other = planId) := by
    intro middle jobType other hmem
    unfold Database.enqueue at hmem
    split_ifs at hmem with htaken
    · exact .inl hmem
    · rcases List.mem_append.mp hmem with hmem | hmem
      · exact .inl hmem
      · obtain ⟨htype, hother⟩ := Prod.mk.inj (List.mem_singleton.mp hmem)
        exact .inr ⟨htype.symm, hother.symm⟩
  cases h with
  | draft h =>
    obtain ⟨catalog, -, rfl⟩ := insertVersion?_eq_some h
    exact .inl hjob
  | create h =>
    obtain ⟨middle, expected, inserted, hinserted, hafter, hmiddle⟩ := insertPlan_eq_some h
    have hstart : middle.jobs = database.jobs := by
      rcases hmiddle with ⟨-, -, rfl⟩ | ⟨-, identity, -, hensure⟩
      · rfl
      · obtain ⟨identities, rfl⟩ := ensureIdentity_only hensure
        rfl
    obtain ⟨plans, -, rfl⟩ := insertPlan?_eq_some hinserted
    left
    rw [← hstart]
    rcases hafter with rfl | rfl
    · exact hjob
    · rcases henqueue hjob with hjob | ⟨htype, -⟩
      · exact hjob
      · cases htype
  | key call plan => exact .inl hjob
  | confirm call plan =>
    rcases henqueue hjob with hjob | ⟨htype, -⟩
    · exact .inl hjob
    · cases htype
  | @record other plan bindings _ h =>
    obtain ⟨verified, inserted, hinserted, hcase⟩ := recordVerdict_eq_some h
    obtain ⟨-, snapshots, -, rfl⟩ := insertSnapshot?_eq_some hinserted
    rcases hcase with ⟨-, rfl⟩ | ⟨-, rfl⟩
    · exact .inl hjob
    · rcases henqueue hjob with hjob | ⟨-, rfl⟩
      · exact .inl hjob
      · exact .inr ⟨plan, bindings, rfl⟩
  | refuseValidation h =>
    obtain ⟨inserted, hinserted, rfl⟩ := refuseValidation_eq_some h
    obtain ⟨-, snapshots, -, rfl⟩ := insertSnapshot?_eq_some hinserted
    exact .inl hjob
  | refusePublish planId plan => exact .inl hjob
  | publish h =>
    obtain ⟨identities, catalog, plans, rfl⟩ := publishVersion_only h
    exact .inl hjob
  | republish planId plan existing => exact .inl hjob
  | transfer h =>
    obtain ⟨-, -, -, -, -, -, hjobs, -, -, -⟩ := transfer_eq_some h
    rw [hjobs] at hjob
    exact .inl hjob
  | fileCase id row => exact .inl hjob
  | fileClaim id row => exact .inl hjob

end AiStp.Publication
