import AiStp.Publication.Commits

/-!
# What publication keeps

`Consistent` is the invariant of the database: a plan that ended, or whose publish job was enqueued,
has a snapshot; a version that left the draft state is vouched for by a plan and a snapshot that let
it pass; and the published versions of a component line belong to the owner of its identity.

`Relies` says what a transaction still counts on of what it has read. What it holds a lock on stays
as it was read (`identity_of_others`, `row_of_others`); plans, snapshots and revisions stay anyway.
`server_keeps` puts both together for the transactions of the server.
-/

set_option autoImplicit false

namespace AiStp.Publication

open Library Library.Transactions

/-! ### Facts about a database -/

/-- The plan that a transaction has loaded is there. -/
def Loaded (database : Database) (planId : String) (plan : PublicationPlan) : Prop :=
  ∃ row, database.plans.get? planId = some row ∧ row.SameSurface plan

/-- The plan has a snapshot. -/
def Judged (database : Database) (planId : String) : Prop :=
  ∃ id snapshot, database.snapshots.get? id = some snapshot ∧ snapshot.planId = planId

/-- The snapshot is the plan's, and lets it pass. -/
def Verdict (database : Database) (planId : String) (snapshot : ValidationSnapshot) : Prop :=
  ∃ id, database.snapshots.get? id = some snapshot ∧ snapshot.planId = planId ∧
    snapshot.state ≠ .failed

/-- The revision is the first of the line, or one that a transfer made. -/
def Knows (database : Database) (stableId revision : String) : Prop :=
  revision = "" ∨ ∃ row, database.revisions.get? revision = some row ∧ row.stableId = stableId

structure Accepted (registry : Registry) (plan : PublicationPlan) (passport : Passport) : Prop where
  model : registry.model plan.objectKind plan.passport = .ok passport
  digest : passport.artifactDigest = plan.contentDigest

/-- A plan and its snapshot stand behind a version row. -/
structure Vouches (registry : Registry) (database : Database) (key : VersionKey)
    (row : CatalogMetadata) (planId : String) (plan : PublicationPlan) (passport : Passport)
    (snapshot : ValidationSnapshot) : Prop where
  loaded : Loaded database planId plan
  named : key = .of plan
  accepted : Accepted registry plan passport
  document : row.passportDocument = some passport.document
  digest : ∃ digest, row.passportDigest = some digest ∧
    passportDigest registry passport = some digest
  verdict : Verdict database planId snapshot
  content : snapshot.contentDigest = plan.contentDigest

/-- The owner and the revision that a line has. -/
structure Consistent (registry : Registry) (database : Database) : Prop where
  enqueued : ∀ planId, (JobType.publish, planId) ∈ database.jobs → Judged database planId
  ended : ∀ planId plan, database.plans.get? planId = some plan → plan.state.terminal = true →
    Judged database planId
  single : ∀ id other snapshot snapshot', database.snapshots.get? id = some snapshot →
    database.snapshots.get? other = some snapshot' → snapshot.planId = snapshot'.planId → id = other
  snapshots : ∀ id snapshot, database.snapshots.get? id = some snapshot →
    snapshot.state = (snapshotOutcome snapshot.evidence).1 ∧
      ∃ plan, Loaded database snapshot.planId plan ∧ snapshot.contentDigest = plan.contentDigest
  vouched : ∀ key row, database.catalog.get? key = some row → row.lifecycleState ≠ .draft →
    ∃ planId plan passport snapshot, Vouches registry database key row planId plan passport snapshot
  plans : ∀ planId plan, database.plans.get? planId = some plan → plan.objectKind = .component →
    (database.identities.get? plan.stableId).isSome ∧
      ∃ revision, plan.expectedOwnershipRevisionId = some revision ∧
        Knows database plan.stableId revision
  lines : ∀ stableId identity, database.identities.get? stableId = some identity →
    Knows database stableId identity.ownershipRevisionId
  owners : ∀ key row, database.catalog.get? key = some row → key.objectKind = .component →
    row.lifecycleState ≠ .draft → ∃ identity,
      database.identities.get? key.stableId = some identity ∧
        row.ownerAccountId = identity.ownerAccountId

variable {planId : String} {snapshot : ValidationSnapshot} {key : VersionKey} {passport : Passport}

section Growing

variable {before after : Database}

theorem Loaded.grows {plan : PublicationPlan} (h : Loaded before planId plan)
    (hgrows : Grows before after) : Loaded after planId plan := by
  obtain ⟨row, hrow, hsame⟩ := h
  obtain ⟨later, hlater, hsame'⟩ := hgrows.plans planId row hrow
  exact ⟨later, hlater, hsame'.symm.trans hsame⟩

theorem Judged.grows (h : Judged before planId) (hgrows : Grows before after) :
    Judged after planId := by
  obtain ⟨id, snapshot, hsnapshot, hplan⟩ := h
  obtain ⟨later, hlater, rfl⟩ := hgrows.snapshots id snapshot hsnapshot
  exact ⟨id, snapshot, hlater, hplan⟩

theorem Verdict.grows (h : Verdict before planId snapshot) (hgrows : Grows before after) :
    Verdict after planId snapshot := by
  obtain ⟨id, hsnapshot, hplan⟩ := h
  obtain ⟨later, hlater, rfl⟩ := hgrows.snapshots id snapshot hsnapshot
  exact ⟨id, hlater, hplan⟩

theorem Knows.grows {stableId revision : String} (h : Knows before stableId revision)
    (hgrows : Grows before after) : Knows after stableId revision := by
  rcases h with hfirst | ⟨row, hrow, hline⟩
  · exact .inl hfirst
  · obtain ⟨later, hlater, rfl⟩ := hgrows.revisions revision row hrow
    exact .inr ⟨row, hlater, hline⟩

theorem Vouches.grows {registry : Registry} {row : CatalogMetadata} {plan : PublicationPlan}
    (h : Vouches registry before key row planId plan passport snapshot)
    (hgrows : Grows before after) : Vouches registry after key row planId plan passport snapshot :=
  { h with
    loaded := h.loaded.grows hgrows
    verdict := h.verdict.grows hgrows }

theorem isSome_identity {stableId : String} (h : (before.identities.get? stableId).isSome)
    (hgrows : Grows before after) : (after.identities.get? stableId).isSome := by
  obtain ⟨identity, hidentity⟩ := Option.isSome_iff_exists.mp h
  obtain ⟨later, hlater, -⟩ := hgrows.identities stableId identity hidentity
  rw [hlater]
  rfl

end Growing

theorem snapshotOf_of_judged {database : Database} (h : Judged database planId) :
    database.snapshotOf planId ≠ none := by
  obtain ⟨id, snapshot, hsnapshot, hplan⟩ := h
  intro hnone
  have hfalse := Table.find?_eq_none.mp hnone id snapshot hsnapshot
  simp [hplan] at hfalse

/-! ### What a transaction counts on -/

/-- The plan that a publication has loaded had not come to nothing. -/
def Live (plan : PublicationPlan) : Prop :=
  plan.state ∉ [.failed, .cancelled, .stale]

/-- The owner of a component line, held under its lock and not refusing the plan. -/
def Fenced (database : Database) (locks : List Lock) (plan : PublicationPlan)
    (held : Option CatalogIdentity) : Prop :=
  plan.objectKind = .component → .identity plan.stableId ∈ locks ∧
    ∃ identity, held = some identity ∧ database.identities.get? plan.stableId = some identity ∧
      identity.refuses plan.actorAccountId plan.expectedOwnershipRevisionId = false

/-- The draft that a publication writes over, held under its lock. -/
def Reserved (database : Database) (locks : List Lock) (plan : PublicationPlan)
    (existing : Option CatalogMetadata) : Prop :=
  ∀ row, existing = some row → .version (.of plan) ∈ locks ∧
    database.catalog.get? (.of plan) = some row ∧ row.ownerAccountId = plan.actorAccountId ∧
      row.lifecycleState = .draft

/-- The identity that a plan's creation has read: its line exists, and knows the revision. -/
def Read (database : Database) (stableId : String) (held : Option CatalogIdentity) : Prop :=
  ∀ identity, held = some identity → (database.identities.get? stableId).isSome ∧
    Knows database stableId identity.ownershipRevisionId

/-- The line that a transfer moves, held under its lock. -/
def Moves (database : Database) (locks : List Lock) (stableId : String)
    (identity : CatalogIdentity) : Prop :=
  .identity stableId ∈ locks ∧ database.identities.get? stableId = some identity

/-- The versions that a transfer has read: all that are published, each under its lock. -/
structure Covers (database : Database) (locks : List Lock) (stableId : String)
    (keys : List VersionKey) : Prop where
  locked : ∀ key ∈ keys, .version key ∈ locks
  line : ∀ key ∈ keys, key.objectKind = .component ∧ key.stableId = stableId
  published : ∀ key row, database.catalog.get? key = some row → key.objectKind = .component →
    key.stableId = stableId → row.lifecycleState ≠ .draft → key ∈ keys

def CreateStage.Relies (database : Database) (request : PlanRequest) : CreateStage → Prop
  | .line _ held | .rows _ held | .insert _ held => Read database request.stableId held
  | _ => True

def ConfirmStage.Relies (database : Database) (call : ConfirmCall) : ConfirmStage → Prop
  | .load => True
  | .key plan => Loaded database call.planId plan
  | .confirm plan => Loaded database call.planId plan ∧ plan.state.terminal = false

def ValidateStage.Relies (database : Database) (planId : String) : ValidateStage → Prop
  | .load => True
  | .existing plan | .sources plan | .record plan _ => Loaded database planId plan

def PublishStage.Relies (registry : Registry) (database : Database) (locks : List Lock)
    (planId : String) : PublishStage → Prop
  | .load => True
  | .expiry plan | .sources plan => Loaded database planId plan ∧ Live plan
  | .line plan passport | .rows plan passport | .identity plan passport =>
    Loaded database planId plan ∧ Live plan ∧ Accepted registry plan passport
  | .artifact plan passport held =>
    Loaded database planId plan ∧ Live plan ∧ Accepted registry plan passport ∧
      Fenced database locks plan held
  | .version plan passport digest held =>
    Loaded database planId plan ∧ Live plan ∧ Accepted registry plan passport ∧
      Fenced database locks plan held ∧ passportDigest registry passport = some digest
  | .snapshot plan passport digest held existing =>
    Loaded database planId plan ∧ Live plan ∧ Accepted registry plan passport ∧
      Fenced database locks plan held ∧ passportDigest registry passport = some digest ∧
        Reserved database locks plan existing
  | .ensure plan passport digest held existing found =>
    Loaded database planId plan ∧ Live plan ∧ Accepted registry plan passport ∧
      Fenced database locks plan held ∧ passportDigest registry passport = some digest ∧
        Reserved database locks plan existing ∧ Verdict database planId found ∧
          plan.objectKind = .component
  | .again _ _ _ _ _ => False
  | .write plan passport digest held existing found =>
    Loaded database planId plan ∧ Live plan ∧ Accepted registry plan passport ∧
      Fenced database locks plan held ∧ passportDigest registry passport = some digest ∧
        Reserved database locks plan existing ∧ Verdict database planId found
  | .republish plan _ =>
    Loaded database planId plan ∧ Live plan ∧ (∃ held, Fenced database locks plan held) ∧
      .version (.of plan) ∈ locks

def TransferStage.Relies (database : Database) (locks : List Lock) : TransferStage → Prop
  | .case | .identity _ _ => True
  | .claim stableId _ line | .rows stableId line _ =>
    Moves database locks stableId line
  | .commit stableId line _ keys =>
    Moves database locks stableId line ∧ Covers database locks stableId keys

def Work.Relies (registry : Registry) (database : Database) (locks : List Lock) : Work → Prop
  | .draft _ _ => True
  | .create _ request stage => stage.Relies database request
  | .confirm call stage => stage.Relies database call
  | .validate planId stage => stage.Relies database planId
  | .publish planId stage => Judged database planId ∧ stage.Relies registry database locks planId
  | .settle jobType planId => jobType = .publish → Judged database planId
  | .refuseValidation planId plan => Loaded database planId plan
  | .refusePublish planId plan =>
    Judged database planId ∧ Loaded database planId plan ∧ Live plan
  | .transfer _ stage => stage.Relies database locks
  | .fileCase _ _ | .fileClaim _ _ => True

/-! ### What holds a lock stays -/

section Others

variable {registry : Registry} {database after : Database} {surroundings : Surroundings}
  {work : Work} {locks otherLocks : List Lock} {plan : PublicationPlan}
  {held : Option CatalogIdentity} {existing : Option CatalogMetadata} {stableId : String}

theorem Read.grows (hread : Read database stableId held) (hgrows : Grows database after) :
    Read after stableId held := by
  intro identity hheld
  obtain ⟨hsome, hknows⟩ := hread identity hheld
  exact ⟨isSome_identity hsome hgrows, hknows.grows hgrows⟩

variable (h : Writes registry database surroundings work after)
  (hrelies : work.Relies registry database locks)

include h hrelies

/-- An identity changes only under its lock. -/
theorem identity_of_others {identity : CatalogIdentity}
    (hidentity : database.identities.get? stableId = some identity)
    (hlock : Lock.identity stableId ∉ locks) : after.identities.get? stableId = some identity := by
  obtain ⟨later, hlater, -⟩ := (grows_of_writes h).identities stableId identity hidentity
  rcases identityOrigin h hlater with hkept | ⟨hfree, -, -⟩ |
    ⟨call, held, claimId, keys, other, rfl, -, -⟩
  · rw [hlater, ← hkept, hidentity]
  · rw [hidentity] at hfree
    cases hfree
  · exact absurd hrelies.1.1 hlock

/-- A version row changes only under its lock. -/
theorem row_of_others {row : CatalogMetadata}
    (hrow : database.catalog.get? key = some row) (hlock : Lock.version key ∉ locks) :
    after.catalog.get? key = some row := by
  obtain ⟨later, hlater, -⟩ := (grows_of_writes h).catalog key row hrow
  cases rowOrigin h hlater with
  | kept hkept => rw [hlater, ← hkept, hrow]
  | drafted hfree hdraft =>
    rw [hrow] at hfree
    cases hfree
  | published planId plan passport digest held existing snapshot base hwork hkey hbase hlater' =>
    subst hwork hkey
    obtain ⟨-, -, -, -, -, -, hreserved, -⟩ := hrelies
    rcases hbase with ⟨-, hfree, -⟩ | ⟨hexisting, -⟩
    · rw [hrow] at hfree
      cases hfree
    · obtain ⟨draft, hdraft⟩ := Option.isSome_iff_exists.mp hexisting
      exact absurd (hreserved draft hdraft).1 hlock
  | verified planId plan existing base hwork hkey hbase hlater' =>
    subst hwork hkey
    exact absurd hrelies.2.2.2.2 hlock
  | moved call stableId identity claimId keys base hwork hkey hbase hlater' =>
    subst hwork
    exact absurd (hrelies.2.locked key hkey) hlock

/-- A version of a component line that leaves the draft state does so under the identity's lock. -/
theorem published_of_others {later : CatalogMetadata} (hlater : after.catalog.get? key = some later) (hkind : key.objectKind = .component)
    (hpublished : later.lifecycleState ≠ .draft) (hlock : Lock.identity key.stableId ∉ locks) :
    ∃ row, database.catalog.get? key = some row ∧ row.lifecycleState ≠ .draft := by
  cases rowOrigin h hlater with
  | kept hkept => exact ⟨later, hkept, hpublished⟩
  | drafted hfree hdraft => exact absurd hdraft hpublished
  | published planId plan passport digest held existing snapshot base hwork hkey hbase hlater' =>
    subst hwork hkey
    obtain ⟨-, -, -, -, hfenced, -⟩ := hrelies
    exact absurd (hfenced hkind).1 hlock
  | verified planId plan existing base hwork hkey hbase hlater' =>
    rw [hlater'] at hpublished
    exact ⟨base, hbase, hpublished⟩
  | moved call stableId identity claimId keys base hwork hkey hbase hlater' =>
    rw [hlater'] at hpublished
    exact ⟨base, hbase, hpublished⟩

variable (hdisjoint : ∀ lock ∈ locks, lock ∉ otherLocks)

include hdisjoint

theorem Fenced.others (hfenced : Fenced database otherLocks plan held) :
    Fenced after otherLocks plan held := by
  intro hkind
  obtain ⟨hlock, identity, hheld, hidentity, howner⟩ := hfenced hkind
  refine ⟨hlock, identity, hheld, identity_of_others h hrelies hidentity ?_, howner⟩
  intro hmem
  exact hdisjoint _ hmem hlock

theorem Reserved.others (hreserved : Reserved database otherLocks plan existing) :
    Reserved after otherLocks plan existing := by
  intro row hrow
  obtain ⟨hlock, hget, howner⟩ := hreserved row hrow
  refine ⟨hlock, row_of_others h hrelies hget ?_, howner⟩
  intro hmem
  exact hdisjoint _ hmem hlock

theorem Moves.others {identity : CatalogIdentity}
    (hmoves : Moves database otherLocks stableId identity) :
    Moves after otherLocks stableId identity := by
  refine ⟨hmoves.1, identity_of_others h hrelies hmoves.2 ?_⟩
  intro hmem
  exact hdisjoint _ hmem hmoves.1

theorem Covers.others {keys : List VersionKey} (hcovers : Covers database otherLocks stableId keys)
    (hidentity : Lock.identity stableId ∈ otherLocks) :
    Covers after otherLocks stableId keys where
  locked := hcovers.locked
  line := hcovers.line
  published := by
    intro key later hlater hkind hline hpublished
    have hlock : Lock.identity key.stableId ∉ locks := by
      rw [hline]
      intro hmem
      exact hdisjoint _ hmem hidentity
    obtain ⟨row, hrow, hpublished'⟩ := published_of_others h hrelies hlater hkind hpublished hlock
    exact hcovers.published key row hrow hkind hline hpublished'

theorem PublishStage.Relies.others {stage : PublishStage}
    (hstage : stage.Relies registry database otherLocks planId) :
    stage.Relies registry after otherLocks planId := by
  have hgrows := grows_of_writes h
  cases stage with
  | load => trivial
  | expiry plan | sources plan => exact ⟨hstage.1.grows hgrows, hstage.2⟩
  | line plan passport | rows plan passport | identity plan passport =>
    exact ⟨hstage.1.grows hgrows, hstage.2⟩
  | artifact plan passport held =>
    obtain ⟨hloaded, hlive, haccepted, hfenced⟩ := hstage
    exact ⟨hloaded.grows hgrows, hlive, haccepted, hfenced.others h hrelies hdisjoint⟩
  | version plan passport digest held =>
    obtain ⟨hloaded, hlive, haccepted, hfenced, hdigest⟩ := hstage
    exact ⟨hloaded.grows hgrows, hlive, haccepted, hfenced.others h hrelies hdisjoint, hdigest⟩
  | snapshot plan passport digest held existing =>
    obtain ⟨hloaded, hlive, haccepted, hfenced, hdigest, hreserved⟩ := hstage
    exact ⟨hloaded.grows hgrows, hlive, haccepted, hfenced.others h hrelies hdisjoint, hdigest,
      hreserved.others h hrelies hdisjoint⟩
  | ensure plan passport digest held existing snapshot =>
    obtain ⟨hloaded, hlive, haccepted, hfenced, hdigest, hreserved, hverdict, hkind⟩ := hstage
    exact ⟨hloaded.grows hgrows, hlive, haccepted, hfenced.others h hrelies hdisjoint, hdigest,
      hreserved.others h hrelies hdisjoint, hverdict.grows hgrows, hkind⟩
  | again plan passport digest existing snapshot => exact hstage
  | write plan passport digest held existing snapshot =>
    obtain ⟨hloaded, hlive, haccepted, hfenced, hdigest, hreserved, hverdict⟩ := hstage
    exact ⟨hloaded.grows hgrows, hlive, haccepted, hfenced.others h hrelies hdisjoint, hdigest,
      hreserved.others h hrelies hdisjoint, hverdict.grows hgrows⟩
  | republish plan existing =>
    obtain ⟨hloaded, hlive, ⟨held, hfenced⟩, hlock⟩ := hstage
    exact ⟨hloaded.grows hgrows, hlive, ⟨held, hfenced.others h hrelies hdisjoint⟩, hlock⟩

/-- What a transaction counts on survives the commits of transactions with other locks. -/
theorem relies_of_others {other : Work} (hother : other.Relies registry database otherLocks) :
    other.Relies registry after otherLocks := by
  have hgrows := grows_of_writes h
  cases other with
  | draft request stage => trivial
  | create origin request stage =>
    cases stage with
    | line passport held | rows passport held | insert passport held => exact Read.grows hother hgrows
    | account | accept | replay | occupied passport | identity passport | peek passport
    | again passport => trivial
  | confirm call stage =>
    cases stage with
    | load => trivial
    | key plan => exact Loaded.grows hother hgrows
    | confirm plan => exact ⟨Loaded.grows hother.1 hgrows, hother.2⟩
  | validate planId stage =>
    cases stage with
    | load => trivial
    | existing plan | sources plan | record plan bindings => exact Loaded.grows hother hgrows
  | publish planId stage => exact ⟨hother.1.grows hgrows, hother.2.others h hrelies hdisjoint⟩
  | settle jobType planId =>
    intro hpublish
    exact (hother hpublish).grows hgrows
  | refuseValidation planId plan => exact Loaded.grows hother hgrows
  | refusePublish planId plan =>
    exact ⟨hother.1.grows hgrows, hother.2.1.grows hgrows, hother.2.2⟩
  | transfer call stage =>
    cases stage with
    | case | identity stableId row => trivial
    | claim stableId row line | rows stableId line claimId =>
      exact Moves.others h hrelies hdisjoint hother
    | commit stableId line claimId keys =>
      exact ⟨hother.1.others h hrelies hdisjoint,
        hother.2.others h hrelies hdisjoint hother.1.1⟩
  | fileCase id row => trivial
  | fileClaim id claim => trivial

end Others

/-! ### Statements that go on -/

section Next

variable {registry : Registry} {database : Database} {surroundings : Surroundings}
  {locks taken : List Lock} {work after : Work}

theorem next_inj {first second : List Lock} {one two : Work}
    (h : (Outcome.next first one : Step) = .next second two) : first = second ∧ one = two := by
  injection h with hlocks hwork
  exact ⟨hlocks, hwork⟩

theorem committed_ne_next {result : Option Database} : committed result ≠ .next taken after := by
  cases result <;> simp [committed]

theorem Fenced.append {plan : PublicationPlan} {held : Option CatalogIdentity}
    (h : Fenced database locks plan held) : Fenced database (locks ++ taken) plan held := by
  intro hkind
  obtain ⟨hlock, hidentity⟩ := h hkind
  exact ⟨List.mem_append_left _ hlock, hidentity⟩

theorem Reserved.append {plan : PublicationPlan} {existing : Option CatalogMetadata}
    (h : Reserved database locks plan existing) :
    Reserved database (locks ++ taken) plan existing := by
  intro row hrow
  obtain ⟨hlock, hget⟩ := h row hrow
  exact ⟨List.mem_append_left _ hlock, hget⟩

theorem reserved_none (plan : PublicationPlan) : Reserved database locks plan none := by
  intro row hrow
  cases hrow

theorem fenced_setup {plan : PublicationPlan} {held : Option CatalogIdentity}
    (hkind : plan.objectKind = .setup) : Fenced database locks plan held := by
  intro hcomponent
  rw [hkind] at hcomponent
  cases hcomponent

variable (hconsistent : Consistent registry database)

include hconsistent in
theorem read_get? (stableId : String) :
    Read database stableId (database.identities.get? stableId) := by
  intro identity hidentity
  refine ⟨?_, hconsistent.lines stableId identity hidentity⟩
  rw [hidentity]
  rfl

theorem read_none (stableId : String) : Read database stableId none := by
  intro identity hidentity
  cases hidentity

include hconsistent in
theorem createStatement_relies {origin : Origin} {request : PlanRequest} {stage : CreateStage}
    (hrelies : (Work.create origin request stage).Relies registry database locks)
    (h : createStatement registry database surroundings origin request stage = .next taken after) :
    after.Relies registry database (locks ++ taken) := by
  cases stage with
  | account =>
    obtain ⟨-, rfl⟩ := next_inj h
    trivial
  | accept =>
    simp only [createStatement] at h
    split at h
    · cases h
    · obtain ⟨-, rfl⟩ := next_inj h
      trivial
  | replay =>
    simp only [createStatement] at h
    split_ifs at h
    split at h
    · cases h
    · obtain ⟨-, rfl⟩ := next_inj h
      trivial
  | occupied passport =>
    have hafter : (Work.create origin request (afterOccupied request passport)).Relies registry
        database (locks ++ taken) := by
      unfold afterOccupied
      cases request.objectKind
      · trivial
      · exact read_none request.stableId
    simp only [createStatement] at h
    split at h
    · obtain ⟨-, rfl⟩ := next_inj h
      exact hafter
    · split_ifs at h
      obtain ⟨-, rfl⟩ := next_inj h
      exact hafter
  | identity passport =>
    have hread := read_get? hconsistent request.stableId
    simp only [createStatement] at h
    split at h
    · obtain ⟨-, rfl⟩ := next_inj h
      exact read_none request.stableId
    · next identity hidentity =>
      obtain ⟨-, rfl⟩ := next_inj h
      rw [hidentity] at hread
      exact hread
  | peek passport =>
    obtain ⟨-, rfl⟩ := next_inj h
    exact read_get? hconsistent request.stableId
  | line passport held =>
    obtain ⟨-, rfl⟩ := next_inj h
    exact hrelies
  | rows passport held =>
    simp only [createStatement] at h
    split at h
    · cases h
    · split at h
      · obtain ⟨-, rfl⟩ := next_inj h
        trivial
      · obtain ⟨-, rfl⟩ := next_inj h
        exact hrelies
  | again passport =>
    obtain ⟨-, rfl⟩ := next_inj h
    exact read_get? hconsistent request.stableId
  | insert passport held => exact absurd h committed_ne_next

theorem confirmStatement_relies {call : ConfirmCall} {stage : ConfirmStage}
    (h : confirmStatement database surroundings call stage = .next taken after) :
    after.Relies registry database (locks ++ taken) := by
  cases stage with
  | load =>
    simp only [confirmStatement] at h
    split at h
    · cases h
    · next plan hplan =>
      have hloaded : Loaded database call.planId plan := ⟨plan, hplan, .refl plan⟩
      split_ifs at h
      split at h
      · obtain ⟨-, rfl⟩ := next_inj h
        exact hloaded
      · obtain ⟨-, rfl⟩ := next_inj h
        exact hloaded
      · obtain ⟨-, rfl⟩ := next_inj h
        exact hloaded
      · cases h
      · cases h
      · cases h
      · next hstate =>
        obtain ⟨-, rfl⟩ := next_inj h
        exact ⟨hloaded, by rw [hstate]; rfl⟩
      · next hstate =>
        obtain ⟨-, rfl⟩ := next_inj h
        exact ⟨hloaded, by rw [hstate]; rfl⟩
  | key plan => cases h
  | confirm plan =>
    simp only [confirmStatement] at h
    split_ifs at h

theorem validateStatement_relies {stage : ValidateStage}
    (hrelies : (Work.validate planId stage).Relies registry database locks)
    (h : validateStatement registry database surroundings planId stage = .next taken after) :
    after.Relies registry database (locks ++ taken) := by
  cases stage with
  | load =>
    simp only [validateStatement] at h
    split at h
    · cases h
    · next plan hplan =>
      obtain ⟨-, rfl⟩ := next_inj h
      exact ⟨plan, hplan, .refl plan⟩
  | existing plan =>
    simp only [validateStatement] at h
    split at h
    · cases h
    · split_ifs at h
      · obtain ⟨-, rfl⟩ := next_inj h
        exact hrelies
      · obtain ⟨-, rfl⟩ := next_inj h
        exact hrelies
  | sources plan =>
    simp only [validateStatement] at h
    split at h
    · obtain ⟨-, rfl⟩ := next_inj h
      exact hrelies
    · obtain ⟨-, rfl⟩ := next_inj h
      exact hrelies
  | record plan bindings => exact absurd h committed_ne_next

/-- The row that a publication finds under its version number. -/
theorem versionStatement_relies {plan : PublicationPlan} {digest : String}
    {held : Option CatalogIdentity}
    (hrelies : (Work.publish planId (.version plan passport digest held)).Relies registry database
      locks) (h : publishStatement registry database surroundings planId
      (.version plan passport digest held) = .next taken after) :
    after.Relies registry database (locks ++ taken) := by
  obtain ⟨hjudged, hloaded, hlive, haccepted, hfenced, hdigest⟩ := hrelies
  simp only [publishStatement] at h
  split at h
  · obtain ⟨-, rfl⟩ := next_inj h
    exact ⟨hjudged, hloaded, hlive, haccepted, hfenced.append, hdigest, reserved_none plan⟩
  · next row hrow =>
    have hmem : ∀ {lock : Lock}, taken = [lock] → lock ∈ locks ++ taken := by
      intro lock htaken
      rw [htaken]
      exact List.mem_append_right _ (List.mem_singleton.mpr rfl)
    split_ifs at h with hrefused hdraft hdifferent
    · obtain ⟨-, rfl⟩ := next_inj h
      exact ⟨hjudged, hloaded, hlive⟩
    · obtain ⟨htaken, rfl⟩ := next_inj h
      refine ⟨hjudged, hloaded, hlive, haccepted, hfenced.append, hdigest, ?_⟩
      intro draft hsame
      obtain rfl := Option.some.inj hsame
      refine ⟨hmem htaken.symm, hrow, ?_, hdraft⟩
      by_contra howner
      apply hrefused
      unfold occupiedRefuses
      simp [howner]
    · obtain ⟨-, rfl⟩ := next_inj h
      exact ⟨hjudged, hloaded, hlive⟩
    · obtain ⟨htaken, rfl⟩ := next_inj h
      exact ⟨hjudged, hloaded, hlive, ⟨held, hfenced.append⟩, hmem htaken.symm⟩

include hconsistent in
/-- The identity that a publication finds for its line. -/
theorem identityStatement_relies {plan : PublicationPlan}
    (hrelies : (Work.publish planId (.identity plan passport)).Relies registry database locks)
    (h : publishStatement registry database surroundings planId (.identity plan passport) =
      .next taken after) : after.Relies registry database (locks ++ taken) := by
  obtain ⟨hjudged, hloaded, hlive, haccepted⟩ := hrelies
  simp only [publishStatement] at h
  split at h
  · next hnone =>
    obtain ⟨-, rfl⟩ := next_inj h
    refine ⟨hjudged, hloaded, hlive, haccepted, ?_⟩
    -- The line of a component's plan exists.
    intro hkind
    obtain ⟨row, hrow, hsame⟩ := hloaded
    unfold PublicationPlan.SameSurface at hsame
    have hrowKind : row.objectKind = .component := by
      rw [← hkind, hsame]
    have hsome := (hconsistent.plans planId row hrow hrowKind).1
    have hline : row.stableId = plan.stableId := by rw [hsame]
    rw [hline, hnone] at hsome
    cases hsome
  · next identity hidentity =>
    split_ifs at h with hrefused
    · obtain ⟨-, rfl⟩ := next_inj h
      exact ⟨hjudged, hloaded, hlive⟩
    · obtain ⟨htaken, rfl⟩ := next_inj h
      refine ⟨hjudged, hloaded, hlive, haccepted, ?_⟩
      intro hkind
      refine ⟨?_, identity, rfl, hidentity, by simpa using hrefused⟩
      rw [← htaken]
      exact List.mem_append_right _ (List.mem_singleton.mpr rfl)

include hconsistent in
theorem publishStatement_relies {stage : PublishStage}
    (hrelies : (Work.publish planId stage).Relies registry database locks)
    (h : publishStatement registry database surroundings planId stage = .next taken after) :
    after.Relies registry database (locks ++ taken) := by
  have hjudged := hrelies.1
  cases stage with
  | load =>
    simp only [publishStatement] at h
    split at h
    · cases h
    · next plan hplan =>
      split_ifs at h with hdead
      obtain ⟨-, rfl⟩ := next_inj h
      exact ⟨hjudged, ⟨plan, hplan, .refl plan⟩, hdead⟩
  | expiry plan =>
    simp only [publishStatement] at h
    split_ifs at h
    · obtain ⟨-, rfl⟩ := next_inj h
      exact hrelies
    · obtain ⟨-, rfl⟩ := next_inj h
      exact hrelies
  | sources plan =>
    simp only [publishStatement] at h
    split at h
    · obtain ⟨-, rfl⟩ := next_inj h
      exact hrelies
    · split at h
      · obtain ⟨-, rfl⟩ := next_inj h
        exact hrelies
      · next passport hpassport =>
        obtain ⟨-, rfl⟩ := next_inj h
        obtain ⟨hmodel, hinvalid⟩ := validatePublicationPassport_eq_ok hpassport
        exact ⟨hjudged, hrelies.2.1, hrelies.2.2, hmodel, artifactDigest_of_invalidFields hinvalid⟩
  | line plan passport =>
    obtain ⟨-, rfl⟩ := next_inj h
    exact hrelies
  | rows plan passport =>
    obtain ⟨-, hloaded, hlive, haccepted⟩ := hrelies
    simp only [publishStatement] at h
    split at h
    · obtain ⟨-, rfl⟩ := next_inj h
      exact ⟨hjudged, hloaded, hlive⟩
    · next hkind =>
      obtain ⟨-, rfl⟩ := next_inj h
      exact ⟨hjudged, hloaded, hlive, haccepted, fenced_setup hkind⟩
    · obtain ⟨-, rfl⟩ := next_inj h
      exact ⟨hjudged, hloaded, hlive, haccepted⟩
  | identity plan passport => exact identityStatement_relies hconsistent hrelies h
  | artifact plan passport held =>
    obtain ⟨-, hloaded, hlive, haccepted, hfenced⟩ := hrelies
    simp only [publishStatement] at h
    split at h
    · cases h
    · cases h
    · obtain ⟨-, rfl⟩ := next_inj h
      exact ⟨hjudged, hloaded, hlive⟩
    · obtain ⟨-, rfl⟩ := next_inj h
      exact ⟨hjudged, hloaded, hlive⟩
    · next digest hdigest _ =>
      obtain ⟨-, rfl⟩ := next_inj h
      exact ⟨hjudged, hloaded, hlive, haccepted, hfenced.append, hdigest⟩
  | version plan passport digest held => exact versionStatement_relies hrelies h
  | snapshot plan passport digest held existing =>
    obtain ⟨-, hloaded, hlive, haccepted, hfenced, hdigest, hreserved⟩ := hrelies
    simp only [publishStatement] at h
    split at h
    · obtain ⟨-, rfl⟩ := next_inj h
      exact ⟨hjudged, hloaded, hlive⟩
    · next id snapshot hfound =>
      obtain ⟨hsnapshot, hplan⟩ := Table.find?_eq_some hfound
      split_ifs at h with hfailed
      · obtain ⟨-, rfl⟩ := next_inj h
        exact ⟨hjudged, hloaded, hlive⟩
      · have hverdict : Verdict database planId snapshot :=
          ⟨id, hsnapshot, by simpa using hplan, hfailed⟩
        split at h
        · next hkind =>
          obtain ⟨-, rfl⟩ := next_inj h
          exact ⟨hjudged, hloaded, hlive, haccepted, hfenced.append, hdigest, hreserved.append,
            hverdict, hkind⟩
        · obtain ⟨-, rfl⟩ := next_inj h
          exact ⟨hjudged, hloaded, hlive, haccepted, hfenced.append, hdigest, hreserved.append,
            hverdict⟩
  | ensure plan passport digest held existing snapshot =>
    obtain ⟨-, hloaded, hlive, haccepted, hfenced, hdigest, hreserved, hverdict, hkind⟩ := hrelies
    obtain ⟨-, identity, rfl, -⟩ := hfenced hkind
    simp only [publishStatement] at h
    split_ifs at h
    · obtain ⟨-, rfl⟩ := next_inj h
      exact ⟨hjudged, hloaded, hlive⟩
    · obtain ⟨-, rfl⟩ := next_inj h
      exact ⟨hjudged, hloaded, hlive⟩
    · obtain ⟨-, rfl⟩ := next_inj h
      exact ⟨hjudged, hloaded, hlive, haccepted, hfenced.append, hdigest, hreserved.append,
        hverdict⟩
  | again plan passport digest existing snapshot => exact hrelies.2.elim
  | write plan passport digest held existing snapshot => exact absurd h committed_ne_next
  | republish plan existing => cases h

theorem transferStatement_relies {call : TransferCall} {stage : TransferStage}
    (hrelies : (Work.transfer call stage).Relies registry database locks)
    (h : transferStatement database surroundings call stage = .next taken after) :
    after.Relies registry database (locks ++ taken) := by
  cases stage with
  | case =>
    simp only [transferStatement] at h
    split at h
    · cases h
    · split_ifs at h
      split at h
      · cases h
      · split_ifs at h
        obtain ⟨-, rfl⟩ := next_inj h
        trivial
  | identity stableId row =>
    simp only [transferStatement] at h
    split at h
    · cases h
    · next identity hidentity =>
      split_ifs at h
      obtain ⟨htaken, rfl⟩ := next_inj h
      refine ⟨?_, hidentity⟩
      rw [← htaken]
      exact List.mem_append_right _ (List.mem_singleton.mpr rfl)
  | claim stableId row identity =>
    have hmoves : Moves database (locks ++ taken) stableId identity :=
      ⟨List.mem_append_left _ hrelies.1, hrelies.2⟩
    simp only [transferStatement] at h
    split at h
    · obtain ⟨-, rfl⟩ := next_inj h
      exact hmoves
    · split_ifs at h
      obtain ⟨-, rfl⟩ := next_inj h
      exact hmoves
  | rows stableId identity claimId =>
    obtain ⟨htaken, rfl⟩ := next_inj h
    refine ⟨⟨List.mem_append_left _ hrelies.1, hrelies.2⟩, ?_, ?_, ?_⟩
    · intro key hkey
      rw [← htaken]
      exact List.mem_append_right _ (List.mem_map.mpr ⟨key, hkey, rfl⟩)
    · intro key hkey
      simpa using (List.mem_filter.mp hkey).2
    · intro key row hrow hkind hline _
      refine List.mem_filter.mpr ⟨?_, by simp [hkind, hline]⟩
      exact List.mem_map.mpr ⟨(key, row), Table.mem_entries.mpr hrow, rfl⟩
  | commit stableId identity claimId keys => exact absurd h committed_ne_next

include hconsistent in
/-- A statement that goes on leaves its transaction with what it counts on. -/
theorem relies_of_next (hrelies : work.Relies registry database locks)
    (h : statement registry database work surroundings = .next taken after) :
    after.Relies registry database (locks ++ taken) := by
  unfold statement at h
  split_ifs at h
  cases work with
  | draft request stage =>
    have hafter : ∃ stage, after = .draft request stage := by
      cases stage with
      | insert => exact absurd h committed_ne_next
      | _ =>
        simp only [draftStatement] at h
        repeat' split at h
        all_goals first
          | exact ⟨_, (next_inj h).2.symm⟩
          | cases h
    obtain ⟨stage, rfl⟩ := hafter
    trivial
  | create origin request stage => exact createStatement_relies hconsistent hrelies h
  | confirm call stage => exact confirmStatement_relies h
  | validate planId stage => exact validateStatement_relies hrelies h
  | publish planId stage => exact publishStatement_relies hconsistent hrelies h
  | settle jobType planId =>
    simp only [settleStatement] at h
    split at h
    · cases h
    · next plan hplan =>
      have hloaded : Loaded database planId plan := ⟨plan, hplan, .refl plan⟩
      split_ifs at h with hended
      split at h
      · obtain ⟨-, rfl⟩ := next_inj h
        refine ⟨hrelies rfl, hloaded, ?_⟩
        intro hdead
        apply hended
        simp only [List.mem_cons, List.not_mem_nil, or_false] at hdead
        rcases hdead with hstate | hstate | hstate
        all_goals rw [hstate]; rfl
      · obtain ⟨-, rfl⟩ := next_inj h
        exact hloaded
  | refuseValidation planId plan => exact absurd h committed_ne_next
  | refusePublish planId plan => cases h
  | transfer call stage => exact transferStatement_relies hrelies h
  | fileCase id row => cases h
  | fileClaim id claim => cases h

end Next

/-! ### Statements that commit -/

section Commit

variable {registry : Registry} {database after : Database} {surroundings : Surroundings}
  {locks : List Lock} {work : Work}

theorem judged_insertSnapshot? {id : String}
    (h : database.insertSnapshot? id snapshot = some after) : Judged after snapshot.planId := by
  obtain ⟨-, snapshots, hsnapshots, rfl⟩ := insertSnapshot?_eq_some h
  refine ⟨id, snapshot, ?_, rfl⟩
  show snapshots.get? id = some snapshot
  rw [(Table.insert?_eq_some hsnapshots).2, if_pos rfl]

/-- A validation that ends leaves a snapshot, whatever its verdict. -/
theorem judged_of_validation {plan : PublicationPlan}
    (h : Writes registry database surroundings work after)
    (hwork : (∃ bindings, work = .validate planId (.record plan bindings)) ∨
      work = .refuseValidation planId plan) : Judged after planId := by
  rcases hwork with ⟨bindings, rfl⟩ | rfl
  · cases h with
    | record h =>
      obtain ⟨verified, inserted, hinserted, hcase⟩ := recordVerdict_eq_some h
      have hjudged := judged_insertSnapshot? hinserted
      rcases hcase with ⟨-, rfl⟩ | ⟨-, rfl⟩
      · exact hjudged.grows (grows_flushPlan inserted _ _ _)
      · exact hjudged.grows ((grows_flushPlan inserted _ _ _).trans (grows_enqueue _ _ _))
  · cases h with
    | refuseValidation h =>
      obtain ⟨inserted, hinserted, rfl⟩ := refuseValidation_eq_some h
      exact (judged_insertSnapshot? hinserted).grows (grows_flushPlan inserted _ _ _)

/-- A plan that ends has a snapshot when it does. -/
theorem judged_of_settles (h : Writes registry database surroundings work after)
    (hrelies : work.Relies registry database locks) {loaded : PublicationPlan} {target : PlanState}
    (hsettles : work.settles surroundings = some (planId, loaded, target))
    (hterminal : target.terminal = true) : Judged after planId := by
  have hgrows := grows_of_writes h
  unfold Work.settles at hsettles
  split at hsettles
  · obtain ⟨-, -, rfl⟩ := Option.some.inj hsettles
    cases hterminal
  · obtain ⟨rfl, rfl, -⟩ := Option.some.inj hsettles
    exact judged_of_validation h (.inl ⟨_, rfl⟩)
  · obtain ⟨rfl, rfl, -⟩ := Option.some.inj hsettles
    exact judged_of_validation h (.inr rfl)
  · obtain ⟨rfl, rfl, -⟩ := Option.some.inj hsettles
    exact hrelies.1.grows hgrows
  · obtain ⟨rfl, rfl, -⟩ := Option.some.inj hsettles
    exact hrelies.1.grows hgrows
  · obtain ⟨rfl, rfl, -⟩ := Option.some.inj hsettles
    exact hrelies.1.grows hgrows
  · cases hsettles

variable (hconsistent : Consistent registry database)

include hconsistent in
theorem ended_of_writes (h : Writes registry database surroundings work after)
    (hrelies : work.Relies registry database locks) {later : PublicationPlan}
    (hlater : after.plans.get? planId = some later) (hterminal : later.state.terminal = true) :
    Judged after planId := by
  have hgrows := grows_of_writes h
  cases planOrigin h hlater with
  | kept row hrow hsame hstate =>
    rw [hstate] at hterminal
    exact (hconsistent.ended planId row hrow hterminal).grows hgrows
  | settled row loaded target hrow hsame hsettles hstate =>
    rw [hstate] at hterminal
    unfold Queue.flushed at hterminal
    split_ifs at hterminal
    · exact (hconsistent.ended planId row hrow hterminal).grows hgrows
    · exact judged_of_settles h hrelies hsettles hterminal
  | created origin request passport held expected hfree hwork hplan hline =>
    rw [hplan] at hterminal
    cases origin <;> cases hterminal

include hconsistent in
theorem single_of_writes (h : Writes registry database surroundings work after) {id other : String}
    {first second : ValidationSnapshot} (hfirst : after.snapshots.get? id = some first)
    (hsecond : after.snapshots.get? other = some second) (hplan : first.planId = second.planId) :
    id = other := by
  have hold : ∀ {name : String} {snapshot : ValidationSnapshot},
      database.snapshots.get? name = some snapshot →
        database.snapshotOf snapshot.planId ≠ none := fun hsnapshot ↦
    snapshotOf_of_judged ⟨_, _, hsnapshot, rfl⟩
  rcases snapshotOrigin h hfirst with hkept | ⟨hid, hnone, -⟩
  · rcases snapshotOrigin h hsecond with hkept' | ⟨hid', hnone', -⟩
    · exact hconsistent.single id other first second hkept hkept' hplan
    · rw [← hplan] at hnone'
      exact absurd hnone' (hold hkept)
  · rcases snapshotOrigin h hsecond with hkept' | ⟨hid', hnone', -⟩
    · rw [hplan] at hnone
      exact absurd hnone (hold hkept')
    · rw [hid, hid']

theorem Loaded.contentDigest_eq {one two : PublicationPlan} (hone : Loaded database planId one)
    (htwo : Loaded database planId two) : one.contentDigest = two.contentDigest := by
  obtain ⟨row, hrow, hsame⟩ := hone
  obtain ⟨row', hrow', hsame'⟩ := htwo
  rw [hrow] at hrow'
  obtain rfl := Option.some.inj hrow'
  unfold PublicationPlan.SameSurface at hsame hsame'
  rw [hsame, hsame']

include hconsistent in
/-- The snapshot of a plan is about the bytes of the plan. -/
theorem content_of_verdict {plan : PublicationPlan} (hverdict : Verdict database planId snapshot)
    (hloaded : Loaded database planId plan) : snapshot.contentDigest = plan.contentDigest := by
  obtain ⟨id, hsnapshot, hplan, -⟩ := hverdict
  obtain ⟨-, other, hother, hcontent⟩ := hconsistent.snapshots id snapshot hsnapshot
  rw [hplan] at hother
  rw [hcontent, hother.contentDigest_eq hloaded]

/-- A row keeps its witnesses while its document and its digest stay. -/
theorem Vouches.of_row {row later : CatalogMetadata} {plan : PublicationPlan}
    (h : Vouches registry database key row planId plan passport snapshot)
    (hdocument : later.passportDocument = row.passportDocument)
    (hdigest : later.passportDigest = row.passportDigest) :
    Vouches registry database key later planId plan passport snapshot :=
  { h with
    document := hdocument.trans h.document
    digest := by
      rw [hdigest]
      exact h.digest }

include hconsistent in
theorem vouched_of_writes (h : Writes registry database surroundings work after)
    (hrelies : work.Relies registry database locks) {later : CatalogMetadata}
    (hlater : after.catalog.get? key = some later) (hpublished : later.lifecycleState ≠ .draft) :
    ∃ planId plan passport snapshot,
      Vouches registry after key later planId plan passport snapshot := by
  have hgrows := grows_of_writes h
  cases rowOrigin h hlater with
  | kept hrow =>
    obtain ⟨planId, plan, passport, snapshot, hvouches⟩ :=
      hconsistent.vouched key later hrow hpublished
    exact ⟨planId, plan, passport, snapshot, hvouches.grows hgrows⟩
  | drafted hfree hdraft => exact absurd hdraft hpublished
  | published planId plan passport digest held existing snapshot row hwork hkey hrow hrowLater =>
    subst hwork hkey hrowLater
    obtain ⟨-, hloaded, -, haccepted, -, hdigest, -, hverdict⟩ := hrelies
    exact ⟨planId, plan, passport, snapshot, hloaded.grows hgrows, rfl, haccepted, rfl,
      ⟨digest, rfl, hdigest⟩, hverdict.grows hgrows,
      content_of_verdict hconsistent hverdict hloaded⟩
  | verified planId plan existing row hwork hkey hrow hrowLater =>
    rw [hrowLater] at hpublished
    obtain ⟨planId, plan, passport, snapshot, hvouches⟩ :=
      hconsistent.vouched key row hrow hpublished
    refine ⟨planId, plan, passport, snapshot, (hvouches.grows hgrows).of_row ?_ ?_⟩
    · rw [hrowLater]
    · rw [hrowLater]
  | moved call stableId identity claimId keys row hwork hkey hrow hrowLater =>
    rw [hrowLater] at hpublished
    obtain ⟨planId, plan, passport, snapshot, hvouches⟩ :=
      hconsistent.vouched key row hrow hpublished
    refine ⟨planId, plan, passport, snapshot, (hvouches.grows hgrows).of_row ?_ ?_⟩
    · rw [hrowLater]
    · rw [hrowLater]

/-- The line of a component's plan exists once the plan does. -/
theorem line_of_create {origin : Origin} {request : PlanRequest} {held : Option CatalogIdentity}
    (h : insertPlan registry database surroundings origin request passport held = some after)
    (hkind : request.objectKind = .component) (hread : Read database request.stableId held) :
    (after.identities.get? request.stableId).isSome := by
  obtain ⟨middle, expected, inserted, hinserted, hafter, hmiddle⟩ := insertPlan_eq_some h
  have hend : Grows middle after := by
    rcases hafter with rfl | rfl
    · exact grows_insertPlan? hinserted
    · exact (grows_insertPlan? hinserted).trans (grows_enqueue inserted .validate _)
  rcases hmiddle with ⟨hsetup, -, -⟩ | ⟨-, identity, -, hensure⟩
  · rw [hkind] at hsetup
    cases hsetup
  · apply isSome_identity _ hend
    rcases ensureIdentity_eq_some hensure with ⟨hheld, rfl⟩ | ⟨-, -, -, hinsert⟩
    · exact (hread identity hheld).1
    · obtain ⟨identities, hidentities, rfl⟩ := insertIdentity?_eq_some hinsert
      show (identities.get? request.stableId).isSome
      rw [(Table.insert?_eq_some hidentities).2, if_pos rfl]
      rfl

include hconsistent in
theorem plans_of_writes (h : Writes registry database surroundings work after)
    (hrelies : work.Relies registry database locks) {later : PublicationPlan}
    (hlater : after.plans.get? planId = some later) (hkind : later.objectKind = .component) :
    (after.identities.get? later.stableId).isSome ∧
      ∃ revision, later.expectedOwnershipRevisionId = some revision ∧
        Knows after later.stableId revision := by
  have hgrows := grows_of_writes h
  have hold : ∀ row, database.plans.get? planId = some row → row.SameSurface later →
      (after.identities.get? later.stableId).isSome ∧
        ∃ revision, later.expectedOwnershipRevisionId = some revision ∧
          Knows after later.stableId revision := by
    intro row hrow hsame
    unfold PublicationPlan.SameSurface at hsame
    rw [hsame] at hkind
    obtain ⟨hsome, revision, hrevision, hknows⟩ := hconsistent.plans planId row hrow hkind
    rw [hsame]
    exact ⟨isSome_identity hsome hgrows, revision, hrevision, hknows.grows hgrows⟩
  cases planOrigin h hlater with
  | kept row hrow hsame hstate => exact hold row hrow hsame
  | settled row loaded target hrow hsame hsettles hstate => exact hold row hrow hsame
  | created origin request passport held expected hfree hwork hplan hline =>
    subst hwork hplan
    rcases hline with ⟨hsetup, -⟩ | ⟨hcomponent, middle, identity, hexpected, hensure⟩
    · change request.objectKind = .component at hkind
      rw [hkind] at hsetup
      cases hsetup
    · cases h with
      | create hinsert =>
        refine ⟨line_of_create hinsert hcomponent hrelies, identity.ownershipRevisionId, hexpected,
          ?_⟩
        rcases ensureIdentity_eq_some hensure with ⟨hheld, -⟩ | ⟨-, -, hfirst, -⟩
        · exact (hrelies identity hheld).2.grows hgrows
        · exact .inl hfirst

include hconsistent in
theorem lines_of_writes (h : Writes registry database surroundings work after) {stableId : String}
    {later : CatalogIdentity} (hlater : after.identities.get? stableId = some later) :
    Knows after stableId later.ownershipRevisionId := by
  cases identityOrigin h hlater with
  | kept hidentity => exact (hconsistent.lines stableId later hidentity).grows (grows_of_writes h)
  | created hfree hrevision hwork => exact .inl hrevision
  | moved call identity claimId keys held hwork hidentity hrow =>
    subst hwork hrow
    cases h with
    | transfer h =>
      obtain ⟨revision, revisions, hrevisions, hline, -, -, -, hafter, -⟩ := transfer_eq_some h
      refine .inr ⟨revision, ?_, hline⟩
      rw [hafter, (Table.insert?_eq_some hrevisions).2, if_pos rfl]

/-- Only a transfer changes an identity. -/
theorem identity_kept (h : Writes registry database surroundings work after)
    (hwork : ∀ call stage, work ≠ .transfer call stage) {stableId : String}
    {identity : CatalogIdentity} (hidentity : database.identities.get? stableId = some identity) :
    after.identities.get? stableId = some identity := by
  obtain ⟨later, hlater, -⟩ := (grows_of_writes h).identities stableId identity hidentity
  cases identityOrigin h hlater with
  | kept hkept => rw [hlater, ← hkept, hidentity]
  | created hfree _ _ =>
    rw [hidentity] at hfree
    cases hfree
  | moved call other claimId keys held hmoved _ _ => exact absurd hmoved (hwork call _)

section

variable (hconsistent : Consistent registry database)
include hconsistent

/-- A transfer moves the identity and all published versions of its line. -/
theorem owners_of_transfer {call : TransferCall} {stableId : String} {identity : CatalogIdentity}
    {claimId : Option String} {keys : List VersionKey}
    (hmoves : Moves database locks stableId identity)
    (hcovers : Covers database locks stableId keys)
    (h : database.transfer surroundings call stableId identity claimId keys = some after)
    {later : CatalogMetadata} (hlater : after.catalog.get? key = some later)
    (hkind : key.objectKind = .component) (hpublished : later.lifecycleState ≠ .draft) :
    ∃ identity, after.identities.get? key.stableId = some identity ∧
      later.ownerAccountId = identity.ownerAccountId := by
  obtain ⟨-, -, -, -, -, -, -, -, hidentities, hcatalog⟩ := transfer_eq_some h
  rw [hcatalog] at hlater
  rw [hidentities]
  obtain ⟨row, hrow, ⟨hkey, rfl⟩ | ⟨hkey, rfl⟩⟩ := get?_rewritten _ hlater
  · have hline : key.stableId ≠ stableId := by
      intro hline
      exact hkey (hcovers.published key later hrow hkind hline hpublished)
    rw [Table.get?_update_of_ne hline]
    exact hconsistent.owners key later hrow hkind hpublished
  · rw [(hcovers.line key hkey).2, Table.get?_update_self hmoves.2]
    exact ⟨_, rfl, rfl⟩

theorem owners_of_writes (h : Writes registry database surroundings work after)
    (hrelies : work.Relies registry database locks) {later : CatalogMetadata}
    (hlater : after.catalog.get? key = some later) (hkind : key.objectKind = .component)
    (hpublished : later.lifecycleState ≠ .draft) :
    ∃ identity, after.identities.get? key.stableId = some identity ∧
      later.ownerAccountId = identity.ownerAccountId := by
  by_cases htransfer : ∃ call stage, work = .transfer call stage
  · obtain ⟨call, stage, rfl⟩ := htransfer
    cases h with
    | transfer h =>
      exact owners_of_transfer hconsistent hrelies.1 hrelies.2 h hlater hkind hpublished
  · have hwork : ∀ call stage, work ≠ .transfer call stage := by
      intro call stage hsame
      exact htransfer ⟨call, stage, hsame⟩
    cases rowOrigin h hlater with
    | kept hrow =>
      obtain ⟨identity, hidentity, howner⟩ := hconsistent.owners key later hrow hkind hpublished
      exact ⟨identity, identity_kept h hwork hidentity, howner⟩
    | drafted hfree hdraft => exact absurd hdraft hpublished
    | published planId plan passport digest held existing snapshot row hpublish hkey hrow hrowLater =>
      have hidentity := @identity_kept _ _ _ _ _ h hwork plan.stableId
      subst hpublish hkey hrowLater
      obtain ⟨-, -, -, -, hfenced, -, hreserved, -⟩ := hrelies
      obtain ⟨-, identity, -, hline, howner⟩ := hfenced hkind
      refine ⟨identity, hidentity hline, ?_⟩
      have hactor : identity.ownerAccountId = plan.actorAccountId := by
        by_contra hother
        simp [CatalogIdentity.refuses, hother] at howner
      rw [hactor]
      rcases hrow with ⟨-, -, rfl⟩ | ⟨hexisting, hrow⟩
      · rfl
      · obtain ⟨draft, rfl⟩ := Option.isSome_iff_exists.mp hexisting
        obtain ⟨-, hget, hdraft, -⟩ := hreserved draft rfl
        rw [hrow] at hget
        obtain rfl := Option.some.inj hget
        exact hdraft
    | verified planId plan existing row _ _ hrow hrowLater =>
      rw [hrowLater] at hpublished
      obtain ⟨identity, hidentity, howner⟩ := hconsistent.owners key row hrow hkind hpublished
      refine ⟨identity, identity_kept h hwork hidentity, ?_⟩
      rw [hrowLater]
      exact howner
    | moved call stableId identity claimId keys row hmoved _ _ _ =>
      exact absurd hmoved (hwork call _)

/-- A commit keeps the database consistent. -/
theorem consistent_of_writes (h : Writes registry database surroundings work after)
    (hrelies : work.Relies registry database locks) : Consistent registry after where
  enqueued := by
    intro planId hjob
    rcases publishJob_of_writes h hjob with hold | ⟨plan, bindings, rfl⟩
    · exact (hconsistent.enqueued planId hold).grows (grows_of_writes h)
    · exact judged_of_validation h (.inl ⟨bindings, rfl⟩)
  ended := fun _ _ hplan hterminal ↦ ended_of_writes hconsistent h hrelies hplan hterminal
  single := fun _ _ _ _ hone htwo hplan ↦ single_of_writes hconsistent h hone htwo hplan
  snapshots := by
    intro id snapshot hsnapshot
    have hgrows := grows_of_writes h
    rcases snapshotOrigin h hsnapshot with hold | ⟨-, -, hstate, plan, hcontent, hwork⟩
    · obtain ⟨hstate, plan, hloaded, hcontent⟩ := hconsistent.snapshots id snapshot hold
      exact ⟨hstate, plan, hloaded.grows hgrows, hcontent⟩
    · have hloaded : Loaded database snapshot.planId plan := by
        rcases hwork with ⟨bindings, rfl⟩ | rfl
        · exact hrelies
        · exact hrelies
      exact ⟨hstate, plan, hloaded.grows hgrows, hcontent⟩
  vouched := fun _ _ hrow hpublished ↦ vouched_of_writes hconsistent h hrelies hrow hpublished
  plans := fun _ _ hplan hkind ↦ plans_of_writes hconsistent h hrelies hplan hkind
  lines := fun _ _ hidentity ↦ lines_of_writes hconsistent h hidentity
  owners := fun _ _ hrow hkind hpublished ↦
    owners_of_writes hconsistent h hrelies hrow hkind hpublished

end

end Commit

/-! ### The server -/

section Server

variable {registry : Registry}

theorem relies_of_starts {database : Database} (hconsistent : Consistent registry database)
    {work : Work} (h : starts database work = true) : work.Relies registry database [] := by
  unfold starts at h
  split at h
  · trivial
  · trivial
  · trivial
  · trivial
  · trivial
  · next planId => exact ⟨hconsistent.enqueued planId (of_decide_eq_true h), trivial⟩
  · next jobType planId =>
    rintro rfl
    exact hconsistent.enqueued planId (of_decide_eq_true h)
  · trivial
  · trivial
  · trivial
  · cases h

/-- The transactions of the server keep the database consistent, and each other's grounds. -/
theorem server_keeps (registry : Registry) :
    Keeps (server registry) (Consistent registry)
      (fun database locks work ↦ work.Relies registry database locks) where
  start := fun _ _ hconsistent hstarts ↦ relies_of_starts hconsistent hstarts
  next := fun _ _ _ _ _ _ hconsistent hrelies h ↦ relies_of_next hconsistent hrelies h
  commit := fun _ _ _ _ _ _ hconsistent hrelies h ↦
    consistent_of_writes hconsistent (writes_of_commit h) hrelies
  others := fun _ _ _ _ _ _ _ hrelies h _ _ hdisjoint hother ↦
    relies_of_others (writes_of_commit h) hrelies
      (fun lock hlock ↦ hdisjoint lock (List.mem_append_left _ hlock)) hother

theorem consistent_empty (registry : Registry) : Consistent registry .empty where
  enqueued := fun _ h ↦ nomatch h
  ended := fun _ _ h ↦ nomatch h
  single := fun _ _ _ _ h ↦ nomatch h
  snapshots := fun _ _ h ↦ nomatch h
  vouched := fun _ _ h ↦ nomatch h
  plans := fun _ _ h ↦ nomatch h
  lines := fun _ _ h ↦ nomatch h
  owners := fun _ _ h ↦ nomatch h

/-- The server before its first request. -/
def idle : Machine Database Lock Work := ⟨.empty, .empty⟩

/-- The machine after a list of actions. -/
def serve (registry : Registry) (machine : Machine Database Lock Work)
    (actions : List (Action Work Surroundings)) : Machine Database Lock Work :=
  Runs.run (step (server registry)) machine actions

abbrev Steady (registry : Registry) (machine : Machine Database Lock Work) : Prop :=
  Sound (Consistent registry) (fun database locks work ↦ work.Relies registry database locks)
    machine

/-- Every run of the server keeps it sound. -/
theorem server_sound (registry : Registry) {machine : Machine Database Lock Work}
    (h : Steady registry machine) (actions : List (Action Work Surroundings)) :
    Steady registry (serve registry machine actions) :=
  run_sound (server_keeps registry) machine h actions

theorem steady_idle (registry : Registry) : Steady registry idle :=
  sound_idle (consistent_empty registry)

end Server

/-! ### Steps of the server -/

section Steps

variable {registry : Registry} {machine : Machine Database Lock Work}
  {action : Action Work Surroundings}

/-- The commit behind a step that changes the database. -/
theorem commit_of_step (hsteady : Steady registry machine)
    (hdb : (step (server registry) machine action).db ≠ machine.db) :
    ∃ id surroundings current, action = .advance id surroundings ∧
      machine.running.get? id = some current ∧
      Writes registry machine.db surroundings current.state
        (step (server registry) machine action).db ∧
      current.state.Relies registry machine.db current.locks := by
  rcases step_db (server registry) machine action with hsame |
    ⟨id, surroundings, current, taken, haction, hcurrent, -, hcommit⟩
  · exact absurd hsame hdb
  · exact ⟨id, surroundings, current, haction, hcurrent, writes_of_commit hcommit,
      hsteady.relies id current hcurrent⟩

theorem grows_step (hsteady : Steady registry machine) :
    Grows machine.db (step (server registry) machine action).db := by
  by_cases hdb : (step (server registry) machine action).db = machine.db
  · rw [hdb]
    exact Grows.refl machine.db
  · obtain ⟨id, surroundings, current, -, -, hwrites, -⟩ := commit_of_step hsteady hdb
    exact grows_of_writes hwrites

end Steps

end AiStp.Publication
