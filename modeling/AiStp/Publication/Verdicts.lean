import AiStp.Publication.Soundness

/-!
# Verdicts

A plan that ended has a snapshot, and no validation writes over it: the verdict of a scan is
recorded only when the plan has none. What stands in the catalog went through such a verdict and
stays as it was published.

Other handlers do write over the state of a plan that ended. A publish job that is delivered again
finds its plan published, and settles it as failed when the plan has expired since; and a handler
that loaded a plan before another one ended it writes what it decided. `Orderly` says that neither
happens at a step, and `verdict_final` that verdicts are final in the runs that are orderly.
-/

set_option autoImplicit false

namespace AiStp.Publication

open Foundation Library Library.Transactions

/-! ### What stands in the catalog -/

/-- The transaction is a validation. -/
def Work.isValidation : Work → Bool
  | .validate _ _ | .refuseValidation _ _ => true
  | _ => false

/-- What a run of the server keeps of verdicts, seen at one moment of it. -/
structure Standing (registry : Registry) (machine : Machine Database Lock Work) : Prop where
  /-- A validation does not change the state of a plan that ended. -/
  validation : ∀ id surroundings current, machine.running.get? id = some current →
    current.state.isValidation = true → ∀ planId plan,
      machine.db.plans.get? planId = some plan → plan.state.terminal = true →
        ∃ later, (step (server registry) machine (.advance id surroundings)).db.plans.get? planId =
          some later ∧ later.state = plan.state
  /-- A plan has at most one snapshot. -/
  single : ∀ id other snapshot snapshot', machine.db.snapshots.get? id = some snapshot →
    machine.db.snapshots.get? other = some snapshot' → snapshot.planId = snapshot'.planId →
      id = other
  /-- A version becomes active by the publication of a plan whose snapshot let these bytes pass. -/
  activation : ∀ action key later,
    (step (server registry) machine action).db.catalog.get? key = some later →
      later.lifecycleState = .active →
      (∀ row, machine.db.catalog.get? key = some row → row.lifecycleState ≠ .active) →
        ∃ id surroundings current planId plan passport digest held existing snapshot,
          action = .advance id surroundings ∧ machine.running.get? id = some current ∧
          current.state = .publish planId (.write plan passport digest held existing snapshot) ∧
          Vouches registry machine.db key later planId plan passport snapshot
  /-- The snapshot of a published version ran every mandatory check, and none failed. -/
  checked : ∀ key row, machine.db.catalog.get? key = some row → row.lifecycleState ≠ .draft →
    ∃ planId plan passport snapshot,
      Vouches registry machine.db key row planId plan passport snapshot ∧
        ∀ binding ∈ snapshot.evidence, binding.mandatory = true →
          binding.result ∉ [.failed, .degraded, .notRun, .expired]
  /-- A published version keeps its document and its digest, whatever happens next. -/
  immutable : ∀ actions key row, machine.db.catalog.get? key = some row →
    row.lifecycleState ≠ .draft → ∃ later,
      (serve registry machine actions).db.catalog.get? key = some later ∧
        later.lifecycleState ≠ .draft ∧ later.passportDigest = row.passportDigest ∧
          later.passportDocument = row.passportDocument

variable {surroundings : Surroundings} {planId : String}

section Standing

variable {registry : Registry} {machine : Machine Database Lock Work}

/-- A validation commits only where the plan has no snapshot. -/
theorem not_judged_of_validation {database after : Database} {work : Work}
    (h : Writes registry database surroundings work after) {loaded : PublicationPlan}
    {target : PlanState} (hwork : work.isValidation = true)
    (hsettles : work.settles surroundings = some (planId, loaded, target)) :
    ¬ Judged database planId := by
  intro hjudged
  have hsome := snapshotOf_of_judged hjudged
  cases h with
  | record h =>
    obtain ⟨rfl, -, -⟩ := Option.some.inj hsettles
    obtain ⟨verified, inserted, hinserted, -⟩ := recordVerdict_eq_some h
    exact hsome (insertSnapshot?_eq_some hinserted).1
  | refuseValidation h =>
    obtain ⟨rfl, -, -⟩ := Option.some.inj hsettles
    obtain ⟨inserted, hinserted, -⟩ := refuseValidation_eq_some h
    exact hsome (insertSnapshot?_eq_some hinserted).1
  | _ => cases hwork

theorem validation_of_steady (hsteady : Steady registry machine) {id : Nat}
    {current : Open Lock Work} (hcurrent : machine.running.get? id = some current)
    (hwork : current.state.isValidation = true) {plan : PublicationPlan}
    (hplan : machine.db.plans.get? planId = some plan) (hterminal : plan.state.terminal = true) :
    ∃ later, (step (server registry) machine (.advance id surroundings)).db.plans.get? planId =
      some later ∧ later.state = plan.state := by
  have hjudged := hsteady.invariant.ended planId plan hplan hterminal
  have hgrows : Grows machine.db
      (step (server registry) machine (.advance id surroundings)).db := grows_step hsteady
  obtain ⟨later, hlater, -⟩ := hgrows.plans planId plan hplan
  refine ⟨later, hlater, ?_⟩
  by_cases hdb : (step (server registry) machine (.advance id surroundings)).db = machine.db
  · rw [hdb, hplan] at hlater
    rw [Option.some.inj hlater]
  · obtain ⟨_, _, other, haction, hother, hwrites, -⟩ := commit_of_step hsteady hdb
    obtain ⟨rfl, rfl⟩ := Action.advance.inj haction
    rw [hcurrent] at hother
    obtain rfl := Option.some.inj hother
    cases planOrigin hwrites hlater with
    | kept row hrow hsame hstate =>
      rw [hplan] at hrow
      rw [hstate, Option.some.inj hrow]
    | settled row loaded target hrow hsame hsettles hstate =>
      exact absurd hjudged (not_judged_of_validation hwrites hwork hsettles)
    | created origin request passport held expected hfree _ _ _ =>
      rw [hplan] at hfree
      cases hfree

theorem activation_of_steady (hsteady : Steady registry machine)
    {action : Action Work Surroundings} {key : VersionKey} {later : CatalogMetadata}
    (hlater : (step (server registry) machine action).db.catalog.get? key = some later)
    (hactive : later.lifecycleState = .active)
    (hbefore : ∀ row, machine.db.catalog.get? key = some row → row.lifecycleState ≠ .active) :
    ∃ id surroundings current planId plan passport digest held existing snapshot,
      action = .advance id surroundings ∧ machine.running.get? id = some current ∧
      current.state = .publish planId (.write plan passport digest held existing snapshot) ∧
      Vouches registry machine.db key later planId plan passport snapshot := by
  have hdb : (step (server registry) machine action).db ≠ machine.db := by
    intro hsame
    rw [hsame] at hlater
    exact hbefore later hlater hactive
  obtain ⟨id, surroundings, current, haction, hcurrent, hwrites, hrelies⟩ :=
    commit_of_step hsteady hdb
  cases rowOrigin hwrites hlater with
  | kept hrow => exact absurd hactive (hbefore later hrow)
  | drafted hfree hdraft =>
    rw [hactive] at hdraft
    cases hdraft
  | published planId plan passport digest held existing snapshot row hwork hkey hrow hrowLater =>
    refine ⟨id, surroundings, current, planId, plan, passport, digest, held, existing, snapshot,
      haction, hcurrent, hwork, ?_⟩
    rw [hwork] at hrelies
    obtain ⟨-, hloaded, -, haccepted, -, hdigest, -, hverdict⟩ := hrelies
    refine ⟨hloaded, hkey, haccepted, ?_, ⟨digest, ?_, hdigest⟩, hverdict,
      content_of_verdict hsteady.invariant hverdict hloaded⟩
    · rw [hrowLater]
      rfl
    · rw [hrowLater]
      rfl
  | verified planId plan existing row _ _ hrow hrowLater =>
    rw [hrowLater] at hactive
    exact absurd hactive (hbefore row hrow)
  | moved call stableId identity claimId keys row _ _ hrow hrowLater =>
    rw [hrowLater] at hactive
    exact absurd hactive (hbefore row hrow)

/-- What stays of a published row. -/
def CatalogMetadata.Keeps (row later : CatalogMetadata) : Prop :=
  row.lifecycleState ≠ .draft → later.lifecycleState ≠ .draft ∧
    later.passportDigest = row.passportDigest ∧ later.passportDocument = row.passportDocument

theorem CatalogMetadata.Keeps.refl (row : CatalogMetadata) : row.Keeps row :=
  fun hpublished ↦ ⟨hpublished, rfl, rfl⟩

theorem CatalogMetadata.Keeps.trans {first second third : CatalogMetadata}
    (h : first.Keeps second) (h' : second.Keeps third) : first.Keeps third := by
  intro hpublished
  obtain ⟨hsecond, hdigest, hdocument⟩ := h hpublished
  obtain ⟨hthird, hdigest', hdocument'⟩ := h' hsecond
  exact ⟨hthird, hdigest'.trans hdigest, hdocument'.trans hdocument⟩

theorem catalog_keeps_step (hsteady : Steady registry machine) (action : Action Work Surroundings) :
    machine.db.catalog.Keeps CatalogMetadata.Keeps
      (step (server registry) machine action).db.catalog := by
  intro key row hrow
  have hgrows : Grows machine.db (step (server registry) machine action).db := grows_step hsteady
  obtain ⟨later, hlater, -⟩ := hgrows.catalog key row hrow
  refine ⟨later, hlater, ?_⟩
  by_cases hdb : (step (server registry) machine action).db = machine.db
  · rw [hdb, hrow] at hlater
    rw [Option.some.inj hlater]
    exact .refl later
  · obtain ⟨id, surroundings, current, -, -, hwrites, hrelies⟩ := commit_of_step hsteady hdb
    cases rowOrigin hwrites hlater with
    | kept hkept =>
      rw [hrow] at hkept
      rw [Option.some.inj hkept]
      exact .refl later
    | drafted hfree _ =>
      rw [hrow] at hfree
      cases hfree
    | published planId plan passport digest held existing snapshot base hwork hkey hbase _ =>
      rw [hwork] at hrelies
      obtain ⟨-, -, -, -, -, -, hreserved, -⟩ := hrelies
      rcases hbase with ⟨-, hfree, -⟩ | ⟨hexisting, -⟩
      · rw [hrow] at hfree
        cases hfree
      · obtain ⟨draft, hdraft⟩ := Option.isSome_iff_exists.mp hexisting
        obtain ⟨-, hget, -, hstate⟩ := hreserved draft hdraft
        rw [← hkey, hrow] at hget
        rw [← Option.some.inj hget] at hstate
        exact fun hpublished ↦ absurd hstate hpublished
    | verified planId plan existing base _ _ hbase hbaseLater =>
      rw [hrow] at hbase
      obtain rfl := Option.some.inj hbase
      rw [hbaseLater]
      exact fun hpublished ↦ ⟨hpublished, rfl, rfl⟩
    | moved call stableId identity claimId keys base _ _ hbase hbaseLater =>
      rw [hrow] at hbase
      obtain rfl := Option.some.inj hbase
      rw [hbaseLater]
      exact fun hpublished ↦ ⟨hpublished, rfl, rfl⟩

theorem catalog_keeps_run (hsteady : Steady registry machine)
    (actions : List (Action Work Surroundings)) :
    machine.db.catalog.Keeps CatalogMetadata.Keeps
      (serve registry machine actions).db.catalog := by
  induction actions generalizing machine with
  | nil => exact Table.Keeps.refl CatalogMetadata.Keeps.refl _
  | cons action actions ih =>
    have hnext : Steady registry (step (server registry) machine action) :=
      step_sound (server_keeps registry) machine action hsteady
    exact Table.Keeps.trans (fun _ _ _ hone htwo ↦ hone.trans htwo)
      (catalog_keeps_step hsteady action) (ih hnext)

/-- At every moment of every run. -/
theorem standing_of_run (registry : Registry) (actions : List (Action Work Surroundings)) :
    Standing registry (serve registry idle actions) := by
  have hsteady : Steady registry (serve registry idle actions) :=
    server_sound registry (steady_idle registry) actions
  constructor
  · intro id surroundings current hcurrent hwork planId plan hplan hterminal
    exact validation_of_steady hsteady hcurrent hwork hplan hterminal
  · exact hsteady.invariant.single
  · intro action key later hlater hactive hbefore
    exact activation_of_steady hsteady hlater hactive hbefore
  · intro key row hrow hpublished
    obtain ⟨planId, plan, passport, snapshot, hvouches⟩ :=
      hsteady.invariant.vouched key row hrow hpublished
    refine ⟨planId, plan, passport, snapshot, hvouches, mandatory_of_snapshotOutcome ?_⟩
    obtain ⟨id, hsnapshot, -, hpassed⟩ := hvouches.verdict
    rw [← (hsteady.invariant.snapshots id snapshot hsnapshot).1]
    exact hpassed
  · intro more key row hrow hpublished
    obtain ⟨later, hlater, hkeeps⟩ := catalog_keeps_run hsteady more key row hrow
    exact ⟨later, hlater, hkeeps hpublished⟩

end Standing

/-! ### Verdicts that are final -/

/-- A publication that found its plan published is about to settle it as failed. -/
def Work.refusesPublished : Work → Bool
  | .refusePublish _ plan => plan.state = .published
  | _ => false

/-- A request or a publication is about to write the state of a plan that another transaction has
ended since it was loaded, in another state. -/
def overtaken (database : Database) (surroundings : Surroundings) (work : Work) : Bool :=
  match work.isValidation, work.settles surroundings with
  | false, some (planId, loaded, target) =>
    (database.plans.get? planId).any fun row ↦
      row.state.terminal && row.state ≠ loaded.state && row.state ≠ target
  | _, _ => false

/-- The step takes neither of the two ways in which a verdict is written over. -/
def Orderly (machine : Machine Database Lock Work) : Action Work Surroundings → Bool
  | .begin _ _ => true
  | .advance id surroundings =>
    (machine.running.get? id).all fun current ↦
      !current.state.refusesPublished && !overtaken machine.db surroundings current.state

/-- A plan that ended keeps its state. -/
def PublicationPlan.Final (plan later : PublicationPlan) : Prop :=
  plan.state.terminal = true → later.state = plan.state

theorem PublicationPlan.Final.trans {first second third : PublicationPlan}
    (h : first.Final second) (h' : second.Final third) : first.Final third := by
  intro hended
  have hsame := h hended
  rw [← hsame] at hended
  exact (h' hended).trans hsame

/-- The plans that have ended after the first actions are as they ended after the second. -/
def VerdictsFinal (registry : Registry) (first second : List (Action Work Surroundings)) : Prop :=
  ∀ planId plan, (serve registry idle first).db.plans.get? planId = some plan →
    plan.state.terminal = true → ∃ later,
      (serve registry idle (first ++ second)).db.plans.get? planId = some later ∧
        later.state = plan.state

section Finality

variable {registry : Registry} {machine : Machine Database Lock Work}

theorem published_of_live {plan : PublicationPlan} (hlive : Live plan)
    (hterminal : plan.state.terminal = true) : plan.state = .published := by
  unfold Live at hlive
  cases hstate : plan.state with
  | published => rfl
  | failed => simp [hstate] at hlive
  | cancelled => simp [hstate] at hlive
  | stale => simp [hstate] at hlive
  | _ =>
    rw [hstate] at hterminal
    cases hterminal

/-- What an orderly transaction writes to a plan that ended is the state it has. -/
theorem settled_of_orderly {database : Database} {work : Work} {locks : List Lock}
    {loaded row : PublicationPlan} {target : PlanState}
    (hrelies : work.Relies registry database locks) (hrow : database.plans.get? planId = some row)
    (hterminal : row.state.terminal = true)
    (hsettles : work.settles surroundings = some (planId, loaded, target))
    (hwork : work.isValidation = false) (hrefuses : work.refusesPublished = false)
    (hovertaken : overtaken database surroundings work = false) :
    Queue.flushed loaded.state target row.state = row.state := by
  have hcase : row.state = loaded.state ∨ row.state = target := by
    unfold overtaken at hovertaken
    rw [hwork, hsettles] at hovertaken
    simp only [hrow, Option.any_some, hterminal, Bool.true_and, Bool.and_eq_false_iff,
      decide_eq_false_iff_not, ne_eq, not_not] at hovertaken
    exact hovertaken
  unfold Queue.flushed
  split_ifs with htarget
  · rfl
  · rcases hcase with hloaded | hsame
    swap
    · exact hsame.symm
    rw [hloaded] at hterminal
    unfold Work.settles at hsettles
    split at hsettles
    · obtain ⟨-, rfl, -⟩ := Option.some.inj hsettles
      rw [hrelies.2] at hterminal
      cases hterminal
    · cases hwork
    · cases hwork
    · obtain ⟨-, rfl, -⟩ := Option.some.inj hsettles
      have hpublished := published_of_live hrelies.2.2 hterminal
      simp [Work.refusesPublished, hpublished] at hrefuses
    · obtain ⟨-, rfl, rfl⟩ := Option.some.inj hsettles
      rw [hloaded, published_of_live hrelies.2.2.1 hterminal]
    · obtain ⟨-, rfl, rfl⟩ := Option.some.inj hsettles
      rw [hloaded, published_of_live hrelies.2.2.1 hterminal]
    · cases hsettles

theorem final_of_orderly (hsteady : Steady registry machine) {action : Action Work Surroundings}
    (horderly : Orderly machine action = true) :
    machine.db.plans.Keeps PublicationPlan.Final
      (step (server registry) machine action).db.plans := by
  intro planId plan hplan
  have hgrows : Grows machine.db (step (server registry) machine action).db := grows_step hsteady
  obtain ⟨later, hlater, -⟩ := hgrows.plans planId plan hplan
  refine ⟨later, hlater, ?_⟩
  by_cases hdb : (step (server registry) machine action).db = machine.db
  · rw [hdb, hplan] at hlater
    rw [Option.some.inj hlater]
    exact fun _ ↦ rfl
  · obtain ⟨id, surroundings, current, rfl, hcurrent, hwrites, hrelies⟩ :=
      commit_of_step hsteady hdb
    unfold Orderly at horderly
    simp only [hcurrent, Option.all_some, Bool.and_eq_true, Bool.not_eq_true'] at horderly
    cases planOrigin hwrites hlater with
    | kept row hrow hsame hstate =>
      rw [hplan] at hrow
      rw [Option.some.inj hrow]
      exact fun _ ↦ hstate
    | settled row loaded target hrow hsame hsettles hstate =>
      rw [hplan] at hrow
      obtain rfl := Option.some.inj hrow
      intro hterminal
      rw [hstate]
      cases hwork : current.state.isValidation with
      | true =>
        exact absurd (hsteady.invariant.ended planId plan hplan hterminal)
          (not_judged_of_validation hwrites hwork hsettles)
      | false =>
        exact settled_of_orderly hrelies hplan hterminal hsettles hwork horderly.1 horderly.2
    | created origin request passport held expected hfree _ _ _ =>
      rw [hplan] at hfree
      cases hfree

/-- Verdicts are final in the runs whose steps are all orderly. -/
theorem verdict_final (registry : Registry) (first second : List (Action Work Surroundings))
    (horderly : Runs.StepsMeet (step (server registry))
      (fun machine action ↦ Orderly machine action = true) idle (first ++ second)) :
    VerdictsFinal registry first second := by
  intro planId plan hplan hterminal
  obtain ⟨-, hsecond⟩ := Runs.stepsMeet_append.mp horderly
  have hsteady : Steady registry (serve registry idle first) :=
    server_sound registry (steady_idle registry) first
  have hinvariant : ∀ machine action, Steady registry machine → Orderly machine action = true →
      Steady registry (step (server registry) machine action) :=
    fun machine action hmachine _ ↦ step_sound (server_keeps registry) machine action hmachine
  have hkeeps := Runs.run_related_of_stepsMeet
    (fun before after ↦ before.db.plans.Keeps PublicationPlan.Final after.db.plans)
    (fun machine ↦ Table.Keeps.refl (fun _ _ ↦ rfl) machine.db.plans)
    (fun hfirst hsecond ↦ Table.Keeps.trans (fun _ _ _ hone htwo ↦ hone.trans htwo) hfirst hsecond)
    hinvariant
    (fun machine action hmachine haction ↦ final_of_orderly hmachine haction)
    (serve registry idle first) hsteady second hsecond
  obtain ⟨later, hlater, hfinal⟩ := hkeeps planId plan hplan
  refine ⟨later, ?_, hfinal hterminal⟩
  unfold serve
  rw [Runs.run_append]
  exact hlater

end Finality

/-! ### A publish job that is delivered again

A setup is published a few seconds after it was planned. The worker dies before it settles the job,
and the job is delivered again when the plan has expired. -/

section Redelivery

def sampleDocument : Json :=
  .object [("kind", .string "setup"), ("name", .string "tools"), ("version", .string "1.0"),
    ("license", .object [("spdx_id", .string "MIT")]), ("tags", .array [.string "cli"]),
    ("artifact", .object [("digest", .string "sha256:d")])]

/-- A registry that accepts the one passport of the run. -/
def sampleRegistry : Registry where
  platform := asciiPlatform
  model := fun _ document ↦
    .ok ⟨.setup, "setup_1", "1.0", "account_1", false, "sha256:d", "revision_1", document⟩
  verifyRevisionId := fun _ ↦ true
  canonicalSlug := some
  submittedDisplayName := some
  normalizeDisplayKey := id
  textDigest := fun _ ↦ "digest"

def sampleRequest : PlanRequest :=
  ⟨"account_1", "device_1", .setup, "setup_1", "1.0", "sha256:d", [], .toEveryone, none, none, "1",
    sampleDocument, [], "key_1"⟩

/-- Nothing in the way: the artifact is there, and the scan finds nothing. -/
def calm (now : Moment) (newId : String) : Surroundings :=
  ⟨now, newId, false, true, some false, 0, [], false, .verified, true⟩

def advances (id count : Nat) (surroundings : Surroundings) : List (Action Work Surroundings) :=
  List.replicate count (.advance id surroundings)

/-- The plan is created and confirmed, validated and published. -/
def publishing : List (Action Work Surroundings) :=
  .begin 0 (.create .request sampleRequest .account) :: advances 0 6 (calm 0 "plan_1") ++
    .begin 1 (.confirm ⟨"account_1", "plan_1", "plan_digest", "confirm_1"⟩ .load) ::
      advances 1 2 (calm 1 "") ++
    .begin 2 (.validate "plan_1" .load) :: advances 2 4 (calm 2 "snapshot_1") ++
    .begin 3 (.publish "plan_1" .load) :: advances 3 9 (calm 3 "")

/-- The publish job, delivered again more than a day later. -/
def redelivery : List (Action Work Surroundings) :=
  .begin 4 (.publish "plan_1" .load) :: advances 4 3 (calm 90000 "")

def planStateAfter (actions : List (Action Work Surroundings)) : Option PlanState :=
  ((serve sampleRegistry idle actions).db.plans.get? "plan_1").map (·.state)

theorem verdict_overwritten : planStateAfter publishing = some .published ∧
    planStateAfter (publishing ++ redelivery) = some .failed ∧
    ¬ VerdictsFinal sampleRegistry publishing redelivery := by
  have hpublished : planStateAfter publishing = some .published := by decide +kernel
  have hfailed : planStateAfter (publishing ++ redelivery) = some .failed := by decide +kernel
  refine ⟨hpublished, hfailed, ?_⟩
  intro hfinal
  obtain ⟨plan, hplan, hstate⟩ := Option.map_eq_some_iff.mp hpublished
  obtain ⟨later, hlater, hsame⟩ := hfinal "plan_1" plan hplan (by rw [hstate]; rfl)
  unfold planStateAfter at hfailed
  rw [hlater, Option.map_some, hsame, hstate] at hfailed
  cases hfailed

/-- Delivered again within the day, the job finds the version published and leaves the verdict. -/
theorem verdict_final_within_day : VerdictsFinal sampleRegistry publishing
    (.begin 4 (.publish "plan_1" .load) :: advances 4 9 (calm 60 "")) :=
  verdict_final sampleRegistry publishing _ (by decide +kernel)

end Redelivery

end AiStp.Publication
