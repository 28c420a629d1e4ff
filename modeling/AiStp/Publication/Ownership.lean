import AiStp.Publication.Soundness

/-!
# The owner of a component line

The owner of a line is written on its identity and copied to every published version. A publication
holds the identity from the moment it has checked the owner until it commits, and a transfer holds
it from its own check until it has moved the versions, so the two agree at every moment.

A transfer gives the line a revision that no plan can have been made under. `Moved` says so of any
two moments of a run; a plan that was there before the transfer is refused ever after.
-/

set_option autoImplicit false

namespace AiStp.Publication

open Library Library.Transactions

/-- Between two moments a line keeps its revision, or gets one that was never used before. -/
structure Moved (before after : Database) : Prop where
  grows : Grows before after
  revisions : ∀ stableId identity later, before.identities.get? stableId = some identity →
    after.identities.get? stableId = some later →
      later.ownershipRevisionId = identity.ownershipRevisionId ∨
        (later.ownershipRevisionId ≠ "" ∧
          before.revisions.get? later.ownershipRevisionId = none)

theorem operationId_ne_empty (unique : String) : operationId unique ≠ "" := by
  intro h
  have hlength : (operationId unique).length = 0 := by
    rw [h]
    rfl
  unfold operationId at hlength
  rw [String.length_append] at hlength
  have hextends : "operation_".length = 10 := by decide
  omega

theorem Moved.refl (database : Database) : Moved database database where
  grows := .refl database
  revisions := by
    intro stableId identity later hidentity hlater
    rw [hidentity] at hlater
    rw [Option.some.inj hlater]
    exact .inl rfl

theorem Moved.trans {first second third : Database} (h : Moved first second)
    (h' : Moved second third) : Moved first third where
  grows := h.grows.trans h'.grows
  revisions := by
    intro stableId identity later hidentity hlater
    obtain ⟨middle, hmiddle, -⟩ := h.grows.identities stableId identity hidentity
    rcases h'.revisions stableId middle later hmiddle hlater with hsame | ⟨hfirst, hfree⟩
    · rw [hsame]
      exact h.revisions stableId identity middle hidentity hmiddle
    · refine .inr ⟨hfirst, ?_⟩
      by_contra htaken
      obtain ⟨row, hrow⟩ := Option.ne_none_iff_exists'.mp htaken
      obtain ⟨kept, hkept, -⟩ := h.grows.revisions _ row hrow
      rw [hfree] at hkept
      cases hkept

theorem moved_of_writes {registry : Registry} {database after : Database}
    {surroundings : Surroundings} {work : Work}
    (h : Writes registry database surroundings work after) : Moved database after where
  grows := grows_of_writes h
  revisions := by
    intro stableId identity later hidentity hlater
    cases identityOrigin h hlater with
    | kept hkept =>
      rw [hidentity] at hkept
      rw [Option.some.inj hkept]
      exact .inl rfl
    | created hfree _ _ =>
      rw [hidentity] at hfree
      cases hfree
    | moved call other claimId keys held hwork hheld hmoved =>
      subst hwork hmoved
      cases h with
      | transfer h =>
        obtain ⟨revision, revisions, hrevisions, -⟩ := transfer_eq_some h
        exact .inr ⟨operationId_ne_empty _, (Table.insert?_eq_some hrevisions).1⟩

section Runs

variable {registry : Registry} {machine : Machine Database Lock Work}

theorem moved_step (hsteady : Steady registry machine) (action : Action Work Surroundings) :
    Moved machine.db (step (server registry) machine action).db := by
  by_cases hdb : (step (server registry) machine action).db = machine.db
  · rw [hdb]
    exact .refl machine.db
  · obtain ⟨id, surroundings, current, -, -, hwrites, -⟩ := commit_of_step hsteady hdb
    exact moved_of_writes hwrites

theorem moved_run (hsteady : Steady registry machine)
    (actions : List (Action Work Surroundings)) :
    Moved machine.db (serve registry machine actions).db := by
  induction actions generalizing machine with
  | nil => exact .refl machine.db
  | cons action actions ih =>
    exact (moved_step hsteady action).trans
      (ih (step_sound (server_keeps registry) machine action hsteady))

end Runs

/-! ### Plans of an earlier owner -/

/-- The plan belongs to a component line whose ownership has moved on. -/
def Outdated (database : Database) (planId : String) : Prop :=
  ∃ plan identity, database.plans.get? planId = some plan ∧ plan.objectKind = .component ∧
    database.identities.get? plan.stableId = some identity ∧
      plan.expectedOwnershipRevisionId.any (· ≠ identity.ownershipRevisionId) = true

/-- No lock on the line goes with such a plan. -/
theorem Outdated.not_fenced {database : Database} {planId : String} (h : Outdated database planId)
    {locks : List Lock} {plan : PublicationPlan} {held : Option CatalogIdentity}
    (hloaded : Loaded database planId plan) : ¬ Fenced database locks plan held := by
  obtain ⟨row, identity, hrow, hkind, hidentity, hother⟩ := h
  obtain ⟨row', hrow', hsame⟩ := hloaded
  rw [hrow] at hrow'
  obtain rfl := Option.some.inj hrow'
  unfold PublicationPlan.SameSurface at hsame
  intro hfenced
  rw [hsame] at hfenced
  obtain ⟨-, found, -, hfound, howner⟩ := hfenced hkind
  change database.identities.get? row.stableId = some found at hfound
  rw [hidentity] at hfound
  obtain rfl := Option.some.inj hfound
  unfold CatalogIdentity.refuses at howner
  rw [Bool.or_eq_false_iff] at howner
  rw [show _ = false from howner.2] at hother
  cases hother

/-- A plan that was there before its line moved is outdated afterwards. -/
theorem outdated_of_moved {registry : Registry} {before after : Database}
    (hconsistent : Consistent registry before) (hmoved : Moved before after) {planId : String}
    {plan : PublicationPlan} {identity later : CatalogIdentity}
    (hplan : before.plans.get? planId = some plan) (hkind : plan.objectKind = .component)
    (hidentity : before.identities.get? plan.stableId = some identity)
    (hlater : after.identities.get? plan.stableId = some later)
    (hrevision : later.ownershipRevisionId ≠ identity.ownershipRevisionId) :
    Outdated after planId := by
  obtain ⟨-, expected, hexpected, hknows⟩ := hconsistent.plans planId plan hplan hkind
  obtain ⟨row, hrow, hsame⟩ := hmoved.grows.plans planId plan hplan
  have hfresh : expected ≠ later.ownershipRevisionId := by
    rcases hmoved.revisions plan.stableId identity later hidentity hlater with
      hkept | ⟨hfirst, hfree⟩
    · exact absurd hkept hrevision
    · rcases hknows with rfl | ⟨revision, hfound, -⟩
      · exact hfirst.symm
      · intro hsame
        rw [hsame, hfree] at hfound
        cases hfound
  unfold PublicationPlan.SameSurface at hsame
  refine ⟨row, later, hrow, ?_, ?_, ?_⟩
  · rw [hsame]
    exact hkind
  · rw [hsame]
    exact hlater
  · rw [hsame]
    simp [hexpected, hfresh]

section Outdated

variable {registry : Registry} {machine : Machine Database Lock Work} {planId : String}

/-- The publication of an outdated plan changes nothing. -/
theorem db_of_outdated (hsteady : Steady registry machine) (houtdated : Outdated machine.db planId)
    {id : Nat} {surroundings : Surroundings} {current : Open Lock Work} {stage : PublishStage}
    (hcurrent : machine.running.get? id = some current)
    (hwork : current.state = .publish planId stage) :
    (step (server registry) machine (.advance id surroundings)).db = machine.db := by
  by_contra hdb
  obtain ⟨_, _, other, haction, hother, hwrites, hrelies⟩ := commit_of_step hsteady hdb
  obtain ⟨rfl, rfl⟩ := Action.advance.inj haction
  rw [hcurrent] at hother
  obtain rfl := Option.some.inj hother
  rw [hwork] at hwrites hrelies
  generalize (step (server registry) machine (.advance id surroundings)).db = after at hwrites
  cases hwrites with
  | publish h =>
    obtain ⟨-, hloaded, -, -, hfenced, -⟩ := hrelies
    exact houtdated.not_fenced hloaded hfenced
  | republish _ plan existing =>
    obtain ⟨-, hloaded, -, ⟨held, hfenced⟩, -⟩ := hrelies
    exact houtdated.not_fenced hloaded hfenced

/-- An outdated plan does not become published. -/
theorem not_published_of_outdated (hsteady : Steady registry machine)
    (houtdated : Outdated machine.db planId) {action : Action Work Surroundings}
    {plan later : PublicationPlan} (hplan : machine.db.plans.get? planId = some plan)
    (hbefore : plan.state ≠ .published)
    (hlater : (step (server registry) machine action).db.plans.get? planId = some later) :
    later.state ≠ .published := by
  by_cases hdb : (step (server registry) machine action).db = machine.db
  · rw [hdb, hplan] at hlater
    rw [← Option.some.inj hlater]
    exact hbefore
  · obtain ⟨id, surroundings, current, rfl, hcurrent, hwrites, -⟩ := commit_of_step hsteady hdb
    cases planOrigin hwrites hlater with
    | kept row hrow _ hstate =>
      rw [hplan] at hrow
      rw [hstate, ← Option.some.inj hrow]
      exact hbefore
    | settled row loaded target hrow _ hsettles hstate =>
      rw [hplan] at hrow
      obtain rfl := Option.some.inj hrow
      rw [hstate]
      unfold Queue.flushed
      split_ifs
      · exact hbefore
      · intro hpublished
        rw [hpublished] at hsettles
        have hstage : ∃ stage, current.state = .publish planId stage := by
          unfold Work.settles at hsettles
          split at hsettles
          · cases hsettles
          · have htarget := congrArg (fun triple ↦ triple.2.2) (Option.some.inj hsettles)
            dsimp only at htarget
            split_ifs at htarget
          · cases hsettles
          · cases hsettles
          · next hstate =>
            obtain ⟨rfl, -, -⟩ := Option.some.inj hsettles
            exact ⟨_, hstate⟩
          · next hstate =>
            obtain ⟨rfl, -, -⟩ := Option.some.inj hsettles
            exact ⟨_, hstate⟩
          · cases hsettles
        obtain ⟨stage, hwork⟩ := hstage
        exact hdb (db_of_outdated hsteady houtdated hcurrent hwork)
    | created origin request passport held expected hfree _ _ _ =>
      rw [hplan] at hfree
      cases hfree

end Outdated

/-- What a run of the server keeps of ownership, seen after a first and a second part of it. -/
structure SingleOwner (registry : Registry) (first second : List (Action Work Surroundings)) :
    Prop where
  /-- The published versions of a component line belong to the owner of its identity. -/
  owner : ∀ key row, (serve registry idle first).db.catalog.get? key = some row →
    key.objectKind = .component → row.lifecycleState ≠ .draft → ∃ identity,
      (serve registry idle first).db.identities.get? key.stableId = some identity ∧
        row.ownerAccountId = identity.ownerAccountId
  /-- Where a transfer has moved the line since, no statement of a plan's publication writes. -/
  silent : ∀ planId plan identity later,
    (serve registry idle first).db.plans.get? planId = some plan → plan.objectKind = .component →
    (serve registry idle first).db.identities.get? plan.stableId = some identity →
    (serve registry idle (first ++ second)).db.identities.get? plan.stableId = some later →
    later.ownershipRevisionId ≠ identity.ownershipRevisionId →
      ∀ id surroundings current stage,
        (serve registry idle (first ++ second)).running.get? id = some current →
        current.state = .publish planId stage →
          (step (server registry) (serve registry idle (first ++ second))
            (.advance id surroundings)).db = (serve registry idle (first ++ second)).db
  /-- Nor does the plan become published. -/
  stale : ∀ planId plan identity later,
    (serve registry idle first).db.plans.get? planId = some plan → plan.objectKind = .component →
    (serve registry idle first).db.identities.get? plan.stableId = some identity →
    (serve registry idle (first ++ second)).db.identities.get? plan.stableId = some later →
    later.ownershipRevisionId ≠ identity.ownershipRevisionId →
      ∀ action row row',
        (serve registry idle (first ++ second)).db.plans.get? planId = some row →
        row.state ≠ .published →
        (step (server registry) (serve registry idle (first ++ second)) action).db.plans.get?
          planId = some row' → row'.state ≠ .published

theorem single_owner (registry : Registry) (first second : List (Action Work Surroundings)) :
    SingleOwner registry first second := by
  have hfirst : Steady registry (serve registry idle first) :=
    server_sound registry (steady_idle registry) first
  have hsecond : Steady registry (serve registry idle (first ++ second)) :=
    server_sound registry (steady_idle registry) (first ++ second)
  have hmoved : Moved (serve registry idle first).db
      (serve registry idle (first ++ second)).db := by
    have hrun := moved_run hfirst second
    unfold serve at hrun ⊢
    rw [Library.Runs.run_append]
    exact hrun
  constructor
  · exact hfirst.invariant.owners
  · intro planId plan identity later hplan hkind hidentity hlater hrevision id surroundings current
      stage hcurrent hwork
    exact db_of_outdated hsecond
      (outdated_of_moved hfirst.invariant hmoved hplan hkind hidentity hlater hrevision) hcurrent
      hwork
  · intro planId plan identity later hplan hkind hidentity hlater hrevision action row row' hrow
      hbefore hrow'
    exact not_published_of_outdated hsecond
      (outdated_of_moved hfirst.invariant hmoved hplan hkind hidentity hlater hrevision) hrow
      hbefore hrow'

end AiStp.Publication
