import AiStp.Library.Loops
import AiStp.Library.Runs
import AiStp.Technology.Scans

/-!
# Decisions about facts

A fact that a person decided about, or that has manual evidence, is to stay as the person left it. A
scan that is folded in keeps every fact that is not just proposed (`foldUsage_keeps`). The
reprojection at its end does not: it overwrites a fact when a finding of its usage was decided, be it
in an earlier scan and before the fact itself was. `Overwritten` says when; along every run of scans,
reviews and reprojections that spare a fact, only its freshness changes (`decisions_kept`).
-/

set_option autoImplicit false

namespace AiStp.Technology

open Library Runs

/-! ### What is kept -/

/-- The review, version and evidence of a fact are as they were. -/
structure Kept (fact later : TechnologyUsageFact) : Prop where
  review : later.review = fact.review
  version : later.version = fact.version
  versionKind : later.versionKind = fact.versionKind
  evidence : later.evidence = fact.evidence

theorem Kept.refl (fact : TechnologyUsageFact) : Kept fact fact := ⟨rfl, rfl, rfl, rfl⟩

theorem Kept.freshness {fact later : TechnologyUsageFact} (h : Kept fact later)
    (freshness : Freshness) : Kept fact { later with freshness := freshness } :=
  ⟨h.review, h.version, h.versionKind, h.evidence⟩

def HasKept (project : Project) (key : UsageKey) (fact : TechnologyUsageFact) : Prop :=
  ∃ later, project.facts.get? key = some later ∧ Kept fact later

def PairRetired (project : Project) (technologyId : String) : Prop :=
  ∃ pair ∈ project.relations.get? technologyId, pair.state = .retired

instance (project : Project) (technologyId : String) :
    Decidable (PairRetired project technologyId) :=
  inferInstanceAs (Decidable (∃ pair ∈ project.relations.get? technologyId, pair.state = .retired))

def Proposed (project : Project) (key : UsageKey) : Prop :=
  ∃ fact ∈ project.facts.get? key, fact.review = .proposed

instance (project : Project) (key : UsageKey) : Decidable (Proposed project key) :=
  inferInstanceAs (Decidable (∃ fact ∈ project.facts.get? key, fact.review = .proposed))

section Keeping

variable {project after : Project} {key : UsageKey} {fact : TechnologyUsageFact}

theorem HasKept.of_facts (h : HasKept project key fact)
    (hfacts : after.facts.get? key = project.facts.get? key) : HasKept after key fact := by
  unfold HasKept
  rw [hfacts]
  exact h

theorem HasKept.review_ne (h : HasKept project key fact) (hspared : ¬ Proposed project key) :
    fact.review ≠ .proposed := by
  obtain ⟨later, hlater, hkept⟩ := h
  intro hproposed
  exact hspared ⟨later, hlater, hkept.review.trans hproposed⟩

end Keeping

/-! ### Reprojection -/

section Reprojection

variable {rules : Rules} {access : Access} {confirmed : List (CoordinateKind × String)}
  {incoming : Option TechnologyScan} {complete : Bool} {project after : Project}
  {key : UsageKey} {fact : TechnologyUsageFact} {entry : UsageKey × TechnologyScanFinding}

/-- A current finding of the usage was decided, or its fact is only proposed. -/
def Overwritten (rules : Rules) (access : Access) (confirmed : List (CoordinateKind × String))
    (incoming : Option TechnologyScan) (project : Project) (key : UsageKey) : Prop :=
  ¬ PairRetired project key.1 ∧
    ∃ current ∈ currentFindings rules access project (project.scans ++ incoming.toList),
      ∃ entry ∈ current, entry.1 = key ∧
        (decided rules project confirmed entry.2 = true ∨ Proposed project key)

instance : Decidable (Overwritten rules access confirmed incoming project key) := by
  unfold Overwritten
  infer_instance

/-- What a reprojection leaves, given what it leaves of a fact. -/
structure Reprojected (first project : Project) (key : UsageKey) (fact : TechnologyUsageFact) :
    Prop where
  reviews : project.reviews = first.reviews
  scans : project.scans = first.scans
  retired : PairRetired first key.1 → PairRetired project key.1
  kept : HasKept project key fact

theorem writeFact_get?_of_ne {pair : ProjectTechnologyRelation} {other : TechnologyUsageFact}
    {written : UsageKey} (hother : key ≠ written) :
    (writeFact project written pair other).facts.get? key = project.facts.get? key := by
  unfold writeFact
  rw [Table.get?_set, if_neg hother]

theorem projectedFact_kept {item : TechnologyScanFinding} (hreview : fact.review ≠ .proposed) :
    projectedFact complete false item fact = fact := by
  unfold projectedFact
  simp [hreview]

theorem reprojectFinding_eq_some
    (h : reprojectFinding rules access confirmed complete project entry = some after) :
    after = project ∧ PairRetired project entry.1.1 ∨
      ¬ PairRetired project entry.1.1 ∧ ∃ pair : ProjectTechnologyRelation, pair.state = .current ∧
        after = writeFact project entry.1 pair (projectedFact complete
          (decided rules project confirmed entry.2) entry.2
          ((project.facts.get? entry.1).getD proposedFact)) := by
  unfold reprojectFinding PairRetired at *
  cases hpair : project.relations.get? entry.1.1 with
  | none =>
    simp only [hpair] at h
    by_cases hcreate : access.authorizeCreate = true
    · rw [if_pos hcreate] at h
      exact .inr ⟨by simp, ⟨.current, 1⟩, rfl, (Option.some.inj h).symm⟩
    · rw [if_neg hcreate] at h
      cases h
  | some pair =>
    simp only [hpair] at h
    by_cases hretired : pair.state = .retired
    · rw [if_pos hretired] at h
      exact .inl ⟨(Option.some.inj h).symm, pair, rfl, hretired⟩
    · rw [if_neg hretired] at h
      by_cases hupdate : access.authorizeUpdate = true
      · rw [if_pos hupdate] at h
        refine .inr ⟨?_, pair, ?_, (Option.some.inj h).symm⟩
        · simp [hretired]
        · cases hstate : pair.state with
          | current => rfl
          | retired => exact absurd hstate hretired
      · rw [if_neg hupdate] at h
        cases h

theorem reprojectFinding_keeps {first : Project} (hspared : entry.1 = key →
      PairRetired first key.1 ∨
        decided rules first confirmed entry.2 = false ∧ fact.review ≠ .proposed)
    (hkept : Reprojected first project key fact)
    (h : reprojectFinding rules access confirmed complete project entry = some after) :
    Reprojected first after key fact := by
  rcases reprojectFinding_eq_some h with ⟨rfl, -⟩ | ⟨hlive, pair, hpair, rfl⟩
  · exact hkept
  constructor
  · exact hkept.reviews
  · exact hkept.scans
  · intro hretired
    obtain ⟨held, hheld, hstate⟩ := hkept.retired hretired
    have hother : key.1 ≠ entry.1.1 := by
      intro hsame
      exact hlive ⟨held, hsame ▸ hheld, hstate⟩
    refine ⟨held, ?_, hstate⟩
    unfold writeFact
    rw [Table.get?_set, if_neg hother]
    exact hheld
  · by_cases hsame : entry.1 = key
    · rcases hspared hsame with hretired | ⟨hundecided, hreview⟩
      · exact absurd (hsame ▸ hkept.retired hretired) hlive
      obtain ⟨later, hlater, hsamefact⟩ := hkept.kept
      have hdecided : decided rules project confirmed entry.2 = false := by
        unfold decided at hundecided ⊢
        rw [hkept.reviews, hkept.scans]
        exact hundecided
      rw [hdecided, hsame, hlater, Option.getD_some,
        projectedFact_kept (hsamefact.review ▸ hreview)]
      refine ⟨later, ?_, hsamefact⟩
      unfold writeFact
      rw [Table.get?_set, if_pos rfl]
    · exact hkept.kept.of_facts (writeFact_get?_of_ne (Ne.symm hsame))

theorem sweepAbsent_keeps {relations : Table String ProjectTechnologyRelation}
    {current : CurrentFindings} (h : HasKept project key fact) :
    HasKept (sweepAbsent relations current complete project) key fact := by
  obtain ⟨later, hlater, hkept⟩ := h
  unfold HasKept sweepAbsent
  rw [Table.get?_mapRows, hlater]
  refine ⟨_, rfl, ?_⟩
  dsimp only
  split
  · exact hkept.freshness _
  · exact hkept

/-- A reprojection that spares a fact leaves its review, version and evidence. -/
theorem reprojectCurrentScans_keeps (hkept : HasKept project key fact)
    (hspared : ¬ Overwritten rules access confirmed incoming project key)
    (h : reprojectCurrentScans rules access confirmed incoming project = some after) :
    HasKept after key fact := by
  unfold reprojectCurrentScans at h
  simp only [Option.bind_eq_bind, Option.bind_eq_some_iff, Option.pure_def, Option.some.injEq] at h
  obtain ⟨current, hcurrent, projected, hprojected, rfl⟩ := h
  apply sweepAbsent_keeps
  refine (foldlM_invariant (fun later ↦ Reprojected project later key fact) hprojected
    ⟨rfl, rfl, id, hkept⟩ ?_).kept
  intro entry hentry middle next hmiddle hnext
  refine reprojectFinding_keeps ?_ hmiddle hnext
  intro hsame
  by_cases hretired : PairRetired project key.1
  · exact .inl hretired
  · right
    have hnone : ¬ (decided rules project confirmed entry.2 = true ∨ Proposed project key) := by
      intro hexposed
      exact hspared ⟨hretired, current, hcurrent, entry, hentry, hsame, hexposed⟩
    rw [not_or] at hnone
    exact ⟨Bool.eq_false_iff.mpr hnone.1, hkept.review_ne hnone.2⟩

end Reprojection

/-! ### Folding in a scan -/

section Folding

variable {access : Access} {complete : Bool} {observations : Observations} {project : Project}
  {handoff : TechnologyScanHandoff} {folding : Folding} {key : UsageKey}
  {fact : TechnologyUsageFact}

/-- The scan observes the usage, whose fact is only proposed. -/
def ObservedWhileProposed (project : Project) (observations : Observations) (key : UsageKey) :
    Prop :=
  ¬ PairRetired project key.1 ∧ (observations.lookup key).isSome ∧ Proposed project key

instance : Decidable (ObservedWhileProposed project observations key) := by
  unfold ObservedWhileProposed
  infer_instance

structure Folded (first : Project) (folding : Folding) (key : UsageKey)
    (fact : TechnologyUsageFact) : Prop where
  retired : PairRetired first key.1 → PairRetired folding.project key.1
  kept : HasKept folding.project key fact

theorem mergedFact_kept {observation : Option TechnologyObservation} {later : TechnologyUsageFact}
    (hkept : Kept fact later) (hspared : observation.isSome → fact.review ≠ .proposed) :
    ∃ next, mergedFact complete observation (some later) = some next ∧ Kept fact next := by
  cases observation with
  | none =>
    refine ⟨_, rfl, ?_⟩
    dsimp only
    split
    · exact hkept.freshness _
    · exact hkept
  | some observation =>
    refine ⟨_, rfl, ?_⟩
    dsimp only
    rw [if_pos (hkept.review ▸ hspared rfl)]
    exact hkept.freshness _

theorem setFact_keeps {written : UsageKey} {relations : Table String ProjectTechnologyRelation}
    (hkept : HasKept project key fact)
    (hspared : written = key → (observations.lookup key).isSome → fact.review ≠ .proposed) :
    HasKept (setFact { project with relations := relations } written
      (mergedFact complete (observations.lookup written) (project.facts.get? written))) key fact := by
  by_cases hsame : written = key
  · obtain ⟨later, hlater, hlaterKept⟩ := hkept
    subst hsame
    obtain ⟨next, hnext, hnextKept⟩ := mergedFact_kept hlaterKept (hspared rfl)
    refine ⟨next, ?_, hnextKept⟩
    rw [hlater, hnext]
    unfold setFact
    rw [Table.get?_set, if_pos rfl]
  · refine hkept.of_facts ?_
    cases mergedFact complete (observations.lookup written) (project.facts.get? written) with
    | none => rfl
    | some next =>
      unfold setFact
      rw [Table.get?_set, if_neg (Ne.symm hsame)]

theorem setFact_relations {relations : Table String ProjectTechnologyRelation} {written : UsageKey}
    {next : Option TechnologyUsageFact} :
    (setFact { project with relations := relations } written next).relations = relations := by
  cases next <;> rfl

/-- A scan writes a fact only while it is proposed, and never one whose relation is retired. -/
theorem foldUsage_keeps {first : Project} {written : UsageKey}
    (hspared : PairRetired first key.1 ∨
      ((observations.lookup key).isSome → fact.review ≠ .proposed))
    (hkept : Folded first folding key fact) :
    Folded first (foldUsage complete observations folding written) key fact := by
  unfold foldUsage
  dsimp only
  cases hpair : folding.project.relations.get? written.1 with
  | none =>
    dsimp only
    by_cases hobserved : (observations.lookup written).isSome = true
    · rw [if_pos hobserved]
      have hother : PairRetired first key.1 → key.1 ≠ written.1 := by
        intro hretired hsame
        obtain ⟨pair, hheld, -⟩ := hkept.retired hretired
        rw [hsame, hpair] at hheld
        cases hheld
      constructor
      · intro hretired
        obtain ⟨pair, hheld, hstate⟩ := hkept.retired hretired
        refine ⟨pair, ?_, hstate⟩
        rw [setFact_relations, Table.get?_set, if_neg (hother hretired)]
        exact hheld
      · refine setFact_keeps hkept.kept fun hsame ↦ ?_
        rcases hspared with hretired | hreview
        · exact absurd (congrArg Prod.fst hsame).symm (hother hretired)
        · exact hreview
    · rw [if_neg hobserved]
      exact hkept
  | some pair =>
    dsimp only
    by_cases hretiredPair : pair.state = .retired
    · rw [if_pos hretiredPair]
      exact ⟨hkept.retired, hkept.kept⟩
    · rw [if_neg hretiredPair]
      have hother : PairRetired first key.1 → key.1 ≠ written.1 := by
        intro hretired hsame
        obtain ⟨held, hheld, hstate⟩ := hkept.retired hretired
        rw [hsame, hpair] at hheld
        exact hretiredPair (Option.some.inj hheld ▸ hstate)
      constructor
      · intro hretired
        obtain ⟨held, hheld, hstate⟩ := hkept.retired hretired
        refine ⟨held, ?_, hstate⟩
        rw [setFact_relations, Table.get?_set, if_neg (hother hretired)]
        exact hheld
      · refine setFact_keeps hkept.kept fun hsame ↦ ?_
        rcases hspared with hretired | hreview
        · exact absurd (congrArg Prod.fst hsame).symm (hother hretired)
        · exact hreview

theorem foldedScan_keeps (hkept : HasKept project key fact)
    (hspared : ¬ ObservedWhileProposed project observations key)
    (h : foldedScan access project handoff observations = some folding) :
    HasKept folding.project key fact := by
  unfold foldedScan at h
  simp only [Option.bind_eq_bind, Option.bind_eq_some_iff, Option.guard_eq_some', Option.pure_def,
    Option.some.injEq] at h
  obtain ⟨lapsed, -, _, -, rfl⟩ := h
  have hcase : PairRetired project key.1 ∨
      ((observations.lookup key).isSome → fact.review ≠ .proposed) := by
    by_cases hretired : PairRetired project key.1
    · exact .inl hretired
    · exact .inr fun hobserved ↦
        hkept.review_ne fun hproposed ↦ hspared ⟨hretired, hobserved, hproposed⟩
  have hfolded : ∀ (keys : List UsageKey) (folding : Folding), Folded project folding key fact →
      Folded project (keys.foldl (foldUsage handoff.complete observations) folding) key fact := by
    intro keys
    induction keys with
    | nil => exact fun _ hfirst ↦ hfirst
    | cons written keys ih => exact fun _ hfirst ↦ ih _ (foldUsage_keeps hcase hfirst)
  exact (hfolded (scanKeys observations lapsed) { project := project } ⟨id, hkept⟩).kept

end Folding

/-! ### Calls -/

section Calls

variable {rules : Rules} {access : Access} {project after : Project} {observations : Observations}
  {handoff : TechnologyScanHandoff} {digest : String} {key : UsageKey}
  {fact : TechnologyUsageFact}

/-- A scan spares a fact: it is not observed while it is proposed, and not overwritten by the
reprojection that ends the scan. -/
def ScanSpares (rules : Rules) (access : Access) (project : Project)
    (handoff : TechnologyScanHandoff) (observations : Observations) (digest : String)
    (key : UsageKey) : Prop :=
  ¬ ObservedWhileProposed project observations key ∧
    ∀ folding ∈ foldedScan access project handoff observations,
      ¬ Overwritten rules access [] (some (storedScan folding.project handoff digest))
        folding.project key

instance : Decidable (ScanSpares rules access project handoff observations digest key) := by
  unfold ScanSpares
  infer_instance

theorem mergeScanFacts_keeps {disagreements : List TechnologyObservation}
    (hkept : HasKept project key fact)
    (hspared : ScanSpares rules access project handoff observations digest key)
    (h : mergeScanFacts rules access project handoff observations digest =
      some (after, disagreements)) : HasKept after key fact := by
  unfold mergeScanFacts at h
  simp only [Option.bind_eq_bind, Option.bind_eq_some_iff, Option.pure_def, Option.some.injEq,
    Prod.mk.injEq] at h
  obtain ⟨folding, hfolding, projected, hprojected, rfl, -⟩ := h
  have hreprojected := reprojectCurrentScans_keeps (foldedScan_keeps hkept hspared.1 hfolding)
    (hspared.2 folding hfolding) hprojected
  exact hreprojected.of_facts rfl

theorem storeScan_keeps {payload : TechnologyScanRequest} {current : Bool}
    (hkept : HasKept project key fact)
    (hspared : ScanSpares rules access project payload.handoff observations payload.digest key)
    (h : storeScan rules access project payload current observations = some after) :
    HasKept after key fact := by
  unfold storeScan at h
  split at h
  · split_ifs at h
    exact Option.some.inj h ▸ hkept
  · split_ifs at h
    obtain ⟨⟨merged, disagreements⟩, hmerged, rfl⟩ := Option.map_eq_some_iff.mp h
    exact mergeScanFacts_keeps hkept hspared hmerged

theorem decideFinding_facts {state next : Project × Confirmed} {item : TechnologyFindingDecision}
    (h : decideFinding rules state item = some next) :
    next.1.facts = state.1.facts := by
  unfold decideFinding at h
  simp only [Option.bind_eq_bind, Option.bind_eq_some_iff, Option.guard_eq_some', Option.pure_def,
    Option.some.injEq] at h
  obtain ⟨scan, -, _, -, _, -, confirmed, -, rfl⟩ := h
  rfl

theorem publishConfirmed_facts {confirmed : Confirmed} {version : String} {now : Nat} :
    (publishConfirmed project confirmed version now).facts = project.facts := by
  unfold publishConfirmed
  split_ifs <;> rfl

/-- A review of findings spares a fact: none that is current for its usage is decided. -/
def ReviewSpares (rules : Rules) (access : Access) (project : Project)
    (payload : TechnologyFindingReviewRequest) (key : UsageKey) : Prop :=
  ∀ state ∈ payload.items.foldlM (decideFinding rules) (project, payload.elsewhere),
    ¬ Overwritten rules access (state.2.map Prod.fst) none
      (publishConfirmed state.1 state.2 payload.version payload.now) key

instance {payload : TechnologyFindingReviewRequest} :
    Decidable (ReviewSpares rules access project payload key) := by
  unfold ReviewSpares
  infer_instance

theorem reviewFindings_keeps {payload : TechnologyFindingReviewRequest}
    (hkept : HasKept project key fact) (hspared : ReviewSpares rules access project payload key)
    (h : reviewFindings rules access project payload = some after) : HasKept after key fact := by
  unfold reviewFindings at h
  simp only [Option.bind_eq_bind, Option.bind_eq_some_iff] at h
  obtain ⟨state, hstate, hprojected⟩ := h
  have hdecided : HasKept state.1 key fact :=
    foldlM_invariant (fun state ↦ HasKept state.1 key fact) hstate hkept
      fun item _ state next hheld hnext ↦
        hheld.of_facts (congrArg (Table.get? · key) (decideFinding_facts hnext))
  have hmapped : HasKept (publishConfirmed state.1 state.2 payload.version payload.now) key fact :=
    hdecided.of_facts (congrArg (Table.get? · key) publishConfirmed_facts)
  split_ifs at hprojected
  · obtain ⟨projected, hreprojected, rfl⟩ := Option.map_eq_some_iff.mp hprojected
    have hlater := reprojectCurrentScans_keeps hmapped (hspared state hstate) hreprojected
    exact hlater.of_facts rfl
  · exact Option.some.inj hprojected ▸ hmapped

/-- The request writes the fact of the usage. -/
def Writes (payload : ProjectTechnologyWriteRequest) (key : UsageKey) : Prop :=
  payload.state = .current ∧ (payload.technologyId, payload.fact.context) = key

instance {payload : ProjectTechnologyWriteRequest} : Decidable (Writes payload key) := by
  unfold Writes
  infer_instance

theorem writeProjectTechnology_keeps {payload : ProjectTechnologyWriteRequest}
    (hkept : HasKept project key fact) (hother : ¬ Writes payload key)
    (h : writeProjectTechnology project payload = some after) : HasKept after key fact := by
  unfold writeProjectTechnology at h
  simp only [Option.bind_eq_bind, Option.bind_eq_some_iff, Option.guard_eq_some', Option.pure_def,
    Option.some.injEq] at h
  obtain ⟨_, -, _, -, _, -, rfl⟩ := h
  refine hkept.of_facts ?_
  cases hstate : payload.state with
  | current =>
    have hkey : key ≠ (payload.technologyId, payload.fact.context) :=
      fun hsame ↦ hother ⟨hstate, hsame.symm⟩
    exact Table.get?_set.trans (if_neg hkey)
  | retired => rfl

end Calls

/-! ### Runs -/

/-- The event spares the fact of a usage. -/
def Spares (rules : Rules) (key : UsageKey) (project : Project) : Event → Prop
  | .scan access payload => ∀ observations ∈ keyedObservations access true payload.handoff,
    ScanSpares rules access project payload.handoff observations payload.digest key
  | .repositoryScan access payload => ∀ observations ∈ keyedObservations access false payload.handoff,
    ScanSpares rules access project payload.handoff observations payload.digest key
  | .review access payload => ReviewSpares rules access project payload key
  | .write payload => ¬ Writes payload key
  | .organization _ _ => True

instance (rules : Rules) (key : UsageKey) (project : Project) (event : Event) :
    Decidable (Spares rules key project event) := by
  cases event <;> unfold Spares <;> infer_instance

section Steps

variable {rules : Rules} {project : Project} {key : UsageKey} {fact : TechnologyUsageFact}

theorem keeps_of_some {outcome : Option Project} (hkept : HasKept project key fact)
    (hsome : ∀ after, outcome = some after → HasKept after key fact) :
    HasKept (outcome.getD project) key fact := by
  cases outcome with
  | none => exact hkept
  | some after => exact hsome after rfl

theorem step_keeps (project : Project) (event : Event) (hkept : HasKept project key fact)
    (hspares : Spares rules key project event) : HasKept (step rules project event) key fact := by
  cases event with
  | scan access payload =>
    refine keeps_of_some hkept fun after h ↦ ?_
    unfold publishScan at h
    simp only [Option.bind_eq_bind, Option.bind_eq_some_iff, Option.guard_eq_some'] at h
    obtain ⟨observations, hobservations, _, -, _, -, hstored⟩ := h
    exact storeScan_keeps hkept (hspares observations hobservations) hstored
  | repositoryScan access payload =>
    refine keeps_of_some hkept fun after h ↦ ?_
    unfold applyRepositoryScan at h
    simp only [Option.bind_eq_bind, Option.bind_eq_some_iff, Option.guard_eq_some'] at h
    obtain ⟨observations, hobservations, _, -, hstored⟩ := h
    exact storeScan_keeps hkept (hspares observations hobservations) hstored
  | review access payload =>
    exact keeps_of_some hkept fun after h ↦ reviewFindings_keeps hkept hspares h
  | write payload =>
    exact keeps_of_some hkept fun after h ↦ writeProjectTechnology_keeps hkept hspares h
  | organization mappings unmapped => exact hkept

end Steps

/-- Along a run whose steps spare the fact of a usage, the fact keeps its review, version and
evidence. -/
theorem decisions_kept (rules : Rules) (project : Project) (key : UsageKey)
    (fact : TechnologyUsageFact) (hfact : project.facts.get? key = some fact)
    (events : List Event) (hspared : StepsMeet (step rules) (Spares rules key) project events) :
    ∃ later, (run (step rules) project events).facts.get? key = some later ∧
      later.review = fact.review ∧ later.version = fact.version ∧
        later.evidence = fact.evidence := by
  have hkept : HasKept (run (step rules) project events) key fact :=
    run_invariant_of_stepsMeet (fun project event ↦ step_keeps project event) project
      ⟨fact, hfact, Kept.refl fact⟩ events hspared
  obtain ⟨later, hlater, hsame⟩ := hkept
  exact ⟨later, hlater, hsame.review, hsame.version, hsame.evidence⟩

/-! ### A decision that is overwritten -/

def exampleRules : Rules where
  findingKey := fun _ coordinate _ ↦ coordinate
  technologyIdentity := fun _ _ ↦ none
  casefold := id
  parent := fun _ ↦ "."
  fileName := id

def exampleAccess : Access := ⟨some, true, true⟩

def exampleMapping : TechnologyCoordinateMapping where
  version := "m1"
  publishedAt := 1
  kind := .package
  coordinate := "fastapi"
  technologyId := "technology-api"

def exampleProject : Project where
  id := "project-1"
  revision := 1
  relations := .empty
  facts := .empty
  scans := []
  reviews := .empty
  mappings := [exampleMapping]
  unmapped := []

def exampleEvidence (source : EvidenceSource) : TechnologyEvidence where
  source := source
  path := some "pyproject.toml"
  observedAt := 1
  detectorVersion := some "d1"
  mappingVersion := some "m1"

/-- A scan that finds version 1.0 of the package. -/
def exampleScan (scanId : String) (expectedRevision : Nat) : Event :=
  .scan exampleAccess
    { expectedRevision := expectedRevision
      digest := scanId
      handoff :=
        { scanId := scanId
          scope := "main"
          complete := true
          detectorVersion := "d1"
          mappingVersion := "m1"
          observations := [⟨"technology-api", ⟨.production, some "1.0", .declaredRange,
            [exampleEvidence .declared]⟩⟩]
          coordinates := [⟨⟨.package, "fastapi", some .production, some "1.0", .declaredRange,
            [exampleEvidence .declared]⟩, some "technology-api"⟩] } }

def exampleReview : Event :=
  .review exampleAccess
    { items := [⟨"scan-1", .package, "fastapi", some .production, some "technology-api", none,
        .confirmed, 0, "", 2⟩]
      elsewhere := []
      reaches := false
      version := "review-1"
      now := 2 }

/-- A person writes that version 2.0 is used. -/
def exampleOverride (expectedRevision : Nat) : Event :=
  .write
    { technologyId := "technology-api"
      fact := ⟨.production, some "2.0", .observedVersion, [exampleEvidence .manual]⟩
      review := .overridden
      state := .current
      expectedRevision := expectedRevision
      active := true }

/-- Nobody reviewed the finding, and the scans that follow leave the fact. -/
theorem decisions_kept_after_scan :
    let project := run (step exampleRules) exampleProject
      [exampleScan "scan-1" 1, exampleOverride 1]
    ∃ later, (run (step exampleRules) project [exampleScan "scan-2" 2]).facts.get?
        ("technology-api", .production) = some later ∧
      later.review = .overridden ∧ later.version = some "2.0" ∧
        later.evidence = [exampleEvidence .manual] :=
  decisions_kept exampleRules _ _
    ⟨.overridden, some "2.0", .observedVersion, [exampleEvidence .manual], .current⟩
    (by decide +kernel) _ (by decide +kernel)

/-- The finding was confirmed before the fact was overridden: the next scan overwrites the fact. -/
theorem decision_overwritten :
    let decided := run (step exampleRules) exampleProject
      [exampleScan "scan-1" 1, exampleReview, exampleOverride 2]
    let scanned := step exampleRules decided (exampleScan "scan-2" 3)
    (decided.facts.get? ("technology-api", .production)).map
        (fun fact ↦ (fact.review, fact.version)) = some (.overridden, some "2.0") ∧
      (scanned.facts.get? ("technology-api", .production)).map
        (fun fact ↦ (fact.review, fact.version)) = some (.confirmed, some "1.0") := by
  decide +kernel

end AiStp.Technology
