import AiStp.Technology.Interpretation

/-!
# Storing scans and deciding about them

A scan is folded into the facts of its project (`mergeScanFacts`) and stored; a person reviews
findings of stored scans, or writes a fact directly. Each of the first two ends with a
reprojection. A call that fails at any point is rolled back.
-/

set_option autoImplicit false

namespace AiStp.Technology

variable (rules : Rules) (access : Access)

/-! ### Folding a scan into the facts -/

def UsageContext.text : UsageContext → String
  | .production => "production"
  | .development => "development"
  | .testing => "testing"
  | .browserSupport => "browser_support"

abbrev Observations := List (UsageKey × TechnologyObservation)

/-- The usages that a handoff observes, under the technologies of today. -/
def observedKeys (handoff : TechnologyScanHandoff) : Option (List UsageKey) :=
  handoff.observations.mapM fun observation ↦
    (access.resolveTechnology observation.technologyId).map (·, observation.fact.context)

/-- What the scope of the handoff observed before, and no other scope observes now. -/
def lapsedKeys (project : Project) (handoff : TechnologyScanHandoff) : Option (List UsageKey) := do
  let own ← (project.scans.filter (·.handoff.scope = handoff.scope)).mapM fun scan ↦
    observedKeys access scan.handoff
  let others ← ((latestScans project.scans).filter (·.handoff.scope ≠ handoff.scope)).mapM
    fun scan ↦ observedKeys access scan.handoff
  return own.flatten.filter (· ∉ others.flatten)

/-- The usages that a scan is about, in the order in which they are visited. -/
def scanKeys (observations : Observations) (lapsed : List UsageKey) : List UsageKey :=
  (observations.map Prod.fst ++ lapsed).dedup.insertionSort fun first second ↦
    toLex (first.1, first.2.text) ≤ toLex (second.1, second.2.text)

/-- The caller may create or update the relations that the scan is about. -/
def pairsAuthorized (project : Project) (keys : List UsageKey) : Bool :=
  keys.all fun key ↦
    if (project.relations.get? key.1).isSome then access.authorizeUpdate
    else access.authorizeCreate

def observedFact (complete : Bool) (review : UsageReview) (fact : UsageFact) :
    TechnologyUsageFact where
  review := review
  version := fact.version
  versionKind := fact.versionKind
  evidence := fact.evidence
  freshness := freshnessOf complete

/-- The scan says other than the fact, or the fact was decided against. -/
def disagrees (fact : TechnologyUsageFact) (observed : UsageFact) : Bool :=
  (fact.version, fact.versionKind) ≠ (observed.version, observed.versionKind) ∨
    fact.review = .rejected ∨ fact.review = .retired

/-- The freshness of a fact that was decided, when a scan observes its usage. -/
def decidedFreshness (complete : Bool) (fact : TechnologyUsageFact) (observed : UsageFact) :
    Freshness :=
  if onDetection fact then
    if disagrees fact observed then
      if fact.review ≠ .retired then (if complete then .stale else .unknown) else fact.freshness
    else freshnessOf complete
  else fact.freshness

/-- A fact after a scan: it is written only while it is proposed. -/
def mergedFact (complete : Bool) (observation : Option TechnologyObservation) :
    Option TechnologyUsageFact → Option TechnologyUsageFact
  | none => observation.map fun observation ↦ observedFact complete .proposed observation.fact
  | some fact => some <|
    match observation with
    | none =>
      if fact.review ≠ .retired ∧ onDetection fact then
        { fact with freshness := if complete then .absent else .unknown }
      else fact
    | some observation =>
      if fact.review ≠ .proposed then
        { fact with freshness := decidedFreshness complete fact observation.fact }
      else observedFact complete .proposed observation.fact

/-- A project while a scan is folded in: the technologies whose relation moved on already, and the
observations that the facts disagree with. -/
structure Folding where
  project : Project
  touched : List String := []
  disagreements : List TechnologyObservation := []

def setFact (project : Project) (key : UsageKey) : Option TechnologyUsageFact → Project
  | none => project
  | some fact => { project with facts := project.facts.set key fact }

def foldUsage (complete : Bool) (observations : Observations) (folding : Folding)
    (key : UsageKey) : Folding :=
  let project := folding.project
  let observation := observations.lookup key
  let fact := project.facts.get? key
  let disagreements := match observation, fact with
    | some observation, some fact =>
      if fact.review ≠ .proposed ∧ disagrees fact observation.fact then [observation] else []
    | _, _ => []
  match project.relations.get? key.1 with
  | some pair =>
    if pair.state = .retired then
      { folding with disagreements := folding.disagreements ++ observation.toList }
    else
      let revision := if key.1 ∈ folding.touched then pair.revision else pair.revision + 1
      { project := setFact
          { project with relations := project.relations.set key.1 { pair with revision := revision } }
          key (mergedFact complete observation fact)
        touched := key.1 :: folding.touched
        disagreements := folding.disagreements ++ disagreements }
  | none =>
    if observation.isSome then
      { project := setFact
          { project with relations := project.relations.set key.1 ⟨.current, 1⟩ }
          key (mergedFact complete observation fact)
        touched := key.1 :: folding.touched
        disagreements := folding.disagreements ++ disagreements }
    else folding

/-- The queue after a scan: the rows of its scope are replaced and keep their candidates. -/
def requeued (project : Project) (handoff : TechnologyScanHandoff) : List UnmappedRow :=
  project.unmapped.filter (fun row ↦ ¬ (row.projectId = project.id ∧ row.scope = handoff.scope)) ++
    ((handoff.unmappedCoordinates.map fun item ↦ (item.kind, item.coordinate)).dedup.map fun item ↦
      { projectId := project.id
        kind := item.1
        coordinate := item.2
        scope := handoff.scope
        candidateTechnologyId := (project.unmapped.filter fun row ↦ row.kind = item.1 ∧
          row.coordinate = item.2 ∧ row.candidateTechnologyId ≠ none).getLast?.bind
            (·.candidateTechnologyId) })

/-- The project into which a scan was folded, before it is interpreted. -/
def foldedScan (project : Project) (handoff : TechnologyScanHandoff) (observations : Observations) :
    Option Folding := do
  let lapsed ← lapsedKeys access project handoff
  let keys := scanKeys observations lapsed
  guard (pairsAuthorized access project keys)
  let folding := keys.foldl (foldUsage handoff.complete observations) { project := project }
  return { folding with
    project := { folding.project with
      revision := project.revision + 1
      unmapped := requeued project handoff } }

def storedScan (project : Project) (handoff : TechnologyScanHandoff) (digest : String) :
    TechnologyScan where
  id := handoff.scanId
  fingerprint := digest
  handoff := handoff
  projectRevision := project.revision

def mergeScanFacts (project : Project) (handoff : TechnologyScanHandoff)
    (observations : Observations) (digest : String) :
    Option (Project × List TechnologyObservation) := do
  let folding ← foldedScan access project handoff observations
  let incoming := storedScan folding.project handoff digest
  let projected ← reprojectCurrentScans rules access [] (some incoming) folding.project
  return ({ projected with scans := projected.scans ++ [incoming] }, folding.disagreements)

/-! ### Publishing a scan -/

/-- Evidence of a scan names its detector and its mapping, and is not manual. -/
def namesDetector (handoff : TechnologyScanHandoff) (evidence : List TechnologyEvidence) : Bool :=
  evidence ≠ [] ∧ evidence.all fun entry ↦ entry.source ≠ .manual ∧
    entry.detectorVersion = some handoff.detectorVersion ∧
      entry.mappingVersion = some handoff.mappingVersion

/-- The observations of a handoff under the usages that they are about. What a client publishes has
its observed versions checked, and is held under the technologies of today. -/
def keyedObservations (published : Bool) (handoff : TechnologyScanHandoff) : Option Observations :=
  handoff.observations.foldlM (fun observations observation ↦ do
    let technologyId ← access.resolveTechnology observation.technologyId
    let key := (technologyId, observation.fact.context)
    guard (key ∉ observations.map Prod.fst)
    guard (namesDetector handoff observation.fact.evidence)
    guard (published → observation.fact.versionKind = .observedVersion →
      observation.fact.evidence.any (·.source = .observed))
    let held := if published then { observation with technologyId := technologyId } else observation
    return observations ++ [(key, held)]) []

/-- The observations of a handoff are in the mapping that it was made with. -/
def withinMapping (project : Project) (handoff : TechnologyScanHandoff)
    (observations : Observations) : Bool :=
  let mappings := project.mappings.filter (·.version = handoff.mappingVersion)
  let mapped := mappings.filterMap fun row ↦ access.resolveTechnology row.technologyId
  mappings ≠ [] ∧ mapped.length = mappings.length ∧
    observations.all (fun entry ↦ entry.1.1 ∈ mapped)

/-- The coordinates of a handoff are detected, and what they resolve to is observed. -/
def coordinatesObserved (handoff : TechnologyScanHandoff) (observations : Observations) : Bool :=
  handoff.coordinates.all fun item ↦ namesDetector handoff item.evidence &&
    item.technologyId.all fun technologyId ↦
      (access.resolveTechnology technologyId).any fun technologyId ↦
        (technologyId, item.context.getD .production) ∈ observations.map Prod.fst

structure TechnologyScanRequest where
  expectedRevision : Nat
  handoff : TechnologyScanHandoff
  digest : String

/-- A scan with the identity of a stored one is answered from it, or refused. -/
def storeScan (project : Project) (payload : TechnologyScanRequest) (current : Bool)
    (observations : Observations) : Option Project :=
  match project.scans.find? (·.id = payload.handoff.scanId) with
  | some retained => if retained.fingerprint = payload.digest then some project else none
  | none =>
    if current then
      (mergeScanFacts rules access project payload.handoff observations payload.digest).map Prod.fst
    else none

def publishScan (project : Project) (payload : TechnologyScanRequest) : Option Project := do
  let observations ← keyedObservations access true payload.handoff
  guard (withinMapping access project payload.handoff observations)
  guard (coordinatesObserved access payload.handoff observations)
  storeScan rules access project payload (project.revision = payload.expectedRevision) observations

/-- The scan of a repository, which the platform made itself. -/
def applyRepositoryScan (project : Project) (payload : TechnologyScanRequest) : Option Project := do
  let observations ← keyedObservations access false payload.handoff
  guard (withinMapping access project payload.handoff observations)
  storeScan rules access project payload true observations

/-! ### Reviewing findings -/

structure TechnologyFindingDecision where
  scanId : String
  kind : CoordinateKind
  coordinate : String
  context : Option UsageContext
  /-- The technology that the decision names, found or created by its category if need be. -/
  technologyId : Option String
  categoryId : Option String
  review : FindingReview
  expectedRevision : Nat
  comment : String
  now : Nat

abbrev Confirmed := List ((CoordinateKind × String) × String)

/-- The coordinate of a decision is one of the scan, curated or not. -/
def findingOfScan (project : Project) (scan : TechnologyScan) (item : TechnologyFindingDecision) :
    Bool :=
  let key := rules.findingKey item.kind item.coordinate item.context
  (interpretedFindings rules project scan).any (fun row ↦
    rules.findingKey row.kind row.coordinate row.context = key) ∨
  (scanCoordinates project scan.handoff).any fun row ↦
    rules.findingKey row.kind row.coordinate row.context = key

/-- Confirming decisions of one call name one technology for a coordinate. -/
def addConfirmed (confirmed : Confirmed) (item : TechnologyFindingDecision) : Option Confirmed :=
  match item.review, item.technologyId with
  | .confirmed, some technologyId =>
    match confirmed.lookup (item.kind, item.coordinate) with
    | none => some (confirmed ++ [((item.kind, item.coordinate), technologyId)])
    | some prior => if prior = technologyId then some confirmed else none
  | _, _ => some confirmed

/-- A decision is written; a review that exists moves on. -/
def decideFinding (state : Project × Confirmed) (item : TechnologyFindingDecision) :
    Option (Project × Confirmed) := do
  let project := state.1
  let scan ← project.scans.find? (·.id = item.scanId)
  guard (findingOfScan rules project scan item)
  let key := (item.scanId, rules.findingKey item.kind item.coordinate item.context)
  let held := project.reviews.get? key
  guard ((held.map (·.revision)).getD 0 = item.expectedRevision)
  let confirmed ← addConfirmed state.2 item
  let review : TechnologyFindingReview :=
    { technologyId := item.technologyId
      review := item.review
      comment := item.comment
      categoryId := item.categoryId
      revision := (held.map (·.revision + 1)).getD 1
      updatedAt := item.now }
  return ({ project with reviews := project.reviews.set key review }, confirmed)

/-- The mapping of a call: the latest one, with what the call confirmed. -/
def publishConfirmed (project : Project) (confirmed : Confirmed) (version : String) (now : Nat) :
    Project :=
  if confirmed = [] then project
  else
    let latest := (project.mappings.filter fun row ↦ some row.version = latestMappingVersion project
      ∧ (row.kind, row.coordinate) ∉ confirmed.map Prod.fst)
    { project with
      mappings := project.mappings ++
        latest.map (fun row ↦ { row with version := version, publishedAt := now }) ++
        confirmed.map fun entry ↦
          { version := version, publishedAt := now, kind := entry.1.1, coordinate := entry.1.2,
            technologyId := entry.2 } }

structure TechnologyFindingReviewRequest where
  /-- The decisions about findings of the project. -/
  items : List TechnologyFindingDecision
  /-- What the decisions about other projects have confirmed. -/
  elsewhere : Confirmed
  /-- A coordinate that was confirmed is in the queue of the project. -/
  reaches : Bool
  version : String
  now : Nat

def reviewFindings (project : Project) (payload : TechnologyFindingReviewRequest) :
    Option Project := do
  let state ← payload.items.foldlM (decideFinding rules) (project, payload.elsewhere)
  let mapped := publishConfirmed state.1 state.2 payload.version payload.now
  if payload.items ≠ [] ∨ payload.reaches then
    (reprojectCurrentScans rules access (state.2.map Prod.fst) none mapped).map fun projected ↦
      { projected with revision := projected.revision + 1 }
  else some mapped

/-! ### Writing a fact -/

structure ProjectTechnologyWriteRequest where
  technologyId : String
  fact : UsageFact
  review : UsageReview
  state : RelationState
  expectedRevision : Nat
  /-- The technology is active. -/
  active : Bool

def writeProjectTechnology (project : Project) (payload : ProjectTechnologyWriteRequest) :
    Option Project := do
  let row := project.relations.get? payload.technologyId
  guard ((row.map (·.revision)).getD 0 = payload.expectedRevision)
  guard (row.isSome ∨ payload.state = .current)
  guard (payload.state = .retired ∨ row.any (·.state = .current) ∨ payload.active)
  let relations := project.relations.set payload.technologyId
    { state := payload.state, revision := (row.map (·.revision + 1)).getD 1 }
  let facts := match payload.state with
    | .current => project.facts.set (payload.technologyId, payload.fact.context)
        { review := payload.review
          version := payload.fact.version
          versionKind := payload.fact.versionKind
          evidence := payload.fact.evidence
          freshness := .current }
    | .retired => project.facts
  return { project with relations := relations, facts := facts }

/-! ### Runs -/

inductive Event where
  | scan (access : Access) (payload : TechnologyScanRequest)
  | repositoryScan (access : Access) (payload : TechnologyScanRequest)
  | review (access : Access) (payload : TechnologyFindingReviewRequest)
  | write (payload : ProjectTechnologyWriteRequest)
  /-- A mapping is published, or the queue of the organization changes. -/
  | organization (mappings : List TechnologyCoordinateMapping) (unmapped : List UnmappedRow)

/-- A call that fails is rolled back. -/
def step (project : Project) : Event → Project
  | .scan access payload => (publishScan rules access project payload).getD project
  | .repositoryScan access payload =>
    (applyRepositoryScan rules access project payload).getD project
  | .review access payload => (reviewFindings rules access project payload).getD project
  | .write payload => (writeProjectTechnology project payload).getD project
  | .organization mappings unmapped => { project with mappings := mappings, unmapped := unmapped }

end AiStp.Technology
