import AiStp.Library.Tables
import AiStp.Library.TextOrder
import Mathlib.Data.List.Dedup
import Mathlib.Data.List.MinMax
import Mathlib.Data.List.Sort
import Mathlib.Data.Prod.Lex

/-!
# The interpretation of technology scans

Scans of a project are stored as they were sent. What the project is said to use, one fact for each
technology and context, is interpreted from the latest scan of each scope: every coordinate that was
detected is a finding, named by a person's review of it, by a review of an earlier scan of the same
scope, or by the mapping of the organization. `reprojectCurrentScans` writes the findings into the
facts.
-/

set_option autoImplicit false

namespace AiStp.Technology

open Library

/-! ### Contracts -/

inductive CoordinateKind where
  | package
  | image
  | executable
  | configuration
  | alias
deriving DecidableEq

inductive UsageContext where
  | production
  | development
  | testing
  | browserSupport
deriving DecidableEq

inductive VersionKind where
  | unknown
  | declaredRange
  | observedVersion
deriving DecidableEq

inductive EvidenceSource where
  | manual
  | declared
  | configured
  | observed
  | forgeLanguage
deriving DecidableEq

structure TechnologyEvidence where
  source : EvidenceSource
  path : Option String := none
  reference : Option String := none
  observedAt : Nat
  detectorVersion : Option String := none
  mappingVersion : Option String := none
deriving DecidableEq

/-- A version of a technology that something is evidence for. -/
structure UsageFact where
  context : UsageContext
  version : Option String := none
  versionKind : VersionKind := .unknown
  evidence : List TechnologyEvidence := []
deriving DecidableEq

structure TechnologyObservation where
  technologyId : String
  fact : UsageFact
deriving DecidableEq

structure TechnologyUnmappedCoordinate where
  kind : CoordinateKind
  coordinate : String
  context : Option UsageContext := none
  version : Option String := none
  versionKind : VersionKind := .unknown
  evidence : List TechnologyEvidence := []
deriving DecidableEq

structure TechnologyDetectedCoordinate extends TechnologyUnmappedCoordinate where
  technologyId : Option String := none
deriving DecidableEq

structure TechnologyScanHandoff where
  scanId : String
  scope : String
  complete : Bool
  detectorVersion : String
  mappingVersion : String
  observations : List TechnologyObservation
  unmappedCoordinates : List TechnologyUnmappedCoordinate := []
  coordinates : List TechnologyDetectedCoordinate := []
deriving DecidableEq

inductive FindingReview where
  | proposed
  | confirmed
  | rejected
  | dependency
deriving DecidableEq

inductive FindingState where
  | resolved
  | candidate
  | unresolved
  | rejected
deriving DecidableEq

inductive FindingTier where
  | technology
  | dependency
deriving DecidableEq

structure TechnologyScanFinding extends TechnologyDetectedCoordinate where
  state : FindingState
  tier : FindingTier
  candidateTechnologyId : Option String := none
  review : FindingReview := .proposed
  categoryId : Option String := none
  technologyKey : Option String := none
  technologyName : Option String := none
  reviewRevision : Nat := 0
  comment : String := ""
deriving DecidableEq

/-! ### Rows -/

inductive UsageReview where
  | proposed
  | confirmed
  | rejected
  | overridden
  | retired
deriving DecidableEq

inductive Freshness where
  | current
  | stale
  | absent
  | unknown
deriving DecidableEq

inductive RelationState where
  | current
  | retired
deriving DecidableEq

structure ProjectTechnologyRelation where
  state : RelationState
  revision : Nat
deriving DecidableEq

structure TechnologyUsageFact where
  review : UsageReview
  version : Option String
  versionKind : VersionKind
  evidence : List TechnologyEvidence
  freshness : Freshness
deriving DecidableEq

structure TechnologyScan where
  id : String
  fingerprint : String
  handoff : TechnologyScanHandoff
  /-- The revision of the project that the scan was answered with. -/
  projectRevision : Nat
deriving DecidableEq

structure TechnologyFindingReview where
  technologyId : Option String
  review : FindingReview
  comment : String
  categoryId : Option String
  revision : Nat
  updatedAt : Nat
deriving DecidableEq

structure TechnologyCoordinateMapping where
  version : String
  publishedAt : Nat
  kind : CoordinateKind
  coordinate : String
  technologyId : String
deriving DecidableEq

/-- A coordinate that waits for a name, in the queue of the organization. -/
structure UnmappedRow where
  projectId : String
  kind : CoordinateKind
  coordinate : String
  scope : String
  candidateTechnologyId : Option String
deriving DecidableEq

instance : LawfulBEq (CoordinateKind × String) := inferInstance

/-- A technology and a context of use. A project has one relation to a technology, so the facts of
the relation are held under the technology. -/
abbrev UsageKey := String × UsageContext

instance : LawfulBEq UsageKey := inferInstance

/-- A project, with the mappings and the queue of its organization. -/
structure Project where
  id : String
  revision : Nat
  relations : Table String ProjectTechnologyRelation
  facts : Table UsageKey TechnologyUsageFact
  scans : List TechnologyScan
  /-- Reviews of findings, under the scan and the key of the finding. -/
  reviews : Table (String × String) TechnologyFindingReview
  mappings : List TechnologyCoordinateMapping
  unmapped : List UnmappedRow

/-- What the interpretation takes from elsewhere: the digest of a finding's identity, the bundled
mapping to technologies with their names, case folding and the parts of a path. -/
structure Rules where
  findingKey : CoordinateKind → String → Option UsageContext → String
  technologyIdentity : CoordinateKind → String → Option (String × String)
  casefold : String → String
  parent : String → String
  fileName : String → String

/-! ### Coordinates of a scan -/

def latestMappingVersion (project : Project) : Option String :=
  (project.mappings.argmax fun row ↦ toLex (row.publishedAt, row.version)).map (·.version)

def observedCoordinate (mappings : List TechnologyCoordinateMapping)
    (observation : TechnologyObservation) : TechnologyDetectedCoordinate :=
  let aliases := mappings.filter (·.technologyId = observation.technologyId)
  let matched := aliases.argmin fun row ↦ toLex (decide (row.kind ≠ .alias), row.coordinate)
  { kind := (matched.map (·.kind)).getD .alias
    coordinate := (matched.map (·.coordinate)).getD observation.technologyId
    context := some observation.fact.context
    version := observation.fact.version
    versionKind := observation.fact.versionKind
    evidence := observation.fact.evidence
    technologyId := some observation.technologyId }

def scanCoordinates (project : Project) (handoff : TechnologyScanHandoff) :
    List TechnologyDetectedCoordinate :=
  if handoff.coordinates ≠ [] then handoff.coordinates
  else
    let mappings := project.mappings.filter (·.version = handoff.mappingVersion)
    handoff.observations.map (observedCoordinate mappings) ++
      handoff.unmappedCoordinates.map fun item ↦ { item with technologyId := none }

/-! ### Findings of a scan -/

/-- The technology to which the latest mapping maps a coordinate. -/
def mappedTechnology (project : Project) (kind : CoordinateKind) (coordinate : String) :
    Option String :=
  (project.mappings.filter fun row ↦ some row.version = latestMappingVersion project ∧
    row.kind = kind ∧ row.coordinate = coordinate).getLast?.map (·.technologyId)

def candidateTechnology (project : Project) (kind : CoordinateKind) (coordinate : String) :
    Option String :=
  (project.unmapped.filter fun row ↦ row.projectId = project.id ∧ row.kind = kind ∧
    row.coordinate = coordinate).getLast?.bind (·.candidateTechnologyId)

def exactReview (project : Project) (scan : TechnologyScan) (key : String) :
    Option TechnologyFindingReview :=
  project.reviews.get? (scan.id, key)

/-- The latest review of a finding in a scan of the scope. -/
def inheritedReview (project : Project) (scan : TechnologyScan) (key : String) :
    Option TechnologyFindingReview :=
  let sameScope := (project.scans.filter (·.handoff.scope = scan.handoff.scope)).map (·.id)
  (((project.reviews.entries.filter fun entry ↦
    entry.1.2 = key ∧ entry.1.1 ∈ scan.id :: sameScope).map Prod.snd).argmax (·.updatedAt))

/-- The reading of a finding that nobody reviewed, from the review of the usage fact. -/
def usageReading : Option UsageReview → FindingReview
  | some .confirmed => .confirmed
  | some .overridden => .confirmed
  | some .rejected => .rejected
  | _ => .proposed

/-- The technology of a coordinate that nobody reviewed. -/
def detectedTechnology (project : Project) (handoff : TechnologyScanHandoff)
    (item : TechnologyDetectedCoordinate) : Option String :=
  if handoff.coordinates ≠ [] ∨ some item.coordinate ≠ item.technologyId then
    mappedTechnology project item.kind item.coordinate
  else item.technologyId

variable (rules : Rules)

def interpretCoordinate (project : Project) (scan : TechnologyScan)
    (item : TechnologyDetectedCoordinate) : TechnologyScanFinding :=
  let key := rules.findingKey item.kind item.coordinate item.context
  let exact := exactReview project scan key
  let review := exact.or (inheritedReview project scan key)
  let technologyId := match review with
    | some review => review.technologyId
    | none => detectedTechnology project scan.handoff item
  let candidate := candidateTechnology project item.kind item.coordinate
  let usage := (project.facts.get? (technologyId.getD "", item.context.getD .production)).map
    (·.review)
  { item with
    technologyId := technologyId
    candidateTechnologyId := candidate
    tier := if technologyId.isSome ∨ candidate.isSome then .technology else .dependency
    state :=
      if review.any fun review ↦ review.review = .rejected ∨ review.review = .dependency then
        .rejected
      else if technologyId.isSome then .resolved
      else if candidate.isSome then .candidate
      else .unresolved
    review := match review with
      | some review => review.review
      | none => usageReading usage
    reviewRevision := (exact.map (·.revision)).getD 0
    comment := (review.map (·.comment)).getD ""
    categoryId := review.bind (·.categoryId) }

/-! ### One finding for each coordinate -/

def mergedVersion (previous finding : Option String) : Option String :=
  let versions := ((previous.getD "").splitOn ", " ++ [finding.getD ""]).filter (· ≠ "")
  let joined := ", ".intercalate (versions.dedup.insertionSort (· ≤ ·))
  if joined = "" then none else some joined

def mergeFinding (previous finding : TechnologyScanFinding) : TechnologyScanFinding :=
  { previous with
    version := mergedVersion previous.version finding.version
    evidence := (previous.evidence ++ finding.evidence).eraseDups
    versionKind := if previous.versionKind = finding.versionKind then previous.versionKind
      else .unknown }

def sameFinding (first second : TechnologyScanFinding) : Bool :=
  first.kind = second.kind ∧ first.coordinate = second.coordinate ∧ first.context = second.context

/-- Findings with one identity become one, at the place of the first. -/
def mergeFindings (findings : List TechnologyScanFinding) : List TechnologyScanFinding :=
  findings.foldl (fun grouped finding ↦
    if grouped.any (sameFinding · finding) then
      grouped.map fun previous ↦
        if sameFinding previous finding then mergeFinding previous finding else previous
    else grouped ++ [finding]) []

/-! ### Curation -/

def lockFiles : List String :=
  ["uv.lock", "poetry.lock", "Cargo.lock", "package-lock.json", "pnpm-lock.yaml", "yarn.lock",
    "pubspec.lock", "go.sum", "bun.lock", "bun.lockb"]

/-- The coordinates and directories of packages that were declared. -/
def declaredPackageDirs (items : List TechnologyScanFinding) : List (String × String) :=
  (items.filter (·.kind = .package)).flatMap fun item ↦ item.evidence.filterMap fun trace ↦
    if trace.source = .declared ∧ trace.path.getD "" ≠ "" then
      some (rules.casefold item.coordinate, rules.parent (trace.path.getD ""))
    else none

scoped instance lawful_pair : LawfulBEq (String × String) := inferInstance

def lockOnlyTransitive (item : TechnologyScanFinding) (declared : List (String × String)) : Bool :=
  item.evidence ≠ [] ∧ item.evidence.all fun trace ↦
    trace.path.getD "" ≠ "" ∧ rules.fileName (trace.path.getD "") ∈ lockFiles ∧
      (rules.casefold item.coordinate, rules.parent (trace.path.getD "")) ∉ declared

def recognized (item : TechnologyScanFinding) : Bool :=
  ((rules.technologyIdentity item.kind item.coordinate).isSome ∨ item.technologyId.isSome) ∧
    item.review ≠ .dependency

/-- A finding that nobody decided about is dropped if only lock files name it, or if nothing
recognizes it and it is no package or image. -/
def keptByCuration (declared : List (String × String)) (item : TechnologyScanFinding) : Bool :=
  item.candidateTechnologyId.isSome ∨ item.review ≠ .proposed ∨
    (¬ (item.kind = .package ∧ lockOnlyTransitive rules item declared) ∧
      (recognized rules item ∨ item.kind = .package ∨ item.kind = .image))

def curateFinding (item : TechnologyScanFinding) : TechnologyScanFinding :=
  let identity := rules.technologyIdentity item.kind item.coordinate
  { item with
    tier := if (recognized rules item ∨ item.candidateTechnologyId.isSome) ∧
        item.review ≠ .dependency then .technology else .dependency
    technologyKey := identity.map Prod.fst
    technologyName := some (match identity with
      | some identity => identity.2
      | none => item.technologyName.getD item.coordinate) }

def curateFindings (findings : List TechnologyScanFinding) : List TechnologyScanFinding :=
  (findings.filter (keptByCuration rules (declaredPackageDirs rules findings))).map
    (curateFinding rules)

def interpretedFindings (project : Project) (scan : TechnologyScan) : List TechnologyScanFinding :=
  curateFindings rules (mergeFindings
    ((scanCoordinates project scan.handoff).map (interpretCoordinate rules project scan)))

/-! ### Current findings -/

/-- The latest scan of each scope. -/
def latestScans (scans : List TechnologyScan) : List TechnologyScan :=
  scans.foldl (fun latest scan ↦
    if latest.any (·.handoff.scope = scan.handoff.scope) then
      latest.map fun held ↦
        if held.handoff.scope = scan.handoff.scope ∧ held.projectRevision < scan.projectRevision
        then scan else held
    else latest ++ [scan]) []

abbrev CurrentFindings := List (UsageKey × TechnologyScanFinding)

/-- A usage keeps the finding it has, unless the new one was reviewed, or alone has a version. -/
def placeFinding (current : CurrentFindings) (key : UsageKey) (item : TechnologyScanFinding) :
    CurrentFindings :=
  match current.lookup key with
  | none => current ++ [(key, item)]
  | some held =>
    if item.reviewRevision ≠ 0 ∨ (held.version = none ∧ item.version ≠ none) then
      current.map fun entry ↦ if entry.1 = key then (key, item) else entry
    else current

/-- The hooks of the caller: the technology that a referenced one is now, and whether a relation may
be created or updated. A hook that fails ends the call. -/
structure Access where
  resolveTechnology : String → Option String
  authorizeCreate : Bool
  authorizeUpdate : Bool

variable (access : Access)

def addCurrentFinding (current : CurrentFindings) (item : TechnologyScanFinding) :
    Option CurrentFindings :=
  match item.technologyId with
  | none => some current
  | some technologyId => (access.resolveTechnology technologyId).map fun technologyId ↦
    placeFinding current (technologyId, item.context.getD .production)
      { item with technologyId := some technologyId }

def currentFindings (project : Project) (scans : List TechnologyScan) : Option CurrentFindings :=
  ((latestScans scans).flatMap (interpretedFindings rules project)).foldlM
    (addCurrentFinding access) []

/-! ### Reprojection -/

/-- A person decided about the finding: about it in its scan, in an earlier one, or in this call. -/
def decided (project : Project) (confirmed : List (CoordinateKind × String))
    (item : TechnologyScanFinding) : Bool :=
  item.reviewRevision ≠ 0 ∨ item.comment ≠ "" ∨ (item.kind, item.coordinate) ∈ confirmed ∨
    project.reviews.entries.any fun entry ↦
      entry.1.2 = rules.findingKey item.kind item.coordinate item.context ∧
        entry.1.1 ∈ project.scans.map (·.id)

def freshnessOf (complete : Bool) : Freshness := if complete then .current else .unknown

def projectedVersionKind (item : TechnologyScanFinding) : VersionKind :=
  if item.version.getD "" = "" then .unknown
  else if item.versionKind = .unknown then .declaredRange
  else item.versionKind

def proposedFact : TechnologyUsageFact where
  review := .proposed
  version := none
  versionKind := .unknown
  evidence := []
  freshness := .unknown

/-- A fact after the finding of its usage: a decision is taken over, and a fact that is only proposed
follows the scan. -/
def projectedFact (complete explicit : Bool) (item : TechnologyScanFinding)
    (fact : TechnologyUsageFact) : TechnologyUsageFact :=
  let review := if explicit then
      (if item.state = .rejected then UsageReview.rejected else .confirmed)
    else fact.review
  if review = .proposed ∨ explicit then
    { review := review
      version := item.version
      versionKind := projectedVersionKind item
      evidence := item.evidence
      freshness := freshnessOf complete }
  else fact

/-- Writes a fact; its relation moves on if the fact is another than before. -/
def writeFact (project : Project) (key : UsageKey) (pair : ProjectTechnologyRelation)
    (fact : TechnologyUsageFact) : Project :=
  let revision := if project.facts.get? key = some fact then pair.revision else pair.revision + 1
  { project with
    relations := project.relations.set key.1 { pair with revision := revision }
    facts := project.facts.set key fact }

def reprojectFinding (confirmed : List (CoordinateKind × String)) (complete : Bool)
    (project : Project) (entry : UsageKey × TechnologyScanFinding) : Option Project :=
  let fact := projectedFact complete (decided rules project confirmed entry.2) entry.2
    ((project.facts.get? entry.1).getD proposedFact)
  match project.relations.get? entry.1.1 with
  | some pair =>
    if pair.state = .retired then some project
    else if access.authorizeUpdate then some (writeFact project entry.1 pair fact)
    else none
  | none =>
    if access.authorizeCreate then some (writeFact project entry.1 ⟨.current, 1⟩ fact) else none

def hasManualEvidence (fact : TechnologyUsageFact) : Bool :=
  fact.evidence.any (·.source = .manual)

/-- The fact rests on evidence, none of which is manual. -/
def onDetection (fact : TechnologyUsageFact) : Bool :=
  fact.evidence ≠ [] ∧ !hasManualEvidence fact

/-- Facts that no scan finds any more are marked. -/
def sweepAbsent (relations : Table String ProjectTechnologyRelation) (current : CurrentFindings)
    (complete : Bool) (project : Project) : Project :=
  { project with
    facts := project.facts.mapRows fun key fact ↦
      if (relations.get? key.1).isSome ∧ key ∉ current.map Prod.fst ∧ onDetection fact then
        { fact with freshness := if complete then .absent else .unknown }
      else fact }

def reprojectCurrentScans (confirmed : List (CoordinateKind × String))
    (incoming : Option TechnologyScan) (project : Project) : Option Project := do
  let scans := project.scans ++ incoming.toList
  let complete := (latestScans scans).all (·.handoff.complete)
  let current ← currentFindings rules access project scans
  let projected ← current.foldlM (reprojectFinding rules access confirmed complete) project
  return sweepAbsent project.relations current complete projected

end AiStp.Technology
