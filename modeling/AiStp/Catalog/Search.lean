import AiStp.Catalog.FamilyRuns

/-!
# The search projection

The search reads one row for each object: what its latest public version shows, and for a setup in a
family the number of the family's public members and how the setup compares to the baseline. After a
change the rows of some objects are replaced (`upsert`); a rebuild writes all rows anew. What a row
shows apart from its family is read off the version (`read`), at one moment.
-/

set_option autoImplicit false

namespace AiStp.Catalog

open Library Runs

abbrev ObjectKey := ObjectKind × String

inductive Alignment where
  | unknown
  | aligned
  | diverged
deriving DecidableEq

structure CatalogSearchProjection (Shown : Type) where
  shown : Shown
  familyId : Option String := none
  familyMemberCount : Option Nat := none
  familyAlignment : Option Alignment := none
deriving DecidableEq

structure SearchIndex (Shown : Type) where
  registry : Registry
  rows : Table ObjectKey (CatalogSearchProjection Shown)

/-! ### Public versions -/

def publicLifecycles : List Lifecycle := [.active, .deprecated, .blocked]

def CatalogMetadata.isPublished (row : CatalogMetadata) : Bool :=
  row.visibility = .isPublic ∧ row.lifecycleState ∈ publicLifecycles ∧ row.publishedAt ≠ none ∧
    row.passportDocument ≠ none

def CatalogMetadata.isListed (row : CatalogMetadata) : Bool :=
  row.isPublished ∧ row.version ≠ none ∧ row.passportDigest ≠ none ∧ row.trustLane ≠ none

def CatalogMetadata.key (row : CatalogMetadata) : ObjectKey := (row.objectKind, row.stableId)

def versionOrder (row : CatalogMetadata) : Nat ×ₗ Nat := toLex (row.version.getD (0, 0))

def latestPublicMetadata (catalog : List CatalogMetadata) (key : ObjectKey) :
    Option CatalogMetadata :=
  (catalog.filter fun row ↦ row.key = key ∧ row.isListed).argmax versionOrder

/-! ### Family columns -/

def alignmentState (memberDigest baselineDigest : Option String) (accessible : Bool) : Alignment :=
  if !accessible then .unknown
  else if memberDigest.getD "" = "" ∨ baselineDigest.getD "" = "" then .unknown
  else if memberDigest = baselineDigest then .aligned
  else .diverged

def publicLatest (published : List CatalogMetadata) (stableId : String) : Option CatalogMetadata :=
  (published.filter (·.stableId = stableId)).argmax versionOrder

def publicExact (published : List CatalogMetadata) (stableId : String) (version : Version) :
    Option CatalogMetadata :=
  (published.filter fun row ↦ row.stableId = stableId ∧ row.version = some version).getLast?

def invariantOf (row : Option CatalogMetadata) : Option String :=
  row.bind fun row ↦ row.passportDocument.bind (·.harnessInvariantDigest)

/-- The published versions of some setups. -/
def publishedSetups (catalog : List CatalogMetadata) (needed : String → Bool) :
    List CatalogMetadata :=
  catalog.filter fun row ↦ row.objectKind = .setup ∧ needed row.stableId ∧ row.isPublished

section Columns

variable {Shown : Type}

/-- A row of a setup with the columns of its family. -/
def withFamily (registry : Registry) (published : List CatalogMetadata) (stableId : String)
    (row : CatalogSearchProjection Shown) : CatalogSearchProjection Shown :=
  match registry.familyForSetup stableId with
  | none => row
  | some (familyId, family) =>
    let accessible := (registry.memberSet familyId).filter fun member ↦
      (publicLatest published member).isSome
    let current := publicLatest published stableId
    let baseline := publicExact published family.baseline.stableId family.baseline.version
    { row with
      familyId := some familyId
      familyMemberCount := some accessible.card
      familyAlignment :=
        some (alignmentState (invariantOf current) (invariantOf baseline) current.isSome) }

/-- The setups that the families of some rows are about. -/
def neededFor (registry : Registry) (ids : List String) (stableId : String) : Bool :=
  ids.any fun other ↦ (registry.familyForSetup other).any fun found ↦
    registry.memberOf found.1 stableId ∨ found.2.baseline.stableId = stableId

/-- Fills in the families of many rows, from one reading of the catalogue. -/
def fillSearchProjectionFamilyFields (registry : Registry)
    (rows : List (ObjectKey × CatalogSearchProjection Shown)) :
    List (ObjectKey × CatalogSearchProjection Shown) :=
  let ids := (rows.filter (·.1.1 = .setup)).map (·.1.2)
  let published := publishedSetups registry.catalog (neededFor registry ids)
  rows.map fun entry ↦
    if entry.1.1 = .setup then (entry.1, withFamily registry published entry.1.2 entry.2) else entry

end Columns

/-! ### Writing rows -/

section Writing

variable {Shown : Type} (read : CatalogMetadata → Option Shown)

/-- The row of an object before its family is filled in, if its version can be read. -/
def readProjection (registry : Registry) (key : ObjectKey) :
    Option (ObjectKey × CatalogSearchProjection Shown) :=
  (latestPublicMetadata registry.catalog key).bind fun latest ↦
    (read latest).map fun shown ↦ (key, { shown := shown })

def upsertCatalogSearchProjection (key : ObjectKey) (index : SearchIndex Shown) :
    SearchIndex Shown :=
  let deleted := index.rows.filter fun other _ ↦ other ≠ key
  let filled := fillSearchProjectionFamilyFields index.registry
    (readProjection read index.registry key).toList
  { index with rows := filled.foldl (fun rows entry ↦ rows.set entry.1 entry.2) deleted }

def rebuildCatalogSearchProjection (index : SearchIndex Shown) : SearchIndex Shown :=
  let keys := ((index.registry.catalog.filter (·.isListed)).map (·.key)).dedup
  let filled := fillSearchProjectionFamilyFields index.registry
    (keys.filterMap (readProjection read index.registry))
  { index with rows := filled.foldl (fun rows entry ↦ rows.set entry.1 entry.2) .empty }

/-- The rows of the members of a family are replaced. -/
def upsertMembers (familyId : String) (index : SearchIndex Shown) : SearchIndex Shown :=
  ((index.registry.members.entries.filter (·.2.familyId = familyId)).map Prod.fst).foldl
    (fun index stableId ↦ upsertCatalogSearchProjection read (.setup, stableId) index) index

/-! ### Runs -/

/-- The rows of other objects are as they were. -/
def sameElsewhere (key : ObjectKey) (catalog later : List CatalogMetadata) : Bool :=
  later.filter (·.key ≠ key) = catalog.filter (·.key ≠ key)

inductive SearchEvent where
  /-- A version is published, or the lifecycle or visibility of one changes. -/
  | change (key : ObjectKey) (later : List CatalogMetadata)
  /-- The version of a setup is published, with its effect on families. -/
  | publish (published : CatalogMetadata) (familyId : String) (later : List CatalogMetadata)
  | create (ownerId familyId : String) (body : SetupFamilyCreateRequest)
  | patch (ownerId familyId : String) (body : SetupFamilyPatchRequest)
  | rebuild

def changeObject (key : ObjectKey) (later : List CatalogMetadata) (index : SearchIndex Shown) :
    SearchIndex Shown :=
  upsertCatalogSearchProjection read key
    { index with registry := { index.registry with catalog := later } }

/-- A call on families, and the rows of the family that it returns. -/
def callFamilies (call : Call) (index : SearchIndex Shown) : Option (SearchIndex Shown) :=
  match call.attempt index.registry with
  | (.error _, _) => none
  | (.ok none, after) => some { index with registry := after }
  | (.ok (some familyId), after) => some (upsertMembers read familyId { index with registry := after })

/-- What fails is rolled back. -/
def SearchIndex.step (index : SearchIndex Shown) : SearchEvent → SearchIndex Shown
  | .change key later =>
    if catalogGrows index.registry.catalog later ∧ sameElsewhere key index.registry.catalog later then
      changeObject read key later index
    else index
  | .publish published familyId later =>
    if catalogGrows index.registry.catalog later ∧
        sameElsewhere published.key index.registry.catalog later ∧
        published ∈ later ∧ published.objectKind = .setup then
      (callFamilies read (.recast published familyId)
        (changeObject read published.key later index)).getD index
    else index
  | .create ownerId familyId body =>
    (callFamilies read (.create ownerId familyId body) index).getD index
  | .patch ownerId familyId body =>
    (callFamilies read (.patch ownerId familyId body) index).getD index
  | .rebuild => rebuildCatalogSearchProjection read index

end Writing

end AiStp.Catalog
