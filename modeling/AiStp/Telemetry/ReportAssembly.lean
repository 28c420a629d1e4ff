import AiStp.Library.TextOrder
import AiStp.Telemetry.Reports

/-!
# The report that is returned

A report is put together from the dictionaries, from one more statement that lists the groups, and
from what is assigned to and installed for the employees. Lists are sorted, so the report depends on
what the dictionaries read and not on how they were filled; the days of a listed group are read off
the statement on PostgreSQL and off a dictionary elsewhere. Both branches return one report from the
same events (`report_branches_agree`).
-/

set_option autoImplicit false

namespace AiStp.Telemetry

open Library Library.Grouping

/-! ### The request -/

structure ReportQuery where
  employeeId : Option String := none
  deviceId : Option String := none
  projectId : Option String := none
  harness : Option String := none
  setupStableId : Option String := none
  componentStableId : Option String := none
  componentKind : Option String := none
  outcome : Option UsageOutcome := none
  invokedFrom : Option Int := none
  invokedTo : Option Int := none
  groupBy : GroupBy := .component
  offset : Nat := 0
  limit : Nat := 128

/-- Nothing is asked of the value, or the value is the one asked for. -/
def asked {Value : Type} [DecidableEq Value] (wanted : Option Value) (value : Value) : Bool :=
  wanted.all (· == value)

/-- The conditions under which a stored event counts. -/
def eventFilters (organizationId : String) (query : ReportQuery)
    (employees technologyProjects : Option (List String)) (retentionCutoff : Int)
    (row : EventRow) : Bool :=
  row.organizationId == organizationId && row.source == .nativeHook &&
  row.activityKind == .invocation && employees.all (·.contains row.employeeAccountId) &&
  asked query.deviceId row.deviceId && asked query.projectId row.projectId &&
  technologyProjects.all (·.contains row.projectId) && asked query.harness row.harness &&
  query.setupStableId.all (fun wanted ↦ row.setup.any (·.stableId == wanted)) &&
  asked query.componentStableId row.componentStableId &&
  asked query.componentKind row.componentKind && asked query.outcome row.outcome &&
  query.invokedFrom.all (fun moment ↦ decide (moment ≤ row.invokedAt)) &&
  query.invokedTo.all (fun moment ↦ decide (row.invokedAt ≤ moment)) &&
  decide (retentionCutoff ≤ row.invokedAt)

/-- A report by setup leaves out events without one. -/
def clauses (organizationId : String) (query : ReportQuery)
    (employees technologyProjects : Option (List String)) (retentionCutoff : Int)
    (row : EventRow) : Bool :=
  eventFilters organizationId query employees technologyProjects retentionCutoff row &&
    (query.groupBy != .setup || row.setup.isSome)

/-! ### Employees and their components -/

structure Member where
  accountId : String
  displayName : Option String
  teamIds : List String

/-- A component assigned to an employee, alone or in a setup. -/
structure Link where
  componentId : String
  componentVersion : String
  setup : Option SetupCoordinate
deriving DecidableEq

/-- A component observed in an environment: a device, a scope and a project. -/
structure InventoryCoordinate where
  link : Link
  environment : String × String × Option String
deriving DecidableEq

inductive Coverage where
  | complete
  | partly
  | stale
  | unknown
deriving DecidableEq

structure InventoryEmployee where
  employeeId : String
  coverage : Coverage
  lastScanAt : Option String

/-- What the report reads besides the events. -/
structure Roster where
  members : List Member
  employees : Option (List String)
  technologyProjects : Option (List String)
  assignedComponents : List (String × List Link)
  installedByEmployee : String → List InventoryCoordinate
  modifiedByEmployee : String → List InventoryCoordinate
  inventoryEmployees : List InventoryEmployee
  catalogNames : UsageObjectKind → String → String → Option String

def Link.componentKey (link : Link) : ObjectKey where
  kind := .component
  stableId := link.componentId
  version := link.componentVersion
  parentSetup := link.setup

def Link.component (link : Link) : String × String := (link.componentId, link.componentVersion)

def Link.ofSetup (link : Link) (setup : ObjectKey) : Bool := link.setup.map setupKey == some setup

/-- A setup is installed when one environment has every required component with this parent. -/
def setupInstalled (observations : List InventoryCoordinate) (setup : ObjectKey)
    (required : List (String × String)) : Bool :=
  let ofSetup := observations.filter (·.link.ofSetup setup)
  !required.isEmpty && ofSetup.any fun observation ↦ required.all fun component ↦
    ofSetup.any fun other ↦
      other.environment == observation.environment && other.link.component == component

namespace Roster

variable (roster : Roster)

/-- The links of every employee. -/
def links : List (String × Link) :=
  roster.assignedComponents.flatMap fun assigned ↦ assigned.2.map (assigned.1, ·)

def objectAssigned : Table ObjectKey (Finset String) :=
  roster.links.foldl (fun table link ↦
    (link.2.componentKey :: (link.2.setup.map setupKey).toList).foldl
      (fun table key ↦ collect table key link.1) table) .empty

def setupRequired (employeeId : String) (setup : ObjectKey) : List (String × String) :=
  (roster.links.filter fun link ↦ link.1 == employeeId && link.2.ofSetup setup).map (·.2.component)

def objectInstalled : Table ObjectKey (Finset String) :=
  roster.links.foldl (fun table link ↦
    let installed := roster.installedByEmployee link.1
    let table := if installed.any (·.link == link.2) then
      collect table link.2.componentKey link.1 else table
    match link.2.setup.map setupKey with
    | none => table
    | some setup =>
      if setupInstalled installed setup (roster.setupRequired link.1 setup) then
        collect table setup link.1
      else table) .empty

def assignedSet (employeeId : String) : List (String × String) :=
  ((roster.links.filter (·.1 == employeeId)).map (·.2.component)).dedup

end Roster

inductive InstallationState where
  | present
  | modified
  | missing
  | unknown
deriving DecidableEq

def Roster.installationState (roster : Roster) (employeeId : Option String) (key : ObjectKey) :
    Option InstallationState :=
  match employeeId with
  | none => none
  | some employeeId =>
    let installed := roster.installedByEmployee employeeId
    let modified := roster.modifiedByEmployee employeeId
    let inventory := roster.inventoryEmployees.find? (·.employeeId == employeeId)
    let known (present modified : Bool) : InstallationState :=
      if present then .present
      else if modified then .modified
      else if (inventory.map (·.coverage)) = some .complete then .missing
      else .unknown
    match key.kind with
    | .component =>
      some (known (installed.any (·.link.componentKey == key))
        (modified.any (·.link.componentKey == key)))
    | .setup =>
      let required := roster.setupRequired employeeId key
      if required.isEmpty then some .unknown
      else some (known (setupInstalled installed key required)
        (modified.any fun observation ↦
          observation.link.ofSetup key && required.contains observation.link.component))

/-! ### The parts of a report -/

structure EmployeeRow where
  employeeId : String
  name : Option String
  teamIds : List String
  assignedComponents : Nat
  installedComponents : Nat
  usedComponents : Nat
  uses : Nat
  activeDays : Nat
  lastUsedAt : Option String

structure ObjectRow where
  key : ObjectKey
  name : Option String
  assignedTo : Nat
  installedFor : Nat
  installationState : Option InstallationState
  lastCheckedAt : Option String
  usedBy : Nat
  uses : Nat
  activeDays : Nat
  lastUsedAt : Option String

inductive AssignmentState where
  | recordedUse
  | noRecordedUse

structure AssignedRow where
  objectKind : UsageObjectKind
  stableId : String
  version : String
  state : AssignmentState
  invocations : Nat
  lastInvokedAt : Option String

structure ReportRow where
  groupValue : String
  componentKind : Option String
  componentStableId : Option String
  componentVersion : Option String
  setupStableId : Option String
  setupVersion : Option String
  invocations : Nat
  succeeded : Nat
  failed : Nat
  cancelled : Nat
  employees : Nat
  devices : Nat
  activeDays : Nat
  firstInvokedAt : Option String
  lastInvokedAt : Option String

structure Report where
  totalEvents : Nat
  employees : List EmployeeRow
  objects : List ObjectRow
  byDay : List (Int × Nat)
  byHour : List ((Nat × Nat) × Nat)
  rows : List ReportRow
  assigned : List AssignedRow

/-- How a moment is written. -/
abbrev Stamp := Int → String

section Parts

variable (stamp : Stamp) (query : ReportQuery) (roster : Roster) (aggregates : Aggregates)

def employeeRow (member : Member) : EmployeeRow where
  employeeId := member.accountId
  name := member.displayName
  teamIds := member.teamIds.insertionSort (· ≤ ·)
  assignedComponents := ((roster.assignedSet member.accountId).map Prod.fst).dedup.length
  installedComponents := (((roster.assignedSet member.accountId).filter fun component ↦
    (roster.installedByEmployee member.accountId).any (·.link.component == component)).map
      Prod.fst).dedup.length
  usedComponents := (((roster.assignedSet member.accountId).filter fun component ↦
    decide (component ∈ (aggregates.employeeUsed.get? member.accountId).getD ∅)).map
      Prod.fst).dedup.length
  uses := (aggregates.employeeUses.get? member.accountId).getD 0
  activeDays := (aggregates.employeeDays.get? member.accountId).getD 0
  lastUsedAt := ((aggregates.employeeLastUsed.get? member.accountId).join).map stamp

/-- Objects are listed by kind, identity, version and parent; a missing parent comes first. -/
def ObjectKey.rank (key : ObjectKey) : List String :=
  [key.kind.text, key.stableId, key.version, (key.parentSetup.map (·.stableId)).getD "",
    (key.parentSetup.map (·.version)).getD ""]

def objectKeys : List ObjectKey :=
  ((roster.objectAssigned.entries.map Prod.fst ++
    aggregates.objectStats.entries.map Prod.fst).dedup).insertionSort
      fun first second ↦ first.rank ≤ second.rank

def objectRow (key : ObjectKey) : ObjectRow where
  key
  name := roster.catalogNames key.kind key.stableId key.version
  assignedTo := ((roster.objectAssigned.get? key).getD ∅).card
  installedFor := ((roster.objectInstalled.get? key).getD ∅).card
  installationState := roster.installationState query.employeeId key
  lastCheckedAt := (query.employeeId.bind fun employeeId ↦
    roster.inventoryEmployees.find? (·.employeeId == employeeId)).bind (·.lastScanAt)
  usedBy := ((aggregates.objectStats.get? key).map (·.usedBy)).getD 0
  uses := ((aggregates.objectStats.get? key).map (·.uses)).getD 0
  activeDays := ((aggregates.objectStats.get? key).map (·.activeDays)).getD 0
  lastUsedAt := ((aggregates.objectStats.get? key).bind (·.lastUsed)).map stamp

/-- The object of a row, whatever its parent. -/
def ObjectRow.object (row : ObjectRow) : UsageObjectKind × String × String :=
  (row.key.kind, row.key.stableId, row.key.version)

def assignedCounts (rows : List ObjectRow) :
    Table (UsageObjectKind × String × String) (Nat × Option String) :=
  (rows.filter fun row ↦ rows.any fun other ↦
    other.object == row.object && decide (0 < other.assignedTo)).foldl
      (fun table row ↦
        let previous := (table.get? row.object).getD (0, none)
        table.set row.object (previous.1 + row.uses, [previous.2, row.lastUsedAt].reduceOption.max?))
      .empty

def assignedRows (rows : List ObjectRow) : List AssignedRow :=
  (listed (fun object : UsageObjectKind × String × String ↦
      [object.1.text, object.2.1, object.2.2]) (assignedCounts rows)).map fun count ↦
    { objectKind := count.1.1
      stableId := count.1.2.1
      version := count.1.2.2
      state := if count.2.1 = 0 then .noRecordedUse else .recordedUse
      invocations := count.2.1
      lastInvokedAt := count.2.2 }

end Parts

/-! ### The listed groups -/

structure Summary where
  invocations : Nat
  succeeded : Nat
  failed : Nat
  cancelled : Nat
  employees : Nat
  devices : Nat
  firstInvokedAt : Option Int
  lastInvokedAt : Option Int

def outcomes (outcome : UsageOutcome) (rows : List EventRow) : Nat :=
  rows.countP fun row ↦ row.outcome == outcome

def summarize (rows : List EventRow) : Summary where
  invocations := rows.length
  succeeded := outcomes .succeeded rows
  failed := outcomes .failed rows
  cancelled := outcomes .cancelled rows
  employees := countDistinct (·.employeeAccountId) rows
  devices := countDistinct (·.deviceId) rows
  firstInvokedAt := (rows.map (·.invokedAt)).min?
  lastInvokedAt := lastInvoked rows

/-- The order in which the database compares texts. -/
structure Collation where
  order : LinearOrder String

/-- A text as the database compares it. -/
def Collation.Text (_ : Collation) : Type := String

instance (collation : Collation) : LinearOrder collation.Text := collation.order

/-- A group of the statement, with the column of active days where the statement has one. -/
structure Group where
  columns : List String
  summary : Summary
  activeDays : Option Nat

/-- The most invocations come first, then the columns decide. -/
def Collation.rank (collation : Collation) (columns : List String) (summary : Summary) :
    ℕᵒᵈ ×ₗ List collation.Text :=
  toLex (OrderDual.toDual summary.invocations, columns)

/-- The rows of the statement. -/
def statement (collation : Collation) (query : ReportQuery)
    (activeDays : List EventRow → Option Nat) (rows : List EventRow) : List Group :=
  ((((groupRows (groupColumns query.groupBy) (fun rows ↦ (summarize rows, activeDays rows))
    rows).map fun group ↦ Group.mk group.1 group.2.1 group.2.2).insertionSort
      fun first second ↦ collation.rank first.columns first.summary ≤
        collation.rank second.columns second.summary).drop query.offset).take query.limit

def reportRow (stamp : Stamp) (groupBy : GroupBy) (activeDays : Group → Nat) (group : Group) :
    ReportRow where
  groupValue := ":".intercalate group.columns
  componentKind := if groupBy = .component then group.columns[0]? else none
  componentStableId := if groupBy = .component then group.columns[1]? else none
  componentVersion := if groupBy = .component then group.columns[2]? else none
  setupStableId := if groupBy = .setup then group.columns[0]? else none
  setupVersion := if groupBy = .setup then group.columns[1]? else none
  invocations := group.summary.invocations
  succeeded := group.summary.succeeded
  failed := group.summary.failed
  cancelled := group.summary.cancelled
  employees := group.summary.employees
  devices := group.summary.devices
  activeDays := activeDays group
  firstInvokedAt := group.summary.firstInvokedAt.map stamp
  lastInvokedAt := group.summary.lastInvokedAt.map stamp

/-! ### The report -/

/-- The report made of the dictionaries and the listed groups. -/
def Report.of (stamp : Stamp) (query : ReportQuery) (roster : Roster) (total : Nat)
    (aggregates : Aggregates) (rows : List ReportRow) : Report where
  totalEvents := total
  employees := roster.members.map (employeeRow stamp roster aggregates)
  objects := (objectKeys roster aggregates).map (objectRow stamp query roster aggregates)
  byDay := listed id aggregates.days
  byHour := listed toLex aggregates.hours
  rows
  assigned := assignedRows ((objectKeys roster aggregates).map
    (objectRow stamp query roster aggregates))

/-- What both branches are given besides the events. -/
structure ReportContext where
  organizationId : String
  query : ReportQuery
  roster : Roster
  retentionCutoff : Int
  zone : Zone
  stamp : Stamp
  collation : Collation

def ReportContext.clauses (context : ReportContext) : EventRow → Bool :=
  Telemetry.clauses context.organizationId context.query context.roster.employees
    context.roster.technologyProjects context.retentionCutoff

def postgresReport (context : ReportContext) (database : Database) (events : List EventRow) :
    Report :=
  let rows := events.filter context.clauses
  Report.of context.stamp context.query context.roster rows.length
    (postgres context.zone database rows)
    ((statement context.collation context.query
      (fun rows ↦ some (countDistinct (dayOf context.zone) rows)) (database.scan 6 rows)).map
        (reportRow context.stamp context.query.groupBy fun group ↦ group.activeDays.getD 0))

def portableReport (context : ReportContext) (database : Database) (events : List EventRow) :
    Report :=
  let rows := events.filter context.clauses
  let aggregates := portable context.zone context.query.groupBy database rows
  Report.of context.stamp context.query context.roster rows.length aggregates
    ((statement context.collation context.query (fun _ ↦ none) (database.scan 6 rows)).map
      (reportRow context.stamp context.query.groupBy fun group ↦
        (aggregates.activeDays.get? group.columns).getD 0))

/-! ### The branches return one report -/

section Branches

variable {stamp : Stamp} {query : ReportQuery} {roster : Roster} {first second : Aggregates}

theorem UsageObjectKind.text_injective : Function.Injective UsageObjectKind.text := by
  intro first second h
  cases first with
  | component =>
    cases second with
    | component => rfl
    | setup => exact absurd h (by decide)
  | setup =>
    cases second with
    | component => exact absurd h (by decide)
    | setup => rfl

/-- The parts of a parent are not empty, so an object without a parent ranks by itself. -/
theorem parent_injective {first second : Option SetupCoordinate}
    (hstableId : (first.map (·.stableId)).getD "" = (second.map (·.stableId)).getD "")
    (hversion : (first.map (·.version)).getD "" = (second.map (·.version)).getD "") :
    first = second := by
  cases first with
  | none =>
    cases second with
    | none => rfl
    | some second => exact absurd hstableId.symm second.stableId_ne
  | some first =>
    cases second with
    | none => exact absurd hstableId first.stableId_ne
    | some second =>
      obtain ⟨firstId, firstVersion, _, _⟩ := first
      obtain ⟨secondId, secondVersion, _, _⟩ := second
      obtain rfl : firstId = secondId := hstableId
      obtain rfl : firstVersion = secondVersion := hversion
      rfl

theorem ObjectKey.rank_injective : Function.Injective ObjectKey.rank := by
  intro first second h
  simp only [ObjectKey.rank, List.cons.injEq, and_true] at h
  obtain ⟨hkind, hstableId, hversion, hparentId, hparentVersion⟩ := h
  have hparent := parent_injective hparentId hparentVersion
  obtain ⟨firstKind, firstId, firstVersion, firstParent⟩ := first
  obtain ⟨secondKind, secondId, secondVersion, secondParent⟩ := second
  obtain rfl : firstKind = secondKind := UsageObjectKind.text_injective hkind
  obtain rfl : firstId = secondId := hstableId
  obtain rfl : firstVersion = secondVersion := hversion
  obtain rfl : firstParent = secondParent := hparent
  rfl

section

variable (h : Agrees first second)
include h

theorem objectKeys_congr : objectKeys roster first = objectKeys roster second := by
  refine insertionSort_congr ?_ fun left _ right _ hsame ↦ ObjectKey.rank_injective hsame
  exact (((entries_perm h.objectStats).map Prod.fst).append_left _).dedup

theorem employeeRow_congr (member : Member) :
    employeeRow stamp roster first member = employeeRow stamp roster second member := by
  simp only [employeeRow, h.employeeUsed, h.employeeUses, h.employeeDays, h.employeeLastUsed]

theorem objectRow_congr (key : ObjectKey) :
    objectRow stamp query roster first key = objectRow stamp query roster second key := by
  simp only [objectRow, h.objectStats]

/-- A report depends on what the dictionaries read. -/
theorem report_congr (total : Nat) (rows : List ReportRow) :
    Report.of stamp query roster total first rows =
      Report.of stamp query roster total second rows := by
  have hemployees : employeeRow stamp roster first = employeeRow stamp roster second :=
    funext (employeeRow_congr h)
  have hobjects : objectRow stamp query roster first = objectRow stamp query roster second :=
    funext (objectRow_congr h)
  have hdays : listed id first.days = listed id second.days :=
    listed_congr Function.injective_id h.days
  have hhours : listed toLex first.hours = listed toLex second.hours :=
    listed_congr toLex.injective h.hours
  simp only [Report.of, hemployees, hobjects, hdays, hhours, objectKeys_congr h]

end

/-! #### The listed groups -/

variable {rows others items : List EventRow}

theorem summarize_perm (h : items.Perm others) : summarize items = summarize others := by
  have hfirst : (items.map (·.invokedAt)).min? = (others.map (·.invokedAt)).min? := by
    refine Option.ext fun first ↦ ?_
    simp only [List.min?_eq_some_iff, (h.map (·.invokedAt)).mem_iff]
  simp only [summarize, outcomes, h.length_eq, h.countP_eq, countDistinct_perm _ h, hfirst,
    lastInvoked_perm h]

/-- A listed group with its active days settled. -/
def Group.settled (activeDays : Group → Nat) (group : Group) : Group :=
  { group with activeDays := some (activeDays group) }

theorem reportRow_settled (groupBy : GroupBy) (activeDays : Group → Nat) (group : Group) :
    reportRow stamp groupBy activeDays group =
      reportRow stamp groupBy (fun group ↦ group.activeDays.getD 0) (group.settled activeDays) :=
  rfl

/-- The groups of the rows with their active days. -/
def settledGroups (zone : Zone) (groupBy : GroupBy) (rows : List EventRow) : List Group :=
  (rows.map (groupColumns groupBy)).dedup.map fun columns ↦
    let items := itemsOf (rows.map fun row ↦ (groupColumns groupBy row, row)) columns
    ⟨columns, summarize items, some (countDistinct (dayOf zone) items)⟩

theorem settledGroups_perm (zone : Zone) (groupBy : GroupBy) (h : rows.Perm others) :
    (settledGroups zone groupBy rows).Perm (settledGroups zone groupBy others) := by
  have hgroup (columns : List String) :
      (itemsOf (rows.map fun row ↦ (groupColumns groupBy row, row)) columns).Perm
        (itemsOf (others.map fun row ↦ (groupColumns groupBy row, row)) columns) :=
    itemsOf_perm (h.map _) columns
  simp only [settledGroups, summarize_perm (hgroup _), countDistinct_perm _ (hgroup _)]
  exact ((h.map _).dedup).map _

/-- Groups in the order of a report. -/
def ranked (collation : Collation) (groups : List Group) : List Group :=
  groups.insertionSort fun first second ↦
    collation.rank first.columns first.summary ≤ collation.rank second.columns second.summary

/-- The statement with settled days, sorted after they are settled. -/
theorem settled_statement (zone : Zone) (collation : Collation)
    (activeDays : List EventRow → Option Nat) (settle : Group → Nat) (rows : List EventRow)
    (hsettle : ∀ columns ∈ rows.map (groupColumns query.groupBy),
      let items := itemsOf (rows.map fun row ↦ (groupColumns query.groupBy row, row)) columns
      settle ⟨columns, summarize items, activeDays items⟩ = countDistinct (dayOf zone) items) :
    (statement collation query activeDays rows).map (Group.settled settle) =
      ((ranked collation (settledGroups zone query.groupBy rows)).drop query.offset).take
        query.limit := by
  let order : Group → Group → Prop := fun first second ↦
    collation.rank first.columns first.summary ≤ collation.rank second.columns second.summary
  rw [statement, List.map_take, List.map_drop,
    List.map_insertionSort order order (Group.settled settle) _ fun _ _ _ _ ↦ Iff.rfl]
  congr 3
  rw [groupRows, grouped, List.map_map, List.map_map, List.map_map]
  refine List.map_congr_left fun columns hcolumns ↦ ?_
  have hday := hsettle columns (by simpa using hcolumns)
  dsimp only at hday
  simp only [Function.comp_apply, Group.settled, hday]

theorem sorted_settledGroups (zone : Zone) (collation : Collation) (groupBy : GroupBy)
    (h : rows.Perm others) :
    ranked collation (settledGroups zone groupBy rows) =
      ranked collation (settledGroups zone groupBy others) := by
  refine insertionSort_congr (settledGroups_perm zone groupBy h) ?_
  intro left hleft right hright hsame
  obtain ⟨columns, -, rfl⟩ := List.mem_map.mp hleft
  obtain ⟨others, -, rfl⟩ := List.mem_map.mp hright
  obtain rfl : columns = others := congrArg (fun rank ↦ (ofLex rank).2) hsame
  rfl

end Branches

/-- The rows of a report, from the settled groups. -/
def settledRows (context : ReportContext) (rows : List EventRow) : List ReportRow :=
  (((ranked context.collation (settledGroups context.zone context.query.groupBy rows)).drop
    context.query.offset).take context.query.limit).map
      (reportRow context.stamp context.query.groupBy fun group ↦ group.activeDays.getD 0)

/-- The groups that PostgreSQL lists have their days in a column of the statement. -/
theorem postgres_rows (context : ReportContext) (rows : List EventRow) :
    (statement context.collation context.query
        (fun rows ↦ some (countDistinct (dayOf context.zone) rows)) rows).map
          (reportRow context.stamp context.query.groupBy fun group ↦ group.activeDays.getD 0) =
      settledRows context rows := by
  rw [settledRows, ← settled_statement context.zone context.collation
    (fun rows ↦ some (countDistinct (dayOf context.zone) rows))
    (fun group ↦ group.activeDays.getD 0) rows fun _ _ ↦ rfl, List.map_map]
  exact List.map_congr_left fun group _ ↦ reportRow_settled _ _ _

/-- Elsewhere the days of a listed group are those that the loop collected under its columns. -/
theorem portable_rows (context : ReportContext) (rows scanned : List EventRow)
    (h : rows.Perm scanned) :
    (statement context.collation context.query (fun _ ↦ none) rows).map
        (reportRow context.stamp context.query.groupBy fun group ↦
          (((scanned.foldl (Streamed.add context.zone context.query.groupBy) {}).aggregates
            ).activeDays.get? group.columns).getD 0) = settledRows context rows := by
  rw [settledRows, ← settled_statement context.zone context.collation _ (fun group ↦
    (((scanned.foldl (Streamed.add context.zone context.query.groupBy) {}).aggregates
      ).activeDays.get? group.columns).getD 0) rows, List.map_map]
  · exact List.map_congr_left fun group _ ↦ reportRow_settled _ _ _
  · intro columns hcolumns
    rw [foldl_add]
    have hread := read_distinct (groupColumns context.query.groupBy) (dayOf context.zone) h columns
    have hsome : itemsOf (rows.map fun row ↦ (groupColumns context.query.groupBy row, row))
        columns ≠ [] := by
      rw [Ne, itemsOf_eq_nil, not_not, List.map_map]
      exact hcolumns
    rw [groupRows, get?_written_grouped, if_neg hsome] at hread
    exact congrArg (·.getD 0) hread.symm

/-- The two branches return the same report from the same stored events, whatever the time zone,
the period, the filters and the order in which either database returns its rows. -/
theorem report_branches_agree (context : ReportContext) (server embedded : Database)
    (events : List EventRow) :
    postgresReport context server events = portableReport context embedded events := by
  have hagrees := branches_agree context.zone context.query.groupBy server embedded
    (List.Perm.refl (events.filter context.clauses))
  rw [postgresReport, portableReport, report_congr hagrees]
  congr 1
  generalize events.filter context.clauses = rows
  have hserver := server.perm 6 rows
  have hembedded := embedded.perm 6 rows
  rw [postgres_rows, settledRows, sorted_settledGroups _ _ _ (hserver.trans hembedded.symm)]
  exact (portable_rows context _ _ (hembedded.trans (embedded.perm 0 rows).symm)).symm

end AiStp.Telemetry
