import AiStp.Library.Grouping
import AiStp.Telemetry.Services
import Mathlib.Data.List.Lex
import Mathlib.Data.Prod.Lex

/-!
# Usage reports

A report counts the usage events of an organization by day, hour, employee and object, and lists
their groups. On PostgreSQL the counts come back grouped; elsewhere the rows are folded one by one
into dictionaries. The two ways read the same numbers from the same events (`Agrees`), in whatever
order each database returns its rows. Days and hours are local: how a moment is read in the time
zone is a parameter.
-/

set_option autoImplicit false

namespace AiStp.Telemetry

open Library Library.Grouping

/-! ### Stored events -/

/-- The coordinates of a setup: both are stored, and neither is empty. -/
structure SetupCoordinate where
  stableId : String
  version : String
  stableId_ne : stableId ≠ ""
  version_ne : version ≠ ""
deriving DecidableEq

inductive UsageOutcome where
  | succeeded
  | failed
  | cancelled
deriving DecidableEq

inductive ActivityKind where
  | invocation
  | load
deriving DecidableEq

structure EventRow where
  organizationId : String
  employeeAccountId : String
  deviceId : String
  projectId : String
  harness : String
  setup : Option SetupCoordinate
  componentKind : String
  componentStableId : String
  componentVersion : String
  invokedAt : Int
  outcome : UsageOutcome
  source : UsageSource
  activityKind : ActivityKind
deriving DecidableEq

/-- A moment on the clock of a time zone: the day counts from 1970-01-01, a Thursday. -/
structure LocalTime where
  day : Int
  hour : Nat

/-- The weekday from Monday. -/
def LocalTime.weekday (time : LocalTime) : Nat := ((time.day + 3) % 7).toNat

/-- The day of the week from Sunday, as the database extracts it. -/
def LocalTime.dow (time : LocalTime) : Nat := ((time.day + 4) % 7).toNat

/-- How moments are read in the time zone of the report. -/
abbrev Zone := Int → LocalTime

inductive GroupBy where
  | component
  | setup
  | employee
  | device
  | project
  | harness
  | outcome
deriving DecidableEq

def UsageOutcome.text : UsageOutcome → String
  | .succeeded => "succeeded"
  | .failed => "failed"
  | .cancelled => "cancelled"

def groupColumns (groupBy : GroupBy) (row : EventRow) : List String :=
  match groupBy with
  | .component => [row.componentKind, row.componentStableId, row.componentVersion]
  | .setup => [(row.setup.map (·.stableId)).getD "", (row.setup.map (·.version)).getD ""]
  | .employee => [row.employeeAccountId]
  | .device => [row.deviceId]
  | .project => [row.projectId]
  | .harness => [row.harness]
  | .outcome => [row.outcome.text]

inductive UsageObjectKind where
  | component
  | setup
deriving DecidableEq

def UsageObjectKind.text : UsageObjectKind → String
  | .component => "component"
  | .setup => "setup"

structure ObjectKey where
  kind : UsageObjectKind
  stableId : String
  version : String
  parentSetup : Option SetupCoordinate
deriving DecidableEq

def componentKey (row : EventRow) : ObjectKey where
  kind := .component
  stableId := row.componentStableId
  version := row.componentVersion
  parentSetup := row.setup

def setupKey (setup : SetupCoordinate) : ObjectKey where
  kind := .setup
  stableId := setup.stableId
  version := setup.version
  parentSetup := none

/-- An event counts for its component and for its setup. -/
def objectKeysRow (row : EventRow) : List ObjectKey :=
  componentKey row :: (row.setup.map setupKey).toList

structure ObjectStats where
  usedBy : Nat
  uses : Nat
  activeDays : Nat
  lastUsed : Option Int
deriving DecidableEq

/-- The dictionaries from which the report is made. -/
structure Aggregates where
  days : Table Int Nat
  hours : Table (Nat × Nat) Nat
  activeDays : Table (List String) Nat
  employeeDays : Table String Nat
  employeeUsed : Table String (Finset (String × String))
  employeeUses : Table String Nat
  employeeLastUsed : Table String (Option Int)
  objectStats : Table ObjectKey ObjectStats

/-- A database returns the rows of each statement in an order of its own. -/
structure Database where
  scan : Nat → List EventRow → List EventRow
  perm : ∀ statement rows, (scan statement rows).Perm rows

/-! ### The portable branch -/

section Portable

variable {Key Value : Type} [DecidableEq Key] [DecidableEq Value]

def count (table : Table Key Nat) (key : Key) : Table Key Nat :=
  table.set key ((table.get? key).getD 0 + 1)

def collect (table : Table Key (Finset Value)) (key : Key) (value : Value) :
    Table Key (Finset Value) :=
  table.set key (insert value ((table.get? key).getD ∅))

def keepLatest (table : Table Key Int) (key : Key) (moment : Int) : Table Key Int :=
  table.set key (later (table.get? key) moment)

/-- What the loop over the rows has in hand. -/
structure Streamed where
  days : Table Int Nat := .empty
  hours : Table (Nat × Nat) Nat := .empty
  groupDaySets : Table (List String) (Finset Int) := .empty
  employeeDaySets : Table String (Finset Int) := .empty
  employeeUsed : Table String (Finset (String × String)) := .empty
  objectEmployees : Table ObjectKey (Finset String) := .empty
  objectDaySets : Table ObjectKey (Finset Int) := .empty
  objectUseCounts : Table ObjectKey Nat := .empty
  objectLastUsed : Table ObjectKey Int := .empty
  employeeUses : Table String Nat := .empty
  employeeLastUsed : Table String Int := .empty

def Streamed.addObject (row : EventRow) (day : Int) (state : Streamed) (key : ObjectKey) :
    Streamed :=
  { state with
    objectEmployees := collect state.objectEmployees key row.employeeAccountId
    objectDaySets := collect state.objectDaySets key day
    objectUseCounts := count state.objectUseCounts key
    objectLastUsed := keepLatest state.objectLastUsed key row.invokedAt }

def Streamed.add (zone : Zone) (groupBy : GroupBy) (state : Streamed) (row : EventRow) :
    Streamed :=
  let time := zone row.invokedAt
  let state :=
    { state with
      days := count state.days time.day
      hours := count state.hours (time.weekday, time.hour)
      groupDaySets := collect state.groupDaySets (groupColumns groupBy row) time.day
      employeeDaySets := collect state.employeeDaySets row.employeeAccountId time.day
      employeeUsed := collect state.employeeUsed row.employeeAccountId
        (row.componentStableId, row.componentVersion) }
  let state := (objectKeysRow row).foldl (Streamed.addObject row time.day) state
  { state with
    employeeUses := count state.employeeUses row.employeeAccountId
    employeeLastUsed := keepLatest state.employeeLastUsed row.employeeAccountId row.invokedAt }

def Streamed.aggregates (state : Streamed) : Aggregates where
  days := state.days
  hours := state.hours
  activeDays := mapped (fun _ days ↦ days.card) state.groupDaySets
  employeeDays := mapped (fun _ days ↦ days.card) state.employeeDaySets
  employeeUsed := state.employeeUsed
  employeeUses := state.employeeUses
  employeeLastUsed := mapped (fun _ moment ↦ some moment) state.employeeLastUsed
  objectStats := mapped (fun key uses ↦
    { usedBy := ((state.objectEmployees.get? key).getD ∅).card
      uses
      activeDays := ((state.objectDaySets.get? key).getD ∅).card
      lastUsed := state.objectLastUsed.get? key }) state.objectUseCounts

def portable (zone : Zone) (groupBy : GroupBy) (database : Database) (rows : List EventRow) :
    Aggregates :=
  ((database.scan 0 rows).foldl (Streamed.add zone groupBy) {}).aggregates

end Portable

/-! ### The PostgreSQL branch -/

section Postgres

/-- The number of distinct values of a column. -/
def countDistinct {Value : Type} [DecidableEq Value] (column : EventRow → Value)
    (rows : List EventRow) : Nat :=
  (rows.map column).dedup.length

def lastInvoked (rows : List EventRow) : Option Int :=
  (rows.map (·.invokedAt)).max?

/-- The groups of the rows with an aggregate of each. -/
def groupRows {Key State : Type} [DecidableEq Key] (key : EventRow → Key)
    (aggregate : List EventRow → State) (rows : List EventRow) : List (Key × State) :=
  grouped aggregate (rows.map fun row ↦ (key row, row))

def objectCount (zone : Zone) (rows : List EventRow) : ObjectStats where
  usedBy := countDistinct (·.employeeAccountId) rows
  uses := rows.length
  activeDays := countDistinct (fun row ↦ (zone row.invokedAt).day) rows
  lastUsed := lastInvoked rows

def postgres (zone : Zone) (database : Database) (rows : List EventRow) : Aggregates where
  days := written (groupRows (fun row ↦ (zone row.invokedAt).day) List.length
    (database.scan 0 rows)) .empty
  hours := written (groupRows
    (fun row ↦ (((zone row.invokedAt).dow + 6) % 7, (zone row.invokedAt).hour)) List.length
    (database.scan 1 rows)) .empty
  activeDays := .empty
  employeeDays := written (groupRows (·.employeeAccountId)
    (countDistinct fun row ↦ (zone row.invokedAt).day) (database.scan 4 rows)) .empty
  employeeUsed := (((database.scan 5 rows).map fun row ↦
    (row.employeeAccountId, row.componentStableId, row.componentVersion)).dedup).foldl
      (fun table record ↦ collect table record.1 record.2) .empty
  employeeUses := written (groupRows (·.employeeAccountId) List.length
    (database.scan 4 rows)) .empty
  employeeLastUsed := written (groupRows (·.employeeAccountId) lastInvoked
    (database.scan 4 rows)) .empty
  objectStats :=
    written (grouped (objectCount zone) ((database.scan 3 rows).filterMap fun row ↦
      row.setup.map fun setup ↦ (setupKey setup, row)))
      (written (groupRows componentKey (objectCount zone) (database.scan 2 rows)) .empty)

end Postgres

/-! ### The loop, field by field -/

section Loop

variable {zone : Zone} {groupBy : GroupBy}

theorem foldl_addObject (row : EventRow) (day : Int) (keys : List ObjectKey) (state : Streamed) :
    keys.foldl (Streamed.addObject row day) state =
      { state with
        objectEmployees := keys.foldl (fun table key ↦ collect table key row.employeeAccountId)
          state.objectEmployees
        objectDaySets := keys.foldl (fun table key ↦ collect table key day) state.objectDaySets
        objectUseCounts := keys.foldl count state.objectUseCounts
        objectLastUsed := keys.foldl (fun table key ↦ keepLatest table key row.invokedAt)
          state.objectLastUsed } := by
  induction keys generalizing state with
  | nil => rfl
  | cons key keys ih =>
    rw [List.foldl_cons, ih]
    rfl

/-- The local day of an event. -/
def dayOf (zone : Zone) (row : EventRow) : Int := (zone row.invokedAt).day

/-- The objects of the events, each with its event. -/
def objectPairs (rows : List EventRow) : List (ObjectKey × EventRow) :=
  rows.flatMap fun row ↦ (objectKeysRow row).map (·, row)

/-- Each dictionary of the loop is a loop of its own. -/
theorem foldl_add (rows : List EventRow) (state : Streamed) :
    rows.foldl (Streamed.add zone groupBy) state =
      { days := rows.foldl (fun table row ↦ count table (dayOf zone row)) state.days
        hours := rows.foldl (fun table row ↦
          count table ((zone row.invokedAt).weekday, (zone row.invokedAt).hour)) state.hours
        groupDaySets := rows.foldl (fun table row ↦
          collect table (groupColumns groupBy row) (dayOf zone row)) state.groupDaySets
        employeeDaySets := rows.foldl (fun table row ↦
          collect table row.employeeAccountId (dayOf zone row)) state.employeeDaySets
        employeeUsed := rows.foldl (fun table row ↦ collect table row.employeeAccountId
          (row.componentStableId, row.componentVersion)) state.employeeUsed
        objectEmployees := (objectPairs rows).foldl (fun table pair ↦
          collect table pair.1 pair.2.employeeAccountId) state.objectEmployees
        objectDaySets := (objectPairs rows).foldl (fun table pair ↦
          collect table pair.1 (dayOf zone pair.2)) state.objectDaySets
        objectUseCounts := (objectPairs rows).foldl (fun table pair ↦ count table pair.1)
          state.objectUseCounts
        objectLastUsed := (objectPairs rows).foldl (fun table pair ↦
          keepLatest table pair.1 pair.2.invokedAt) state.objectLastUsed
        employeeUses := rows.foldl (fun table row ↦ count table row.employeeAccountId)
          state.employeeUses
        employeeLastUsed := rows.foldl (fun table row ↦
          keepLatest table row.employeeAccountId row.invokedAt) state.employeeLastUsed } := by
  induction rows generalizing state with
  | nil => rfl
  | cons row rows ih =>
    rw [List.foldl_cons, ih]
    simp only [Streamed.add, foldl_addObject, objectPairs, List.flatMap_cons, List.foldl_append,
      List.foldl_map, List.foldl_cons]
    rfl

end Loop

/-! ### The branches read alike -/

/-- The dictionaries of two branches read alike, apart from the days of the listed groups, which one
branch reads off the statement that lists them. -/
structure Agrees (first second : Aggregates) : Prop where
  days : ∀ day, first.days.get? day = second.days.get? day
  hours : ∀ hour, first.hours.get? hour = second.hours.get? hour
  employeeDays : ∀ employee, first.employeeDays.get? employee = second.employeeDays.get? employee
  employeeUsed : ∀ employee, first.employeeUsed.get? employee = second.employeeUsed.get? employee
  employeeUses : ∀ employee, first.employeeUses.get? employee = second.employeeUses.get? employee
  employeeLastUsed : ∀ employee,
    first.employeeLastUsed.get? employee = second.employeeLastUsed.get? employee
  objectStats : ∀ key, first.objectStats.get? key = second.objectStats.get? key

section Branches

variable {rows others items : List EventRow}

theorem countDistinct_eq_card {Value : Type} [DecidableEq Value] (column : EventRow → Value)
    (rows : List EventRow) : countDistinct column rows = (rows.map column).toFinset.card :=
  (List.card_toFinset _).symm

theorem countDistinct_perm {Value : Type} [DecidableEq Value] (column : EventRow → Value)
    (h : rows.Perm others) : countDistinct column rows = countDistinct column others := by
  rw [countDistinct_eq_card, countDistinct_eq_card, List.toFinset_eq_of_perm _ _ (h.map column)]

theorem lastInvoked_perm (h : rows.Perm others) : lastInvoked rows = lastInvoked others := by
  refine Option.ext fun latest ↦ ?_
  simp only [lastInvoked, List.max?_eq_some_iff, (h.map (·.invokedAt)).mem_iff]

theorem objectCount_perm (zone : Zone) (h : rows.Perm others) :
    objectCount zone rows = objectCount zone others := by
  rw [objectCount, objectCount, countDistinct_perm _ h, countDistinct_perm _ h, h.length_eq,
    lastInvoked_perm h]

theorem foldl_count_ne_nil (hitems : items ≠ []) :
    (items.foldl (fun (uses : Option Nat) (_ : EventRow) ↦ some (uses.getD 0 + 1)) none) =
      some items.length := by
  rw [foldl_count, if_neg hitems]
  simp

theorem foldl_collect_ne_nil {Value : Type} [DecidableEq Value] (value : EventRow → Value)
    (hitems : items ≠ []) :
    (items.foldl (fun (values : Option (Finset Value)) row ↦
      some (insert (value row) (values.getD ∅))) none) = some (items.map value).toFinset := by
  rw [foldl_collect, if_neg hitems]
  simp

theorem lastInvoked_ne_nil (hitems : items ≠ []) :
    ((items.map (·.invokedAt)).max?).map some = some (lastInvoked items) := by
  cases hmax : (items.map (·.invokedAt)).max? with
  | none =>
    rw [List.max?_eq_none_iff, List.map_eq_nil_iff] at hmax
    exact absurd hmax hitems
  | some latest => rw [lastInvoked, hmax, Option.map_some]

/-- The rows of each object, whichever way they are found. -/
theorem objectPairs_perm (h : rows.Perm others) :
    (rows.map (fun row ↦ (componentKey row, row)) ++ rows.filterMap fun row ↦
      row.setup.map fun setup ↦ (setupKey setup, row)).Perm (objectPairs others) := by
  have hsplit : objectPairs rows = rows.flatMap fun row ↦
      [(componentKey row, row)] ++ (row.setup.map fun setup ↦ (setupKey setup, row)).toList := by
    refine List.flatMap_congr fun row _ ↦ ?_
    cases hsetup : row.setup with
    | none => simp [objectKeysRow, hsetup]
    | some setup => simp [objectKeysRow, hsetup]
  have hcomponents : rows.map (fun row ↦ (componentKey row, row)) =
      rows.flatMap fun row ↦ [(componentKey row, row)] := by
    rw [List.map_eq_flatMap]
  rw [hcomponents, List.filterMap_eq_flatMap_toList]
  refine (List.flatMap_append_perm rows _ _).trans ?_
  rw [← hsplit]
  exact h.flatMap_right _

/-- Grouped by the database or counted by a loop. -/
theorem read_count {Key : Type} [DecidableEq Key] (key : EventRow → Key)
    (h : rows.Perm others) (read : Key) :
    (written (groupRows key List.length rows) .empty).get? read =
      (others.foldl (fun table row ↦ count table (key row)) .empty).get? read := by
  have hread := get?_written_eq_tally List.length
    (fun (uses : Option Nat) (_ : EventRow) ↦ uses.getD 0 + 1) id (h.map fun row ↦ (key row, row))
    (fun _ _ hitems ↦ hitems.length_eq)
    (fun items hitems ↦ by rw [foldl_count_ne_nil hitems, Option.map_id_apply]) read
  rw [Option.map_id_apply, tally, List.foldl_map] at hread
  exact hread

/-- Distinct values counted by the database, or collected by a loop and counted at the end. -/
theorem read_distinct {Key Value : Type} [DecidableEq Key] [DecidableEq Value]
    (key : EventRow → Key) (value : EventRow → Value) (h : rows.Perm others) (read : Key) :
    (written (groupRows key (countDistinct value) rows) .empty).get? read =
      (mapped (fun _ values ↦ values.card) (others.foldl (fun table row ↦
        collect table (key row) (value row)) .empty)).get? read := by
  have hread := get?_written_eq_tally (countDistinct value)
    (fun (values : Option (Finset Value)) row ↦ insert (value row) (values.getD ∅)) Finset.card
    (h.map fun row ↦ (key row, row)) (fun _ _ hitems ↦ countDistinct_perm value hitems)
    (fun items hitems ↦ by
      rw [foldl_collect_ne_nil value hitems, Option.map_some, countDistinct_eq_card]) read
  rw [tally, List.foldl_map] at hread
  rw [get?_mapped]
  exact hread

/-- The last moment found by the database or kept by a loop. -/
theorem read_latest {Key : Type} [DecidableEq Key] (key : EventRow → Key) (h : rows.Perm others)
    (read : Key) :
    (written (groupRows key lastInvoked rows) .empty).get? read =
      (mapped (fun _ moment ↦ some moment) (others.foldl (fun table row ↦
        keepLatest table (key row) row.invokedAt) .empty)).get? read := by
  have hread := get?_written_eq_tally lastInvoked
    (fun (latest : Option Int) (row : EventRow) ↦ later latest row.invokedAt) some
    (h.map fun row ↦ (key row, row)) (fun _ _ hitems ↦ lastInvoked_perm hitems)
    (fun items hitems ↦ by rw [foldl_later, lastInvoked_ne_nil hitems]) read
  rw [tally, List.foldl_map] at hread
  rw [get?_mapped]
  exact hread

/-- The coordinates that each employee used, once each or as often as they were used. -/
theorem read_used (h : rows.Perm others) (employee : String) :
    (((rows.map fun row ↦ (row.employeeAccountId, row.componentStableId,
      row.componentVersion)).dedup).foldl
        (fun table record ↦ collect table record.1 record.2) .empty).get? employee =
      (others.foldl (fun table row ↦ collect table row.employeeAccountId
        (row.componentStableId, row.componentVersion)) .empty).get? employee := by
  let step : Option (Finset (String × String)) → String × String → Finset (String × String) :=
    fun values value ↦ insert value (values.getD ∅)
  let used : EventRow → String × String × String :=
    fun row ↦ (row.employeeAccountId, row.componentStableId, row.componentVersion)
  have hfirst := get?_tally step (rows.map used).dedup employee
  have hsecond := get?_tally step (others.map used) employee
  have hmem : ∀ value, value ∈ itemsOf (rows.map used).dedup employee ↔
      value ∈ itemsOf (others.map used) employee := by
    intro value
    simp only [itemsOf, List.mem_map, List.mem_filter, List.mem_dedup, h.mem_iff]
  have hnil : itemsOf (rows.map used).dedup employee = [] ↔
      itemsOf (others.map used) employee = [] := by
    simp only [List.eq_nil_iff_forall_not_mem, hmem]
  have hcollect (items : List (String × String)) :
      items.foldl (fun values value ↦ some (step values value)) none =
        if items = [] then none else some (∅ ∪ (items.map id).toFinset) :=
    foldl_collect id items none
  rw [hcollect] at hfirst hsecond
  have hsame : (tally step (rows.map used).dedup).get? employee =
      (tally step (others.map used)).get? employee := by
    rw [hfirst, hsecond]
    by_cases hitems : itemsOf (others.map used) employee = []
    · rw [if_pos hitems, if_pos (hnil.mpr hitems)]
    · rw [if_neg hitems, if_neg (mt hnil.mp hitems)]
      congr 1
      ext value
      simp [hmem]
  rw [tally, tally, List.foldl_map] at hsame
  exact hsame

/-- Under a key, only the statement of its kind has a group. -/
theorem get?_written_two {Key State : Type} [DecidableEq Key] (aggregate : List EventRow → State)
    (first second : List (Key × EventRow)) (key : Key)
    (hapart : itemsOf first key = [] ∨ itemsOf second key = []) :
    (written (grouped aggregate second) (written (grouped aggregate first) .empty)).get? key =
      (written (grouped aggregate (first ++ second)) .empty).get? key := by
  have happend : itemsOf (first ++ second) key = itemsOf first key ++ itemsOf second key := by
    rw [itemsOf, List.filter_append, List.map_append, itemsOf, itemsOf]
  rw [get?_written_grouped, get?_written_grouped, get?_written_grouped, happend]
  rcases hapart with hnone | hnone
  · simp [hnone]
  · simp [hnone]

/-- The statistics of the objects from the two statements. -/
theorem read_objects (zone : Zone) {components setups : List EventRow}
    (hcomponents : components.Perm others) (hsetups : setups.Perm others) (key : ObjectKey) :
    (written (grouped (objectCount zone) (setups.filterMap fun row ↦
        row.setup.map fun setup ↦ (setupKey setup, row)))
      (written (groupRows componentKey (objectCount zone) components) .empty)).get? key =
      if itemsOf (objectPairs others) key = [] then none
      else some (objectCount zone (itemsOf (objectPairs others) key)) := by
  let first : List (ObjectKey × EventRow) := components.map fun row ↦ (componentKey row, row)
  let second : List (ObjectKey × EventRow) := setups.filterMap fun row ↦
    row.setup.map fun setup ↦ (setupKey setup, row)
  have hpairs : (first ++ second).Perm (objectPairs others) :=
    ((hcomponents.map _).append (hsetups.filterMap _)).trans
      (objectPairs_perm (List.Perm.refl others))
  have hapart : itemsOf first key = [] ∨ itemsOf second key = [] := by
    rw [itemsOf_eq_nil, itemsOf_eq_nil]
    cases hkind : key.kind with
    | component =>
      refine .inr fun hkey ↦ ?_
      obtain ⟨pair, hpair, rfl⟩ := List.mem_map.mp hkey
      obtain ⟨row, -, hrow⟩ := List.mem_filterMap.mp hpair
      obtain ⟨setup, -, rfl⟩ := Option.map_eq_some_iff.mp hrow
      cases hkind
    | setup =>
      refine .inl fun hkey ↦ ?_
      obtain ⟨pair, hpair, rfl⟩ := List.mem_map.mp hkey
      obtain ⟨row, -, rfl⟩ := List.mem_map.mp hpair
      cases hkind
  have htwo := get?_written_two (objectCount zone) first second key hapart
  have hitems := itemsOf_perm hpairs key
  have hgrouped := get?_written_grouped (objectCount zone) (first ++ second) .empty key
  refine (htwo.trans hgrouped).trans ?_
  by_cases hnone : itemsOf (objectPairs others) key = []
  · rw [hnone] at hitems
    rw [hitems.eq_nil, hnone, if_pos rfl, if_pos rfl]
    rfl
  · have hsome : itemsOf (first ++ second) key ≠ [] :=
      fun hnil ↦ hnone (hnil ▸ hitems).nil_eq.symm
    rw [if_neg hsome, if_neg hnone, objectCount_perm zone hitems]

/-- The statistics of the objects from the loop. -/
theorem read_streamed_objects (zone : Zone) (groupBy : GroupBy) (rows : List EventRow)
    (key : ObjectKey) :
    (rows.foldl (Streamed.add zone groupBy) {}).aggregates.objectStats.get? key =
      if itemsOf (objectPairs rows) key = [] then none
      else some (objectCount zone (itemsOf (objectPairs rows) key)) := by
  let uses : Table ObjectKey Nat := tally (fun held _ ↦ held.getD 0 + 1) (objectPairs rows)
  let employees : Table ObjectKey (Finset String) :=
    tally (fun held row ↦ insert row.employeeAccountId (held.getD ∅)) (objectPairs rows)
  let days : Table ObjectKey (Finset Int) :=
    tally (fun held row ↦ insert (dayOf zone row) (held.getD ∅)) (objectPairs rows)
  let latest : Table ObjectKey Int :=
    tally (fun held row ↦ later held row.invokedAt) (objectPairs rows)
  have huses : uses.get? key = _ := get?_tally _ _ key
  have hemployees : employees.get? key = _ := get?_tally _ _ key
  have hdays : days.get? key = _ := get?_tally _ _ key
  have hlatest : latest.get? key = _ := get?_tally _ _ key
  rw [foldl_count] at huses
  rw [foldl_collect] at hemployees hdays
  rw [foldl_later] at hlatest
  rw [foldl_add, Streamed.aggregates, get?_mapped]
  change (uses.get? key).map (fun uses ↦ ObjectStats.mk ((employees.get? key).getD ∅).card uses
    ((days.get? key).getD ∅).card (latest.get? key)) = _
  rw [huses]
  by_cases hnone : itemsOf (objectPairs rows) key = []
  · rw [if_pos hnone, if_pos hnone]
    rfl
  · rw [if_neg hnone] at hemployees hdays
    rw [if_neg hnone, if_neg hnone, Option.map_some, hemployees, hdays, hlatest]
    simp only [Option.getD_some, Finset.empty_union, Option.getD_none, Nat.zero_add]
    rw [objectCount, countDistinct_eq_card, countDistinct_eq_card, lastInvoked]
    rfl

/-- Monday comes first on both clocks. -/
theorem dow_weekday (time : LocalTime) : (time.dow + 6) % 7 = time.weekday := by
  unfold LocalTime.dow LocalTime.weekday
  omega

/-- The two branches read the same numbers from the same events. -/
theorem branches_agree (zone : Zone) (groupBy : GroupBy) (server embedded : Database)
    (h : rows.Perm others) :
    Agrees (postgres zone server rows) (portable zone groupBy embedded others) := by
  have hscan (statement : Nat) : (server.scan statement rows).Perm (embedded.scan 0 others) :=
    (server.perm statement rows).trans (h.trans (embedded.perm 0 others).symm)
  constructor
  · intro day
    rw [portable, foldl_add]
    exact read_count (dayOf zone) (hscan 0) day
  · intro hour
    rw [portable, foldl_add, postgres]
    simp only [dow_weekday]
    exact read_count (fun row ↦ ((zone row.invokedAt).weekday, (zone row.invokedAt).hour))
      (hscan 1) hour
  · intro employee
    rw [portable, foldl_add]
    exact read_distinct (·.employeeAccountId) (dayOf zone) (hscan 4) employee
  · intro employee
    rw [portable, foldl_add]
    exact read_used (hscan 5) employee
  · intro employee
    rw [portable, foldl_add]
    exact read_count (·.employeeAccountId) (hscan 4) employee
  · intro employee
    rw [portable, foldl_add]
    exact read_latest (·.employeeAccountId) (hscan 4) employee
  · intro key
    rw [portable, read_streamed_objects]
    exact read_objects zone (hscan 2) (hscan 3) key

end Branches

end AiStp.Telemetry
