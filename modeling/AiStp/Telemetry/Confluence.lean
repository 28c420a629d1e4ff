import AiStp.Telemetry.Services

/-!
# Usage events in any order

An event may be reported twice, by an agent and by a hook, in one batch or in two, in either order.
`absorb` is what a report does to the stored row of its event: a first report is stored, a hook's
report overwrites an agent's, and every other one leaves the row. Reports of one event that agree in
their coordinates absorb in any order alike (`absorb_right_comm`), so what is stored after a run of
batches depends on the reports alone (`usage_ingest_confluent`).
-/

set_option autoImplicit false

namespace AiStp.Telemetry

open Library

/-- One call of the ingest. -/
structure UsageCall where
  batch : List ReportedUsage
  caller : Caller
  now : Nat

/-- The calls one after another. -/
def ingestCalls (organizationId : String) (calls : List UsageCall) (store : Store) : Store :=
  calls.foldl (fun store call ↦
    (ingestEvents organizationId call.batch call.caller call.now store).1) store

/-- All the reports of some calls. -/
def reports (calls : List UsageCall) : List ReportedUsage :=
  calls.flatMap (·.batch)

/-- Usage is collected, and every report of the call is admitted. -/
structure UsageCall.Valid (organizationId : String) (store : Store) (call : UsageCall) : Prop where
  collected : (store.policies.get? organizationId).any (·.usageCollectionEnabled) = true
  admitted : ∀ event ∈ call.batch, admitted store organizationId call.caller call.now
    event.organizationId event.row.toAttribution event.row.invokedAt = true

/-- The reports of one event have the same coordinates, and no two of them from one source differ. -/
structure OneReportEach (events : List ReportedUsage) : Prop where
  coordinates : ∀ first ∈ events, ∀ second ∈ events, first.eventId = second.eventId →
    first.row.toAttribution = second.row.toAttribution ∧ first.row.activity = second.row.activity
  reports : ∀ first ∈ events, ∀ second ∈ events, first.eventId = second.eventId →
    first.row.source = second.row.source → first.row = second.row

/-! ### One event -/

/-- The stored row of an event after another report of it. -/
def absorb (stored : Option RuntimeUsageEvent) (reported : RuntimeUsageEvent) :
    Option RuntimeUsageEvent :=
  match stored with
  | none => some reported
  | some stored => some ((repeatUsage stored reported).getD stored)

section Rows

variable {first second stored reported : RuntimeUsageEvent}

/-- Rows that agree in coordinates, source, outcome and time are the same row. -/
theorem upgraded_eq (hattribution : stored.toAttribution = reported.toAttribution)
    (hactivity : stored.activity = reported.activity) :
    { stored with
      source := reported.source
      outcome := reported.outcome
      invokedAt := reported.invokedAt } = reported := by
  cases stored
  cases reported
  simp_all

theorem absorb_none : absorb none reported = some reported := rfl

theorem absorb_native (h : stored.source = .nativeHook) :
    absorb (some stored) reported = some stored := by
  simp only [absorb, repeatUsage, h]
  split_ifs
  all_goals simp_all

theorem absorb_agent (h : reported.source = .agentReported) :
    absorb (some stored) reported = some stored := by
  simp only [absorb, repeatUsage, h]
  split_ifs
  all_goals simp_all

/-- The report of a hook replaces an agent's report of the same coordinates. -/
theorem absorb_upgrade (hattribution : stored.toAttribution = reported.toAttribution)
    (hactivity : stored.activity = reported.activity) (hstored : stored.source = .agentReported)
    (hreported : reported.source = .nativeHook) :
    absorb (some stored) reported = some reported := by
  rw [absorb, repeatUsage, if_pos ⟨hattribution, hactivity⟩, if_pos ⟨hstored, hreported⟩,
    Option.getD_some, upgraded_eq hattribution hactivity]

/-- Two reports of one event may be absorbed in either order. -/
theorem absorb_right_comm (hattribution : first.toAttribution = second.toAttribution)
    (hactivity : first.activity = second.activity)
    (hsame : first.source = second.source → first = second) (held : Option RuntimeUsageEvent) :
    absorb (absorb held first) second = absorb (absorb held second) first := by
  cases hfirst : first.source with
  | agentReported =>
    cases hsecond : second.source with
    | agentReported => rw [hsame (hfirst.trans hsecond.symm)]
    | nativeHook =>
      cases held with
      | none =>
        rw [absorb_none, absorb_none, absorb_upgrade hattribution hactivity hfirst hsecond,
          absorb_native hsecond]
      | some stored =>
        rw [absorb_agent hfirst]
        cases hheld : absorb (some stored) second with
        | none => simp [absorb] at hheld
        | some kept => rw [absorb_agent hfirst]
  | nativeHook =>
    cases hsecond : second.source with
    | nativeHook => rw [hsame (hfirst.trans hsecond.symm)]
    | agentReported =>
      cases held with
      | none =>
        rw [absorb_none, absorb_none, absorb_native hfirst,
          absorb_upgrade hattribution.symm hactivity.symm hsecond hfirst]
      | some stored =>
        rw [absorb_agent hsecond]
        cases hheld : absorb (some stored) first with
        | none => simp [absorb] at hheld
        | some kept => rw [absorb_agent hsecond]

/-- After a hook's report the row stays. -/
theorem foldl_absorb_native (h : stored.source = .nativeHook) (rows : List RuntimeUsageEvent) :
    rows.foldl absorb (some stored) = some stored := by
  induction rows with
  | nil => rfl
  | cons row rows ih => rw [List.foldl_cons, absorb_native h, ih]

/-- Reports of agents leave the row. -/
theorem foldl_absorb_agent {rows : List RuntimeUsageEvent}
    (h : ∀ row ∈ rows, row.source = .agentReported) :
    rows.foldl absorb (some stored) = some stored := by
  induction rows with
  | nil => rfl
  | cons row rows ih =>
    rw [List.forall_mem_cons] at h
    rw [List.foldl_cons, absorb_agent h.1, ih h.2]

end Rows

/-! ### Batches -/

section Batches

variable {organizationId : String} {caller : Caller} {now : Nat} {store : Store}

/-- The rows that the reports give for an event. -/
def rowsOf (events : List ReportedUsage) (eventId : String) : List RuntimeUsageEvent :=
  (events.filter (·.eventId = eventId)).map (·.row)

theorem rowsOf_append (first second : List ReportedUsage) (eventId : String) :
    rowsOf (first ++ second) eventId = rowsOf first eventId ++ rowsOf second eventId := by
  rw [rowsOf, List.filter_append, List.map_append, rowsOf, rowsOf]

/-- A report changes the row of its event only, and no other table. -/
theorem ingestUsage_spec {first : Store} (state : Store × Receipt) {event : ReportedUsage}
    (hadmitted : admitted first organizationId caller now event.organizationId
      event.row.toAttribution event.row.invokedAt = true) :
    (∃ usage, (ingestUsage organizationId caller now first state event).1 =
      { state.1 with usage }) ∧
    ∀ key, (ingestUsage organizationId caller now first state event).1.usage.get? key =
      if key = (organizationId, event.eventId) then absorb (state.1.usage.get? key) event.row
      else state.1.usage.get? key := by
  unfold ingestUsage
  dsimp only
  rw [if_pos hadmitted]
  cases hstored : state.1.usage.get? (organizationId, event.eventId) with
  | none =>
    refine ⟨⟨_, rfl⟩, fun key ↦ ?_⟩
    by_cases hkey : key = (organizationId, event.eventId)
    · subst hkey
      simp [Table.get?_set, hstored, absorb_none]
    · simp [Table.get?_set, hkey]
  | some stored =>
    cases hrepeat : repeatUsage stored event.row with
    | none =>
      simp only [hrepeat]
      refine ⟨⟨_, rfl⟩, fun key ↦ ?_⟩
      by_cases hkey : key = (organizationId, event.eventId)
      · subst hkey
        simp [hstored, absorb, hrepeat]
      · simp [hkey]
    | some kept =>
      simp only [hrepeat]
      refine ⟨⟨_, rfl⟩, fun key ↦ ?_⟩
      by_cases hkey : key = (organizationId, event.eventId)
      · subst hkey
        simp [Table.get?_set, hstored, absorb, hrepeat]
      · simp [Table.get?_set, hkey]

/-- A report is counted once, whatever becomes of it. -/
theorem ingestUsage_counts (organizationId : String) (caller : Caller) (now : Nat) (first : Store)
    (state : Store × Receipt) (event : ReportedUsage) :
    let receipt := (ingestUsage organizationId caller now first state event).2
    receipt.accepted.length + receipt.duplicates.length + receipt.rejected.length =
      state.2.accepted.length + state.2.duplicates.length + state.2.rejected.length + 1 := by
  unfold ingestUsage
  dsimp only
  split_ifs
  · split
    · simp only [List.length_append, List.length_singleton]
      omega
    · split
      all_goals
        simp only [List.length_append, List.length_singleton]
        omega
  · simp only [List.length_append, List.length_singleton]
    omega

/-- In each call, accepted, duplicate and rejected reports make up the batch. -/
theorem ingestEvents_counts (organizationId : String) (batch : List ReportedUsage) (caller : Caller)
    (now : Nat) (store : Store) :
    let receipt := (ingestEvents organizationId batch caller now store).2
    receipt.accepted.length + receipt.duplicates.length + receipt.rejected.length =
      batch.length := by
  unfold ingestEvents
  split_ifs
  · have hfold : ∀ (events : List ReportedUsage) (state : Store × Receipt),
        let receipt := (events.foldl (ingestUsage organizationId caller now store) state).2
        receipt.accepted.length + receipt.duplicates.length + receipt.rejected.length =
          state.2.accepted.length + state.2.duplicates.length + state.2.rejected.length +
            events.length := by
      intro events
      induction events with
      | nil => simp
      | cons event events ih =>
        intro state
        have hcounts := ingestUsage_counts organizationId caller now store state event
        have hrest := ih (ingestUsage organizationId caller now store state event)
        dsimp only at hcounts hrest ⊢
        rw [List.foldl_cons, List.length_cons]
        omega
    simpa using hfold batch (store, {})
  · simp

variable {events : List ReportedUsage}

theorem foldl_ingestUsage {first : Store}
    (hadmitted : ∀ event ∈ events, admitted first organizationId caller now event.organizationId
      event.row.toAttribution event.row.invokedAt = true) (state : Store × Receipt) :
    (∃ usage, (events.foldl (ingestUsage organizationId caller now first) state).1 =
      { state.1 with usage }) ∧
    ∀ key, (events.foldl (ingestUsage organizationId caller now first) state).1.usage.get? key =
      if key.1 = organizationId then (rowsOf events key.2).foldl absorb (state.1.usage.get? key)
      else state.1.usage.get? key := by
  induction events generalizing state with
  | nil => exact ⟨⟨state.1.usage, rfl⟩, by simp [rowsOf]⟩
  | cons event events ih =>
    rw [List.forall_mem_cons] at hadmitted
    obtain ⟨⟨once, honce⟩, hget⟩ := ingestUsage_spec state hadmitted.1
    obtain ⟨⟨usage, husage⟩, hrest⟩ :=
      ih hadmitted.2 (ingestUsage organizationId caller now first state event)
    refine ⟨⟨usage, by rw [List.foldl_cons, husage, honce]⟩, fun key ↦ ?_⟩
    rw [List.foldl_cons, hrest, hget, rowsOf, rowsOf, List.filter_cons]
    by_cases horganization : key.1 = organizationId
    · by_cases hevent : event.eventId = key.2
      · have hkey : key = (organizationId, event.eventId) := Prod.ext horganization hevent.symm
        simp [hkey]
      · have hkey : key ≠ (organizationId, event.eventId) := fun h ↦ hevent (by rw [h])
        simp [hkey, hevent]
    · have hkey : key ≠ (organizationId, event.eventId) := fun h ↦ horganization (by rw [h])
      simp [hkey, horganization]

/-- A run of valid calls absorbs the reports of each event into its row and changes nothing else. -/
theorem ingestCalls_spec {calls : List UsageCall} {store : Store}
    (hvalid : ∀ call ∈ calls, call.Valid organizationId store) :
    (∃ usage, ingestCalls organizationId calls store = { store with usage }) ∧
    ∀ key, (ingestCalls organizationId calls store).usage.get? key =
      if key.1 = organizationId then
        (rowsOf (reports calls) key.2).foldl absorb (store.usage.get? key)
      else store.usage.get? key := by
  induction calls generalizing store with
  | nil => exact ⟨⟨store.usage, rfl⟩, by simp [ingestCalls, reports, rowsOf]⟩
  | cons call calls ih =>
    rw [List.forall_mem_cons] at hvalid
    obtain ⟨⟨hcollected, hadmitted⟩, hcalls⟩ := hvalid
    have hcall : ingestEvents organizationId call.batch call.caller call.now store =
        call.batch.foldl (ingestUsage organizationId call.caller call.now store) (store, {}) := by
      rw [ingestEvents, if_pos hcollected]
    obtain ⟨⟨once, honce⟩, hget⟩ := foldl_ingestUsage hadmitted (store, {})
    rw [← hcall] at honce hget
    have hlater : ∀ call ∈ calls, call.Valid organizationId { store with usage := once } :=
      fun later hlater ↦ ⟨(hcalls later hlater).collected, (hcalls later hlater).admitted⟩
    obtain ⟨⟨usage, husage⟩, hrest⟩ := ih hlater
    have hstep : ingestCalls organizationId (call :: calls) store =
        ingestCalls organizationId calls { store with usage := once } := by
      rw [ingestCalls, List.foldl_cons, honce]
      rfl
    refine ⟨⟨usage, by rw [hstep, husage]⟩, fun key ↦ ?_⟩
    have hheld : once.get? key =
        if key.1 = organizationId then (rowsOf call.batch key.2).foldl absorb (store.usage.get? key)
        else store.usage.get? key := by
      rw [← hget, honce]
    rw [hstep, hrest, hheld]
    split_ifs
    · have hreports : reports (call :: calls) = call.batch ++ reports calls := List.flatMap_cons
      rw [hreports, rowsOf_append, List.foldl_append]
    · rfl

theorem mem_rowsOf {eventId : String} {row : RuntimeUsageEvent} :
    row ∈ rowsOf events eventId ↔ ∃ event ∈ events, event.eventId = eventId ∧ event.row = row := by
  simp [rowsOf, and_assoc]

/-- The reports of an event are absorbed alike in any order. -/
theorem foldl_absorb_perm {first second : List ReportedUsage} (hone : OneReportEach first)
    (hsame : first.Perm second) (eventId : String) (held : Option RuntimeUsageEvent) :
    (rowsOf first eventId).foldl absorb held = (rowsOf second eventId).foldl absorb held := by
  refine List.Perm.foldl_eq' ((hsame.filter _).map _) ?_ held
  intro row hrow other hother held
  obtain ⟨event, hevent, hid, rfl⟩ := mem_rowsOf.mp hrow
  obtain ⟨another, hanother, hname, rfl⟩ := mem_rowsOf.mp hother
  have hids : event.eventId = another.eventId := hid.trans hname.symm
  obtain ⟨hattribution, hactivity⟩ := hone.coordinates event hevent another hanother hids
  exact absorb_right_comm hattribution hactivity (hone.reports event hevent another hanother hids)
    held

/-- What the reports of an event leave in its row: a hook's report where the event was not stored,
or was stored from an agent with the same coordinates. -/
theorem foldl_absorb_wins (hone : OneReportEach events) {event : ReportedUsage}
    (hevent : event ∈ events) (hnative : event.row.source = .nativeHook)
    {held : Option RuntimeUsageEvent}
    (hheld : ∀ stored, held = some stored → stored.toAttribution = event.row.toAttribution ∧
      stored.activity = event.row.activity ∧ stored.source = .agentReported) :
    (rowsOf events event.eventId).foldl absorb held = some event.row := by
  obtain ⟨before, after, rfl⟩ := List.append_of_mem hevent
  have hperm : (before ++ event :: after).Perm (event :: (before ++ after)) :=
    List.perm_middle
  rw [foldl_absorb_perm hone hperm, rowsOf, List.filter_cons, if_pos (decide_eq_true rfl),
    List.map_cons, List.foldl_cons]
  have hfirst : absorb held event.row = some event.row := by
    cases held with
    | none => rfl
    | some stored =>
      obtain ⟨hattribution, hactivity, hagent⟩ := hheld stored rfl
      exact absorb_upgrade hattribution hactivity hagent hnative
  rw [hfirst, foldl_absorb_native hnative]

/-- An event that only agents report, and that was not stored, has an agent's report for its row. -/
theorem foldl_absorb_only {event : ReportedUsage} (hone : OneReportEach events)
    (hevent : event ∈ events)
    (hagents : ∀ other ∈ events, other.eventId = event.eventId → other.row.source = .agentReported) :
    (rowsOf events event.eventId).foldl absorb none = some event.row := by
  obtain ⟨before, after, rfl⟩ := List.append_of_mem hevent
  have hperm : (before ++ event :: after).Perm (event :: (before ++ after)) :=
    List.perm_middle
  rw [foldl_absorb_perm hone hperm, rowsOf, List.filter_cons, if_pos (decide_eq_true rfl),
    List.map_cons, List.foldl_cons, absorb_none]
  refine foldl_absorb_agent fun row hrow ↦ ?_
  obtain ⟨other, hother, hid, rfl⟩ := mem_rowsOf.mp hrow
  exact hagents other (hperm.mem_iff.mpr (List.mem_cons_of_mem _ hother)) hid

end Batches

/-! ### Runs -/

/-- Two runs of valid calls with the same reports, in any order and any batches, store the same
rows: under the key of an event its hook's report, or its agent's where no hook reported it, unless
an earlier row was kept. No event has two rows, no other table changes, and each call accounts for
its batch. -/
theorem usage_ingest_confluent (organizationId : String) (store : Store)
    (first second : List UsageCall) (hsame : (reports first).Perm (reports second))
    (hfirst : ∀ call ∈ first, call.Valid organizationId store)
    (hsecond : ∀ call ∈ second, call.Valid organizationId store)
    (hone : OneReportEach (reports first)) : let final := ingestCalls organizationId first store
    (∀ key, final.usage.get? key = (ingestCalls organizationId second store).usage.get? key) ∧
    (∀ event ∈ reports first, event.row.source = .nativeHook →
      (∀ stored, store.usage.get? (organizationId, event.eventId) = some stored →
        stored.toAttribution = event.row.toAttribution ∧ stored.activity = event.row.activity ∧
          stored.source = .agentReported) →
      final.usage.get? (organizationId, event.eventId) = some event.row) ∧
    (∀ event ∈ reports first, store.usage.get? (organizationId, event.eventId) = none →
      (∀ other ∈ reports first, other.eventId = event.eventId →
        other.row.source = .agentReported) →
      final.usage.get? (organizationId, event.eventId) = some event.row) ∧
    (∀ key, (key.1 ≠ organizationId ∨ ∀ event ∈ reports first, event.eventId ≠ key.2) →
      final.usage.get? key = store.usage.get? key) ∧
    (final.usage.entries.map Prod.fst).Nodup ∧
    (∃ usage, final = { store with usage }) ∧
    ∀ batch caller now (before : Store),
      let receipt := (ingestEvents organizationId batch caller now before).2
      receipt.accepted.length + receipt.duplicates.length + receipt.rejected.length =
        batch.length := by
  obtain ⟨husage, hget⟩ := ingestCalls_spec hfirst
  refine ⟨fun key ↦ ?_, ?_, ?_, ?_, (ingestCalls organizationId first store).usage.unique, husage,
    ingestEvents_counts organizationId⟩
  · rw [hget, (ingestCalls_spec hsecond).2, foldl_absorb_perm hone hsame]
  · intro event hevent hnative hheld
    rw [hget, if_pos rfl]
    exact foldl_absorb_wins hone hevent hnative hheld
  · intro event hevent hnone hagents
    rw [hget, if_pos rfl, hnone]
    exact foldl_absorb_only hone hevent hagents
  · intro key hkey
    rw [hget]
    split_ifs with horganization
    · have hnone : rowsOf (reports first) key.2 = [] := by
        rw [rowsOf, List.map_eq_nil_iff, List.filter_eq_nil_iff]
        intro event hevent
        have hother := hkey.resolve_left (not_not_intro horganization) event hevent
        simpa using hother
      rw [hnone, List.foldl_nil]
    · rfl

namespace Reported

def store : Store :=
  { Store.empty with
    policies := Table.empty.set "org" ⟨90, true, true, true, 21600, 1⟩
    devices := Table.empty.set "device" ⟨"account", true⟩ }

def event (source : UsageSource) (outcome : String) (invokedAt : Nat) : ReportedUsage where
  organizationId := "org"
  eventId := "event-0001"
  row :=
    { employeeAccountId := "account", deviceId := "device", projectId := none, activity := []
      source, outcome, invokedAt }

def call (batch : List ReportedUsage) : UsageCall := ⟨batch, ⟨"account", none⟩, 1000⟩

def agent : ReportedUsage := event .agentReported "failed" 990

def hook : ReportedUsage := event .nativeHook "succeeded" 991

theorem valid {batch : List ReportedUsage} (h : ∀ event ∈ batch, event = agent ∨ event = hook) :
    (call batch).Valid "org" store := by
  refine ⟨by decide, fun event hevent ↦ ?_⟩
  rcases h event hevent with rfl | rfl
  all_goals
    dsimp only [call]
    decide

theorem oneReportEach : OneReportEach [agent, hook] where
  coordinates := by decide
  reports := by decide

end Reported

/-- `usage_ingest_confluent` at an agent's report and a hook's: together, and the hook's first. -/
theorem usage_ingest_confluent_reported :
    let final := ingestCalls "org" [Reported.call [Reported.agent, Reported.hook]] Reported.store
    (∀ key, final.usage.get? key = (ingestCalls "org"
        [Reported.call [Reported.hook], Reported.call [Reported.agent]]
          Reported.store).usage.get? key) ∧
      final.usage.get? ("org", "event-0001") = some Reported.hook.row := by
  have hconfluent := usage_ingest_confluent "org" Reported.store
    [Reported.call [Reported.agent, Reported.hook]]
    [Reported.call [Reported.hook], Reported.call [Reported.agent]]
    (List.Perm.swap _ _ _) ?_ ?_ Reported.oneReportEach
  · refine ⟨hconfluent.1, hconfluent.2.1 Reported.hook (by simp [reports, Reported.call]) rfl ?_⟩
    intro stored hstored
    cases hstored
  · intro call hcall
    rw [List.mem_singleton.mp hcall]
    exact Reported.valid (by simp)
  · intro call hcall
    rw [List.mem_cons, List.mem_singleton] at hcall
    rcases hcall with rfl | rfl
    · exact Reported.valid (by simp)
    · exact Reported.valid (by simp)

end AiStp.Telemetry
