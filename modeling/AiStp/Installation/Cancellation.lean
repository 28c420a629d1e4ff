import AiStp.Installation.Publication
import AiStp.Installation.Writer
import AiStp.Library.Runs

/-!
# Cancellation is final

Every durable state that the writer leaves is `Consistent`: at most one operation is active, a
journal that is present belongs to an operation that has recorded its staging directory and no other
operation is active beside it, and a staging directory without a journal belongs to an active one.
`Kept` says what no call takes away: an operation that has `Started` stays so, with its journal for
as long as it is active, and a cancelled one stays cancelled. `Applied` is what a stop leaves of the
files.
-/

set_option autoImplicit false

namespace AiStp.Installation

open Foundation Library

open Custody (Identity)

open Program

variable {system : System}

/-! ### The invariant -/

/-- The journal of the operation is present. -/
def World.Guards (system : System) (admission : Admission) (world : World) : Prop :=
  Holds world.journal (some (guardContent system admission))

/-- The row of the request, as far as it was admitted. -/
def World.HasRow (admission : Admission) (record : Record) (world : World) : Prop :=
  world.store.row admission.operationId = some record ∧ record.admission = admission

/-- The cancellation of the request is committed. -/
def World.Cancelled (admission : Admission) (world : World) : Prop :=
  ∃ record, world.HasRow admission record ∧ record.isTombstone = true

/-- The request may have published files. -/
def World.Started (system : System) (admission : Admission) (world : World) : Prop :=
  ∃ record, world.HasRow admission record ∧ record.stage.isSome = true ∧
    record.phase ≠ .prepared ∧ record.isTombstone = false ∧
    (record.active = true → world.Guards system admission)

structure Consistent (system : System) (world : World) : Prop where
  keyed : ∀ id record, world.store.row id = some record → record.admission.operationId = id
  /-- At most one operation is active. -/
  single : ∀ first second one other, world.store.row first = some one →
    world.store.row second = some other → one.active = true → other.active = true →
    first = second
  journal : world.journal = none ∨ ∃ admission record, world.Guards system admission ∧
    world.HasRow admission record ∧ record.stage.isSome = true ∧
    ∀ id other, world.store.row id = some other → other.active = true →
      id = admission.operationId
  staging : world.staging = none ∨ world.journal ≠ none ∨
    ∃ id record, world.store.row id = some record ∧ record.active = true
  /-- A cancellation is not the outcome of a finished operation. -/
  outcome : ∀ id record, world.store.row id = some record → record.phase = .finishing →
    record.outcome ≠ some record.admission.cancellation

/-- What no step takes away. -/
structure Kept (system : System) (world next : World) : Prop where
  consistent : Consistent system next
  started : ∀ admission, world.Started system admission → next.Started system admission
  cancelled : ∀ admission, world.Cancelled admission → next.Cancelled admission

variable {world : World}

theorem Kept.refl (h : Consistent system world) : Kept system world world :=
  ⟨h, fun _ ↦ id, fun _ ↦ id⟩

theorem Kept.trans {first second third : World} (h : Kept system first second)
    (h' : Kept system second third) : Kept system first third :=
  ⟨h'.consistent, fun admission hstarted ↦ h'.started admission (h.started admission hstarted),
    fun admission hcancelled ↦ h'.cancelled admission (h.cancelled admission hcancelled)⟩

theorem not_started_and_cancelled {admission : Admission}
    (hstarted : world.Started system admission) (hcancelled : world.Cancelled admission) :
    False := by
  obtain ⟨record, hrow, -, -, hlive, -⟩ := hstarted
  obtain ⟨other, hother, htombstone⟩ := hcancelled
  have hsame : record = other := Option.some.inj (hrow.1.symm.trans hother.1)
  rw [hsame, htombstone] at hlive
  cases hlive

/-- Only one request can hold the journal. -/
theorem guards_inj {first second : Admission} (hfirst : world.Guards system first)
    (hsecond : world.Guards system second) : first = second := by
  obtain ⟨identity, hentry⟩ := hfirst
  obtain ⟨other, hother⟩ := hsecond
  have hsame := hentry.symm.trans hother
  simp only [guardContent, Option.some.injEq, TreeEntry.file.injEq, File.mk.injEq] at hsame
  have hbytes : system.encodeJournal first.journal = system.encodeJournal second.journal :=
    hsame.2.1
  have hjournal := congrArg system.decodeJournal hbytes
  rw [system.decodeJournal_encodeJournal, system.decodeJournal_encodeJournal] at hjournal
  exact Admission.journal_inj (Option.some.inj hjournal)

variable (hconsistent : Consistent system world)

include hconsistent in
/-- What `journal` reads. -/
theorem readJournal_cases {journal : Option Journal} (h : world.readJournal system = some journal) :
    journal = none ∧ world.journal = none ∨
      ∃ admission, world.Guards system admission ∧ journal = some admission.journal := by
  unfold World.readJournal at h
  simp only [Option.bind_eq_bind, Option.bind_eq_some_iff, Prod.exists] at h
  obtain ⟨observation, content, hobserved, hread⟩ := h
  obtain ⟨-, found, parents, file, -, hfile, hboth⟩ := observeFile_eq_some.mp hobserved
  have hcontent : content = file.map File.content := (Prod.mk.inj hboth).2
  rcases hconsistent.journal with hnone | ⟨admission, record, hguards, -⟩
  · left
    have hentry : world.control.entry [journalFileName] = none := hnone
    rw [hentry] at hfile
    obtain rfl := Option.some.inj hfile
    subst hcontent
    exact ⟨(Option.some.inj hread).symm, hnone⟩
  · right
    refine ⟨admission, hguards, ?_⟩
    obtain ⟨identity, hentry⟩ := hguards
    have hplace : world.control.entry [journalFileName] = some (.file _) := hentry
    rw [hplace, readFile] at hfile
    split_ifs at hfile with hreadable
    obtain rfl := Option.some.inj hfile
    subst hcontent
    simp only [Option.map_some, File.content, guardContent] at hread
    split_ifs at hread with hlength
    rw [system.decodeJournal_encodeJournal] at hread
    exact (Option.some.inj hread).symm

/-! ### Steps of the database -/

/-- A transaction that writes the row of one id. -/
structure RowStep (id : String) (record : Record) (world next : World) : Prop where
  root : next.root = world.root
  control : next.control = world.control
  row : ∀ other, next.store.row other =
    if other = id then some record else world.store.row other

variable {record : Record}

/-- A transaction keeps what it must, where the row it writes does. -/
theorem RowStep.kept {id : String} {next : World} (h : RowStep id record world next)
    (hconsistent : Consistent system world) (hkeyed : record.admission.operationId = id)
    (hactive : record.active = true → ∀ other held, world.store.row other = some held →
      held.active = true → other = id)
    (hjournal : world.journal ≠ none → ∀ held, world.store.row id = some held →
      held.admission = record.admission ∧ (held.stage.isSome = true → record.stage.isSome = true))
    (hguarded : world.journal ≠ none → record.active = true →
      ∃ held, world.store.row id = some held ∧ held.active = true)
    (hstaging : world.staging ≠ none → world.journal = none →
      (∃ held, world.store.row id = some held ∧ held.active = true) → record.active = true)
    (houtcome : record.phase = .finishing → record.outcome ≠ some record.admission.cancellation)
    (hstarted : ∀ admission held, world.HasRow admission held → admission.operationId = id →
      held.stage.isSome = true → held.phase ≠ .prepared → held.isTombstone = false →
      record.admission = admission ∧ record.stage.isSome = true ∧ record.phase ≠ .prepared ∧
        record.isTombstone = false ∧ (record.active = true → held.active = true))
    (hcancelled : ∀ held, world.store.row id = some held → held.isTombstone = false) :
    Kept system world next := by
  have hsameJournal : next.journal = world.journal := by rw [World.journal, h.control]; rfl
  have hsameStaging : next.staging = world.staging := by rw [World.staging, h.control]; rfl
  have hguards : ∀ admission, world.Guards system admission → next.Guards system admission := by
    intro admission hguard
    rwa [World.Guards, hsameJournal]
  refine ⟨⟨?_, ?_, ?_, ?_, ?_⟩, ?_, ?_⟩
  · intro other held hheld
    rw [h.row] at hheld
    split_ifs at hheld with hother
    · rw [← Option.some.inj hheld, hkeyed, hother]
    · exact hconsistent.keyed other held hheld
  · intro first second one other hone hother honeActive hotherActive
    rw [h.row] at hone hother
    split_ifs at hone hother with hfirst hsecond hsecond
    · rw [hfirst, hsecond]
    · obtain rfl := Option.some.inj hone
      rw [hfirst]
      exact (hactive honeActive second other hother hotherActive).symm
    · obtain rfl := Option.some.inj hother
      rw [hsecond]
      exact hactive hotherActive first one hone honeActive
    · exact hconsistent.single first second one other hone hother honeActive hotherActive
  · rcases hconsistent.journal with hnone | ⟨admission, held, hguard, hheld, hstage, honly⟩
    · exact .inl (hsameJournal.trans hnone)
    · right
      have hpresent : world.journal ≠ none := by
        obtain ⟨identity, hentry⟩ := hguard
        rw [hentry]
        simp
      have hids : ∀ other row, next.store.row other = some row → row.active = true →
          other = admission.operationId := by
        intro other row hrow hrowActive
        rw [h.row] at hrow
        split_ifs at hrow with hother
        · obtain rfl := Option.some.inj hrow
          obtain ⟨before, hbefore, hbeforeActive⟩ := hguarded hpresent hrowActive
          exact honly other before (hother ▸ hbefore) hbeforeActive
        · exact honly other row hrow hrowActive
      by_cases hid : admission.operationId = id
      · have hrow : world.store.row id = some held := hid ▸ hheld.1
        obtain ⟨hadmission, hkeep⟩ := hjournal hpresent held hrow
        refine ⟨admission, record, hguards admission hguard, ⟨?_, ?_⟩, hkeep hstage, hids⟩
        · rw [h.row, if_pos hid]
        · rw [← hadmission, hheld.2]
      · refine ⟨admission, held, hguards admission hguard, ⟨?_, hheld.2⟩, hstage, hids⟩
        rw [h.row, if_neg hid]
        exact hheld.1
  · rw [hsameStaging, hsameJournal]
    rcases hconsistent.staging with hnone | hpresent | ⟨other, held, hheld, hheldActive⟩
    · exact .inl hnone
    · exact .inr (.inl hpresent)
    · by_cases hclean : world.staging = none
      · exact .inl hclean
      by_cases hnone : world.journal = none
      · refine .inr (.inr ?_)
        by_cases hother : other = id
        · refine ⟨id, record, ?_, hstaging hclean hnone ⟨held, hother ▸ hheld, hheldActive⟩⟩
          rw [h.row, if_pos rfl]
        · refine ⟨other, held, ?_, hheldActive⟩
          rw [h.row, if_neg hother]
          exact hheld
      · exact .inr (.inl hnone)
  · intro other held hheld hphase
    rw [h.row] at hheld
    split_ifs at hheld
    · rw [← Option.some.inj hheld] at hphase ⊢
      exact houtcome hphase
    · exact hconsistent.outcome other held hheld hphase
  · rintro admission ⟨held, hheld, hstage, hphase, hlive, hguard⟩
    by_cases hid : admission.operationId = id
    · obtain ⟨hadmission, hstage', hphase', hlive', hactive'⟩ :=
        hstarted admission held hheld hid hstage hphase hlive
      refine ⟨record, ⟨?_, hadmission⟩, hstage', hphase', hlive', fun hrecord ↦ ?_⟩
      · rw [h.row, if_pos hid]
      · exact hguards admission (hguard (hactive' hrecord))
    · refine ⟨held, ⟨?_, hheld.2⟩, hstage, hphase, hlive, fun hactive' ↦ ?_⟩
      · rw [h.row, if_neg hid]
        exact hheld.1
      · exact hguards admission (hguard hactive')
  · rintro admission ⟨held, hheld, htombstone⟩
    refine ⟨held, ⟨?_, hheld.2⟩, htombstone⟩
    rw [h.row, if_neg]
    · exact hheld.1
    · intro hid
      have := hcancelled held (hid ▸ hheld.1)
      rw [this] at htombstone
      cases htombstone

theorem not_isTombstone_of_active (h : record.active = true) : record.isTombstone = false := by
  simp only [Record.active, decide_eq_true_eq] at h
  simp [Record.isTombstone, h]

/-- A row is added where no other operation is active. -/
theorem RowStep.kept_add {next : World} (h : RowStep record.admission.operationId record world next)
    (hconsistent : Consistent system world)
    (hnew : world.store.row record.admission.operationId = none)
    (hidle : record.active = true → world.store.hasActive = false ∧ world.journal = none)
    (hphase : record.phase ≠ .finishing) : Kept system world next := by
  refine h.kept hconsistent rfl ?_ ?_ ?_ ?_ ?_ ?_ ?_
  · intro hactive other held hheld hheldActive
    have := Store.hasActive_eq_false (hidle hactive).1 hheld
    rw [this] at hheldActive
    cases hheldActive
  · intro _ held hheld
    rw [hnew] at hheld
    cases hheld
  · intro hjournal hactive
    exact absurd (hidle hactive).2 hjournal
  · rintro - - ⟨held, hheld, -⟩
    rw [hnew] at hheld
    cases hheld
  · exact fun hfinishing ↦ absurd hfinishing hphase
  · intro admission held hheld hid
    have := hheld.1
    rw [hid, hnew] at this
    cases this
  · intro held hheld
    rw [hnew] at hheld
    cases hheld

/-- The row of an active operation is updated. -/
theorem RowStep.kept_update {updated : Record} {next : World}
    (h : RowStep record.admission.operationId updated world next)
    (hconsistent : Consistent system world)
    (hrow : world.store.row record.admission.operationId = some record)
    (hactive : record.active = true) (hadmission : updated.admission = record.admission)
    (hstage : record.stage.isSome = true → updated.stage.isSome = true)
    (hstaging : updated.active = true ∨ world.staging = none ∨ world.journal ≠ none)
    (houtcome : updated.phase = .finishing → updated.outcome ≠ some updated.admission.cancellation)
    (hstarted : record.stage.isSome = true → record.phase ≠ .prepared →
      updated.phase ≠ .prepared ∧ updated.isTombstone = false) : Kept system world next := by
  have hsame : ∀ held, world.store.row record.admission.operationId = some held →
      held = record := by
    intro held hheld
    exact Option.some.inj (hheld.symm.trans hrow)
  refine h.kept hconsistent (by rw [hadmission]) ?_ ?_ ?_ ?_ houtcome ?_ ?_
  · intro _ other held hheld hheldActive
    exact hconsistent.single other _ held record hheld hrow hheldActive hactive
  · intro _ held hheld
    rw [hsame held hheld]
    exact ⟨hadmission.symm, hstage⟩
  · exact fun _ _ ↦ ⟨record, hrow, hactive⟩
  · intro hpresent hnone _
    rcases hstaging with hlive | hclean | hjournal
    · exact hlive
    · exact absurd hclean hpresent
    · exact absurd hnone hjournal
  · intro admission held hheld hid hheldStage hphase _
    have hheldIs : held = record := hsame held (hid ▸ hheld.1)
    rw [hheldIs] at hheldStage hphase hheld
    obtain ⟨hphase', hlive'⟩ := hstarted hheldStage hphase
    exact ⟨hadmission.trans hheld.2, hstage hheldStage, hphase', hlive', fun _ ↦ by
      rw [hheldIs]; exact hactive⟩
  · intro held hheld
    rw [hsame held hheld]
    exact not_isTombstone_of_active hactive

/-! ### Steps of the control directory -/

include hconsistent in
/-- The database and the journal stay, and a staging directory is made only for an active
operation. -/
theorem kept_of_control {next : World} (hstore : next.store = world.store)
    (hjournal : next.journal = world.journal)
    (hstaging : next.staging = none ∨ next.staging = world.staging ∨
      ∃ id record, world.store.row id = some record ∧ record.active = true) :
    Kept system world next := by
  have hguards : ∀ admission, world.Guards system admission → next.Guards system admission := by
    intro admission hguard
    rwa [World.Guards, hjournal]
  have hhasRow : ∀ admission record, world.HasRow admission record →
      next.HasRow admission record := by
    intro admission record hrow
    rwa [World.HasRow, hstore]
  refine ⟨⟨?_, ?_, ?_, ?_, ?_⟩, ?_, ?_⟩
  · rw [hstore]
    exact hconsistent.keyed
  · rw [hstore]
    exact hconsistent.single
  · rcases hconsistent.journal with hnone | ⟨admission, record, hguard, hrow, hstage, honly⟩
    · exact .inl (hjournal.trans hnone)
    · refine .inr ⟨admission, record, hguards _ hguard, hhasRow _ _ hrow, hstage, ?_⟩
      rw [hstore]
      exact honly
  · rw [hjournal, hstore]
    rcases hstaging with hnone | hsame | hlive
    · exact .inl hnone
    · rw [hsame]
      exact hconsistent.staging
    · exact .inr (.inr hlive)
  · rw [hstore]
    exact hconsistent.outcome
  · rintro admission ⟨record, hrow, hstage, hphase, hlive, hguard⟩
    exact ⟨record, hhasRow _ _ hrow, hstage, hphase, hlive, fun hactive ↦
      hguards _ (hguard hactive)⟩
  · rintro admission ⟨record, hrow, htombstone⟩
    exact ⟨record, hhasRow _ _ hrow, htombstone⟩

include hconsistent in
/-- The journal of the only active operation is published. -/
theorem kept_of_guard {next : World} (hstore : next.store = world.store)
    (hstaging : next.staging = world.staging) (hnone : world.journal = none)
    (hguard : next.Guards system record.admission)
    (hrow : world.store.row record.admission.operationId = some record)
    (hactive : record.active = true) (hstage : record.stage.isSome = true) :
    Kept system world next := by
  have hhasRow : ∀ admission held, world.HasRow admission held → next.HasRow admission held := by
    intro admission held hheld
    rwa [World.HasRow, hstore]
  refine ⟨⟨?_, ?_, ?_, ?_, ?_⟩, ?_, ?_⟩
  · rw [hstore]
    exact hconsistent.keyed
  · rw [hstore]
    exact hconsistent.single
  · refine .inr ⟨record.admission, record, hguard, hhasRow _ _ ⟨hrow, rfl⟩, hstage, ?_⟩
    rw [hstore]
    intro id other hother hotherActive
    exact hconsistent.single id _ other record hother hrow hotherActive hactive
  · rw [hstaging, hstore]
    exact .inr (.inr ⟨_, record, hrow, hactive⟩)
  · rw [hstore]
    exact hconsistent.outcome
  · rintro admission ⟨held, hheld, hheldStage, hphase, hlive, hheldGuard⟩
    refine ⟨held, hhasRow _ _ hheld, hheldStage, hphase, hlive, fun hheldActive ↦ ?_⟩
    obtain ⟨identity, hentry⟩ := hheldGuard hheldActive
    rw [hnone] at hentry
    cases hentry
  · rintro admission ⟨held, hheld, htombstone⟩
    exact ⟨held, hhasRow _ _ hheld, htombstone⟩

include hconsistent in
/-- The journal of a completed operation is removed, after its staging directory. -/
theorem kept_of_unguard {next : World} (hstore : next.store = world.store)
    (hnone : next.journal = none) (hstaging : next.staging = none)
    (hguard : world.Guards system record.admission)
    (hrow : world.store.row record.admission.operationId = some record)
    (hactive : record.active = false) : Kept system world next := by
  have hhasRow : ∀ admission held, world.HasRow admission held → next.HasRow admission held := by
    intro admission held hheld
    rwa [World.HasRow, hstore]
  refine ⟨⟨?_, ?_, .inl hnone, .inl hstaging, ?_⟩, ?_, ?_⟩
  · rw [hstore]
    exact hconsistent.keyed
  · rw [hstore]
    exact hconsistent.single
  · rw [hstore]
    exact hconsistent.outcome
  · rintro admission ⟨held, hheld, hheldStage, hphase, hlive, hheldGuard⟩
    refine ⟨held, hhasRow _ _ hheld, hheldStage, hphase, hlive, fun hheldActive ↦ ?_⟩
    have hsame : admission = record.admission := guards_inj (hheldGuard hheldActive) hguard
    have hheldRow := hheld.1
    rw [hsame, hrow] at hheldRow
    rw [← Option.some.inj hheldRow, hactive] at hheldActive
    cases hheldActive
  · rintro admission ⟨held, hheld, htombstone⟩
    exact ⟨held, hhasRow _ _ hheld, htombstone⟩

/-! ### Programs

The contracts here are partial: they say what a program leaves, whether it answers or not. -/

/-- The state keeps what it must, and no managed file has changed. -/
def Quiet (system : System) (world next : World) : Prop :=
  Kept system world next ∧ next.root = world.root

theorem Quiet.refl (h : Consistent system world) : Quiet system world world :=
  ⟨Kept.refl h, rfl⟩

theorem Quiet.trans {first second third : World} (h : Quiet system first second)
    (h' : Quiet system second third) : Quiet system first third :=
  ⟨h.1.trans h'.1, h'.2.trans h.2⟩

variable {Durable : World → Prop} {total : Prop}

theorem commit_meets {change : Store → Option Store} (After : World → Prop)
    (hanswers : total → (change world.store).isSome) (h : ∀ store, change world.store = some store →
      Durable { world with store := store } ∧ After { world with store := store }) :
    Meets total (commit change) world Durable fun _ ↦ After := by
  refine Meets.act ?_ ?_
  · intro htotal
    simpa using hanswers htotal
  · intro next hnext
    obtain ⟨store, hstore, rfl⟩ := Option.map_eq_some_iff.mp hnext
    exact h store hstore

/-- An active operation, with the row that its program has read. -/
structure Active (record : Record) (world : World) : Prop where
  row : world.store.row record.admission.operationId = some record
  active : record.active = true

theorem setStage_step {identity : Identity} {store : Store} (hactive : Active record world)
    (h : world.store.setStage record.admission.operationId identity = some store) :
    record.stage = none ∧
      RowStep record.admission.operationId { record with stage := some identity } world
        { world with store := store } := by
  obtain ⟨held, hheld, hallowed, -, hrows⟩ := Store.update_eq_some h
  obtain rfl : held = record := Option.some.inj (hheld.symm.trans hactive.row)
  simp only [Bool.and_eq_true, Option.isNone_iff_eq_none] at hallowed
  exact ⟨hallowed.1, rfl, rfl, hrows⟩

include hconsistent in
theorem bindStage_quiet {identity : Identity} (hactive : Active record world) :
    Meets False (bindStage record.admission identity record.stage) world (Quiet system world)
      fun _ next ↦ Quiet system world next ∧ next.control = world.control ∧
        Active { record with stage := some identity } next := by
  cases hstage : record.stage with
  | some expected =>
    refine Meets.need False.elim fun hsame ↦ ⟨Quiet.refl hconsistent, rfl, ?_⟩
    have hrecord : { record with stage := some identity } = record := by
      rw [hsame, ← hstage]
    rw [hrecord]
    exact hactive
  | none =>
    refine Meets.look_bind False.elim fun _ _ ↦ ?_
    refine commit_meets (fun next ↦ Quiet system world next ∧ next.control = world.control ∧
      Active { record with stage := some identity } next) False.elim ?_
    intro store hstore
    obtain ⟨-, hstep⟩ := setStage_step hactive hstore
    have hkept : Kept system world { world with store := store } := by
      refine hstep.kept_update hconsistent hactive.row hactive.active rfl (fun _ ↦ rfl)
        (.inl hactive.active) ?_ ?_
      · exact hconsistent.outcome _ record hactive.row
      · simp [hstage]
    refine ⟨⟨hkept, rfl⟩, ⟨hkept, rfl⟩, rfl, ?_, hactive.active⟩
    have := hstep.row record.admission.operationId
    rwa [if_pos rfl] at this

theorem journal_ne_staging : [journalFileName] ≠ [stagingName] := by decide

include hconsistent in
theorem openStaging_quiet (hactive : Active record world) :
    Meets False (openStaging system record world.staging) world (Quiet system world)
      fun identity next ↦ Quiet system world next ∧ next.store = world.store ∧
        next.journal = world.journal ∧ next.staging = some (.directory identity) := by
  have hquiet : ∀ next, Ensured .control [stagingName] world next → Quiet system world next := by
    intro next hnext
    have hjournal : next.journal = world.journal := hnext.entry_ne _ journal_ne_staging
    refine ⟨kept_of_control hconsistent hnext.store hjournal ?_, hnext.tree_ne .root (by decide)⟩
    exact .inr (.inr ⟨_, record, hactive.row, hactive.active⟩)
  refine Meets.need_bind False.elim fun _ ↦ ?_
  refine (ensureDirectory_meets False.elim).mono hquiet ?_
  rintro identity next ⟨hnext, hidentity⟩
  exact ⟨hquiet next hnext, hnext.store, hnext.entry_ne _ journal_ne_staging, hidentity⟩

include hconsistent in
theorem publishGuard_quiet (hactive : Active record world) (hstage : record.stage.isSome = true)
    (hnone : world.journal = none) :
    Meets False (publishGuard system record.admission none) world (Quiet system world)
      fun _ next ↦ Quiet system world next ∧ next.store = world.store ∧
        next.staging = world.staging ∧ next.Guards system record.admission := by
  refine Meets.look_bind False.elim fun before hbefore ↦ ?_
  refine Meets.need_bind False.elim fun hmissing ↦ ?_
  refine Meets.need_bind False.elim fun hvalid ↦ ?_
  have hplaced : Base.control = .control →
      (guardChange system record.admission before).path = [journalFileName] := fun _ ↦ rfl
  have hcontent : ∀ content ∈ (guardChange system record.admission before).after,
      content.validate = true := by
    intro content hgiven
    rwa [← Option.some.inj hgiven]
  have hdifferent : [stagingName] ≠ [journalFileName] := journal_ne_staging.symm
  have hquiet : ∀ next, Publishing .control "guard" (guardChange system record.admission before)
      world next → Quiet system world next ∧ next.staging = world.staging := by
    intro next hnext
    have hstaging : next.staging = world.staging :=
      hnext.control _ (by simp) (fun _ ↦ hdifferent)
    refine ⟨⟨?_, hnext.rootSame rfl⟩, hstaging⟩
    rcases hnext.file with ⟨hjournal, -⟩ | ⟨hguard, -⟩
    · exact kept_of_control hconsistent hnext.store hjournal (.inr (.inl hstaging))
    · exact kept_of_guard hconsistent hnext.store hstaging hnone hguard hactive.row
        hactive.active hstage
  refine (publish_meets hplaced hcontent False.elim).mono (fun next h ↦ (hquiet next h).1) ?_
  rintro _ next (⟨-, now, hnow, hsame⟩ | ⟨hpublishing, hholds, -⟩)
  · exfalso
    obtain ⟨given, hgiven, rfl⟩ := Option.map_eq_some_iff.mp hbefore
    have hboth : given = now := Option.some.inj (hgiven.symm.trans hnow)
    rw [← hboth, hmissing] at hsame
    cases hsame
  · exact ⟨(hquiet next hpublishing).1, hpublishing.store, (hquiet next hpublishing).2, hholds⟩

/-- What `staging` leaves: the operation has its journal and its staging directory. -/
structure Guarded (system : System) (record : Record) (world next : World) : Prop where
  quiet : Quiet system world next
  guards : next.Guards system record.admission
  active : ∃ identity, next.staging = some (.directory identity) ∧
    Active { record with stage := some identity } next

include hconsistent in
theorem staging_quiet (hactive : Active record world) :
    Meets False (staging system record) world (Quiet system world)
      fun identity next ↦ Guarded system record world next ∧
        next.staging = some (.directory identity) := by
  refine Meets.look_bind False.elim fun journal hjournal ↦ ?_
  refine Meets.need_bind False.elim fun hheld ↦ ?_
  have huntouched : Meets False (needUntouched system record.admission journal) world
      (Quiet system world) fun _ next ↦ next = world := by
    cases journal with
    | some held => exact Meets.pure rfl
    | none =>
      refine Meets.look_bind False.elim fun changes _ ↦ ?_
      exact Meets.look False.elim fun _ _ ↦ rfl
  refine huntouched.bind ?_
  rintro _ next rfl
  refine Meets.look_bind False.elim fun entry hentry ↦ ?_
  obtain rfl := Option.some.inj hentry
  refine (openStaging_quiet hconsistent hactive).bind ?_
  rintro identity opened ⟨hopened, hopenedStore, hopenedJournal, hopenedStaging⟩
  have hopenedActive : Active record opened := by
    refine ⟨?_, hactive.active⟩
    rw [hopenedStore]
    exact hactive.row
  refine ((bindStage_quiet hopened.1.consistent hopenedActive).mono
    (fun _ h ↦ hopened.trans h) (fun _ _ h ↦ h)).bind ?_
  rintro _ bound ⟨hbound, hboundControl, hboundActive⟩
  have hboundStaging : bound.staging = some (.directory identity) := by
    rw [← hopenedStaging, World.staging, hboundControl]
    rfl
  have hboundJournal : bound.journal = next.journal := by
    rw [← hopenedJournal, World.journal, hboundControl]
    rfl
  have hfirst := hopened.trans hbound
  rcases readJournal_cases hconsistent hjournal with ⟨rfl, hnone⟩ | ⟨admission, hguard, rfl⟩
  · have hguarded := publishGuard_quiet hbound.1.consistent hboundActive rfl
      (hboundJournal.trans hnone)
    refine (hguarded.mono (fun _ h ↦ hfirst.trans h) (fun _ _ h ↦ h)).bind ?_
    rintro _ last ⟨hlast, hlastStore, hlastStaging, hlastGuards⟩
    refine Meets.pure ⟨⟨hfirst.trans hlast, hlastGuards, identity, ?_, ?_⟩, ?_⟩
    · exact hlastStaging.trans hboundStaging
    · refine ⟨?_, hactive.active⟩
      rw [hlastStore]
      exact hboundActive.row
    · exact hlastStaging.trans hboundStaging
  · have hsame : admission = record.admission := Admission.journal_inj (hheld _ rfl)
    have hpure : Meets False (publishGuard system record.admission (some admission.journal)) bound
        (Quiet system next) fun _ last ↦ last = bound := Meets.pure rfl
    refine hpure.bind ?_
    rintro _ last rfl
    refine Meets.pure ⟨⟨hfirst, ?_, identity, hboundStaging, hboundActive⟩, hboundStaging⟩
    rw [World.Guards, hboundJournal, ← hsame]
    exact hguard

/-! ### Completion -/

/-- What clearing the control directory of a completed operation leaves. -/
structure Cleared (system : System) (admission : Admission) (world next : World) : Prop where
  quiet : Quiet system world next
  store : next.store = world.store
  /-- Only the operation whose journal is present is cleared. -/
  own : next = world ∨ world.Guards system admission

theorem Cleared.refl {admission : Admission} (h : Consistent system world) :
    Cleared system admission world world :=
  ⟨Quiet.refl h, rfl, .inl rfl⟩

include hconsistent in
theorem removeStaging_cleared (hguards : world.Guards system record.admission) :
    Meets False (removeStaging record world.staging) world
      (Cleared system record.admission world)
      fun _ next ↦ Cleared system record.admission world next ∧ next.staging = none ∧
        next.journal = world.journal := by
  cases hstaging : world.staging with
  | none => exact Meets.pure ⟨Cleared.refl hconsistent, hstaging, rfl⟩
  | some entry =>
    cases entry with
    | directory identity =>
      refine Meets.need_bind False.elim fun _ ↦ ?_
      refine Meets.look_bind False.elim fun _ _ ↦ ?_
      refine removeDirectory_meets (fun next ↦ Cleared system record.admission world next ∧
        next.staging = none ∧ next.journal = world.journal) False.elim ?_
      intro _ next _ _ hedit
      have hgone : next.staging = none := hedit.entry_self
      have hjournal : next.journal = world.journal := hedit.entry_ne journal_ne_staging
      have hcleared : Cleared system record.admission world next :=
        ⟨⟨kept_of_control hconsistent hedit.store hjournal (.inl hgone), hedit.root⟩, hedit.store,
          .inr hguards⟩
      exact ⟨hcleared, hcleared, hgone, hjournal⟩
    | file file => exact Meets.refuse not_false
    | other => exact Meets.refuse not_false

include hconsistent in
theorem clearCompleted_cleared (hrow : world.store.row record.admission.operationId = some record)
    (hactive : record.active = false) :
    Meets False (clearCompleted system record) world (Cleared system record.admission world)
      fun _ ↦ Cleared system record.admission world := by
  refine Meets.look_bind False.elim fun journal hjournal ↦ ?_
  refine Meets.look_bind False.elim fun hasActive hheld ↦ ?_
  obtain rfl := Option.some.inj hheld
  split_ifs with hother
  · exact Meets.pure (Cleared.refl hconsistent)
  · refine Meets.look_bind False.elim fun entry hentry ↦ ?_
    obtain rfl := Option.some.inj hentry
    rcases readJournal_cases hconsistent hjournal with ⟨rfl, hnone⟩ | ⟨admission, hguards, rfl⟩
    · -- without a journal and without an active operation there is no staging directory
      have hidle : world.store.hasActive = false := by
        simp only [notItsOwn, Bool.or_eq_true, not_or, Bool.not_eq_true] at hother
        exact hother.2
      have hclean : world.staging = none := by
        rcases hconsistent.staging with hnothing | hpresent | ⟨id, held, hheld, hheldActive⟩
        · exact hnothing
        · exact absurd hnone hpresent
        · rw [Store.hasActive_eq_false hidle hheld] at hheldActive
          cases hheldActive
      rw [hclean]
      have hpure : Meets False (removeStaging record none) world
          (Cleared system record.admission world) fun _ next ↦ next = world := Meets.pure rfl
      refine hpure.bind ?_
      rintro _ next rfl
      exact Meets.pure (Cleared.refl hconsistent)
    · have hsame : admission = record.admission := by
        simp only [notItsOwn, decide_eq_true_eq, not_not] at hother
        exact Admission.journal_inj hother
      rw [hsame] at hguards
      refine (removeStaging_cleared hconsistent hguards).bind ?_
      rintro _ between ⟨hbetween, hclean, hkept⟩
      have hbetweenGuards : between.Guards system record.admission := by
        rwa [World.Guards, hkept]
      refine removeFile_meets (Cleared system record.admission world) False.elim ?_
      intro _ next _ hedit
      have hgone : next.journal = none := hedit.entry_self
      have hstaging : next.staging = none :=
        (hedit.entry_ne journal_ne_staging.symm).trans hclean
      have hlast : Kept system between next := by
        refine kept_of_unguard hbetween.quiet.1.consistent hedit.store hgone hstaging
          hbetweenGuards ?_ hactive
        rw [hbetween.store]
        exact hrow
      have hcleared : Cleared system record.admission world next :=
        ⟨hbetween.quiet.trans ⟨hlast, hedit.root⟩, hedit.store.trans hbetween.store,
          .inr hguards⟩
      exact ⟨hcleared, hcleared⟩

theorem theRecord_bind {admission : Admission} {Answer : Type} {next : Record → Writer Answer}
    {Answered : Answer → World → Prop}
    (hanswers : total → ∃ record, world.store.record admission = some (some record))
    (h : ∀ record, world.store.row admission.operationId = some record →
      record.admission = admission → Meets total (next record) world Durable Answered) :
    Meets total (theRecord admission >>= next) world Durable Answered := by
  refine Meets.look_bind ?_ ?_
  · intro htotal
    obtain ⟨record, hrecord⟩ := hanswers htotal
    simp [hrecord]
  · intro record hrecord
    obtain ⟨hrow, hadmission⟩ := Store.record_eq_some (Option.join_eq_some_iff.mp hrecord)
    exact h record hrow hadmission

include hconsistent in
theorem progress_cleared {admission : Admission} :
    Meets False (progress system admission) world (Cleared system admission world)
      fun _ ↦ Cleared system admission world := by
  refine Meets.need_bind False.elim fun _ ↦ ?_
  refine Meets.look_bind False.elim fun row hrow ↦ ?_
  cases row with
  | none => exact Meets.pure (Cleared.refl hconsistent)
  | some record =>
    obtain ⟨hheld, rfl⟩ := Store.record_eq_some hrow
    simp only [progressOf]
    split
    · exact Meets.pure (Cleared.refl hconsistent)
    · exact Meets.pure (Cleared.refl hconsistent)
    · exact Meets.pure (Cleared.refl hconsistent)
    · exact Meets.refuse not_false
    · next outcome hphase _ =>
      have hactive : record.active = false := by simp [Record.active, hphase]
      refine (clearCompleted_cleared hconsistent hheld hactive).bind ?_
      intro _ next hnext
      split_ifs
      · exact Meets.pure hnext
      · exact Meets.pure hnext

/-! ### Preparation -/

variable {changes : List Change}

theorem needUnchanged_meets (hanswers : total → changes.all (world.unchanged system) = true) :
    Meets total (needUnchanged system changes) world Durable fun _ next ↦
      next = world ∧ changes.all (world.unchanged system) = true := by
  refine Meets.look ?_ ?_
  · intro htotal
    simp [hanswers htotal]
  · intro _ hunchanged
    split_ifs at hunchanged with hall
    exact ⟨rfl, hall⟩

variable {context : Json}

theorem admitOperation_row {admission : Admission} {prepared retained : Bool} {store : Store}
    (h : world.store.admitOperation system admission context changes prepared retained = some store) :
    world.store.hasActive = false ∧ world.store.row admission.operationId = none ∧
      ∃ record, record.admission = admission ∧ record.active = true ∧
        record.phase ≠ .finishing ∧ record.stage = none ∧
        RowStep record.admission.operationId record world { world with store := store } := by
  simp only [Store.admitOperation, Option.bind_eq_bind, Option.bind_eq_some_iff,
    Option.guard_eq_some'] at h
  obtain ⟨_, hidle, _, -, added, hadded, hinserted⟩ := h
  obtain ⟨hnew, -, hrows⟩ := Store.add_eq_some hadded
  obtain ⟨-, hoperations, -⟩ := Store.insertChanges_eq_some hinserted
  refine ⟨hidle, hnew, ⟨admission, context, retained, none,
    if prepared then .prepared else .applying, none⟩, rfl, ?_, ?_, rfl, rfl, rfl, fun other ↦ ?_⟩
  · cases prepared <;> rfl
  · cases prepared <;> simp
  · show store.row other = _
    rw [← hrows other, Store.row, Store.row, hoperations]

include hconsistent in
theorem admitInner_quiet {admission : Admission} {prepared retained : Bool} :
    Meets False (admitInner system admission context changes prepared retained) world
      (Quiet system world) fun _ ↦ Quiet system world := by
  refine Meets.need_bind False.elim fun _ ↦ ?_
  refine Meets.need_bind False.elim fun _ ↦ ?_
  refine Meets.look_bind False.elim fun journal hjournal ↦ ?_
  refine Meets.need_bind False.elim fun hmissing ↦ ?_
  subst hmissing
  refine Meets.look_bind False.elim fun entry hentry ↦ ?_
  obtain rfl := Option.some.inj hentry
  refine Meets.need_bind False.elim fun _ ↦ ?_
  refine (needUnchanged_meets False.elim).bind ?_
  rintro _ next ⟨rfl, -⟩
  have hnone : next.journal = none := by
    rcases readJournal_cases hconsistent hjournal with ⟨-, hnone⟩ | ⟨_, _, hsome⟩
    · exact hnone
    · cases hsome
  refine commit_meets (Quiet system next) False.elim ?_
  intro store hstore
  obtain ⟨hidle, hnew, record, rfl, _, hphase, -, hstep⟩ := admitOperation_row hstore
  have hkept : Kept system next { next with store := store } :=
    hstep.kept_add hconsistent hnew (fun _ ↦ ⟨hidle, hnone⟩) hphase
  exact ⟨⟨hkept, rfl⟩, hkept, rfl⟩

/-- What a prepared operation has. -/
structure Prepared (system : System) (admission : Admission) (world next : World) : Prop where
  quiet : Quiet system world next
  guards : next.Guards system admission
  row : ∃ record, next.HasRow admission record ∧ record.phase = .prepared ∧
    record.stage.isSome = true

section

variable (hconsistent : Consistent system world)
include hconsistent

theorem prepared_quiet {admission : Admission} :
    Meets False (prepared system admission) world (Quiet system world)
      fun _ ↦ Prepared system admission world := by
  refine theRecord_bind False.elim fun record hrow hadmission ↦ ?_
  subst hadmission
  refine Meets.need_bind False.elim fun hphase ↦ ?_
  refine Meets.look_bind False.elim fun changes _ ↦ ?_
  refine (needUnchanged_meets False.elim).bind ?_
  rintro _ next ⟨rfl, -⟩
  have hactive : Active record next := ⟨hrow, by simp [Record.active, hphase]⟩
  refine (staging_quiet hconsistent hactive).bind ?_
  rintro identity last ⟨hguarded, -⟩
  refine Meets.look_bind False.elim fun _ _ ↦ Meets.pure ?_
  obtain ⟨stage, -, hlast⟩ := hguarded.active
  exact ⟨hguarded.quiet, hguarded.guards, _, ⟨hlast.row, rfl⟩, hphase, rfl⟩

theorem start_quiet {admission : Admission} :
    Meets False (start system admission) world (Quiet system world)
      fun _ ↦ Quiet system world := by
  refine (prepared_quiet hconsistent).bind ?_
  rintro _ next ⟨hquiet, -, record, ⟨hrow, rfl⟩, hphase, hstage⟩
  refine commit_meets (Quiet system world) False.elim ?_
  intro store hstore
  obtain ⟨held, hheld, hallowed, -, hrows⟩ := Store.update_eq_some hstore
  obtain rfl : held = record := Option.some.inj (hheld.symm.trans hrow)
  have hstep : RowStep held.admission.operationId { held with phase := .applying } next
      { next with store := store } := ⟨rfl, rfl, hrows⟩
  have hkept : Kept system next { next with store := store } := by
    refine hstep.kept_update hquiet.1.consistent hrow (by simp [Record.active, hphase]) rfl id
      (.inl rfl) (by simp) ?_
    intro _ hstarted
    exact absurd hphase hstarted
  exact ⟨hquiet.trans ⟨hkept, rfl⟩, hquiet.trans ⟨hkept, rfl⟩⟩

theorem prepareContext_quiet {admission : Admission} {retain : Bool} :
    Meets False (prepareContext system admission context changes retain) world
      (Quiet system world) fun _ ↦ Quiet system world := by
  refine ((progress_cleared hconsistent).mono (fun _ h ↦ h.quiet) (fun _ _ h ↦ h)).bind ?_
  rintro current next ⟨hquiet, -, -⟩
  have hprepared : ∀ {start : World}, Quiet system world start →
      Meets False (prepared system admission) start (Quiet system world)
        fun _ ↦ Quiet system world := by
    intro start hstart
    exact (prepared_quiet hstart.1.consistent).mono (fun _ h ↦ hstart.trans h)
      (fun _ _ h ↦ hstart.trans h.quiet)
  cases current with
  | absent =>
    refine ((admitInner_quiet hquiet.1.consistent).mono (fun _ h ↦ hquiet.trans h)
      (fun _ _ h ↦ hquiet.trans h)).bind ?_
    intro _ admitted hadmitted
    exact hprepared hadmitted
  | prepared held =>
    refine theRecord_bind False.elim fun record _ _ ↦ ?_
    exact Meets.need_bind False.elim fun _ ↦ hprepared hquiet
  | applying held => exact Meets.refuse not_false
  | finishing => exact Meets.refuse not_false
  | completed outcome => exact Meets.pure hquiet
  | cancelled outcome => exact Meets.pure hquiet

end

/-! ### Cancellation -/

section

variable (hconsistent : Consistent system world)
include hconsistent

theorem notPublished_quiet (hrow : world.store.row record.admission.operationId = some record) :
    Meets False (notPublished system record.admission record) world (Quiet system world)
      fun _ next ↦ Quiet system world next ∧ (next.staging = none ∨ next.journal ≠ none) ∧
        ∃ held, next.HasRow record.admission held ∧ held.active = true ∧
          (held.phase = .prepared ∨ held.stage = none) := by
  unfold notPublished
  split_ifs with hphase
  · refine (prepared_quiet hconsistent).bind ?_
    rintro _ next ⟨hquiet, hguards, held, hheld, hheldPhase, -⟩
    refine Meets.pure ⟨hquiet, .inr ?_, held, hheld, by simp [Record.active, hheldPhase],
      .inl hheldPhase⟩
    obtain ⟨identity, hentry⟩ := hguards
    rw [hentry]
    simp
  · refine Meets.need_bind False.elim fun hearly ↦ ?_
    refine Meets.look_bind False.elim fun journal hjournal ↦ ?_
    refine Meets.need_bind False.elim fun _ ↦ ?_
    refine Meets.look_bind False.elim fun entry hentry ↦ ?_
    obtain rfl := Option.some.inj hentry
    refine Meets.need False.elim fun hstaging ↦ ⟨Quiet.refl hconsistent, .inl hstaging, record,
      ⟨hrow, rfl⟩, by simp [Record.active, hearly.1], .inr hearly.2⟩

theorem cancelRow_quiet {admission : Admission} {row : Option Record}
    (hrow : world.store.record admission = some row) :
    Meets False (cancelRow system admission row) world (Quiet system world)
      fun _ next ↦ Quiet system world next ∧ next.Cancelled admission := by
  have hclear : ∀ {start : World}, Quiet system world start → start.Cancelled admission →
      Meets False (theRecord admission >>= clearCompleted system) start (Quiet system world)
        fun _ next ↦ Quiet system world next ∧ next.Cancelled admission := by
    intro start hstart hcancelled
    refine theRecord_bind False.elim fun record hheld hadmission ↦ ?_
    subst hadmission
    obtain ⟨tombstone, htombstone, hdead⟩ := hcancelled
    have hsame : record = tombstone := Option.some.inj (hheld.symm.trans htombstone.1)
    have hactive : record.active = false := by
      rw [← hsame] at hdead
      simp only [Record.isTombstone, Bool.and_eq_true, decide_eq_true_eq] at hdead
      simp [Record.active, hdead.1]
    refine (clearCompleted_cleared hstart.1.consistent hheld hactive).mono
      (fun _ h ↦ hstart.trans h.quiet) ?_
    intro _ next hnext
    exact ⟨hstart.trans hnext.quiet,
      hnext.quiet.1.cancelled _ ⟨tombstone, htombstone, by rw [← hsame] at hdead ⊢; exact hdead⟩⟩
  have hcommitted : ∀ (start : World) (held : Record) (store : Store),
      Quiet system world start →
      RowStep admission.operationId held start { start with store := store } →
      held.admission = admission → held.isTombstone = true →
      Kept system start { start with store := store } →
      Quiet system world { start with store := store } ∧
        World.Cancelled admission { start with store := store } := by
    intro start held store hstart hstep hadmission htombstone hkept
    refine ⟨hstart.trans ⟨hkept, rfl⟩, held, ⟨?_, hadmission⟩, htombstone⟩
    rw [hstep.row, if_pos rfl]
  cases row with
  | none =>
    have hpure : Meets False (cancellable system admission none) world (Quiet system world)
        fun _ next ↦ next = world := Meets.pure rfl
    refine hpure.bind ?_
    rintro _ next rfl
    have hadd : Meets False (commit (·.cancel admission false)) next (Quiet system next)
        fun _ later ↦ Quiet system next later ∧ later.Cancelled admission := by
      refine commit_meets (fun later ↦ Quiet system next later ∧ later.Cancelled admission)
        False.elim ?_
      intro store hstore
      obtain ⟨hnew, -, hrows⟩ := Store.add_eq_some hstore
      have hstep : RowStep admission.operationId
          ⟨admission, .object [], false, none, .completed, some admission.cancellation⟩ next
          { next with store := store } := ⟨rfl, rfl, hrows⟩
      have hkept : Kept system next { next with store := store } :=
        hstep.kept_add hconsistent hnew (by simp [Record.active]) (by simp)
      have hdone := hcommitted next _ store (Quiet.refl hconsistent) hstep rfl
        (by simp [Record.isTombstone]) hkept
      exact ⟨hdone.1, hdone⟩
    refine hadd.bind ?_
    rintro _ later ⟨hlater, hcancelled⟩
    exact hclear hlater hcancelled
  | some record =>
    obtain ⟨hheld, rfl⟩ := Store.record_eq_some hrow
    have hfirst : Meets False (cancellable system record.admission (some record)) world
        (Quiet system world) fun _ next ↦ Quiet system world next ∧
          (next.staging = none ∨ next.journal ≠ none) ∧
          ∃ held, next.HasRow record.admission held ∧ held.active = true ∧
            (held.phase = .prepared ∨ held.stage = none) := by
      refine (notPublished_quiet hconsistent hheld).bind ?_
      intro _ next hnext
      refine Meets.look_bind False.elim fun changes _ ↦ ?_
      refine (needUnchanged_meets False.elim).mono (fun _ h ↦ h) ?_
      rintro _ last ⟨rfl, -⟩
      exact hnext
    refine hfirst.bind ?_
    rintro _ next ⟨hquiet, hclean, held, ⟨hheldRow, hheldAdmission⟩, hheldActive, hearly⟩
    have hupdate : Meets False (commit (·.cancel record.admission true)) next (Quiet system world)
        fun _ later ↦ Quiet system world later ∧ later.Cancelled record.admission := by
      refine commit_meets (fun later ↦ Quiet system world later ∧ later.Cancelled record.admission)
        False.elim ?_
      intro store hstore
      obtain ⟨updated, hupdated, rfl⟩ := Option.map_eq_some_iff.mp hstore
      obtain ⟨before, hbefore, -, -, hrows⟩ := Store.update_eq_some hupdated
      obtain rfl : before = held := Option.some.inj (hbefore.symm.trans hheldRow)
      have hrecord : RowStep record.admission.operationId
          (before.finished record.admission.cancellation) next
          { next with store := updated.deleteChanges record.admission.operationId } :=
        ⟨rfl, rfl, hrows⟩
      have hstep : RowStep before.admission.operationId
          (before.finished record.admission.cancellation) next
          { next with store := updated.deleteChanges record.admission.operationId } := by
        rw [hheldAdmission]
        exact hrecord
      have hkept : Kept system next
          { next with store := updated.deleteChanges record.admission.operationId } := by
        refine hstep.kept_update hquiet.1.consistent (hheldAdmission ▸ hheldRow) hheldActive rfl id
          (.inr hclean) (by simp [Record.finished]) ?_
        intro hstage hphase
        rcases hearly with hprepared | hnone
        · exact absurd hprepared hphase
        · rw [hnone] at hstage
          cases hstage
      have hdone := hcommitted next (before.finished record.admission.cancellation) _ hquiet
        hrecord hheldAdmission
        (by simp [Record.isTombstone, Record.finished, hheldAdmission]) hkept
      exact ⟨hdone.1, hdone⟩
    refine hupdate.bind ?_
    rintro _ later ⟨hlater, hcancelled⟩
    exact hclear hlater hcancelled

theorem cancel_quiet {admission : Admission} :
    Meets False (cancel system admission) world (Quiet system world)
      fun _ next ↦ Quiet system world next ∧ next.Cancelled admission := by
  refine Meets.need_bind False.elim fun _ ↦ ?_
  refine Meets.look_bind False.elim fun row hrow ↦ ?_
  have hcancel : Meets False (cancelFrom system admission row) world (Quiet system world)
      fun _ next ↦ Quiet system world next ∧ next.Cancelled admission := by
    unfold cancelFrom
    split
    · next tombstone htombstone =>
      obtain ⟨hrowIs, hdead⟩ := Option.filter_eq_some_iff.mp htombstone
      subst hrowIs
      obtain ⟨hheld, rfl⟩ := Store.record_eq_some hrow
      have hactive : tombstone.active = false := by
        simp only [Record.isTombstone, Bool.and_eq_true, decide_eq_true_eq] at hdead
        simp [Record.active, hdead.1]
      refine (clearCompleted_cleared hconsistent hheld hactive).mono (fun _ h ↦ h.quiet) ?_
      intro _ next hnext
      exact ⟨hnext.quiet, hnext.quiet.1.cancelled _ ⟨tombstone, ⟨hheld, rfl⟩, hdead⟩⟩
    · exact cancelRow_quiet hconsistent hrow
  refine hcancel.bind ?_
  intro _ next hnext
  exact Meets.pure hnext

end

/-! ### Publication and completion -/

theorem theChanges_bind {admission : Admission} {Answer : Type} {next : List Change → Writer Answer}
    {Answered : Answer → World → Prop}
    (hanswers : total → (world.store.changesOf admission.operationId).isSome)
    (h : ∀ changes, changes = world.store.held admission.operationId →
      (∀ change ∈ changes, ∀ content ∈ change.after, content.validate = true) →
      Meets total (next changes) world Durable Answered) :
    Meets total (theChanges admission >>= next) world Durable Answered := by
  refine Meets.look_bind hanswers fun changes hchanges ↦ ?_
  obtain ⟨hheld, hvalid⟩ := Store.changesOf_eq_some hchanges
  exact h changes hheld hvalid

theorem verify_meets (hanswers : total → changes.all (verified system world) = true) :
    Meets total (verify system changes) world Durable fun _ next ↦
      next = world ∧ changes.all (verified system world) = true := by
  refine Meets.look ?_ ?_
  · intro htotal
    simp [hanswers htotal]
  · intro _ hverified
    split_ifs at hverified with hall
    exact ⟨rfl, hall⟩

section

variable (hconsistent : Consistent system world)
include hconsistent

theorem finish_quiet {admission : Admission} {outcome : Json}
    (houtcome : outcome ≠ admission.cancellation) :
    Meets False (finish system admission changes outcome) world (Quiet system world)
      fun _ ↦ Quiet system world := by
  refine theRecord_bind False.elim fun record hrow hadmission ↦ ?_
  subst hadmission
  refine Meets.need_bind False.elim fun hphase ↦ ?_
  refine theChanges_bind False.elim fun existing _ _ ↦ ?_
  refine Meets.need_bind False.elim fun _ ↦ ?_
  refine (verify_meets False.elim).bind ?_
  rintro _ next ⟨rfl, -⟩
  refine (needUnchanged_meets False.elim).bind ?_
  rintro _ next ⟨rfl, -⟩
  refine commit_meets (Quiet system next) False.elim ?_
  intro store hstore
  simp only [Store.finish, Option.bind_eq_bind, Option.bind_eq_some_iff,
    Option.guard_eq_some'] at hstore
  obtain ⟨_, -, inserted, hinserted, hupdated⟩ := hstore
  obtain ⟨-, hoperations, -⟩ := Store.insertChanges_eq_some hinserted
  obtain ⟨held, hheld, -, -, hrows⟩ := Store.update_eq_some hupdated
  have hinsertedRow : ∀ id, inserted.row id = next.store.row id := by
    intro id
    rw [Store.row, Store.row, hoperations]
  obtain rfl : held = record :=
    Option.some.inj (hheld.symm.trans ((hinsertedRow _).trans hrow))
  have hstep : RowStep held.admission.operationId
      { held with phase := .finishing, outcome := some outcome } next
      { next with store := store } := by
    refine ⟨rfl, rfl, fun other ↦ ?_⟩
    rw [← hinsertedRow]
    exact hrows other
  have hkept : Kept system next { next with store := store } := by
    refine hstep.kept_update hconsistent hrow (by simp [Record.active, hphase]) rfl id (.inl rfl) ?_
      ?_
    · intro _ hsame
      exact houtcome (Option.some.inj hsame)
    · intro _ _
      exact ⟨by simp, by simp [Record.isTombstone]⟩
  exact ⟨⟨hkept, rfl⟩, hkept, rfl⟩

theorem complete_quiet {admission : Admission} :
    Meets False (complete system admission) world (Quiet system world)
      fun _ ↦ Quiet system world := by
  refine theRecord_bind False.elim fun record hrow hadmission ↦ ?_
  subst hadmission
  refine Meets.need_bind False.elim fun hphase ↦ ?_
  refine theChanges_bind False.elim fun existing _ _ ↦ ?_
  refine (verify_meets False.elim).bind ?_
  rintro _ next ⟨rfl, -⟩
  have hactive : Active record next := ⟨hrow, by simp [Record.active, hphase]⟩
  refine (staging_quiet hconsistent hactive).bind ?_
  rintro identity guarded ⟨⟨hquiet, hguards, stage, -, hrecord⟩, -⟩
  refine Meets.look_bind False.elim fun _ _ ↦ ?_
  have hcommit : Meets False (commit (·.complete record.admission.operationId)) guarded
      (Quiet system next) fun _ later ↦ Quiet system next later ∧
        ∃ completed, later.store.row record.admission.operationId = some completed ∧
          completed.active = false := by
    refine commit_meets (fun later ↦ Quiet system next later ∧
        ∃ completed, later.store.row record.admission.operationId = some completed ∧
          completed.active = false) False.elim ?_
    intro store hstore
    have hlive := hconsistent.outcome _ record hrow hphase
    have hpresent : guarded.journal ≠ none := by
      obtain ⟨file, hentry⟩ := hguards
      rw [hentry]
      simp
    obtain ⟨current, hcurrent⟩ : ∃ current : Record,
        current = { record with stage := some stage } := ⟨_, rfl⟩
    have hadmission : current.admission = record.admission := by rw [hcurrent]
    have houtcome : current.outcome = record.outcome := by rw [hcurrent]
    rw [← hcurrent] at hrecord
    obtain ⟨held, hheld, -, -, hrows⟩ := Store.update_eq_some hstore
    rw [← hadmission] at hheld hrows ⊢
    obtain rfl : held = current := Option.some.inj (hheld.symm.trans hrecord.row)
    have hstep : RowStep held.admission.operationId
        { held with phase := .completed, context := held.terminalContext } guarded
        { guarded with store := store } := ⟨rfl, rfl, hrows⟩
    have hkept : Kept system guarded { guarded with store := store } := by
      refine hstep.kept_update hquiet.1.consistent hrecord.row hrecord.active rfl id
        (.inr (.inr hpresent)) (by simp) ?_
      intro _ _
      refine ⟨by simp, ?_⟩
      simp [Record.isTombstone, hadmission, houtcome, hlive]
    have hrow' := hstep.row held.admission.operationId
    rw [if_pos rfl] at hrow'
    exact ⟨hquiet.trans ⟨hkept, rfl⟩, hquiet.trans ⟨hkept, rfl⟩, _, hrow', rfl⟩
  refine hcommit.bind ?_
  rintro _ committed ⟨hcommitted, held, hheld, hdead⟩
  refine theRecord_bind False.elim fun completed hcompleted hadmission ↦ ?_
  have hsame : completed = held := Option.some.inj (hcompleted.symm.trans hheld)
  have hclear := clearCompleted_cleared hcommitted.1.consistent (hadmission ▸ hcompleted)
    (hsame ▸ hdead)
  refine (hclear.mono (fun _ h ↦ hcommitted.trans h.quiet) (fun _ _ h ↦ h)).bind ?_
  intro _ last hlast
  exact Meets.look False.elim fun _ _ ↦ hcommitted.trans hlast.quiet

/-- What a publication of a managed file keeps. -/
theorem publish_kept {name : String} {change : Change}
    (hcontent : ∀ content ∈ change.after, content.validate = true) :
    Meets False (publish system .root name change) world (Kept system world)
      fun _ ↦ Kept system world := by
  have hkept : ∀ next, Publishing .root name change world next → Kept system world next := by
    intro next hnext
    have hjournal : next.journal = world.journal :=
      hnext.control _ journal_ne_staged fun hbase ↦ by cases hbase
    have hstaging : next.staging = world.staging :=
      hnext.control _ (by simp) fun hbase ↦ by cases hbase
    exact kept_of_control hconsistent hnext.store hjournal (.inr (.inl hstaging))
  refine (publish_meets (fun hbase ↦ by cases hbase) hcontent False.elim).mono hkept ?_
  rintro _ next (⟨rfl, -⟩ | ⟨hpublishing, -, -⟩)
  · exact Kept.refl hconsistent
  · exact hkept next hpublishing

/-- Until the operation has started, applying it changes no managed file. -/
theorem applyChecked_tracks {admission : Admission} {authorized : Nat → Bool} :
    Tracks (applyChecked system admission authorized) world (Quiet system world)
      fun next ↦ Kept system world next ∧ next.Started system admission := by
  have hrecord : Meets False (theRecord admission) world (Quiet system world)
      fun record next ↦ next = world ∧ world.HasRow admission record := by
    refine Meets.look False.elim fun record hrecord ↦ ?_
    exact ⟨rfl, Store.record_eq_some (Option.join_eq_some_iff.mp hrecord)⟩
  refine Tracks.bind hrecord ?_
  rintro record world ⟨rfl, hrow, rfl⟩
  have hneed : Meets False (need (record.phase = .applying ∨ record.phase = .finishing)) world
      (Quiet system world) fun _ next ↦
        (record.phase = .applying ∨ record.phase = .finishing) ∧ next = world :=
    Meets.need False.elim fun hphase ↦ ⟨hphase, rfl⟩
  refine Tracks.bind hneed ?_
  rintro _ next ⟨hphase, rfl⟩
  have hactive : Active record next := by
    refine ⟨hrow, ?_⟩
    rcases hphase with hphase | hphase <;> simp [Record.active, hphase]
  refine Tracks.bind (staging_quiet hconsistent hactive) ?_
  rintro identity guarded ⟨⟨hquiet, hguards, stage, -, hcurrent⟩, -⟩
  have hstarted : guarded.Started system record.admission := by
    refine ⟨_, ⟨hcurrent.row, rfl⟩, rfl, ?_, not_isTombstone_of_active hcurrent.active,
      fun _ ↦ hguards⟩
    rcases hphase with hphase | hphase <;> simp [hphase]
  refine Tracks.of_second (fun _ _ ↦ True)
    (theChanges_bind False.elim fun changes _ hvalid ↦ ?_)
  have hloop : Meets False (forEach (applyOne system identity authorized) changes.zipIdx) guarded
      (fun later ↦ Kept system next later ∧ later.Started system record.admission)
      fun _ later ↦ Kept system next later ∧ later.Started system record.admission := by
    refine Meets.forEach
      (fun _ later ↦ Kept system next later ∧ later.Started system record.admission)
      ⟨hquiet.1, hstarted⟩ ?_
    rintro before item after hitems state ⟨hstate, hstateStarted⟩
    have hitem : item.1 ∈ changes := by
      have hmem : item ∈ changes.zipIdx := by rw [hitems]; simp
      exact (List.mem_zipIdx' hmem).2 ▸ List.getElem_mem _
    have hnext : ∀ later, Kept system state later →
        Kept system next later ∧ later.Started system record.admission :=
      fun later hlater ↦ ⟨hstate.trans hlater, hlater.started _ hstateStarted⟩
    refine Meets.look_bind False.elim fun _ _ ↦ ?_
    refine Meets.need_bind False.elim fun _ ↦ ?_
    exact (publish_kept hstate.consistent (hvalid item.1 hitem)).mono hnext fun _ ↦ hnext
  refine hloop.bind ?_
  intro _ last _
  exact (verify_meets False.elim).mono (fun _ h ↦ h) fun _ _ _ ↦ trivial

end

/-! ### Histories -/

/-- The calls of the writer. -/
inductive Call where
  | admitOperation (admission : Admission) (context : Json) (changes : List Change)
  | prepare (admission : Admission) (context : Json) (changes : List Change) (retain : Bool)
  | prepared (admission : Admission)
  | start (admission : Admission)
  | apply (admission : Admission) (authorized : Nat → Bool)
  | finish (admission : Admission) (changes : List Change) (outcome : Json)
  | complete (admission : Admission)
  | cancel (admission : Admission)
  | progress (admission : Admission)

def Call.admission : Call → Admission
  | .admitOperation admission _ _ => admission
  | .prepare admission _ _ _ => admission
  | .prepared admission => admission
  | .start admission => admission
  | .apply admission _ => admission
  | .finish admission _ _ => admission
  | .complete admission => admission
  | .cancel admission => admission
  | .progress admission => admission

/-- The program without its answer. -/
def silent {Answer : Type} (program : Writer Answer) : Writer Unit := do
  let _ ← program
  pure ()

def Call.program (system : System) : Call → Writer Unit
  | .admitOperation admission context changes => Installation.admitOperation system admission context changes
  | .prepare admission context changes retain =>
    silent (prepareContext system admission context changes retain)
  | .prepared admission => silent (Installation.prepared system admission)
  | .start admission => Installation.start system admission
  | .apply admission authorized => applyChecked system admission authorized
  | .finish admission changes outcome => Installation.finish system admission changes outcome
  | .complete admission => silent (Installation.complete system admission)
  | .cancel admission => silent (Installation.cancel system admission)
  | .progress admission => silent (Installation.progress system admission)

/-- A finished operation records an outcome of its own. -/
def Call.Records : Call → Prop
  | .finish admission _ outcome => outcome ≠ admission.cancellation
  | _ => True

instance (call : Call) : Decidable call.Records := by
  cases call <;> unfold Call.Records <;> infer_instance

/-- A call with the states that it passed until it answered, refused or crashed. -/
structure Event where
  call : Call
  succeeded : Bool
  before : World
  visited : List World

/-- The call changed a managed file. -/
def Event.Writes (event : Event) : Prop :=
  ∃ world ∈ event.visited, world.root ≠ event.before.root

/-- The call changed the number of entries of the target. -/
def Event.Grows (event : Event) : Bool :=
  event.visited.any fun world ↦ world.root.entries.length ≠ event.before.root.entries.length

theorem writes_of_grows {event : Event} (h : event.Grows = true) : event.Writes := by
  obtain ⟨world, hworld, hlength⟩ := List.any_eq_true.mp h
  refine ⟨world, hworld, fun hsame ↦ ?_⟩
  simp [hsame] at hlength

structure Chronicle where
  world : World
  events : List Event

/-- A call that may crash after some of its durable steps, or an edit of the managed files by
someone else. -/
inductive Action where
  | call (call : Call) (crash : Option Nat)
  | edit (root : Tree)

def Action.Records : Action → Prop
  | .call made _ => made.Records
  | .edit _ => True

instance (action : Action) : Decidable action.Records := by
  cases action <;> unfold Action.Records <;> infer_instance

/-- The states that a call passes before it ends or crashes. -/
def visitedBy (run : Run World Unit) : Option Nat → List World
  | none => run.passed
  | some count => run.passed.take count

def step (system : System) (chronicle : Chronicle) : Action → Chronicle
  | .call call crash =>
    let run := call.program system chronicle.world
    let visited := visitedBy run crash
    { world := visited.getLastD chronicle.world
      events := chronicle.events ++
        [{ call := call
           succeeded := crash.isNone && run.answer.isSome
           before := chronicle.world
           visited := visited }] }
  | .edit root => { chronicle with world := { chronicle.world with root := root } }

/-- A target whose control directory is new. -/
def Chronicle.initial (root : Tree) : Chronicle :=
  { world :=
      { store := { operations := [], changes := [] }
        root := root
        control := { entries := [], closed := by intro path hpath; cases hpath } }
    events := [] }

theorem silent_passed {Answer : Type} {program : Writer Answer} {Answered : Answer → World → Prop}
    (h : Meets False program world Durable Answered) :
    Meets False (silent program) world Durable fun _ _ ↦ True := by
  refine h.bind ?_
  intro _ next _
  exact Meets.pure trivial

variable {After : World → Prop}

theorem silent_meets {Answer : Type} {program : Writer Answer}
    (h : Meets False program world Durable fun _ ↦ After) :
    Meets False (silent program) world Durable fun _ ↦ After := by
  refine h.bind ?_
  intro _ next hnext
  exact Meets.pure hnext

include hconsistent in
theorem call_tracks {call : Call} (hrecords : call.Records) :
    Tracks (call.program system) world (Quiet system world)
      fun next ↦ Kept system world next ∧ next.Started system call.admission := by
  cases call with
  | admitOperation admission context changes => exact Tracks.of_first (admitInner_quiet hconsistent)
  | prepare admission context changes retain =>
    exact Tracks.of_first (silent_passed (prepareContext_quiet hconsistent))
  | prepared admission => exact Tracks.of_first (silent_passed (prepared_quiet hconsistent))
  | start admission => exact Tracks.of_first (start_quiet hconsistent)
  | apply admission authorized => exact applyChecked_tracks hconsistent
  | finish admission changes outcome => exact Tracks.of_first (finish_quiet hconsistent hrecords)
  | complete admission => exact Tracks.of_first (silent_passed (complete_quiet hconsistent))
  | cancel admission => exact Tracks.of_first (silent_passed (cancel_quiet hconsistent))
  | progress admission =>
    have hcleared : Meets False (progress system admission) world (Cleared system admission world)
        fun _ ↦ Cleared system admission world := progress_cleared hconsistent
    exact Tracks.of_first (silent_passed (hcleared.mono (fun _ h ↦ h.quiet) (fun _ _ h ↦ h)))

/-- The operation is completed or cancelled. -/
def World.Completed (admission : Admission) (world : World) : Prop :=
  ∃ record, world.HasRow admission record ∧ record.active = false

/-- The control directory holds what belongs to the operation. -/
def World.Owns (system : System) (admission : Admission) (world : World) : Prop :=
  world.Guards system admission ∨ ∃ record, world.HasRow admission record ∧ record.active = true

/-- A replay of a completed operation touches the control directory only under its own journal. -/
def Untouched (system : System) (admission : Admission) (world next : World) : Prop :=
  next = world ∨ world.Guards system admission

/-- A program that needs an active operation refuses a completed one. -/
theorem refused_of_completed {admission : Admission} {Answer : Type} (needed : Record → Prop)
    [DecidablePred needed] {next : Record → Writer Answer} (hcompleted : world.Completed admission)
    (hneeded : ∀ record, needed record → record.active = true) :
    Meets False (theRecord admission >>= fun record ↦ need (needed record) >>= fun _ ↦ next record)
      world (Untouched system admission world) fun _ ↦ After := by
  refine theRecord_bind False.elim fun record hrow _ ↦ ?_
  refine Meets.need_bind False.elim fun hneed ↦ ?_
  obtain ⟨held, hheld, hdead⟩ := hcompleted
  have hsame : record = held := Option.some.inj (hrow.symm.trans hheld.1)
  rw [← hsame, hneeded record hneed] at hdead
  cases hdead

theorem admitInner_of_completed {admission : Admission} {prepared retained : Bool}
    (hcompleted : world.Completed admission) :
    Meets False (admitInner system admission context changes prepared retained) world
      (Untouched system admission world) fun _ ↦ After := by
  refine Meets.need_bind False.elim fun _ ↦ ?_
  refine Meets.need_bind False.elim fun _ ↦ ?_
  refine Meets.look_bind False.elim fun _ _ ↦ ?_
  refine Meets.need_bind False.elim fun _ ↦ ?_
  refine Meets.look_bind False.elim fun _ _ ↦ ?_
  refine Meets.need_bind False.elim fun _ ↦ ?_
  refine (needUnchanged_meets False.elim).bind ?_
  rintro _ next ⟨rfl, -⟩
  refine commit_meets After False.elim ?_
  intro store hstore
  obtain ⟨held, hheld, -⟩ := hcompleted
  have hnew := (admitOperation_row hstore).2.1
  rw [hheld.1] at hnew
  cases hnew

section

variable (hconsistent : Consistent system world)
include hconsistent

theorem progress_of_completed {admission : Admission} (hcompleted : world.Completed admission) :
    Meets False (progress system admission) world (Untouched system admission world)
      fun progress next ↦ Untouched system admission world next ∧
        ((∃ outcome, progress = .completed outcome) ∨ ∃ outcome, progress = .cancelled outcome) := by
  refine Meets.need_bind False.elim fun _ ↦ ?_
  refine Meets.look_bind False.elim fun row hrow ↦ ?_
  obtain ⟨held, hheld, hdead⟩ := hcompleted
  cases row with
  | none =>
    have hnone := hheld.1
    rw [Store.record_eq_none hrow] at hnone
    cases hnone
  | some record =>
    obtain ⟨hrecord, hadmission⟩ := Store.record_eq_some hrow
    have hsame : record = held := Option.some.inj (hrecord.symm.trans hheld.1)
    have hactive : record.active = false := hsame ▸ hdead
    have hphase : record.phase = .completed := by simpa [Record.active] using hactive
    simp only [progressOf, hphase]
    split
    · next h => cases h
    · next h => cases h
    · next h => cases h
    · exact Meets.refuse not_false
    · next outcome _ _ =>
      have hclear := clearCompleted_cleared hconsistent (hadmission ▸ hrecord) hactive
      rw [hadmission] at hclear
      refine (hclear.mono (fun _ h ↦ h.own) (fun _ _ h ↦ h)).bind ?_
      intro _ next hnext
      split_ifs
      · exact Meets.pure ⟨hnext.own, .inr ⟨outcome, rfl⟩⟩
      · exact Meets.pure ⟨hnext.own, .inl ⟨outcome, rfl⟩⟩

theorem cancel_of_completed {admission : Admission} (hcompleted : world.Completed admission) :
    Meets False (cancel system admission) world (Untouched system admission world)
      fun _ ↦ Untouched system admission world := by
  refine Meets.need_bind False.elim fun _ ↦ ?_
  refine Meets.look_bind False.elim fun row hrow ↦ ?_
  obtain ⟨held, hheld, hdead⟩ := hcompleted
  cases row with
  | none =>
    have hnone := hheld.1
    rw [Store.record_eq_none hrow] at hnone
    cases hnone
  | some record =>
    obtain ⟨hrecord, hadmission⟩ := Store.record_eq_some hrow
    have hsame : record = held := Option.some.inj (hrecord.symm.trans hheld.1)
    have hactive : record.active = false := hsame ▸ hdead
    have hphase : record.phase = .completed := by simpa [Record.active] using hactive
    have hcancel : Meets False (cancelFrom system admission (some record)) world
        (Untouched system admission world) fun _ ↦ Untouched system admission world := by
      unfold cancelFrom
      split
      · next tombstone htombstone =>
        obtain rfl := Option.some.inj (Option.filter_eq_some_iff.mp htombstone).1
        have hclear := clearCompleted_cleared hconsistent (hadmission ▸ hrecord) hactive
        rw [hadmission] at hclear
        exact hclear.mono (fun _ h ↦ h.own) fun _ _ h ↦ h.own
      · have hrefused : Meets False (notPublished system admission record) world
            (Untouched system admission world) fun _ _ ↦ False := by
          unfold notPublished
          rw [if_neg (by simp [hphase])]
          refine Meets.need_bind False.elim fun hearly ↦ ?_
          rw [hphase] at hearly
          cases hearly.1
        have hrow : Meets False (cancellable system admission (some record)) world
            (Untouched system admission world) fun _ _ ↦ False :=
          hrefused.bind fun _ _ h ↦ h.elim
        exact hrow.bind fun _ _ h ↦ h.elim
    refine hcancel.bind ?_
    intro _ next hnext
    exact Meets.pure hnext

theorem prepareContext_of_completed {admission : Admission} {retain : Bool}
    (hcompleted : world.Completed admission) :
    Meets False (prepareContext system admission context changes retain) world
      (Untouched system admission world) fun _ _ ↦ True := by
  refine (progress_of_completed hconsistent hcompleted).bind ?_
  rintro current next ⟨-, ⟨outcome, rfl⟩ | ⟨outcome, rfl⟩⟩
  · exact Meets.pure trivial
  · exact Meets.pure trivial

end

theorem prepared_of_completed {admission : Admission} (hcompleted : world.Completed admission) :
    Meets False (prepared system admission) world (Untouched system admission world)
      fun _ _ ↦ False := by
  refine refused_of_completed (fun record ↦ record.phase = .prepared) hcompleted ?_
  intro record hphase
  simp [Record.active, hphase]

include hconsistent in
theorem call_of_completed {call : Call} (hcompleted : world.Completed call.admission) :
    ∀ next ∈ (call.program system world).passed, Untouched system call.admission world next := by
  have hsilent : ∀ {Answer : Type} {program : Writer Answer} {admission : Admission}
      {Answered : Answer → World → Prop},
      Meets False program world (Untouched system admission world) Answered →
      ∀ next ∈ (silent program world).passed, Untouched system admission world next :=
    fun h ↦ (silent_passed h).passed
  cases call with
  | admitOperation admission context changes =>
    have hrefused : Meets False (admitInner system admission context changes false false) world
        (Untouched system admission world) fun _ _ ↦ True := admitInner_of_completed hcompleted
    exact hrefused.passed
  | prepare admission context changes retain =>
    exact hsilent (prepareContext_of_completed hconsistent hcompleted)
  | prepared admission => exact hsilent (prepared_of_completed hcompleted)
  | start admission =>
    have hrefused : Meets False (start system admission) world
        (Untouched system admission world) fun _ _ ↦ False :=
      (prepared_of_completed hcompleted).bind fun _ _ (h : False) ↦ h.elim
    exact hrefused.passed
  | apply admission authorized =>
    have hrefused : Meets False (applyChecked system admission authorized) world
        (Untouched system admission world) fun _ _ ↦ True := by
      refine refused_of_completed (fun record ↦ record.phase = .applying ∨
        record.phase = .finishing) hcompleted ?_
      rintro record (hphase | hphase)
      · simp [Record.active, hphase]
      · simp [Record.active, hphase]
    exact hrefused.passed
  | finish admission changes outcome =>
    have hrefused : Meets False (finish system admission changes outcome) world
        (Untouched system admission world) fun _ _ ↦ True := by
      refine refused_of_completed (fun record ↦ record.phase = .applying) hcompleted ?_
      intro record hphase
      simp [Record.active, hphase]
    exact hrefused.passed
  | complete admission =>
    have hrefused : Meets False (complete system admission) world
        (Untouched system admission world) fun _ _ ↦ True := by
      refine refused_of_completed (fun record ↦ record.phase = .finishing) hcompleted ?_
      intro record hphase
      simp [Record.active, hphase]
    exact hsilent hrefused
  | cancel admission => exact hsilent (cancel_of_completed hconsistent hcompleted)
  | progress admission => exact hsilent (progress_of_completed hconsistent hcompleted)

include hconsistent in
/-- A replay leaves what belongs to another operation alone. -/
theorem control_of_replay {call : Call} {other : Admission} {next : World}
    (hcompleted : world.Completed call.admission) (hother : other ≠ call.admission)
    (howns : world.Owns system other) (hnext : next ∈ (call.program system world).passed) :
    next.control = world.control := by
  rcases call_of_completed hconsistent hcompleted next hnext with rfl | hguards
  · rfl
  · exfalso
    rcases howns with hotherGuards | ⟨record, hrow, hactive⟩
    · exact hother (guards_inj hotherGuards hguards)
    · rcases hconsistent.journal with hnone | ⟨admission, held, hheldGuards, hheld, -, honly⟩
      · obtain ⟨identity, hentry⟩ := hguards
        rw [hnone] at hentry
        cases hentry
      · have hsame : admission = call.admission := guards_inj hheldGuards hguards
        have hid := honly _ record hrow.1 hactive
        rw [hsame] at hid
        obtain ⟨done, hdone, hdead⟩ := hcompleted
        have hrecord := hrow.1
        rw [hid] at hrecord
        have hboth : record = done := Option.some.inj (hrecord.symm.trans hdone.1)
        rw [← hboth, hactive] at hdead
        cases hdead

/-! ### Every run -/

/-- What holds at every moment of a run. -/
structure Safe (system : System) (chronicle : Chronicle) : Prop where
  /-- A cancellation that succeeded is committed, and stays so. -/
  cancelled : ∀ event ∈ chronicle.events, ∀ admission, event.call = .cancel admission →
    event.succeeded = true → chronicle.world.Cancelled admission
  permanent : ∀ event ∈ chronicle.events, ∀ admission, event.before.Cancelled admission →
    chronicle.world.Cancelled admission
  /-- No call of a cancelled operation has changed a managed file, before or after. -/
  final : ∀ admission, chronicle.world.Cancelled admission → ∀ event ∈ chronicle.events,
    event.call.admission = admission → ¬ event.Writes
  /-- The replay of a completed operation leaves the guard and the staging directory of another
  one as they are. -/
  replay : ∀ event ∈ chronicle.events, event.before.Completed event.call.admission →
    ∀ other, other ≠ event.call.admission → event.before.Owns system other →
    ∀ world ∈ event.visited, world.control = event.before.control
  /-- What is in the control directory belongs to an operation. -/
  owned : chronicle.world.journal ≠ none ∨ chronicle.world.staging ≠ none →
    ∃ admission, chronicle.world.Owns system admission
  /-- At most one operation is active. -/
  single : ∀ first second one other, chronicle.world.store.row first = some one →
    chronicle.world.store.row second = some other → one.active = true → other.active = true →
    first = second
  /-- As long as an operation that has changed a file is active its journal is present. -/
  guarded : ∀ event ∈ chronicle.events, event.Writes → ∀ record,
    chronicle.world.HasRow event.call.admission record → record.active = true →
    chronicle.world.Guards system event.call.admission

/-- The invariant of a run. -/
structure Recorded (system : System) (chronicle : Chronicle) : Prop where
  consistent : Consistent system chronicle.world
  wrote : ∀ event ∈ chronicle.events, event.Writes →
    chronicle.world.Started system event.call.admission
  cancelled : ∀ event ∈ chronicle.events, ∀ admission, event.call = .cancel admission →
    event.succeeded = true → chronicle.world.Cancelled admission
  permanent : ∀ event ∈ chronicle.events, ∀ admission, event.before.Cancelled admission →
    chronicle.world.Cancelled admission
  replay : ∀ event ∈ chronicle.events, event.before.Completed event.call.admission →
    ∀ other, other ≠ event.call.admission → event.before.Owns system other →
    ∀ world ∈ event.visited, world.control = event.before.control

variable {chronicle : Chronicle}

theorem Recorded.safe (h : Recorded system chronicle) :
    Safe system chronicle where
  cancelled := h.cancelled
  permanent := h.permanent
  final := by
    rintro admission hcancelled event hevent rfl hwrites
    exact not_started_and_cancelled (h.wrote event hevent hwrites) hcancelled
  replay := h.replay
  owned := by
    intro hpresent
    rcases h.consistent.journal with hnone | ⟨admission, record, hguards, -⟩
    · have hstaging : chronicle.world.staging ≠ none := hpresent.resolve_left fun h ↦ h hnone
      rcases h.consistent.staging with hclean | hjournal | ⟨id, record, hrow, hactive⟩
      · exact absurd hclean hstaging
      · exact absurd hnone hjournal
      · refine ⟨record.admission, .inr ⟨record, ⟨?_, rfl⟩, hactive⟩⟩
        rw [h.consistent.keyed id record hrow]
        exact hrow
    · exact ⟨admission, .inl hguards⟩
  single := h.consistent.single
  guarded := by
    intro event hevent hwrites record hrow hactive
    obtain ⟨held, hheld, -, -, -, hguards⟩ := h.wrote event hevent hwrites
    have hsame : held = record := Option.some.inj (hheld.1.symm.trans hrow.1)
    exact hguards (hsame ▸ hactive)

theorem prefix_visitedBy (run : Run World Unit) (crash : Option Nat) :
    visitedBy run crash <+: run.passed := by
  cases crash with
  | none => exact List.prefix_rfl
  | some count => exact List.take_prefix count run.passed

/-- What a new event and the state after it keep of the run before. -/
theorem Recorded.extend {event : Event} (h : Recorded system chronicle)
    (hbefore : event.before = chronicle.world) (hkept : Kept system chronicle.world world)
    (hwrites : event.Writes → world.Started system event.call.admission)
    (hcancelled : ∀ admission, event.call = .cancel admission → event.succeeded = true →
      world.Cancelled admission) (hreplay : event.before.Completed event.call.admission →
      ∀ other, other ≠ event.call.admission → event.before.Owns system other →
      ∀ world ∈ event.visited, world.control = event.before.control) :
    Recorded system { world := world, events := chronicle.events ++ [event] } := by
  have hsplit : ∀ {Property : Event → Prop}, (∀ held ∈ chronicle.events, Property held) →
      Property event → ∀ held ∈ chronicle.events ++ [event], Property held := by
    intro Property hold hnew held hheld
    rcases List.mem_append.mp hheld with hmem | hlast
    · exact hold held hmem
    · rwa [List.mem_singleton.mp hlast]
  refine ⟨hkept.consistent, hsplit ?_ hwrites, hsplit ?_ hcancelled, hsplit ?_ ?_,
    hsplit h.replay hreplay⟩
  · exact fun held hheld hheldWrites ↦ hkept.started _ (h.wrote held hheld hheldWrites)
  · exact fun held hheld admission hcall hsucceeded ↦
      hkept.cancelled _ (h.cancelled held hheld admission hcall hsucceeded)
  · exact fun held hheld admission hdone ↦
      hkept.cancelled _ (h.permanent held hheld admission hdone)
  · exact fun admission hdone ↦ hkept.cancelled _ (hbefore ▸ hdone)

theorem step_recorded {action : Action} (h : Recorded system chronicle)
    (hrecords : action.Records) :
    Recorded system (step system chronicle action) := by
  cases action with
  | edit root =>
    have hkept : Kept system chronicle.world { chronicle.world with root := root } :=
      kept_of_control h.consistent rfl rfl (.inr (.inl rfl))
    exact ⟨hkept.consistent,
      fun event hevent hwrites ↦ hkept.started _ (h.wrote event hevent hwrites),
      fun event hevent admission hcall hsucceeded ↦
        hkept.cancelled _ (h.cancelled event hevent admission hcall hsucceeded),
      fun event hevent admission hdone ↦
        hkept.cancelled _ (h.permanent event hevent admission hdone), h.replay⟩
  | call made crash =>
    have hvisited := prefix_visitedBy (made.program system chronicle.world) crash
    have htracks := call_tracks h.consistent hrecords _ hvisited
    refine h.extend rfl ?_ ?_ ?_ ?_
    · rcases htracks with hquiet | ⟨hkept, -⟩
      · rcases List.eq_nil_or_concat (visitedBy (made.program system chronicle.world) crash) with
          hnil | ⟨before, last, hlast⟩
        · simpa [hnil] using Kept.refl h.consistent
        · have hmem := hquiet last (by simp [hlast])
          simpa [hlast] using hmem.1
      · exact hkept
    · rintro ⟨world, hworld, hroot⟩
      rcases htracks with hquiet | ⟨-, hstarted⟩
      · exact absurd (hquiet world hworld).2 hroot
      · exact hstarted
    · rintro admission hcall hsucceeded
      have hmade : made = .cancel admission := hcall
      subst hmade
      simp only [Bool.and_eq_true, Option.isNone_iff_eq_none] at hsucceeded
      obtain ⟨rfl, hanswer⟩ := hsucceeded
      obtain ⟨answer, hanswer⟩ := Option.isSome_iff_exists.mp hanswer
      have hcancel : Meets False (cancel system admission) chronicle.world
          (Quiet system chronicle.world) fun _ next ↦ next.Cancelled admission :=
        (cancel_quiet h.consistent).mono (fun _ h ↦ h) (fun _ _ h ↦ h.2)
      exact (silent_meets hcancel).answered answer hanswer
    · intro hcompleted other hother howns world hworld
      exact control_of_replay h.consistent hcompleted hother howns (hvisited.subset hworld)

theorem initial_recorded {root : Tree} : Recorded system (.initial root) := by
  have hrow : ∀ id, (Chronicle.initial root).world.store.row id = none := fun _ ↦ rfl
  refine ⟨⟨?_, ?_, .inl rfl, .inl rfl, ?_⟩, ?_, ?_, ?_, ?_⟩
  · intro id record hheld
    rw [hrow] at hheld
    cases hheld
  · intro first second one other hone
    rw [hrow] at hone
    cases hone
  · intro id record hheld
    rw [hrow] at hheld
    cases hheld
  all_goals
    intro event hevent
    cases hevent

/-- Cancellation is final, and the journals are safe, in every run whose finished operations record
outcomes of their own. -/
theorem cancellation_final (system : System) (root : Tree) (actions : List Action)
    (hrecords : ∀ action ∈ actions, action.Records) :
    Safe system (Runs.run (step system) (.initial root) actions) := by
  have hrun : Recorded system (Runs.run (step system) (.initial root) actions) :=
    Runs.run_invariant_of_stepsMeet (fun _ _ ↦ step_recorded) _ initial_recorded actions
      (Runs.stepsMeet_of_forall hrecords)
  exact hrun.safe

/-! ### A run

An operation is admitted, applied, finished with an outcome and completed; then its cancellation is
asked for. -/

namespace Sample

/-- A target without files. -/
def emptyTree : Tree where
  entries := []
  closed := by intro path hpath; cases hpath

def change : Change where
  path := ["AGENTS.md"]
  before := { parents := [], file := none }
  after := some { bytes := [1, 2], mode := 0o600 }

def finishedWith (outcome : Json) : List Action :=
  [ .call (.admitOperation admission (.object []) [change]) none
  , .call (.apply admission fun _ ↦ true) none
  , .call (.finish admission [] outcome) none
  , .call (.complete admission) none
  , .call (.cancel admission) none ]

def completed : Json :=
  .object [("state", .string "completed")]

def lastWith (outcome : Json) : Chronicle :=
  Runs.run (step sampleSystem) (.initial emptyTree) (finishedWith outcome)

end Sample

theorem cancellation_final_completed :
    (∀ action ∈ Sample.finishedWith Sample.completed, action.Records) ∧
      Safe sampleSystem
        (Runs.run (step sampleSystem) (.initial Sample.emptyTree)
          (Sample.finishedWith Sample.completed)) ∧
      (Sample.lastWith Sample.completed).events.map (·.succeeded) =
        [true, true, true, true, false] := by
  have hrecords : ∀ action ∈ Sample.finishedWith Sample.completed, action.Records := by
    decide +kernel
  exact ⟨hrecords, cancellation_final sampleSystem Sample.emptyTree _ hrecords, by decide +kernel⟩

/-- An operation that recorded its own cancellation as its outcome is cancelled after its file was
published. -/
theorem cancelled_after_publication :
    ¬ ∀ system root actions, Safe system (Runs.run (step system) (.initial root) actions) := by
  intro hsafe
  have hlast : Safe sampleSystem (Sample.lastWith Sample.admission.cancellation) :=
    hsafe sampleSystem Sample.emptyTree (Sample.finishedWith Sample.admission.cancellation)
  obtain ⟨cancelled, hcancelled, hcall, hsucceeded⟩ : ∃ event ∈
      (Sample.lastWith Sample.admission.cancellation).events,
      event.call = .cancel Sample.admission ∧ event.succeeded = true :=
    ⟨_, List.mem_of_getLast? rfl, rfl, by decide +kernel⟩
  obtain ⟨applied, happlied, hadmission, hgrown⟩ : ∃ event ∈
      (Sample.lastWith Sample.admission.cancellation).events,
      event.call.admission = Sample.admission ∧ event.Grows = true :=
    ⟨_, List.mem_of_mem_tail (List.mem_of_mem_head? rfl), rfl, by decide +kernel⟩
  exact hlast.final Sample.admission (hlast.cancelled _ hcancelled _ hcall hsucceeded) _ happlied
    hadmission (writes_of_grows hgrown)

/-! ### Files after a crash -/

theorem recorded_run (root : Tree) (actions : List {action : Action // action.Records}) :
    Recorded system (Runs.run (step system) (.initial root) (actions.map (·.1))) :=
  Runs.run_invariant_of_stepsMeet (fun _ _ ↦ step_recorded) _ initial_recorded _
    (Runs.stepsMeet_of_forall (List.forall_mem_map.mpr fun action _ ↦ action.2))

/-- Each place is as it was, as a change of the operation wants it, or a directory on the way to a
file, made where there was nothing or where a change removed a file. -/
def Applied (admission : Admission) (world next : World) : Prop :=
  let changes := next.store.held admission.operationId
  ∀ path, next.root.entry path = world.root.entry path ∨
    (∃ change ∈ changes, change.path = path ∧ Holds (next.root.entry path) change.after) ∨
    (∃ identity, next.root.entry path = some (.directory identity)) ∧
      (world.root.entry path = none ∨
        ∃ change ∈ changes, change.path = path ∧ change.after = none) ∧
      ∃ change ∈ changes, path <+: change.path.dropLast ∧ change.after.isSome

theorem holds_none {after : Option Content} : Holds none after ↔ after = none := by
  cases after <;> simp [Holds]

theorem Applied.publish {admission : Admission} {change : Change} {name : String}
    {state next : World} (hchange : change ∈ state.store.held admission.operationId)
    (h : Applied admission world state) (hnext : Publishing .root name change state next) :
    Applied admission world next := by
  intro path
  have hbefore := h path
  rw [← hnext.store] at hbefore hchange
  by_cases hpath : path = change.path
  · subst hpath
    rcases hnext.file with ⟨hsame, -⟩ | ⟨hholds, -⟩
    · rwa [show next.root.entry change.path = _ from hsame]
    · exact .inr (.inl ⟨change, hchange, rfl, hholds⟩)
  · rcases hnext.root rfl path hpath with hsame | ⟨hnone, hmade, -, hway, hgiven⟩
    · rwa [hsame]
    · rw [hnone] at hbefore
      refine .inr (.inr ⟨hmade, hbefore.imp Eq.symm ?_, change, hchange, hway, hgiven⟩)
      simp [holds_none]

end AiStp.Installation
