import AiStp.Installation.Cancellation
import AiStp.Library.Invariance

/-!
# The operation that is pending

`pending` finds the request of the active operation again, from the database alone. It takes an
operation with an outcome for a foreign one, though an outcome is written in the transaction that
makes an operation `finishing`. What every durable state keeps is `Accounted`: the rows are those of
valid requests, at most one is active, and an active one has an outcome when it is finishing.
-/

set_option autoImplicit false

namespace AiStp.Installation

open Foundation Library

open Custody (Identity)

open Program

/-! ### Finding it -/

/-- `SELECT admission FROM operations WHERE active=1`. -/
def Store.activeAdmission (store : Store) : Option Admission :=
  store.operations.keys.findSome? fun id ↦
    (store.row id).bind fun record ↦ if record.active then some record.admission else none

/-- What `pending` asks of the row. -/
def pendingOf : Option Admission → Writer (Option (Admission × Json))
  | none => pure none
  | some admission => do
    need (admission.validate = true)
    let record ← theRecord admission
    need ((record.phase = .prepared ∨ record.phase = .applying ∨ record.phase = .finishing) ∧
      record.outcome = none)
    pure (some (admission, record.context))

/-- `Writer::pending`. -/
def pending : Writer (Option (Admission × Json)) := do
  let active ← look fun world ↦ some world.store.activeAdmission
  pendingOf active

/-- How the shared configuration writes a review as the context of its operation, and reads it. -/
structure Reviews where
  Review : Type
  value : Review → Json
  admission : Review → Admission
  parse : Json → String → Option Review
  parse_value : ∀ review, parse (value review) (admission review).planDigest = some review

/-- The operation is that of a review. -/
def Reviews.Admits (reviews : Reviews) (admission : Admission) (context : Json) : Prop :=
  ∃ review, reviews.admission review = admission ∧ reviews.value review = context

def reviewOf (reviews : Reviews) : Option (Admission × Json) → Writer (Option reviews.Review)
  | none => pure none
  | some (admission, context) => do
    let review ← look fun _ ↦ reviews.parse context admission.planDigest
    need (reviews.admission review = admission)
    pure (some review)

/-- `pending` of the shared configuration. -/
def pendingReview (reviews : Reviews) : Writer (Option reviews.Review) := do
  let found ← pending
  reviewOf reviews found

/-! ### The invariant -/

/-- What the rows of the operations say in every durable state, where the operations are admitted
under a condition. -/
structure Accounted (Admits : Admission → Json → Prop) (store : Store) : Prop where
  keyed : ∀ id record, store.row id = some record →
    record.admission.operationId = id ∧ record.admission.validate = true
  single : ∀ first second one other, store.row first = some one → store.row second = some other →
    one.active = true → other.active = true → first = second
  outcome : ∀ id record, store.row id = some record → record.active = true →
    (record.outcome = none ↔ record.phase ≠ .finishing)
  admitted : ∀ id record, store.row id = some record → record.active = true →
    Admits record.admission record.context

variable {id : String} {changes : List Change}

section Rows

variable {Admits : Admission → Json → Prop} {store next : Store}

/-- A row that is written is accounted for. -/
theorem Accounted.write (h : Accounted Admits store) {record : Record}
    (hrow : ∀ other, next.row other = if other = id then some record else store.row other)
    (hkeyed : record.admission.operationId = id ∧ record.admission.validate = true)
    (hactive : record.active = true → (record.outcome = none ↔ record.phase ≠ .finishing) ∧
      Admits record.admission record.context ∧
      ∀ other held, store.row other = some held → held.active = true → other = id) :
    Accounted Admits next := by
  have hcases {other : String} {held : Record} (hheld : next.row other = some held) :
      other = id ∧ held = record ∨ other ≠ id ∧ store.row other = some held := by
    rw [hrow] at hheld
    by_cases hsame : other = id
    · rw [if_pos hsame] at hheld
      exact .inl ⟨hsame, (Option.some.inj hheld).symm⟩
    · rw [if_neg hsame] at hheld
      exact .inr ⟨hsame, hheld⟩
  constructor
  · intro other held hheld
    rcases hcases hheld with ⟨rfl, rfl⟩ | ⟨-, hheld⟩
    · exact hkeyed
    · exact h.keyed other held hheld
  · intro first second one other hone hother honeActive hotherActive
    rcases hcases hone with ⟨rfl, rfl⟩ | ⟨-, hone⟩
    · rcases hcases hother with ⟨rfl, rfl⟩ | ⟨-, hother⟩
      · rfl
      · exact ((hactive honeActive).2.2 _ _ hother hotherActive).symm
    · rcases hcases hother with ⟨rfl, rfl⟩ | ⟨-, hother⟩
      · exact (hactive hotherActive).2.2 _ _ hone honeActive
      · exact h.single first second one other hone hother honeActive hotherActive
  · intro other held hheld hheldActive
    rcases hcases hheld with ⟨rfl, rfl⟩ | ⟨-, hheld⟩
    · exact (hactive hheldActive).1
    · exact h.outcome other held hheld hheldActive
  · intro other held hheld hheldActive
    rcases hcases hheld with ⟨rfl, rfl⟩ | ⟨-, hheld⟩
    · exact (hactive hheldActive).2.1
    · exact h.admitted other held hheld hheldActive

/-- Only the rows matter. -/
theorem Accounted.of_operations (h : Accounted Admits store)
    (hoperations : next.operations = store.operations) : Accounted Admits next := by
  have hrow (id : String) : next.row id = store.row id := by
    rw [Store.row, Store.row, hoperations]
  exact ⟨fun id record hrecord ↦ h.keyed id record (hrow id ▸ hrecord),
    fun first second one other hone hother ↦
      h.single first second one other (hrow first ▸ hone) (hrow second ▸ hother),
    fun id record hrecord ↦ h.outcome id record (hrow id ▸ hrecord),
    fun id record hrecord ↦ h.admitted id record (hrow id ▸ hrecord)⟩

/-- An update of an operation, which stays the same operation. -/
theorem Accounted.update (h : Accounted Admits store) {allowed : Record → Bool}
    {change : Record → Record} (hupdate : store.update id allowed change = some next)
    (hchange : ∀ record, allowed record = true →
      (record.active = true → (record.outcome = none ↔ record.phase ≠ .finishing)) →
      (change record).admission = record.admission ∧
      ((change record).active = true → record.active = true ∧
        (change record).context = record.context ∧
        ((change record).outcome = none ↔ (change record).phase ≠ .finishing))) :
    Accounted Admits next := by
  obtain ⟨record, hrecord, hallowed, -, hrow⟩ := Store.update_eq_some hupdate
  obtain ⟨hadmission, hactive⟩ := hchange record hallowed (h.outcome id record hrecord)
  refine h.write hrow (hadmission ▸ h.keyed id record hrecord) fun hnow ↦ ?_
  obtain ⟨hbefore, hcontext, houtcome⟩ := hactive hnow
  refine ⟨houtcome, ?_, fun other held hheld hheldActive ↦
    h.single other id held record hheld hrecord hheldActive hbefore⟩
  rw [hadmission, hcontext]
  exact h.admitted id record hrecord hbefore

variable {system : System}

section

variable (h : Accounted Admits store)
include h

theorem Accounted.insertChanges (hinsert : store.insertChanges system id changes = some next) :
    Accounted Admits next :=
  h.of_operations (Store.insertChanges_eq_some hinsert).2.1

theorem Accounted.admitOperation {admission : Admission} {context : Json} {prepared retain : Bool}
    (hvalid : admission.validate = true) (hadmits : Admits admission context)
    (hpermit : store.admitOperation system admission context changes prepared retain = some next) :
    Accounted Admits next := by
  simp only [Store.admitOperation, Option.bind_eq_bind, Option.bind_eq_some_iff,
    Option.guard_eq_some'] at hpermit
  obtain ⟨_, hidle, _, -, added, hadded, hinsert⟩ := hpermit
  obtain ⟨-, -, hrow⟩ := Store.add_eq_some hadded
  refine (h.write hrow ⟨rfl, hvalid⟩ fun _ ↦ ⟨?_, hadmits, ?_⟩).insertChanges hinsert
  · cases prepared
    · simp
    · simp
  · intro other held hheld hheldActive
    rw [Store.hasActive_eq_false hidle hheld] at hheldActive
    cases hheldActive

theorem Accounted.start (hstart : store.start id = some next) : Accounted Admits next := by
  refine h.update hstart fun record hallowed houtcome ↦ ⟨rfl, fun _ ↦ ?_⟩
  simp only [Bool.and_eq_true, decide_eq_true_eq] at hallowed
  have hactive : record.active = true := by simp [Record.active, hallowed.1]
  exact ⟨hactive, rfl, by simp [(houtcome hactive).mpr (by simp [hallowed.1])]⟩

theorem Accounted.setStage {identity : Identity} (hstage : store.setStage id identity = some next) :
    Accounted Admits next :=
  h.update hstage fun _ _ houtcome ↦
    ⟨rfl, fun hactive ↦ ⟨hactive, rfl, houtcome hactive⟩⟩

theorem Accounted.finish {outcome : Json}
    (hfinish : store.finish system id changes outcome = some next) : Accounted Admits next := by
  simp only [Store.finish, Option.bind_eq_bind, Option.bind_eq_some_iff,
    Option.guard_eq_some'] at hfinish
  obtain ⟨_, -, inserted, hinserted, hupdate⟩ := hfinish
  refine (h.insertChanges hinserted).update hupdate fun record hallowed _ ↦ ⟨rfl, fun _ ↦ ?_⟩
  have hactive : record.active = true := by simp [Record.active, of_decide_eq_true hallowed]
  exact ⟨hactive, rfl, by simp⟩

theorem Accounted.complete (hcomplete : store.complete id = some next) : Accounted Admits next := by
  refine (h.of_operations rfl : Accounted Admits (store.deleteChanges id)).update hcomplete
    fun record _ _ ↦ ⟨rfl, fun hactive ↦ ?_⟩
  simp [Record.active] at hactive

theorem Accounted.cancel {admission : Admission} {admitted : Bool}
    (hvalid : admission.validate = true) (hcancel : store.cancel admission admitted = some next) :
    Accounted Admits next := by
  unfold Store.cancel at hcancel
  split_ifs at hcancel
  · obtain ⟨cancelled, hcancelled, rfl⟩ := Option.map_eq_some_iff.mp hcancel
    refine (h.update hcancelled fun record _ _ ↦ ⟨rfl, fun hactive ↦ ?_⟩ :
      Accounted Admits cancelled).of_operations rfl
    simp [Record.active, Record.finished] at hactive
  · obtain ⟨-, -, hrow⟩ := Store.add_eq_some hcancel
    refine h.write hrow ⟨rfl, hvalid⟩ fun hactive ↦ ?_
    simp [Record.active] at hactive

end

end Rows

/-! ### Every call keeps it -/

section Calls

variable {system : System} {Admits : Admission → Json → Prop} {Answer : Type}

/-- The program leaves the rows accounted for. -/
abbrev Accounts (Admits : Admission → Json → Prop) (program : Writer Answer) : Prop :=
  Keeps (fun world : World ↦ Accounted Admits world.store) program

theorem commit_accounts {change : Store → Option Store}
    (h : ∀ store next, Accounted Admits store → change store = some next → Accounted Admits next) :
    Accounts Admits (commit change) := by
  refine Keeps.act fun world next hworld hnext ↦ ?_
  obtain ⟨store, hstore, rfl⟩ := Option.map_eq_some_iff.mp hnext
  exact h world.store store hworld hstore

variable {base : Base}

/-- A step on a tree leaves the database as it is. -/
theorem edit_accounts {change : World → Tree → Option Tree} :
    Accounts Admits (edit base change) := by
  refine Keeps.act fun world next hworld hnext ↦ ?_
  obtain ⟨tree, -, rfl⟩ := Option.map_eq_some_iff.mp hnext
  rwa [World.store_withTree]

theorem rename_accounts {name : String} {path : Path} :
    Accounts Admits (rename base name path) := by
  refine Keeps.act fun world next hworld hnext ↦ ?_
  split at hnext
  · simp only [Option.bind_eq_bind, Option.bind_eq_some_iff, Option.some.injEq] at hnext
    obtain ⟨control, -, tree, -, rfl⟩ := hnext
    rwa [World.store_withTree, World.store_withTree]
  · cases hnext

theorem ensureDirectory_accounts {path : Path} {entry : Option Entry} :
    Accounts Admits (ensureDirectory system base path entry) := by
  unfold ensureDirectory
  split
  · exact Keeps.pure _
  · exact Keeps.refuse
  · exact edit_accounts.bind fun _ ↦ Keeps.look _

theorem makeParents_accounts (here path : Path) :
    Accounts Admits (makeParents system base here path) := by
  induction path generalizing here with
  | nil => exact Keeps.refuse
  | cons name rest ih =>
    cases rest with
    | nil => exact Keeps.pure _
    | cons next rest =>
      unfold makeParents
      exact (Keeps.look _).bind fun _ ↦ ensureDirectory_accounts.bind fun _ ↦
        (ih _).bind fun _ ↦ Keeps.pure _

theorem stage_accounts {name : String} {content : Content} :
    Accounts Admits (stage system name content) := by
  have hopen (file : Option File) : Accounts Admits (openStaged system name file) := by
    unfold openStaged
    split
    · exact edit_accounts
    · exact Keeps.need _
  exact (Keeps.look _).bind fun previous ↦ (Keeps.need _).bind fun _ ↦ (hopen previous).bind fun _ ↦
    edit_accounts.bind fun _ ↦ (Keeps.forEach (fun _ ↦ edit_accounts) _).bind fun _ ↦ edit_accounts

theorem publish_accounts {name : String} {change : Change} :
    Accounts Admits (publish system base name change) := by
  have hparent (create : Bool) : Accounts Admits (parent system base change.path create) := by
    unfold parent
    split_ifs
    · exact makeParents_accounts _ _
    · exact Keeps.look _
  have hstage (content : Option Content) : Accounts Admits (stageAfter system name content) := by
    unfold stageAfter
    split
    · exact Keeps.pure _
    · exact stage_accounts
  have hreplace (content : Option Content) :
      Accounts Admits (replace base name change.path content) := by
    unfold replace
    split
    · exact edit_accounts
    · exact rename_accounts
  have hfrom (now : Observation) : Accounts Admits (publishFrom system base name change now) :=
    (Keeps.need _).bind fun _ ↦ (hparent _).bind fun _ ↦ (hstage _).bind fun _ ↦
      (Keeps.look _).bind fun _ ↦ (Keeps.need _).bind fun _ ↦ (hreplace _).bind fun _ ↦
        (Keeps.look _).bind fun _ ↦ Keeps.need _
  refine (Keeps.look _).bind fun now ↦ (Keeps.need _).bind fun _ ↦ ?_
  split_ifs
  · exact Keeps.pure _
  · exact hfrom now

theorem staging_accounts {record : Record} : Accounts Admits (staging system record) := by
  have huntouched (journal : Option Journal) :
      Accounts Admits (needUntouched system record.admission journal) := by
    unfold needUntouched
    split
    · exact Keeps.pure _
    · exact (Keeps.look _).bind fun _ ↦ Keeps.look _
  have hbind (identity : Identity) (stage : Option Identity) :
      Accounts Admits (bindStage record.admission identity stage) := by
    unfold bindStage
    split
    · exact Keeps.need _
    · exact (Keeps.look _).bind fun _ ↦ commit_accounts fun _ _ h hstage ↦ h.setStage hstage
  have hguard (journal : Option Journal) :
      Accounts Admits (publishGuard system record.admission journal) := by
    unfold publishGuard
    split
    · exact Keeps.pure _
    · exact (Keeps.look _).bind fun _ ↦ (Keeps.need _).bind fun _ ↦ (Keeps.need _).bind fun _ ↦
        publish_accounts
  exact (Keeps.look _).bind fun journal ↦ (Keeps.need _).bind fun _ ↦
    (huntouched journal).bind fun _ ↦ (Keeps.look _).bind fun entry ↦
      ((Keeps.need _).bind fun _ ↦ ensureDirectory_accounts : Accounts Admits
        (openStaging system record entry)).bind fun identity ↦ (hbind identity _).bind fun _ ↦
          (hguard journal).bind fun _ ↦ Keeps.pure _

theorem clearCompleted_accounts {record : Record} :
    Accounts Admits (clearCompleted system record) := by
  have hstaging (entry : Option Entry) : Accounts Admits (removeStaging record entry) := by
    unfold removeStaging
    split
    · exact Keeps.pure _
    · exact (Keeps.need _).bind fun _ ↦ (Keeps.look _).bind fun _ ↦ edit_accounts
    · exact Keeps.refuse
  have hjournal (journal : Option Journal) : Accounts Admits (removeJournal journal) := by
    unfold removeJournal
    split
    · exact Keeps.pure _
    · exact edit_accounts
  refine (Keeps.look _).bind fun journal ↦ (Keeps.look _).bind fun hasActive ↦ ?_
  split_ifs
  · exact Keeps.pure _
  · exact (Keeps.look _).bind fun entry ↦ (hstaging entry).bind fun _ ↦ hjournal journal

theorem progress_accounts {admission : Admission} :
    Accounts Admits (progress system admission) := by
  refine (Keeps.need _).bind fun _ ↦ (Keeps.look _).bind fun record ↦ ?_
  unfold progressOf
  split
  · exact Keeps.pure _
  · split
    · exact Keeps.pure _
    · exact Keeps.pure _
    · exact Keeps.pure _
    · exact Keeps.refuse
    · refine clearCompleted_accounts.bind fun _ ↦ ?_
      split_ifs
      · exact Keeps.pure _
      · exact Keeps.pure _

theorem admitInner_accounts {admission : Admission} {context : Json} {prepared retain : Bool}
    (hadmits : Admits admission context) :
    Accounts Admits (admitInner system admission context changes prepared retain) :=
  Keeps.need_bind fun hvalid ↦ (Keeps.need _).bind fun _ ↦ (Keeps.look _).bind fun _ ↦
    (Keeps.need _).bind fun _ ↦ (Keeps.look _).bind fun _ ↦ (Keeps.need _).bind fun _ ↦
      (Keeps.look _).bind fun _ ↦ commit_accounts fun _ _ h hpermit ↦
        h.admitOperation hvalid hadmits hpermit

theorem prepared_accounts {admission : Admission} : Accounts Admits (prepared system admission) :=
  (Keeps.look _).bind fun _ ↦ (Keeps.need _).bind fun _ ↦ (Keeps.look _).bind fun _ ↦
    (Keeps.look _).bind fun _ ↦ staging_accounts.bind fun _ ↦ (Keeps.look _).bind fun _ ↦
      Keeps.pure _

theorem prepareContext_accounts {admission : Admission} {context : Json} {retain : Bool}
    (hadmits : Admits admission context) :
    Accounts Admits (prepareContext system admission context changes retain) := by
  refine progress_accounts.bind fun current ↦ ?_
  unfold prepareFrom
  split
  · exact (admitInner_accounts hadmits).bind fun _ ↦ prepared_accounts
  · exact (Keeps.look _).bind fun _ ↦ (Keeps.need _).bind fun _ ↦ prepared_accounts
  · exact Keeps.pure _
  · exact Keeps.pure _
  · exact Keeps.refuse
  · exact Keeps.refuse

theorem cancel_accounts {admission : Admission} : Accounts Admits (cancel system admission) := by
  have hpublished (record : Record) : Accounts Admits (notPublished system admission record) := by
    unfold notPublished
    split_ifs
    · exact prepared_accounts.bind fun _ ↦ Keeps.pure _
    · exact (Keeps.need _).bind fun _ ↦ (Keeps.look _).bind fun _ ↦ (Keeps.need _).bind fun _ ↦
        (Keeps.look _).bind fun _ ↦ Keeps.need _
  have hcancellable (record : Option Record) :
      Accounts Admits (cancellable system admission record) := by
    unfold cancellable
    split
    · exact Keeps.pure _
    · exact (hpublished _).bind fun _ ↦ (Keeps.look _).bind fun _ ↦ Keeps.look _
  refine Keeps.need_bind fun hvalid ↦ (Keeps.look _).bind fun record ↦
    Keeps.bind ?_ fun _ ↦ Keeps.pure _
  unfold cancelFrom
  split
  · exact clearCompleted_accounts
  · exact (hcancellable record).bind fun _ ↦
      (commit_accounts fun _ _ h hcancel ↦ h.cancel hvalid hcancel).bind fun _ ↦
        (Keeps.look _).bind fun _ ↦ clearCompleted_accounts

theorem applyChecked_accounts {admission : Admission} {authorized : Nat → Bool} :
    Accounts Admits (applyChecked system admission authorized) := by
  have hone (identity : Identity) (item : Change × Nat) :
      Accounts Admits (applyOne system identity authorized item) :=
    (Keeps.look _).bind fun _ ↦ (Keeps.need _).bind fun _ ↦ publish_accounts
  exact (Keeps.look _).bind fun _ ↦ (Keeps.need _).bind fun _ ↦ staging_accounts.bind fun identity ↦
    (Keeps.look _).bind fun _ ↦ (Keeps.forEach (hone identity) _).bind fun _ ↦ Keeps.look _

theorem finish_accounts {admission : Admission} {outcome : Json} :
    Accounts Admits (finish system admission changes outcome) :=
  (Keeps.look _).bind fun _ ↦ (Keeps.need _).bind fun _ ↦ (Keeps.look _).bind fun _ ↦
    (Keeps.need _).bind fun _ ↦ (Keeps.look _).bind fun _ ↦ (Keeps.look _).bind fun _ ↦
      commit_accounts fun _ _ h hfinish ↦ h.finish hfinish

theorem complete_accounts {admission : Admission} : Accounts Admits (complete system admission) :=
  (Keeps.look _).bind fun _ ↦ (Keeps.need _).bind fun _ ↦ (Keeps.look _).bind fun _ ↦
    (Keeps.look _).bind fun _ ↦ staging_accounts.bind fun _ ↦ (Keeps.look _).bind fun _ ↦
      (commit_accounts fun _ _ h hcomplete ↦ h.complete hcomplete).bind fun _ ↦
        (Keeps.look _).bind fun _ ↦ clearCompleted_accounts.bind fun _ ↦ Keeps.look _

/-- The condition on the operations that a call may admit. -/
def Call.Allowed (Admits : Admission → Json → Prop) : Call → Prop
  | .admitOperation admission context _ => Admits admission context
  | .prepare admission context _ _ => Admits admission context
  | _ => True

theorem call_accounts (call : Call) (hadmits : call.Allowed Admits) :
    Accounts Admits (call.program system) := by
  have hsilent {Answer : Type} {program : Writer Answer} (h : Accounts Admits program) :
      Accounts Admits (silent program) := h.bind fun _ ↦ Keeps.pure _
  cases call with
  | admitOperation admission context changes => exact admitInner_accounts hadmits
  | prepare admission context changes retain => exact hsilent (prepareContext_accounts hadmits)
  | prepared admission => exact hsilent prepared_accounts
  | start admission =>
    exact prepared_accounts.bind fun _ ↦ commit_accounts fun _ _ h hstart ↦ h.start hstart
  | apply admission authorized => exact applyChecked_accounts
  | finish admission changes outcome => exact finish_accounts
  | complete admission => exact hsilent complete_accounts
  | cancel admission => exact hsilent cancel_accounts
  | progress admission => exact hsilent progress_accounts

end Calls

/-! ### Every run -/

section Runs

variable {system : System} {Admits : Admission → Json → Prop}

def Action.Allowed (Admits : Admission → Json → Prop) : Action → Prop
  | .call made _ => made.Allowed Admits
  | .edit _ => True

theorem step_accounted {chronicle : Chronicle} {action : Action}
    (h : Accounted Admits chronicle.world.store) (hadmits : action.Allowed Admits) :
    Accounted Admits (step system chronicle action).world.store := by
  cases action with
  | edit root => exact h
  | call made crash =>
    have hvisited := (prefix_visitedBy (made.program system chronicle.world) crash).subset
    have haccounts : Accounts Admits (made.program system) := call_accounts made hadmits
    have hpassed := (haccounts chronicle.world h).passed
    unfold step
    dsimp only
    cases hlist : visitedBy (made.program system chronicle.world) crash using
      List.reverseRecOn with
    | nil => exact h
    | append_singleton before last _ =>
      rw [List.getLastD_concat]
      exact hpassed last (hvisited (by simp [hlist]))

/-- The state that a run of the writer on a target reaches, with its crashes. -/
def reachedFrom (system : System) (root : Tree) (actions : List Action) : World :=
  (Runs.run (step system) (.initial root) actions).world

theorem reached_accounted {root : Tree} {actions : List Action}
    (hadmits : ∀ action ∈ actions, action.Allowed Admits) :
    Accounted Admits (reachedFrom system root actions).store := by
  have hrow : ∀ id, (Chronicle.initial root).world.store.row id = none := fun _ ↦ rfl
  have hinitial : Accounted Admits (Chronicle.initial root).world.store :=
    ⟨by simp [hrow], by simp [hrow], by simp [hrow], by simp [hrow]⟩
  exact Runs.run_invariant_of_stepsMeet
    (motive := fun chronicle : Chronicle ↦ Accounted Admits chronicle.world.store)
    (fun _ _ h hadmits ↦ step_accounted h hadmits) _ hinitial actions
    (Runs.stepsMeet_of_forall hadmits)

end Runs

/-! ### The pending operation -/

section Pending

variable {Admits : Admission → Json → Prop} {world : World}

theorem answer_look {Answer Next : Type} {observe : World → Option Answer} {answer : Answer}
    {next : Answer → Writer Next} (h : observe world = some answer) :
    ((Program.look observe >>= next) world).answer = (next answer world).answer := by
  show (Program.andThen (Program.look observe) next world).answer = _
  simp [Program.andThen, Program.look, h, Run.last]

theorem answer_need {Next : Type} {condition : Prop} [Decidable condition]
    {next : Unit → Writer Next} :
    ((Program.need condition >>= next) world).answer =
      if condition then (next () world).answer else none := by
  show (Program.andThen (Program.need condition) next world).answer = _
  by_cases h : condition
  · simp [Program.andThen, Program.need, h, Run.last]
  · simp [Program.andThen, Program.need, h]

theorem answer_bind {Answer Next : Type} {program : Writer Answer} {answer : Answer}
    {next : Answer → Writer Next} (h : (program world).answer = some answer) :
    ((program >>= next) world).answer = (next answer ((program world).last world)).answer := by
  show (Program.andThen program next world).answer = _
  simp [Program.andThen, h]

/-- The query finds the active operation. -/
theorem activeAdmission_eq (h : Accounted Admits world.store) {record : Record}
    (hrow : world.store.row id = some record) (hactive : record.active = true) :
    world.store.activeAdmission = some record.admission := by
  have hfound (other : String) (admission : Admission)
      (hother : ((world.store.row other).bind fun record ↦
        if record.active then some record.admission else none) = some admission) :
      admission = record.admission := by
    obtain ⟨held, hheld, hsome⟩ := Option.bind_eq_some_iff.mp hother
    split_ifs at hsome with hheldActive
    obtain rfl := h.single other id held record hheld hrow hheldActive hactive
    obtain rfl : held = record := Option.some.inj (hheld.symm.trans hrow)
    exact (Option.some.inj hsome).symm
  have hkey : id ∈ world.store.operations.keys := by
    obtain ⟨before, after, hsplit, -⟩ := List.lookup_eq_some_iff.mp hrow
    exact SortedMap.mem_keys.mpr ⟨(id, record), by simp [hsplit], rfl⟩
  cases hquery : world.store.activeAdmission with
  | none =>
    have hnone := List.findSome?_eq_none_iff.mp hquery id hkey
    rw [hrow, Option.bind_some, if_pos hactive] at hnone
    cases hnone
  | some admission =>
    obtain ⟨other, -, hother⟩ := List.exists_of_findSome?_eq_some hquery
    rw [hfound other admission hother]

theorem activeAdmission_eq_none (h : ∀ id record, world.store.row id = some record →
    record.active = false) : world.store.activeAdmission = none := by
  refine List.findSome?_eq_none_iff.mpr fun id _ ↦ ?_
  cases hrow : world.store.row id with
  | none => rfl
  | some record => simp [h id record hrow]

theorem record_of_active (h : Accounted Admits world.store) {record : Record}
    (hrow : world.store.row id = some record) (hactive : record.active = true) :
    (world.store.record record.admission).join = some record := by
  have hget : world.store.operations.get? record.admission.operationId = some record := by
    rw [(h.keyed id record hrow).1]
    exact hrow
  have hcompleted : record.phase ≠ .completed := by
    simpa [Record.active] using hactive
  simp [Store.record, hget, hcompleted]

/-- What `pending` answers while an operation is active. -/
theorem pending_of_active (h : Accounted Admits world.store) {record : Record}
    (hrow : world.store.row id = some record) (hactive : record.active = true) :
    (pending world).answer =
      if record.phase = .finishing then none else some (some (record.admission, record.context)) := by
  have houtcome := h.outcome id record hrow hactive
  have hcompleted : record.phase ≠ .completed := by
    simpa [Record.active] using hactive
  have hquery : (fun world : World ↦ some world.store.activeAdmission) world =
      some (some record.admission) := congrArg some (activeAdmission_eq h hrow hactive)
  refine (answer_look hquery).trans (answer_need.trans ?_)
  rw [if_pos (h.keyed id record hrow).2]
  refine (answer_look (record_of_active h hrow hactive)).trans (answer_need.trans ?_)
  by_cases hphase : record.phase = .finishing
  · rw [if_pos hphase, if_neg]
    exact fun hcondition ↦ houtcome.mp hcondition.2 hphase
  · rw [if_neg hphase, if_pos]
    · rfl
    · refine ⟨?_, houtcome.mpr hphase⟩
      cases hheld : record.phase with
      | prepared => exact .inl rfl
      | applying => exact .inr (.inl rfl)
      | finishing => exact absurd hheld hphase
      | completed => exact absurd hheld hcompleted

theorem pending_of_idle (h : ∀ id record, world.store.row id = some record →
    record.active = false) : (pending world).answer = some none := by
  have hquery : (fun world : World ↦ some world.store.activeAdmission) world = some none :=
    congrArg some (activeAdmission_eq_none h)
  refine (answer_look hquery).trans ?_
  rfl

/-- What the shared configuration answers while an operation of one of its reviews is active. -/
theorem pendingReview_of_active {reviews : Reviews} (h : Accounted reviews.Admits world.store)
    {record : Record} (hrow : world.store.row id = some record) (hactive : record.active = true)
    (hphase : record.phase ≠ .finishing) :
    ∃ review, reviews.admission review = record.admission ∧
      (pendingReview reviews world).answer = some (some review) := by
  obtain ⟨review, hadmission, hcontext⟩ := h.admitted id record hrow hactive
  refine ⟨review, hadmission, ?_⟩
  have hpending := pending_of_active h hrow hactive
  rw [if_neg hphase] at hpending
  have hparse : reviews.parse record.context record.admission.planDigest = some review := by
    rw [← hadmission, ← hcontext]
    exact reviews.parse_value review
  refine (answer_bind hpending).trans ?_
  refine (answer_look hparse).trans (answer_need.trans ?_)
  rw [if_pos hadmission]
  rfl

end Pending

/-- After any run of the writer with its crashes, `pending` answers with the request of the active
operation when and only when that operation is not finishing, and with nothing when no operation is
active. The shared configuration then finds the review, if its operations are those of reviews. -/
theorem pending_recovers (system : System) (root : Tree) (actions : List Action) :
    (∀ id record, (reachedFrom system root actions).store.row id = some record →
      record.active = true →
        ((pending (reachedFrom system root actions)).answer =
          some (some (record.admission, record.context)) ↔ record.phase ≠ .finishing) ∧
        (record.phase = .finishing → (pending (reachedFrom system root actions)).answer = none)) ∧
    ((∀ id record, (reachedFrom system root actions).store.row id = some record →
        record.active = false) →
      (pending (reachedFrom system root actions)).answer = some none) ∧
    ∀ reviews : Reviews, (∀ action ∈ actions, action.Allowed reviews.Admits) →
      ∀ id record, (reachedFrom system root actions).store.row id = some record →
        record.active = true → record.phase ≠ .finishing →
          ∃ review, reviews.admission review = record.admission ∧
            (pendingReview reviews (reachedFrom system root actions)).answer =
              some (some review) := by
  have hall : ∀ action ∈ actions, action.Allowed fun _ _ ↦ True := by
    intro action _
    cases action with
    | edit root => trivial
    | call made crash => cases made <;> trivial
  have haccounted : Accounted _ (reachedFrom system root actions).store := reached_accounted hall
  refine ⟨fun id record hrow hactive ↦ ?_, pending_of_idle, fun reviews hallowed id record hrow
    hactive hphase ↦ pendingReview_of_active (reached_accounted hallowed) hrow hactive hphase⟩
  rw [pending_of_active haccounted hrow hactive]
  by_cases hphase : record.phase = .finishing
  · simp [hphase]
  · simp [hphase]

/-! ### A crash after the outcome is written -/

namespace Sample

/-- An operation is admitted, applied and finished, and its completion never starts. -/
def interrupted : List Action :=
  [ .call (.admitOperation admission (.object []) [change]) none
  , .call (.apply admission fun _ ↦ true) none
  , .call (.finish admission [] completed) none ]

end Sample

/-- The operation that is finishing is active and is not found again. -/
theorem finishing_not_found :
    ∃ record, (reachedFrom sampleSystem Sample.emptyTree Sample.interrupted).store.row
        Sample.admission.operationId = some record ∧ record.active = true ∧
      record.admission = Sample.admission ∧
      (pending (reachedFrom sampleSystem Sample.emptyTree Sample.interrupted)).answer = none := by
  have hrow : ((reachedFrom sampleSystem Sample.emptyTree Sample.interrupted).store.row
      Sample.admission.operationId).any (fun record ↦
        record.phase = .finishing && record.admission = Sample.admission) = true := by
    decide +kernel
  obtain ⟨record, hrecord, hfacts⟩ := (Option.any_eq_true _ _).mp hrow
  simp only [Bool.and_eq_true, decide_eq_true_eq] at hfacts
  refine ⟨record, hrecord, by simp [Record.active, hfacts.1], hfacts.2, ?_⟩
  decide +kernel

end AiStp.Installation
