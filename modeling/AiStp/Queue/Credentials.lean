import AiStp.Queue.Leases

/-!
# Credentials of settled jobs

`Payload.clean` is the property that a payload carries no credential in clear, at any depth. The
scrub looks at the top level only, does not know the key of a confirmation token, and a cancel does
not scrub, so `terminal_jobs_clean` says exactly which runs keep it: those in which every step that
ends a job meets a payload that it leaves clean (`LeavesClean`). Besides that, the object that a
session holds and the row it came from differ by a scrub at most (`State.Tracked`).
-/

set_option autoImplicit false

namespace AiStp.Queue

open Library Runs

/-! ### Credentials in a payload -/

/-- The keys under which a payload carries credentials in transit. -/
def credentialKeys : List String := sensitivePayloadKeys ++ ["confirm_token"]

mutual

/-- Every value under a credential key, at any depth, is the marker of a delivered one. -/
def cleanDocument : Json → Bool
  | .array items => cleanItems items
  | .object fields => cleanFields fields
  | _ => true

def cleanItems : List Json → Bool
  | [] => true
  | item :: items => cleanDocument item && cleanItems items

def cleanFields : List (String × Json) → Bool
  | [] => true
  | (key, value) :: fields =>
    (if key ∈ credentialKeys then value = delivered else cleanDocument value) && cleanFields fields

end

def Payload.clean (payload : Payload) : Prop := cleanFields payload = true

instance (payload : Payload) : Decidable payload.clean := inferInstanceAs (Decidable (_ = true))

def cleanField (field : String × Json) : Prop :=
  if field.1 ∈ credentialKeys then field.2 = delivered else cleanDocument field.2 = true

instance (field : String × Json) : Decidable (cleanField field) :=
  inferInstanceAs (Decidable (ite _ _ _))

/-- The scrub redacts whatever the payload carries in clear: it is all under the keys that the scrub
knows, at the top level. -/
def Payload.scrubbable (payload : Payload) : Prop :=
  ∀ field ∈ payload, field.1 ∈ sensitivePayloadKeys ∨ cleanField field

instance (payload : Payload) : Decidable payload.scrubbable :=
  inferInstanceAs (Decidable (∀ field ∈ payload, _))

theorem clean_iff (payload : Payload) : payload.clean ↔ ∀ field ∈ payload, cleanField field := by
  unfold Payload.clean
  induction payload with
  | nil => simp [cleanFields]
  | cons field payload ih =>
    by_cases hkey : field.1 ∈ credentialKeys
    · simp [cleanFields, cleanField, hkey, ih]
    · simp [cleanFields, cleanField, hkey, ih]

theorem clean_scrub_iff (payload : Payload) :
    Payload.clean (scrubSettledPayload payload) ↔ payload.scrubbable := by
  rw [clean_iff]
  unfold scrubSettledPayload
  rw [List.forall_mem_map]
  refine forall₂_congr fun field _ ↦ ?_
  by_cases hkey : field.1 ∈ sensitivePayloadKeys
  · have hcredential : field.1 ∈ credentialKeys := List.mem_append_left _ hkey
    simp [hkey, cleanField, hcredential]
  · simp [hkey]

/-! ### What a session holds -/

/-- The payload is the other one, or what a scrub left of it. -/
def ScrubOf (payload held : Payload) : Prop :=
  payload = held ∨ payload = scrubSettledPayload held

theorem ScrubOf.trans {last middle first : Payload} (h : ScrubOf last middle)
    (h' : ScrubOf middle first) : ScrubOf last first := by
  rcases h with rfl | rfl
  · exact h'
  · rcases h' with rfl | rfl
    · exact .inr rfl
    · exact .inr (scrubSettledPayload_scrubSettledPayload first)

structure State.Tracked (state : State) : Prop where
  held : ∀ worker lease held, state.workers worker = .settling lease held →
    ∃ row ∈ state.table.rows, row.id = held.id ∧ ScrubOf row.payload held.payload
  cancelling : ∀ client held, state.cancelling client = some held → held.state ∈ claimableStates

/-- A session that scrubs what it loaded leaves the row scrubbed. -/
theorem flush_scrub {held written row : Job}
    (hwritten : written.payload = scrubSettledPayload held.payload)
    (hheld : ScrubOf row.payload held.payload) :
    (Job.flush held written row).payload = scrubSettledPayload row.payload := by
  show flushed held.payload written.payload row.payload = scrubSettledPayload row.payload
  have hrow : scrubSettledPayload row.payload = scrubSettledPayload held.payload := by
    rcases hheld with hsame | hscrubbed
    · rw [hsame]
    · rw [hscrubbed, scrubSettledPayload_scrubSettledPayload]
  rw [hwritten, hrow]
  by_cases hclear : scrubSettledPayload held.payload = held.payload
  · rw [hclear, flushed_self]
    rcases hheld with hsame | hscrubbed
    · exact hsame
    · exact hscrubbed.trans hclear
  · exact flushed_of_ne hclear _

theorem flush_payload {held written row : Job} (hwritten : written.payload = held.payload) :
    (Job.flush held written row).payload = row.payload := by
  show flushed held.payload written.payload row.payload = row.payload
  rw [hwritten, flushed_self]

variable {state : State} {worker : String}

theorem State.Tracked.row (hstate : state.Tracked) {lease : Nat} {held row : Job}
    (hsettling : state.workers worker = .settling lease held) (hrow : row ∈ state.table.rows)
    (hid : row.id = held.id) : ScrubOf row.payload held.payload := by
  obtain ⟨found, hfound, hfoundId, hpayload⟩ := hstate.held worker lease held hsettling
  rwa [Table.eq_of_id hfound hrow (hfoundId.trans hid.symm)] at hpayload

variable {action : Action}

theorem Change.scrubOf {row next : Job} (hstate : state.Tracked) (hrow : row ∈ state.table.rows)
    (hchange : Change state action row next) : ScrubOf next.payload row.payload := by
  cases hchange with
  | kept => exact .inl rfl
  | claimed hidle htaken hdue => exact .inl rfl
  | succeeded hsettling howned hid =>
    exact .inr (flush_scrub rfl (hstate.row hsettling hrow hid))
  | @failed worker failure now lease held _ hsettling howned hid =>
    have hpayload := Job.fail_payload held failure now
    split_ifs at hpayload with hdead
    · exact .inr (flush_scrub hpayload (hstate.row hsettling hrow hid))
    · exact .inl (flush_payload hpayload)
  | extended hruns => exact .inl rfl
  | @reclaimed _ _ now _ _ _ hexpired =>
    have hpayload := Job.reclaim_payload row now
    split_ifs at hpayload with hexhausted
    · exact .inr hpayload
    · exact .inl hpayload
  | requeued hruns => exact .inl rfl
  | cancelled hheld hid => exact .inl (flush_payload rfl)

theorem State.Tracked.initial : State.initial.Tracked where
  held := by simp [State.initial]
  cancelling := by simp [State.initial]

theorem State.Tracked.step (hstate : state.Tracked) (action : Action) :
    (step state action).Tracked where
  held := by
    intro worker lease held hsettling
    rcases settling_step hsettling with hbefore | ⟨-, hrow⟩
    · obtain ⟨row, hrow, hid, hpayload⟩ := hstate.held worker lease held hbefore
      obtain ⟨next, hnext, hnextId, hchange⟩ := exists_mem_step hrow action
      exact ⟨next, hnext, hnextId.trans hid, (hchange.scrubOf hstate hrow).trans hpayload⟩
    · obtain ⟨next, hnext, hnextId, hchange⟩ := exists_mem_step hrow action
      exact ⟨next, hnext, hnextId, hchange.scrubOf hstate hrow⟩
  cancelling := by
    intro client held hheld
    rcases cancelling_step hheld with hbefore | ⟨-, hclaimable⟩
    · exact hstate.cancelling client held hbefore
    · exact hclaimable

/-! ### The runs that leave no credential -/

/-- The step ends jobs only whose payload it leaves clean. -/
def LeavesClean (state : State) : Action → Prop
  | .succeed worker => ∀ held ∈ state.held? worker, held.runsUnder worker →
      ∀ row ∈ state.table.rows, row.id = held.id → row.payload.scrubbable
  | .fail worker failure _ => ∀ held ∈ state.held? worker, held.runsUnder worker →
      failure.permanent = true ∨ held.exhausted →
      ∀ row ∈ state.table.rows, row.id = held.id → row.payload.scrubbable
  | .requeueStale leaseTimeoutSeconds limit now locked listed =>
      ∀ row ∈ state.table.expired leaseTimeoutSeconds limit now locked listed,
      row.exhausted → row.payload.scrubbable
  | .cancelWrite client => ∀ held ∈ state.cancelling client,
      ∀ row ∈ state.table.rows, row.id = held.id → row.payload.clean
  | _ => True

def State.Clean (state : State) : Prop :=
  ∀ row ∈ state.table.rows, row.state ∈ terminalStates → row.payload.clean

theorem Change.clean {row next : Job} (hstate : state.Tracked) (hclean : state.Clean)
    (hmeet : LeavesClean state action) (hrow : row ∈ state.table.rows)
    (hchange : Change state action row next) (hnext : next.state ∈ terminalStates) :
    next.payload.clean := by
  cases hchange with
  | kept => exact hclean row hrow hnext
  | claimed hidle htaken hdue => exact absurd hnext (by simp [Job.claim, terminalStates])
  | @succeeded worker lease held _ hsettling howned hid =>
    rw [flush_scrub rfl (hstate.row hsettling hrow hid), clean_scrub_iff]
    exact hmeet held (State.held?_of_settling hsettling) howned row hrow hid
  | @failed worker failure now lease held _ hsettling howned hid =>
    have hpayload := Job.fail_payload held failure now
    rw [flush_state (by simpa [howned.1] using fail_not_running held failure now),
      Job.fail_state] at hnext
    split_ifs at hpayload hnext with hdead
    · rw [flush_scrub hpayload (hstate.row hsettling hrow hid), clean_scrub_iff]
      exact hmeet held (State.held?_of_settling hsettling) howned hdead row hrow hid
    · exact absurd hnext (by simp [terminalStates])
  | extended hruns => exact absurd hnext (not_terminal_of_running hruns.1)
  | @reclaimed _ _ now _ _ _ hexpired =>
    rw [Job.reclaim_state] at hnext
    rw [Job.reclaim_payload]
    split_ifs at hnext ⊢ with hexhausted
    · exact (clean_scrub_iff _).mpr (hmeet row hexpired hexhausted)
    · exact absurd hnext (by simp [terminalStates])
  | requeued hruns => exact absurd hnext (by simp [terminalStates])
  | @cancelled client held _ hheld hid =>
    rw [flush_cancelled (hstate.cancelling _ _ hheld) row]
    exact hmeet held hheld row hrow hid

theorem clean_step (hstate : state.Tracked) (hclean : state.Clean)
    (hmeet : LeavesClean state action) : (step state action).Clean := by
  intro next hnext hterminal
  rcases mem_step hnext with ⟨row, hrow, -, hchange⟩ | ⟨request, payload, now, -, rfl⟩
  · exact hchange.clean hstate hclean hmeet hrow hterminal
  · exact absurd hterminal (by simp [Request.row, terminalStates])

/-- The flush of a session that owns what it loaded reaches the row. -/
theorem settle_apply {held row : Job} {settled : Job → Job} (hheld : state.held? worker = some held)
    (howned : held.runsUnder worker) (hrow : row ∈ state.table.rows) (hid : row.id = held.id) :
    (state.settleStatement worker settled).apply row = Job.flush held (settled held) row := by
  have hfound : state.table.row? held.id = some row := Table.row?_eq_some.mpr ⟨hrow, hid⟩
  have hrunning : ownedRunningJob state.table held (some worker) = some held :=
    ownedRunningJob_eq_some.mpr ⟨by simp [hfound], howned, rfl⟩
  obtain ⟨lease, hsettling⟩ := State.settling_of_held? hheld
  simp only [State.settleStatement, hsettling, hrunning]
  exact flushStatement_apply hid (settled held)

/-- What a clean state after a step says of a row that the step brings to its end. -/
theorem clean_apply {row next : Job} (hclean : (step state action).Clean)
    (hrow : row ∈ state.table.rows) (haction : ∀ request now, action ≠ .enqueue request now)
    (happly : (state.statement action).apply row = next) (hnext : next.state ∈ terminalStates) :
    next.payload.clean :=
  hclean next (happly ▸ mem_apply hrow haction) hnext

theorem scrubbable_of_settled {settled : Job → Job} {held row : Job} (hstate : state.Tracked)
    (hclean : (step state action).Clean) (haction : ∀ request now, action ≠ .enqueue request now)
    (hstatement : state.statement action = state.settleStatement worker settled)
    (hheld : state.held? worker = some held) (howned : held.runsUnder worker)
    (hrow : row ∈ state.table.rows) (hid : row.id = held.id)
    (hsettled : (settled held).state ∈ terminalStates)
    (hpayload : (settled held).payload = scrubSettledPayload held.payload) :
    row.payload.scrubbable := by
  obtain ⟨lease, hsettling⟩ := State.settling_of_held? hheld
  have htracked := hstate.row hsettling hrow hid
  rw [← clean_scrub_iff, ← flush_scrub hpayload htracked]
  refine clean_apply hclean hrow haction ?_ ?_
  · rw [hstatement, settle_apply hheld howned hrow hid]
  · rw [flush_state]
    · exact hsettled
    · intro hsame
      rw [hsame, howned.1] at hsettled
      exact absurd hsettled (by simp [terminalStates])

theorem leavesClean_of_clean (hstate : state.Tracked) (hclean : (step state action).Clean) :
    LeavesClean state action := by
  cases action with
  | succeed worker =>
    intro held hheld howned row hrow hid
    exact scrubbable_of_settled hstate hclean (by simp) rfl hheld howned hrow hid
      (by simp [Job.succeed, terminalStates]) rfl
  | fail worker failure now =>
    intro held hheld howned hdead row hrow hid
    refine scrubbable_of_settled hstate hclean (by simp) rfl hheld howned hrow hid ?_ ?_
    · rw [Job.fail_state, if_pos hdead]
      simp [terminalStates]
    · rw [Job.fail_payload, if_pos hdead]
  | requeueStale leaseTimeoutSeconds limit now locked listed =>
    intro row hexpired hexhausted
    have hrow := (mem_expired hexpired).1
    have hpayload := Job.reclaim_payload row now
    rw [if_pos hexhausted] at hpayload
    rw [← clean_scrub_iff, ← hpayload]
    refine clean_apply hclean hrow (by simp) ?_ ?_
    · simp only [State.statement, Update.apply, reclaimStatement]
      exact if_pos (decide_eq_true (List.mem_map_of_mem hexpired))
    · rw [Job.reclaim_state, if_pos hexhausted]
      simp [terminalStates]
  | cancelWrite client =>
    intro held hheld row hrow hid
    have hcancelled := flush_cancelled (hstate.cancelling client held hheld) row
    have happly : (state.statement (.cancelWrite client)).apply row =
        { row with state := .cancelled } := by
      have hstatement : state.statement (.cancelWrite client) =
          flushStatement held { held with state := .cancelled } := by
        simp only [State.statement, Option.mem_def.mp hheld]
      rw [hstatement, flushStatement_apply hid]
      exact hcancelled
    have hnext : ({ row with state := .cancelled } : Job).payload.clean :=
      clean_apply hclean hrow (by simp) happly (by simp [terminalStates])
    exact hnext
  | _ => trivial

theorem clean_step_iff (state : State) (action : Action) (hstate : state.Tracked ∧ state.Clean) :
    LeavesClean state action ↔ (step state action).Tracked ∧ (step state action).Clean := by
  constructor
  · intro hmeet
    exact ⟨hstate.1.step action, clean_step hstate.1 hstate.2 hmeet⟩
  · intro hnext
    exact leavesClean_of_clean hstate.1 hnext.2

/-- The jobs that are settled for good carry no credential in clear, at any moment of a run, exactly
when every step of the run that ends a job leaves its payload clean. -/
theorem terminal_jobs_clean (actions : List Action) :
    StepsMeet step LeavesClean .initial actions ↔
      ∀ before, before <+: actions → ∀ row ∈ (run step .initial before).table.rows,
        row.state ∈ terminalStates → row.payload.clean := by
  have hinitial : State.initial.Clean := by simp [State.Clean, State.initial, Table.empty]
  rw [stepsMeet_iff clean_step_iff State.initial ⟨.initial, hinitial⟩]
  refine forall₂_congr fun before _ ↦ ?_
  have htracked : (run step .initial before).Tracked := by
    refine run_invariant ?_ State.initial State.Tracked.initial before
    intro state action hstate
    exact hstate.step action
  exact and_iff_right htracked

/-- The mail of a confirmation, delivered. -/
def confirmationSent : List Action := [
  .enqueue {
    payload := [("mail_variant", .string "confirmation"), ("confirm_token", .string "token")]
    idempotencyKey := "deliver_corporate_invitation" } 0,
  .claim "worker" 1 0 [] id,
  .load "worker",
  .succeed "worker"]

/-- An invitation that is cancelled before it is sent. -/
def invitationCancelled : List Action := [
  .enqueue {
    payload := [("accept_token", .string "token")]
    idempotencyKey := "deliver_invitation" } 0,
  .cancelRead "client" "deliver_invitation" none,
  .cancelWrite "client"]

theorem credentials_at_rest :
    (∃ row ∈ (run step .initial confirmationSent).table.rows,
      row.state ∈ terminalStates ∧ ("confirm_token", .string "token") ∈ row.payload ∧
        ¬ row.payload.clean) ∧
    (∃ row ∈ (run step .initial invitationCancelled).table.rows,
      row.state ∈ terminalStates ∧ ("accept_token", .string "token") ∈ row.payload ∧
        ¬ row.payload.clean) := by
  constructor
  · decide
  · decide

end AiStp.Queue
