import AiStp.Grants.Commits

/-!
# Grants that are taken back

A revoked grant becomes active again in one way only: by a request for a direct grant that is no
retry and that names the row and its current revision (`Reactivates`). Two other answers do not say
what they seem to. An acceptance that finds the row of a revoked grant binds it as it is, and a
retry of an acceptance answers whatever became of its grant; and revoking an invitation that was
accepted is answered with success and leaves the grant. `Honest` excludes just these answers.
-/

set_option autoImplicit false

namespace AiStp.Grants

open Foundation Library Library.Transactions Library.Runs

/-! ### Answers and what they are about -/

def Desk.hasActive (desk : Desk) (target : Target) (accountId : String) : Bool :=
  desk.grants.entries.any fun entry ↦ entry.2.isFor target accountId ∧ entry.2.state = .active

/-- The row of the grant is there and revoked. -/
def Desk.isRevoked (desk : Desk) (grantId : String) : Bool :=
  (desk.grants.get? grantId).any (·.state = .revoked)

abbrev Service := Machine Desk Lock Work

abbrev Event := Transactions.Action Work Scene

def opened : Service := ⟨.opened, .empty⟩

def Answered (before after : Service) (answer : Answer) : Prop :=
  after.db.answers = before.db.answers ++ [answer]

instance (before after : Service) (answer : Answer) : Decidable (Answered before after answer) :=
  inferInstanceAs (Decidable (_ = _))

/-- What is answered next is so: a bound grant is not revoked, and the grant of an invitation that
is revoked is. -/
def Desk.honest (desk : Desk) : Work → Bool
  | .replaying _ _ view => !desk.isRevoked view.grantId
  | .accepting _ _ _ (some grantId) => !desk.isRevoked grantId
  | .withdrawing invitationId _ =>
    (desk.invitations.get? invitationId).all fun row ↦ row.acceptedGrantId.all desk.isRevoked
  | _ => true

def Honest (service : Service) : Event → Prop
  | .begin _ _ => True
  | .advance id _ => ∀ current ∈ service.running.get? id, service.db.honest current.state = true

instance (service : Service) : DecidablePred (Honest service)
  | .begin _ _ => inferInstanceAs (Decidable True)
  | .advance id _ => inferInstanceAs (Decidable (∀ current ∈ service.running.get? id, _ = true))

/-- A request for a direct grant, under a key that no request has used, names the row of the grant
and its revision. -/
def Reactivates (grantId : String) (service : Service) : Event → Prop
  | .begin _ _ => False
  | .advance id _ => ∃ current accountId body digest, service.running.get? id = some current ∧
      current.state = .directing accountId body digest ∧
      service.db.receipts.get? (accountId, body.idempotencyKey) = none ∧
      body.expectedGrantId = some grantId ∧
      ∃ grant, service.db.grants.get? grantId = some grant ∧
        body.expectedRevision = some grant.revision

variable {primitives : Primitives}

theorem Desk.hasActive_iff {desk : Desk} {target : Target} {accountId : String} :
    desk.hasActive target accountId = true ↔ ∃ grantId grant,
      desk.grants.get? grantId = some grant ∧ grant.target = target ∧
        grant.granteeAccountId = accountId ∧ grant.state = .active := by
  unfold Desk.hasActive
  rw [List.any_eq_true]
  simp only [AccessGrant.isFor, decide_eq_true_eq, Prod.exists, Table.mem_entries, and_assoc]

variable {grantId : String}

theorem Desk.isRevoked_iff {desk : Desk} : desk.isRevoked grantId = true ↔
    ∃ grant, desk.grants.get? grantId = some grant ∧ grant.state = .revoked := by
  unfold Desk.isRevoked
  cases desk.grants.get? grantId <;> simp

/-- The account of a revoked grant has no other row for the line. -/
theorem DeskSound.hasActive_eq_false {desk : Desk} (hsound : DeskSound desk) {grant : AccessGrant}
    (hgrant : desk.grants.get? grantId = some grant) (hrevoked : grant.state = .revoked) :
    desk.hasActive grant.target grant.granteeAccountId = false := by
  rw [Bool.eq_false_iff]
  intro hactive
  obtain ⟨other, held, hheld, htarget, hgrantee, hstate⟩ := Desk.hasActive_iff.mp hactive
  have hsame : other = grantId := hsound.single other grantId held grant hheld hgrant htarget hgrantee
  rw [hsame, hgrant] at hheld
  rw [Option.some.inj hheld, hstate] at hrevoked
  cases hrevoked

/-! ### One step -/

variable {invitationId : String}

section Steps

variable {desk after : Desk} {work : Work} {locks taken : List Lock} {answer : Answer}

theorem Commit.answers (hcommit : Commit primitives desk work taken answer after) :
    after.answers = desk.answers := by
  cases hcommit <;> rfl

/-- A revoked grant stays revoked, unless its row and revision were named. -/
theorem Commit.isRevoked (hcommit : Commit primitives desk work taken answer after)
    (hrevoked : desk.isRevoked grantId = true) :
    after.isRevoked grantId = true ∨ ∃ accountId body digest grant,
      work = .directing accountId body digest ∧ body.expectedGrantId = some grantId ∧
        desk.grants.get? grantId = some grant ∧ body.expectedRevision = some grant.revision := by
  obtain ⟨grant, hgrant, hstate⟩ := Desk.isRevoked_iff.mp hrevoked
  cases hcommit with
  | acceptedNew accountId invitationId other row view grants _ hinsert =>
    obtain ⟨held, hheld, rfl⟩ := Table.keeps_insert? (fun _ ↦ rfl) hinsert grantId grant hgrant
    exact .inl (Desk.isRevoked_iff.mpr ⟨grant, hheld, hstate⟩)
  | directNew accountId digest grantee other body view grants references receipts _ hinsert _ =>
    obtain ⟨held, hheld, rfl⟩ := Table.keeps_insert? (fun _ ↦ rfl) hinsert grantId grant hgrant
    exact .inl (Desk.isRevoked_iff.mpr ⟨grant, hheld, hstate⟩)
  | directExisting accountId digest other body view held receipts hheld hcheck _ =>
    by_cases hother : grantId = other
    · subst hother
      rw [hgrant] at hheld
      rw [← Option.some.inj hheld] at hcheck
      unfold checkExisting at hcheck
      rw [if_pos (.inr (.inr hstate))] at hcheck
      simp only [bind_eq_ok, require_eq_ok, decide_eq_true_eq, checkRevision] at hcheck
      obtain ⟨-, hid, hrevision, -⟩ := hcheck
      exact .inr ⟨accountId, body, digest, grant, rfl, hid, hgrant, hrevision⟩
    · exact .inl (Desk.isRevoked_iff.mpr ⟨grant, (Table.get?_update_of_ne hother).trans hgrant,
        hstate⟩)
  | revoked accountId other digest body held receipts hheld _ =>
    left
    by_cases hother : grantId = other
    · subst hother
      rw [hgrant] at hheld
      rw [← Option.some.inj hheld]
      refine Desk.isRevoked_iff.mpr ⟨grant.withdrawn, Table.get?_update_self hgrant, ?_⟩
      unfold AccessGrant.withdrawn
      rw [if_neg (by simp [hstate])]
      exact hstate
    · exact Desk.isRevoked_iff.mpr ⟨grant, (Table.get?_update_of_ne hother).trans hgrant, hstate⟩
  | _ => exact .inl hrevoked

theorem Commit.hasActive_accepted {accountId : String} {view : GrantView} (hsound : DeskSound desk)
    (hrelies : Relies desk locks work) (hhonest : desk.honest work = true)
    (hcommit : Commit primitives desk work taken (.accepted invitationId accountId view) after) :
    ∃ row, after.invitations.get? invitationId = some row ∧
      after.hasActive row.target accountId = true := by
  cases hcommit with
  | replayed =>
    obtain ⟨row, hrow, -, hbound, grant, hgrant, hgrantee⟩ := hrelies
    obtain ⟨held, hheld, htarget⟩ := hsound.bound invitationId row hrow _ hbound
    have hsame : held = grant := Option.some.inj (hheld.symm.trans hgrant)
    refine ⟨row, hrow, Desk.hasActive_iff.mpr ⟨view.grantId, grant, hgrant, hsame ▸ htarget,
      hgrantee, ?_⟩⟩
    cases hstate : grant.state with
    | active => rfl
    | revoked =>
      have hrevoked := Desk.isRevoked_iff.mpr ⟨grant, hgrant, hstate⟩
      simp [Desk.honest, hrevoked] at hhonest
  | accepted _ _ grantId row grant hgrant =>
    obtain ⟨-, hrow, -, hbound⟩ := hrelies
    obtain ⟨held, hheld, htarget, hgrantee⟩ := hbound grantId rfl
    have hsame : held = grant := Option.some.inj (hheld.symm.trans hgrant)
    refine ⟨row.acceptedBy grantId, Table.get?_update_self hrow,
      Desk.hasActive_iff.mpr ⟨grantId, grant, hgrant, hsame ▸ htarget, hsame ▸ hgrantee, ?_⟩⟩
    cases hstate : grant.state with
    | active => rfl
    | revoked =>
      have hrevoked := Desk.isRevoked_iff.mpr ⟨grant, hgrant, hstate⟩
      simp [Desk.honest, hrevoked] at hhonest
  | acceptedNew _ _ grantId row _ grants hnone hinsert =>
    obtain ⟨-, hrow, -, -⟩ := hrelies
    exact ⟨row.acceptedBy grantId, Table.get?_update_self hrow, Desk.hasActive_iff.mpr ⟨grantId, _,
      ((Table.insert?_eq_some hinsert).2 grantId).trans (if_pos rfl), rfl, rfl, rfl⟩⟩

/-- A retry of a revocation, or the grant is revoked now. -/
theorem Commit.revokedGrant {accountId : String} (hrelies : Relies desk locks work)
    (hcommit : Commit primitives desk work taken (.revokedGrant accountId grantId) after) :
    (∃ body receipt, desk.receipts.get? (accountId, body.idempotencyKey) = some receipt ∧
      ∃ digest, work = .revoking accountId grantId body digest (some receipt)) ∨
    after.isRevoked grantId = true := by
  cases hcommit with
  | revokedAgain _ _ digest body receipt => exact .inl ⟨body, receipt, hrelies.2, digest, rfl⟩
  | revoked _ _ digest body grant receipts hgrant _ =>
    refine .inr (Desk.isRevoked_iff.mpr ⟨grant.withdrawn, Table.get?_update_self hgrant, ?_⟩)
    unfold AccessGrant.withdrawn
    split_ifs with hstate
    · rfl
    · cases hstate' : grant.state with
      | active => exact absurd hstate' hstate
      | revoked => rfl

theorem Commit.revokedInvitation (hrelies : Relies desk locks work)
    (hhonest : desk.honest work = true)
    (hcommit : Commit primitives desk work taken (.revokedInvitation invitationId) after) :
    ∃ row, after.invitations.get? invitationId = some row ∧ row.state ≠ .pending ∧
      ∀ grantId ∈ row.acceptedGrantId, after.isRevoked grantId = true := by
  cases hcommit with
  | withdrawn _ row current hpending hcurrent =>
    refine ⟨{ current with state := .revoked }, Table.get?_update_self hcurrent, nofun, ?_⟩
    simp only [Desk.honest, hcurrent, Option.all_some] at hhonest
    intro grantId hbound
    rw [show current.acceptedGrantId = some grantId from hbound] at hhonest
    exact hhonest
  | withdrawnAgain _ row hpending =>
    obtain ⟨current, hcurrent, hstate⟩ := hrelies
    refine ⟨current, hcurrent, hstate hpending, ?_⟩
    simp only [Desk.honest, hcurrent, Option.all_some] at hhonest
    intro grantId hbound
    rw [Option.mem_def.mp hbound] at hhonest
    exact hhonest

end Steps

/-! ### Runs -/

/-- The service after the events. -/
def reached (primitives : Primitives) (events : List Event) : Service :=
  run (step (service primitives)) opened events

theorem reached_append (primitives : Primitives) (events later : List Event) :
    reached primitives (events ++ later) =
      run (step (service primitives)) (reached primitives events) later :=
  run_append _ _ _ _

theorem sound_reached (primitives : Primitives) (events : List Event) :
    Sound DeskSound Relies (reached primitives events) :=
  run_sound service_keeps opened (sound_idle sound_opened) events

/-- In every run an account has one row for a line, and an invitation is accepted with a grant for
its line. -/
theorem desk_sound (primitives : Primitives) (events : List Event) :
    DeskSound (reached primitives events).db :=
  (sound_reached primitives events).invariant

variable {before : Service} {event : Event}

section

variable (hsound : Sound DeskSound Relies before)
include hsound

/-- An answer comes with a commit of an open request. -/
theorem commit_of_answered {answer : Answer}
    (hanswered : Answered before (step (service primitives) before event) answer) :
    ∃ id scene current taken desk, event = .advance id scene ∧
      before.running.get? id = some current ∧
      Relies before.db current.locks current.state ∧
      Commit primitives before.db current.state taken answer desk ∧
      (step (service primitives) before event).db = desk.answer answer := by
  rcases step_db (service primitives) before event with hsame |
    ⟨id, scene, current, taken, rfl, hcurrent, -, hstatement⟩
  · unfold Answered at hanswered
    rw [hsame] at hanswered
    simp at hanswered
  · obtain ⟨other, desk, hcommit, hafter⟩ := statement_commit hstatement
    have hother : other = answer := by
      unfold Answered at hanswered
      rw [hafter] at hanswered
      change desk.answers ++ [other] = _ at hanswered
      rw [hcommit.answers, List.append_cancel_left_eq] at hanswered
      exact (List.cons.inj hanswered).1
    subst hother
    exact ⟨id, scene, current, taken, desk, rfl, hcurrent, hsound.relies id current hcurrent,
      hcommit, hafter⟩

/-- A revoked grant stays revoked until it is reactivated. -/
theorem isRevoked_step (hrevoked : before.db.isRevoked grantId = true) :
    (step (service primitives) before event).db.isRevoked grantId = true ∨
      Reactivates grantId before event := by
  rcases step_db (service primitives) before event with hsame |
    ⟨id, scene, current, taken, rfl, hcurrent, -, hstatement⟩
  · rw [hsame]
    exact .inl hrevoked
  · obtain ⟨answer, desk, hcommit, hafter⟩ := statement_commit hstatement
    rw [hafter]
    rcases hcommit.isRevoked hrevoked with hkept | ⟨accountId, body, digest, grant, hwork, hid,
      hgrant, hrevision⟩
    · exact .inl hkept
    · have hrelies := hsound.relies id current hcurrent
      rw [hwork] at hrelies
      exact .inr ⟨current, accountId, body, digest, hcurrent, hwork, hrelies.2, hid, grant, hgrant,
        hrevision⟩

/-- While a revoked grant is not reactivated, its account has no active grant for the line. -/
theorem isRevoked_run (hrevoked : before.db.isRevoked grantId = true) (later : List Event)
    (hmeet : StepsMeet (step (service primitives))
      (fun service event ↦ ¬Reactivates grantId service event) before later) :
    ∃ grant, (run (step (service primitives)) before later).db.grants.get? grantId = some grant ∧
      (run (step (service primitives)) before later).db.hasActive grant.target
        grant.granteeAccountId = false := by
  have h : Sound DeskSound Relies (run (step (service primitives)) before later) ∧
      (run (step (service primitives)) before later).db.isRevoked grantId = true := by
    refine run_invariant_of_stepsMeet (motive := fun service ↦
      Sound DeskSound Relies service ∧ service.db.isRevoked grantId = true) ?_ before
      ⟨hsound, hrevoked⟩ later hmeet
    intro service event hservice hkept
    refine ⟨step_sound service_keeps service event hservice.1, ?_⟩
    exact (isRevoked_step hservice.1 hservice.2).resolve_right hkept
  obtain ⟨grant, hgrant, hstate⟩ := Desk.isRevoked_iff.mp h.2
  exact ⟨grant, hgrant, h.1.invariant.hasActive_eq_false hgrant hstate⟩

/-- An invitation that is not pending is bound to the same grant from then on. -/
theorem acceptedGrantId_run {row : GrantInvitation}
    (hrow : before.db.invitations.get? invitationId = some row) (hstate : row.state ≠ .pending)
    (later : List Event) :
    ∃ held, (run (step (service primitives)) before later).db.invitations.get? invitationId =
      some held ∧ held.acceptedGrantId = row.acceptedGrantId := by
  have h : Sound DeskSound Relies (run (step (service primitives)) before later) ∧
      ∃ held, (run (step (service primitives)) before later).db.invitations.get? invitationId =
        some held ∧ held.state ≠ .pending ∧ held.acceptedGrantId = row.acceptedGrantId := by
    refine run_invariant (motive := fun machine ↦ Sound DeskSound Relies machine ∧
      ∃ held, machine.db.invitations.get? invitationId = some held ∧ held.state ≠ .pending ∧
        held.acceptedGrantId = row.acceptedGrantId) ?_ before ⟨hsound, row, hrow, hstate, rfl⟩ later
    rintro machine event ⟨hmachine, held, hheld, hsettled, hbound⟩
    refine ⟨step_sound service_keeps machine event hmachine, ?_⟩
    rcases step_db (service primitives) machine event with hsame |
      ⟨id, scene, current, taken, rfl, hcurrent, -, hstatement⟩
    · rw [hsame]
      exact ⟨held, hheld, hsettled, hbound⟩
    · obtain ⟨answer, desk, hcommit, hafter⟩ := statement_commit hstatement
      obtain ⟨next, hnext, hlater⟩ :=
        (hcommit.effect (hmachine.relies id current hcurrent)).invitations invitationId held hheld
      rw [hafter]
      exact ⟨next, hnext, (hlater.settled hsettled).1, (hlater.settled hsettled).2.trans hbound⟩
  obtain ⟨-, held, hheld, -, hbound⟩ := h
  exact ⟨held, hheld, hbound⟩

end

/-- The answer repeats a revocation that was answered under the same key before. -/
def Retried (before : Service) (accountId grantId : String) (event : Event) : Prop :=
  ∃ id scene current body digest receipt, event = .advance id scene ∧
    before.running.get? id = some current ∧
    current.state = .revoking accountId grantId body digest (some receipt) ∧
    before.db.receipts.get? (accountId, body.idempotencyKey) = some receipt

/-- In a run whose steps are honest, an acceptance leaves its account with an active grant, and a
revoked invitation has no active grant and gets no other. In every run a revocation that is no retry
leaves its grant revoked, a revoked grant becomes active only by being reactivated, and until then
its account has no active grant for the line. -/
theorem grants_follow_answers (primitives : Primitives) (events : List Event) (event : Event) :
    (StepsMeet (step (service primitives)) Honest opened (events ++ [event]) →
      (∀ invitationId accountId view,
        Answered (reached primitives events) (reached primitives (events ++ [event]))
          (.accepted invitationId accountId view) →
        ∃ row, (reached primitives (events ++ [event])).db.invitations.get? invitationId =
            some row ∧
          (reached primitives (events ++ [event])).db.hasActive row.target accountId = true) ∧
      ∀ invitationId,
        Answered (reached primitives events) (reached primitives (events ++ [event]))
          (.revokedInvitation invitationId) →
        ∃ row, (reached primitives (events ++ [event])).db.invitations.get? invitationId =
            some row ∧
          (∀ grantId ∈ row.acceptedGrantId,
            (reached primitives (events ++ [event])).db.isRevoked grantId = true) ∧
          ∀ later, ∃ held, (reached primitives (events ++ [event] ++
              later)).db.invitations.get? invitationId = some held ∧
            held.acceptedGrantId = row.acceptedGrantId) ∧
    (∀ accountId grantId,
      Answered (reached primitives events) (reached primitives (events ++ [event]))
        (.revokedGrant accountId grantId) →
      Retried (reached primitives events) accountId grantId event ∨
        (reached primitives (events ++ [event])).db.isRevoked grantId = true) ∧
    (∀ grantId, (reached primitives events).db.isRevoked grantId = true →
      (reached primitives (events ++ [event])).db.isRevoked grantId = true ∨
        Reactivates grantId (reached primitives events) event) ∧
    ∀ grantId, (reached primitives events).db.isRevoked grantId = true →
      ∀ later, StepsMeet (step (service primitives))
          (fun service event ↦ ¬Reactivates grantId service event) (reached primitives events)
          later →
        ∃ grant, (reached primitives (events ++ later)).db.grants.get? grantId = some grant ∧
          (reached primitives (events ++ later)).db.hasActive grant.target
            grant.granteeAccountId = false := by
  have hsound := sound_reached primitives events
  have hnext := sound_reached primitives (events ++ [event])
  have hstep : reached primitives (events ++ [event]) =
      step (service primitives) (reached primitives events) event := reached_append _ _ _
  refine ⟨fun hmeet ↦ ⟨?_, ?_⟩, ?_, ?_, ?_⟩
  · intro invitationId accountId view hanswered
    rw [hstep] at hanswered ⊢
    obtain ⟨id, scene, current, taken, desk, rfl, hcurrent, hrelies, hcommit, hafter⟩ :=
      commit_of_answered hsound hanswered
    obtain ⟨hhonest, -⟩ := (stepsMeet_append.mp hmeet).2
    have hactive := hcommit.hasActive_accepted hsound.invariant hrelies (hhonest current hcurrent)
    rw [hafter]
    exact hactive
  · intro invitationId hanswered
    rw [hstep] at hanswered
    obtain ⟨id, scene, current, taken, desk, rfl, hcurrent, hrelies, hcommit, hafter⟩ :=
      commit_of_answered hsound hanswered
    obtain ⟨hhonest, -⟩ := (stepsMeet_append.mp hmeet).2
    obtain ⟨row, hrow, hstate, hrevoked⟩ :=
      hcommit.revokedInvitation hrelies (hhonest current hcurrent)
    have hfinal : (reached primitives
        (events ++ [.advance id scene])).db.invitations.get? invitationId = some row := by
      rw [hstep, hafter]
      exact hrow
    refine ⟨row, hfinal, ?_, fun later ↦ ?_⟩
    · rw [hstep, hafter]
      exact hrevoked
    · rw [reached_append]
      exact acceptedGrantId_run hnext hfinal hstate later
  · intro accountId grantId hanswered
    rw [hstep] at hanswered ⊢
    obtain ⟨id, scene, current, taken, desk, rfl, hcurrent, hrelies, hcommit, hafter⟩ :=
      commit_of_answered hsound hanswered
    rcases hcommit.revokedGrant hrelies with ⟨body, receipt, hreceipt, digest, hwork⟩ | hrevoked
    · exact .inl ⟨id, scene, current, body, digest, receipt, rfl, hcurrent, hwork, hreceipt⟩
    · rw [hafter]
      exact .inr hrevoked
  · intro grantId hrevoked
    rw [hstep]
    exact isRevoked_step hsound hrevoked
  · intro grantId hrevoked later hkept
    rw [reached_append]
    exact isRevoked_run hsound hrevoked later hkept

/-! ### A grant that is revoked and offered again -/

namespace Offered

def sample : Primitives where
  hashToken := fun token ↦ "sha256:" ++ token
  digest := fun value ↦ asciiPlatform.sha256 "" value
  lower := fun text ↦ text
  isDigit := Char.isDigit

def target : Target := ⟨.component, "component_1", 1⟩

def scene (token id : String) : Scene where
  mayIssue := fun accountId _ ↦ accountId = "owner"
  identities := [⟨"friend", "friend@example.com"⟩]
  token := token
  id := id

/-- An invitation, under its own id and token. -/
def invite (transaction : Nat) (invitationId : String) : List Event :=
  [.begin transaction (.invite "owner" ⟨target, "friend@example.com", 3600, invitationId⟩),
    .advance transaction (scene invitationId invitationId)]

/-- An acceptance up to its last statement. -/
def accept (transaction : Nat) (invitationId : String) : List Event :=
  [.begin transaction (.accept "friend" invitationId invitationId),
    .advance transaction (scene "" "")]

def revoke (transaction : Nat) : List Event :=
  [.begin transaction (.revokeGrant "owner" "grant" ⟨"", some 1, "revoke"⟩),
    .advance transaction (scene "" ""), .advance transaction (scene "" "")]

def granted : List Event := invite 1 "first" ++ accept 2 "first"

/-- The grant is made and revoked, and the account is invited again and accepts. -/
def offeredAgain : List Event :=
  granted ++ [.advance 2 (scene "" "grant")] ++ revoke 3 ++ invite 4 "second" ++
    accept 5 "second" ++ [.advance 5 (scene "" "other grant")]

end Offered

/-- The second acceptance is answered with success, and the account has no active grant. -/
theorem accepted_without_grant :
    Answered (reached Offered.sample Offered.offeredAgain)
      (reached Offered.sample
        (Offered.offeredAgain ++ [.advance 5 (Offered.scene "" "other grant")]))
      (.accepted "second" "friend" ⟨"grant",
        ⟨Offered.target, "owner", "friend", 2, .revoked⟩, none⟩) ∧
    (reached Offered.sample (Offered.offeredAgain ++
      [.advance 5 (Offered.scene "" "other grant")])).db.hasActive Offered.target "friend" =
        false := by
  decide +kernel

/-- The first acceptance leaves the account with an active grant. -/
theorem accepted_with_grant :
    ∃ row, (reached Offered.sample (Offered.granted ++
        [.advance 2 (Offered.scene "" "grant")])).db.invitations.get? "first" = some row ∧
      (reached Offered.sample (Offered.granted ++
        [.advance 2 (Offered.scene "" "grant")])).db.hasActive row.target "friend" = true :=
  ((grants_follow_answers Offered.sample Offered.granted
    (.advance 2 (Offered.scene "" "grant"))).1 (by decide +kernel)).1 "first" "friend"
      ⟨"grant", ⟨Offered.target, "owner", "friend", 1, .active⟩, none⟩ (by decide +kernel)

end AiStp.Grants
