import AiStp.Corporate.Invitations
import AiStp.Foundation.Platform

/-!
# What a revoked invitation still does

An invitation is closed once it is accepted, expired or revoked, or once its time has passed. No
event makes a member through a closed invitation, and no event opens it again (`closed_step`). So a
revocation holds if the invitation is closed when the caller is told. A revocation writes only a
pending row: told of an invitation that waits for its confirmation, it changes nothing and answers
with success all the same, and a key that was used before is answered from its receipt, whatever
invitation the new request names. `Conclusive` excludes just these answers.
-/

set_option autoImplicit false

namespace AiStp.Corporate

open Foundation Library Runs

variable (digests : Digests)

/-- Nobody can become a member through the row any more. -/
def CorporateInvitation.Closed (row : CorporateInvitation) (now : Nat) : Prop :=
  (row.state ≠ .pending ∧ row.state ≠ .emailConfirmPending) ∨ row.expiresAt ≤ now

instance (row : CorporateInvitation) (now : Nat) : Decidable (row.Closed now) :=
  inferInstanceAs (Decidable (_ ∨ _))

def Office.Closed (office : Office) (invitationId : String) : Prop :=
  ∃ row ∈ office.invitations.get? invitationId, row.Closed office.now

instance (office : Office) (invitationId : String) : Decidable (office.Closed invitationId) :=
  match hrow : office.invitations.get? invitationId with
  | some row => decidable_of_iff (row.Closed office.now) (by simp [Office.Closed, hrow])
  | none => isFalse (by simp [Office.Closed, hrow])

/-- The memberships that an invitation led to. -/
def Office.joiningsOf (office : Office) (invitationId : String) : List Joining :=
  office.joinings.filter (·.invitationId = invitationId)

/-! ### What an event does -/

/-- What lets an account in, as the row demands it. -/
def Proven (scene : Scene) (row : CorporateInvitation) (accountId : String) : Evidence → Prop
  | .identity identity token =>
    row.state = .pending ∧ digests.hash token = row.tokenHash ∧
      verifiedIdentity digests scene accountId row.recipientEmailNormalized = some identity
  | .confirmation token =>
    row.state = .emailConfirmPending ∧ row.claimantAccountId = some accountId ∧
      row.confirmationTokenHash = some (digests.hash token)

/-- What the handling of a locked row changes. -/
inductive Handled (office : Office) : Office → Prop
  | same : Handled office office
  | expired (invitationId : String) (row : CorporateInvitation)
      (hrow : office.invitations.get? invitationId = some row)
      (hopen : row.state = .pending ∨ row.state = .emailConfirmPending) :
      Handled office (office.expire invitationId row)
  | sent (scene : Scene) (invitationId accountId : String) (row : CorporateInvitation)
      (hrow : office.invitations.get? invitationId = some row)
      (hopen : ¬row.Closed office.now) :
      Handled office (office.sendConfirmation digests scene invitationId row accountId)
  | activated (scene : Scene) (invitationId accountId : String) (row : CorporateInvitation)
      (evidence : Evidence) (hrow : office.invitations.get? invitationId = some row)
      (hopen : ¬row.Closed office.now) (hproven : Proven digests scene row accountId evidence) :
      Handled office (office.activate invitationId row accountId evidence)

variable {row : CorporateInvitation}

theorem not_closed_of_unexpired {now : Nat}
    (hstate : row.state = .pending ∨ row.state = .emailConfirmPending)
    (hunexpired : ¬row.expired now = true) : ¬row.Closed now := by
  unfold CorporateInvitation.expired at hunexpired
  unfold CorporateInvitation.Closed
  rcases hstate with hstate | hstate <;> simpa [hstate] using hunexpired

variable {accountId : String} {ending : Ending}

/-- A claim sends a confirmation, or makes a member of an account with the invited address. -/
theorem acceptPending_eq_ok {scene : Scene} {token : String}
    (h : acceptPending digests scene row accountId token = .ok ending) :
    ending = .confirmationSent ∨
      (∃ member, ending = .activated member) ∧ digests.hash token = row.tokenHash ∧
        row.recipientEmailNormalized ∈ verifiedEmails digests scene accountId := by
  unfold acceptPending at h
  simp only [bind_eq_ok, require_eq_ok, decide_eq_true_eq] at h
  obtain ⟨-, htoken, view, -, h⟩ := h
  by_cases hemail : row.recipientEmailNormalized ∈ verifiedEmails digests scene accountId
  · rw [if_pos hemail] at h
    cases hmember : activateMembership scene view row accountId with
    | error error =>
      rw [hmember] at h
      cases h
    | ok member =>
      rw [hmember] at h
      exact .inr ⟨⟨member, (Except.ok.inj h).symm⟩, htoken, hemail⟩
  · rw [if_neg hemail] at h
    exact .inl (Except.ok.inj h).symm

theorem verifiedIdentity_of_mem {scene : Scene} {email : String}
    (hemail : email ∈ verifiedEmails digests scene accountId) :
    ∃ identity, verifiedIdentity digests scene accountId email = some identity := by
  unfold verifiedEmails at hemail
  obtain ⟨identity, hidentity, hsame⟩ := List.mem_map.mp hemail
  obtain ⟨hmem, hverified⟩ := List.mem_filter.mp hidentity
  apply Option.isSome_iff_exists.mp
  unfold verifiedIdentity
  rw [List.find?_isSome]
  refine ⟨identity, hmem, ?_⟩
  simp only [decide_eq_true_eq] at hverified ⊢
  exact ⟨hverified.1, hverified.2.1, hverified.2.2, hsame⟩

/-- What accepting may do. -/
theorem acceptInvitation_eq_ok {scene : Scene} {now : Nat} {token : String}
    (h : acceptInvitation digests scene now row accountId token = .ok ending) :
    (∃ member, ending = .known member) ∨
    (ending = .expired ∧ (row.state = .pending ∨ row.state = .emailConfirmPending)) ∨
    (ending = .confirmationSent ∧ ¬row.Closed now) ∨
    ((∃ member, ending = .activated member) ∧ ¬row.Closed now ∧ row.state = .pending ∧
      digests.hash token = row.tokenHash ∧
      row.recipientEmailNormalized ∈ verifiedEmails digests scene accountId) := by
  unfold acceptInvitation at h
  cases hknown : acceptedMember scene row accountId with
  | some member =>
    rw [hknown] at h
    exact .inl ⟨member, (Except.ok.inj h).symm⟩
  | none =>
    rw [hknown] at h
    right
    cases hstate : row.state with
    | emailConfirmPending =>
      rw [hstate] at h
      simp only [bind_eq_ok, require_eq_ok] at h
      obtain ⟨-, -, h⟩ := h
      by_cases hexpired : row.expired now = true
      · rw [if_pos hexpired] at h
        exact .inl ⟨(Except.ok.inj h).symm, .inr rfl⟩
      · rw [if_neg hexpired] at h
        simp only [bind_eq_ok] at h
        obtain ⟨-, -, -, -, h⟩ := h
        exact .inr (.inl ⟨(Except.ok.inj h).symm,
          not_closed_of_unexpired (.inr hstate) hexpired⟩)
    | pending =>
      rw [hstate] at h
      dsimp only at h
      by_cases hexpired : row.expired now = true
      · rw [if_pos hexpired] at h
        exact .inl ⟨(Except.ok.inj h).symm, .inl rfl⟩
      · rw [if_neg hexpired] at h
        have hopen := not_closed_of_unexpired (.inl hstate) hexpired
        rcases acceptPending_eq_ok digests h with hsent | ⟨hmember, htoken, hemail⟩
        · exact .inr (.inl ⟨hsent, hopen⟩)
        · exact .inr (.inr ⟨hmember, hopen, rfl, htoken, hemail⟩)
    | _ => rw [hstate] at h; cases h

/-- What confirming may do: it sends nothing. -/
theorem confirmInvitation_eq_ok {scene : Scene} {now : Nat} {token : String}
    (h : confirmInvitation digests scene now row accountId token = .ok ending) :
    (∃ member, ending = .known member) ∨
    (ending = .expired ∧ (row.state = .pending ∨ row.state = .emailConfirmPending)) ∨
    ((∃ member, ending = .activated member) ∧ ¬row.Closed now ∧
      Proven digests scene row accountId (.confirmation token)) := by
  unfold confirmInvitation at h
  cases hknown : acceptedMember scene row accountId with
  | some member =>
    rw [hknown] at h
    exact .inl ⟨member, (Except.ok.inj h).symm⟩
  | none =>
    rw [hknown] at h
    right
    cases hstate : row.state with
    | emailConfirmPending =>
      rw [hstate] at h
      dsimp only at h
      by_cases hexpired : row.expired now = true
      · rw [if_pos hexpired] at h
        exact .inl ⟨(Except.ok.inj h).symm, .inr rfl⟩
      · rw [if_neg hexpired] at h
        simp only [bind_eq_ok, require_eq_ok, decide_eq_true_eq] at h
        obtain ⟨-, hclaimant, -, htoken, view, -, h⟩ := h
        cases hmember : activateMembership scene view row accountId with
        | error error =>
          rw [hmember] at h
          cases h
        | ok member =>
          rw [hmember] at h
          exact .inr ⟨⟨member, (Except.ok.inj h).symm⟩,
            not_closed_of_unexpired (.inr hstate) hexpired, hstate, hclaimant, htoken⟩
    | _ => rw [hstate] at h; cases h

/-- What an answer to an invitation does, from what its handler may end with. -/
theorem handle_handled {office : Office} {scene : Scene} {invitationId accountId : String}
    {evidence : Evidence} {handler : CorporateInvitation → Except ApiError Ending}
    (h : ∀ row ending, office.invitations.get? invitationId = some row →
      handler row = .ok ending → (∃ member, ending = .known member) ∨
        (ending = .expired ∧ (row.state = .pending ∨ row.state = .emailConfirmPending)) ∨
        (ending = .confirmationSent ∧ ¬row.Closed office.now) ∨
        ((∃ member, ending = .activated member) ∧ ¬row.Closed office.now ∧
          Proven digests scene row accountId evidence)) :
    Handled digests office
      (office.handle digests scene invitationId accountId evidence handler) := by
  unfold Office.handle
  cases hrow : office.invitations.get? invitationId with
  | none => exact .same
  | some row =>
    dsimp only
    cases hending : handler row with
    | error error => exact .same
    | ok ending =>
      rcases h row ending hrow hending with ⟨member, rfl⟩ | ⟨rfl, hopen⟩ | ⟨rfl, hopen⟩ |
        ⟨⟨member, rfl⟩, hopen, hproven⟩
      · exact .same
      · exact .expired invitationId row hrow hopen
      · exact .sent scene invitationId accountId row hrow hopen
      · exact .activated scene invitationId accountId row _ hrow hopen hproven

theorem accept_handled (office : Office) (scene : Scene) (invitationId accountId token : String) :
    Handled digests office (office.step digests (.accept scene invitationId accountId token)) := by
  refine handle_handled digests fun row ending hrow hending ↦ ?_
  refine (acceptInvitation_eq_ok digests hending).imp_right fun hending ↦
    hending.imp_right fun hending ↦ hending.imp_right ?_
  rintro ⟨hmember, hopen, hstate, htoken, hemail⟩
  obtain ⟨identity, hidentity⟩ := verifiedIdentity_of_mem digests hemail
  have hevidence : acceptEvidence digests office scene invitationId accountId token =
      .identity identity token := by
    unfold acceptEvidence
    rw [hrow, Option.bind_some, hidentity]
  rw [hevidence]
  exact ⟨hmember, hopen, hstate, htoken, hidentity⟩

theorem confirm_handled (office : Office) (scene : Scene) (invitationId accountId token : String) :
    Handled digests office (office.step digests (.confirm scene invitationId accountId token)) := by
  refine handle_handled digests fun row ending hrow hending ↦ ?_
  exact (confirmInvitation_eq_ok digests hending).imp_right fun hending ↦
    hending.imp_right .inr

/-- What an event changes. -/
inductive Written (office : Office) : Office → Prop
  | handled {after : Office} (hhandled : Handled digests office after) : Written office after
  | quiet {after : Office} (hinvitations : after.invitations = office.invitations)
      (hmails : after.mails = office.mails) (hjoinings : after.joinings = office.joinings)
      (hnow : office.now ≤ after.now) : Written office after
  | created {after : Office} (invitationId token : String) (row : CorporateInvitation)
      (hinsert : office.invitations.insert? invitationId row = some after.invitations)
      (hstate : row.state = .pending) (htoken : row.tokenHash = digests.hash token)
      (hmails : after.mails = office.mails ++
        [⟨invitationId, row.recipientEmailNormalized, none, token⟩])
      (hjoinings : after.joinings = office.joinings) (hnow : after.now = office.now) :
      Written office after
  | revoked {after : Office} (revoking : Revoking)
      (hinvitations : after.invitations = office.invitations.mapRows fun invitationId row ↦
        if invitationId = revoking.invitationId then revoking.write row else row)
      (hmails : after.mails = office.mails) (hjoinings : after.joinings = office.joinings)
      (hnow : after.now = office.now) : Written office after

variable {office after : Office} {organizationId : String}

theorem createInvitation_written {scene : Scene} {payload : CorporateInvitationCreateRequest}
    {view : InvitationView}
    (h : office.createInvitation digests scene accountId organizationId payload = .ok (view, after)) :
    Written digests office after := by
  unfold Office.createInvitation at h
  rw [bind_eq_ok] at h
  obtain ⟨⟨found, receipt⟩, -, h⟩ := h
  cases receipt with
  | some receipt =>
    obtain ⟨-, rfl⟩ := Prod.mk.inj (Except.ok.inj h)
    exact .handled .same
  | none =>
    simp only [Office.addInvitation, bind_eq_ok, require_eq_ok, found_eq_ok] at h
    obtain ⟨-, -, -, -, invitations, hinsert, receipts, -, h⟩ := h
    obtain ⟨-, rfl⟩ := Prod.mk.inj (Except.ok.inj h)
    exact .created (scene.ids 0) scene.token _ hinsert rfl rfl rfl rfl rfl

variable {revoking : Revoking}

theorem finishRevocation_eq_ok {view : InvitationView}
    (h : office.finishRevocation digests organizationId revoking = .ok (view, after)) :
    after.invitations = office.invitations.mapRows (fun invitationId row ↦
        if invitationId = revoking.invitationId then revoking.write row else row) ∧
      after.mails = office.mails ∧ after.joinings = office.joinings ∧ after.now = office.now ∧
      after.revoking = office.revoking ∧ after.answered = office.answered := by
  simp only [Office.finishRevocation, bind_eq_ok, found_eq_ok] at h
  obtain ⟨receipts, -, h⟩ := h
  obtain ⟨-, rfl⟩ := Prod.mk.inj (Except.ok.inj h)
  exact ⟨rfl, rfl, rfl, rfl, rfl, rfl⟩

theorem settleRevocation_written (office : Office) (organizationId : String) (revoking : Revoking) :
    Written digests office (office.settleRevocation digests organizationId revoking) := by
  unfold Office.settleRevocation
  cases hfinish : office.finishRevocation digests organizationId revoking with
  | error error => exact .quiet rfl rfl rfl le_rfl
  | ok answer =>
    obtain ⟨view, after⟩ := answer
    obtain ⟨hinvitations, hmails, hjoinings, hnow, -, -⟩ := finishRevocation_eq_ok digests hfinish
    exact .revoked revoking hinvitations hmails hjoinings hnow

theorem step_written (office : Office) (event : Event) :
    Written digests office (office.step digests event) := by
  cases event with
  | tick => exact .quiet rfl rfl rfl (Nat.le_succ _)
  | create scene accountId organizationId payload =>
    show Written digests office (if office.unlocked organizationId then _ else office)
    split_ifs
    · cases hcreate : office.createInvitation digests scene accountId organizationId payload with
      | error error => exact .handled .same
      | ok answer => exact createInvitation_written digests hcreate
    · exact .handled .same
  | accept scene invitationId accountId token =>
    exact .handled (accept_handled digests office scene invitationId accountId token)
  | confirm scene invitationId accountId token =>
    exact .handled (confirm_handled digests office scene invitationId accountId token)
  | revoke scene accountId organizationId invitationId payload =>
    show Written digests office (if office.unlocked organizationId then _ else office)
    split_ifs
    · cases office.readRevocation digests scene accountId organizationId invitationId payload with
      | error error => exact .handled .same
      | ok answer => cases answer <;> exact .quiet rfl rfl rfl le_rfl
    · exact .handled .same
  | finish organizationId =>
    unfold Office.step
    dsimp only
    cases office.revoking.get? organizationId with
    | none => exact .handled .same
    | some revoking => exact settleRevocation_written digests office organizationId revoking
  | abort organizationId => exact .quiet rfl rfl rfl le_rfl

/-! ### A row that is done stays done -/

/-- Nothing more happens to the row than a revocation. -/
def CorporateInvitation.Done (row : CorporateInvitation) : Prop :=
  row.state ≠ .pending ∧ row.state ≠ .emailConfirmPending

/-- A later state of a row. -/
structure Later (row later : CorporateInvitation) : Prop where
  recipient : later.recipientEmailNormalized = row.recipientEmailNormalized
  expiry : later.expiresAt = row.expiresAt
  token : later.tokenHash = row.tokenHash
  done : row.Done → later.Done ∧ later.acceptedAccountId = row.acceptedAccountId ∧
    later.claimantAccountId = row.claimantAccountId

theorem Later.refl (row : CorporateInvitation) : Later row row :=
  ⟨rfl, rfl, rfl, fun hdone ↦ ⟨hdone, rfl, rfl⟩⟩

theorem Revoking.later_write (revoking : Revoking) (row : CorporateInvitation) :
    Later row (revoking.write row) := by
  unfold Revoking.write
  split_ifs
  · exact ⟨rfl, rfl, rfl, fun _ ↦ ⟨⟨nofun, nofun⟩, rfl, rfl⟩⟩
  · exact .refl row

theorem CorporateInvitation.closed_of_done (hdone : row.Done) (now : Nat) :
    row.Closed now := .inl hdone

theorem not_done_of_open (hopen : row.state = .pending ∨ row.state = .emailConfirmPending) :
    ¬row.Done := by
  unfold CorporateInvitation.Done
  rcases hopen with hopen | hopen <;> simp [hopen]

variable {digests}

theorem Handled.keeps (hhandled : Handled digests office after) :
    office.invitations.Keeps Later after.invitations := by
  cases hhandled with
  | same => exact Table.Keeps.refl Later.refl _
  | expired invitationId row hrow hopen =>
    exact Table.keeps_update Later.refl hrow
      ⟨rfl, rfl, rfl, fun hdone ↦ absurd hdone (not_done_of_open hopen)⟩
  | sent scene invitationId accountId row hrow hopen =>
    exact Table.keeps_update Later.refl hrow
      ⟨rfl, rfl, rfl, fun hdone ↦ absurd (row.closed_of_done hdone _) hopen⟩
  | activated scene invitationId accountId row evidence hrow hopen _ =>
    exact Table.keeps_update Later.refl hrow
      ⟨rfl, rfl, rfl, fun hdone ↦ absurd (row.closed_of_done hdone _) hopen⟩

variable (hwritten : Written digests office after)

include hwritten in
theorem Written.keeps : office.invitations.Keeps Later after.invitations := by
  cases hwritten with
  | handled hhandled => exact hhandled.keeps
  | quiet hinvitations _ _ _ =>
    rw [hinvitations]
    exact Table.Keeps.refl Later.refl _
  | created invitationId token row hinsert _ _ _ _ _ =>
    exact Table.keeps_insert? Later.refl hinsert
  | revoked revoking hinvitations _ _ _ =>
    rw [hinvitations]
    refine Table.keeps_mapRows fun invitationId row ↦ ?_
    split_ifs
    · exact revoking.later_write row
    · exact .refl row

include hwritten in
theorem Written.now_le : office.now ≤ after.now := by
  cases hwritten with
  | handled hhandled => cases hhandled <;> exact le_rfl
  | quiet _ _ _ hnow => exact hnow
  | created _ _ _ _ _ _ _ _ hnow => exact hnow.ge
  | revoked _ _ _ _ hnow => exact hnow.ge

variable {invitationId : String}

include hwritten in
/-- A closed invitation stays closed. -/
theorem Written.closed (hclosed : office.Closed invitationId) : after.Closed invitationId := by
  obtain ⟨row, hrow, hclosed⟩ := hclosed
  obtain ⟨later, hlater, hkept⟩ := hwritten.keeps invitationId row hrow
  refine ⟨later, hlater, ?_⟩
  rcases hclosed with hdone | hexpired
  · exact .inl (hkept.done hdone).1
  · right
    rw [hkept.expiry]
    exact hexpired.trans hwritten.now_le

include hwritten in
/-- Nobody becomes a member through a closed invitation. -/
theorem Written.joiningsOf (hclosed : office.Closed invitationId) :
    after.joiningsOf invitationId = office.joiningsOf invitationId := by
  unfold Office.joiningsOf
  cases hwritten with
  | handled hhandled =>
    cases hhandled with
    | same => rfl
    | expired _ _ _ _ => rfl
    | sent _ _ _ _ _ _ => rfl
    | activated scene other accountId row evidence hrow hopen _ =>
      show (office.joinings ++ [_]).filter _ = _
      rw [List.filter_append, List.filter_singleton]
      have hother : other ≠ invitationId := by
        rintro rfl
        obtain ⟨held, hheld, hclosed⟩ := hclosed
        rw [hrow] at hheld
        rw [Option.mem_some.mp hheld] at hopen
        exact hopen hclosed
      simp [hother]
  | quiet _ _ hjoinings _ => rw [hjoinings]
  | created _ _ _ _ _ _ _ hjoinings _ => rw [hjoinings]
  | revoked _ _ _ hjoinings _ => rw [hjoinings]

/-! ### Where memberships come from -/

section Evidence

variable (digests)

/-- The mail with which a token reached the invited address. -/
def Mailed (mails : List InvitationMail) (invitationId toEmail : String)
    (claimant : Option String) (tokenHash : String) : Prop :=
  ∃ mail ∈ mails, mail.invitationId = invitationId ∧ mail.toEmail = toEmail ∧
    mail.claimant = claimant ∧ digests.hash mail.token = tokenHash

/-- What the account of a membership has shown: a verified identity with the invited address and the
token mailed there, or that it claimed the invitation and the token mailed there for its claim. -/
def Shown (mails : List InvitationMail) (row : CorporateInvitation) (joining : Joining) : Prop :=
  match joining.evidence with
  | .identity identity token =>
    (identity.accountId = joining.accountId ∧ identity.linked = true ∧
      identity.emailVerified = true ∧
      digests.normalizeEmail identity.email = row.recipientEmailNormalized) ∧
    Mailed digests mails joining.invitationId row.recipientEmailNormalized none
      (digests.hash token)
  | .confirmation token =>
    row.claimantAccountId = some joining.accountId ∧
    Mailed digests mails joining.invitationId row.recipientEmailNormalized
      (some joining.accountId) (digests.hash token)

/-- The invitation was accepted by the account of the membership, on evidence. -/
def Entitled (office : Office) (joining : Joining) : Prop :=
  ∃ row ∈ office.invitations.get? joining.invitationId, row.Done ∧
    row.acceptedAccountId = some joining.accountId ∧ Shown digests office.mails row joining

/-- The tokens of a row were mailed to the invited address. -/
def Covered (mails : List InvitationMail) (invitationId : String) (row : CorporateInvitation) :
    Prop :=
  Mailed digests mails invitationId row.recipientEmailNormalized none row.tokenHash ∧
    (row.state = .emailConfirmPending → ∃ accountId tokenHash,
      row.claimantAccountId = some accountId ∧ row.confirmationTokenHash = some tokenHash ∧
      Mailed digests mails invitationId row.recipientEmailNormalized (some accountId) tokenHash)

structure Sound (office : Office) : Prop where
  covered : ∀ invitationId row, office.invitations.get? invitationId = some row →
    Covered digests office.mails invitationId row
  entitled : ∀ joining ∈ office.joinings, Entitled digests office joining
  single : (office.joinings.map (·.invitationId)).Nodup

end Evidence

theorem sound_opened : Sound digests .opened :=
  ⟨nofun, by simp [Office.opened], by simp [Office.opened]⟩

theorem Mailed.mono {mails later : List InvitationMail} (hmails : mails ⊆ later)
    {toEmail tokenHash : String} {claimant : Option String}
    (h : Mailed digests mails invitationId toEmail claimant tokenHash) :
    Mailed digests later invitationId toEmail claimant tokenHash := by
  obtain ⟨mail, hmail, hfacts⟩ := h
  exact ⟨mail, hmails hmail, hfacts⟩

theorem Covered.mono {mails later : List InvitationMail} (hmails : mails ⊆ later)
    (h : Covered digests mails invitationId row) : Covered digests later invitationId row := by
  refine ⟨h.1.mono hmails, fun hstate ↦ ?_⟩
  obtain ⟨accountId, tokenHash, hclaimant, hhash, hmailed⟩ := h.2 hstate
  exact ⟨accountId, tokenHash, hclaimant, hhash, hmailed.mono hmails⟩

variable {joining : Joining}

theorem Shown.mono {mails later : List InvitationMail} (hmails : mails ⊆ later)
    {held : CorporateInvitation}
    (hrecipient : held.recipientEmailNormalized = row.recipientEmailNormalized)
    (hclaimant : held.claimantAccountId = row.claimantAccountId)
    (h : Shown digests mails row joining) : Shown digests later held joining := by
  unfold Shown at h ⊢
  rw [hrecipient, hclaimant]
  cases hevidence : joining.evidence with
  | identity identity token =>
    rw [hevidence] at h
    exact ⟨h.1, h.2.mono hmails⟩
  | confirmation token =>
    rw [hevidence] at h
    exact ⟨h.1, h.2.mono hmails⟩

include hwritten in
theorem Written.mails : office.mails ⊆ after.mails := by
  cases hwritten with
  | handled hhandled =>
    cases hhandled with
    | same => exact List.Subset.refl _
    | expired _ _ _ _ => exact List.Subset.refl _
    | sent _ _ _ _ _ _ => exact List.subset_append_left _ _
    | activated _ _ _ _ _ _ _ _ => exact List.Subset.refl _
  | quiet _ hmails _ _ =>
    rw [hmails]
    exact List.Subset.refl _
  | created _ _ _ _ _ _ hmails _ _ =>
    rw [hmails]
    exact List.subset_append_left _ _
  | revoked _ _ hmails _ _ =>
    rw [hmails]
    exact List.Subset.refl _

include hwritten in
/-- Evidence stays with a membership, whatever happens to the invitation. -/
theorem Written.entitled (h : Entitled digests office joining) :
    Entitled digests after joining := by
  obtain ⟨row, hrow, hdone, haccepted, hshown⟩ := h
  obtain ⟨later, hlater, hkept⟩ := hwritten.keeps _ row hrow
  obtain ⟨hdone, hsame, hclaimant⟩ := hkept.done hdone
  exact ⟨later, hlater, hdone, hsame.trans haccepted,
    hshown.mono hwritten.mails hkept.recipient hclaimant⟩

/-- A row that is no longer waiting needs only the mail of its token. -/
theorem Covered.of_row {mails : List InvitationMail} {held : CorporateInvitation}
    (h : Covered digests mails invitationId row)
    (hrecipient : held.recipientEmailNormalized = row.recipientEmailNormalized)
    (htoken : held.tokenHash = row.tokenHash) (hstate : held.state ≠ .emailConfirmPending) :
    Covered digests mails invitationId held := by
  refine ⟨?_, fun hwaits ↦ absurd hwaits hstate⟩
  rw [hrecipient, htoken]
  exact h.1

theorem Revoking.covered_write {mails : List InvitationMail}
    (h : Covered digests mails invitationId row) :
    Covered digests mails invitationId (revoking.write row) := by
  unfold Revoking.write
  split_ifs
  · exact h.of_row rfl rfl nofun
  · exact h

theorem Handled.covered (hsound : Sound digests office) (hhandled : Handled digests office after) :
    ∀ invitationId row, after.invitations.get? invitationId = some row →
      Covered digests after.mails invitationId row := by
  cases hhandled with
  | same => exact hsound.covered
  | expired held row hrow _ =>
    intro invitationId later hlater
    by_cases hsame : invitationId = held
    · subst hsame
      rw [Office.expire, Table.get?_update_self hrow] at hlater
      rw [← Option.some.inj hlater]
      exact (hsound.covered _ _ hrow).of_row rfl rfl nofun
    · rw [Office.expire, Table.get?_update_of_ne hsame] at hlater
      exact hsound.covered _ _ hlater
  | sent scene held accountId row hrow _ =>
    intro invitationId later hlater
    have hmails : office.mails ⊆
        (office.sendConfirmation digests scene held row accountId).mails :=
      List.subset_append_left _ _
    by_cases hsame : invitationId = held
    · subst hsame
      rw [Office.sendConfirmation, Table.get?_update_self hrow] at hlater
      rw [← Option.some.inj hlater]
      exact ⟨((hsound.covered _ _ hrow).1).mono hmails, fun _ ↦ ⟨accountId, _, rfl, rfl, _,
        List.mem_append_right _ (List.mem_singleton_self _), rfl, rfl, rfl, rfl⟩⟩
    · rw [Office.sendConfirmation, Table.get?_update_of_ne hsame] at hlater
      exact (hsound.covered _ _ hlater).mono hmails
  | activated scene held accountId row evidence hrow _ _ =>
    intro invitationId later hlater
    by_cases hsame : invitationId = held
    · subst hsame
      rw [Office.activate, Table.get?_update_self hrow] at hlater
      rw [← Option.some.inj hlater]
      exact (hsound.covered _ _ hrow).of_row rfl rfl nofun
    · rw [Office.activate, Table.get?_update_of_ne hsame] at hlater
      exact hsound.covered _ _ hlater

theorem Written.covered (hsound : Sound digests office) (hwritten : Written digests office after) :
    ∀ invitationId row, after.invitations.get? invitationId = some row →
      Covered digests after.mails invitationId row := by
  cases hwritten with
  | handled hhandled => exact hhandled.covered hsound
  | quiet hinvitations hmails _ _ =>
    rw [hinvitations, hmails]
    exact hsound.covered
  | created held token row hinsert hstate htoken hmails _ _ =>
    intro invitationId later hlater
    rw [(Table.insert?_eq_some hinsert).2] at hlater
    rw [hmails]
    by_cases hsame : invitationId = held
    · rw [if_pos hsame] at hlater
      rw [← Option.some.inj hlater, hsame]
      refine ⟨⟨_, List.mem_append_right _ (List.mem_singleton_self _), rfl, rfl, rfl,
        htoken.symm⟩, fun hwaits ↦ ?_⟩
      rw [hstate] at hwaits
      cases hwaits
    · rw [if_neg hsame] at hlater
      exact (hsound.covered _ _ hlater).mono (List.subset_append_left _ _)
  | revoked revoking hinvitations hmails _ _ =>
    intro invitationId later hlater
    rw [hinvitations, Table.get?_mapRows, Option.map_eq_some_iff] at hlater
    obtain ⟨row, hrow, hlater⟩ := hlater
    rw [hmails, ← hlater]
    split_ifs
    · exact Revoking.covered_write (hsound.covered _ _ hrow)
    · exact hsound.covered _ _ hrow

/-- The account that an open row lets in has shown what it must. -/
theorem Proven.shown {scene : Scene} {evidence : Evidence}
    (hproven : Proven digests scene row accountId evidence) {mails : List InvitationMail}
    (hcovered : Covered digests mails invitationId row) :
    Shown digests mails row ⟨invitationId, accountId, evidence⟩ := by
  cases evidence with
  | identity identity token =>
    obtain ⟨hstate, htoken, hidentity⟩ := hproven
    have hverified := List.find?_some hidentity
    simp only [decide_eq_true_eq] at hverified
    refine ⟨hverified, ?_⟩
    show Mailed digests mails invitationId row.recipientEmailNormalized none (digests.hash token)
    rw [htoken]
    exact hcovered.1
  | confirmation token =>
    obtain ⟨hstate, hclaimant, htoken⟩ := hproven
    obtain ⟨held, tokenHash, hheld, hhash, hmailed⟩ := hcovered.2 hstate
    rw [hclaimant] at hheld
    rw [htoken] at hhash
    refine ⟨hclaimant, ?_⟩
    rw [Option.some.inj hheld, Option.some.inj hhash]
    exact hmailed

theorem Entitled.invitation_closed (h : Entitled digests office joining) :
    office.Closed joining.invitationId := by
  obtain ⟨row, hrow, hdone, -, -⟩ := h
  exact ⟨row, hrow, row.closed_of_done hdone _⟩

theorem Handled.joinings (hsound : Sound digests office) (hhandled : Handled digests office after) :
    (∀ joining ∈ after.joinings, Entitled digests after joining) ∧
      (after.joinings.map (·.invitationId)).Nodup := by
  have hkept : ∀ joining ∈ office.joinings, Entitled digests after joining :=
    fun joining hjoining ↦ (Written.handled hhandled).entitled (hsound.entitled joining hjoining)
  cases hhandled with
  | same => exact ⟨hkept, hsound.single⟩
  | expired _ _ _ _ => exact ⟨hkept, hsound.single⟩
  | sent _ _ _ _ _ _ => exact ⟨hkept, hsound.single⟩
  | activated scene invitationId accountId row evidence hrow hopen hproven =>
    constructor
    · intro joining hjoining
      rcases List.mem_append.mp hjoining with hold | hnew
      · exact hkept joining hold
      · rw [List.mem_singleton.mp hnew]
        exact ⟨_, Table.get?_update_self hrow, ⟨nofun, nofun⟩, rfl,
          (hproven.shown (hsound.covered _ _ hrow)).mono (List.Subset.refl _) rfl rfl⟩
    · show ((office.joinings ++ [_]).map _).Nodup
      rw [List.map_append, List.nodup_append]
      refine ⟨hsound.single, List.nodup_singleton _, ?_⟩
      -- An earlier membership through the invitation would have closed it.
      intro held hheld added hadded hsame
      obtain ⟨joining, hjoining, rfl⟩ := List.mem_map.mp hheld
      obtain ⟨other, hother, hclosed⟩ := (hsound.entitled joining hjoining).invitation_closed
      rw [hsame, List.mem_singleton.mp hadded, hrow] at hother
      rw [Option.mem_some.mp hother] at hopen
      exact hopen hclosed

theorem Written.sound (hsound : Sound digests office) (hwritten : Written digests office after) :
    Sound digests after := by
  have hkept : ∀ joining ∈ office.joinings, Entitled digests after joining :=
    fun joining hjoining ↦ hwritten.entitled (hsound.entitled joining hjoining)
  refine ⟨hwritten.covered hsound, ?_, ?_⟩
  · cases hwritten with
    | handled hhandled => exact (hhandled.joinings hsound).1
    | quiet _ _ hjoinings _ => exact hjoinings ▸ hkept
    | created _ _ _ _ _ _ _ hjoinings _ => exact hjoinings ▸ hkept
    | revoked _ _ _ hjoinings _ => exact hjoinings ▸ hkept
  · cases hwritten with
    | handled hhandled => exact (hhandled.joinings hsound).2
    | quiet _ _ hjoinings _ => exact hjoinings ▸ hsound.single
    | created _ _ _ _ _ _ _ hjoinings _ => exact hjoinings ▸ hsound.single
    | revoked _ _ _ hjoinings _ => exact hjoinings ▸ hsound.single

/-! ### What a caller is told -/

section Answers

variable (digests)

/-- A receipt answers the request. -/
def Office.replays (office : Office) (scene : Scene) (request : InvitationRequest) : Bool :=
  match office.authorizeIdempotent digests scene request with
  | .ok (_, some _) => true
  | _ => false

/-- A caller is told of success only about an invitation that is closed, or that the answer's own
write revokes. -/
def Conclusive (office : Office) : Event → Prop
  | .revoke scene accountId organizationId invitationId payload =>
    office.unlocked organizationId = true →
      office.replays digests scene (revokeGate accountId organizationId payload) = true →
      office.Closed invitationId
  | .finish organizationId => ∀ revoking ∈ office.revoking.get? organizationId,
      revoking.row.state = .pending ∨ office.Closed revoking.invitationId
  | _ => True

instance (office : Office) : DecidablePred (Conclusive digests office)
  | .revoke _ accountId organizationId _ payload =>
    inferInstanceAs (Decidable (office.unlocked organizationId = true →
      office.replays digests _ (revokeGate accountId organizationId payload) = true → _))
  | .finish organizationId => inferInstanceAs (Decidable
      (∀ revoking ∈ office.revoking.get? organizationId, _ ∨ _))
  | .tick | .create .. | .accept .. | .confirm .. | .abort _ => inferInstanceAs (Decidable True)

/-- What callers were told is true, and a revocation that has read an invitation will find it. -/
structure Truthful (office : Office) : Prop where
  answered : ∀ invitationId ∈ office.answered, office.Closed invitationId
  held : ∀ organizationId, ∀ revoking ∈ office.revoking.get? organizationId,
    ∃ row, office.invitations.get? revoking.invitationId = some row

end Answers

theorem truthful_opened : Truthful .opened := ⟨nofun, nofun⟩

/-- Events that tell nobody anything and take no lock. -/
theorem Truthful.of_written (htruthful : Truthful office) (hwritten : Written digests office after)
    (hanswered : after.answered = office.answered)
    (hrevoking : ∀ organizationId, ∀ revoking ∈ after.revoking.get? organizationId,
      office.revoking.get? organizationId = some revoking) : Truthful after := by
  constructor
  · intro invitationId hmem
    rw [hanswered] at hmem
    exact hwritten.closed (htruthful.answered invitationId hmem)
  · intro organizationId revoking hheld
    obtain ⟨row, hrow⟩ := htruthful.held organizationId revoking
      (hrevoking organizationId revoking hheld)
    obtain ⟨later, hlater, -⟩ := hwritten.keeps _ row hrow
    exact ⟨later, hlater⟩

/-- The write of a revocation that read a pending row closes the invitation. -/
theorem closed_of_finish {view : InvitationView}
    (hrow : office.invitations.get? revoking.invitationId = some row)
    (hpending : revoking.row.state = .pending)
    (h : office.finishRevocation digests organizationId revoking = .ok (view, after)) :
    after.Closed revoking.invitationId := by
  obtain ⟨hinvitations, -⟩ := finishRevocation_eq_ok digests h
  refine ⟨revoking.write row, ?_, ?_⟩
  · rw [hinvitations, Table.get?_mapRows, hrow]
    simp
  · unfold Revoking.write
    rw [if_pos hpending]
    exact .inl ⟨nofun, nofun⟩

theorem Handled.answers (hhandled : Handled digests office after) :
    after.answered = office.answered ∧ after.revoking = office.revoking := by
  cases hhandled <;> exact ⟨rfl, rfl⟩

theorem createInvitation_answers {scene : Scene} {payload : CorporateInvitationCreateRequest}
    {view : InvitationView}
    (h : office.createInvitation digests scene accountId organizationId payload = .ok (view, after)) :
    after.answered = office.answered ∧ after.revoking = office.revoking := by
  unfold Office.createInvitation at h
  rw [bind_eq_ok] at h
  obtain ⟨⟨found, receipt⟩, -, h⟩ := h
  cases receipt with
  | some receipt =>
    obtain ⟨-, rfl⟩ := Prod.mk.inj (Except.ok.inj h)
    exact ⟨rfl, rfl⟩
  | none =>
    simp only [Office.addInvitation, bind_eq_ok, require_eq_ok, found_eq_ok] at h
    obtain ⟨-, -, -, -, invitations, -, receipts, -, h⟩ := h
    obtain ⟨-, rfl⟩ := Prod.mk.inj (Except.ok.inj h)
    exact ⟨rfl, rfl⟩

/-- A revocation is answered from a receipt, or it has read the invitation. -/
theorem readRevocation_eq_ok {scene : Scene} {payload : CorporateInvitationRevokeRequest}
    {answer : InvitationView ⊕ Revoking}
    (h : office.readRevocation digests scene accountId organizationId invitationId payload =
      .ok answer) :
    (∃ view receipt, office.authorizeIdempotent digests scene
        (revokeGate accountId organizationId payload) = .ok (view, some receipt) ∧
      answer = .inl receipt.responseBody) ∨
    (∃ row, office.invitations.get? invitationId = some row ∧
      answer = .inr ⟨invitationId, accountId, payload, row⟩) := by
  unfold Office.readRevocation at h
  rw [bind_eq_ok] at h
  obtain ⟨⟨view, receipt⟩, hgate, h⟩ := h
  cases receipt with
  | some receipt => exact .inl ⟨view, receipt, hgate, (Except.ok.inj h).symm⟩
  | none =>
    simp only [bind_eq_ok, found_eq_ok, Option.filter_eq_some_iff] at h
    obtain ⟨row, ⟨hrow, -⟩, h⟩ := h
    exact .inr ⟨row, hrow, (Except.ok.inj h).symm⟩

theorem truthful_revoke {scene : Scene} {payload : CorporateInvitationRevokeRequest}
    (htruthful : Truthful office) (hconclusive : Conclusive digests office
      (.revoke scene accountId organizationId invitationId payload)) :
    Truthful (office.step digests
      (.revoke scene accountId organizationId invitationId payload)) := by
  show Truthful (if office.unlocked organizationId then _ else office)
  split_ifs with hunlocked
  · cases hread : office.readRevocation digests scene accountId organizationId invitationId
      payload with
    | error error => exact htruthful
    | ok answer =>
      rcases readRevocation_eq_ok hread with ⟨view, receipt, hgate, rfl⟩ | ⟨row, hrow, rfl⟩
      · constructor
        · intro other hother
          rcases List.mem_append.mp hother with hold | hnew
          · exact htruthful.answered other hold
          · rw [List.mem_singleton.mp hnew]
            refine hconclusive hunlocked ?_
            unfold Office.replays
            rw [hgate]
        · exact htruthful.held
      · constructor
        · exact htruthful.answered
        · intro other revoking hheld
          change revoking ∈ (office.revoking.set organizationId _).get? other at hheld
          rw [Table.get?_set] at hheld
          by_cases hsame : other = organizationId
          · rw [if_pos hsame] at hheld
            rw [← Option.mem_some.mp hheld]
            exact ⟨row, hrow⟩
          · rw [if_neg hsame] at hheld
            exact htruthful.held other revoking hheld
  · exact htruthful

/-- The locks that are still held were held before. -/
theorem held_of_release {other : String}
    (h : revoking ∈ (office.release organizationId).revoking.get? other) :
    office.revoking.get? other = some revoking := by
  rw [Office.release, Table.get?_filter, Option.mem_def, Option.filter_eq_some_iff] at h
  exact h.1

theorem truthful_finish (htruthful : Truthful office)
    (hconclusive : Conclusive digests office (.finish organizationId)) :
    Truthful (office.step digests (.finish organizationId)) := by
  unfold Office.step
  dsimp only
  cases hrevoking : office.revoking.get? organizationId with
  | none => exact htruthful
  | some revoking =>
    have hwritten := settleRevocation_written digests office organizationId revoking
    dsimp only
    unfold Office.settleRevocation at hwritten ⊢
    cases hfinish : office.finishRevocation digests organizationId revoking with
    | error error =>
      exact htruthful.of_written (show Written digests office _ from .quiet rfl rfl rfl le_rfl) rfl
        fun other held hheld ↦ held_of_release hheld
    | ok answer =>
      obtain ⟨view, after⟩ := answer
      rw [hfinish] at hwritten
      obtain ⟨-, -, -, -, hlocks, hanswered⟩ := finishRevocation_eq_ok digests hfinish
      constructor
      · intro invitationId hmem
        rcases List.mem_append.mp hmem with hold | hnew
        · exact hwritten.closed (htruthful.answered invitationId (hanswered ▸ hold))
        · rw [List.mem_singleton.mp hnew]
          rcases hconclusive revoking hrevoking with hpending | hclosed
          · obtain ⟨row, hrow⟩ := htruthful.held organizationId revoking hrevoking
            have hclosed : after.Closed revoking.invitationId :=
              closed_of_finish hrow hpending hfinish
            exact hclosed
          · exact hwritten.closed hclosed
      · intro other held hheld
        have hbefore : held ∈ after.revoking.get? other := held_of_release hheld
        rw [hlocks] at hbefore
        obtain ⟨row, hrow⟩ := htruthful.held other held hbefore
        obtain ⟨later, hlater, -⟩ := hwritten.keeps _ row hrow
        exact ⟨later, hlater⟩

theorem truthful_step (office : Office) (event : Event) (htruthful : Truthful office)
    (hconclusive : Conclusive digests office event) : Truthful (office.step digests event) := by
  have hwritten := step_written digests office event
  cases event with
  | tick => exact htruthful.of_written hwritten rfl fun _ _ h ↦ h
  | create scene accountId organizationId payload =>
    show Truthful (if office.unlocked organizationId then _ else office)
    split_ifs
    · cases hcreate : office.createInvitation digests scene accountId organizationId payload with
      | error error => exact htruthful
      | ok answer =>
        obtain ⟨hanswered, hrevoking⟩ := createInvitation_answers hcreate
        exact htruthful.of_written (createInvitation_written digests hcreate) hanswered
          fun _ _ h ↦ hrevoking ▸ h
    · exact htruthful
  | accept scene invitationId accountId token =>
    obtain ⟨hanswered, hrevoking⟩ :=
      (accept_handled digests office scene invitationId accountId token).answers
    exact htruthful.of_written hwritten hanswered fun _ _ h ↦ hrevoking ▸ h
  | confirm scene invitationId accountId token =>
    obtain ⟨hanswered, hrevoking⟩ :=
      (confirm_handled digests office scene invitationId accountId token).answers
    exact htruthful.of_written hwritten hanswered fun _ _ h ↦ hrevoking ▸ h
  | revoke scene accountId organizationId invitationId payload =>
    exact truthful_revoke htruthful hconclusive
  | finish organizationId => exact truthful_finish htruthful hconclusive
  | abort organizationId =>
    exact htruthful.of_written hwritten rfl fun _ _ h ↦ held_of_release h

/-! ### Runs -/

theorem sound_run (events : List Event) :
    Sound digests (run (Office.step digests) .opened events) :=
  run_invariant (fun office event hsound ↦ (step_written digests office event).sound hsound)
    .opened sound_opened events

/-- A closed invitation leads to no further membership, whatever comes. -/
theorem joiningsOf_run (hclosed : office.Closed invitationId) (later : List Event) :
    (run (Office.step digests) office later).joiningsOf invitationId =
      office.joiningsOf invitationId := by
  have h : (run (Office.step digests) office later).Closed invitationId ∧
      (run (Office.step digests) office later).joiningsOf invitationId =
        office.joiningsOf invitationId := by
    refine run_invariant (motive := fun state ↦ state.Closed invitationId ∧
      state.joiningsOf invitationId = office.joiningsOf invitationId) ?_ office ⟨hclosed, rfl⟩ later
    intro state event hstate
    have hwritten := step_written digests state event
    exact ⟨hwritten.closed hstate.1, (hwritten.joiningsOf hstate.1).trans hstate.2⟩
  exact h.2

theorem joiningsOf_length_le (hsound : Sound digests office) (invitationId : String) :
    (office.joiningsOf invitationId).length ≤ 1 := by
  have hsingle := hsound.single
  have hcount := List.nodup_iff_count_le_one.mp hsingle invitationId
  unfold Office.joiningsOf
  rw [← List.countP_eq_length_filter]
  rw [List.count, List.countP_map] at hcount
  refine le_trans (le_of_eq ?_) hcount
  congr 1

/-- If callers are told of success only about closed invitations, an invitation that a caller was
told is revoked makes no member any more; and always an invitation makes at most one member, which
has shown that the invited address is its own, or that it claimed the invitation there. -/
theorem revoked_invitation_makes_no_member (digests : Digests) (events : List Event) :
    (StepsMeet (Office.step digests) (Conclusive digests) .opened events →
      ∀ invitationId ∈ (run (Office.step digests) .opened events).answered,
        ∀ later : List Event,
          (run (Office.step digests) .opened (events ++ later)).joiningsOf invitationId =
            (run (Office.step digests) .opened events).joiningsOf invitationId) ∧
    (∀ invitationId,
      ((run (Office.step digests) .opened events).joiningsOf invitationId).length ≤ 1) ∧
    ∀ joining ∈ (run (Office.step digests) .opened events).joinings,
      Entitled digests (run (Office.step digests) .opened events) joining := by
  have hsound : Sound digests (run (Office.step digests) .opened events) := sound_run events
  refine ⟨?_, joiningsOf_length_le hsound, hsound.entitled⟩
  intro hmeet invitationId hanswered later
  have htruthful : Truthful (run (Office.step digests) .opened events) :=
    run_invariant_of_stepsMeet truthful_step .opened truthful_opened events hmeet
  rw [run_append]
  exact joiningsOf_run (htruthful.answered invitationId hanswered) later

/-! ### A revocation that comes too late, and one in time -/

namespace Invited

def primitives : Digests where
  hash := fun text ↦ "sha256:" ++ text
  fingerprint := fun value ↦ asciiPlatform.sha256 "" value
  lower := fun text ↦ text

/-- An organization in which the account `root` has a role that may invite. -/
def tenant : Tenant where
  organization := ⟨"organization", .corporate, .active, 1⟩
  roles := Table.empty.set "recruiter" ⟨["member.invite"], 1⟩
  members := Table.empty.set "root" ⟨none, "recruiter", none, .active, 1⟩
  bindings := Table.empty.set "binding 1"
    { principal := .user "root"
      role := "recruiter"
      scopeKind := .organization
      scopeId := "organization"
      state := .active
      origin := .membership
      coverage := .self
      revision := 1 }
  grants := .empty
  teamMembers := .empty
  projectMembers := .empty

def view : View := ⟨tenant, { accounts := [("root", none), ("guest", none)] }⟩

/-- A request that draws a token; the account `guest` has verified no address. -/
def scene (token : String) : Scene where
  organizations := fun id ↦ if id = "organization" then some view else none
  token := token
  ids := fun position ↦ if position = 0 then "invitation" else "binding 2"

def invite : Event :=
  .create (scene "first token") "root" "organization"
    ⟨"guest@example.com", "Guest", "recruiter", [], [], none, some 3600, 1, "invite"⟩

def claim : Event := .accept (scene "second token") "invitation" "guest" "first token"

def revoke : List Event :=
  [.revoke (scene "") "root" "organization" "invitation" ⟨"", 1, "revoke"⟩,
    .finish "organization"]

def confirm : Event := .confirm (scene "") "invitation" "guest" "second token"

end Invited

/-- An administrator revokes an invitation that waits for its confirmation and is answered with
success; then the claimant confirms and becomes a member. -/
theorem claimed_invitation_not_revoked :
    "invitation" ∈ (run (Office.step Invited.primitives) .opened
      ([Invited.invite, Invited.claim] ++ Invited.revoke)).answered ∧
    (run (Office.step Invited.primitives) .opened
      ([Invited.invite, Invited.claim] ++ Invited.revoke)).joiningsOf "invitation" = [] ∧
    (run (Office.step Invited.primitives) .opened
      ([Invited.invite, Invited.claim] ++ Invited.revoke ++ [Invited.confirm])).joiningsOf
        "invitation" = [⟨"invitation", "guest", .confirmation "second token"⟩] := by
  decide +kernel

/-- An invitation that is revoked before anyone claims it stays revoked. -/
theorem unclaimed_invitation_revoked :
    "invitation" ∈ (run (Office.step Invited.primitives) .opened
      (Invited.invite :: Invited.revoke)).answered ∧
    (run (Office.step Invited.primitives) .opened
      (Invited.invite :: Invited.revoke ++ [Invited.claim, Invited.confirm])).joiningsOf
        "invitation" = [] := by
  have hanswered : "invitation" ∈ (run (Office.step Invited.primitives) .opened
      (Invited.invite :: Invited.revoke)).answered := by decide +kernel
  refine ⟨hanswered, ?_⟩
  rw [(revoked_invitation_makes_no_member Invited.primitives (Invited.invite :: Invited.revoke)).1
    (by decide +kernel) "invitation" hanswered [Invited.claim, Invited.confirm]]
  decide +kernel

end AiStp.Corporate
