import AiStp.Grants.Service

/-!
# What requests about grants commit

`Commit` lists what the last statement of a request may write, and what the caller is answered with
it (`statement_commit`). From it follow what a commit leaves as it was (`Effect`), what holds of the
tables at every moment (`DeskSound`), and what an open request may rely on until its next statement
(`Relies`): on the row of an invitation that it has locked, on the key of a request that it has
locked, and on nothing more about a grant than whose it is.
-/

set_option autoImplicit false

namespace AiStp.Grants

open Foundation Library Library.Transactions

variable {primitives : Primitives}

/-! ### What a statement commits -/

/-- What is committed, and what the caller is answered with it. -/
inductive Commit (primitives : Primitives) (desk : Desk) : Work → List Lock → Answer → Desk → Prop
  | invitedAgain (accountId : String) (body : GrantInvitationCreateRequest)
      (view : InvitationView) :
      Commit primitives desk (.invite accountId body) [] (.invited view) desk
  | invited (accountId invitationId : String) (body : GrantInvitationCreateRequest)
      (view : InvitationView) (row : GrantInvitation) (invitations : Table String GrantInvitation)
      (hinsert : desk.invitations.insert? invitationId row = some invitations)
      (hnone : row.acceptedGrantId = none) :
      Commit primitives desk (.invite accountId body) [] (.invited view)
        { desk with invitations := invitations }
  | replayed (accountId invitationId : String) (view : GrantView) :
      Commit primitives desk (.replaying accountId invitationId view) []
        (.accepted invitationId accountId view) desk
  | accepted (accountId invitationId grantId : String) (row : GrantInvitation)
      (grant : AccessGrant) (hgrant : desk.grants.get? grantId = some grant) :
      Commit primitives desk (.accepting accountId invitationId row (some grantId)) []
        (.accepted invitationId accountId ⟨grantId, grant, none⟩)
        { desk with
          invitations := desk.invitations.update invitationId (row.acceptedBy grantId) }
  | acceptedNew (accountId invitationId grantId : String) (row : GrantInvitation)
      (view : GrantView) (grants : Table String AccessGrant)
      (hnone : desk.grantOf row.target accountId = none)
      (hinsert : desk.grants.insert? grantId
        { target := row.target, ownerAccountId := row.ownerAccountId,
          granteeAccountId := accountId } = some grants) :
      Commit primitives desk (.accepting accountId invitationId row none) []
        (.accepted invitationId accountId view)
        { desk with
          grants := grants
          invitations := desk.invitations.update invitationId (row.acceptedBy grantId) }
  | directAgain (accountId : String) (body : DirectGrantCreateRequest) (view : GrantView) :
      Commit primitives desk (.direct accountId body) [.request accountId body.idempotencyKey]
        (.granted accountId view) desk
  | directExisting (accountId digest grantId : String) (body : DirectGrantCreateRequest)
      (view : GrantView) (grant : AccessGrant)
      (receipts : Table (String × String) GrantOperationReceipt)
      (hgrant : desk.grants.get? grantId = some grant)
      (hcheck : checkExisting body grantId grant = .ok ())
      (hreceipt : desk.receipts.insert? (accountId, body.idempotencyKey)
        ⟨.direct, digest, grantId⟩ = some receipts) :
      Commit primitives desk (.directing accountId body digest) [.grant grantId]
        (.granted accountId view)
        { desk with
          grants := desk.grants.update grantId grant.reactivated
          receipts := receipts }
  | directWinner (accountId digest grantee grantId : String) (body : DirectGrantCreateRequest)
      (view : GrantView) (receipts : Table (String × String) GrantOperationReceipt)
      (hreceipt : desk.receipts.insert? (accountId, body.idempotencyKey)
        ⟨.direct, digest, grantId⟩ = some receipts) :
      Commit primitives desk (.inserting accountId body digest grantee) []
        (.granted accountId view) { desk with receipts := receipts }
  | directNew (accountId digest grantee grantId : String) (body : DirectGrantCreateRequest)
      (view : GrantView) (grants : Table String AccessGrant)
      (references : Table String GrantRecipientReference)
      (receipts : Table (String × String) GrantOperationReceipt)
      (hnone : desk.grantOf body.target grantee = none)
      (hinsert : desk.grants.insert? grantId
        { target := body.target, ownerAccountId := accountId,
          granteeAccountId := grantee } = some grants)
      (hreceipt : desk.receipts.insert? (accountId, body.idempotencyKey)
        ⟨.direct, digest, grantId⟩ = some receipts) :
      Commit primitives desk (.inserting accountId body digest grantee) []
        (.granted accountId view)
        { desk with grants := grants, references := references, receipts := receipts }
  | withdrawn (invitationId : String) (row current : GrantInvitation)
      (hpending : row.state = .pending)
      (hcurrent : desk.invitations.get? invitationId = some current) :
      Commit primitives desk (.withdrawing invitationId row) [.invitation invitationId]
        (.revokedInvitation invitationId)
        { desk with
          invitations := desk.invitations.update invitationId { current with state := .revoked } }
  | withdrawnAgain (invitationId : String) (row : GrantInvitation)
      (hpending : row.state ≠ .pending) :
      Commit primitives desk (.withdrawing invitationId row) [] (.revokedInvitation invitationId)
        desk
  | revokedAgain (accountId grantId digest : String) (body : GrantRevokeRequest)
      (receipt : GrantOperationReceipt) :
      Commit primitives desk (.revoking accountId grantId body digest (some receipt))
        [.grant grantId] (.revokedGrant accountId grantId) desk
  | revoked (accountId grantId digest : String) (body : GrantRevokeRequest) (grant : AccessGrant)
      (receipts : Table (String × String) GrantOperationReceipt)
      (hgrant : desk.grants.get? grantId = some grant)
      (hreceipt : desk.receipts.insert? (accountId, body.idempotencyKey)
        ⟨.revoke, digest, grantId⟩ = some receipts) :
      Commit primitives desk (.revoking accountId grantId body digest none) [.grant grantId]
        (.revokedGrant accountId grantId)
        { desk with
          grants := desk.grants.update grantId grant.withdrawn
          receipts := receipts }

variable {accountId grantId invitationId : String} {body : DirectGrantCreateRequest}
  {row : GrantInvitation} {target : Target}

section Inversion

variable {desk after : Desk} {scene : Scene} {taken : List Lock}

variable {locks : List Lock}

theorem committed_eq_commit {result : Except ApiError Desk} :
    committed locks result = .commit taken after ↔ locks = taken ∧ result = .ok after := by
  cases result <;> simp [committed]

theorem committed_ne_next {result : Except ApiError Desk} {work : Work} :
    committed locks result ≠ .next taken work := by
  cases result <;> simp [committed]

theorem continued_eq_next {result : Except ApiError Work} {work : Work} :
    continued locks result = .next taken work ↔ locks = taken ∧ result = .ok work := by
  cases result <;> simp [continued]

theorem continued_ne_commit {result : Except ApiError Work} :
    continued locks result ≠ .commit taken after := by
  cases result <;> simp [continued]

theorem complete_eq_ok {actor key digest : String} {action : OperationAction} :
    complete desk actor key action digest grantId = .ok after ↔
      ∃ receipts, desk.receipts.insert? (actor, key) ⟨action, digest, grantId⟩ = some receipts ∧
        { desk with receipts := receipts } = after := by
  simp only [complete, bind_eq_ok, found_eq_ok]
  constructor
  · rintro ⟨receipts, hinsert, hafter⟩
    exact ⟨receipts, hinsert, Except.ok.inj hafter⟩
  · rintro ⟨receipts, hinsert, rfl⟩
    exact ⟨receipts, hinsert, rfl⟩

theorem insertGrant_eq_ok {owner grantee : String} :
    insertGrant desk grantId target owner grantee = .ok after ↔
      ∃ grants, desk.grants.insert? grantId
          { target := target, ownerAccountId := owner, granteeAccountId := grantee } =
            some grants ∧ { desk with grants := grants } = after := by
  simp only [insertGrant, bind_eq_ok, found_eq_ok]
  constructor
  · rintro ⟨grants, hinsert, hafter⟩
    exact ⟨grants, hinsert, Except.ok.inj hafter⟩
  · rintro ⟨grants, hinsert, rfl⟩
    exact ⟨grants, hinsert, rfl⟩

theorem createInvitation_commit {body : GrantInvitationCreateRequest}
    (h : createInvitation primitives desk scene accountId body = .ok after) :
    ∃ answer before, Commit primitives desk (.invite accountId body) [] answer before ∧
      after = before.answer answer := by
  unfold createInvitation at h
  rw [bind_eq_ok] at h
  obtain ⟨-, -, h⟩ := h
  cases hfind : desk.invitations.find? fun _ row ↦
      row.ownerAccountId = accountId ∧ row.idempotencyKey = body.idempotencyKey with
  | some entry =>
    rw [hfind] at h
    exact ⟨_, _, .invitedAgain accountId body _, (Except.ok.inj h).symm⟩
  | none =>
    rw [hfind] at h
    simp only [bind_eq_ok, found_eq_ok] at h
    obtain ⟨invitations, hinsert, h⟩ := h
    exact ⟨_, _, .invited accountId scene.id body _ _ invitations hinsert rfl,
      (Except.ok.inj h).symm⟩

theorem acceptInsert_commit
    (h : acceptInsert desk scene accountId invitationId row = .commit taken after) :
    ∃ answer before, Commit primitives desk (.accepting accountId invitationId row none) taken
      answer before ∧ after = before.answer answer := by
  unfold acceptInsert at h
  cases hnone : desk.grantOf row.target accountId with
  | some entry =>
    rw [hnone] at h
    cases h
  | none =>
    rw [hnone] at h
    obtain ⟨htaken, hresult⟩ := committed_eq_commit.mp h
    subst htaken
    simp only [bind_eq_ok, insertGrant_eq_ok, acceptGrant, found_eq_ok] at hresult
    obtain ⟨middle, ⟨grants, hinsert, rfl⟩, grant, hgrant, hresult⟩ := hresult
    exact ⟨_, _, .acceptedNew accountId invitationId scene.id row _ grants hnone hinsert,
      (Except.ok.inj hresult).symm⟩

theorem createDirectGrant_commit
    (h : createDirectGrant primitives desk scene accountId body = .commit taken after) :
    ∃ answer before, Commit primitives desk (.direct accountId body) taken answer before ∧
      after = before.answer answer := by
  unfold createDirectGrant at h
  dsimp only at h
  split at h
  · cases h
  · cases h
  · next request held receipt hrequest =>
    obtain ⟨htaken, hresult⟩ := committed_eq_commit.mp h
    subst htaken
    simp only [bind_eq_ok, found_eq_ok] at hresult hrequest
    obtain ⟨-, -, recipient, -, hheld, -, hrequest⟩ := hrequest
    obtain ⟨grant, -, hresult⟩ := hresult
    have hkey : held.idempotencyKey = body.idempotencyKey := by
      rw [← (Prod.mk.inj (Except.ok.inj hrequest)).1]
    rw [hkey]
    exact ⟨_, _, .directAgain accountId body _, (Except.ok.inj hresult).symm⟩

theorem directGrant_commit {digest : String}
    (h : directGrant desk scene accountId body digest = .commit taken after) :
    ∃ answer before, Commit primitives desk (.directing accountId body digest) taken answer
      before ∧ after = before.answer answer := by
  unfold directGrant at h
  split at h
  · cases h
  · split at h
    · next grantId grant hfind =>
      obtain ⟨htaken, hresult⟩ := committed_eq_commit.mp h
      subst htaken
      simp only [grantExisting, bind_eq_ok, complete_eq_ok] at hresult
      obtain ⟨check, hcheck, middle, ⟨receipts, hreceipt, rfl⟩, hresult⟩ := hresult
      exact ⟨_, _, .directExisting accountId digest grantId body _ grant receipts
        (Table.find?_eq_some hfind).1 hcheck hreceipt, (Except.ok.inj hresult).symm⟩
    · exact absurd h continued_ne_commit

theorem insertDirectGrant_commit {digest grantee : String}
    (h : insertDirectGrant desk scene accountId body digest grantee = .ok after) :
    ∃ answer before, Commit primitives desk (.inserting accountId body digest grantee) [] answer
      before ∧ after = before.answer answer := by
  unfold insertDirectGrant at h
  split at h
  · next grantId grant hfind =>
    simp only [bind_eq_ok, complete_eq_ok] at h
    obtain ⟨middle, ⟨receipts, hreceipt, rfl⟩, h⟩ := h
    exact ⟨_, _, .directWinner accountId digest grantee grantId body _ receipts hreceipt,
      (Except.ok.inj h).symm⟩
  · next hnone =>
    simp only [bind_eq_ok, complete_eq_ok, insertGrant_eq_ok, found_eq_ok] at h
    obtain ⟨middle, ⟨grants, hinsert, rfl⟩, references, -, last, ⟨receipts, hreceipt, rfl⟩, grant,
      -, h⟩ := h
    exact ⟨_, _, .directNew accountId digest grantee scene.id body _ grants references receipts
      hnone hinsert hreceipt, (Except.ok.inj h).symm⟩

theorem withdrawInvitation_commit
    (h : withdrawInvitation desk invitationId row = .commit taken after) :
    ∃ answer before, Commit primitives desk (.withdrawing invitationId row) taken answer before ∧
      after = before.answer answer := by
  unfold withdrawInvitation at h
  split_ifs at h with hpending
  · obtain ⟨htaken, hresult⟩ := committed_eq_commit.mp h
    subst htaken
    simp only [bind_eq_ok, found_eq_ok] at hresult
    obtain ⟨current, hcurrent, hresult⟩ := hresult
    exact ⟨_, _, .withdrawn invitationId row current hpending hcurrent, (Except.ok.inj hresult).symm⟩
  · obtain ⟨rfl, rfl⟩ := Outcome.commit.inj h
    exact ⟨_, _, .withdrawnAgain invitationId row hpending, rfl⟩

theorem withdrawGrant_commit {digest : String} {body : GrantRevokeRequest}
    {receipt : Option GrantOperationReceipt}
    (h : withdrawGrant desk scene accountId grantId body digest receipt = .ok after) :
    ∃ answer before, Commit primitives desk (.revoking accountId grantId body digest receipt)
      [.grant grantId] answer before ∧ after = before.answer answer := by
  unfold withdrawGrant at h
  rw [bind_eq_ok] at h
  obtain ⟨grant, hgrant, h⟩ := h
  rw [found_eq_ok, Option.filter_eq_some_iff] at hgrant
  cases receipt with
  | some receipt =>
    exact ⟨_, _, .revokedAgain accountId grantId digest body receipt, (Except.ok.inj h).symm⟩
  | none =>
    simp only [bind_eq_ok, complete_eq_ok] at h
    obtain ⟨-, -, middle, ⟨receipts, hreceipt, rfl⟩, h⟩ := h
    exact ⟨_, _, .revoked accountId grantId digest body grant receipts hgrant.1 hreceipt,
      (Except.ok.inj h).symm⟩

theorem statement_commit {work : Work}
    (h : statement primitives desk work scene = .commit taken after) :
    ∃ answer before, Commit primitives desk work taken answer before ∧
      after = before.answer answer := by
  cases work with
  | invite accountId body =>
    obtain ⟨htaken, hresult⟩ := committed_eq_commit.mp h
    subst htaken
    exact createInvitation_commit hresult
  | accept accountId invitationId token => exact absurd h continued_ne_commit
  | replaying accountId invitationId view =>
    obtain ⟨rfl, rfl⟩ := Outcome.commit.inj h
    exact ⟨_, _, .replayed accountId invitationId view, rfl⟩
  | accepting accountId invitationId row bound =>
    cases bound with
    | none => exact acceptInsert_commit h
    | some grantId =>
      obtain ⟨htaken, hresult⟩ := committed_eq_commit.mp h
      subst htaken
      simp only [acceptGrant, bind_eq_ok, found_eq_ok] at hresult
      obtain ⟨grant, hgrant, hresult⟩ := hresult
      exact ⟨_, _, .accepted accountId invitationId grantId row grant hgrant,
        (Except.ok.inj hresult).symm⟩
  | direct accountId body => exact createDirectGrant_commit h
  | directing accountId body digest => exact directGrant_commit h
  | inserting accountId body digest grantee =>
    obtain ⟨htaken, hresult⟩ := committed_eq_commit.mp h
    subst htaken
    exact insertDirectGrant_commit hresult
  | revokeInvitation accountId invitationId => exact absurd h continued_ne_commit
  | withdrawing invitationId row => exact withdrawInvitation_commit h
  | revokeGrant accountId grantId body => exact absurd h continued_ne_commit
  | revoking accountId grantId body digest receipt =>
    obtain ⟨htaken, hresult⟩ := committed_eq_commit.mp h
    subst htaken
    exact withdrawGrant_commit hresult

end Inversion

/-! ### What a commit leaves as it was -/

/-- A later state of a grant: it is the same account's, for the same line. -/
structure GrantLater (grant later : AccessGrant) : Prop where
  target : later.target = grant.target
  grantee : later.granteeAccountId = grant.granteeAccountId

theorem GrantLater.refl (grant : AccessGrant) : GrantLater grant grant := ⟨rfl, rfl⟩

/-- A later state of an invitation: once it is not pending, its grant is settled. -/
structure InvitationLater (row later : GrantInvitation) : Prop where
  target : later.target = row.target
  settled : row.state ≠ .pending →
    later.state ≠ .pending ∧ later.acceptedGrantId = row.acceptedGrantId

theorem InvitationLater.refl (row : GrantInvitation) : InvitationLater row row :=
  ⟨rfl, fun hstate ↦ ⟨hstate, rfl⟩⟩

theorem GrantLater.reactivated (grant : AccessGrant) : GrantLater grant grant.reactivated := by
  unfold AccessGrant.reactivated
  split_ifs
  · exact ⟨rfl, rfl⟩
  · exact .refl grant

theorem GrantLater.withdrawn (grant : AccessGrant) : GrantLater grant grant.withdrawn := by
  unfold AccessGrant.withdrawn
  split_ifs
  · exact ⟨rfl, rfl⟩
  · exact .refl grant

structure Effect (desk after : Desk) (locks : List Lock) : Prop where
  grants : desk.grants.Keeps GrantLater after.grants
  invitations : desk.invitations.Keeps InvitationLater after.invitations
  invitation : ∀ invitationId row, desk.invitations.get? invitationId = some row →
    .invitation invitationId ∉ locks → after.invitations.get? invitationId = some row
  receipt : ∀ actor key, .request actor key ∉ locks →
    after.receipts.get? (actor, key) = desk.receipts.get? (actor, key)

theorem Effect.refl (desk : Desk) (locks : List Lock) : Effect desk desk locks :=
  ⟨Table.Keeps.refl GrantLater.refl _, Table.Keeps.refl InvitationLater.refl _,
    fun _ _ hrow _ ↦ hrow, fun _ _ _ ↦ rfl⟩

/-! ### What holds of the tables -/

structure DeskSound (desk : Desk) : Prop where
  /-- An account has one row for a line. -/
  single : ∀ first second one two, desk.grants.get? first = some one →
    desk.grants.get? second = some two → one.target = two.target →
    one.granteeAccountId = two.granteeAccountId → first = second
  /-- An invitation is accepted with a grant for its line. -/
  bound : ∀ invitationId row, desk.invitations.get? invitationId = some row →
    ∀ grantId ∈ row.acceptedGrantId, ∃ grant, desk.grants.get? grantId = some grant ∧
      grant.target = row.target

/-- What an open request relies on. -/
def Relies (desk : Desk) (locks : List Lock) : Work → Prop
  | .replaying accountId invitationId view =>
    ∃ row, desk.invitations.get? invitationId = some row ∧ row.state ≠ .pending ∧
      row.acceptedGrantId = some view.grantId ∧
      ∃ grant, desk.grants.get? view.grantId = some grant ∧ grant.granteeAccountId = accountId
  | .accepting accountId invitationId row bound =>
    .invitation invitationId ∈ locks ∧ desk.invitations.get? invitationId = some row ∧
      row.state = .pending ∧
      ∀ grantId ∈ bound, ∃ grant, desk.grants.get? grantId = some grant ∧
        grant.target = row.target ∧ grant.granteeAccountId = accountId
  | .directing accountId body _ | .inserting accountId body _ _ =>
    .request accountId body.idempotencyKey ∈ locks ∧
      desk.receipts.get? (accountId, body.idempotencyKey) = none
  | .withdrawing invitationId row =>
    ∃ current, desk.invitations.get? invitationId = some current ∧
      (row.state ≠ .pending → current.state ≠ .pending)
  | .revoking accountId _ body _ receipt =>
    .request accountId body.idempotencyKey ∈ locks ∧
      desk.receipts.get? (accountId, body.idempotencyKey) = receipt
  | _ => True

section Steps

variable {desk after : Desk} {work : Work} {locks taken : List Lock} {answer : Answer}

variable {grant : AccessGrant}

theorem Desk.grantOf_eq_some (h : desk.grantOf target accountId = some (grantId, grant)) :
    desk.grants.get? grantId = some grant ∧ grant.target = target ∧
      grant.granteeAccountId = accountId := by
  obtain ⟨hgrant, hfor⟩ := Table.find?_eq_some h
  simp only [AccessGrant.isFor, decide_eq_true_eq] at hfor
  exact ⟨hgrant, hfor⟩

theorem Desk.grantOf_eq_none (h : desk.grantOf target accountId = none)
    (hgrant : desk.grants.get? grantId = some grant) (htarget : grant.target = target) :
    grant.granteeAccountId ≠ accountId := by
  have hfor := Table.find?_eq_none.mp h grantId grant hgrant
  simp only [AccessGrant.isFor, decide_eq_false_iff_not] at hfor
  exact fun hgrantee ↦ hfor ⟨htarget, hgrantee⟩

theorem GrantInvitation.later_acceptedBy (hpending : row.state = .pending) (grantId : String) :
    InvitationLater row (row.acceptedBy grantId) :=
  ⟨rfl, fun hstate ↦ absurd hpending hstate⟩

/-- An update of an invitation whose row is locked leaves the other invitations. -/
theorem invitation_of_update {invitations : Table String GrantInvitation} {locks : List Lock}
    (hlock : .invitation invitationId ∈ locks) (other : String) (held : GrantInvitation)
    (hheld : invitations.get? other = some held) (hfree : .invitation other ∉ locks) :
    (invitations.update invitationId row).get? other = some held := by
  have hother : other ≠ invitationId := fun hsame ↦ hfree (hsame ▸ hlock)
  rw [Table.get?_update_of_ne hother]
  exact hheld

theorem receipt_of_insert {receipts later : Table (String × String) GrantOperationReceipt}
    {held : String} {receipt : GrantOperationReceipt} {locks : List Lock}
    (hinsert : receipts.insert? (accountId, held) receipt = some later)
    (hlock : .request accountId held ∈ locks) (actor key : String)
    (hfree : .request actor key ∉ locks) :
    later.get? (actor, key) = receipts.get? (actor, key) := by
  rw [(Table.insert?_eq_some hinsert).2, if_neg]
  intro hsame
  obtain ⟨rfl, rfl⟩ := Prod.mk.inj hsame
  exact hfree hlock

theorem Commit.effect (hrelies : Relies desk locks work)
    (hcommit : Commit primitives desk work taken answer after) :
    Effect desk after (locks ++ taken) := by
  cases hcommit with
  | invitedAgain => exact .refl desk _
  | replayed => exact .refl desk _
  | directAgain => exact .refl desk _
  | withdrawnAgain => exact .refl desk _
  | revokedAgain => exact .refl desk _
  | invited accountId invitationId body view row invitations hinsert hnone =>
    refine { Effect.refl desk _ with
      invitations := Table.keeps_insert? InvitationLater.refl hinsert
      invitation := fun other held hheld _ ↦ ?_ }
    obtain ⟨kept, hkept, rfl⟩ := Table.keeps_insert? (fun _ ↦ rfl) hinsert other held hheld
    exact hkept
  | accepted accountId invitationId grantId row grant hgrant =>
    obtain ⟨hlock, hrow, hpending, -⟩ := hrelies
    exact { Effect.refl desk _ with
      invitations := Table.keeps_update InvitationLater.refl hrow
        (row.later_acceptedBy hpending grantId)
      invitation := invitation_of_update (List.mem_append_left _ hlock) }
  | acceptedNew accountId invitationId grantId row view grants hnone hinsert =>
    obtain ⟨hlock, hrow, hpending, -⟩ := hrelies
    exact { Effect.refl desk _ with
      grants := Table.keeps_insert? GrantLater.refl hinsert
      invitations := Table.keeps_update InvitationLater.refl hrow
        (row.later_acceptedBy hpending grantId)
      invitation := invitation_of_update (List.mem_append_left _ hlock) }
  | directExisting accountId digest grantId body view grant receipts hgrant _ hreceipt =>
    exact { Effect.refl desk _ with
      grants := Table.keeps_update GrantLater.refl hgrant (.reactivated grant)
      receipt := receipt_of_insert hreceipt (List.mem_append_left _ hrelies.1) }
  | directWinner accountId digest grantee grantId body view receipts hreceipt =>
    exact { Effect.refl desk _ with
      receipt := receipt_of_insert hreceipt (List.mem_append_left _ hrelies.1) }
  | directNew accountId digest grantee grantId body view grants references receipts hnone hinsert
      hreceipt =>
    exact { Effect.refl desk _ with
      grants := Table.keeps_insert? GrantLater.refl hinsert
      receipt := receipt_of_insert hreceipt (List.mem_append_left _ hrelies.1) }
  | withdrawn invitationId row current hpending hcurrent =>
    exact { Effect.refl desk _ with
      invitations := Table.keeps_update InvitationLater.refl hcurrent
        ⟨rfl, fun _ ↦ ⟨nofun, rfl⟩⟩
      invitation := invitation_of_update
        (List.mem_append_right _ (List.mem_singleton_self _)) }
  | revoked accountId grantId digest body grant receipts hgrant hreceipt =>
    exact { Effect.refl desk _ with
      grants := Table.keeps_update GrantLater.refl hgrant (.withdrawn grant)
      receipt := receipt_of_insert hreceipt (List.mem_append_left _ hrelies.1) }

section

variable (hsound : DeskSound desk)
include hsound

/-- A row that its account had none of keeps rows single. -/
theorem single_of_insert {grants : Table String AccessGrant}
    (hnone : desk.grantOf grant.target grant.granteeAccountId = none)
    (hinsert : desk.grants.insert? grantId grant = some grants) :
    ∀ first second one two, grants.get? first = some one → grants.get? second = some two →
      one.target = two.target → one.granteeAccountId = two.granteeAccountId → first = second := by
  obtain ⟨-, hget⟩ := Table.insert?_eq_some hinsert
  intro first second one two hone htwo htarget hgrantee
  rw [hget] at hone htwo
  by_cases hfirst : first = grantId
  · by_cases hsecond : second = grantId
    · exact hfirst.trans hsecond.symm
    · rw [if_pos hfirst] at hone
      rw [if_neg hsecond] at htwo
      rw [← Option.some.inj hone] at htarget hgrantee
      exact absurd hgrantee.symm (Desk.grantOf_eq_none hnone htwo htarget.symm)
  · rw [if_neg hfirst] at hone
    by_cases hsecond : second = grantId
    · rw [if_pos hsecond] at htwo
      rw [← Option.some.inj htwo] at htarget hgrantee
      exact absurd hgrantee (Desk.grantOf_eq_none hnone hone htarget)
    · rw [if_neg hsecond] at htwo
      exact hsound.single first second one two hone htwo htarget hgrantee

/-- A row that is written keeps rows single. -/
theorem single_of_update {later : AccessGrant} (hgrant : desk.grants.get? grantId = some grant)
    (hlater : GrantLater grant later) :
    ∀ first second one two, (desk.grants.update grantId later).get? first = some one →
      (desk.grants.update grantId later).get? second = some two → one.target = two.target →
      one.granteeAccountId = two.granteeAccountId → first = second := by
  have hold : ∀ other held, (desk.grants.update grantId later).get? other = some held →
      ∃ before, desk.grants.get? other = some before ∧ GrantLater before held := by
    intro other held hheld
    by_cases hother : other = grantId
    · subst hother
      rw [Table.get?_update_self hgrant] at hheld
      exact ⟨grant, hgrant, Option.some.inj hheld ▸ hlater⟩
    · rw [Table.get?_update_of_ne hother] at hheld
      exact ⟨held, hheld, .refl held⟩
  intro first second one two hone htwo htarget hgrantee
  obtain ⟨before, hbefore, hone⟩ := hold first one hone
  obtain ⟨held, hheld, htwo⟩ := hold second two htwo
  refine hsound.single first second before held hbefore hheld ?_ ?_
  · rw [← hone.target, ← htwo.target]
    exact htarget
  · rw [← hone.grantee, ← htwo.grantee]
    exact hgrantee

/-- Invitations that keep their grants stay bound to grants for their lines. -/
theorem bound_of_effect (heffect : Effect desk after locks)
    (hold : ∀ invitationId row, after.invitations.get? invitationId = some row →
      row.acceptedGrantId = none ∨ ∃ before, desk.invitations.get? invitationId = some before ∧
        row.target = before.target ∧ row.acceptedGrantId = before.acceptedGrantId) :
    ∀ invitationId row, after.invitations.get? invitationId = some row →
      ∀ grantId ∈ row.acceptedGrantId, ∃ grant, after.grants.get? grantId = some grant ∧
        grant.target = row.target := by
  intro invitationId row hrow grantId hbound
  rcases hold invitationId row hrow with hnone | ⟨before, hbefore, htarget, hsame⟩
  · rw [hnone] at hbound
    cases hbound
  · obtain ⟨grant, hgrant, hline⟩ := hsound.bound invitationId before hbefore grantId
      (hsame ▸ hbound)
    obtain ⟨later, hlater, hkept⟩ := heffect.grants grantId grant hgrant
    exact ⟨later, hlater, hkept.target.trans (hline.trans htarget.symm)⟩

/-- Accepting binds a grant for the line of the invitation. -/
theorem bound_of_accepted (heffect : Effect desk after locks)
    (hrow : desk.invitations.get? invitationId = some row) (hinvitations : after.invitations =
      desk.invitations.update invitationId (row.acceptedBy grantId))
    (hgrant : after.grants.get? grantId = some grant) (htarget : grant.target = row.target) :
    ∀ other held, after.invitations.get? other = some held →
      ∀ grantId ∈ held.acceptedGrantId, ∃ grant, after.grants.get? grantId = some grant ∧
        grant.target = held.target := by
  intro other held hheld bound hbound
  rw [hinvitations] at hheld
  by_cases hother : other = invitationId
  · subst hother
    rw [Table.get?_update_self hrow] at hheld
    rw [← Option.some.inj hheld] at hbound ⊢
    rw [← Option.some.inj hbound]
    exact ⟨grant, hgrant, htarget⟩
  · rw [Table.get?_update_of_ne hother] at hheld
    obtain ⟨before, hbefore, hline⟩ := hsound.bound other held hheld bound hbound
    obtain ⟨later, hlater, hkept⟩ := heffect.grants bound before hbefore
    exact ⟨later, hlater, hkept.target.trans hline⟩

theorem Commit.sound (hrelies : Relies desk locks work)
    (hcommit : Commit primitives desk work taken answer after) : DeskSound after := by
  have heffect := hcommit.effect hrelies
  have hsame : after.invitations = desk.invitations → ∀ invitationId row,
      after.invitations.get? invitationId = some row →
      ∀ grantId ∈ row.acceptedGrantId, ∃ grant, after.grants.get? grantId = some grant ∧
        grant.target = row.target := fun hinvitations ↦
    bound_of_effect hsound heffect fun invitationId row hrow ↦
      .inr ⟨row, hinvitations ▸ hrow, rfl, rfl⟩
  cases hcommit with
  | invitedAgain => exact hsound
  | replayed => exact hsound
  | directAgain => exact hsound
  | withdrawnAgain => exact hsound
  | revokedAgain => exact hsound
  | invited accountId invitationId body view row invitations hinsert hnone =>
    refine ⟨hsound.single, bound_of_effect hsound heffect fun other held hheld ↦ ?_⟩
    change invitations.get? other = some held at hheld
    rw [(Table.insert?_eq_some hinsert).2] at hheld
    by_cases hother : other = invitationId
    · rw [if_pos hother] at hheld
      exact .inl (Option.some.inj hheld ▸ hnone)
    · rw [if_neg hother] at hheld
      exact .inr ⟨held, hheld, rfl, rfl⟩
  | accepted accountId invitationId grantId row grant hgrant =>
    obtain ⟨-, hrow, -, hbound⟩ := hrelies
    obtain ⟨held, hheld, htarget, -⟩ := hbound grantId rfl
    exact ⟨hsound.single, bound_of_accepted hsound heffect hrow rfl hheld htarget⟩
  | acceptedNew accountId invitationId grantId row view grants hnone hinsert =>
    obtain ⟨-, hrow, -, -⟩ := hrelies
    have hget : grants.get? grantId = some _ := (Table.insert?_eq_some hinsert).2 grantId ▸ if_pos rfl
    exact ⟨single_of_insert hsound hnone hinsert,
      bound_of_accepted hsound heffect hrow rfl hget rfl⟩
  | directExisting accountId digest grantId body view grant receipts hgrant _ _ =>
    exact ⟨single_of_update hsound hgrant (.reactivated grant), hsame rfl⟩
  | directWinner => exact ⟨hsound.single, hsound.bound⟩
  | directNew accountId digest grantee grantId body view grants references receipts hnone hinsert
      _ =>
    exact ⟨single_of_insert hsound hnone hinsert, hsame rfl⟩
  | withdrawn invitationId row current hpending hcurrent =>
    refine ⟨hsound.single, bound_of_effect hsound heffect fun other held hheld ↦ .inr ?_⟩
    change (desk.invitations.update invitationId _).get? other = some held at hheld
    by_cases hother : other = invitationId
    · subst hother
      rw [Table.get?_update_self hcurrent] at hheld
      exact ⟨current, hcurrent, by rw [← Option.some.inj hheld], by rw [← Option.some.inj hheld]⟩
    · rw [Table.get?_update_of_ne hother] at hheld
      exact ⟨held, hheld, rfl, rfl⟩
  | revoked accountId grantId digest body grant receipts hgrant _ =>
    exact ⟨single_of_update hsound hgrant (.withdrawn grant), hsame rfl⟩

end

/-- The commits of requests with other locks leave what a request relies on. -/
theorem Effect.relies (heffect : Effect desk after taken) (hrelies : Relies desk locks work)
    (hfree : ∀ lock ∈ taken, lock ∉ locks) : Relies after locks work := by
  have hforeign : ∀ lock ∈ locks, lock ∉ taken := fun lock hlock htaken ↦ hfree lock htaken hlock
  cases work with
  | replaying accountId invitationId view =>
    obtain ⟨row, hrow, hstate, hbound, grant, hgrant, hgrantee⟩ := hrelies
    obtain ⟨later, hlater, hkept⟩ := heffect.invitations invitationId row hrow
    obtain ⟨held, hheld, hsame⟩ := heffect.grants _ grant hgrant
    obtain ⟨hsettled, haccepted⟩ := hkept.settled hstate
    exact ⟨later, hlater, hsettled, haccepted.trans hbound, held, hheld,
      hsame.grantee.trans hgrantee⟩
  | accepting accountId invitationId row bound =>
    obtain ⟨hlock, hrow, hpending, hbound⟩ := hrelies
    refine ⟨hlock, heffect.invitation invitationId row hrow (hforeign _ hlock), hpending, ?_⟩
    intro grantId hmem
    obtain ⟨grant, hgrant, htarget, hgrantee⟩ := hbound grantId hmem
    obtain ⟨later, hlater, hkept⟩ := heffect.grants grantId grant hgrant
    exact ⟨later, hlater, hkept.target.trans htarget, hkept.grantee.trans hgrantee⟩
  | directing accountId body digest =>
    exact ⟨hrelies.1, (heffect.receipt _ _ (hforeign _ hrelies.1)).trans hrelies.2⟩
  | inserting accountId body digest grantee =>
    exact ⟨hrelies.1, (heffect.receipt _ _ (hforeign _ hrelies.1)).trans hrelies.2⟩
  | withdrawing invitationId row =>
    obtain ⟨current, hcurrent, hstate⟩ := hrelies
    obtain ⟨later, hlater, hkept⟩ := heffect.invitations invitationId current hcurrent
    exact ⟨later, hlater, fun hrow ↦ (hkept.settled (hstate hrow)).1⟩
  | revoking accountId grantId body digest receipt =>
    exact ⟨hrelies.1, (heffect.receipt _ _ (hforeign _ hrelies.1)).trans hrelies.2⟩
  | invite => trivial
  | accept => trivial
  | direct => trivial
  | revokeInvitation => trivial
  | revokeGrant => trivial

/-! ### What a request relies on next -/

variable {scene : Scene} {later : Work}

theorem lookup_eq_ok {actor key digest : String} {action : OperationAction}
    {receipt : Option GrantOperationReceipt}
    (h : lookup desk actor key action digest = .ok receipt) :
    desk.receipts.get? (actor, key) = receipt ∧
      ∀ held ∈ receipt, held.action = action ∧ held.requestDigest = digest := by
  unfold lookup at h
  cases hreceipt : desk.receipts.get? (actor, key) with
  | none =>
    rw [hreceipt] at h
    rw [← Except.ok.inj h]
    exact ⟨rfl, nofun⟩
  | some held =>
    rw [hreceipt] at h
    simp only [bind_eq_ok, require_eq_ok, decide_eq_true_eq] at h
    obtain ⟨-, hmatches, h⟩ := h
    rw [← Except.ok.inj h]
    refine ⟨rfl, fun other hother ↦ ?_⟩
    rw [← Option.some.inj hother]
    exact hmatches

theorem completedGrant_eq_some (h : completedGrant desk row = some (grantId, grant)) :
    row.state = .accepted ∧ row.acceptedGrantId = some grantId ∧
      desk.grants.get? grantId = some grant := by
  unfold completedGrant at h
  split_ifs at h with hstate
  simp only [Option.bind_eq_some_iff, Option.map_eq_some_iff, Prod.mk.injEq] at h
  obtain ⟨held, hbound, found, hfound, rfl, rfl⟩ := h
  exact ⟨hstate, hbound, hfound⟩

theorem acceptInvitation_relies {token : String}
    (h : acceptInvitation primitives desk scene accountId invitationId token = .ok later) :
    Relies desk (locks ++ [.invitation invitationId]) later := by
  simp only [acceptInvitation, bind_eq_ok, found_eq_ok] at h
  obtain ⟨row, hrow, h⟩ := h
  cases hcompleted : completedGrant desk row with
  | some entry =>
    obtain ⟨grantId, grant⟩ := entry
    rw [hcompleted] at h
    simp only [checkRetry, bind_eq_ok, require_eq_ok, decide_eq_true_eq] at h
    obtain ⟨-, ⟨-, hgrantee, -⟩, h⟩ := h
    obtain ⟨hstate, hbound, hgrant⟩ := completedGrant_eq_some hcompleted
    rw [← Except.ok.inj h]
    exact ⟨row, hrow, by simp [hstate], hbound, grant, hgrant, hgrantee⟩
  | none =>
    rw [hcompleted] at h
    simp only [checkAcceptance, bind_eq_ok, require_eq_ok, decide_eq_true_eq] at h
    obtain ⟨-, ⟨-, hpending, -⟩, h⟩ := h
    rw [← Except.ok.inj h]
    refine ⟨List.mem_append_right _ (List.mem_singleton_self _), hrow, hpending, ?_⟩
    intro grantId hactive
    simp only [Desk.activeGrantId, Option.mem_def, Option.map_eq_some_iff] at hactive
    obtain ⟨⟨held, grant⟩, hfind, rfl⟩ := hactive
    obtain ⟨hgrant, hfor⟩ := Table.find?_eq_some hfind
    simp only [AccessGrant.isFor, decide_eq_true_eq] at hfor
    exact ⟨grant, hgrant, hfor.1⟩

theorem createDirectGrant_relies
    (h : createDirectGrant primitives desk scene accountId body = .next taken later) :
    Relies desk (locks ++ taken) later := by
  unfold createDirectGrant at h
  dsimp only at h
  split at h
  · cases h
  · next request held hrequest =>
    obtain ⟨rfl, rfl⟩ := Outcome.next.inj h
    simp only [bind_eq_ok] at hrequest
    obtain ⟨-, -, recipient, -, receipt, hlookup, hrequest⟩ := hrequest
    obtain ⟨rfl, rfl⟩ := Prod.mk.inj (Except.ok.inj hrequest)
    exact ⟨List.mem_append_right _ (List.mem_singleton_self _), (lookup_eq_ok hlookup).1⟩
  · exact absurd h committed_ne_next

theorem directGrant_relies {digest : String}
    (hrelies : Relies desk locks (.directing accountId body digest))
    (h : directGrant desk scene accountId body digest = .next taken later) :
    Relies desk (locks ++ taken) later := by
  unfold directGrant at h
  split at h
  · cases h
  · split at h
    · exact absurd h committed_ne_next
    · obtain ⟨htaken, hresult⟩ := continued_eq_next.mp h
      subst htaken
      simp only [bind_eq_ok] at hresult
      obtain ⟨-, -, hresult⟩ := hresult
      rw [← Except.ok.inj hresult]
      exact ⟨List.mem_append_left _ hrelies.1, hrelies.2⟩

theorem statement_relies (hrelies : Relies desk locks work)
    (h : statement primitives desk work scene = .next taken later) :
    Relies desk (locks ++ taken) later := by
  cases work with
  | invite accountId body => exact absurd h committed_ne_next
  | accept accountId invitationId token =>
    obtain ⟨htaken, hresult⟩ := continued_eq_next.mp h
    subst htaken
    exact acceptInvitation_relies hresult
  | replaying => cases h
  | accepting accountId invitationId row bound =>
    cases bound with
    | some grantId => exact absurd h committed_ne_next
    | none =>
      obtain ⟨hlock, hrow, hpending, -⟩ := hrelies
      change acceptInsert desk scene accountId invitationId row = _ at h
      unfold acceptInsert at h
      split at h
      · next grantId grant hfind =>
        obtain ⟨rfl, rfl⟩ := Outcome.next.inj h
        refine ⟨List.mem_append_left _ hlock, hrow, hpending, fun held hheld ↦ ?_⟩
        rw [← Option.some.inj hheld]
        exact ⟨grant, Desk.grantOf_eq_some hfind⟩
      · exact absurd h committed_ne_next
  | direct accountId body => exact createDirectGrant_relies h
  | directing accountId body digest => exact directGrant_relies hrelies h
  | inserting => exact absurd h committed_ne_next
  | revokeInvitation accountId invitationId =>
    obtain ⟨htaken, hresult⟩ := continued_eq_next.mp h
    subst htaken
    simp only [revokeInvitation, bind_eq_ok, found_eq_ok, Option.filter_eq_some_iff] at hresult
    obtain ⟨row, ⟨hrow, -⟩, hresult⟩ := hresult
    rw [← Except.ok.inj hresult]
    exact ⟨row, hrow, id⟩
  | withdrawing invitationId row =>
    change withdrawInvitation desk invitationId row = _ at h
    unfold withdrawInvitation at h
    split_ifs at h
    exact absurd h committed_ne_next
  | revokeGrant accountId grantId body =>
    obtain ⟨htaken, hresult⟩ := continued_eq_next.mp h
    subst htaken
    simp only [revokeGrant, bind_eq_ok] at hresult
    obtain ⟨receipt, hlookup, hresult⟩ := hresult
    rw [← Except.ok.inj hresult]
    exact ⟨List.mem_append_right _ (List.mem_singleton_self _), (lookup_eq_ok hlookup).1⟩
  | revoking => exact absurd h committed_ne_next

end Steps

theorem DeskSound.answer {desk : Desk} (hsound : DeskSound desk) (answer : Answer) :
    DeskSound (desk.answer answer) := ⟨hsound.single, hsound.bound⟩

theorem Effect.answer {desk after : Desk} {locks : List Lock} (heffect : Effect desk after locks)
    (answer : Answer) : Effect desk (after.answer answer) locks :=
  ⟨heffect.grants, heffect.invitations, heffect.invitation, heffect.receipt⟩

theorem service_keeps : Keeps (service primitives) DeskSound Relies where
  start := by
    intro desk work _ hstarts
    cases work <;> trivial
  next := fun desk locks work scene taken later _ hrelies hnext ↦ statement_relies hrelies hnext
  commit := by
    intro desk locks work scene taken after hsound hrelies hstatement
    obtain ⟨answer, before, hcommit, rfl⟩ := statement_commit hstatement
    exact (hcommit.sound hsound hrelies).answer answer
  others := by
    intro desk locks work scene taken after _ hrelies hstatement otherLocks other hfree hother
    obtain ⟨answer, before, hcommit, rfl⟩ := statement_commit hstatement
    exact ((hcommit.effect hrelies).answer answer).relies hother hfree

theorem sound_opened : DeskSound .opened := ⟨nofun, nofun⟩

end AiStp.Grants
