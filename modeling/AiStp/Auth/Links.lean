import AiStp.Auth.Identities

/-!
# Identity links over runs

Every commit leaves an identity with its account, and revokes one only under the lock of the account
(`Effect`). An unlink that has chosen an identity therefore finds it and the others active until it
ends (`Relies`), and every answer is right about what was written (`Answered`). Two conditions are
on the statements of a run (`Fits`): what a login writes is no address of another account by then,
and an unlink finds no second identity of its provider. `identities_safe` is about the runs that meet
them, and `links_unsafe` is about two that do not.
-/

set_option autoImplicit false

namespace AiStp.Auth

open Library Library.Transactions

/-! ### Active identities -/

section Active

variable {directory : Directory} {accountId provider : String} {key : IdentityKey}

theorem isActiveOf_iff {row : OAuthIdentity} :
    row.isActiveOf accountId = true ↔ row.accountId = accountId ∧ row.state.active = true := by
  unfold OAuthIdentity.isActiveOf
  simp

theorem mem_activeKeys : key ∈ directory.activeKeys accountId ↔
    ∃ row, directory.identities.get? key = some row ∧ row.isActiveOf accountId = true := by
  unfold Directory.activeKeys
  simp only [List.mem_map, List.mem_filter, Prod.exists, Table.mem_entries]
  constructor
  · rintro ⟨other, row, ⟨hrow, hactive⟩, rfl⟩
    exact ⟨row, hrow, hactive⟩
  · rintro ⟨row, hrow, hactive⟩
    exact ⟨key, row, ⟨hrow, hactive⟩, rfl⟩

theorem nodup_activeKeys (directory : Directory) (accountId : String) :
    (directory.activeKeys accountId).Nodup :=
  directory.identities.unique.sublist (List.filter_sublist.map Prod.fst)

theorem mem_activeKeysOf : key ∈ directory.activeKeysOf accountId provider ↔
    key ∈ directory.activeKeys accountId ∧ key.provider = provider := by
  unfold Directory.activeKeysOf
  simp

/-- An account with several active identities has another one beside each. -/
theorem exists_other_active (key : IdentityKey)
    (hseveral : ¬ (directory.activeKeys accountId).length ≤ 1) :
    ∃ other ∈ directory.activeKeys accountId, other ≠ key := by
  by_contra hnone
  push Not at hnone
  apply hseveral
  have hsub : directory.activeKeys accountId ⊆ [key] := by
    intro other hother
    exact List.mem_singleton.mpr (hnone other hother)
  exact ((nodup_activeKeys directory accountId).subperm hsub).length_le

theorem eq_of_single_active (hkey : key ∈ directory.activeKeys accountId)
    (hsingle : (directory.activeKeys accountId).length ≤ 1) {other : IdentityKey}
    (hother : other ∈ directory.activeKeys accountId) : other = key := by
  match hkeys : directory.activeKeys accountId, hsingle with
  | [], _ =>
    rw [hkeys] at hkey
    cases hkey
  | [only], _ =>
    rw [hkeys] at hkey hother
    rw [List.mem_singleton.mp hkey, List.mem_singleton.mp hother]

end Active

/-! ### Rows that are written -/

section Written

variable {row held : OAuthIdentity} {profile : ProviderProfile}

/-- A refreshed row is active where it was, and a revoked one is linked. -/
theorem active_written (hactive : held.state.active = true) :
    (row.written (row.refreshed profile) held).state.active = true := by
  show (changed row.state (if row.state = .revoked then .linked else row.state) held.state).active
    = true
  unfold changed
  by_cases hrevoked : row.state = .revoked
  · rw [if_pos hrevoked]
    split_ifs
    · exact hactive
    · rfl
  · rw [if_neg hrevoked, if_pos rfl]
    exact hactive

end Written

/-! ### What a commit leaves -/

/-- Identities stay with their accounts, and stay active unless the account is locked. -/
structure Effect (before after : Directory) (locks : List Lock) : Prop where
  accounts : ∀ accountId ∈ before.accounts, accountId ∈ after.accounts
  identities : before.identities.Keeps (fun row later ↦ later.accountId = row.accountId ∧
    (row.state.active = true → Lock.account row.accountId ∉ locks → later.state.active = true))
    after.identities

section Effects

variable {before after : Directory} {locks : List Lock}

theorem Effect.refl (directory : Directory) (locks : List Lock) :
    Effect directory directory locks :=
  ⟨fun _ haccount ↦ haccount, .refl (fun _ ↦ ⟨rfl, fun hactive _ ↦ hactive⟩) _⟩

theorem Effect.answer (h : Effect before after locks) (answer : Answer) :
    Effect before (after.answer answer) locks := ⟨h.accounts, h.identities⟩

/-- An active identity of an account that is not locked. -/
theorem Effect.mem_activeKeys (h : Effect before after locks) {accountId : String}
    {key : IdentityKey} (hkey : key ∈ before.activeKeys accountId)
    (hfree : Lock.account accountId ∉ locks) : key ∈ after.activeKeys accountId := by
  obtain ⟨row, hrow, hactive⟩ := Auth.mem_activeKeys.mp hkey
  obtain ⟨haccount, hstate⟩ := isActiveOf_iff.mp hactive
  obtain ⟨later, hlater, hsame, hkept⟩ := h.identities key row hrow
  refine Auth.mem_activeKeys.mpr ⟨later, hlater, isActiveOf_iff.mpr ⟨hsame.trans haccount, ?_⟩⟩
  exact hkept hstate (by rw [haccount]; exact hfree)

end Effects

/-! ### What a transaction relies on -/

/-- The account is locked, and the identity of the provider is one of its active ones. -/
structure Chosen (directory : Directory) (locks : List Lock) (accountId provider : String)
    (key : IdentityKey) : Prop where
  locked : Lock.account accountId ∈ locks
  provider : key.provider = provider
  active : key ∈ directory.activeKeys accountId

def Relies (directory : Directory) (locks : List Lock) : Work → Prop
  | .refreshing _ profile loaded | .refreshed _ profile loaded =>
      ∃ held, directory.identities.get? profile.key = some held ∧
        held.accountId = loaded.accountId
  | .selecting accountId _ => Lock.account accountId ∈ locks
  | .counting accountId provider key => Chosen directory locks accountId provider key
  | .revoking accountId provider key | .revoked accountId provider key =>
      Chosen directory locks accountId provider key ∧
        ∃ other ∈ directory.activeKeys accountId, other ≠ key
  | _ => True

theorem Effect.chosen {before after : Directory} {taken locks : List Lock}
    (heffect : Effect before after taken) (hfree : ∀ lock ∈ taken, lock ∉ locks)
    {accountId provider : String} {key : IdentityKey}
    (h : Chosen before locks accountId provider key) :
    Chosen after locks accountId provider key where
  locked := h.locked
  provider := h.provider
  active := heffect.mem_activeKeys h.active fun htaken ↦ hfree _ htaken h.locked

theorem Effect.relies {before after : Directory} {taken locks : List Lock} {work : Work}
    (heffect : Effect before after taken) (hfree : ∀ lock ∈ taken, lock ∉ locks)
    (h : Relies before locks work) : Relies after locks work := by
  have hread : ∀ {key : IdentityKey} {accountId : String},
      (∃ held, before.identities.get? key = some held ∧ held.accountId = accountId) →
      ∃ held, after.identities.get? key = some held ∧ held.accountId = accountId := by
    rintro key accountId ⟨held, hheld, haccount⟩
    obtain ⟨later, hlater, hsame, -⟩ := heffect.identities key held hheld
    exact ⟨later, hlater, hsame.trans haccount⟩
  have hothers : ∀ {accountId provider : String} {key : IdentityKey},
      (Chosen before locks accountId provider key ∧
        ∃ other ∈ before.activeKeys accountId, other ≠ key) →
      Chosen after locks accountId provider key ∧
        ∃ other ∈ after.activeKeys accountId, other ≠ key := by
    rintro accountId provider key ⟨hchosen, other, hother, hne⟩
    refine ⟨heffect.chosen hfree hchosen, other, ?_, hne⟩
    exact heffect.mem_activeKeys hother fun htaken ↦ hfree _ htaken hchosen.locked
  cases work with
  | refreshing via profile loaded => exact hread h
  | refreshed via profile loaded => exact hread h
  | selecting accountId provider => exact h
  | counting accountId provider key => exact heffect.chosen hfree h
  | revoking accountId provider key => exact hothers h
  | revoked accountId provider key => exact hothers h
  | login => trivial
  | stepUp => trivial
  | byEmail => trivial
  | byProvision => trivial
  | attaching => trivial
  | attached => trivial
  | unlink => trivial

/-! ### Answers -/

/-- What an answer says about the rows before the last statement and after it. -/
def Settled (before after : Directory) : Answer → Prop
  | .signedIn key accountId _ | .stepUpLinked key accountId _ =>
      ∃ row, after.identities.get? key = some row ∧ row.accountId = accountId
  | .refused _ => after.identities = before.identities
  | .unlinked accountId provider key => key.provider = provider ∧
      ∃ row, before.identities.get? key = some row ∧ row.isActiveOf accountId = true ∧
        after.identities = before.identities.update key { row with state := .revoked }
  | .lastIdentity accountId provider => after.identities = before.identities ∧
      ∃ key, key.provider = provider ∧
        ∀ other, other ∈ before.activeKeys accountId ↔ other = key
  | .notLinked accountId provider => after.identities = before.identities ∧
      before.activeKeysOf accountId provider = []
  | .noAccount accountId => after.identities = before.identities ∧ before.activeKeys accountId = []
  | .severalFound _ _ => False

/-- The answers that are added are right. -/
def Answered (before after : Directory) : Prop :=
  after.answers = before.answers ∨
    ∃ answer, after.answers = before.answers ++ [answer] ∧ Settled before after answer

/-! ### Addresses -/

/-- The accounts that hold an address with the row are its own, or step-ups have put it there. -/
def Directory.freeFor (directory : Directory) (row : OAuthIdentity) : Prop :=
  ∀ other ∈ directory.accountsForVerifiedEmail row.email, other = row.accountId ∨
    (other, row.email) ∈ directory.stepUps ∨ (row.accountId, row.email) ∈ directory.stepUps

instance (directory : Directory) (row : OAuthIdentity) : Decidable (directory.freeFor row) :=
  inferInstanceAs (Decidable (∀ _ ∈ _, _))

/-- Two accounts hold one verified address only where a step-up has put it on one of them. -/
def Directory.OneAccount (directory : Directory) : Prop :=
  ∀ first second one two email, directory.identities.get? first = some one →
    directory.identities.get? second = some two → one.holds email = true →
    two.holds email = true → one.accountId = two.accountId ∨
      (one.accountId, email) ∈ directory.stepUps ∨ (two.accountId, email) ∈ directory.stepUps

/-- What is asked of a statement: an address that a login writes is not held elsewhere by then, and
an unlink finds no second identity of the provider. -/
def Fits (directory : Directory) : Work → Prop
  | .refreshed .login profile loaded => ∀ held ∈ directory.identities.get? profile.key,
      (loaded.written (loaded.refreshed profile) held).state = .linked →
        directory.freeFor (loaded.written (loaded.refreshed profile) held)
  | .attached .login profile accountId _ =>
      directory.freeFor (attachedIdentity accountId profile)
  | .selecting accountId provider => (directory.activeKeysOf accountId provider).length ≤ 1
  | _ => True

instance (directory : Directory) (work : Work) : Decidable (Fits directory work) := by
  unfold Fits
  split <;> infer_instance

section Addresses

variable {directory : Directory} {key : IdentityKey} {row : OAuthIdentity}

theorem holds_iff {email : String} : row.holds email = true ↔
    row.email = email ∧ row.emailVerified = true ∧ row.state = .linked := by
  unfold OAuthIdentity.holds
  simp

theorem mem_accountsForVerifiedEmail {email accountId : String} :
    accountId ∈ directory.accountsForVerifiedEmail email ↔
      ∃ key row, directory.identities.get? key = some row ∧ row.holds email = true ∧
        row.accountId = accountId := by
  unfold Directory.accountsForVerifiedEmail
  simp only [List.mem_dedup, List.mem_map, List.mem_filter, Prod.exists, Table.mem_entries,
    and_assoc]

/-- A row that is put beside the others. -/
theorem Directory.OneAccount.put {after : Directory} (hone : directory.OneAccount)
    (key : IdentityKey) (row : OAuthIdentity) (hsteps : directory.stepUps ⊆ after.stepUps)
    (hget : ∀ other held, after.identities.get? other = some held →
      (other = key ∧ held = row) ∨ directory.identities.get? other = some held)
    (hfree : row.state = .linked →
      directory.freeFor row ∨ (row.accountId, row.email) ∈ after.stepUps) :
    after.OneAccount := by
  have hbeside : ∀ other held email, directory.identities.get? other = some held →
      held.holds email = true → row.holds email = true → held.accountId = row.accountId ∨
        (held.accountId, email) ∈ after.stepUps ∨ (row.accountId, email) ∈ after.stepUps := by
    intro other held email hheld hholds hrow
    obtain ⟨rfl, -, hlinked⟩ := holds_iff.mp hrow
    rcases hfree hlinked with hfree | hstep
    · rcases hfree held.accountId
        (mem_accountsForVerifiedEmail.mpr ⟨other, held, hheld, hholds, rfl⟩) with h | h | h
      · exact .inl h
      · exact .inr (.inl (hsteps h))
      · exact .inr (.inr (hsteps h))
    · exact .inr (.inr hstep)
  intro first second one two email hfirst hsecond hone' htwo'
  rcases hget first one hfirst with ⟨rfl, rfl⟩ | hfirst
  · rcases hget second two hsecond with ⟨rfl, rfl⟩ | hsecond
    · exact .inl rfl
    · rcases hbeside second two email hsecond htwo' hone' with h | h | h
      · exact .inl h.symm
      · exact .inr (.inr h)
      · exact .inr (.inl h)
  · rcases hget second two hsecond with ⟨rfl, rfl⟩ | hsecond
    · exact hbeside first one email hfirst hone' htwo'
    · rcases hone first second one two email hfirst hsecond hone' htwo' with h | h | h
      · exact .inl h
      · exact .inr (.inl (hsteps h))
      · exact .inr (.inr (hsteps h))

end Addresses

/-! ### What a statement commits -/

/-- What is committed, and what the caller is answered with it. -/
inductive Commit (directory : Directory) : Work → Answer → Directory → Prop
  | refused (work : Work) (profile : ProviderProfile) :
      Commit directory work (.refused profile) directory
  | upToDate (via : Via) (profile : ProviderProfile) (loaded : OAuthIdentity) :
      Commit directory (.refreshing via profile loaded)
        (signed via profile.key loaded.accountId profile.email) directory
  | refreshed (via : Via) (profile : ProviderProfile) (loaded held row : OAuthIdentity)
      (hheld : directory.identities.get? profile.key = some held)
      (hrow : row = loaded.written (loaded.refreshed profile) held) :
      Commit directory (.refreshed via profile loaded)
        (signed via profile.key row.accountId profile.email)
        { directory with
          identities := directory.identities.update profile.key row
          stepUps := if held.holds row.email then directory.stepUps
            else directory.stepUpsWith via row }
  | attached (via : Via) (profile : ProviderProfile) (accountId : String) (created : Bool)
      (identities : Table IdentityKey OAuthIdentity)
      (hinsert : directory.identities.insert? profile.key (attachedIdentity accountId profile) =
        some identities)
      (haccount : accountId ∈ directory.accounts ↔ (!created) = true) :
      Commit directory (.attached via profile accountId created)
        (signed via profile.key accountId profile.email)
        { directory with
          accounts := if created then directory.accounts ++ [accountId] else directory.accounts
          identities := identities
          stepUps := directory.stepUpsWith via (attachedIdentity accountId profile) }
  | noAccount (accountId provider : String) (hmissing : accountId ∉ directory.accounts) :
      Commit directory (.unlink accountId provider) (.noAccount accountId) directory
  | notLinked (accountId provider : String)
      (hnone : directory.activeKeysOf accountId provider = []) :
      Commit directory (.selecting accountId provider) (.notLinked accountId provider) directory
  | severalFound (accountId provider : String)
      (hseveral : 1 < (directory.activeKeysOf accountId provider).length) :
      Commit directory (.selecting accountId provider) (.severalFound accountId provider) directory
  | lastIdentity (accountId provider : String) (key : IdentityKey)
      (hlast : (directory.activeKeys accountId).length ≤ 1) :
      Commit directory (.counting accountId provider key) (.lastIdentity accountId provider)
        directory
  | unlinked (accountId provider : String) (key : IdentityKey) (held : OAuthIdentity)
      (hheld : directory.identities.get? key = some held) :
      Commit directory (.revoked accountId provider key) (.unlinked accountId provider key)
        { directory with
          identities := directory.identities.update key { held with state := .revoked } }

section Statements

variable {lower : String → String} {directory after : Directory} {work : Work} {scene : Scene}
  {taken : List Lock}

theorem statement_commit (h : statement lower directory work scene = .commit taken after) :
    taken = [] ∧ ∃ answer before, Commit directory work answer before ∧
      after = before.answer answer := by
  have hrefuse : ∀ {work : Work} {profile : ProviderProfile},
      directory.refuse profile = .commit taken after →
      taken = [] ∧ ∃ answer before, Commit directory work answer before ∧
        after = before.answer answer := by
    intro work profile h
    obtain ⟨rfl, rfl⟩ := Outcome.commit.inj h
    exact ⟨rfl, _, _, .refused work profile, rfl⟩
  unfold statement at h
  split_ifs at h
  cases work with
  | login profile =>
    simp only [resolveLoginIdentity] at h
    split_ifs at h
    · exact hrefuse h
    · split at h
      · split_ifs at h
        exact hrefuse h
      · cases h
  | stepUp sessionAccountId profile =>
    simp only [resolveStepUpLink] at h
    split_ifs at h
    · exact hrefuse h
    · split at h
      · split_ifs at h
        exact hrefuse h
      · cases h
  | refreshing via profile loaded =>
    simp only [refreshIdentity] at h
    split_ifs at h
    obtain ⟨rfl, rfl⟩ := Outcome.commit.inj h
    exact ⟨rfl, _, _, .upToDate via profile loaded, rfl⟩
  | refreshed via profile loaded =>
    simp only [commitRefresh] at h
    split at h
    · cases h
    · next held hheld =>
      obtain ⟨rfl, rfl⟩ := Outcome.commit.inj h
      exact ⟨rfl, _, _, .refreshed via profile loaded held _ hheld rfl, rfl⟩
  | byEmail profile => cases h
  | byProvision profile emailAccounts =>
    simp only [resolveAccount] at h
    split at h
    · split_ifs at h
      exact hrefuse h
    · split at h
      · cases h
      · cases h
      · exact hrefuse h
  | attaching via profile accountId created =>
    simp only [attachIdentity] at h
    split_ifs at h
  | attached via profile accountId created =>
    simp only [commitAttach] at h
    by_cases haccount : accountId ∈ directory.accounts ↔ (!created) = true
    · rw [if_pos haccount] at h
      split at h
      · cases h
      · next identities hinsert =>
        obtain ⟨rfl, rfl⟩ := Outcome.commit.inj h
        exact ⟨rfl, _, _, .attached via profile accountId created identities hinsert haccount, rfl⟩
    · rw [if_neg haccount] at h
      cases h
  | unlink accountId provider =>
    simp only [unlinkIdentity] at h
    split_ifs at h with haccount
    obtain ⟨rfl, rfl⟩ := Outcome.commit.inj h
    exact ⟨rfl, _, _, .noAccount accountId provider haccount, rfl⟩
  | selecting accountId provider =>
    simp only [selectIdentity] at h
    split at h
    · next hnone =>
      obtain ⟨rfl, rfl⟩ := Outcome.commit.inj h
      exact ⟨rfl, _, _, .notLinked accountId provider hnone, rfl⟩
    · cases h
    · next keys hnone hone =>
      obtain ⟨rfl, rfl⟩ := Outcome.commit.inj h
      refine ⟨rfl, _, _, .severalFound accountId provider ?_, rfl⟩
      match hkeys : directory.activeKeysOf accountId provider with
      | [] => exact absurd hkeys hnone
      | [key] => exact absurd hkeys (hone key)
      | first :: second :: rest =>
        rw [List.length_cons, List.length_cons]
        omega
  | counting accountId provider key =>
    simp only [countIdentities] at h
    split_ifs at h with hlast
    obtain ⟨rfl, rfl⟩ := Outcome.commit.inj h
    exact ⟨rfl, _, _, .lastIdentity accountId provider key hlast, rfl⟩
  | revoking accountId provider key => cases h
  | revoked accountId provider key =>
    simp only [commitRevoke] at h
    split at h
    · cases h
    · next held hheld =>
      obtain ⟨rfl, rfl⟩ := Outcome.commit.inj h
      exact ⟨rfl, _, _, .unlinked accountId provider key held hheld, rfl⟩

/-! ### What a commit keeps -/

variable {locks : List Lock} {answer : Answer}

/-- A revoked identity is an active one of an account that is locked. -/
def Locked (directory : Directory) (locks : List Lock) : Answer → Prop
  | .unlinked accountId _ key =>
      Lock.account accountId ∈ locks ∧ key ∈ directory.activeKeys accountId
  | _ => True

section

variable (hcommit : Commit directory work answer after)
include hcommit

theorem Commit.locked (hrelies : Relies directory locks work) : Locked directory locks answer := by
  cases hcommit with
  | unlinked accountId provider key held hheld => exact ⟨hrelies.1.locked, hrelies.1.active⟩
  | refreshed via => cases via <;> trivial
  | attached via => cases via <;> trivial
  | upToDate via => cases via <;> trivial
  | refused => trivial
  | noAccount => trivial
  | notLinked => trivial
  | severalFound => trivial
  | lastIdentity => trivial

theorem Commit.effect (hlocked : Locked directory locks answer) : Effect directory after locks := by
  have hrefl : ∀ row : OAuthIdentity, row.accountId = row.accountId ∧
      (row.state.active = true → Lock.account row.accountId ∉ locks → row.state.active = true) :=
    fun row ↦ ⟨rfl, fun hactive _ ↦ hactive⟩
  cases hcommit with
  | refreshed via profile loaded held row hheld hrow =>
    refine ⟨fun _ haccount ↦ haccount, Table.keeps_update hrefl hheld ?_⟩
    subst hrow
    exact ⟨rfl, fun hactive _ ↦ active_written hactive⟩
  | attached via profile accountId created identities hinsert haccount =>
    refine ⟨?_, Table.keeps_insert? hrefl hinsert⟩
    intro other hother
    show other ∈ if created then _ else _
    split_ifs
    · exact List.mem_append_left _ hother
    · exact hother
  | unlinked accountId provider key held hheld =>
    refine ⟨fun _ haccount ↦ haccount, Table.keeps_update hrefl hheld ?_⟩
    -- Only here an identity is revoked, and its account is locked.
    refine ⟨rfl, fun _ hfree ↦ absurd ?_ hfree⟩
    obtain ⟨row, hrow, hactive⟩ := mem_activeKeys.mp hlocked.2
    have hsame : row = held := Option.some.inj (hrow.symm.trans hheld)
    rw [← hsame, (isActiveOf_iff.mp hactive).1]
    exact hlocked.1
  | refused => exact .refl directory locks
  | upToDate => exact .refl directory locks
  | noAccount => exact .refl directory locks
  | notLinked => exact .refl directory locks
  | severalFound => exact .refl directory locks
  | lastIdentity => exact .refl directory locks

/-- An account with an active identity keeps one. -/
theorem Commit.hasActive (hrelies : Relies directory locks work) {accountId : String}
    (h : ∃ key, key ∈ directory.activeKeys accountId) :
    ∃ key, key ∈ after.activeKeys accountId := by
  obtain ⟨key, hkey⟩ := h
  by_cases hfree : Lock.account accountId ∈ locks
  swap
  · exact ⟨key, (hcommit.effect (hcommit.locked hrelies)).mem_activeKeys hkey hfree⟩
  cases hcommit with
  | unlinked owner provider revoked held hheld =>
    obtain ⟨hchosen, other, hother, hne⟩ := hrelies
    have hkept : ∀ name ∈ directory.activeKeys accountId, name ≠ revoked →
        name ∈ ({ directory with
          identities := directory.identities.update revoked { held with state := .revoked } }
          : Directory).activeKeys accountId := by
      intro name hname hother
      obtain ⟨row, hrow, hactive⟩ := mem_activeKeys.mp hname
      exact mem_activeKeys.mpr ⟨row, (Table.get?_update_of_ne hother).trans hrow, hactive⟩
    by_cases hsame : key = revoked
    · subst hsame
      -- The account of the revoked identity has another one.
      have howner : owner = accountId := by
        obtain ⟨row, hrow, hactive⟩ := mem_activeKeys.mp hkey
        obtain ⟨again, hagain, hactive'⟩ := mem_activeKeys.mp hchosen.active
        have hrows : row = again := Option.some.inj (hrow.symm.trans hagain)
        rw [← (isActiveOf_iff.mp hactive).1, ← (isActiveOf_iff.mp hactive').1, hrows]
      subst howner
      exact ⟨other, hkept other hother hne⟩
    · exact ⟨key, hkept key hkey hsame⟩
  | refreshed via profile loaded held row hheld hrow =>
    have heffect : Effect directory _ [] :=
      (Commit.refreshed via profile loaded held row hheld hrow).effect (by cases via <;> trivial)
    exact ⟨key, heffect.mem_activeKeys hkey List.not_mem_nil⟩
  | attached via profile owner created identities hinsert haccount =>
    have heffect : Effect directory _ [] :=
      (Commit.attached via profile owner created identities hinsert haccount).effect
        (by cases via <;> trivial)
    exact ⟨key, heffect.mem_activeKeys hkey List.not_mem_nil⟩
  | refused => exact ⟨key, hkey⟩
  | upToDate => exact ⟨key, hkey⟩
  | noAccount => exact ⟨key, hkey⟩
  | notLinked => exact ⟨key, hkey⟩
  | severalFound => exact ⟨key, hkey⟩
  | lastIdentity => exact ⟨key, hkey⟩

end

/-- The accounts of the identities are there. -/
def Directory.Owned (directory : Directory) : Prop :=
  ∀ key row, directory.identities.get? key = some row → row.accountId ∈ directory.accounts

variable (hcommit : Commit directory work answer after)

include hcommit in
theorem Commit.owned (howned : directory.Owned) : after.Owned := by
  cases hcommit with
  | refreshed via profile loaded held row hheld hrow =>
    intro key later hlater
    change (directory.identities.update profile.key row).get? key = some later at hlater
    rw [Table.get?_update, hheld] at hlater
    split_ifs at hlater with hkey
    · rw [← Option.some.inj hlater, hrow]
      exact howned profile.key held hheld
    · exact howned key later hlater
  | attached via profile accountId created identities hinsert haccount =>
    intro key later hlater
    change identities.get? key = some later at hlater
    show later.accountId ∈ if created then _ else _
    rw [(Table.insert?_eq_some hinsert).2] at hlater
    split_ifs at hlater with hkey
    · rw [← Option.some.inj hlater]
      show accountId ∈ if created then directory.accounts ++ [accountId] else directory.accounts
      by_cases hcreated : created = true
      · rw [if_pos hcreated]
        exact List.mem_append_right _ (List.mem_singleton_self _)
      · rw [if_neg hcreated]
        exact haccount.mpr (by simpa using hcreated)
    · have hmem := howned key later hlater
      split_ifs
      · exact List.mem_append_left _ hmem
      · exact hmem
  | unlinked accountId provider key held hheld =>
    intro other later hlater
    change (directory.identities.update key _).get? other = some later at hlater
    rw [Table.get?_update, hheld] at hlater
    split_ifs at hlater with hkey
    · rw [← Option.some.inj hlater]
      exact howned key held hheld
    · exact howned other later hlater
  | refused => exact howned
  | upToDate => exact howned
  | noAccount => exact howned
  | notLinked => exact howned
  | severalFound => exact howned
  | lastIdentity => exact howned

theorem settled_signed {via : Via} {key : IdentityKey} {accountId email : String}
    {row : OAuthIdentity} (hrow : after.identities.get? key = some row)
    (haccount : row.accountId = accountId) :
    Settled directory after (signed via key accountId email) := by
  cases via <;> exact ⟨row, hrow, haccount⟩

include hcommit in
theorem Commit.settled (howned : directory.Owned) (hrelies : Relies directory locks work)
    (hfits : Fits directory work) : Settled directory after answer := by
  cases hcommit with
  | refused => rfl
  | upToDate via profile loaded =>
    obtain ⟨held, hheld, haccount⟩ := hrelies
    exact settled_signed hheld haccount
  | refreshed via profile loaded held row hheld hrow =>
    exact settled_signed (Table.get?_update_self hheld) rfl
  | attached via profile accountId created identities hinsert haccount =>
    have hget : identities.get? profile.key = some (attachedIdentity accountId profile) := by
      rw [(Table.insert?_eq_some hinsert).2, if_pos rfl]
    exact settled_signed hget rfl
  | noAccount accountId provider hmissing =>
    refine ⟨rfl, List.eq_nil_iff_forall_not_mem.mpr fun key hkey ↦ hmissing ?_⟩
    obtain ⟨row, hrow, hactive⟩ := mem_activeKeys.mp hkey
    rw [← (isActiveOf_iff.mp hactive).1]
    exact howned key row hrow
  | notLinked accountId provider hnone => exact ⟨rfl, hnone⟩
  | severalFound accountId provider hseveral =>
    change (directory.activeKeysOf accountId provider).length ≤ 1 at hfits
    omega
  | lastIdentity accountId provider key hlast =>
    refine ⟨rfl, key, hrelies.provider, fun other ↦ ⟨?_, ?_⟩⟩
    · exact eq_of_single_active hrelies.active hlast
    · intro hother
      rw [hother]
      exact hrelies.active
  | unlinked accountId provider key held hheld =>
    obtain ⟨row, hrow, hactive⟩ := mem_activeKeys.mp hrelies.1.active
    have hsame : row = held := Option.some.inj (hrow.symm.trans hheld)
    exact ⟨hrelies.1.provider, held, hheld, hsame ▸ hactive, rfl⟩

include hcommit in
theorem Commit.answers_eq : after.answers = directory.answers := by
  cases hcommit <;> rfl

theorem settled_answer (h : Settled directory after answer) :
    Settled directory (after.answer answer) answer := by
  cases answer <;> exact h

theorem get?_update_cases {key : IdentityKey} {held row : OAuthIdentity}
    (hheld : directory.identities.get? key = some held) :
    ∀ other later, (directory.identities.update key row).get? other = some later →
      (other = key ∧ later = row) ∨ directory.identities.get? other = some later := by
  intro other later hlater
  rw [Table.get?_update, hheld] at hlater
  split_ifs at hlater with hother
  · exact .inl ⟨hother, (Option.some.inj hlater).symm⟩
  · exact .inr hlater

theorem subset_stepUpsWith (directory : Directory) (via : Via) (row : OAuthIdentity) :
    directory.stepUps ⊆ directory.stepUpsWith via row := by
  cases via
  · exact List.Subset.refl _
  · exact List.subset_append_left _ _

include hcommit in
theorem Commit.oneAccount (hone : directory.OneAccount) (hfits : Fits directory work) :
    after.OneAccount := by
  cases hcommit with
  | attached via profile accountId created identities hinsert haccount =>
    refine hone.put profile.key (attachedIdentity accountId profile)
      (subset_stepUpsWith directory via _) ?_ fun _ ↦ ?_
    · intro other held hheld
      change identities.get? other = some held at hheld
      rw [(Table.insert?_eq_some hinsert).2] at hheld
      split_ifs at hheld with hother
      · exact .inl ⟨hother, (Option.some.inj hheld).symm⟩
      · exact .inr hheld
    · cases via with
      | login => exact .inl hfits
      | stepUp => exact .inr (List.mem_append_right _ (List.mem_singleton_self _))
  | refreshed via profile loaded held row hheld hrow =>
    refine hone.put profile.key row ?_ (get?_update_cases hheld) fun hlinked ↦ ?_
    · show directory.stepUps ⊆ if held.holds row.email then _ else _
      split_ifs
      · exact List.Subset.refl _
      · exact subset_stepUpsWith directory via row
    · have haccount : row.accountId = held.accountId := hrow ▸ rfl
      show _ ∨ _ ∈ if held.holds row.email then _ else _
      by_cases hholds : held.holds row.email = true
      · -- The address was on the row before.
        left
        intro other hother
        obtain ⟨name, beside, hbeside, hsame, rfl⟩ := mem_accountsForVerifiedEmail.mp hother
        rw [haccount]
        exact hone name profile.key beside held row.email hbeside hheld hsame hholds
      · rw [if_neg hholds]
        cases via with
        | login =>
          subst hrow
          exact .inl (hfits held hheld hlinked)
        | stepUp => exact .inr (List.mem_append_right _ (List.mem_singleton_self _))
  | unlinked accountId provider key held hheld =>
    refine hone.put key { held with state := .revoked } (List.Subset.refl _)
      (get?_update_cases hheld) fun hlinked ↦ ?_
    cases hlinked
  | refused => exact hone
  | upToDate => exact hone
  | noAccount => exact hone
  | notLinked => exact hone
  | severalFound => exact hone
  | lastIdentity => exact hone

/-! ### What a transaction relies on next -/

variable {later : Work}

theorem statement_relies (hrelies : Relies directory locks work)
    (h : statement lower directory work scene = .next taken later) :
    Relies directory (locks ++ taken) later := by
  unfold statement at h
  split_ifs at h
  cases work with
  | login profile =>
    simp only [resolveLoginIdentity, Directory.refuse] at h
    split_ifs at h
    split at h
    · next existing hexisting =>
      split_ifs at h
      obtain ⟨rfl, rfl⟩ := Outcome.next.inj h
      exact ⟨existing, hexisting, rfl⟩
    · obtain ⟨rfl, rfl⟩ := Outcome.next.inj h
      trivial
  | stepUp sessionAccountId profile =>
    simp only [resolveStepUpLink, Directory.refuse] at h
    split_ifs at h
    split at h
    · next existing hexisting =>
      split_ifs at h
      obtain ⟨rfl, rfl⟩ := Outcome.next.inj h
      exact ⟨existing, hexisting, rfl⟩
    · obtain ⟨rfl, rfl⟩ := Outcome.next.inj h
      trivial
  | refreshing via profile loaded =>
    simp only [refreshIdentity] at h
    split_ifs at h
    obtain ⟨rfl, rfl⟩ := Outcome.next.inj h
    exact hrelies
  | refreshed via profile loaded =>
    simp only [commitRefresh] at h
    split at h <;> cases h
  | byEmail profile =>
    obtain ⟨rfl, rfl⟩ := Outcome.next.inj h
    trivial
  | byProvision profile emailAccounts =>
    simp only [resolveAccount, Directory.refuse] at h
    split at h
    · split_ifs at h
      obtain ⟨rfl, rfl⟩ := Outcome.next.inj h
      trivial
    · split at h
      · obtain ⟨rfl, rfl⟩ := Outcome.next.inj h
        trivial
      · obtain ⟨rfl, rfl⟩ := Outcome.next.inj h
        trivial
      · cases h
  | attaching via profile accountId created =>
    simp only [attachIdentity] at h
    split_ifs at h
    obtain ⟨rfl, rfl⟩ := Outcome.next.inj h
    trivial
  | attached via profile accountId created =>
    simp only [commitAttach] at h
    by_cases haccount : accountId ∈ directory.accounts ↔ (!created) = true
    · rw [if_pos haccount] at h
      split at h <;> cases h
    · rw [if_neg haccount] at h
      cases h
  | unlink accountId provider =>
    simp only [unlinkIdentity] at h
    split_ifs at h
    obtain ⟨rfl, rfl⟩ := Outcome.next.inj h
    exact List.mem_append_right _ (List.mem_singleton_self _)
  | selecting accountId provider =>
    simp only [selectIdentity] at h
    split at h
    · cases h
    · next key hkey =>
      obtain ⟨rfl, rfl⟩ := Outcome.next.inj h
      have hmem : key ∈ directory.activeKeysOf accountId provider := by
        rw [hkey]
        exact List.mem_singleton_self _
      obtain ⟨hactive, hprovider⟩ := mem_activeKeysOf.mp hmem
      exact ⟨List.mem_append_left _ hrelies, hprovider, hactive⟩
    · cases h
  | counting accountId provider key =>
    simp only [countIdentities] at h
    split_ifs at h with hlast
    obtain ⟨rfl, rfl⟩ := Outcome.next.inj h
    exact ⟨⟨List.mem_append_left _ hrelies.locked, hrelies.provider, hrelies.active⟩,
      exists_other_active key hlast⟩
  | revoking accountId provider key =>
    obtain ⟨rfl, rfl⟩ := Outcome.next.inj h
    exact ⟨⟨List.mem_append_left _ hrelies.1.locked, hrelies.1.provider, hrelies.1.active⟩,
      hrelies.2⟩
  | revoked accountId provider key =>
    simp only [commitRevoke] at h
    split at h <;> cases h

end Statements

theorem service_keeps (lower : String → String) :
    Keeps (service lower) Directory.Owned Relies where
  start := by
    intro directory work _ hstarts
    cases work with
    | login => trivial
    | stepUp => trivial
    | unlink => trivial
    | _ => cases hstarts
  next := fun directory locks work scene taken later _ hrelies hnext ↦
    statement_relies hrelies hnext
  commit := by
    intro directory locks work scene taken after howned hrelies hstatement
    obtain ⟨-, answer, before, hcommit, rfl⟩ := statement_commit hstatement
    exact hcommit.owned howned
  others := by
    intro directory locks work scene taken after _ hrelies hstatement otherLocks other hfree hother
    obtain ⟨rfl, answer, before, hcommit, rfl⟩ := statement_commit hstatement
    have heffect := (hcommit.effect (hcommit.locked hrelies)).answer answer
    rw [List.append_nil] at hfree
    exact heffect.relies hfree hother

/-! ### Runs -/

section Runs

variable {lower : String → String}

/-- Identities stay with their accounts, and accounts keep an active one. -/
structure Onward (before after : Directory) : Prop where
  identities : before.identities.Keeps (fun row later ↦ later.accountId = row.accountId)
    after.identities
  active : ∀ accountId, before.activeKeys accountId ≠ [] → after.activeKeys accountId ≠ []

theorem Onward.refl (directory : Directory) : Onward directory directory :=
  ⟨fun _ row hrow ↦ ⟨row, hrow, rfl⟩, fun _ h ↦ h⟩

theorem Onward.trans {first second third : Directory} (h : Onward first second)
    (h' : Onward second third) : Onward first third :=
  ⟨h.identities.trans (fun _ _ _ hfirst hsecond ↦ hsecond.trans hfirst) h'.identities,
    fun accountId hactive ↦ h'.active accountId (h.active accountId hactive)⟩

/-- The statement that a transaction takes fits. -/
def Meets (machine : Machine Directory Lock Work) : Action Work Scene → Prop
  | .begin .. => True
  | .advance id _ => ∀ current ∈ machine.running.get? id, Fits machine.db current.state

instance (machine : Machine Directory Lock Work) (action : Action Work Scene) :
    Decidable (Meets machine action) := by
  unfold Meets
  split <;> infer_instance

variable {machine : Machine Directory Lock Work} {action : Action Work Scene}

/-- What holds in every state: the transactions have what they rely on, and an address is on one
account. -/
structure Safe (machine : Machine Directory Lock Work) : Prop where
  sound : Sound Directory.Owned Relies machine
  oneAccount : machine.db.OneAccount

/-- A step commits nothing, or the answer of one transaction. -/
theorem step_commit (lower : String → String) (hsafe : Safe machine) (hmeets : Meets machine action) :
    (step (service lower) machine action).db = machine.db ∨
      ∃ work locks answer before, Commit machine.db work answer before ∧
        (step (service lower) machine action).db = before.answer answer ∧
        Relies machine.db locks work ∧ Fits machine.db work := by
  rcases step_db (service lower) machine action with hsame | ⟨id, scene, current, taken, rfl,
    hcurrent, -, hstatement⟩
  · exact .inl hsame
  · obtain ⟨-, answer, before, hcommit, hafter⟩ := statement_commit hstatement
    exact .inr ⟨current.state, current.locks, answer, before, hcommit, hafter,
      hsafe.sound.relies id current hcurrent, hmeets current hcurrent⟩

theorem step_safe (lower : String → String) (machine : Machine Directory Lock Work)
    (action : Action Work Scene) (hsafe : Safe machine) (hmeets : Meets machine action) :
    Safe (step (service lower) machine action) := by
  refine ⟨step_sound (service_keeps lower) machine action hsafe.sound, ?_⟩
  rcases step_commit lower hsafe hmeets with hsame | ⟨work, locks, answer, before,
    hcommit, hafter, -, hfits⟩
  · rw [hsame]
    exact hsafe.oneAccount
  · rw [hafter]
    exact hcommit.oneAccount hsafe.oneAccount hfits

theorem step_onward (hsafe : Safe machine) (hmeets : Meets machine action) :
    Onward machine.db (step (service lower) machine action).db := by
  rcases step_commit lower hsafe hmeets with hsame | ⟨work, locks, answer, before,
    hcommit, hafter, hrelies, -⟩
  · rw [hsame]
    exact .refl machine.db
  · rw [hafter]
    constructor
    · intro key row hrow
      obtain ⟨later, hlater, hsame, -⟩ :=
        (hcommit.effect (hcommit.locked hrelies)).identities key row hrow
      exact ⟨later, hlater, hsame⟩
    · intro accountId hactive
      have hkept := hcommit.hasActive hrelies (List.exists_mem_of_ne_nil _ hactive)
      exact List.ne_nil_of_mem hkept.choose_spec

theorem step_answered (lower : String → String) (hsafe : Safe machine) (hmeets : Meets machine action) :
    Answered machine.db (step (service lower) machine action).db := by
  rcases step_commit lower hsafe hmeets with hsame | ⟨work, locks, answer, before,
    hcommit, hafter, hrelies, hfits⟩
  · exact .inl (congrArg Directory.answers hsame)
  · right
    rw [hafter]
    refine ⟨answer, ?_, settled_answer (hcommit.settled hsafe.sound.invariant hrelies hfits)⟩
    show before.answers ++ [answer] = machine.db.answers ++ [answer]
    rw [hcommit.answers_eq]

/-- The machine after some actions on a directory that no request has opened. -/
def serve (lower : String → String) (directory : Directory) (actions : List (Action Work Scene)) :
    Machine Directory Lock Work :=
  Runs.run (step (service lower)) ⟨directory, .empty⟩ actions

/-- At every moment of a run identities have stayed with their accounts, accounts that had an active
identity have one, an address is on one account unless a step-up has put it on another, and every
answer was right. -/
structure LinksSafe (lower : String → String) (directory : Directory)
    (actions : List (Action Work Scene)) : Prop where
  onward : ∀ before after, before ++ after = actions →
    Onward (serve lower directory before).db (serve lower directory actions).db
  oneAccount : ∀ before, before <+: actions → (serve lower directory before).db.OneAccount
  answered : ∀ before action, before ++ [action] <+: actions →
    Answered (serve lower directory before).db (serve lower directory (before ++ [action])).db

theorem opened_owned : Directory.opened.Owned := by
  intro key row hrow
  cases hrow

theorem opened_oneAccount : Directory.opened.OneAccount := by
  intro first second one two email hfirst
  cases hfirst

theorem serve_safe {directory : Directory} (howned : directory.Owned)
    (hone : directory.OneAccount) (actions : List (Action Work Scene))
    (hmeet : Runs.StepsMeet (step (service lower)) Meets ⟨directory, .empty⟩ actions) :
    Safe (serve lower directory actions) :=
  Runs.run_invariant_of_stepsMeet (step_safe lower) _ ⟨sound_idle howned, hone⟩ actions hmeet

theorem identities_safe (lower : String → String) (directory : Directory)
    (howned : directory.Owned) (hone : directory.OneAccount) (actions : List (Action Work Scene))
    (hmeet : Runs.StepsMeet (step (service lower)) Meets ⟨directory, .empty⟩ actions) :
    LinksSafe lower directory actions := by
  constructor
  · rintro before after rfl
    obtain ⟨hbefore, hafter⟩ := Runs.stepsMeet_append.mp hmeet
    have hsafe := serve_safe howned hone before hbefore
    unfold serve
    rw [Runs.run_append]
    refine Runs.run_related_of_stepsMeet (fun first last ↦ Onward first.db last.db)
      (fun machine ↦ .refl machine.db) .trans (step_safe lower) ?_ _ hsafe after hafter
    intro machine action hsafe hmeets
    exact step_onward hsafe hmeets
  · rintro before ⟨after, rfl⟩
    exact (serve_safe howned hone before (Runs.stepsMeet_append.mp hmeet).1).oneAccount
  · rintro before action ⟨after, rfl⟩
    rw [List.append_assoc] at hmeet
    obtain ⟨hbefore, hafter⟩ := Runs.stepsMeet_append.mp hmeet
    have hstep := step_answered lower (serve_safe howned hone before hbefore) hafter.1
    unfold serve at hstep ⊢
    rw [Runs.run_append]
    exact hstep

/-! ### Runs that do not fit -/

/-- One statement after another, of one transaction. -/
def statements (id : Nat) (count : Nat) (scene : Scene) : List (Action Work Scene) :=
  List.replicate count (.advance id scene)

def googleProfile (subject email : String) : ProviderProfile where
  provider := "google"
  subject := subject
  email := email
  emailVerified := true

def githubProfile : ProviderProfile where
  provider := "github"
  subject := "20"
  email := "ada@example.org"
  emailVerified := true

/-- An account links two identities of one provider, and starts to unlink the provider. -/
def twoLinked : List (Action Work Scene) :=
  [.begin 0 (.login (googleProfile "10" "ada@example.org"))] ++
  statements 0 5 { id := "account-a" } ++
  [.begin 1 (.stepUp "account-a" (googleProfile "11" "ada@work.example"))] ++
  statements 1 3 {} ++
  [.begin 2 (.unlink "account-a" "google"), .advance 2 {}]

def unlinkOfTwo : List (Action Work Scene) := twoLinked ++ [.advance 2 {}]

/-- Two first logins with one address read the accounts of it before either writes. -/
def firstLogins : List (Action Work Scene) :=
  [.begin 0 (.login (googleProfile "10" "ada@example.org")), .begin 1 (.login githubProfile)] ++
  statements 0 2 {} ++ statements 1 2 {} ++
  statements 0 3 { id := "account-a" } ++ statements 1 3 { id := "account-b" }

theorem links_unsafe : ¬ LinksSafe id .opened unlinkOfTwo ∧ ¬ LinksSafe id .opened firstLogins := by
  constructor
  · intro h
    unfold unlinkOfTwo at h
    have hanswered := h.answered twoLinked (.advance 2 {}) List.prefix_rfl
    have hlast : (serve id .opened (twoLinked ++ [.advance 2 {}])).db.answers =
        (serve id .opened twoLinked).db.answers ++ [.severalFound "account-a" "google"] := by
      decide
    rcases hanswered with hsame | ⟨answer, hadded, hsettled⟩
    · rw [hlast] at hsame
      exact absurd (congrArg List.length hsame) (by simp)
    · rw [hlast] at hadded
      have hanswer := List.append_cancel_left hadded
      rw [← (List.cons.inj hanswer).1] at hsettled
      exact hsettled
  · intro h
    have hone := h.oneAccount firstLogins List.prefix_rfl
    rcases hone ⟨"google", "10"⟩ ⟨"github", "20"⟩
      (attachedIdentity "account-a" (googleProfile "10" "ada@example.org"))
      (attachedIdentity "account-b" githubProfile) "ada@example.org" (by decide)
      (by decide) (by decide +kernel) (by decide +kernel) with hsame | hstep | hstep
    · exact absurd hsame (by decide)
    · exact absurd hstep (by decide)
    · exact absurd hstep (by decide)

/-- A login, a link of a second provider and an unlink. -/
def unlinkOfOne : List (Action Work Scene) :=
  [.begin 0 (.login (googleProfile "10" "ada@example.org"))] ++
  statements 0 5 { id := "account-a" } ++
  [.begin 1 (.stepUp "account-a" githubProfile)] ++ statements 1 3 {} ++
  [.begin 2 (.unlink "account-a" "google")] ++ statements 2 5 {}

theorem identities_safe_unlink : LinksSafe id .opened unlinkOfOne ∧
    (serve id .opened unlinkOfOne).db.answers = [
      .signedIn ⟨"google", "10"⟩ "account-a" "ada@example.org",
      .stepUpLinked ⟨"github", "20"⟩ "account-a" "ada@example.org",
      .unlinked "account-a" "google" ⟨"google", "10"⟩] := by
  have hmeet : Runs.StepsMeet (step (service id)) Meets ⟨.opened, .empty⟩ unlinkOfOne := by
    decide
  constructor
  · exact identities_safe id .opened opened_owned opened_oneAccount unlinkOfOne hmeet
  · decide

end Runs

end AiStp.Auth
