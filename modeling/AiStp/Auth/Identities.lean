import AiStp.Corporate.Members
import AiStp.Library.Transactions

/-!
# Identities of accounts

A provider identity is one row under its provider and subject, and belongs to one account. A login
finds the account of an identity, links a new identity to the account that has its confirmed
address, or creates an account; an authenticated account links further identities by a step-up; an
unlink revokes an identity and keeps its row, which a later login brings back. Requests are
transactions over these rows. Logins and links read without locks and lock the row they write;
an unlink locks the row of its account first. A request may fail at every statement, which leaves
nothing; the locks that a new row takes on the row of its account are left out, which only adds
orders of statements.
-/

set_option autoImplicit false

namespace AiStp.Auth

open Library Library.Transactions
open Corporate (strip)

/-! ### Rows -/

inductive LinkState where
  | pending
  | linked
  | conflict
  | revoked
deriving DecidableEq

/-- A state in which an identity signs its account in. -/
def LinkState.active : LinkState → Bool
  | .pending | .linked => true
  | .conflict | .revoked => false

/-- A provider and its subject. -/
structure IdentityKey where
  provider : String
  subject : String
deriving DecidableEq

structure OAuthIdentity where
  accountId : String
  email : String
  emailVerified : Bool
  avatarUrl : Option String
  displayName : Option String
  state : LinkState
deriving DecidableEq

structure ProviderProfile where
  provider : String
  subject : String
  email : String
  emailVerified : Bool
  avatarUrl : Option String := none
  displayName : Option String := none
deriving DecidableEq

def ProviderProfile.key (profile : ProviderProfile) : IdentityKey :=
  ⟨profile.provider, profile.subject⟩

/-- What a request was answered. -/
inductive Answer where
  | signedIn (key : IdentityKey) (accountId email : String)
  | stepUpLinked (key : IdentityKey) (accountId email : String)
  /-- The profile is refused, or the identity cannot be linked. -/
  | refused (profile : ProviderProfile)
  | unlinked (accountId provider : String) (key : IdentityKey)
  | lastIdentity (accountId provider : String)
  | notLinked (accountId provider : String)
  | noAccount (accountId : String)
  /-- Several rows were found where one was asked for. -/
  | severalFound (accountId provider : String)
deriving DecidableEq

/-- The committed rows. `stepUps` lists the accounts and addresses that step-ups have written. -/
structure Directory where
  accounts : List String
  identities : Table IdentityKey OAuthIdentity
  stepUps : List (String × String)
  answers : List Answer

def Directory.opened : Directory := ⟨[], .empty, [], []⟩

def Directory.answer (directory : Directory) (answer : Answer) : Directory :=
  { directory with answers := directory.answers ++ [answer] }

/-- A linked identity with a verified address. -/
def OAuthIdentity.holds (row : OAuthIdentity) (email : String) : Bool :=
  row.email = email ∧ row.emailVerified ∧ row.state = .linked

/-- `_accounts_for_verified_email` -/
def Directory.accountsForVerifiedEmail (directory : Directory) (email : String) : List String :=
  ((directory.identities.entries.filter fun entry ↦ entry.2.holds email).map
    fun entry ↦ entry.2.accountId).dedup

def OAuthIdentity.isActiveOf (row : OAuthIdentity) (accountId : String) : Bool :=
  row.accountId = accountId ∧ row.state.active

/-- The active identities of an account. -/
def Directory.activeKeys (directory : Directory) (accountId : String) : List IdentityKey :=
  (directory.identities.entries.filter fun entry ↦ entry.2.isActiveOf accountId).map Prod.fst

/-- The active identities of an account that one provider issued. -/
def Directory.activeKeysOf (directory : Directory) (accountId provider : String) :
    List IdentityKey :=
  (directory.activeKeys accountId).filter fun key ↦ key.provider = provider

/-! ### What is written -/

/-- `_attach_identity` -/
def attachedIdentity (accountId : String) (profile : ProviderProfile) : OAuthIdentity where
  accountId := accountId
  email := profile.email
  emailVerified := profile.emailVerified
  avatarUrl := profile.avatarUrl
  displayName := profile.displayName
  state := .linked

/-- A row as the request wants it: a revoked identity is linked again, and `_apply_profile_fields`
takes over what the provider claims. -/
def OAuthIdentity.refreshed (row : OAuthIdentity) (profile : ProviderProfile) : OAuthIdentity where
  accountId := row.accountId
  email := profile.email
  emailVerified := profile.emailVerified
  avatarUrl := profile.avatarUrl.or row.avatarUrl
  displayName := profile.displayName.or row.displayName
  state := if row.state = .revoked then .linked else row.state

/-- A column is written where it differs from what was read. -/
def changed {Value : Type} [DecidableEq Value] (loaded wanted held : Value) : Value :=
  if loaded = wanted then held else wanted

/-- The update that brings a row which was read as `loaded` to `wanted`: the columns that do not
differ keep what the row holds by then. -/
def OAuthIdentity.written (loaded wanted held : OAuthIdentity) : OAuthIdentity where
  accountId := held.accountId
  email := changed loaded.email wanted.email held.email
  emailVerified := changed loaded.emailVerified wanted.emailVerified held.emailVerified
  avatarUrl := changed loaded.avatarUrl wanted.avatarUrl held.avatarUrl
  displayName := changed loaded.displayName wanted.displayName held.displayName
  state := changed loaded.state wanted.state held.state

/-! ### Statements -/

inductive Lock where
  | account (accountId : String)
  | identity (key : IdentityKey)
deriving DecidableEq

/-- How a provider profile came in. -/
inductive Via where
  | login
  | stepUp
deriving DecidableEq

/-- Where a transaction stands. -/
inductive Work where
  | login (profile : ProviderProfile)
  | stepUp (sessionAccountId : String) (profile : ProviderProfile)
  /-- The row of the identity was read as `loaded` and is to be written. -/
  | refreshing (via : Via) (profile : ProviderProfile) (loaded : OAuthIdentity)
  | refreshed (via : Via) (profile : ProviderProfile) (loaded : OAuthIdentity)
  /-- No row was found; the accounts of the address are read next. -/
  | byEmail (profile : ProviderProfile)
  | byProvision (profile : ProviderProfile) (emailAccounts : List String)
  | attaching (via : Via) (profile : ProviderProfile) (accountId : String) (created : Bool)
  | attached (via : Via) (profile : ProviderProfile) (accountId : String) (created : Bool)
  | unlink (accountId provider : String)
  /-- The row of the account is locked. -/
  | selecting (accountId provider : String)
  | counting (accountId provider : String) (key : IdentityKey)
  | revoking (accountId provider : String) (key : IdentityKey)
  | revoked (accountId provider : String) (key : IdentityKey)

abbrev Step := Outcome Directory Lock Work

/-- What a statement finds outside these rows. -/
structure Scene where
  /-- The account that an organization has provisioned for an address. -/
  provisioned : Option String := none
  /-- The id that a new account draws. -/
  id : String := ""
  /-- The connection is lost, or a row elsewhere is refused. -/
  fails : Bool := false

variable (lower : String → String)

/-- `normalize_email` and `normalize_subject` -/
def ProviderProfile.normalized (profile : ProviderProfile) : ProviderProfile :=
  { profile with subject := strip profile.subject, email := lower (strip profile.email) }

def Directory.refuse (directory : Directory) (profile : ProviderProfile) : Step :=
  .commit [] (directory.answer (.refused profile))

/-- The first statement of `resolve_login_identity`: the identity is read by its key. -/
def resolveLoginIdentity (directory : Directory) (profile : ProviderProfile) : Step :=
  let normalized := profile.normalized lower
  if !profile.emailVerified then directory.refuse profile
  else
    match directory.identities.get? normalized.key with
    | some existing =>
      if existing.state = .conflict then directory.refuse profile
      else .next [] (.refreshing .login normalized existing)
    | none => .next [] (.byEmail normalized)

/-- The first statement of `resolve_step_up_link`. -/
def resolveStepUpLink (directory : Directory) (sessionAccountId : String)
    (profile : ProviderProfile) : Step :=
  let normalized := profile.normalized lower
  if !profile.emailVerified then directory.refuse profile
  else
    match directory.identities.get? normalized.key with
    | some existing =>
      if existing.accountId = sessionAccountId then
        .next [] (.refreshing .stepUp normalized existing)
      else directory.refuse profile
    | none => .next [] (.attaching .stepUp normalized sessionAccountId false)

/-- The account that a login without an identity belongs to. -/
def resolveAccount (directory : Directory) (scene : Scene) (profile : ProviderProfile)
    (emailAccounts : List String) : Step :=
  match scene.provisioned with
  | some accountId =>
    if emailAccounts ≠ [] ∧ emailAccounts ≠ [accountId] then directory.refuse profile
    else .next [] (.attaching .login profile accountId false)
  | none =>
    match emailAccounts with
    | [] => .next [] (.attaching .login profile scene.id true)
    | [accountId] => .next [] (.attaching .login profile accountId false)
    | _ => directory.refuse profile

def signed (via : Via) (key : IdentityKey) (accountId email : String) : Answer :=
  match via with
  | .login => .signedIn key accountId email
  | .stepUp => .stepUpLinked key accountId email

/-- The addresses that step-ups have put on accounts, with the one of a row that is written. -/
def Directory.stepUpsWith (directory : Directory) (via : Via) (row : OAuthIdentity) :
    List (String × String) :=
  match via with
  | .login => directory.stepUps
  | .stepUp => directory.stepUps ++ [(row.accountId, row.email)]

/-- Nothing is written, and no row is locked, where the row was read as it should be. -/
def refreshIdentity (directory : Directory) (via : Via) (profile : ProviderProfile)
    (loaded : OAuthIdentity) : Step :=
  if loaded.refreshed profile = loaded then
    .commit [] (directory.answer (signed via profile.key loaded.accountId profile.email))
  else .next [.identity profile.key] (.refreshed via profile loaded)

def commitRefresh (directory : Directory) (via : Via) (profile : ProviderProfile)
    (loaded : OAuthIdentity) : Step :=
  match directory.identities.get? profile.key with
  | none => .abort
  | some held =>
    let row := loaded.written (loaded.refreshed profile) held
    .commit [] ({ directory with
      identities := directory.identities.update profile.key row
      stepUps := if held.holds row.email then directory.stepUps else directory.stepUpsWith via row
      }.answer (signed via profile.key row.accountId profile.email))

/-- The insertion fails where the key is taken, or where the account is missing. -/
def attachIdentity (directory : Directory) (via : Via) (profile : ProviderProfile)
    (accountId : String) (created : Bool) : Step :=
  if directory.identities.get? profile.key = none ∧ (accountId ∈ directory.accounts ↔ !created) then
    .next [.identity profile.key] (.attached via profile accountId created)
  else .abort

def commitAttach (directory : Directory) (via : Via) (profile : ProviderProfile)
    (accountId : String) (created : Bool) : Step :=
  if accountId ∈ directory.accounts ↔ !created then
    let row := attachedIdentity accountId profile
    match directory.identities.insert? profile.key row with
    | none => .abort
    | some identities =>
      .commit [] ({ directory with
        accounts := if created then directory.accounts ++ [accountId] else directory.accounts
        identities := identities
        stepUps := directory.stepUpsWith via row
        }.answer (signed via profile.key accountId profile.email))
  else .abort

/-- The first statement of `unlink_identity`: unlinks of one account wait for each other. -/
def unlinkIdentity (directory : Directory) (accountId provider : String) : Step :=
  if accountId ∈ directory.accounts then
    .next [.account accountId] (.selecting accountId (lower (strip provider)))
  else .commit [] (directory.answer (.noAccount accountId))

/-- One row is asked for; several are an error. -/
def selectIdentity (directory : Directory) (accountId provider : String) : Step :=
  match directory.activeKeysOf accountId provider with
  | [] => .commit [] (directory.answer (.notLinked accountId provider))
  | [key] => .next [] (.counting accountId provider key)
  | _ => .commit [] (directory.answer (.severalFound accountId provider))

def countIdentities (directory : Directory) (accountId provider : String) (key : IdentityKey) :
    Step :=
  if (directory.activeKeys accountId).length ≤ 1 then
    .commit [] (directory.answer (.lastIdentity accountId provider))
  else .next [] (.revoking accountId provider key)

def commitRevoke (directory : Directory) (accountId provider : String) (key : IdentityKey) :
    Step :=
  match directory.identities.get? key with
  | none => .abort
  | some held =>
    .commit [] ({ directory with
      identities := directory.identities.update key { held with state := .revoked } }.answer
        (.unlinked accountId provider key))

def statement (directory : Directory) (work : Work) (scene : Scene) : Step :=
  if scene.fails then .abort
  else
    match work with
    | .login profile => resolveLoginIdentity lower directory profile
    | .stepUp sessionAccountId profile =>
        resolveStepUpLink lower directory sessionAccountId profile
    | .refreshing via profile loaded => refreshIdentity directory via profile loaded
    | .refreshed via profile loaded => commitRefresh directory via profile loaded
    | .byEmail profile =>
        .next [] (.byProvision profile (directory.accountsForVerifiedEmail profile.email))
    | .byProvision profile emailAccounts =>
        resolveAccount directory scene profile emailAccounts
    | .attaching via profile accountId created =>
        attachIdentity directory via profile accountId created
    | .attached via profile accountId created =>
        commitAttach directory via profile accountId created
    | .unlink accountId provider => unlinkIdentity lower directory accountId provider
    | .selecting accountId provider => selectIdentity directory accountId provider
    | .counting accountId provider key => countIdentities directory accountId provider key
    | .revoking accountId provider key =>
        .next [.identity key] (.revoked accountId provider key)
    | .revoked accountId provider key => commitRevoke directory accountId provider key

/-- The requests that come in. -/
def Work.isRequest : Work → Bool
  | .login .. | .stepUp .. | .unlink .. => true
  | _ => false

def service : System Directory Lock Work Scene where
  starts := fun _ work ↦ work.isRequest
  statement := statement lower

end AiStp.Auth
