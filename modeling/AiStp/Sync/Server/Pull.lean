import AiStp.Library.Loops
import AiStp.Sync.Server.Cursor
import AiStp.Sync.Server.Outbox

/-!
# Pulling the outbox

`pullEvents` answers with the rows after a cursor, in the order of their sequences and at most a page
of them, and with the cursor of the last of them. A page without rows repeats the cursor it was asked
with. A device that follows the cursors reads the outbox row by row, whatever is pushed in between
and whatever pages it asks for.
-/

set_option autoImplicit false

namespace AiStp.Sync.Server.Pull

open Library Foundation Cursor
open Library.Base64 (SpareBits)

def pageSizeMax : Int := 100

/-- The device of a session, as its row says. -/
inductive DeviceState where
  | unbound
  | revoked
  | active
deriving DecidableEq, Repr

inductive Failure where
  | authRequired (message : String)
  | deviceRevoked (message : String)
  | validation (message : String)
  /-- A cursor that cannot be encoded. -/
  | cursor (message : String)
deriving DecidableEq, Repr

def requireActiveDevice : DeviceState → Except Failure Unit
  | .unbound => .error (.authRequired "device-bound session required")
  | .revoked => .error (.deviceRevoked "device is revoked")
  | .active => .ok ()

structure Page where
  items : List SyncOutbox
  nextCursor : Option (List Char)
  pageSize : Int

/-- The rows after a sequence, at most a number of them. -/
def rowsAfter (ledger : Ledger) (after size : Int) : List SyncOutbox :=
  ((ledger.outbox.filter fun row ↦ after < row.sequence).insertionSort
    fun first second ↦ first.sequence ≤ second.sequence).take size.toNat

section Service

variable (toolkit : Toolkit) (secret : String) (account : Account)

/-- `sync_page_cursor`. -/
def pageCursor (last : Option SyncOutbox) (incoming : Option (List Char)) :
    Except Failure (Option (List Char)) :=
  match last with
  | some row =>
    match encode toolkit secret account row.sequence with
    | .ok token => .ok (some token)
    | .error message => .error (.cursor message)
  | none => .ok incoming

/-- The sequence that a cursor stands for. -/
def positionOf : Option (List Char) → Except Failure Int
  | none => .ok 0
  | some token =>
    match decode toolkit secret token account.id with
    | .ok sequence => .ok sequence
    | .error _ => .error (.validation "invalid sync cursor")

/-- `pull_events`. -/
def pullEvents (ledger : Ledger) (device : DeviceState) (cursor : Option (List Char))
    (pageSize : Int) : Except Failure Page := do
  requireActiveDevice device
  let size := min (max pageSize 1) pageSizeMax
  let after ← positionOf toolkit secret account cursor
  let items := rowsAfter ledger after size
  let next ← pageCursor toolkit secret account items.getLast? cursor
  return ⟨items, next, size⟩

end Service

/-! ### A device that follows the cursors -/

/-- The outbox, the last cursor of a device and the rows that it has been given. -/
structure Follower where
  ledger : Ledger
  cursor : Option (List Char)
  seen : List SyncOutbox

def Follower.start : Follower := ⟨.empty, none, []⟩

inductive Action where
  | push (push : Push)
  | pull (device : DeviceState) (pageSize : Int)

section Runs

variable (platform : Platform) (toolkit : Toolkit) (secret : String) (account : Account)

/-- The device keeps what a page brings. A pull that is refused changes nothing. -/
def step (state : Follower) : Action → Follower
  | .push push => { state with ledger := Server.push platform secret state.ledger push }
  | .pull device pageSize =>
    match pullEvents toolkit secret account state.ledger device state.cursor pageSize with
    | .ok page =>
      { state with cursor := page.nextCursor, seen := state.seen ++ page.items }
    | .error _ => state

def followed (actions : List Action) : Follower :=
  Runs.run (step platform toolkit secret account) .start actions

end Runs

/-! ### One page -/

variable {device : DeviceState}

section Pages

variable {toolkit : Toolkit} {secret : String} {account : Account} {ledger : Ledger}

theorem sequence_getElem (hledger : ledger.Sound) {index : Nat} (h : index < ledger.outbox.length) :
    (ledger.outbox[index]).sequence = index + 1 := by
  have hlength : index < (ledger.outbox.map SyncOutbox.sequence).length := by simpa using h
  have hindex : (ledger.outbox.map SyncOutbox.sequence)[index] = index + 1 := by
    simp only [hledger.sequences, List.getElem_range']
    omega
  simpa using hindex

/-- The rows after a position are the rest of the outbox. -/
theorem rowsAfter_eq (hledger : ledger.Sound) (count : Nat) (size : Int) :
    rowsAfter ledger count size = (ledger.outbox.drop count).take size.toNat := by
  have hsorted : ledger.outbox.Pairwise fun first second ↦ first.sequence ≤ second.sequence := by
    have hmap : (ledger.outbox.map SyncOutbox.sequence).Pairwise (· < ·) := by
      rw [hledger.sequences]
      exact List.pairwise_lt_range'
    exact (List.pairwise_map.mp hmap).imp fun hlt ↦ le_of_lt hlt
  have hfilter : (ledger.outbox.filter fun row ↦ (count : Int) < row.sequence) =
      ledger.outbox.drop count := by
    conv_lhs => rw [← List.take_append_drop count ledger.outbox, List.filter_append]
    have htake : (ledger.outbox.take count).filter (fun row ↦ (count : Int) < row.sequence) = [] := by
      rw [List.filter_eq_nil_iff]
      intro row hrow
      obtain ⟨index, hindex, rfl⟩ := List.mem_take_iff_getElem.mp hrow
      rw [sequence_getElem hledger (by omega), decide_eq_true_eq]
      omega
    rw [htake, List.nil_append, List.filter_eq_self]
    intro row hrow
    obtain ⟨index, hindex, rfl⟩ := List.mem_drop_iff_getElem.mp hrow
    rw [sequence_getElem hledger (by omega)]
    exact decide_eq_true (by omega)
  rw [rowsAfter, hfilter, (hsorted.drop).insertionSort_eq]

/-- The cursor of a device that has been given a number of rows. -/
def CursorAt (toolkit : Toolkit) (secret : String) (account : Account) (count : Nat)
    (cursor : Option (List Char)) : Prop :=
  cursor = none ∧ count = 0 ∨
    ∃ token, cursor = some token ∧ encode toolkit secret account count = .ok token

variable {cursor : Option (List Char)}

theorem positionOf_eq {count : Nat} (h : CursorAt toolkit secret account count cursor) :
    positionOf toolkit secret account cursor = .ok (count : Int) := by
  rcases h with ⟨rfl, rfl⟩ | ⟨token, rfl, htoken⟩
  · rfl
  · rw [positionOf, decode_encode htoken, if_pos rfl]

/-- The last row of a page has the number of the rows up to it. -/
theorem getLast?_rows (hledger : ledger.Sound) {count taken : Nat} {row : SyncOutbox}
    (h : ((ledger.outbox.drop count).take taken).getLast? = some row) :
    row.sequence = count + ((ledger.outbox.drop count).take taken).length := by
  obtain ⟨front, hfront⟩ := List.getLast?_eq_some_iff.mp h
  have hlength := congrArg List.length hfront
  have hindex : ((ledger.outbox.drop count).take taken)[front.length]? = some row := by
    rw [hfront]
    simp
  have htaken : front.length < taken := by
    rw [List.length_take, List.length_append, List.length_singleton] at hlength
    omega
  rw [List.getElem?_take_of_lt htaken, List.getElem?_drop] at hindex
  obtain ⟨hlt, rfl⟩ := List.getElem?_eq_some_iff.mp hindex
  rw [sequence_getElem hledger hlt, hlength]
  simp
  omega

/-- A page brings the next rows, and the cursor that goes on after them. -/
theorem pullEvents_eq_ok (hledger : ledger.Sound) {count : Nat}
    (hcursor : CursorAt toolkit secret account count cursor) {pageSize : Int} {page : Page}
    (h : pullEvents toolkit secret account ledger device cursor pageSize = .ok page) :
    page.items = (ledger.outbox.drop count).take (min (max pageSize 1) pageSizeMax).toNat ∧
      CursorAt toolkit secret account (count + page.items.length) page.nextCursor ∧
      (page.nextCursor = none → page.items = [] ∧ cursor = none) := by
  unfold pullEvents at h
  obtain ⟨_, -, h⟩ := bind_eq_ok.mp h
  obtain ⟨after, hafter, h⟩ := bind_eq_ok.mp h
  obtain ⟨next, hnext, h⟩ := bind_eq_ok.mp h
  obtain rfl := Except.ok.inj h
  rw [positionOf_eq hcursor] at hafter
  obtain rfl := Except.ok.inj hafter
  rw [rowsAfter_eq hledger] at hnext ⊢
  refine ⟨rfl, ?_⟩
  dsimp only
  cases hlast : ((ledger.outbox.drop count).take
      (min (max pageSize 1) pageSizeMax).toNat).getLast? with
  | none =>
    rw [hlast] at hnext
    obtain rfl := Except.ok.inj hnext
    rw [List.getLast?_eq_none_iff.mp hlast]
    exact ⟨hcursor, fun hnone ↦ ⟨rfl, hnone⟩⟩
  | some row =>
    rw [hlast, pageCursor] at hnext
    split at hnext
    · next token htoken =>
      obtain rfl := Except.ok.inj hnext
      rw [getLast?_rows hledger hlast] at htoken
      exact ⟨.inr ⟨token, rfl, htoken⟩, nofun⟩
    · cases hnext

/-- A pull of an active device is answered as long as the sequences of the outbox fit their column. -/
theorem exists_page (hledger : ledger.Sound) {count : Nat}
    (hcursor : CursorAt toolkit secret account count cursor) (hfits : ledger.outbox.length < 2 ^ 63)
    (pageSize : Int) :
    ∃ page, pullEvents toolkit secret account ledger .active cursor pageSize = .ok page := by
  have hnext : ∃ next, pageCursor toolkit secret account
      (rowsAfter ledger count (min (max pageSize 1) pageSizeMax)).getLast? cursor = .ok next := by
    cases hlast : (rowsAfter ledger count (min (max pageSize 1) pageSizeMax)).getLast? with
    | none => exact ⟨cursor, rfl⟩
    | some row =>
      have hmem := List.mem_of_getLast? hlast
      rw [rowsAfter_eq hledger] at hmem
      obtain ⟨index, hindex, rfl⟩ :=
        List.mem_iff_getElem.mp (List.mem_of_mem_drop (List.mem_of_mem_take hmem))
      obtain ⟨token, htoken⟩ := exists_encode toolkit secret account
        (Int.natCast_nonneg (ledger.outbox[index]).sequence)
        (by rw [sequence_getElem hledger hindex]; omega)
      exact ⟨some token, by rw [pageCursor, htoken]⟩
  obtain ⟨next, hnext⟩ := hnext
  refine ⟨⟨rowsAfter ledger count (min (max pageSize 1) pageSizeMax), next,
    min (max pageSize 1) pageSizeMax⟩, ?_⟩
  simp only [pullEvents, bind_eq_ok]
  exact ⟨(), rfl, count, positionOf_eq hcursor, next, hnext, rfl⟩

end Pages

/-! ### Every run -/

section Following

variable {platform : Platform} {toolkit : Toolkit} {secret : String} {account : Account}

/-- A push leaves the rows of the outbox in front. -/
theorem push_outbox (platform : Platform) (secret : String) (ledger : Ledger) (action : Push) :
    ledger.outbox <+: (push platform secret ledger action).outbox := by
  have hall (ledger : Ledger) (rows : List SyncRevision) :
      ledger.outbox <+: (ledger.deliverAll rows).outbox := by
    induction rows generalizing ledger with
    | nil => exact List.prefix_rfl
    | cons row rows ih => exact (List.prefix_append _ _).trans (ih (ledger.deliver row))
  unfold push
  cases hresult : applyOne platform secret action.session ledger action.event with
  | error failure => exact List.prefix_rfl
  | ok result =>
    obtain ⟨receipt, settled⟩ := result
    obtain ⟨fingerprint, -, ⟨_, -, -, -, rfl⟩ | ⟨-, rows, houtcome, rfl⟩⟩ := applyOne_cases hresult
    · exact List.prefix_rfl
    · cases houtcome with
      | unchanged _ _ => exact List.prefix_rfl
      | retained _ _ _ _ _ => exact List.prefix_rfl
      | accepted createdAt undelivered cursor _ _ _ _ _ =>
        exact (hall ledger undelivered).trans (List.prefix_append _ _)

/-- The device has been given the first rows of the outbox, and its cursor stands after them. -/
structure Follows (toolkit : Toolkit) (secret : String) (account : Account) (state : Follower) :
    Prop where
  sound : state.ledger.Sound
  seen : state.seen <+: state.ledger.outbox
  cursor : CursorAt toolkit secret account state.seen.length state.cursor

/-- The rows of the outbox that the device has not been given. -/
def Follower.rest (state : Follower) : List SyncOutbox :=
  state.ledger.outbox.drop state.seen.length

variable {state : Follower}

variable (h : Follows toolkit secret account state)

include h in
theorem Follows.append_rest : state.seen ++ state.rest = state.ledger.outbox := by
  rw [Follower.rest]
  conv_lhs => rw [List.prefix_iff_eq_take.mp h.seen]
  rw [List.length_take, min_eq_left h.seen.length_le, List.take_append_drop]

include h in
theorem Follows.pull {pageSize : Int} {page : Page}
    (hpage : pullEvents toolkit secret account state.ledger device state.cursor pageSize = .ok page) :
    page.items = state.rest.take (min (max pageSize 1) pageSizeMax).toNat ∧
      CursorAt toolkit secret account (state.seen ++ page.items).length page.nextCursor ∧
      (page.nextCursor = none → page.items = []) := by
  obtain ⟨hitems, hcursor, hnone⟩ := pullEvents_eq_ok h.sound h.cursor hpage
  rw [List.length_append]
  exact ⟨hitems, hcursor, fun hnext ↦ (hnone hnext).1⟩

theorem follows_step (action : Action) (h : Follows toolkit secret account state) :
    Follows toolkit secret account (step platform toolkit secret account state action) := by
  cases action with
  | push action =>
    exact ⟨push_sound state.ledger action h.sound,
      h.seen.trans (push_outbox platform secret state.ledger action), h.cursor⟩
  | pull device pageSize =>
    unfold step
    dsimp only
    split
    · next page hpage =>
      obtain ⟨hitems, hcursor, -⟩ := h.pull hpage
      refine ⟨h.sound, ?_, hcursor⟩
      dsimp only
      rw [← h.append_rest, List.prefix_append_right_inj, hitems]
      exact List.take_prefix _ _
    · exact h

theorem followed_follows (actions : List Action) :
    Follows toolkit secret account (followed platform toolkit secret account actions) :=
  Runs.run_invariant (fun _ action h ↦ follows_step action h) _
    ⟨.empty, List.prefix_rfl, .inl ⟨rfl, rfl⟩⟩ actions

include h in
/-- A page without rows comes when no row is left, and only then. -/
theorem Follows.items_eq_nil {pageSize : Int} {page : Page}
    (hpage : pullEvents toolkit secret account state.ledger device state.cursor pageSize = .ok page) :
    page.items = [] ↔ state.seen = state.ledger.outbox := by
  have hsize : (min (max pageSize 1) pageSizeMax).toNat ≠ 0 := by
    rw [pageSizeMax]
    omega
  rw [(h.pull hpage).1, List.take_eq_nil_iff, or_iff_right hsize, ← h.append_rest]
  constructor
  · intro hrest
    rw [hrest, List.append_nil]
  · intro hseen
    exact List.append_right_eq_self.mp hseen.symm

include h in
/-- Enough pulls give the device the whole outbox. -/
theorem Follows.complete (hfits : state.ledger.outbox.length < 2 ^ 63) (pageSizes : List Int)
    (henough : state.rest.length ≤ pageSizes.length) :
    (Runs.run (step platform toolkit secret account) state
      (pageSizes.map (Action.pull .active))).seen = state.ledger.outbox := by
  induction pageSizes generalizing state with
  | nil =>
    rw [List.length_nil, Nat.le_zero, List.length_eq_zero_iff] at henough
    rw [← h.append_rest, henough, List.append_nil]
    rfl
  | cons pageSize pageSizes ih =>
    obtain ⟨page, hpage⟩ := exists_page h.sound h.cursor hfits pageSize
    have hstep : step platform toolkit secret account state (.pull .active pageSize) =
        { state with cursor := page.nextCursor, seen := state.seen ++ page.items } := by
      rw [step, hpage]
    have hnext : Follows toolkit secret account
        (step platform toolkit secret account state (.pull .active pageSize)) := follows_step _ h
    rw [List.map_cons, Runs.run_cons]
    have hledger : (step platform toolkit secret account state (.pull .active pageSize)).ledger =
        state.ledger := by rw [hstep]
    rw [← hledger]
    refine ih hnext (by rw [hledger]; exact hfits) ?_
    have hrest : (step platform toolkit secret account state (.pull .active pageSize)).rest =
        state.rest.drop page.items.length := by
      rw [hstep, Follower.rest, Follower.rest, List.drop_drop, List.length_append]
    have hitems := congrArg List.length (h.pull hpage).1
    rw [List.length_take, pageSizeMax] at hitems
    rw [hrest, List.length_drop]
    rw [List.length_cons] at henough
    omega

end Following

/-- A cursor decodes to its sequence, for its account and for no other. An altered token is refused
unless it is a cursor of the account with other spare bits in its last character. A device that
follows the cursors is given the rows of the outbox in the order of their sequences and each once; a
page without rows comes when none is left, and enough pulls give it the whole outbox. -/
theorem sync_paging (platform : Platform) (toolkit : Toolkit) (secret : String)
    (account : Account) :
    (∀ sequence token, encode toolkit secret account sequence = .ok token →
      decode toolkit secret token account.id = .ok sequence ∧
        ∀ other, other ≠ account.id → ∃ failure, decode toolkit secret token other = .error failure) ∧
    (∀ token, Unforged toolkit secret token →
      (∀ other sequence, encode toolkit secret other sequence ≠ .ok token) →
      ((∃ failure, decode toolkit secret token account.id = .error failure) ↔
        ¬∃ sequence issued, encode toolkit secret account sequence = .ok issued ∧
          SpareBits issued token)) ∧
    ∀ actions, ∀ state, followed platform toolkit secret account actions = state →
      state.ledger.outbox.map SyncOutbox.sequence = List.range' 1 state.ledger.outbox.length ∧
      state.seen <+: state.ledger.outbox ∧
      (∀ device pageSize page,
        pullEvents toolkit secret account state.ledger device state.cursor pageSize = .ok page →
          (page.items = [] ↔ state.seen = state.ledger.outbox) ∧
          (page.nextCursor = none → state.seen = state.ledger.outbox)) ∧
      (state.ledger.outbox.length < 2 ^ 63 → ∀ pageSizes : List Int,
        state.rest.length ≤ pageSizes.length →
          (Runs.run (step platform toolkit secret account) state
            (pageSizes.map (Action.pull .active))).seen = state.ledger.outbox) := by
  refine ⟨fun sequence token htoken ↦ ⟨?_, fun other hother ↦ ?_⟩, ?_, ?_⟩
  · rw [decode_encode htoken, if_pos rfl]
  · exact ⟨_, by rw [decode_encode htoken, if_neg (Ne.symm hother)]⟩
  · exact fun token hunforged haltered ↦ altered_refused_iff hunforged haltered account
  · rintro actions state rfl
    have hfollows : Follows toolkit secret account
        (followed platform toolkit secret account actions) := followed_follows actions
    refine ⟨hfollows.sound.sequences, hfollows.seen, fun device pageSize page hpage ↦ ?_,
      fun hfits pageSizes henough ↦ hfollows.complete hfits pageSizes henough⟩
    have hitems := hfollows.items_eq_nil hpage
    exact ⟨hitems, fun hnone ↦ hitems.mp ((hfollows.pull hpage).2.2 hnone)⟩

/-! ### A last character that is changed -/

namespace Spare

def secret : String := "secret"

def account : Account where
  id := "account_01ARZ3NDEKTSV4RRFFQ69G5FAV"
  stable := by decide

/-- The HMAC of the domain under the secret. -/
def key : List UInt8 :=
  [182, 146, 64, 198, 168, 80, 116, 188, 30, 152, 192, 214, 130, 166, 78, 129, 180, 170, 200, 219,
    162, 247, 38, 1, 150, 151, 75, 186, 141, 143, 130, 48]

/-- The HMAC of the payload under the key. -/
def tag : List UInt8 :=
  [251, 31, 144, 30, 240, 113, 38, 140, 43, 169, 15, 8, 66, 128, 33, 165, 136, 147, 62, 93, 77, 9,
    48, 126, 69, 145, 226, 151, 247, 92, 27, 101]

def toolkit : Toolkit where
  digest hashed _ := if hashed = key then tag else key
  length_digest hashed message := by split_ifs <;> rfl
  isOne token := token == "1.0"

def front : List Char :=
  "eyJhIjoiYWNjb3VudF8wMUFSWjNOREVLVFNWNFJSRkZRNjlHNUZBViIsInMiOjcsInYiOjF9".toList ++
    "-x-QHvBxJowrqQ8IQoAhpYiTPl1NCTB-RZHil_dcG2".toList

/-- The key, the cursor, the letters of the last character and of its change, and what the changed
cursor is signed over. -/
theorem issued_facts : signingKey toolkit secret = key ∧
    (front ++ ['U'] = payload account 7 ++ Base64.write tag ∧
      isCursor (front ++ ['U']) = true) ∧
    (front ++ ['U'] = front ++ [Base64.letter 20] ∧ front ++ ['V'] = front ++ [Base64.letter 21]) ∧
    signedText (front ++ ['V']) = payload account 7 := by
  decide +kernel

theorem encode_issued : encode toolkit secret account 7 = .ok (front ++ ['U']) := by
  obtain ⟨hkey, ⟨hwritten, hshape⟩, -⟩ := issued_facts
  have htag : signature toolkit secret (payload account 7) = tag := by
    rw [signature, hkey]
    rfl
  exact encode_eq_ok.mpr ⟨by decide, by rw [htag, hwritten], hshape⟩

theorem spare_issued : SpareBits (front ++ ['U']) (front ++ ['V']) := by
  obtain ⟨-, -, ⟨hissued, hchanged⟩, -⟩ := issued_facts
  exact ⟨front, 20, 21, hissued, hchanged, by decide, by decide⟩

/-- A cursor whose last character is changed is not a cursor that was encoded, and is decoded. -/
theorem altered_decoded : Unforged toolkit secret (front ++ ['V']) ∧
    (∀ other sequence, encode toolkit secret other sequence ≠ .ok (front ++ ['V'])) ∧
    decode toolkit secret (front ++ ['V']) account.id = .ok 7 := by
  have hunforged : Unforged toolkit secret (front ++ ['V']) :=
    fun _ ↦ ⟨account, 7, front ++ ['U'], encode_issued, issued_facts.2.2.2⟩
  exact ⟨hunforged, not_encode_of_spareBits encode_issued spare_issued,
    (decode_eq_ok hunforged account).mpr ⟨_, encode_issued, .inr spare_issued⟩⟩

end Spare

end AiStp.Sync.Server.Pull
