import Mathlib

/-!
# Bounded post-order traversal with an explicit stack

A store holds rows, each naming its parents by key. The traversal starts from a list of keys and
lists the rows above them that are not delivered yet, every row after its own parents. It uses an
explicit stack of two kinds of frame: a key still to be looked up, and a row to be listed once the
frames above it are gone. The loop stops when the stack is empty or when `limit` rows are listed.

`undelivered_eq_some` is the contract: the listed rows are stored and undelivered, no key is listed
twice, every row follows its parents, the starting keys are covered, and only keys reachable from
the starting keys are listed. It needs a rank that goes down from a row to its parents. The stack
never runs out of fuel (`finish_stops`), so a `none` means that the limit was reached.
`undelivered_eq_none_iff` says when that is.
-/

set_option autoImplicit false

namespace AiStp.Library.PostOrder

variable {Row Key : Type*} [DecidableEq Key]

/-- A store of rows with the keys that are already delivered. -/
structure Store (Row Key : Type*) where
  rows : List Row
  key : Row → Key
  parents : Row → List Key
  delivered : List Key

/-- One entry of the stack: a key to look up, or a row whose parents lie above it. -/
inductive Frame (Row Key : Type*) where
  | visit (key : Key)
  | emit (row : Row)

/-- The loop's variables; the head of `stack` is its top. -/
structure Traversal (Row Key : Type*) where
  ordered : List Row
  seen : List Key
  stack : List (Frame Row Key)

namespace Store

variable (store : Store Row Key)

/-- The stored row of a key. -/
def held (key : Key) : Option Row :=
  store.rows.find? fun row ↦ store.key row = key

/-- The parents still to be looked up. A list is pushed item by item, so its last item is on
top. -/
def pending (seen parents : List Key) : List (Frame Row Key) :=
  ((parents.filter fun parent ↦ parent ∉ store.delivered ∧ parent ∉ seen).map Frame.visit).reverse

/-- One round of the loop: pop the top frame and act on it. -/
def step (traversal : Traversal Row Key) : Traversal Row Key :=
  match traversal.stack with
  | [] => traversal
  | .emit row :: stack =>
    { traversal with ordered := traversal.ordered ++ [row], stack := stack }
  | .visit key :: stack =>
    if key ∈ traversal.seen ∨ key ∈ store.delivered then
      { traversal with stack := stack }
    else
      match store.held key with
      | none => { traversal with seen := key :: traversal.seen, stack := stack }
      | some row =>
        { traversal with
          seen := key :: traversal.seen
          stack := store.pending (key :: traversal.seen) (store.parents row) ++
            .emit row :: stack }

/-- The loop itself, for at most `fuel` rounds. -/
def walk (limit : Nat) : Nat → Traversal Row Key → Traversal Row Key
  | 0, traversal => traversal
  | fuel + 1, traversal =>
    if traversal.stack.isEmpty ∨ limit ≤ traversal.ordered.length then traversal
    else walk limit fuel (store.step traversal)

/-- The loop's variables before the first round. -/
def start (roots : List Key) : Traversal Row Key :=
  { ordered := [], seen := [], stack := store.pending [] roots }

/-- Rounds that a set of unseen rows can still cost: one for the row and one for each parent. -/
def cost (seen : List Key) (rows : List Row) : Nat :=
  (rows.map fun row ↦ if store.key row ∈ seen then 0 else 1 + (store.parents row).length).sum

/-- The loop's variables after the last round. -/
def finish (limit : Nat) (roots : List Key) : Traversal Row Key :=
  store.walk limit (roots.length + store.cost [] store.rows) (store.start roots)

/-- The undelivered rows at or above the roots, parents first; nothing when the limit stopped the
loop early. -/
def undelivered (limit : Nat) (roots : List Key) : Option (List Row) :=
  let finished := store.finish limit roots
  if finished.stack.isEmpty then some finished.ordered else none

end Store

/-! ### The fuel is enough -/

variable {row : Row} {key : Key}

section Fuel

variable (store : Store Row Key)

theorem Store.held_eq_some (h : store.held key = some row) :
    row ∈ store.rows ∧ store.key row = key := by
  refine ⟨List.mem_of_find?_eq_some h, ?_⟩
  simpa using List.find?_some h

theorem Store.pending_length_le (seen parents : List Key) :
    (store.pending seen parents).length ≤ parents.length := by
  simpa [Store.pending] using List.length_filter_le _ parents

private theorem cost_row (seen : List Key) (row : Row) (rows : List Row) :
    store.cost seen (row :: rows) =
      (if store.key row ∈ seen then 0 else 1 + (store.parents row).length) +
        store.cost seen rows := rfl

private theorem cost_cons_le (key : Key) (seen : List Key) (rows : List Row) :
    store.cost (key :: seen) rows ≤ store.cost seen rows := by
  induction rows with
  | nil => exact Nat.le_refl _
  | cons row rows ih =>
    rw [cost_row, cost_row]
    by_cases hseen : store.key row ∈ seen
    · simpa only [hseen, List.mem_cons, or_true, if_true, Nat.zero_add] using ih
    · rw [if_neg hseen]
      split_ifs <;> omega

private theorem cost_cons_of_mem {rows : List Row} {seen : List Key} (hrow : row ∈ rows)
    (hunseen : store.key row ∉ seen) :
    store.cost (store.key row :: seen) rows + (1 + (store.parents row).length) ≤
      store.cost seen rows := by
  induction rows with
  | nil => exact absurd hrow List.not_mem_nil
  | cons other rows ih =>
    have htail := cost_cons_le store (store.key row) seen rows
    rw [cost_row, cost_row]
    rcases List.mem_cons.mp hrow with rfl | hrow
    · rw [if_pos List.mem_cons_self, if_neg hunseen]
      omega
    · have hrest := ih hrow
      by_cases hother : store.key other ∈ seen
      · rw [if_pos hother, if_pos (List.mem_cons_of_mem _ hother)]
        omega
      · rw [if_neg hother]
        split_ifs <;> omega

/-- Rounds that a traversal can still take. -/
private def potential (traversal : Traversal Row Key) : Nat :=
  traversal.stack.length + store.cost traversal.seen store.rows

private theorem step_potential (traversal : Traversal Row Key) (hstack : traversal.stack ≠ []) :
    potential store (store.step traversal) + 1 ≤ potential store traversal := by
  obtain ⟨ordered, seen, stack⟩ := traversal
  cases stack with
  | nil => exact absurd rfl hstack
  | cons frame stack =>
    cases frame with
    | emit row => simp only [Store.step, potential, List.length_cons]; omega
    | visit key =>
      by_cases hskip : key ∈ seen ∨ key ∈ store.delivered
      · simp only [Store.step, hskip, if_true, potential, List.length_cons]; omega
      · cases hheld : store.held key with
        | none =>
          have hcost := cost_cons_le store key seen store.rows
          simp only [Store.step, hskip, if_false, hheld, potential, List.length_cons]
          omega
        | some row =>
          obtain ⟨hrow, rfl⟩ := store.held_eq_some hheld
          have hunseen : store.key row ∉ seen := fun hseen ↦ hskip (Or.inl hseen)
          have hcost := cost_cons_of_mem store hrow hunseen
          have hpending :=
            store.pending_length_le (store.key row :: seen) (store.parents row)
          simp only [Store.step, hskip, if_false, hheld, potential, List.length_append,
            List.length_cons]
          omega

private theorem walk_stops (limit fuel : Nat) (traversal : Traversal Row Key)
    (hfuel : potential store traversal ≤ fuel) :
    (store.walk limit fuel traversal).stack = [] ∨
      limit ≤ (store.walk limit fuel traversal).ordered.length := by
  induction fuel generalizing traversal with
  | zero =>
    left
    have hempty : traversal.stack.length = 0 := by
      simp only [potential] at hfuel
      omega
    simpa [Store.walk] using List.length_eq_zero_iff.mp hempty
  | succ fuel ih =>
    rw [Store.walk]
    split_ifs with hdone
    · simpa using hdone
    · have hstack : traversal.stack ≠ [] := by
        intro hempty
        simp [hempty] at hdone
      have hstep := step_potential store traversal hstack
      exact ih (store.step traversal) (by omega)

/-- The loop always ends by its own condition: the stack is empty or the limit is reached. -/
theorem finish_stops (limit : Nat) (roots : List Key) :
    (store.finish limit roots).stack = [] ∨
      limit ≤ (store.finish limit roots).ordered.length := by
  apply walk_stops
  have hpending := store.pending_length_le [] roots
  simp only [potential, Store.start]
  omega

end Fuel

/-! ### What the listed rows are -/

/-- The key a frame stands for. -/
def frameKey (store : Store Row Key) : Frame Row Key → Key
  | .visit key => key
  | .emit row => store.key row

/-- The rows waiting in a stack to be listed. -/
def opened : List (Frame Row Key) → List Row
  | [] => []
  | .visit _ :: stack => opened stack
  | .emit row :: stack => row :: opened stack

/-- A parent key is dealt with by a listing and the frames above its child: it is delivered, not
stored, already listed, or one of the frames. -/
def Settled (store : Store Row Key) (ordered : List Row) (above : List (Frame Row Key))
    (parent : Key) : Prop :=
  parent ∈ store.delivered ∨ store.held parent = none ∨ parent ∈ ordered.map store.key ∨
    parent ∈ above.map (frameKey store)

/-- What the loop keeps true of its variables. `rank` goes down from a row to its parents, so a
frame never shares its key with a row waiting below it (`ranked`). -/
structure Sound (store : Store Row Key) (rank : Key → Nat) (Reached : Key → Prop)
    (roots : List Key) (traversal : Traversal Row Key) : Prop where
  stored : ∀ row ∈ traversal.ordered ++ opened traversal.stack,
    row ∈ store.rows ∧ store.key row ∉ store.delivered ∧ store.key row ∈ traversal.seen
  nodup : ((traversal.ordered ++ opened traversal.stack).map store.key).Nodup
  seen_listed : ∀ key ∈ traversal.seen, store.held key ≠ none →
    key ∈ (traversal.ordered ++ opened traversal.stack).map store.key
  parents_first : ∀ before row after, traversal.ordered = before ++ row :: after →
    ∀ parent ∈ store.parents row, Settled store before [] parent
  parents_above : ∀ above row below, traversal.stack = above ++ .emit row :: below →
    ∀ parent ∈ store.parents row, Settled store traversal.ordered above parent
  roots_settled : ∀ root ∈ roots, Settled store traversal.ordered traversal.stack root
  ranked : traversal.stack.Pairwise fun above below ↦
    ∀ row, below = .emit row → rank (frameKey store above) < rank (store.key row)
  reached : ∀ frame ∈ traversal.stack, Reached (frameKey store frame)
  listed_reached : ∀ row ∈ traversal.ordered, Reached (store.key row)

variable {traversal : Traversal Row Key} {ordered : List Row}

section Soundness

variable {store : Store Row Key} {rank : Key → Nat} {Reached : Key → Prop} {roots : List Key}

omit [DecidableEq Key] in
@[simp] private theorem opened_append (first second : List (Frame Row Key)) :
    opened (first ++ second) = opened first ++ opened second := by
  induction first with
  | nil => rfl
  | cons frame first ih => cases frame <;> simp [opened, ih]

private theorem opened_pending (seen parents : List Key) :
    opened (store.pending seen parents) = [] := by
  have hvisits (keys : List Key) :
      opened (keys.map (Frame.visit : Key → Frame Row Key)) = [] := by
    induction keys with
    | nil => rfl
    | cons key keys ih => simpa [opened] using ih
  rw [Store.pending, ← List.map_reverse]
  exact hvisits _

variable {stack : List (Frame Row Key)}

omit [DecidableEq Key] in
private theorem mem_opened : row ∈ opened stack ↔ Frame.emit row ∈ stack := by
  induction stack with
  | nil => simp [opened]
  | cons frame stack ih => cases frame <;> simp [opened, ih]

private theorem mem_pending {seen parents : List Key} {frame : Frame Row Key} :
    frame ∈ store.pending seen parents ↔
      ∃ parent ∈ parents, parent ∉ store.delivered ∧ parent ∉ seen ∧ frame = .visit parent := by
  simp only [Store.pending, List.mem_reverse, List.mem_map, List.mem_filter, decide_eq_true_eq]
  constructor
  · rintro ⟨parent, ⟨hparent, hdelivered, hseen⟩, rfl⟩
    exact ⟨parent, hparent, hdelivered, hseen, rfl⟩
  · rintro ⟨parent, hparent, hdelivered, hseen, rfl⟩
    exact ⟨parent, ⟨hparent, hdelivered, hseen⟩, rfl⟩

private theorem emit_not_mem_pending {seen parents : List Key} :
    Frame.emit row ∉ store.pending seen parents := by
  intro hmem
  obtain ⟨parent, -, -, -, hframe⟩ := mem_pending.mp hmem
  simp at hframe

variable {above : List (Frame Row Key)}

private theorem settled_mono {ordered' : List Row} {above' : List (Frame Row Key)} {parent : Key}
    (hordered : ∀ row ∈ ordered, row ∈ ordered')
    (habove : ∀ frame ∈ above, Settled store ordered' above' (frameKey store frame))
    (h : Settled store ordered above parent) : Settled store ordered' above' parent := by
  rcases h with hdelivered | hheld | hlisted | hframe
  · exact Or.inl hdelivered
  · exact Or.inr (Or.inl hheld)
  · obtain ⟨row, hrow, rfl⟩ := List.mem_map.mp hlisted
    exact Or.inr (Or.inr (Or.inl (List.mem_map_of_mem (hordered row hrow))))
  · obtain ⟨frame, hmem, rfl⟩ := List.mem_map.mp hframe
    exact habove frame hmem

private theorem settled_of_mem (frame : Frame Row Key) (h : frame ∈ above) :
    Settled store ordered above (frameKey store frame) :=
  Or.inr (Or.inr (Or.inr (List.mem_map_of_mem h)))

/-- Popping the top frame: the rows below keep their parents settled once the new frames and the
new listing settle the popped key. -/
private theorem settled_pop {ordered' : List Row} (top : Frame Row Key)
    (pushed : List (Frame Row Key)) {parent : Key} (hordered : ∀ row ∈ ordered, row ∈ ordered')
    (htop : Settled store ordered' pushed (frameKey store top))
    (h : Settled store ordered (top :: above) parent) :
    Settled store ordered' (pushed ++ above) parent := by
  refine settled_mono hordered ?_ h
  intro frame hframe
  rcases List.mem_cons.mp hframe with rfl | hframe
  · refine settled_mono (fun _ hrow ↦ hrow) ?_ htop
    intro frame hpushed
    exact settled_of_mem _ (List.mem_append_left _ hpushed)
  · exact settled_of_mem _ (List.mem_append_right _ hframe)

/-- The parents of every waiting row stay settled when the top frame is replaced. -/
private theorem parents_above_pop {ordered' : List Row} (top : Frame Row Key)
    (pushed : List (Frame Row Key)) (hordered : ∀ row ∈ ordered, row ∈ ordered')
    (htop : Settled store ordered' pushed (frameKey store top))
    (hpushed : ∀ above row below, pushed = above ++ .emit row :: below →
      ∀ parent ∈ store.parents row, Settled store ordered' above parent)
    (h : ∀ above row below, top :: stack = above ++ .emit row :: below →
      ∀ parent ∈ store.parents row, Settled store ordered above parent)
    (above : List (Frame Row Key)) (row : Row) (below : List (Frame Row Key))
    (hstack : pushed ++ stack = above ++ .emit row :: below) (parent : Key)
    (hparent : parent ∈ store.parents row) : Settled store ordered' above parent := by
  have hbelow (middle : List (Frame Row Key)) (hmiddle : stack = middle ++ .emit row :: below) :
      Settled store ordered' (pushed ++ middle) parent := by
    refine settled_pop top pushed hordered htop (h (top :: middle) row below ?_ parent hparent)
    rw [hmiddle, List.cons_append]
  rcases List.append_eq_append_iff.mp hstack with ⟨middle, rfl, hmiddle⟩ | ⟨middle, hsplit, hrest⟩
  · exact hbelow middle hmiddle
  · cases middle with
    | nil =>
      rw [List.append_nil] at hsplit
      subst hsplit
      simpa using hbelow [] hrest.symm
    | cons frame middle =>
      obtain ⟨rfl, -⟩ : frame = .emit row ∧ below = middle ++ stack := by
        simpa [eq_comm] using hrest
      exact hpushed above row middle hsplit parent hparent

/-- Dropping a visit frame whose key is settled without it. -/
private theorem sound_drop (hstack : traversal.stack = .visit key :: stack)
    (hsettled : Settled store traversal.ordered [] key)
    (hsound : Sound store rank Reached roots traversal) :
    Sound store rank Reached roots { traversal with stack := stack } := by
  have hopened : opened traversal.stack = opened stack := by rw [hstack]; rfl
  refine ⟨?_, ?_, ?_, hsound.parents_first, ?_, ?_, ?_, ?_, hsound.listed_reached⟩
  · simpa only [hopened] using hsound.stored
  · simpa only [hopened] using hsound.nodup
  · simpa only [hopened] using hsound.seen_listed
  · intro above row below hsplit
    refine parents_above_pop (.visit key) [] (fun _ hrow ↦ hrow) hsettled ?_
      (hstack ▸ hsound.parents_above) above row below hsplit
    simp
  · intro root hroot
    exact settled_pop (.visit key) [] (fun _ hrow ↦ hrow) hsettled
      (hstack ▸ hsound.roots_settled root hroot)
  · exact (List.pairwise_cons.mp (hstack ▸ hsound.ranked)).2
  · intro frame hframe
    exact hsound.reached frame (hstack ▸ List.mem_cons_of_mem _ hframe)

/-- Listing the row on top of the stack: the frames above it are gone, so its parents are all
settled by the listing. -/
private theorem sound_emit (hstack : traversal.stack = .emit row :: stack)
    (hsound : Sound store rank Reached roots traversal) :
    Sound store rank Reached roots
      { traversal with ordered := traversal.ordered ++ [row], stack := stack } := by
  have hopened : traversal.ordered ++ opened traversal.stack =
      (traversal.ordered ++ [row]) ++ opened stack := by
    rw [hstack]
    simp [opened]
  have hkept : ∀ listed ∈ traversal.ordered, listed ∈ traversal.ordered ++ [row] :=
    fun _ hlisted ↦ List.mem_append_left _ hlisted
  have hrow : Settled store (traversal.ordered ++ [row]) [] (store.key row) :=
    Or.inr (Or.inr (Or.inl (List.mem_map_of_mem (by simp))))
  refine ⟨?_, ?_, ?_, ?_, ?_, ?_, ?_, ?_, ?_⟩
  · simpa only [hopened] using hsound.stored
  · simpa only [hopened] using hsound.nodup
  · simpa only [hopened] using hsound.seen_listed
  · intro before listed after hsplit
    rcases List.append_eq_append_iff.mp hsplit with ⟨middle, rfl, hmiddle⟩ | ⟨middle, hpre, hrest⟩
    · have hparents := hsound.parents_above [] row stack hstack
      cases middle with
      | nil =>
        obtain ⟨rfl, -⟩ : row = listed ∧ after = [] := by simpa [eq_comm] using hmiddle
        simpa using hparents
      | cons other middle => simp at hmiddle
    · cases middle with
      | nil =>
        obtain ⟨rfl, -⟩ : listed = row ∧ after = [] := by simpa using hrest
        rw [List.append_nil] at hpre
        exact hpre ▸ hsound.parents_above [] listed stack hstack
      | cons other middle =>
        obtain ⟨rfl, -⟩ : listed = other ∧ after = middle ++ [row] := by simpa using hrest
        exact hsound.parents_first before listed middle hpre
  · intro above waiting below hsplit
    refine parents_above_pop (.emit row) [] hkept hrow ?_
      (hstack ▸ hsound.parents_above) above waiting below hsplit
    simp
  · intro root hroot
    exact settled_pop (.emit row) [] hkept hrow (hstack ▸ hsound.roots_settled root hroot)
  · exact (List.pairwise_cons.mp (hstack ▸ hsound.ranked)).2
  · intro frame hframe
    exact hsound.reached frame (hstack ▸ List.mem_cons_of_mem _ hframe)
  · intro listed hlisted
    rcases List.mem_append.mp hlisted with hlisted | hlisted
    · exact hsound.listed_reached listed hlisted
    · obtain rfl : listed = row := by simpa using hlisted
      exact hsound.reached (.emit listed) (hstack ▸ List.mem_cons_self)

/-- Visiting a key that is neither delivered nor stored only marks it as seen. -/
private theorem sound_unstored (hstack : traversal.stack = .visit key :: stack)
    (hheld : store.held key = none) (hsound : Sound store rank Reached roots traversal) :
    Sound store rank Reached roots
      { traversal with seen := key :: traversal.seen, stack := stack } := by
  have hdrop := sound_drop hstack (Or.inr (Or.inl hheld)) hsound
  refine ⟨?_, hdrop.nodup, ?_, hdrop.parents_first, hdrop.parents_above, hdrop.roots_settled,
    hdrop.ranked, hdrop.reached, hdrop.listed_reached⟩
  · intro row hrow
    obtain ⟨hstored, hdelivered, hseen⟩ := hdrop.stored row hrow
    exact ⟨hstored, hdelivered, List.mem_cons_of_mem _ hseen⟩
  · intro other hother hstored
    rcases List.mem_cons.mp hother with rfl | hother
    · exact absurd hheld hstored
    · exact hdrop.seen_listed other hother hstored

/-- A key that was seen before is listed by now: a row waiting below has a higher rank. -/
private theorem seen_settled (hstack : traversal.stack = .visit key :: stack)
    (hseen : key ∈ traversal.seen) (hsound : Sound store rank Reached roots traversal) :
    Settled store traversal.ordered [] key := by
  by_cases hheld : store.held key = none
  · exact Or.inr (Or.inl hheld)
  · obtain ⟨row, hrow, hkey⟩ := List.mem_map.mp (hsound.seen_listed key hseen hheld)
    rcases List.mem_append.mp hrow with hlisted | hopened
    · exact Or.inr (Or.inr (Or.inl (hkey ▸ List.mem_map_of_mem hlisted)))
    · have hbelow : Frame.emit row ∈ stack := by
        rw [hstack] at hopened
        exact mem_opened.mp hopened
      have hranked := hsound.ranked
      rw [hstack] at hranked
      have hlower := (List.pairwise_cons.mp hranked).1 _ hbelow row rfl
      rw [hkey] at hlower
      exact absurd hlower (Nat.lt_irrefl _)

/-- The parents of a freshly opened row are settled by the listing and the frames pushed above
it. A seen parent is listed: a waiting row would have a higher rank. -/
private theorem opened_parents_settled
    (hrank : ∀ row ∈ store.rows, ∀ parent ∈ store.parents row, rank parent < rank (store.key row))
    (hstack : traversal.stack = .visit (store.key row) :: stack) (hrow : row ∈ store.rows)
    (hsound : Sound store rank Reached roots traversal) (parent : Key)
    (hparent : parent ∈ store.parents row) :
    Settled store traversal.ordered
      (store.pending (store.key row :: traversal.seen) (store.parents row)) parent := by
  have hlower := hrank row hrow parent hparent
  by_cases hdelivered : parent ∈ store.delivered
  · exact Or.inl hdelivered
  by_cases hheld : store.held parent = none
  · exact Or.inr (Or.inl hheld)
  by_cases hseen : parent ∈ traversal.seen
  · obtain ⟨other, hother, hkey⟩ := List.mem_map.mp (hsound.seen_listed parent hseen hheld)
    rcases List.mem_append.mp hother with hlisted | hopened
    · exact Or.inr (Or.inr (Or.inl (hkey ▸ List.mem_map_of_mem hlisted)))
    · rw [hstack] at hopened
      have hranked := hsound.ranked
      rw [hstack] at hranked
      have hhigher := (List.pairwise_cons.mp hranked).1 _ (mem_opened.mp hopened) other rfl
      rw [hkey] at hhigher
      exact absurd (Nat.lt_trans hlower hhigher) (Nat.lt_irrefl _)
  · have hnew : parent ∉ store.key row :: traversal.seen := by
      rw [List.mem_cons, not_or]
      exact ⟨fun heq ↦ absurd hlower (heq ▸ Nat.lt_irrefl _), hseen⟩
    exact settled_of_mem (.visit parent)
      (mem_pending.mpr ⟨parent, hparent, hdelivered, hnew, rfl⟩)

/-- Opening a stored row: it waits on the stack below its own pending parents. -/
private theorem sound_open
    (hrank : ∀ row ∈ store.rows, ∀ parent ∈ store.parents row, rank parent < rank (store.key row))
    (hclosed : ∀ row ∈ store.rows, store.key row ∉ store.delivered → Reached (store.key row) →
      ∀ parent ∈ store.parents row, Reached parent)
    (hstack : traversal.stack = .visit (store.key row) :: stack) (hrow : row ∈ store.rows)
    (hunseen : store.key row ∉ traversal.seen) (hundelivered : store.key row ∉ store.delivered)
    (hsound : Sound store rank Reached roots traversal) :
    Sound store rank Reached roots
      { traversal with
        seen := store.key row :: traversal.seen
        stack := store.pending (store.key row :: traversal.seen) (store.parents row) ++
          .emit row :: stack } := by
  set pushed := store.pending (store.key row :: traversal.seen) (store.parents row) with hpushed
  have hparents := opened_parents_settled hrank hstack hrow hsound
  have hlisted : ∀ other ∈ traversal.ordered ++ opened stack,
      other ∈ store.rows ∧ store.key other ∉ store.delivered ∧
        store.key other ∈ traversal.seen := by
    simpa only [hstack, opened] using hsound.stored
  have hopened : opened (pushed ++ .emit row :: stack) = row :: opened stack := by
    rw [hpushed, opened_append, opened_pending]
    rfl
  have hreached : Reached (store.key row) :=
    hsound.reached (.visit (store.key row)) (hstack ▸ List.mem_cons_self)
  have hsplit : pushed ++ .emit row :: stack = (pushed ++ [.emit row]) ++ stack := by simp
  have htop : Settled store traversal.ordered (pushed ++ [.emit row]) (store.key row) :=
    settled_of_mem (.emit row) (by simp)
  refine ⟨?_, ?_, ?_, hsound.parents_first, ?_, ?_, ?_, ?_, hsound.listed_reached⟩
  · intro other hother
    simp only [hopened, List.mem_append, List.mem_cons] at hother
    rcases hother with hother | rfl | hother
    · obtain ⟨hstored, hdelivered, hseen⟩ := hlisted other (List.mem_append_left _ hother)
      exact ⟨hstored, hdelivered, List.mem_cons_of_mem _ hseen⟩
    · exact ⟨hrow, hundelivered, List.mem_cons_self⟩
    · obtain ⟨hstored, hdelivered, hseen⟩ := hlisted other (List.mem_append_right _ hother)
      exact ⟨hstored, hdelivered, List.mem_cons_of_mem _ hseen⟩
  · have hnodup : ((traversal.ordered ++ opened stack).map store.key).Nodup := by
      simpa only [hstack, opened] using hsound.nodup
    simp only [hopened, List.map_append, List.map_cons] at hnodup ⊢
    rw [List.nodup_middle, List.nodup_cons, ← List.map_append]
    refine ⟨?_, by simpa only [List.map_append] using hnodup⟩
    intro hmem
    obtain ⟨other, hother, hkey⟩ := List.mem_map.mp hmem
    exact hunseen (hkey ▸ (hlisted other hother).2.2)
  · intro other hother hstored
    rw [hopened]
    rcases List.mem_cons.mp hother with rfl | hother
    · exact List.mem_map_of_mem (by simp)
    · have hold := hsound.seen_listed other hother hstored
      simp only [hstack, opened, List.map_append, List.mem_append, List.map_cons,
        List.mem_cons] at hold ⊢
      tauto
  · intro above waiting below hstack'
    refine parents_above_pop (.visit (store.key row)) (pushed ++ [.emit row])
      (fun _ hrow ↦ hrow) htop ?_ (hstack ▸ hsound.parents_above) above waiting below
      (hsplit ▸ hstack')
    intro above waiting below hpush
    rcases List.append_eq_append_iff.mp hpush with ⟨middle, rfl, hrest⟩ | ⟨middle, hpre, hrest⟩
    · cases middle with
      | nil =>
        obtain ⟨rfl, -⟩ : waiting = row ∧ below = [] := by simpa [eq_comm] using hrest
        simpa using hparents
      | cons frame middle => simp at hrest
    · cases middle with
      | nil =>
        obtain ⟨rfl, -⟩ : waiting = row ∧ below = [] := by simpa using hrest
        rw [List.append_nil] at hpre
        exact hpre ▸ hparents
      | cons frame middle =>
        obtain ⟨rfl, -⟩ : frame = .emit waiting ∧ below = middle ++ [.emit row] := by
          simpa [eq_comm] using hrest
        have hmem : Frame.emit waiting ∈ pushed := by simp [hpre]
        exact absurd (hpushed ▸ hmem) emit_not_mem_pending
  · intro root hroot
    rw [hsplit]
    exact settled_pop (.visit (store.key row)) (pushed ++ [.emit row]) (fun _ hrow ↦ hrow) htop
      (hstack ▸ hsound.roots_settled root hroot)
  · have hranked := hsound.ranked
    rw [hstack, List.pairwise_cons] at hranked
    obtain ⟨hbelow, hstacked⟩ := hranked
    have hemit : ∀ frame ∈ Frame.emit row :: stack, ∀ waiting, frame = .emit waiting →
        rank (store.key row) ≤ rank (store.key waiting) := by
      intro frame hframe waiting hwaiting
      rcases List.mem_cons.mp hframe with rfl | hframe
      · obtain rfl : row = waiting := by simpa using hwaiting
        exact Nat.le_refl _
      · exact Nat.le_of_lt (hbelow frame hframe waiting hwaiting)
    refine List.pairwise_append.mpr ⟨?_, List.pairwise_cons.mpr ⟨hbelow, hstacked⟩, ?_⟩
    · refine List.pairwise_of_forall_mem_list ?_
      intro first _ second hsecond waiting hwaiting
      exact absurd (hwaiting ▸ hsecond) emit_not_mem_pending
    · intro frame hframe below hwaits waiting hwaiting
      obtain ⟨parent, hparent, -, -, rfl⟩ := mem_pending.mp hframe
      exact Nat.lt_of_lt_of_le (hrank row hrow parent hparent)
        (hemit below hwaits waiting hwaiting)
  · intro frame hframe
    rcases List.mem_append.mp hframe with hframe | hframe
    · obtain ⟨parent, hparent, -, -, rfl⟩ := mem_pending.mp hframe
      exact hclosed row hrow hundelivered hreached parent hparent
    · rcases List.mem_cons.mp hframe with rfl | hframe
      · exact hreached
      · exact hsound.reached frame (hstack ▸ List.mem_cons_of_mem _ hframe)

private theorem sound_step
    (hrank : ∀ row ∈ store.rows, ∀ parent ∈ store.parents row, rank parent < rank (store.key row))
    (hclosed : ∀ row ∈ store.rows, store.key row ∉ store.delivered → Reached (store.key row) →
      ∀ parent ∈ store.parents row, Reached parent)
    (hsound : Sound store rank Reached roots traversal) :
    Sound store rank Reached roots (store.step traversal) := by
  obtain ⟨ordered, seen, stack⟩ := traversal
  cases stack with
  | nil => exact hsound
  | cons frame stack =>
    cases frame with
    | emit row => exact sound_emit rfl hsound
    | visit key =>
      by_cases hseen : key ∈ seen
      · simpa only [Store.step, hseen, true_or, if_true] using
          sound_drop rfl (seen_settled rfl hseen hsound) hsound
      by_cases hdelivered : key ∈ store.delivered
      · simpa only [Store.step, hdelivered, or_true, if_true] using
          sound_drop rfl (Or.inl hdelivered) hsound
      · cases hheld : store.held key with
        | none =>
          simpa only [Store.step, hseen, hdelivered, or_self, if_false, hheld] using
            sound_unstored rfl hheld hsound
        | some row =>
          obtain ⟨hrow, rfl⟩ := store.held_eq_some hheld
          simpa only [Store.step, hseen, hdelivered, or_self, if_false, hheld] using
            sound_open hrank hclosed rfl hrow hseen hdelivered hsound

private theorem sound_start (hroots : ∀ root ∈ roots, Reached root) :
    Sound store rank Reached roots (store.start roots) := by
  have hopened : opened (store.pending [] roots) = [] := opened_pending [] roots
  refine ⟨?_, ?_, ?_, ?_, ?_, ?_, ?_, ?_, ?_⟩
  · simp [Store.start, hopened]
  · simp [Store.start, hopened]
  · simp [Store.start]
  · simp [Store.start]
  · intro above row below hstack
    have hmem : Frame.emit row ∈ store.pending [] roots := by
      change store.pending [] roots = above ++ .emit row :: below at hstack
      simp [hstack]
    exact absurd hmem emit_not_mem_pending
  · intro root hroot
    by_cases hdelivered : root ∈ store.delivered
    · exact Or.inl hdelivered
    · exact settled_of_mem (.visit root)
        (mem_pending.mpr ⟨root, hroot, hdelivered, List.not_mem_nil, rfl⟩)
  · refine List.pairwise_of_forall_mem_list ?_
    intro first _ second hsecond waiting hwaiting
    exact absurd (hwaiting ▸ hsecond) emit_not_mem_pending
  · intro frame hframe
    obtain ⟨parent, hparent, -, -, rfl⟩ := mem_pending.mp hframe
    exact hroots parent hparent
  · simp [Store.start]

private theorem sound_walk {limit fuel : Nat}
    (hrank : ∀ row ∈ store.rows, ∀ parent ∈ store.parents row, rank parent < rank (store.key row))
    (hclosed : ∀ row ∈ store.rows, store.key row ∉ store.delivered → Reached (store.key row) →
      ∀ parent ∈ store.parents row, Reached parent)
    (hsound : Sound store rank Reached roots traversal) :
    Sound store rank Reached roots (store.walk limit fuel traversal) := by
  induction fuel generalizing traversal with
  | zero => exact hsound
  | succ fuel ih =>
    rw [Store.walk]
    split_ifs
    · exact hsound
    · exact ih (sound_step hrank hclosed hsound)

end Soundness

/-- What a complete listing of the undelivered rows above the roots is. -/
structure Listing (store : Store Row Key) (Reached : Key → Prop) (roots : List Key)
    (ordered : List Row) : Prop where
  stored : ∀ row ∈ ordered, row ∈ store.rows ∧ store.key row ∉ store.delivered
  nodup : (ordered.map store.key).Nodup
  parents_first : ∀ before row after, ordered = before ++ row :: after →
    ∀ parent ∈ store.parents row,
      parent ∈ store.delivered ∨ store.held parent = none ∨ parent ∈ before.map store.key
  roots_covered : ∀ root ∈ roots,
    root ∈ store.delivered ∨ store.held root = none ∨ root ∈ ordered.map store.key
  reached : ∀ row ∈ ordered, Reached (store.key row)

/-- A traversal that was not cut off lists every undelivered row it has to list, parents first.
`Reached` is any property of the roots that rows hand on to their parents. -/
theorem undelivered_eq_some {store : Store Row Key} {rank : Key → Nat} {Reached : Key → Prop}
    {roots : List Key} {limit : Nat}
    (hrank : ∀ row ∈ store.rows, ∀ parent ∈ store.parents row, rank parent < rank (store.key row))
    (hroots : ∀ root ∈ roots, Reached root) (hclosed : ∀ row ∈ store.rows, Reached (store.key row) →
      ∀ parent ∈ store.parents row, Reached parent)
    (h : store.undelivered limit roots = some ordered) : Listing store Reached roots ordered := by
  have hsound : Sound store rank Reached roots (store.finish limit roots) :=
    sound_walk hrank (fun row hrow _ ↦ hclosed row hrow) (sound_start hroots)
  simp only [Store.undelivered] at h
  set finished := store.finish limit roots
  split_ifs at h with hempty
  obtain rfl : finished.ordered = ordered := Option.some.inj h
  have hstack : finished.stack = [] := List.isEmpty_iff.mp hempty
  have hopened : finished.ordered ++ opened finished.stack = finished.ordered := by
    rw [hstack]
    exact List.append_nil _
  have hsettled {before : List Row} {parent : Key} (hparent : Settled store before [] parent) :
      parent ∈ store.delivered ∨ store.held parent = none ∨ parent ∈ before.map store.key := by
    simpa [Settled] using hparent
  refine ⟨?_, ?_, ?_, ?_, hsound.listed_reached⟩
  · intro row hrow
    obtain ⟨hstored, hdelivered, -⟩ := hsound.stored row (List.mem_append_left _ hrow)
    exact ⟨hstored, hdelivered⟩
  · simpa only [hopened] using hsound.nodup
  · intro before row after hsplit parent hparent
    exact hsettled (hsound.parents_first before row after hsplit parent hparent)
  · intro root hroot
    exact hsettled (hstack ▸ hsound.roots_settled root hroot)

/-! ### How the limit cuts off

The traversal stops when `limit` rows are listed, whatever is left on the stack. If the rows to be
listed are as many as the limit, what is left can only be the first of the undelivered roots, which
lies at the bottom of the stack: the rows above it are listed by then, and it is still there unless
it was the row that was listed last. -/

section Limit

variable {store : Store Row Key} {rank : Key → Nat} {roots : List Key} {limit : Nat}

/-- The keys above the roots, through stored rows that are not delivered. -/
inductive Reach (store : Store Row Key) (roots : List Key) : Key → Prop
  | root {root : Key} : root ∈ roots → Reach store roots root
  | parent {row : Row} {parent : Key} : row ∈ store.rows → store.key row ∉ store.delivered →
    Reach store roots (store.key row) → parent ∈ store.parents row → Reach store roots parent

open Classical in
/-- The stored and undelivered rows at or above the roots, by their keys. -/
noncomputable def Store.closure (store : Store Row Key) (roots : List Key) : Finset Key :=
  (store.rows.map store.key).toFinset.filter fun key ↦
    Reach store roots key ∧ key ∉ store.delivered

/-- A row is linked to each of its parents. -/
def Link (store : Store Row Key) (parent child : Key) : Prop :=
  ∃ row ∈ store.rows, store.key row = child ∧ parent ∈ store.parents row

omit [DecidableEq Key] in
/-- A rank that goes down to the parents leaves no cycle. -/
theorem acyclic_of_rank
    (hrank : ∀ row ∈ store.rows, ∀ parent ∈ store.parents row, rank parent < rank (store.key row))
    (key : Key) : ¬Relation.TransGen (Link store) key key := by
  have hlower : ∀ {above below : Key}, Relation.TransGen (Link store) above below →
      rank above < rank below := by
    intro above below h
    induction h with
    | single hlink =>
      obtain ⟨row, hrow, rfl, hparent⟩ := hlink
      exact hrank row hrow _ hparent
    | tail _ hlink ih =>
      obtain ⟨row, hrow, rfl, hparent⟩ := hlink
      exact ih.trans (hrank row hrow _ hparent)
  exact fun h ↦ Nat.lt_irrefl _ (hlower h)

/-- Without a cycle the number of keys above a key is such a rank. -/
theorem exists_rank (hacyclic : ∀ key, ¬Relation.TransGen (Link store) key key) :
    ∃ rank : Key → Nat, ∀ row ∈ store.rows, ∀ parent ∈ store.parents row,
      rank parent < rank (store.key row) := by
  classical
  let above (key : Key) : Finset Key :=
    (store.rows.flatMap store.parents).toFinset.filter fun other ↦
      Relation.TransGen (Link store) other key
  refine ⟨fun key ↦ (above key).card, fun row hrow parent hparent ↦ Finset.card_lt_card ?_⟩
  have hlink : Link store parent (store.key row) := ⟨row, hrow, rfl, hparent⟩
  refine Finset.ssubset_iff_subset_ne.mpr ⟨fun other hother ↦ ?_, fun hsame ↦ ?_⟩
  · obtain ⟨hmem, hother⟩ := Finset.mem_filter.mp hother
    exact Finset.mem_filter.mpr ⟨hmem, hother.tail hlink⟩
  · have hmem : parent ∈ above (store.key row) :=
      Finset.mem_filter.mpr ⟨List.mem_toFinset.mpr (List.mem_flatMap.mpr ⟨row, hrow, hparent⟩),
        .single hlink⟩
    rw [← hsame] at hmem
    exact hacyclic parent (Finset.mem_filter.mp hmem).2

/-- The first undelivered root is not stored, or the others lead to it too. -/
def FirstOverlapped (store : Store Row Key) (roots : List Key) : Prop :=
  ∃ first rest, roots.filter (· ∉ store.delivered) = first :: rest ∧
    (store.held first = none ∨ Reach store rest first)

theorem mem_closure : key ∈ store.closure roots ↔
    key ∈ store.rows.map store.key ∧ Reach store roots key ∧ key ∉ store.delivered := by
  simp [Store.closure]

private theorem step_length_le (traversal : Traversal Row Key)
    (h : traversal.ordered.length < limit) : (store.step traversal).ordered.length ≤ limit := by
  obtain ⟨ordered, seen, stack⟩ := traversal
  dsimp only at h
  cases stack with
  | nil => exact Nat.le_of_lt h
  | cons frame stack =>
    cases frame with
    | emit row =>
      rw [Store.step, List.length_append, List.length_singleton]
      exact h
    | visit key =>
      simp only [Store.step]
      split_ifs
      · exact Nat.le_of_lt h
      · split <;> exact Nat.le_of_lt h

/-- The walk keeps what its rounds keep; a round starts with a frame and below the limit. -/
private theorem walk_invariant {P : Traversal Row Key → Prop}
    (hstep : ∀ traversal, traversal.stack ≠ [] → traversal.ordered.length < limit →
      P traversal → P (store.step traversal)) (fuel : Nat) (traversal : Traversal Row Key)
    (h : P traversal) : P (store.walk limit fuel traversal) := by
  induction fuel generalizing traversal with
  | zero => exact h
  | succ fuel ih =>
    rw [Store.walk]
    split_ifs with hdone
    · exact h
    · rw [not_or] at hdone
      refine ih _ (hstep traversal ?_ (by omega) h)
      intro hempty
      exact hdone.1 (by simp [hempty])

variable (store) in
/-- The frames below the top one do not matter to a round. -/
private theorem step_append (traversal : Traversal Row Key) (bottom : List (Frame Row Key))
    (h : traversal.stack ≠ []) :
    store.step { traversal with stack := traversal.stack ++ bottom } =
      { store.step traversal with stack := (store.step traversal).stack ++ bottom } := by
  obtain ⟨ordered, seen, stack⟩ := traversal
  cases stack with
  | nil => exact absurd rfl h
  | cons frame stack =>
    cases frame with
    | emit row => rfl
    | visit key =>
      simp only [List.cons_append, Store.step]
      split_ifs
      · rfl
      · split <;> simp

/-- What the traversal has done with the undelivered roots: it is still above the first of them and
traverses the rows above the others; or it opened the first as a row that the others do not lead to;
or it ended there, below the limit. -/
private inductive Phase (store : Store Row Key) (rank : Key → Nat) (limit : Nat) (first : Key)
    (rest : List Key) : Traversal Row Key → Prop
  | above {ordered : List Row} {seen : List Key} {upper : List (Frame Row Key)} :
    Sound store rank (Reach store rest) rest ⟨ordered, seen, upper⟩ →
    Phase store rank limit first rest ⟨ordered, seen, upper ++ [.visit first]⟩
  | opened {ordered : List Row} {seen : List Key} {upper : List (Frame Row Key)} {row : Row} :
    ¬Reach store rest first → store.held first ≠ none →
    Phase store rank limit first rest ⟨ordered, seen, upper ++ [.emit row]⟩
  | listed {ordered : List Row} {seen : List Key} :
    ¬Reach store rest first → store.held first ≠ none →
    Phase store rank limit first rest ⟨ordered, seen, []⟩
  | skipped {ordered : List Row} {seen : List Key} : ordered.length < limit →
    Phase store rank limit first rest ⟨ordered, seen, []⟩

omit [DecidableEq Key] in
private theorem reach_closed (roots : List Key) : ∀ row ∈ store.rows,
    store.key row ∉ store.delivered → Reach store roots (store.key row) →
      ∀ parent ∈ store.parents row, Reach store roots parent :=
  fun _ hrow hdelivered hreach _ hparent ↦ .parent hrow hdelivered hreach hparent

private theorem phase_start {first : Key} {rest : List Key}
    (hroots : roots.filter (· ∉ store.delivered) = first :: rest) :
    Phase store rank limit first rest (store.start roots) := by
  have hrest : ∀ root ∈ rest, root ∉ store.delivered := by
    intro root hroot
    have hmem : root ∈ roots.filter (· ∉ store.delivered) :=
      hroots ▸ List.mem_cons_of_mem first hroot
    simpa using (List.mem_filter.mp hmem).2
  have hpending : store.pending [] roots = store.pending [] rest ++ [.visit first] := by
    have hkept : rest.filter (· ∉ store.delivered) = rest :=
      List.filter_eq_self.mpr fun root hroot ↦ by simpa using hrest root hroot
    simp only [Store.pending, List.not_mem_nil, not_false_eq_true, and_true]
    rw [hroots, hkept, List.map_cons, List.reverse_cons]
  have hstart : store.start roots = ⟨[], [], store.pending [] rest ++ [.visit first]⟩ := by
    rw [Store.start, hpending]
  rw [hstart]
  exact .above (sound_start fun root hroot ↦ .root hroot)

/-- The listed rows are some of those that are to be listed. -/
private theorem listed_subset (hsound : Sound store rank (Reach store roots) roots traversal) :
    (traversal.ordered.map store.key).toFinset ⊆ store.closure roots := by
  intro key hkey
  obtain ⟨row, hrow, rfl⟩ := List.mem_map.mp (List.mem_toFinset.mp hkey)
  obtain ⟨hstored, hdelivered, -⟩ := hsound.stored row (List.mem_append_left _ hrow)
  exact mem_closure.mpr ⟨List.mem_map_of_mem hstored, hsound.listed_reached row hrow, hdelivered⟩

private theorem card_listed (hsound : Sound store rank (Reach store roots) roots traversal) :
    (traversal.ordered.map store.key).toFinset.card = traversal.ordered.length := by
  have hnodup := hsound.nodup
  rw [List.map_append] at hnodup
  rw [List.toFinset_card_of_nodup hnodup.of_append_left, List.length_map]

section Counted

variable (hunique : (store.rows.map store.key).Nodup)
  (hrank : ∀ row ∈ store.rows, ∀ parent ∈ store.parents row, rank parent < rank (store.key row))

include hunique

theorem held_key (hrow : row ∈ store.rows) : store.held (store.key row) = some row := by
  cases hheld : store.held (store.key row) with
  | none =>
    rw [Store.held, List.find?_eq_none] at hheld
    exact absurd (hheld row hrow) (by simp)
  | some other =>
    obtain ⟨hother, hkey⟩ := store.held_eq_some hheld
    rw [List.inj_on_of_nodup_map hunique hother hrow hkey]

/-- With an empty stack every row to be listed is listed. -/
private theorem listed_of_reach {Reached : Key → Prop}
    (hsound : Sound store rank Reached roots traversal) (hstack : traversal.stack = [])
    (h : Reach store roots key) :
    key ∈ store.delivered ∨ store.held key = none ∨ key ∈ traversal.ordered.map store.key := by
  induction h with
  | root hroot => simpa [Settled, hstack] using hsound.roots_settled _ hroot
  | @parent row parent hrow hdelivered _ hparent ih =>
    rcases ih with hdelivered' | hheld | hlisted
    · exact absurd hdelivered' hdelivered
    · rw [held_key hunique hrow] at hheld
      cases hheld
    · obtain ⟨other, hother, hkey⟩ := List.mem_map.mp hlisted
      have hstored := (hsound.stored other (List.mem_append_left _ hother)).1
      obtain rfl := List.inj_on_of_nodup_map hunique hstored hrow hkey
      obtain ⟨before, after, hsplit⟩ := List.append_of_mem hother
      rcases hsound.parents_first before other after hsplit parent hparent with
        hdelivered' | hheld | hbefore | habove
      · exact .inl hdelivered'
      · exact .inr (.inl hheld)
      · refine .inr (.inr ?_)
        rw [hsplit, List.map_append]
        exact List.mem_append_left _ hbefore
      · cases habove

include hrank

private theorem phase_step {first : Key} {rest : List Key} (hfirst : first ∉ store.delivered)
    (traversal : Traversal Row Key) (hstack : traversal.stack ≠ [])
    (hlimit : traversal.ordered.length < limit) (h : Phase store rank limit first rest traversal) :
    Phase store rank limit first rest (store.step traversal) := by
  cases h with
  | @above ordered seen upper hsound =>
    by_cases hupper : upper = []
    · subst hupper
      by_cases hseen : first ∈ seen
      · have hstep : store.step ⟨ordered, seen, [] ++ [.visit first]⟩ = ⟨ordered, seen, []⟩ := by
          simp [Store.step, hseen]
        rw [hstep]
        exact .skipped hlimit
      · cases hheld : store.held first with
        | none =>
          have hstep : store.step ⟨ordered, seen, [] ++ [.visit first]⟩ =
              ⟨ordered, first :: seen, []⟩ := by
            simp [Store.step, hseen, hfirst, hheld]
          rw [hstep]
          exact .skipped hlimit
        | some row =>
          have hstep : store.step ⟨ordered, seen, [] ++ [.visit first]⟩ =
              ⟨ordered, first :: seen,
                store.pending (first :: seen) (store.parents row) ++ [.emit row]⟩ := by
            simp [Store.step, hseen, hfirst, hheld]
          rw [hstep]
          refine .opened (fun hreach ↦ ?_) (by simp [hheld])
          rcases listed_of_reach hunique hsound rfl hreach with hdelivered | hnone | hlisted
          · exact hfirst hdelivered
          · rw [hheld] at hnone
            cases hnone
          · obtain ⟨other, hother, rfl⟩ := List.mem_map.mp hlisted
            exact hseen (hsound.stored other (List.mem_append_left _ hother)).2.2
    · have hstep := step_append store ⟨ordered, seen, upper⟩ [.visit first] hupper
      dsimp only at hstep
      rw [hstep]
      exact .above (sound_step hrank (reach_closed rest) hsound)
  | @opened ordered seen upper row hreach hheld =>
    by_cases hupper : upper = []
    · subst hupper
      exact .listed hreach hheld
    · have hstep := step_append store ⟨ordered, seen, upper⟩ [.emit row] hupper
      dsimp only at hstep
      rw [hstep]
      exact .opened hreach hheld
  | listed => exact absurd rfl hstack
  | skipped => exact absurd rfl hstack

omit hunique in
/-- What is known of the traversal when it stops. -/
private theorem sound_finish (limit : Nat) (roots : List Key) :
    Sound store rank (Reach store roots) roots (store.finish limit roots) ∧
      (store.finish limit roots).ordered.length ≤ limit :=
  ⟨sound_walk hrank (reach_closed roots) (sound_start fun _ hroot ↦ .root hroot),
    walk_invariant (P := fun traversal ↦ traversal.ordered.length ≤ limit)
      (fun traversal _ hlimit _ ↦ step_length_le traversal hlimit) _ _ (Nat.zero_le limit)⟩

omit hrank in
/-- With an empty stack they are all of them. -/
private theorem listed_eq (hsound : Sound store rank (Reach store roots) roots traversal)
    (hstack : traversal.stack = []) :
    (traversal.ordered.map store.key).toFinset = store.closure roots := by
  refine (listed_subset hsound).antisymm fun key hkey ↦ ?_
  obtain ⟨hstored, hreach, hdelivered⟩ := mem_closure.mp hkey
  obtain ⟨row, hrow, rfl⟩ := List.mem_map.mp hstored
  rcases listed_of_reach hunique hsound hstack hreach with hdelivered' | hheld | hlisted
  · exact absurd hdelivered' hdelivered
  · rw [held_key hunique hrow] at hheld
    cases hheld
  · exact List.mem_toFinset.mpr hlisted

/-- Exactly the rows to be listed are listed. -/
theorem undelivered_closure (h : store.undelivered limit roots = some ordered) :
    (ordered.map store.key).toFinset = store.closure roots := by
  simp only [Store.undelivered] at h
  split_ifs at h with hempty
  obtain rfl := Option.some.inj h
  exact listed_eq hunique (sound_finish hrank limit roots).1
    (List.isEmpty_iff.mp hempty)

/-- The traversal is cut off if there are more rows to be listed than the limit allows; and also if
there are as many, and the first of the undelivered roots is not the row that is listed last. -/
theorem undelivered_eq_none_iff :
    store.undelivered limit roots = none ↔
      limit < (store.closure roots).card ∨
        limit = (store.closure roots).card ∧ FirstOverlapped store roots := by
  obtain ⟨hsound, hlength⟩ := sound_finish hrank limit roots
  have hstops := finish_stops store limit roots
  have hnone : store.undelivered limit roots = none ↔ (store.finish limit roots).stack ≠ [] := by
    simp [Store.undelivered]
  rw [hnone]
  have hphase : ∀ {first : Key} {rest : List Key},
      roots.filter (· ∉ store.delivered) = first :: rest →
      Phase store rank limit first rest (store.finish limit roots) := by
    intro first rest hroots
    have hfirst : first ∉ store.delivered := by
      have hmem : first ∈ roots.filter (· ∉ store.delivered) := hroots ▸ List.mem_cons_self
      simpa using (List.mem_filter.mp hmem).2
    exact walk_invariant (phase_step hunique hrank hfirst) _ _ (phase_start hroots)
  have hempty : roots.filter (· ∉ store.delivered) = [] →
      (store.finish limit roots).stack = [] := by
    intro hroots
    refine walk_invariant (P := fun traversal ↦ traversal.stack = [])
      (fun traversal hne _ h ↦ absurd h hne) _ _ ?_
    simp only [Store.start, Store.pending, List.not_mem_nil, not_false_eq_true, and_true]
    rw [hroots]
    rfl
  have hcard := card_listed hsound
  have hsubset := listed_subset hsound
  generalize store.finish limit roots = finished at *
  constructor
  · intro hstack
    have hlimit : finished.ordered.length = limit :=
      le_antisymm hlength (hstops.resolve_left hstack)
    by_cases hmore : limit < (store.closure roots).card
    · exact .inl hmore
    · have hall : (finished.ordered.map store.key).toFinset = store.closure roots :=
        Finset.eq_of_subset_of_card_le hsubset (by omega)
      refine .inr ⟨by rw [← hall]; omega, ?_⟩
      cases hroots : roots.filter (· ∉ store.delivered) with
      | nil => exact absurd (hempty hroots) hstack
      | cons first rest =>
        refine ⟨first, rest, hroots, ?_⟩
        have hfirst : first ∈ roots.filter (· ∉ store.delivered) := hroots ▸ List.mem_cons_self
        obtain ⟨hroot, hdelivered⟩ := List.mem_filter.mp hfirst
        cases hphase hroots with
        | @above ordered seen upper hupper =>
          cases hheld : store.held first with
          | none => exact .inl rfl
          | some row =>
            obtain ⟨hrow, hkey⟩ := store.held_eq_some hheld
            have hmem : first ∈ store.closure roots :=
              mem_closure.mpr ⟨hkey ▸ List.mem_map_of_mem hrow, .root hroot, by simpa using hdelivered⟩
            rw [← hall, List.mem_toFinset] at hmem
            obtain ⟨other, hother, rfl⟩ := List.mem_map.mp hmem
            exact .inr (hupper.listed_reached other hother)
        | @opened ordered seen upper row hreach hheld =>
          -- the row at the bottom is still to be listed
          have hopened : row ∈ opened (upper ++ [.emit row]) := mem_opened.mpr (by simp)
          obtain ⟨hrow, hrow', -⟩ := hsound.stored row (List.mem_append_right _ hopened)
          have hmem : store.key row ∈ store.closure roots :=
            mem_closure.mpr ⟨List.mem_map_of_mem hrow, hsound.reached (.emit row) (by simp), hrow'⟩
          rw [← hall, List.mem_toFinset] at hmem
          have hnodup := hsound.nodup
          rw [List.map_append] at hnodup
          exact absurd (List.mem_map_of_mem hopened) (List.disjoint_of_nodup_append hnodup hmem)
        | listed => exact absurd rfl hstack
        | skipped => exact absurd rfl hstack
  · rintro (hmore | ⟨hsame, first, rest, hroots, hoverlap⟩) hstack
    · rw [← listed_eq hunique hsound hstack] at hmore
      omega
    · rw [← listed_eq hunique hsound hstack] at hsame
      cases hphase hroots with
      | above => simp at hstack
      | opened => simp at hstack
      | listed hreach hheld => exact hoverlap.elim hheld hreach
      | skipped hshort =>
        dsimp only at hcard hsame
        omega

end Counted

end Limit

end AiStp.Library.PostOrder
