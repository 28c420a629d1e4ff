import AiStp.Catalog.Cursor
import AiStp.Library.Keyset
import AiStp.Library.Loops

/-!
# Pages of a search of the catalog

A search lists the rows that its filter selects by the columns of its sort, all of them in one
direction, the last of them the stable id. A page is read by its number, or after the key of a
cursor. Following the cursors gives the numbered pages one after the other, and so every row once
(`keyset_pagination_exact`).
-/

set_option autoImplicit false

namespace AiStp.Catalog.Pagination

open Library Foundation Cursor

/-- A text as the database compares it. -/
@[ext] structure Collated where
  text : String

/-- A row of the search projection, with the microseconds of its time apart. -/
structure Row (Content : Type) where
  stableId : String
  likesCount : Int
  updatedAt : Identity.Moment
  microseconds : Nat
  content : Content
  stable : ∃ kind ∈ ["component", "setup"], Identity.matchesStableId kind stableId = true
  likes : -2 ^ 31 ≤ likesCount ∧ likesCount < 2 ^ 31
  updates : updatedAt.Exists

/-- The rows of the table, whose stable ids differ. -/
structure Projection (Content : Type) where
  rows : List (Row Content)
  unique : (rows.map (·.stableId)).Nodup

/-- What the database answers about a row: the clauses of a filter, and the rank of a text. -/
structure Database (Content : Type) where
  selects : Filter → Row Content → Bool
  relevance : Filter → Row Content → Int
  relevance_bound : ∀ filter row, 0 ≤ relevance filter row ∧ relevance filter row ≤ 1009999

/-- The number of rows of a page. -/
structure PageSize where
  size : Nat
  positive : 0 < size

abbrev Time := ℕ ×ₗ ℕ ×ₗ ℕ ×ₗ ℕ ×ₗ ℕ ×ₗ ℕ ×ₗ ℕ

def timeOf (moment : Identity.Moment) : Time :=
  toLex (moment.year, toLex (moment.month, toLex (moment.day, toLex (moment.hour,
    toLex (moment.minute, toLex (moment.second, moment.millisecond))))))

section Search

variable {Content : Type} [LinearOrder Collated] (database : Database Content)

/-- The columns of a row that a search may sort by; the time has no microseconds. -/
def columns (filter : Filter) (row : Row Content) : CursorKey :=
  ⟨row.updatedAt, row.stableId, row.likesCount, database.relevance filter row⟩

def compareTime (left right : CursorKey) : Ordering :=
  compare (timeOf left.publishedAt) (timeOf right.publishedAt)

def compareId (left right : CursorKey) : Ordering :=
  compare (Collated.mk left.stableId) (Collated.mk right.stableId)

/-- The columns of a sort, compared in order. -/
def comparisons (sort : CatalogSort) (left right : CursorKey) : List Ordering :=
  match sort with
  | .likes => [compare left.likesCount right.likesCount, compareTime left right,
      compareId left right]
  | .updatedAt => [compareTime left right, compareId left right]
  | .relevance => [compare left.relevance right.relevance, compareTime left right,
      compareId left right]

/-- `ORDER BY`: the first column that differs decides. -/
def precedes (descending : Bool) (compared : List Ordering) : Bool :=
  (compared.find? (· ≠ .eq)).all (· == if descending then .gt else .lt)

/-- `_keyset_clause`: a column is beyond the key, and those before it are equal. -/
def beyond (descending : Bool) (compared : List Ordering) : Bool :=
  (List.range compared.length).any fun index ↦
    (compared.take index).all (· == .eq) &&
      compared[index]? == some (if descending then .lt else .gt)

def descending (filter : Filter) : Bool := filter.sortDirection ≠ .asc

def ordered (filter : Filter) (rows : List (Row Content)) : List (Row Content) :=
  rows.insertionSort fun first second ↦ precedes (descending filter)
    (comparisons filter.sort (columns database filter first)
      (columns database filter second)) = true

/-- The rows after a key, and the key of the last of them when there are more. -/
def keysetPage (filter : Filter) (rows : List (Row Content)) (size : Nat)
    (after : Option CursorKey) : List (Row Content) × Option CursorKey :=
  let kept := rows.filter fun row ↦ database.selects filter row &&
    after.all fun key ↦
      beyond (descending filter) (comparisons filter.sort (columns database filter row) key)
  let fetched := (ordered database filter kept).take (size + 1)
  let pageRows := if size < fetched.length then fetched.take size else fetched
  (pageRows,
    if size < fetched.length then pageRows.getLast?.map (columns database filter) else none)

/-- All rows of a search. -/
def listing (filter : Filter) (rows : List (Row Content)) : List (Row Content) :=
  ordered database filter (rows.filter (database.selects filter))

def numberedPage (filter : Filter) (rows : List (Row Content)) (size number : Nat) :
    List (Row Content) :=
  ((listing database filter rows).drop ((number - 1) * size)).take size

variable (toolkit : Toolkit) (secret : String)

/-- A page after a cursor, with the cursor of the next one. -/
def search (filter : Filter) (rows : List (Row Content)) (size : Nat)
    (cursor : Option (List Char)) : Except String (List (Row Content) × Option (List Char)) := do
  let after ← match cursor with
    | none => .ok none
    | some token => (decode toolkit secret token (filterSignature toolkit filter)).map some
  let found := keysetPage database filter rows size after
  match found.2 with
  | none => .ok (found.1, none)
  | some key =>
    let token ← encode toolkit secret (filterSignature toolkit filter) key
    .ok (found.1, some token)

/-- The pages that following the cursors gives, up to a number of them. -/
def follow (filter : Filter) (rows : List (Row Content)) (size : Nat) :
    Nat → Option (List Char) → Except String (List (List (Row Content)))
  | 0, _ => .ok []
  | fuel + 1, cursor => do
    let found ← search database toolkit secret filter rows size cursor
    match found.2 with
    | none => .ok [found.1]
    | some token =>
      let rest ← follow filter rows size fuel (some token)
      .ok (found.1 :: rest)

end Search

/-! ### The order of the rows -/

section Order

variable [LinearOrder Collated]

/-- The columns of a sort as one key; the time and the stable id end every sort. -/
def sortKey (sort : CatalogSort) (key : CursorKey) : ℤ ×ₗ Time ×ₗ Collated :=
  toLex (match sort with
    | .likes => key.likesCount
    | .updatedAt => 0
    | .relevance => key.relevance, toLex (timeOf key.publishedAt, ⟨key.stableId⟩))

omit [LinearOrder Collated] in
theorem precedes_three (descends : Bool) (first second third : Ordering) :
    precedes descends [first, second, third] =
      (first == (if descends then .gt else .lt) || first == .eq &&
        (second == (if descends then .gt else .lt) || second == .eq &&
          (third == (if descends then .gt else .lt) || third == .eq))) := by
  cases descends <;> cases first <;> cases second <;> cases third <;> rfl

omit [LinearOrder Collated] in
theorem beyond_three (descends : Bool) (first second third : Ordering) :
    beyond descends [first, second, third] =
      (first == (if descends then .lt else .gt) || first == .eq &&
        (second == (if descends then .lt else .gt) || second == .eq &&
          third == (if descends then .lt else .gt))) := by
  cases descends <;> cases first <;> cases second <;> cases third <;> rfl

/-- A sort by two columns compares nothing first. -/
theorem comparisons_padded (sort : CatalogSort) (left right : CursorKey) (descends : Bool) :
    ∃ first : Ordering,
      first = compare (ofLex (sortKey sort left)).1 (ofLex (sortKey sort right)).1 ∧
      precedes descends (comparisons sort left right) =
        precedes descends [first, compareTime left right, compareId left right] ∧
      beyond descends (comparisons sort left right) =
        beyond descends [first, compareTime left right, compareId left right] := by
  cases sort with
  | likes => exact ⟨_, rfl, rfl, rfl⟩
  | relevance => exact ⟨_, rfl, rfl, rfl⟩
  | updatedAt =>
    refine ⟨.eq, (compare_eq_iff_eq.mpr rfl).symm, ?_, ?_⟩
    · cases descends <;> cases htime : compareTime left right <;>
        cases hid : compareId left right <;> simp [comparisons, htime, hid, precedes]
    · rw [beyond_three]
      cases descends <;> cases htime : compareTime left right <;>
        cases hid : compareId left right <;> simp [comparisons, htime, hid, beyond, List.range_succ]

omit [LinearOrder Collated] in
theorem compare_eq_iff_eq_symm {Value : Type} [LinearOrder Value] {left right : Value} :
    compare left right = .eq ↔ right = left :=
  compare_eq_iff_eq.trans eq_comm

theorem precedes_asc {sort : CatalogSort} {left right : CursorKey} :
    precedes false (comparisons sort left right) = true ↔
      sortKey sort left ≤ sortKey sort right := by
  obtain ⟨first, hfirst, hprecedes, -⟩ := comparisons_padded sort left right false
  rw [hprecedes, precedes_three, hfirst]
  simp only [Bool.false_eq_true, if_false, Bool.or_eq_true, Bool.and_eq_true, beq_iff_eq,
    compareTime, compareId, compare_lt_iff_lt, compare_eq_iff_eq, sortKey, Prod.Lex.le_iff,
    ofLex_toLex, ← le_iff_lt_or_eq]

theorem beyond_asc {sort : CatalogSort} {left right : CursorKey} :
    beyond false (comparisons sort left right) = true ↔
      sortKey sort right < sortKey sort left := by
  obtain ⟨first, hfirst, -, hbeyond⟩ := comparisons_padded sort left right false
  rw [hbeyond, beyond_three, hfirst]
  simp only [Bool.false_eq_true, if_false, Bool.or_eq_true, Bool.and_eq_true, beq_iff_eq,
    compareTime, compareId, compare_gt_iff_gt, compare_eq_iff_eq_symm, sortKey, Prod.Lex.lt_iff,
    ofLex_toLex]

theorem precedes_desc {sort : CatalogSort} {left right : CursorKey} :
    precedes true (comparisons sort left right) = true ↔
      sortKey sort right ≤ sortKey sort left := by
  obtain ⟨first, hfirst, hprecedes, -⟩ := comparisons_padded sort left right true
  rw [hprecedes, precedes_three, hfirst]
  simp only [if_true, Bool.or_eq_true, Bool.and_eq_true, beq_iff_eq,
    compareTime, compareId, compare_gt_iff_gt, compare_eq_iff_eq_symm, sortKey, Prod.Lex.le_iff,
    ofLex_toLex, ← le_iff_lt_or_eq]

theorem beyond_desc {sort : CatalogSort} {left right : CursorKey} :
    beyond true (comparisons sort left right) = true ↔
      sortKey sort left < sortKey sort right := by
  obtain ⟨first, hfirst, -, hbeyond⟩ := comparisons_padded sort left right true
  rw [hbeyond, beyond_three, hfirst]
  simp only [if_true, Bool.or_eq_true, Bool.and_eq_true, beq_iff_eq,
    compareTime, compareId, compare_lt_iff_lt, compare_eq_iff_eq, sortKey, Prod.Lex.lt_iff,
    ofLex_toLex]

/-- A key that is compared as the search compares its columns. -/
structure Orders {Key : Type} [LinearOrder Key] (filter : Filter) (key : CursorKey → Key) :
    Prop where
  precedes : ∀ left right,
    precedes (descending filter) (comparisons filter.sort left right) = true ↔ key left ≤ key right
  beyond : ∀ left right,
    beyond (descending filter) (comparisons filter.sort left right) = true ↔ key right < key left
  stableId : ∀ left right, key left = key right → left.stableId = right.stableId

omit [LinearOrder Collated] in
theorem stableId_of_sortKey {sort : CatalogSort} {left right : CursorKey}
    (h : sortKey sort left = sortKey sort right) : left.stableId = right.stableId := by
  have hpair := congrArg (fun key ↦ (ofLex (ofLex key).2).2) h
  exact Collated.mk.inj hpair

/-- In each direction the sort has a key. -/
theorem exists_orders (filter : Filter) :
    ∃ (Key : Type) (_ : LinearOrder Key) (key : CursorKey → Key), Orders filter key := by
  by_cases hdescending : descending filter = true
  · refine ⟨(ℤ ×ₗ Time ×ₗ Collated)ᵒᵈ, inferInstance,
      fun key ↦ OrderDual.toDual (sortKey filter.sort key), ?_, ?_, ?_⟩
    · intro left right
      rw [hdescending]
      exact precedes_desc
    · intro left right
      rw [hdescending]
      exact beyond_desc
    · exact fun left right h ↦ stableId_of_sortKey (OrderDual.toDual.injective h)
  · rw [Bool.not_eq_true] at hdescending
    refine ⟨ℤ ×ₗ Time ×ₗ Collated, inferInstance, sortKey filter.sort, ?_, ?_, ?_⟩
    · intro left right
      rw [hdescending]
      exact precedes_asc
    · intro left right
      rw [hdescending]
      exact beyond_asc
    · exact fun left right h ↦ stableId_of_sortKey h

end Order

/-! ### Following the cursors -/

section Follow

variable {Content Key : Type} [LinearOrder Collated] [LinearOrder Key]
  {database : Database Content} {projection : Projection Content} {filter : Filter} {size : Nat}
  {key : CursorKey → Key} {toolkit : Toolkit} {secret : String}

/-- The key of a row. -/
abbrev rowKey (database : Database Content) (filter : Filter) (key : CursorKey → Key)
    (row : Row Content) : Key :=
  key (columns database filter row)

omit [LinearOrder Collated] in
/-- A list is sorted alike by relations that are the same. -/
theorem insertionSort_rel {Item : Type} {first second : Item → Item → Prop} [DecidableRel first]
    [DecidableRel second] (h : first = second) (items : List Item) :
    items.insertionSort first = items.insertionSort second := by
  subst h
  congr

section

variable (h : Orders filter key)
include h

theorem ordered_eq (rows : List (Row Content)) :
    ordered database filter rows =
      Keyset.listed (rowKey database filter key) rows := by
  refine insertionSort_rel ?_ rows
  funext first second
  exact propext (h.precedes _ _)

theorem distinct : Keyset.Distinct (rowKey database filter key) projection.rows := by
  refine List.pairwise_map.mpr ((List.pairwise_map.mp projection.unique).imp ?_)
  exact fun hne hsame ↦ hne (h.stableId _ _ hsame)

/-- The rows that a page is taken from. -/
theorem kept_eq (after : Option CursorKey) :
    ordered database filter (projection.rows.filter fun row ↦ database.selects filter row &&
      after.all fun other ↦ beyond (descending filter)
        (comparisons filter.sort (columns database filter row) other)) =
      Keyset.following (rowKey database filter key) (after.map key)
        (Keyset.listed (rowKey database filter key)
          (projection.rows.filter (database.selects filter))) := by
  have hafter : (fun row ↦ after.all fun other ↦ beyond (descending filter)
      (comparisons filter.sort (columns database filter row) other)) =
      fun row ↦ (after.map key).all (· < key (columns database filter row)) := by
    funext row
    cases after with
    | none => rfl
    | some other =>
      show beyond _ _ = decide _
      rw [Bool.eq_iff_iff, decide_eq_true_eq]
      exact h.beyond _ _
  have hkept : (projection.rows.filter fun row ↦ database.selects filter row &&
      after.all fun other ↦ beyond (descending filter)
        (comparisons filter.sort (columns database filter row) other)) =
      (projection.rows.filter (database.selects filter)).filter
        fun row ↦ (after.map key).all (· < key (columns database filter row)) := by
    rw [List.filter_filter]
    refine List.filter_congr fun row _ ↦ ?_
    rw [Bool.and_comm, congrFun hafter row]
  rw [ordered_eq h, hkept, Keyset.listed_filter ((distinct h).filter _), Keyset.following]

/-- A page of the search is a page of the list. -/
theorem keysetPage_eq (after : Option CursorKey) :
    (keysetPage database filter projection.rows size after).1 =
        (Keyset.page (rowKey database filter key) size
          (Keyset.following (rowKey database filter key) (after.map key)
            (Keyset.listed (rowKey database filter key)
              (projection.rows.filter (database.selects filter))))).1 ∧
      (keysetPage database filter projection.rows size after).2.map key =
        (Keyset.page (rowKey database filter key) size
          (Keyset.following (rowKey database filter key) (after.map key)
            (Keyset.listed (rowKey database filter key)
              (projection.rows.filter (database.selects filter))))).2 := by
  unfold keysetPage
  dsimp only
  rw [kept_eq h]
  generalize Keyset.following (rowKey database filter key) (after.map key) _ = kept
  rw [Keyset.page]
  by_cases hmore : size < kept.length
  · have hfetched : size < (kept.take (size + 1)).length := by
      rw [List.length_take]
      omega
    have hpage : (kept.take (size + 1)).take size = kept.take size := by
      rw [List.take_take, Nat.min_eq_left (Nat.le_succ _)]
    rw [if_pos hfetched, if_pos hfetched, if_pos hmore, hpage, Option.map_map]
    exact ⟨rfl, rfl⟩
  · have hfetched : ¬ size < (kept.take (size + 1)).length := by
      rw [List.length_take]
      omega
    rw [if_neg hfetched, if_neg hfetched, if_neg hmore,
      List.take_of_length_le (show kept.length ≤ size + 1 by omega),
      List.take_of_length_le (show kept.length ≤ size by omega)]
    exact ⟨rfl, rfl⟩

end

omit [LinearOrder Collated] in
theorem storable (row : Row Content) : (columns database filter row).Storable := by
  obtain ⟨hlow, hhigh⟩ := database.relevance_bound filter row
  refine ⟨row.updates, row.stable, row.likes, ?_, ?_⟩
  · show -2 ^ 31 ≤ database.relevance filter row
    omega
  · show database.relevance filter row < 2 ^ 31
    omega

/-- The key that a page leads to is that of a row. -/
theorem storable_of_page {rows : List (Row Content)} {after : Option CursorKey} {next : CursorKey}
    (h : (keysetPage database filter rows size after).2 = some next) : next.Storable := by
  unfold keysetPage at h
  dsimp only at h
  split_ifs at h with hmore
  obtain ⟨row, -, rfl⟩ := Option.map_eq_some_iff.mp h
  exact storable row

/-- What a cursor stands for under a filter: the start of the list, or a key. -/
def StandsFor (toolkit : Toolkit) (secret : String) (filter : Filter) :
    Option (List Char) → Option CursorKey → Prop
  | none, none => True
  | some token, some key => decode toolkit secret token (filterSignature toolkit filter) = .ok key
  | _, _ => False

/-- Following the cursors is following the keys. -/
theorem follow_eq (h : Orders filter key) (fuel : Nat) {cursor : Option (List Char)}
    {after : Option CursorKey} (hcursor : StandsFor toolkit secret filter cursor after) :
    follow database toolkit secret filter projection.rows size fuel cursor =
      .ok (Keyset.follow (rowKey database filter key) size
        (projection.rows.filter (database.selects filter)) fuel (after.map key)) := by
  induction fuel generalizing cursor after with
  | zero => rfl
  | succ fuel ih =>
    obtain ⟨hrows, hnext⟩ : (keysetPage database filter projection.rows size after).1 = _ ∧
        (keysetPage database filter projection.rows size after).2.map key = _ :=
      keysetPage_eq h after
    have hsearch : search database toolkit secret filter projection.rows size cursor =
        (match (keysetPage database filter projection.rows size after).2 with
        | none => .ok ((keysetPage database filter projection.rows size after).1, none)
        | some next => do
          let token ← encode toolkit secret (filterSignature toolkit filter) next
          .ok ((keysetPage database filter projection.rows size after).1, some token)) := by
      cases cursor with
      | none =>
        cases after with
        | none => rfl
        | some other => exact hcursor.elim
      | some token =>
        cases after with
        | none => exact hcursor.elim
        | some other =>
          have hdecode : decode toolkit secret token (filterSignature toolkit filter) = .ok other :=
            hcursor
          rw [search, hdecode]
          rfl
    rw [follow, hsearch, Keyset.follow, ← hrows, ← hnext]
    cases hpage : (keysetPage database filter projection.rows size after).2 with
    | none => rfl
    | some next =>
      have hstorable := storable_of_page hpage
      obtain ⟨token, htoken⟩ := exists_encode toolkit secret (payload toolkit filter) hstorable
      have hstands : StandsFor toolkit secret filter (some token) (some next) := by
        show decode toolkit secret token (filterSignature toolkit filter) = .ok next
        rw [decode_encode htoken hstorable.publishedAt, filterSignature, if_pos rfl]
      have hrest := ih hstands
      change encode toolkit secret (filterSignature toolkit filter) next = .ok token at htoken
      dsimp only
      rw [htoken]
      show (follow database toolkit secret filter projection.rows size fuel (some token) >>= _) = _
      rw [hrest]
      rfl

/-! ### The pages of a search -/

section

variable (h : Orders filter key)
include h

/-- The list of a search is the list by key. -/
theorem listing_eq : listing database filter projection.rows =
    Keyset.listed (rowKey database filter key)
      (projection.rows.filter (database.selects filter)) :=
  ordered_eq h _

theorem follow_pages (hsize : 0 < size) {fuel : Nat} (hfuel : projection.rows.length < fuel) :
    follow database toolkit secret filter projection.rows size fuel none =
      .ok (Keyset.pieces size (listing database filter projection.rows)
        (projection.rows.length + 1)) := by
  have hlength : (listing database filter projection.rows).length ≤ projection.rows.length := by
    rw [listing_eq h, (Keyset.listed_perm _).length_eq]
    exact List.length_filter_le _ _
  have hstart : StandsFor toolkit secret filter none none := trivial
  rw [follow_eq h fuel hstart, Option.map_none,
    Keyset.follow_eq hsize ((distinct h).filter _) fuel, ← listing_eq h,
    Keyset.pieces_enough hsize (by omega) (show _ < projection.rows.length + 1 by omega)]

theorem listing_nodup : (listing database filter projection.rows).Nodup := by
  rw [listing_eq h]
  exact Keyset.listed_nodup ((distinct h).filter _)

theorem mem_listing (row : Row Content) :
    row ∈ listing database filter projection.rows ↔
      row ∈ projection.rows ∧ database.selects filter row = true := by
  rw [listing_eq h, (Keyset.listed_perm _).mem_iff, List.mem_filter]

theorem listing_sorted :
    (listing database filter projection.rows).Pairwise fun first second ↦
      precedes (descending filter) (comparisons filter.sort (columns database filter first)
        (columns database filter second)) = true := by
  rw [listing_eq h]
  refine (Keyset.listed_pairwise ((distinct h).filter _)).imp fun hlt ↦ ?_
  exact (h.precedes _ _).mpr hlt.le

end

/-- The cursor of a row is read as its key where the document of the filter is the same, and is
refused elsewhere, unless two documents have one hash. -/
def Bound (database : Database Content) (toolkit : Toolkit) (secret : String) (filter : Filter)
    (row : Row Content) : Prop :=
  ∃ token, encode toolkit secret (filterSignature toolkit filter) (columns database filter row) =
      .ok token ∧
    ∀ other, (payload toolkit other = payload toolkit filter →
        decode toolkit secret token (filterSignature toolkit other) =
          .ok (columns database filter row)) ∧
      (payload toolkit other ≠ payload toolkit filter →
        decode toolkit secret token (filterSignature toolkit other) =
            .error "cursor filter signature mismatch" ∨
          filterSignature toolkit other = filterSignature toolkit filter)

omit [LinearOrder Collated] [LinearOrder Key] in
theorem cursor_bound (database : Database Content) (toolkit : Toolkit) (secret : String)
    (filter : Filter) (row : Row Content) : Bound database toolkit secret filter row := by
  have hstorable : (columns database filter row).Storable := storable row
  obtain ⟨token, htoken⟩ := exists_encode toolkit secret (payload toolkit filter) hstorable
  refine ⟨token, htoken, fun other ↦ ?_⟩
  rw [decode_encode htoken hstorable.publishedAt]
  constructor
  · intro hsame
    rw [filterSignature, hsame, if_pos rfl]
  · intro _
    by_cases hhash : toolkit.hash (payload toolkit filter) = filterSignature toolkit other
    · exact .inr hhash.symm
    · rw [if_neg hhash]
      exact .inl rfl

end Follow

end AiStp.Catalog.Pagination
