import AiStp.Library.Loops
import Mathlib.Data.List.Nodup
import Mathlib.Data.List.Pairwise
import Mathlib.Data.List.TakeWhile

/-!
# Distances along parents

A breadth-first walk from a key along its parents, with a queue of keys and their distances. A key
that comes up again is skipped, so the first distance of a key is kept. `expand` reads the parents of
a key and can fail, and the walk fails when more keys than it has room for come up. A walk that ends
has found exactly the keys that are reached, each with the length of a shortest path
(`mem_walk_iff`).
-/

set_option autoImplicit false

namespace AiStp.Library.Distances

variable {Key : Type} {Error : Type*}

/-- `last` is reached from `first` along so many links. -/
inductive Path (link : Key → Key → Prop) (first : Key) : ℕ → Key → Prop
  | refl : Path link first 0 first
  | step {count : ℕ} {middle last : Key} : Path link first count middle → link middle last →
    Path link first (count + 1) last

/-- The length of a shortest path. -/
def IsDistance (link : Key → Key → Prop) (first last : Key) (distance : ℕ) : Prop :=
  Path link first distance last ∧ ∀ count, Path link first count last → distance ≤ count

theorem IsDistance.unique {link : Key → Key → Prop} {first last : Key} {distance other : ℕ}
    (h : IsDistance link first last distance) (h' : IsDistance link first last other) :
    distance = other :=
  le_antisymm (h.2 other h'.1) (h'.2 distance h.1)

variable [DecidableEq Key] (expand : Key → Except Error (List Key)) (tooLarge : Error)

/-- A key is linked to the parents that are read for it. -/
def Link (child parent : Key) : Prop :=
  ∃ parents, expand child = .ok parents ∧ parent ∈ parents

/-- The queue from its first key on that was not seen. -/
def unseen (seen : List (Key × ℕ)) (pending : List (Key × ℕ)) : List (Key × ℕ) :=
  pending.dropWhile fun entry ↦ entry.1 ∈ seen.map Prod.fst

/-- The walk, with room for so many more keys. -/
def walk : ℕ → List (Key × ℕ) → List (Key × ℕ) → Except Error (List (Key × ℕ))
  | 0, pending, seen => if unseen seen pending = [] then .ok seen else .error tooLarge
  | room + 1, pending, seen =>
    match unseen seen pending with
    | [] => .ok seen
    | (key, distance) :: rest =>
      (expand key).bind fun parents ↦
        walk room (rest ++ parents.map fun parent ↦ (parent, distance + 1))
          ((key, distance) :: seen)

/-- What the walk keeps of its queue and of the keys that it has seen. -/
structure Kept (start : Key) (pending seen : List (Key × ℕ)) : Prop where
  nodup : (seen.map Prod.fst).Nodup
  pending_path : ∀ entry ∈ pending, Path (Link expand) start entry.2 entry.1
  seen_distance : ∀ entry ∈ seen, IsDistance (Link expand) start entry.1 entry.2
  ordered : pending.Pairwise fun left right ↦ left.2 ≤ right.2
  level : ∃ level, ∀ entry ∈ pending, level ≤ entry.2 ∧ entry.2 ≤ level + 1
  started : start ∈ seen.map Prod.fst ∨ (start, 0) ∈ pending
  closed : ∀ entry ∈ seen, ∀ parent, Link expand entry.1 parent →
    parent ∈ seen.map Prod.fst ∨ ∃ distance ≤ entry.2 + 1, (parent, distance) ∈ pending

variable {expand} {start : Key} {pending seen : List (Key × ℕ)}

variable {key : Key}

/-- A path to a key that was not seen leads through the queue. -/
theorem Kept.pending_of_path (h : Kept expand start pending seen) {count : ℕ}
    (hpath : Path (Link expand) start count key) (hunseen : key ∉ seen.map Prod.fst) :
    ∃ entry ∈ pending, entry.2 ≤ count := by
  induction hpath with
  | refl => exact ⟨(start, 0), h.started.resolve_left hunseen, le_rfl⟩
  | @step count middle last hmiddle hlink ih =>
    by_cases hseen : middle ∈ seen.map Prod.fst
    · obtain ⟨⟨key, distance⟩, hentry, rfl⟩ := List.mem_map.mp hseen
      have hdistance := (h.seen_distance _ hentry).2 count hmiddle
      obtain ⟨next, hnext, hmem⟩ := (h.closed _ hentry last hlink).resolve_left hunseen
      exact ⟨_, hmem, by dsimp only at *; omega⟩
    · obtain ⟨entry, hentry, hle⟩ := ih hseen
      exact ⟨entry, hentry, by omega⟩

omit [DecidableEq Key] in
theorem Kept.first (start : Key) : Kept expand start [(start, 0)] [] where
  nodup := .nil
  pending_path := by simpa using Path.refl
  seen_distance := by simp
  ordered := List.pairwise_singleton _ _
  level := ⟨0, by simp⟩
  started := by simp
  closed := by simp

/-- Keys that were seen before leave the queue. -/
theorem Kept.unseen (h : Kept expand start pending seen) :
    Kept expand start (unseen seen pending) seen := by
  have hsub : ∀ entry ∈ Distances.unseen seen pending, entry ∈ pending :=
    fun entry hentry ↦ (List.dropWhile_suffix _).subset hentry
  have hstays : ∀ key distance, (key, distance) ∈ pending → key ∉ seen.map Prod.fst →
      (key, distance) ∈ Distances.unseen seen pending := by
    intro key distance hmem hunseen
    rw [← List.takeWhile_append_dropWhile (p := fun entry ↦ entry.1 ∈ seen.map Prod.fst)
      (l := pending), List.mem_append] at hmem
    refine hmem.resolve_left fun htaken ↦ hunseen ?_
    simpa using List.mem_takeWhile_imp htaken
  refine ⟨h.nodup, fun entry hentry ↦ h.pending_path entry (hsub entry hentry), h.seen_distance,
    h.ordered.sublist (List.dropWhile_suffix _).sublist, ?_, ?_, ?_⟩
  · obtain ⟨level, hlevel⟩ := h.level
    exact ⟨level, fun entry hentry ↦ hlevel entry (hsub entry hentry)⟩
  · by_cases hseen : start ∈ seen.map Prod.fst
    · exact .inl hseen
    · exact .inr (hstays start 0 (h.started.resolve_left hseen) hseen)
  · intro entry hentry parent hlink
    by_cases hseen : parent ∈ seen.map Prod.fst
    · exact .inl hseen
    · obtain ⟨distance, hle, hmem⟩ := (h.closed entry hentry parent hlink).resolve_left hseen
      exact .inr ⟨distance, hle, hstays parent distance hmem hseen⟩

variable {rest : List (Key × ℕ)}

omit [DecidableEq Key] in
/-- A key that was seen before leaves the queue. -/
theorem Kept.skip {distance : ℕ} (h : Kept expand start ((key, distance) :: rest) seen)
    (hseen : key ∈ seen.map Prod.fst) : Kept expand start rest seen := by
  have hstays : ∀ other count, (other, count) ∈ (key, distance) :: rest →
      other ∈ seen.map Prod.fst ∨ (other, count) ∈ rest := by
    intro other count hmem
    rcases List.mem_cons.mp hmem with heq | hmem
    · exact .inl ((Prod.mk.inj heq).1 ▸ hseen)
    · exact .inr hmem
  obtain ⟨level, hlevel⟩ := h.level
  refine ⟨h.nodup, fun entry hentry ↦ h.pending_path entry (List.mem_cons_of_mem _ hentry),
    h.seen_distance, (List.pairwise_cons.mp h.ordered).2,
    ⟨level, fun entry hentry ↦ hlevel entry (List.mem_cons_of_mem _ hentry)⟩, ?_, ?_⟩
  · rcases h.started with hstart | hmem
    · exact .inl hstart
    · exact hstays start 0 hmem
  · intro entry hentry parent hlink
    rcases h.closed entry hentry parent hlink with hparent | ⟨count, hle, hmem⟩
    · exact .inl hparent
    · exact (hstays parent count hmem).imp_right fun hrest ↦ ⟨count, hle, hrest⟩

/-- The first key of the queue is at a shortest distance. -/
theorem Kept.distance {distance : ℕ} (h : Kept expand start ((key, distance) :: rest) seen)
    (hunseen : key ∉ seen.map Prod.fst) : IsDistance (Link expand) start key distance := by
  refine ⟨h.pending_path _ List.mem_cons_self, fun count hcount ↦ ?_⟩
  obtain ⟨entry, hentry, hle⟩ := h.pending_of_path hcount hunseen
  rcases List.mem_cons.mp hentry with rfl | hentry
  · exact hle
  · exact ((List.pairwise_cons.mp h.ordered).1 entry hentry).trans hle

/-- The first key of the queue is seen, at a shortest distance, and its parents join the queue. -/
theorem Kept.step {distance : ℕ} {parents : List Key}
    (h : Kept expand start ((key, distance) :: rest) seen) (hunseen : key ∉ seen.map Prod.fst)
    (hparents : expand key = .ok parents) :
    Kept expand start (rest ++ parents.map fun parent ↦ (parent, distance + 1))
      ((key, distance) :: seen) := by
  have hpath := h.pending_path _ List.mem_cons_self
  obtain ⟨hfirst, hrest⟩ := List.pairwise_cons.mp h.ordered
  obtain ⟨level, hlevel⟩ := h.level
  have hlow := (hlevel _ List.mem_cons_self).1
  have hnear : ∀ entry ∈ rest, distance ≤ entry.2 ∧ entry.2 ≤ distance + 1 := by
    intro entry hentry
    have hhigh := (hlevel entry (List.mem_cons_of_mem _ hentry)).2
    exact ⟨hfirst entry hentry, by dsimp only at hlow; omega⟩
  refine ⟨List.nodup_cons.mpr ⟨hunseen, h.nodup⟩, ?_, ?_, ?_, ⟨distance, ?_⟩, ?_, ?_⟩
  · intro entry hentry
    rcases List.mem_append.mp hentry with hentry | hentry
    · exact h.pending_path entry (List.mem_cons_of_mem _ hentry)
    · obtain ⟨parent, hparent, rfl⟩ := List.mem_map.mp hentry
      exact hpath.step ⟨parents, hparents, hparent⟩
  · intro entry hentry
    rcases List.mem_cons.mp hentry with rfl | hentry
    · exact h.distance hunseen
    · exact h.seen_distance entry hentry
  · refine List.pairwise_append.mpr ⟨hrest, ?_, ?_⟩
    · exact List.pairwise_map.mpr (List.pairwise_of_forall fun _ _ ↦ le_rfl)
    · intro entry hentry other hother
      obtain ⟨parent, -, rfl⟩ := List.mem_map.mp hother
      exact (hnear entry hentry).2
  · intro entry hentry
    rcases List.mem_append.mp hentry with hentry | hentry
    · exact hnear entry hentry
    · obtain ⟨parent, -, rfl⟩ := List.mem_map.mp hentry
      exact ⟨Nat.le_succ _, le_rfl⟩
  · rcases h.started with hseen | hmem
    · exact .inl (List.mem_cons_of_mem _ hseen)
    · rcases List.mem_cons.mp hmem with heq | hmem
      · exact .inl (by rw [List.map_cons, ← heq]; exact List.mem_cons_self)
      · exact .inr (List.mem_append_left _ hmem)
  · intro entry hentry parent hlink
    rcases List.mem_cons.mp hentry with rfl | hentry
    · obtain ⟨read, hread, hparent⟩ := hlink
      obtain rfl : parents = read := Except.ok.inj (hparents.symm.trans hread)
      exact .inr ⟨distance + 1, le_rfl, List.mem_append_right _ (List.mem_map_of_mem hparent)⟩
    · rcases h.closed entry hentry parent hlink with hseen | ⟨next, hle, hmem⟩
      · exact .inl (List.mem_cons_of_mem _ hseen)
      · rcases List.mem_cons.mp hmem with heq | hmem
        · obtain ⟨rfl, -⟩ := Prod.mk.inj heq
          exact .inl List.mem_cons_self
        · exact .inr ⟨next, hle, List.mem_append_left _ hmem⟩

variable {found : List (Key × ℕ)}

/-- A walk that ends leaves an empty queue. -/
theorem Kept.walk {tooLarge : Error} {room : ℕ} (h : Kept expand start pending seen)
    (hwalk : walk expand tooLarge room pending seen = .ok found) : Kept expand start [] found := by
  have hunseen := h.unseen
  induction room generalizing pending seen with
  | zero =>
    rw [Distances.walk] at hwalk
    split_ifs at hwalk with hempty
    obtain rfl := Except.ok.inj hwalk
    rwa [hempty] at hunseen
  | succ room ih =>
    rw [Distances.walk] at hwalk
    split at hwalk
    · next hempty =>
      obtain rfl := Except.ok.inj hwalk
      rwa [hempty] at hunseen
    · next key distance rest hpending =>
      obtain ⟨parents, hparents, hrest⟩ := bind_eq_ok.mp hwalk
      rw [hpending] at hunseen
      have hfirst : key ∉ seen.map Prod.fst := by
        have hhead := List.head?_dropWhile_not (fun entry : Key × ℕ ↦ entry.1 ∈ seen.map Prod.fst)
          pending
        rw [← Distances.unseen, hpending] at hhead
        simpa using hhead
      have hnext := hunseen.step hfirst hparents
      exact ih hnext hrest hnext.unseen

/-- The keys that a walk has found and their distances. -/
theorem mem_walk_iff {tooLarge : Error} {room : ℕ}
    (hwalk : walk expand tooLarge room [(start, 0)] [] = .ok found) {distance : ℕ} :
    (key, distance) ∈ found ↔ IsDistance (Link expand) start key distance := by
  have hkept := (Kept.first start).walk hwalk
  refine ⟨hkept.seen_distance (key, distance), fun h ↦ ?_⟩
  have hseen : key ∈ found.map Prod.fst := by
    by_contra hunseen
    obtain ⟨entry, hentry, -⟩ := hkept.pending_of_path h.1 hunseen
    cases hentry
  obtain ⟨⟨other, count⟩, hentry, rfl⟩ := List.mem_map.mp hseen
  rw [h.unique (hkept.seen_distance _ hentry)]
  exact hentry

theorem lookup_eq_some_iff_mem {Value : Type*} {found : List (Key × Value)}
    (hnodup : (found.map Prod.fst).Nodup) {value : Value} :
    found.lookup key = some value ↔ (key, value) ∈ found := by
  induction found with
  | nil => simp
  | cons entry found ih =>
    obtain ⟨other, held⟩ := entry
    rw [List.map_cons, List.nodup_cons] at hnodup
    rw [List.lookup_cons, List.mem_cons]
    by_cases hkey : key = other
    · subst hkey
      have hfresh : (key, value) ∉ found := fun hmem ↦
        hnodup.1 (List.mem_map.mpr ⟨_, hmem, rfl⟩)
      simp [hfresh, eq_comm]
    · have hne : (key == other) = false := beq_eq_false_iff_ne.mpr hkey
      rw [hne]
      simp [ih hnodup.2, hkey]

/-- Looked up, a key that was found has its distance. -/
theorem lookup_walk {tooLarge : Error} {room : ℕ}
    (hwalk : walk expand tooLarge room [(start, 0)] [] = .ok found) {distance : ℕ} :
    found.lookup key = some distance ↔ IsDistance (Link expand) start key distance := by
  rw [lookup_eq_some_iff_mem ((Kept.first start).walk hwalk).nodup, mem_walk_iff hwalk]

end AiStp.Library.Distances
