import Mathlib.Data.List.Sort
import Mathlib.Tactic

/-!
# Priority levels

Queues of items which are read level by level, from the best level to the worst.  The
items then form one list in which a better item stands before a worse one, and among
equally good items the earlier one stands first.  Appending to one queue is stable
insertion into this list, and taking the first item of the best queue is taking its head.
-/

namespace PriorityLevels

variable {ι α κ : Type*}

/-- The items of the levels, read in the given order. -/
def inOrder (levels : List ι) (queues : ι → List α) : List α := levels.flatMap queues

/-- The levels stand from the best to the worst, and each queue holds items of its level. -/
structure Ranked (beats : κ → κ → Prop) (rank : ι → κ) (key : α → κ) (levels : List ι)
    (queues : ι → List α) : Prop where
  sorted : levels.Pairwise fun i j => beats (rank i) (rank j)
  keyed : ∀ i, ∀ item ∈ queues i, key item = rank i

variable {beats : κ → κ → Prop} {rank : ι → κ} {key : α → κ} {levels : List ι}
  {queues queues' : ι → List α} {i : ι} {item : α}

theorem inOrder_congr (hsame : ∀ j ∈ levels, queues' j = queues j) :
    inOrder levels queues' = inOrder levels queues :=
  List.flatMap_congr hsame

/-- The levels before one level and those behind it. -/
theorem Ranked.split [Std.Asymm beats] (hranked : Ranked beats rank key levels queues)
    (hlevel : i ∈ levels) :
    ∃ before after, levels = before ++ i :: after ∧
      (∀ j ∈ before, beats (rank j) (rank i)) ∧ (∀ j ∈ after, beats (rank i) (rank j)) ∧
      i ∉ before ∧ i ∉ after := by
  rcases List.append_of_mem hlevel with ⟨before, after, hsplit⟩
  have hsorted := hranked.sorted
  rw [hsplit, List.pairwise_append, List.pairwise_cons] at hsorted
  rcases hsorted with ⟨_, ⟨hafter, _⟩, hbefore⟩
  have hirrefl : ¬ beats (rank i) (rank i) := fun hself => Std.Asymm.asymm _ _ hself hself
  refine ⟨before, after, hsplit, ?_, hafter, ?_, ?_⟩
  · intro j hj
    exact hbefore j hj i (by simp)
  · intro hmem
    exact hirrefl (hbefore i hmem i (by simp))
  · intro hmem
    exact hirrefl (hafter i hmem)

/-- One queue is changed. -/
theorem inOrder_of_split {before after : List ι} (hsplit : levels = before ++ i :: after)
    (hbefore : i ∉ before) (hafter : i ∉ after) (hsame : ∀ j, j ≠ i → queues' j = queues j) :
    inOrder levels queues' = inOrder before queues ++ queues' i ++ inOrder after queues := by
  have hrest : ∀ part, i ∉ part → inOrder part queues' = inOrder part queues := by
    intro part hpart
    apply inOrder_congr
    intro j hj
    apply hsame
    rintro rfl
    exact hpart hj
  rw [← hrest before hbefore, ← hrest after hafter, hsplit]
  simp [inOrder]

/-- Insertion behind the items it does not beat and before the items it beats. -/
theorem orderedInsert_between {r : α → α → Prop} [DecidableRel r] {first last : List α}
    (hfirst : ∀ other ∈ first, ¬ r item other) (hlast : ∀ other ∈ last, r item other) :
    (first ++ last).orderedInsert r item = first ++ item :: last := by
  induction first with
  | nil =>
      cases last with
      | nil => rfl
      | cons other last =>
          have hbeats := hlast other (by simp)
          simp [hbeats]
  | cons other first ih =>
      have hother := hfirst other (by simp)
      rw [List.cons_append, List.orderedInsert_of_not_le _ _ hother, List.cons_append,
        ih (fun kept hkept => hfirst kept (by simp [hkept]))]

section Keys

variable [DecidableRel beats] [Std.Asymm beats]

/-- Appending to the queue of a level is stable insertion into the list. -/
theorem Ranked.enqueue (hranked : Ranked beats rank key levels queues) (hlevel : i ∈ levels)
    (hkey : key item = rank i) (hqueue : queues' i = queues i ++ [item])
    (hsame : ∀ j, j ≠ i → queues' j = queues j) :
    inOrder levels queues' =
      (inOrder levels queues).orderedInsert (fun a b => beats (key a) (key b)) item := by
  rcases hranked.split hlevel with ⟨before, after, hsplit, hbetter, hworse, hbefore, hafter⟩
  have hirrefl : ¬ beats (rank i) (rank i) := fun hself => Std.Asymm.asymm _ _ hself hself
  have hfirst : ∀ other ∈ inOrder before queues ++ queues i, ¬ beats (key item) (key other) := by
    intro other hother hbeats
    rw [hkey] at hbeats
    rcases List.mem_append.mp hother with hmem | hmem
    · rcases List.mem_flatMap.mp hmem with ⟨j, hj, hqueued⟩
      rw [hranked.keyed j other hqueued] at hbeats
      exact Std.Asymm.asymm _ _ hbeats (hbetter j hj)
    · rw [hranked.keyed i other hmem] at hbeats
      exact hirrefl hbeats
  have hlast : ∀ other ∈ inOrder after queues, beats (key item) (key other) := by
    intro other hother
    rcases List.mem_flatMap.mp hother with ⟨j, hj, hqueued⟩
    rw [hkey, hranked.keyed j other hqueued]
    exact hworse j hj
  rw [inOrder_of_split hsplit hbefore hafter hsame, hqueue,
    inOrder_of_split hsplit hbefore hafter (fun _ _ => rfl), orderedInsert_between hfirst hlast]
  simp

omit [DecidableRel beats] in
/-- The first item of the best queue is the head of the list. -/
theorem Ranked.dequeue {rest : List α} (hranked : Ranked beats rank key levels queues)
    (hlevel : i ∈ levels) (hqueue : queues i = item :: rest)
    (hbest : ∀ j, beats (rank j) (rank i) → queues j = []) (hqueue' : queues' i = rest)
    (hsame : ∀ j, j ≠ i → queues' j = queues j) :
    inOrder levels queues = item :: inOrder levels queues' := by
  rcases hranked.split hlevel with ⟨before, after, hsplit, hbetter, _, hbefore, hafter⟩
  have hempty : inOrder before queues = [] := by
    apply List.flatMap_eq_nil_iff.mpr
    intro j hj
    exact hbest j (hbetter j hj)
  rw [inOrder_of_split hsplit hbefore hafter (fun _ _ => rfl),
    inOrder_of_split hsplit hbefore hafter hsame, hempty, hqueue, hqueue']
  rfl

omit [DecidableRel beats] in
/-- No item stands before a better one. -/
theorem Ranked.pairwise_inOrder (hranked : Ranked beats rank key levels queues) :
    (inOrder levels queues).Pairwise fun a b => ¬ beats (key b) (key a) := by
  have hirrefl : ∀ k, ¬ beats k k := fun k hself => Std.Asymm.asymm _ _ hself hself
  rw [inOrder, List.pairwise_flatMap]
  constructor
  · intro j _
    apply List.pairwise_of_forall_mem_list
    intro a ha b hb
    rw [hranked.keyed j a ha, hranked.keyed j b hb]
    exact hirrefl _
  · apply hranked.sorted.imp
    intro j k hbeats a ha b hb
    rw [hranked.keyed j a ha, hranked.keyed k b hb]
    exact Std.Asymm.asymm _ _ hbeats

omit [DecidableRel beats] in
/-- The items of one rank are those of its level. -/
theorem Ranked.filter_key [DecidableEq κ] (hranked : Ranked beats rank key levels queues)
    (hlevel : i ∈ levels) :
    (inOrder levels queues).filter (fun item => key item = rank i) = queues i := by
  rcases hranked.split hlevel with ⟨before, after, hsplit, hbetter, hworse, hbefore, hafter⟩
  have hirrefl : ∀ k, ¬ beats k k := fun k hself => Std.Asymm.asymm _ _ hself hself
  have hnone : ∀ part, (∀ j ∈ part, rank j ≠ rank i) →
      (inOrder part queues).filter (fun item => key item = rank i) = [] := by
    intro part hpart
    rw [List.filter_eq_nil_iff]
    intro item hitem hkey
    rcases List.mem_flatMap.mp hitem with ⟨j, hj, hqueued⟩
    rw [hranked.keyed j item hqueued] at hkey
    exact hpart j hj (of_decide_eq_true hkey)
  rw [inOrder_of_split hsplit hbefore hafter (fun _ _ => rfl), List.filter_append,
    List.filter_append, hnone before, hnone after, List.nil_append, List.append_nil,
    List.filter_eq_self]
  · intro item hitem
    exact decide_eq_true (hranked.keyed i item hitem)
  · intro j hj heq
    have hbeats := hworse j hj
    rw [heq] at hbeats
    exact hirrefl _ hbeats
  · intro j hj heq
    have hbeats := hbetter j hj
    rw [heq] at hbeats
    exact hirrefl _ hbeats

end Keys

/-- A total over all items, level by level. -/
theorem sum_inOrder (levels : List ι) (queues : ι → List α) (size : α → ℕ) :
    ((inOrder levels queues).map size).sum =
      (levels.map fun i => ((queues i).map size).sum).sum := by
  induction levels with
  | nil => rfl
  | cons i levels ih =>
      rw [inOrder, List.flatMap_cons, List.map_append, List.sum_append, List.map_cons,
        List.sum_cons, ← ih]
      rfl

/-- A change of every single item. -/
theorem inOrder_filterMap {β : Type*} {queues' : ι → List β} (change : α → Option β)
    (hqueues : ∀ j ∈ levels, queues' j = (queues j).filterMap change) :
    inOrder levels queues' = (inOrder levels queues).filterMap change := by
  rw [inOrder, inOrder, List.filterMap_flatMap]
  exact List.flatMap_congr hqueues

end PriorityLevels
