import Mathlib.Data.List.Basic
import Mathlib.Logic.Relation

/-!
# Bounded queues

A first-in first-out queue between one producer and one consumer, with everything
that ever went through it.  Neither side need know the latest index of the other, so
an operation names the number of items, or of free places, which it does not see.
-/

structure BoundedFifo (α : Type*) where
  capacity : ℕ
  items : List α
  pushed : List α
  popped : List α
  lossless : popped ++ items = pushed
  bounded : items.length ≤ capacity

namespace BoundedFifo

variable {α : Type*}

def empty (capacity : ℕ) : BoundedFifo α where
  capacity := capacity
  items := []
  pushed := []
  popped := []
  lossless := rfl
  bounded := Nat.zero_le _

def tryPush (queue : BoundedFifo α) (unseen : ℕ) (item : α) : Option (BoundedFifo α) :=
  if hroom : queue.items.length + unseen < queue.capacity then
    some
      { queue with
        items := queue.items ++ [item]
        pushed := queue.pushed ++ [item]
        lossless := by rw [← queue.lossless, List.append_assoc]
        bounded := by rw [List.length_append, List.length_singleton]; omega }
  else none

/-- How many items a pop of at most `maxCount` takes. -/
def popCount (queue : BoundedFifo α) (unseen maxCount : ℕ) : ℕ :=
  min maxCount (queue.items.length - unseen)

def tryPopBatch (queue : BoundedFifo α) (unseen maxCount : ℕ) : List α × BoundedFifo α :=
  (queue.items.take (queue.popCount unseen maxCount),
    { queue with
      items := queue.items.drop (queue.popCount unseen maxCount)
      popped := queue.popped ++ queue.items.take (queue.popCount unseen maxCount)
      lossless := by rw [List.append_assoc, List.take_append_drop, queue.lossless]
      bounded := by
        have hbounded := queue.bounded
        rw [List.length_drop]
        omega })

def tryPop (queue : BoundedFifo α) (unseen : ℕ) : Option (α × BoundedFifo α) :=
  match (queue.tryPopBatch unseen 1).1 with
  | [] => none
  | item :: _ => some (item, (queue.tryPopBatch unseen 1).2)

variable {queue queue' : BoundedFifo α} {unseen maxCount : ℕ} {item : α}

theorem popped_prefix (queue : BoundedFifo α) : queue.popped <+: queue.pushed :=
  ⟨queue.items, queue.lossless⟩

theorem popped_eq (hempty : queue.items = []) : queue.popped = queue.pushed := by
  rw [← queue.lossless, hempty, List.append_nil]

theorem tryPush_spec (hpush : queue.tryPush unseen item = some queue') :
    queue'.pushed = queue.pushed ++ [item] ∧ queue'.popped = queue.popped := by
  unfold tryPush at hpush
  split at hpush
  · rw [← Option.some.inj hpush]
    exact ⟨rfl, rfl⟩
  · exact absurd hpush (by simp)

theorem tryPopBatch_spec (queue : BoundedFifo α) (unseen maxCount : ℕ) :
    (queue.tryPopBatch unseen maxCount).2.popped =
        queue.popped ++ (queue.tryPopBatch unseen maxCount).1 ∧
      (queue.tryPopBatch unseen maxCount).2.pushed = queue.pushed :=
  ⟨rfl, rfl⟩

theorem tryPop_spec (hpop : queue.tryPop unseen = some (item, queue')) :
    queue'.popped = queue.popped ++ [item] ∧ queue'.pushed = queue.pushed := by
  have hbatch := queue.tryPopBatch_spec unseen 1
  have hlength : (queue.tryPopBatch unseen 1).1.length ≤ 1 :=
    Nat.le_trans (List.length_take_le _ _) (Nat.min_le_left _ _)
  unfold tryPop at hpop
  split at hpop
  · exact absurd hpop (by simp)
  · rename_i first rest htaken
    rw [Option.some.injEq, Prod.mk.injEq] at hpop
    rw [htaken, List.length_cons] at hlength
    have hrest : rest = [] := List.length_eq_zero_iff.mp (by omega)
    rw [← hpop.1, ← hpop.2, hbatch.1, htaken, hrest]
    exact ⟨rfl, hbatch.2⟩

/-! ## What an operation leaves -/

theorem items_tryPush (hpush : queue.tryPush unseen item = some queue') :
    queue'.items = queue.items ++ [item] ∧ queue'.capacity = queue.capacity := by
  unfold tryPush at hpush
  split at hpush
  · rw [← Option.some.inj hpush]
    exact ⟨rfl, rfl⟩
  · exact absurd hpush (by simp)

/-- A push which sees all free places fails on a full queue only. -/
theorem full_of_tryPush (hpush : queue.tryPush 0 item = none) :
    queue.capacity ≤ queue.items.length := by
  by_contra hroom
  unfold tryPush at hpush
  rw [dif_pos (by omega)] at hpush
  exact absurd hpush (by simp)

theorem items_tryPop (hpop : queue.tryPop unseen = some (item, queue')) :
    queue.items = item :: queue'.items ∧ queue'.capacity = queue.capacity := by
  have hcount : queue.popCount unseen 1 ≤ 1 := Nat.min_le_left _ _
  unfold tryPop at hpop
  split at hpop
  · exact absurd hpop (by simp)
  · rename_i first rest htaken
    change queue.items.take (queue.popCount unseen 1) = first :: rest at htaken
    rw [Option.some.injEq, Prod.mk.injEq] at hpop
    rw [← hpop.1, ← hpop.2]
    refine ⟨?_, rfl⟩
    change queue.items = first :: queue.items.drop (queue.popCount unseen 1)
    have hlength := congrArg List.length htaken
    rw [List.length_take, List.length_cons] at hlength
    have hrest : rest = [] := List.length_eq_zero_iff.mp (by omega)
    rw [hrest] at htaken
    calc
      queue.items = queue.items.take (queue.popCount unseen 1) ++
          queue.items.drop (queue.popCount unseen 1) := (List.take_append_drop _ _).symm
      _ = first :: queue.items.drop (queue.popCount unseen 1) := by rw [htaken]; rfl

/-- A pop which sees all items fails on an empty queue only. -/
theorem empty_of_tryPop (hpop : queue.tryPop 0 = none) : queue.items = [] := by
  unfold tryPop at hpop
  split at hpop
  · rename_i htaken
    change queue.items.take (queue.popCount 0 1) = [] at htaken
    have hlength := congrArg List.length htaken
    unfold popCount at hlength
    rw [List.length_take, List.length_nil] at hlength
    exact List.length_eq_zero_iff.mp (by omega)
  · exact absurd hpop (by simp)

/-- A pop takes something, or there was nothing which it could see. -/
theorem tryPopBatch_effect (queue : BoundedFifo α) (unseen maxCount : ℕ) :
    (queue.tryPopBatch unseen maxCount).2.items.length < queue.items.length ∨
      (queue.tryPopBatch unseen maxCount).1 = [] ∧
        (queue.tryPopBatch unseen maxCount).2.items = queue.items ∧
        (unseen = 0 → 0 < maxCount → queue.items = []) := by
  have hcount : queue.popCount unseen maxCount ≤ queue.items.length - unseen := Nat.min_le_right _ _
  change (queue.items.drop (queue.popCount unseen maxCount)).length < queue.items.length ∨
    queue.items.take (queue.popCount unseen maxCount) = [] ∧
      queue.items.drop (queue.popCount unseen maxCount) = queue.items ∧ _
  by_cases hzero : queue.popCount unseen maxCount = 0
  · rw [hzero]
    refine Or.inr ⟨List.take_zero, List.drop_zero, ?_⟩
    rintro rfl hasks
    unfold popCount at hzero
    exact List.length_eq_zero_iff.mp (by omega)
  · apply Or.inl
    rw [List.length_drop]
    omega

/-! ## Runs -/

inductive Step : BoundedFifo α → BoundedFifo α → Prop
  | push {queue queue' : BoundedFifo α} (unseen : ℕ) (item : α)
      (hpush : queue.tryPush unseen item = some queue') : Step queue queue'
  | pop (queue : BoundedFifo α) (unseen maxCount : ℕ) :
      Step queue (queue.tryPopBatch unseen maxCount).2

/-- Items which fit can be pushed one after another. -/
theorem exists_pushed (queue : BoundedFifo α) (items : List α)
    (hroom : queue.items.length + items.length ≤ queue.capacity) :
    ∃ queue' : BoundedFifo α, Relation.ReflTransGen Step queue queue' ∧
      queue'.capacity = queue.capacity ∧ queue'.pushed = queue.pushed ++ items ∧
        queue'.popped = queue.popped := by
  induction items generalizing queue with
  | nil => exact ⟨queue, .refl, rfl, by simp, rfl⟩
  | cons item items ih =>
      rw [List.length_cons] at hroom
      cases hpush : queue.tryPush 0 item with
      | none =>
          unfold tryPush at hpush
          rw [dif_pos (by omega)] at hpush
          exact absurd hpush (by simp)
      | some next =>
          have hnext : next.items = queue.items ++ [item] ∧ next.capacity = queue.capacity := by
            unfold tryPush at hpush
            rw [dif_pos (by omega)] at hpush
            rw [← Option.some.inj hpush]
            exact ⟨rfl, rfl⟩
          rcases ih next (by rw [hnext.1, hnext.2, List.length_append]; simp; omega) with
            ⟨queue', hsteps, hcapacity, hpushed, hpopped⟩
          have hspec := tryPush_spec hpush
          refine ⟨queue', .head (.push 0 item hpush) hsteps, hcapacity.trans hnext.2, ?_, ?_⟩
          · rw [hpushed, hspec.1, List.append_assoc]
            rfl
          · rw [hpopped, hspec.2]

/-- The items in front can be popped in one batch. -/
theorem exists_popped (queue : BoundedFifo α) (items : List α) (hfront : items <+: queue.items) :
    ∃ queue' : BoundedFifo α, Step queue queue' ∧ queue'.capacity = queue.capacity ∧
      queue'.pushed = queue.pushed ∧ queue'.popped = queue.popped ++ items := by
  refine ⟨_, .pop queue 0 items.length, rfl, rfl, ?_⟩
  have hcount : queue.popCount 0 items.length = items.length := by
    have hle := hfront.length_le
    unfold popCount
    omega
  have htaken : (queue.tryPopBatch 0 items.length).1 = items := by
    change queue.items.take (queue.popCount 0 items.length) = items
    rw [hcount, ← List.prefix_iff_eq_take.mp hfront]
  rw [(queue.tryPopBatch_spec 0 items.length).1, htaken]

end BoundedFifo
