import Mathlib.Data.List.Perm.Basic
import Mathlib.Data.List.Nodup
import Mathlib.Tactic

/-!
# Submission and completion queues

A pair of queues between a program and a kernel.  The program prepares requests
and submits them together; the kernel consumes what has been submitted, works on
it and posts one result for each request; the program takes the results in the
order in which they were posted.  A move which is not possible changes nothing.

`outstanding` lists the requests between their preparation and the moment their
result is taken.  Requests in earlier phases stand further back, so that it stays
as it is as long as the kernel completes its requests in order, and is permuted
otherwise.
-/

structure SubmissionRing (Request Result : Type*) where
  prepared : List Request
  submitted : List Request
  running : List Request
  completed : List (Request × Result)

namespace SubmissionRing

variable {Request Result : Type*}

def empty : SubmissionRing Request Result where
  prepared := []
  submitted := []
  running := []
  completed := []

def outstanding (ring : SubmissionRing Request Result) : List Request :=
  ring.completed.map Prod.fst ++ (ring.running ++ (ring.submitted ++ ring.prepared))

/-- The entries of the submission queue which the kernel has not taken. -/
def unconsumed (ring : SubmissionRing Request Result) : ℕ :=
  ring.submitted.length + ring.prepared.length

/-! ## The program -/

def prepare (ring : SubmissionRing Request Result) (request : Request) :
    SubmissionRing Request Result :=
  { ring with prepared := ring.prepared ++ [request] }

def submit (ring : SubmissionRing Request Result) : SubmissionRing Request Result :=
  { ring with prepared := [], submitted := ring.submitted ++ ring.prepared }

/-- The oldest result has been taken. -/
def seen (ring : SubmissionRing Request Result) : SubmissionRing Request Result :=
  { ring with completed := ring.completed.tail }

/-! ## The kernel -/

def consume (ring : SubmissionRing Request Result) : SubmissionRing Request Result :=
  match ring.submitted with
  | [] => ring
  | request :: rest => { ring with submitted := rest, running := ring.running ++ [request] }

/-- The running request at `position` is done. -/
def complete (ring : SubmissionRing Request Result) (position : ℕ)
    (result : Request → Result) : SubmissionRing Request Result :=
  match ring.running[position]? with
  | none => ring
  | some request =>
      { ring with
        running := ring.running.eraseIdx position
        completed := ring.completed ++ [(request, result request)] }

/-! ## Outstanding requests -/

variable (ring : SubmissionRing Request Result)

@[simp] theorem outstanding_empty :
    (empty : SubmissionRing Request Result).outstanding = [] := rfl

theorem unconsumed_le : ring.unconsumed ≤ ring.outstanding.length := by
  unfold unconsumed outstanding
  simp only [List.length_append, List.length_map]
  omega

@[simp] theorem outstanding_prepare (request : Request) :
    (ring.prepare request).outstanding = ring.outstanding ++ [request] := by
  simp [outstanding, prepare]

@[simp] theorem outstanding_submit : ring.submit.outstanding = ring.outstanding := by
  simp [outstanding, submit]

theorem consume_cases :
    ring.submitted = [] ∧ ring.consume = ring ∨
      ∃ request rest, ring.submitted = request :: rest ∧
        ring.consume =
          { ring with submitted := rest, running := ring.running ++ [request] } := by
  unfold consume
  cases hsubmitted : ring.submitted with
  | nil => exact Or.inl ⟨rfl, rfl⟩
  | cons request rest => exact Or.inr ⟨request, rest, rfl, rfl⟩

theorem complete_cases (position : ℕ) (result : Request → Result) :
    ring.running[position]? = none ∧ ring.complete position result = ring ∨
      ∃ request, ring.running[position]? = some request ∧
        ring.complete position result =
          { ring with
            running := ring.running.eraseIdx position
            completed := ring.completed ++ [(request, result request)] } := by
  unfold complete
  cases hrunning : ring.running[position]? with
  | none => exact Or.inl ⟨rfl, rfl⟩
  | some request => exact Or.inr ⟨request, rfl, rfl⟩

@[simp] theorem outstanding_consume : ring.consume.outstanding = ring.outstanding := by
  rcases ring.consume_cases with ⟨_, hring⟩ | ⟨request, rest, hsubmitted, hring⟩
  · rw [hring]
  · simp [hring, outstanding, hsubmitted]

@[simp] theorem prepared_consume : ring.consume.prepared = ring.prepared := by
  rcases ring.consume_cases with ⟨_, hring⟩ | ⟨request, rest, _, hring⟩ <;> rw [hring]

@[simp] theorem completed_consume : ring.consume.completed = ring.completed := by
  rcases ring.consume_cases with ⟨_, hring⟩ | ⟨request, rest, _, hring⟩ <;> rw [hring]

@[simp] theorem prepared_complete (position : ℕ) (result : Request → Result) :
    (ring.complete position result).prepared = ring.prepared := by
  rcases ring.complete_cases position result with ⟨_, hring⟩ | ⟨request, _, hring⟩ <;> rw [hring]

theorem outstanding_complete_perm (position : ℕ) (result : Request → Result) :
    (ring.complete position result).outstanding.Perm ring.outstanding := by
  rcases ring.complete_cases position result with ⟨_, hring⟩ | ⟨request, hrunning, hring⟩
  · rw [hring]
  · rcases List.getElem?_eq_some_iff.mp hrunning with ⟨hlt, hget⟩
    have hperm : (request :: ring.running.eraseIdx position).Perm ring.running := by
      rw [← hget]
      exact List.getElem_cons_eraseIdx_perm hlt
    rw [hring]
    simp only [outstanding, List.map_append, List.map_cons, List.map_nil, List.append_assoc]
    apply List.Perm.append_left
    rw [List.singleton_append, ← List.cons_append]
    exact hperm.append_right _

variable {ring}

theorem outstanding_eq_cons {request : Request} {result : Result}
    {rest : List (Request × Result)} (hcompleted : ring.completed = (request, result) :: rest) :
    ring.outstanding = request :: ring.seen.outstanding := by
  simp [outstanding, seen, hcompleted]

theorem mem_outstanding_of_running {position : ℕ} {request : Request}
    (hrunning : ring.running[position]? = some request) : request ∈ ring.outstanding := by
  unfold outstanding
  simp only [List.mem_append]
  exact Or.inr (Or.inl (List.mem_of_getElem? hrunning))

end SubmissionRing
