import NanoMatch.OrderPool

/-!
# What the pool lends

To its users the pool is a stack of free slots and, for each slot which is lent, the
order written there.  The links of the free list lie in the orders themselves, so the
pool overwrites `next` and `prev` of an order as soon as it is released, and a user may
write whatever it likes into the order which it holds.  Neither disturbs the other.
-/

namespace NanoMatch

/-- An operation on the pool, or a write by the holder of a slot. -/
inductive PoolOp where
  | acquire
  | release (slot : Slot)
  | write (slot : Slot) (order : Order)
  | reset

/-! ## The pool -/

namespace OrderPool

def exhausted (pool : OrderPool) : Bool := pool.freelistHead.isNone

def isFromThisPool (pool : OrderPool) (slot : Slot) : Bool := decide (slot < pool.capacity)

def perform (pool : OrderPool) : PoolOp → OrderPool
  | .acquire => pool.acquire.elim pool Prod.snd
  | .release slot => pool.release slot
  | .write slot order => { pool with storage := Function.update pool.storage slot order }
  | .reset => pool.reset

/-- The slot which an operation returns, with the order as it is handed out. -/
def answer (pool : OrderPool) : PoolOp → Option (Slot × Order)
  | .acquire => pool.acquire.map fun (slot, pool') => (slot, pool'.storage slot)
  | _ => none

def performAll (pool : OrderPool) (ops : List PoolOp) : OrderPool := ops.foldl perform pool

def answers (pool : OrderPool) : List PoolOp → List (Option (Slot × Order))
  | [] => []
  | op :: ops => pool.answer op :: (pool.perform op).answers ops

end OrderPool

/-! ## The stack -/

/-- The free slots, the next one first, and the orders in the slots which are held. -/
structure Lending where
  capacity : ℕ
  free : List Slot
  held : List Slot
  orders : Slot → Order

namespace Lending

def new (capacity : ℕ) : Lending where
  capacity := capacity
  free := List.range capacity
  held := []
  orders := fun _ => Order.reset

def perform (lending : Lending) : PoolOp → Lending
  | .acquire =>
      match lending.free with
      | [] => lending
      | slot :: free =>
          { lending with
            free := free
            held := slot :: lending.held
            orders := Function.update lending.orders slot Order.reset }
  | .release slot =>
      { lending with free := slot :: lending.free, held := lending.held.erase slot }
  | .write slot order => { lending with orders := Function.update lending.orders slot order }
  | .reset => { lending with free := List.range lending.capacity, held := [] }

def answer (lending : Lending) : PoolOp → Option (Slot × Order)
  | .acquire => lending.free.head?.map fun slot => (slot, Order.reset)
  | _ => none

def performAll (lending : Lending) (ops : List PoolOp) : Lending := ops.foldl perform lending

def answers (lending : Lending) : List PoolOp → List (Option (Slot × Order))
  | [] => []
  | op :: ops => lending.answer op :: (lending.perform op).answers ops

/-- Only the holder of a slot releases it or writes to it. -/
def Allows (lending : Lending) : PoolOp → Prop
  | .release slot => slot ∈ lending.held
  | .write slot _ => slot ∈ lending.held
  | _ => True

instance (lending : Lending) (op : PoolOp) : Decidable (lending.Allows op) :=
  match op with
  | .acquire => inferInstanceAs (Decidable True)
  | .release slot => inferInstanceAs (Decidable (slot ∈ lending.held))
  | .write slot _ => inferInstanceAs (Decidable (slot ∈ lending.held))
  | .reset => inferInstanceAs (Decidable True)

def AllowsAll (lending : Lending) : List PoolOp → Prop
  | [] => True
  | op :: ops => lending.Allows op ∧ (lending.perform op).AllowsAll ops

def decidableAllowsAll : ∀ (lending : Lending) (ops : List PoolOp),
    Decidable (lending.AllowsAll ops)
  | _, [] => inferInstanceAs (Decidable True)
  | lending, op :: ops =>
      have := decidableAllowsAll (lending.perform op) ops
      inferInstanceAs (Decidable (lending.Allows op ∧ (lending.perform op).AllowsAll ops))

instance (lending : Lending) (ops : List PoolOp) : Decidable (lending.AllowsAll ops) :=
  decidableAllowsAll lending ops

end Lending

/-! ## Refinement -/

open OrderPool

/-- The free list of the pool is the stack, every slot is free or held, and a held slot
contains what its holder has written. -/
structure Lends (pool : OrderPool) (lending : Lending) : Prop where
  capacity : lending.capacity = pool.capacity
  free : FreeList pool lending.free
  slots : (lending.free ++ lending.held).Perm (List.range pool.capacity)
  orders : ∀ slot ∈ lending.held, pool.storage slot = lending.orders slot

namespace Lends

variable {pool : OrderPool} {lending : Lending} {slot : Slot}

theorem nodup (hlends : Lends pool lending) : (lending.free ++ lending.held).Nodup :=
  hlends.slots.nodup_iff.mpr List.nodup_range

theorem notMem_free (hlends : Lends pool lending) (hheld : slot ∈ lending.held) :
    slot ∉ lending.free := by
  intro hfree
  exact (List.nodup_append.mp hlends.nodup).2.2 slot hfree slot hheld rfl

theorem lt (hlends : Lends pool lending) (hheld : slot ∈ lending.held) :
    slot < pool.capacity :=
  List.mem_range.mp (hlends.slots.mem_iff.mp (List.mem_append_right _ hheld))

theorem new (capacity : ℕ) : Lends (OrderPool.new capacity) (Lending.new capacity) where
  capacity := by simp [OrderPool.new, Lending.new]
  free := new_freeList capacity
  slots := by simp [OrderPool.new, Lending.new]
  orders := nofun

/-- The next slot is handed out with its fields cleared. -/
theorem popped (hlends : Lends pool lending) {free : List Slot}
    (hfree : lending.free = slot :: free) :
    Lends (pool.popped slot)
      { lending with
        free := free
        held := slot :: lending.held
        orders := Function.update lending.orders slot Order.reset } where
  capacity := hlends.capacity
  free := by
    have hlist := hlends.free
    rw [hfree] at hlist
    exact hlist.popped
  slots := by
    have hslots := hlends.slots
    rw [hfree] at hslots
    exact List.perm_middle.trans hslots
  orders other hother := by
    by_cases heq : other = slot
    · rw [heq]
      simp [OrderPool.popped]
    · have hheld : other ∈ lending.held := by simpa [heq] using hother
      simp only [OrderPool.popped]
      rw [Function.update_of_ne heq, Function.update_of_ne heq]
      exact hlends.orders other hheld

theorem release (hlends : Lends pool lending) (hheld : slot ∈ lending.held) :
    Lends (pool.release slot)
      { lending with free := slot :: lending.free, held := lending.held.erase slot } where
  capacity := hlends.capacity
  free := hlends.free.release (hlends.notMem_free hheld) (hlends.lt hheld)
  slots := by
    refine List.Perm.trans ?_ hlends.slots
    exact List.perm_middle.symm.trans ((List.perm_cons_erase hheld).symm.append_left _)
  orders other hother := by
    -- the links of the released slot are written, and no other slot
    have hnodup := (List.nodup_append.mp hlends.nodup).2.1
    have hne := (hnodup.mem_erase_iff.mp hother).1
    rw [← hlends.orders other (List.mem_of_mem_erase hother)]
    simp [OrderPool.release, Slab.setNext, Slab.setPrev, Function.update_of_ne hne]

theorem write (hlends : Lends pool lending) (hheld : slot ∈ lending.held) (order : Order) :
    Lends { pool with storage := Function.update pool.storage slot order }
      { lending with orders := Function.update lending.orders slot order } where
  capacity := hlends.capacity
  free := by
    apply hlends.free.congr_storage
    intro other hother
    apply Function.update_of_ne
    rintro rfl
    exact hlends.notMem_free hheld hother
  slots := hlends.slots
  orders other hother := by
    by_cases heq : other = slot
    · simp [heq]
    · simp only
      rw [Function.update_of_ne heq, Function.update_of_ne heq]
      exact hlends.orders other hother

theorem reset (hlends : Lends pool lending) :
    Lends pool.reset { lending with free := List.range lending.capacity, held := [] } where
  capacity := by
    rw [OrderPool.reset, buildFreelist_capacity]
    exact hlends.capacity
  free := by
    rw [hlends.capacity]
    exact buildFreelist_freeList pool
  slots := by
    rw [OrderPool.reset, buildFreelist_capacity, hlends.capacity, List.append_nil]
  orders := nofun

theorem perform (hlends : Lends pool lending) {op : PoolOp} (hallowed : lending.Allows op) :
    pool.answer op = lending.answer op ∧ Lends (pool.perform op) (lending.perform op) := by
  cases op with
  | acquire =>
      unfold OrderPool.answer Lending.answer OrderPool.perform Lending.perform
      cases hfree : lending.free with
      | nil =>
          have hnone := hlends.free.acquire_eq_none_iff.mpr hfree
          simp only [hnone]
          exact ⟨rfl, hlends⟩
      | cons slot free =>
          have hlist := hlends.free
          rw [hfree] at hlist
          simp only [hlist.acquire_cons]
          exact ⟨by simp [OrderPool.popped], hlends.popped hfree⟩
  | release slot => exact ⟨rfl, hlends.release hallowed⟩
  | write slot order => exact ⟨rfl, hlends.write hallowed order⟩
  | reset => exact ⟨rfl, hlends.reset⟩

theorem performAll (hlends : Lends pool lending) {ops : List PoolOp}
    (hallowed : lending.AllowsAll ops) :
    pool.answers ops = lending.answers ops ∧
      Lends (pool.performAll ops) (lending.performAll ops) := by
  induction ops generalizing pool lending with
  | nil => exact ⟨rfl, hlends⟩
  | cons op ops ih =>
      obtain ⟨hanswer, hnext⟩ := hlends.perform hallowed.1
      obtain ⟨hanswers, hlast⟩ := ih hnext hallowed.2
      refine ⟨?_, hlast⟩
      rw [OrderPool.answers, Lending.answers, hanswer, hanswers]

end Lends

theorem Lending.capacity_performAll (lending : Lending) (ops : List PoolOp) :
    (lending.performAll ops).capacity = lending.capacity := by
  have hperform : ∀ (lending : Lending) (op : PoolOp),
      (lending.perform op).capacity = lending.capacity := by
    intro lending op
    cases op with
    | acquire =>
        cases hfree : lending.free with
        | nil => simp [perform, hfree]
        | cons slot free => simp [perform, hfree]
    | _ => rfl
  unfold performAll
  induction ops generalizing lending with
  | nil => rfl
  | cons op ops ih => exact (ih _).trans (hperform lending op)

/-- What the users of the pool can observe. -/
structure Observed (capacity : ℕ) (pool : OrderPool) (lending : Lending) : Prop where
  capacity_eq : pool.capacity = capacity
  free_count : pool.freeCount = lending.free.length
  used_count : pool.usedCount = lending.held.length
  exhausted : pool.exhausted = true ↔ lending.held.length = capacity
  distinct : lending.held.Nodup
  from_pool : ∀ slot ∈ lending.held, pool.isFromThisPool slot = true
  orders : ∀ slot ∈ lending.held, pool.storage slot = lending.orders slot

theorem Lends.exhausted_iff {pool : OrderPool} {lending : Lending}
    (hlends : Lends pool lending) : pool.exhausted = true ↔ lending.free = [] := by
  have hhead := hlends.free.chain.head_eq
  unfold exhausted
  rw [hhead, Option.isNone_iff_eq_none, List.head?_eq_none_iff]

theorem Lends.observed {pool : OrderPool} {lending : Lending} (hlends : Lends pool lending) :
    Observed lending.capacity pool lending := by
  have hlength := hlends.slots.length_eq
  rw [List.length_append, List.length_range] at hlength
  have hcount := hlends.free.count
  have hcapacity := hlends.capacity
  refine ⟨hcapacity.symm, hcount.symm, ?_, ?_, (List.nodup_append.mp hlends.nodup).2.1, ?_,
    hlends.orders⟩
  · unfold usedCount
    omega
  · rw [hlends.exhausted_iff, ← List.length_eq_zero_iff]
    omega
  · intro slot hslot
    exact decide_eq_true (hlends.lt hslot)

/-- As long as only the holder of a slot releases it or writes to it, the pool is a stack of
free slots, hands out cleared orders, and leaves those which are held alone. -/
theorem pool_lends (capacity : ℕ) (ops : List PoolOp)
    (hallowed : (Lending.new capacity).AllowsAll ops) :
    (OrderPool.new capacity).answers ops = (Lending.new capacity).answers ops ∧
      Observed capacity ((OrderPool.new capacity).performAll ops)
        ((Lending.new capacity).performAll ops) := by
  obtain ⟨hanswers, hlends⟩ := (Lends.new capacity).performAll hallowed
  have hcapacity : ((Lending.new capacity).performAll ops).capacity = capacity :=
    Lending.capacity_performAll _ ops
  have hobserved := hlends.observed
  rw [hcapacity] at hobserved
  exact ⟨hanswers, hobserved⟩

/-- Two slots are taken, and the first is written to and comes back. -/
def samplePoolOps : List PoolOp :=
  [.acquire, .acquire, .write 0 { Order.reset with next := some 1 }, .release 0, .acquire,
    .acquire]

theorem pool_lends_sample :
    (Lending.new 2).AllowsAll samplePoolOps ∧
      (OrderPool.new 2).answers samplePoolOps =
        [some (0, Order.reset), some (1, Order.reset), none, none, some (0, Order.reset), none] ∧
      ((OrderPool.new 2).performAll samplePoolOps).exhausted = true := by
  have hallowed : (Lending.new 2).AllowsAll samplePoolOps := by decide
  obtain ⟨hanswers, hobserved⟩ := pool_lends 2 samplePoolOps hallowed
  refine ⟨hallowed, ?_, hobserved.exhausted.mpr (by decide)⟩
  rw [hanswers]
  decide

end NanoMatch
