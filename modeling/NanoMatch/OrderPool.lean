import NanoMatch.IntrusiveList
import NanoMatch.Order

/-!
# The order pool

`OrderPool<Capacity>` hands out the slots of one slab through a free list
threaded through `Order::next`.  `FreeList pool free` says that this list is
exactly `free`; the three operations push, pop and rebuild it.
-/

namespace NanoMatch

open IntrusiveList

structure OrderPool where
  capacity : ℕ
  storage : Slab
  freelistHead : Option Slot
  freeCount : ℕ

namespace OrderPool

/-- The loop of `build_freelist`, entered with `i` slots still to link. -/
def buildFreelistFrom : ℕ → OrderPool → OrderPool
  | 0, pool => pool
  | i + 1, pool =>
      buildFreelistFrom i
        { pool with
          storage := (pool.storage.setNext i pool.freelistHead).setPrev i none
          freelistHead := some i }

def buildFreelist (pool : OrderPool) : OrderPool :=
  buildFreelistFrom pool.capacity
    { pool with freelistHead := none, freeCount := pool.capacity }

/-- The constructor: zero-filled storage, then `build_freelist`. -/
def new (capacity : ℕ) : OrderPool :=
  buildFreelist
    { capacity := capacity
      storage := fun _ => Order.zeroed
      freelistHead := none
      freeCount := 0 }

/-- The pool after popping `slot` and clearing its fields. -/
def popped (pool : OrderPool) (slot : Slot) : OrderPool :=
  { pool with
    freelistHead := (pool.storage slot).next
    storage := Function.update pool.storage slot Order.reset
    freeCount := pool.freeCount - 1 }

/-- The popped slot, or `none` when the pool is exhausted. -/
def acquire (pool : OrderPool) : Option (Slot × OrderPool) :=
  match pool.freelistHead with
  | none => none
  | some slot => some (slot, pool.popped slot)

def release (pool : OrderPool) (slot : Slot) : OrderPool :=
  { pool with
    storage := (pool.storage.setNext slot pool.freelistHead).setPrev slot none
    freelistHead := some slot
    freeCount := pool.freeCount + 1 }

def reset (pool : OrderPool) : OrderPool := buildFreelist pool

def usedCount (pool : OrderPool) : ℕ := pool.capacity - pool.freeCount

/-- The slots met by following the free list. -/
def freeSlots (pool : OrderPool) : List Slot :=
  walk pool.storage.nextOf pool.capacity pool.freelistHead

/-- The free list of `pool` is exactly `free`, its length is the cached
count, and it stays inside the slab. -/
structure FreeList (pool : OrderPool) (free : List Slot) : Prop where
  chain : Chain pool.storage.nextOf pool.freelistHead free
  count : free.length = pool.freeCount
  bound : ∀ slot ∈ free, slot < pool.capacity

namespace FreeList

variable {pool : OrderPool} {free : List Slot} {slot : Slot}

theorem nodup (hfree : FreeList pool free) : free.Nodup :=
  hfree.chain.nodup

theorem length_le (hfree : FreeList pool free) : free.length ≤ pool.capacity := by
  have hsubset : free ⊆ List.range pool.capacity := by
    intro slot hslot
    exact List.mem_range.mpr (hfree.bound slot hslot)
  simpa using (List.subperm_of_subset hfree.nodup hsubset).length_le

theorem freeSlots_eq (hfree : FreeList pool free) : pool.freeSlots = free :=
  hfree.chain.walk_eq hfree.length_le

theorem congr_storage (hfree : FreeList pool free) {storage : Slab}
    (hsame : ∀ slot ∈ free, storage slot = pool.storage slot) :
    FreeList { pool with storage := storage } free where
  chain := hfree.chain.congr (fun slot hslot => by
    simp [Slab.nextOf, hsame slot hslot])
  count := hfree.count
  bound := hfree.bound

theorem acquire_eq_none_iff (hfree : FreeList pool free) :
    pool.acquire = none ↔ free = [] := by
  have hhead := hfree.chain.head_eq
  cases free with
  | nil => simp [acquire, hhead]
  | cons slot free => simp [acquire, hhead]

theorem acquire_cons (hfree : FreeList pool (slot :: free)) :
    pool.acquire = some (slot, pool.popped slot) := by
  have hhead : pool.freelistHead = some slot := hfree.chain.head_eq
  rw [acquire, hhead]

theorem popped (hfree : FreeList pool (slot :: free)) :
    FreeList (pool.popped slot) free where
  chain := by
    have htail : Chain pool.storage.nextOf (pool.storage slot).next free :=
      hfree.chain.2
    apply htail.congr
    intro other hother
    have hne : other ≠ slot := by
      rintro rfl
      exact (List.nodup_cons.mp hfree.nodup).1 hother
    simp [OrderPool.popped, Slab.nextOf, Function.update_of_ne hne]
  count := by
    have hcount := hfree.count
    simp only [List.length_cons] at hcount
    simp only [OrderPool.popped]
    omega
  bound := by
    intro other hother
    exact hfree.bound other (by simp [hother])

theorem release (hfree : FreeList pool free) (hslot : slot ∉ free)
    (hbound : slot < pool.capacity) :
    FreeList (pool.release slot) (slot :: free) where
  chain := by
    refine ⟨rfl, ?_⟩
    simp only [OrderPool.release, Slab.nextOf_setPrev, Slab.nextOf_setNext,
      Function.update_self]
    exact hfree.chain.update_of_notMem hslot _
  count := by simp [OrderPool.release, hfree.count]
  bound := by
    intro other hother
    rcases List.mem_cons.mp hother with rfl | hmem
    · exact hbound
    · exact hfree.bound other hmem

end FreeList

theorem buildFreelistFrom_fields (i : ℕ) (pool : OrderPool) :
    (buildFreelistFrom i pool).capacity = pool.capacity ∧
      (buildFreelistFrom i pool).freeCount = pool.freeCount := by
  induction i generalizing pool with
  | zero => exact ⟨rfl, rfl⟩
  | succ i ih => exact ih _

/-- Linking the slots below `i` in front of the chain of the slots from `i`
to `top`. -/
theorem buildFreelistFrom_chain (i rest : ℕ) (pool : OrderPool)
    (hchain : Chain pool.storage.nextOf pool.freelistHead (List.range' i rest)) :
    Chain (buildFreelistFrom i pool).storage.nextOf
      (buildFreelistFrom i pool).freelistHead (List.range (i + rest)) := by
  induction i generalizing pool rest with
  | zero => simpa [buildFreelistFrom, List.range_eq_range'] using hchain
  | succ i ih =>
      rw [show i + 1 + rest = i + (rest + 1) by omega]
      apply ih
      rw [List.range'_succ]
      refine ⟨rfl, ?_⟩
      simp only [Slab.nextOf_setPrev, Slab.nextOf_setNext, Function.update_self]
      exact hchain.update_of_notMem (by simp) _

theorem buildFreelist_freeList (pool : OrderPool) :
    FreeList pool.buildFreelist (List.range pool.capacity) where
  chain := by
    have hchain := buildFreelistFrom_chain pool.capacity 0
      { pool with freelistHead := none, freeCount := pool.capacity } rfl
    simpa [buildFreelist] using hchain
  count := by
    simp [buildFreelist, (buildFreelistFrom_fields _ _).2]
  bound := by
    intro slot hslot
    simpa [buildFreelist, (buildFreelistFrom_fields _ _).1] using hslot

@[simp] theorem buildFreelist_capacity (pool : OrderPool) :
    pool.buildFreelist.capacity = pool.capacity :=
  (buildFreelistFrom_fields _ _).1

theorem new_freeList (capacity : ℕ) :
    FreeList (new capacity) (List.range capacity) :=
  buildFreelist_freeList _

end OrderPool

end NanoMatch
