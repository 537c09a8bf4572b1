import Mathlib.Data.List.Basic
import Mathlib.Data.List.Nodup
import Mathlib.Logic.Function.Basic

/-!
# Lists threaded through a link function

A link function `next : α → Option α` describes every intrusive list that
lives in one memory.  `Path` says which nodes are met between two links,
`Chain` closes a path at the null link, and `DoublyLinked` is a forward chain
together with the backward chain over the reversed list.  The lemmas describe
how redirecting a single link changes a path; appending at the tail, splicing
out an arbitrary node and popping the head are all assembled from them.
-/

namespace IntrusiveList

variable {α : Type*}

/-- Following `next` from the link `start` meets exactly `nodes` and stops at
the link `stop`. -/
def Path (next : α → Option α) : Option α → List α → Option α → Prop
  | start, [], stop => start = stop
  | start, node :: nodes, stop =>
      start = some node ∧ Path next (next node) nodes stop

/-- A null-terminated path. -/
def Chain (next : α → Option α) (head : Option α) (nodes : List α) : Prop :=
  Path next head nodes none

/-- A forward chain whose backward links form the chain of the reversed
list. -/
structure DoublyLinked (next prev : α → Option α)
    (head tail : Option α) (nodes : List α) : Prop where
  forward : Chain next head nodes
  backward : Chain prev tail nodes.reverse

/-- The nodes met by at most `fuel` link steps. -/
def walk (next : α → Option α) : ℕ → Option α → List α
  | 0, _ => []
  | _ + 1, none => []
  | fuel + 1, some node => node :: walk next fuel (next node)

section Paths

variable {next next' : α → Option α} {start stop : Option α}
  {nodes rest : List α}

@[simp] theorem path_nil :
    Path next start [] stop ↔ start = stop := Iff.rfl

@[simp] theorem path_cons {node : α} :
    Path next start (node :: nodes) stop ↔
      start = some node ∧ Path next (next node) nodes stop := Iff.rfl

theorem path_append :
    Path next start (nodes ++ rest) stop ↔
      ∃ middle, Path next start nodes middle ∧ Path next middle rest stop := by
  induction nodes generalizing start with
  | nil => simp
  | cons node nodes ih =>
      simp only [List.cons_append, path_cons, ih]
      constructor
      · rintro ⟨hstart, middle, hfirst, hsecond⟩
        exact ⟨middle, ⟨hstart, hfirst⟩, hsecond⟩
      · rintro ⟨middle, ⟨hstart, hfirst⟩, hsecond⟩
        exact ⟨hstart, middle, hfirst, hsecond⟩

theorem Path.congr
    (hpath : Path next start nodes stop)
    (hsame : ∀ node ∈ nodes, next' node = next node) :
    Path next' start nodes stop := by
  induction nodes generalizing start with
  | nil => exact hpath
  | cons node nodes ih =>
      refine ⟨hpath.1, ?_⟩
      rw [hsame node (by simp)]
      exact ih hpath.2 (fun other hother => hsame other (by simp [hother]))

theorem Chain.congr {head : Option α}
    (hchain : Chain next head nodes)
    (hsame : ∀ node ∈ nodes, next' node = next node) :
    Chain next' head nodes :=
  Path.congr hchain hsame

theorem Chain.head_eq {head : Option α} (hchain : Chain next head nodes) :
    head = nodes.head? := by
  cases nodes with
  | nil => exact hchain
  | cons node nodes => exact hchain.1

theorem Chain.unique {head : Option α} {other : List α}
    (hchain : Chain next head nodes) (hother : Chain next head other) :
    nodes = other := by
  induction nodes generalizing head other with
  | nil =>
      cases other with
      | nil => rfl
      | cons node other =>
          have hnone : head = none := hchain
          have hsome : head = some node := hother.1
          simp [hnone] at hsome
  | cons node nodes ih =>
      have hsome : head = some node := hchain.1
      cases other with
      | nil =>
          have hnone : head = none := hother
          simp [hnone] at hsome
      | cons node' other =>
          have hnode : some node = some node' := hsome.symm.trans hother.1
          obtain rfl : node = node' := by simpa using hnode
          rw [ih hchain.2 hother.2]

theorem Chain.after {head : Option α} {before : List α} {node : α}
    (hchain : Chain next head (before ++ node :: rest)) :
    Chain next (next node) rest := by
  obtain ⟨middle, _, hmiddle⟩ := path_append.mp hchain
  exact hmiddle.2

/-- A null-terminated path meets no node twice, since the two visits would
have continuations of different lengths. -/
theorem Chain.nodup {head : Option α} (hchain : Chain next head nodes) :
    nodes.Nodup := by
  induction nodes generalizing head with
  | nil => exact List.nodup_nil
  | cons node nodes ih =>
      refine List.nodup_cons.mpr ⟨?_, ih hchain.2⟩
      intro hmem
      obtain ⟨before, after, hsplit⟩ := List.append_of_mem hmem
      have hlong : Chain next (next node) nodes := hchain.2
      have hshort : Chain next (next node) after := by
        rw [hsplit] at hlong
        exact hlong.after
      have hlength := congrArg List.length (hlong.unique hshort)
      rw [hsplit] at hlength
      simp at hlength
      omega

theorem Chain.walk_eq {head : Option α} (hchain : Chain next head nodes)
    {fuel : ℕ} (hfuel : nodes.length ≤ fuel) :
    walk next fuel head = nodes := by
  induction nodes generalizing head fuel with
  | nil =>
      have hnone : head = none := hchain
      subst hnone
      cases fuel <;> rfl
  | cons node nodes ih =>
      obtain ⟨hhead, htail⟩ := hchain
      subst hhead
      cases fuel with
      | zero => simp at hfuel
      | succ fuel =>
          simp only [List.length_cons, Nat.add_le_add_iff_right] at hfuel
          simp only [walk]
          rw [ih htail hfuel]

end Paths

section Redirection

variable [DecidableEq α] {next : α → Option α} {start stop : Option α}
  {nodes : List α}

theorem Path.update_of_notMem
    (hpath : Path next start nodes stop) {node : α} (hnode : node ∉ nodes)
    (link : Option α) :
    Path (Function.update next node link) start nodes stop := by
  apply hpath.congr
  intro other hother
  apply Function.update_of_ne
  rintro rfl
  exact hnode hother

theorem Chain.update_of_notMem {head : Option α}
    (hchain : Chain next head nodes) {node : α} (hnode : node ∉ nodes)
    (link : Option α) :
    Chain (Function.update next node link) head nodes :=
  Path.update_of_notMem hchain hnode link

theorem Path.update_last {last : α}
    (hpath : Path next start (nodes ++ [last]) stop) (hlast : last ∉ nodes)
    (link : Option α) :
    Path (Function.update next last link) start (nodes ++ [last]) link := by
  obtain ⟨middle, hfront, hmiddle⟩ := path_append.mp hpath
  refine path_append.mpr ⟨middle, hfront.update_of_notMem hlast link, hmiddle.1, ?_⟩
  exact Function.update_self last link next

/-- The start and the link function after everything that led to `stop` has
been made to lead to `link`. -/
def redirect (next : α → Option α) (start : Option α) (last : Option α)
    (link : Option α) : (α → Option α) × Option α :=
  match last with
  | none => (next, link)
  | some last => (Function.update next last link, start)

theorem Path.redirect
    (hpath : Path next start nodes stop) (hnodup : nodes.Nodup)
    (link : Option α) :
    Path (redirect next start nodes.getLast? link).1
      (redirect next start nodes.getLast? link).2 nodes link := by
  rcases List.eq_nil_or_concat nodes with rfl | ⟨front, last, rfl⟩
  · simp [IntrusiveList.redirect]
  · have hlast : last ∉ front := by
      intro hmem
      rw [List.concat_eq_append, List.nodup_append] at hnodup
      exact hnodup.2.2 last hmem last (by simp) rfl
    rw [List.concat_eq_append] at hpath ⊢
    simpa [IntrusiveList.redirect] using hpath.update_last hlast link

theorem redirect_fst_of_notMem {last : Option α} {node : α}
    (hnode : last ≠ some node) (link : Option α) :
    (redirect next start last link).1 node = next node := by
  cases last with
  | none => rfl
  | some last =>
      apply Function.update_of_ne
      rintro rfl
      exact hnode rfl

end Redirection

section Splicing

variable {next prev : α → Option α} {head tail : Option α}
  {nodes before after : List α} {node : α}

theorem DoublyLinked.nodup (hlist : DoublyLinked next prev head tail nodes) :
    nodes.Nodup :=
  hlist.forward.nodup

theorem DoublyLinked.head_eq (hlist : DoublyLinked next prev head tail nodes) :
    head = nodes.head? :=
  hlist.forward.head_eq

theorem DoublyLinked.tail_eq (hlist : DoublyLinked next prev head tail nodes) :
    tail = nodes.getLast? := by
  rw [hlist.backward.head_eq, List.head?_reverse]

theorem DoublyLinked.congr {next' prev' : α → Option α}
    (hlist : DoublyLinked next prev head tail nodes)
    (hnext : ∀ node ∈ nodes, next' node = next node)
    (hprev : ∀ node ∈ nodes, prev' node = prev node) :
    DoublyLinked next' prev' head tail nodes where
  forward := hlist.forward.congr hnext
  backward := hlist.backward.congr (by simpa using hprev)

theorem DoublyLinked.next_eq
    (hlist : DoublyLinked next prev head tail (before ++ node :: after)) :
    next node = after.head? :=
  hlist.forward.after.head_eq

theorem DoublyLinked.prev_eq
    (hlist : DoublyLinked next prev head tail (before ++ node :: after)) :
    prev node = before.getLast? := by
  have hback : Chain prev tail (after.reverse ++ node :: before.reverse) := by
    simpa using hlist.backward
  rw [hback.after.head_eq, List.head?_reverse]

/-- Forward and backward links of queued nodes are inverse to each other. -/
theorem DoublyLinked.next_eq_some_iff {other : α}
    (hlist : DoublyLinked next prev head tail nodes)
    (hnode : node ∈ nodes) (hother : other ∈ nodes) :
    next node = some other ↔ prev other = some node := by
  constructor
  · intro hnext
    obtain ⟨before, after, rfl⟩ := List.append_of_mem hnode
    rw [hlist.next_eq] at hnext
    obtain ⟨rest, rfl⟩ := List.head?_eq_some_iff.mp hnext
    have hsplit : DoublyLinked next prev head tail
        ((before ++ [node]) ++ other :: rest) := by
      simpa using hlist
    simpa using hsplit.prev_eq
  · intro hprev
    obtain ⟨before, after, rfl⟩ := List.append_of_mem hother
    rw [hlist.prev_eq] at hprev
    obtain ⟨front, rfl⟩ := List.getLast?_eq_some_iff.mp hprev
    have hsplit : DoublyLinked next prev head tail
        (front ++ node :: (other :: after)) := by
      simpa using hlist
    simpa using hsplit.next_eq

theorem DoublyLinked.prev_head
    (hlist : DoublyLinked next prev head tail nodes) (hhead : head = some node) :
    prev node = none := by
  rw [hlist.head_eq] at hhead
  obtain ⟨rest, rfl⟩ := List.head?_eq_some_iff.mp hhead
  have hsplit : DoublyLinked next prev head tail ([] ++ node :: rest) := hlist
  exact hsplit.prev_eq

theorem DoublyLinked.next_tail
    (hlist : DoublyLinked next prev head tail nodes) (htail : tail = some node) :
    next node = none := by
  rw [hlist.tail_eq] at htail
  obtain ⟨front, rfl⟩ := List.getLast?_eq_some_iff.mp htail
  exact hlist.next_eq

theorem DoublyLinked.head_eq_none_iff
    (hlist : DoublyLinked next prev head tail nodes) :
    head = none ↔ tail = none := by
  rw [hlist.head_eq, hlist.tail_eq]
  simp

variable [DecidableEq α]

/-- Cutting `node` out of a chain and redirecting the link that led to it
leaves the chain of the other nodes. -/
theorem Chain.splice
    (hchain : Chain next head (before ++ node :: after)) :
    Chain (redirect next head before.getLast? (next node)).1
      (redirect next head before.getLast? (next node)).2 (before ++ after) := by
  have hnodup := hchain.nodup
  obtain ⟨middle, hfront, hmiddle, hrest⟩ := path_append.mp hchain
  have hbefore : before.Nodup := (List.nodup_append.mp hnodup).1
  refine path_append.mpr ⟨next node, hfront.redirect hbefore (next node), ?_⟩
  apply hrest.congr
  intro other hother
  apply redirect_fst_of_notMem
  intro hlast
  have hmem : other ∈ before := List.mem_of_getLast? hlast
  exact (List.nodup_append.mp hnodup).2.2 other hmem other (by simp [hother]) rfl

theorem DoublyLinked.splice
    (hlist : DoublyLinked next prev head tail (before ++ node :: after)) :
    DoublyLinked (redirect next head (prev node) (next node)).1
      (redirect prev tail (next node) (prev node)).1
      (redirect next head (prev node) (next node)).2
      (redirect prev tail (next node) (prev node)).2 (before ++ after) where
  forward := by
    rw [hlist.prev_eq]
    exact hlist.forward.splice
  backward := by
    have hback : Chain prev tail (after.reverse ++ node :: before.reverse) := by
      simpa using hlist.backward
    have hspliced := hback.splice
    rw [List.getLast?_reverse, ← hlist.next_eq] at hspliced
    simpa using hspliced

theorem DoublyLinked.update_of_notMem
    (hlist : DoublyLinked next prev head tail nodes) (hnode : node ∉ nodes)
    (nextLink prevLink : Option α) :
    DoublyLinked (Function.update next node nextLink)
      (Function.update prev node prevLink) head tail nodes where
  forward := hlist.forward.update_of_notMem hnode nextLink
  backward := hlist.backward.update_of_notMem (by simpa using hnode) prevLink

theorem DoublyLinked.append
    (hlist : DoublyLinked next prev head tail nodes) (hnode : node ∉ nodes) :
    DoublyLinked (redirect (Function.update next node none) head tail (some node)).1
      (Function.update prev node tail)
      (redirect (Function.update next node none) head tail (some node)).2
      (some node) (nodes ++ [node]) where
  forward := by
    have hfront : Path (Function.update next node none) head nodes none :=
      hlist.forward.update_of_notMem hnode none
    refine path_append.mpr ⟨some node, ?_, rfl, ?_⟩
    · rw [hlist.tail_eq]
      exact hfront.redirect hlist.nodup (some node)
    · rw [path_nil, redirect_fst_of_notMem]
      · exact Function.update_self node none next
      · rw [hlist.tail_eq]
        intro hlast
        exact hnode (List.mem_of_getLast? hlast)
  backward := by
    rw [List.reverse_append, List.reverse_singleton, List.singleton_append]
    refine ⟨rfl, ?_⟩
    rw [Function.update_self]
    exact hlist.backward.update_of_notMem (by simpa using hnode) tail

end Splicing

end IntrusiveList
