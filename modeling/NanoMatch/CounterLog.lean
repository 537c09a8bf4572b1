import Mathlib.Data.List.Basic
import Mathlib.Tactic

/-!
# Counters read through a log

A counter with one writer is published by storing encodings of it, and the log
of these stores is what other threads can see.  A load returns some logged value
which is not older than the one last seen; it need not be the newest.  Since the
counter only grows, such a load still gives a lower bound which never gets
worse.
-/

namespace CounterLog

variable {α : Type*} {encode : ℕ → α} {log : List α} {count seen observed : ℕ}

/-- A load which returns the entry at `position`, if it is not older than the
one last seen. -/
def observe (log : List α) (seen position : ℕ) : Option α :=
  if seen ≤ position then log[position]? else none

theorem le_of_observe {position : ℕ} {value : α}
    (hvalue : observe log seen position = some value) : seen ≤ position := by
  unfold observe at hvalue
  split_ifs at hvalue with hposition
  exact hposition

/-- The log holds encodings of a counter which never decreased and is now at
`count`; the entry last seen encodes `observed`. -/
def Tracks (encode : ℕ → α) (log : List α) (count seen observed : ℕ) : Prop :=
  ∃ counts : List ℕ, log = counts.map encode ∧ counts.Pairwise (· ≤ ·) ∧
    (∀ c ∈ counts, c ≤ count) ∧ counts[seen]? = some observed

namespace Tracks

theorem single (encode : ℕ → α) (count : ℕ) : Tracks encode [encode count] count 0 count :=
  ⟨[count], rfl, List.pairwise_singleton _ _, by simp, rfl⟩

theorem observed_le (htracks : Tracks encode log count seen observed) : observed ≤ count := by
  rcases htracks with ⟨counts, _, _, hle, hseen⟩
  exact hle observed (List.mem_of_getElem? hseen)

theorem entry (htracks : Tracks encode log count seen observed) :
    log[seen]? = some (encode observed) := by
  rcases htracks with ⟨counts, hlog, _, _, hseen⟩
  rw [hlog, List.getElem?_map, hseen]
  rfl

/-- The entry last seen can be loaded again. -/
theorem observe_seen (htracks : Tracks encode log count seen observed) :
    observe log seen seen = some (encode observed) := by
  unfold observe
  rw [if_pos le_rfl, htracks.entry]

theorem store (htracks : Tracks encode log count seen observed) {count' : ℕ}
    (hgrows : count ≤ count') :
    Tracks encode (log ++ [encode count']) count' seen observed := by
  rcases htracks with ⟨counts, hlog, hsorted, hle, hseen⟩
  refine ⟨counts ++ [count'], by simp [hlog], ?_, ?_, ?_⟩
  · rw [List.pairwise_append]
    refine ⟨hsorted, List.pairwise_singleton _ _, ?_⟩
    intro c hc c' hc'
    rw [List.mem_singleton] at hc'
    have hcount := hle c hc
    omega
  · intro c hc
    rcases List.mem_append.mp hc with hold | hnew
    · exact (hle c hold).trans hgrows
    · exact (List.mem_singleton.mp hnew).le
  · rw [List.getElem?_append_left]
    · exact hseen
    · exact (List.getElem?_eq_some_iff.mp hseen).1

/-- A load sees a count between the last one seen and the current one. -/
theorem load (htracks : Tracks encode log count seen observed) {position : ℕ} {value : α}
    (hvalue : observe log seen position = some value) :
    ∃ observed', value = encode observed' ∧ observed ≤ observed' ∧ observed' ≤ count ∧
      Tracks encode log count position observed' := by
  rcases htracks with ⟨counts, hlog, hsorted, hle, hseen⟩
  unfold observe at hvalue
  split_ifs at hvalue with hposition
  rw [hlog, List.getElem?_map, Option.map_eq_some_iff] at hvalue
  rcases hvalue with ⟨observed', hentry, hencode⟩
  refine ⟨observed', hencode.symm, ?_, hle observed' (List.mem_of_getElem? hentry),
    counts, hlog, hsorted, hle, hentry⟩
  rcases hposition.lt_or_eq with hlt | heq
  · rcases List.getElem?_eq_some_iff.mp hseen with ⟨hseenLt, hseenEq⟩
    rcases List.getElem?_eq_some_iff.mp hentry with ⟨hentryLt, hentryEq⟩
    have hordered := List.pairwise_iff_getElem.mp hsorted seen position hseenLt hentryLt hlt
    omega
  · rw [heq, hentry, Option.some.injEq] at hseen
    exact hseen.ge

end Tracks

/-! ## Stores which carry a view -/

/-- A store of a counter: the count, and how far its thread had read the log of
another counter.  An acquire load of the entry hands that position on. -/
structure Stamp where
  count : ℕ
  seen : ℕ

theorem entry_of_extends {stamps stamps' : List Stamp} {position : ℕ} {stamp : Stamp}
    (hextends : stamps <+: stamps') (hstamp : stamps[position]? = some stamp) :
    stamps'[position]? = some stamp := by
  obtain ⟨hbound, hentry⟩ := List.getElem?_eq_some_iff.mp hstamp
  rw [List.prefix_iff_getElem?.mp hextends position hbound, hentry]

/-- The log holds encodings of the stamped counts, which never decreased and are
now at `count`. -/
structure Stamped (encode : ℕ → α) (log : List α) (stamps : List Stamp) (count : ℕ) :
    Prop where
  entries : log = stamps.map fun stamp => encode stamp.count
  sorted : stamps.Pairwise fun earlier later => earlier.count ≤ later.count
  last : ∃ stamp, stamps.getLast? = some stamp ∧ stamp.count = count

namespace Stamped

variable {stamps : List Stamp} {stamp stamp' : Stamp} {position position' : ℕ}

theorem single (encode : ℕ → α) (stamp : Stamp) :
    Stamped encode [encode stamp.count] [stamp] stamp.count :=
  ⟨rfl, List.pairwise_singleton _ _, stamp, rfl, rfl⟩

theorem length_eq (hstamped : Stamped encode log stamps count) :
    log.length = stamps.length := by
  rw [hstamped.entries, List.length_map]

theorem exists_stamp (hstamped : Stamped encode log stamps count) {value : α}
    (hentry : log[position]? = some value) : ∃ stamp, stamps[position]? = some stamp := by
  rw [hstamped.entries, List.getElem?_map, Option.map_eq_some_iff] at hentry
  obtain ⟨stamp, hstamp, _⟩ := hentry
  exact ⟨stamp, hstamp⟩

/-- Later entries hold larger counts. -/
theorem count_mono (hstamped : Stamped encode log stamps count)
    (hstamp : stamps[position]? = some stamp) (hstamp' : stamps[position']? = some stamp')
    (hle : position ≤ position') : stamp.count ≤ stamp'.count := by
  rcases hle.lt_or_eq with hlt | heq
  · rcases List.getElem?_eq_some_iff.mp hstamp with ⟨hbound, hentry⟩
    rcases List.getElem?_eq_some_iff.mp hstamp' with ⟨hbound', hentry'⟩
    have hordered := List.pairwise_iff_getElem.mp hstamped.sorted position position' hbound
      hbound' hlt
    rwa [hentry, hentry'] at hordered
  · rw [heq, hstamp', Option.some.injEq] at hstamp
    rw [hstamp]

/-- The newest entry holds the current count. -/
theorem newest (hstamped : Stamped encode log stamps count)
    (hstamp : stamps[position]? = some stamp) (hnewest : log.length - 1 ≤ position) :
    stamp.count = count := by
  rcases hstamped.last with ⟨final, hfinal, hcount⟩
  have hbound := (List.getElem?_eq_some_iff.mp hstamp).1
  have hposition : position = stamps.length - 1 := by
    rw [hstamped.length_eq] at hnewest
    omega
  rw [List.getLast?_eq_getElem?, ← hposition, hstamp, Option.some.injEq] at hfinal
  rw [hfinal, hcount]

theorem exists_newest (hstamped : Stamped encode log stamps count) :
    ∃ stamp, stamps[log.length - 1]? = some stamp ∧ stamp.count = count := by
  rcases hstamped.last with ⟨final, hfinal, hcount⟩
  rw [List.getLast?_eq_getElem?, ← hstamped.length_eq] at hfinal
  exact ⟨final, hfinal, hcount⟩

theorem count_le (hstamped : Stamped encode log stamps count)
    (hstamp : stamps[position]? = some stamp) : stamp.count ≤ count := by
  rcases hstamped.exists_newest with ⟨final, hfinal, hcount⟩
  have hbound := (List.getElem?_eq_some_iff.mp hstamp).1
  have hle := hstamped.count_mono hstamp hfinal (by rw [hstamped.length_eq]; omega)
  omega

theorem store (hstamped : Stamped encode log stamps count) (hgrows : count ≤ stamp.count) :
    Stamped encode (log ++ [encode stamp.count]) (stamps ++ [stamp]) stamp.count := by
  refine ⟨by simp [hstamped.entries], ?_, stamp, List.getLast?_concat, rfl⟩
  rw [List.pairwise_append]
  refine ⟨hstamped.sorted, List.pairwise_singleton _ _, ?_⟩
  intro earlier hearlier later hlater
  rcases List.getElem?_of_mem hearlier with ⟨position, hentry⟩
  rw [List.mem_singleton.mp hlater]
  exact (hstamped.count_le hentry).trans hgrows

theorem load (hstamped : Stamped encode log stamps count) {value : α}
    (hvalue : observe log seen position = some value)
    (hstamp : stamps[position]? = some stamp) : value = encode stamp.count := by
  unfold observe at hvalue
  rw [if_pos (le_of_observe hvalue), hstamped.entries, List.getElem?_map, hstamp] at hvalue
  exact (Option.some.inj hvalue).symm

theorem tracks (hstamped : Stamped encode log stamps count)
    (hstamp : stamps[position]? = some stamp) :
    Tracks encode log count position stamp.count := by
  refine ⟨stamps.map Stamp.count, ?_, ?_, ?_, ?_⟩
  · rw [hstamped.entries, List.map_map]
    rfl
  · exact List.pairwise_map.mpr hstamped.sorted
  · intro c hc
    rcases List.mem_map.mp hc with ⟨entry, hentry, rfl⟩
    rcases List.getElem?_of_mem hentry with ⟨index, hindex⟩
    exact hstamped.count_le hindex
  · rw [List.getElem?_map, hstamp]
    rfl

end Stamped

end CounterLog
