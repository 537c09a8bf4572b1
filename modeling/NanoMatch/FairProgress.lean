import Mathlib.Order.OrderIsoNat

/-!
# Progress under fair schedules

A schedule is an infinite sequence of moves, and it is fair if every turn comes
again and again.  The rule below has two measures.  The rank is never raised by an
allowed move.  While it stays as it is a prompt move does not raise the detour either,
and the move whose turn it is lowers one of the two.  Moves which are not prompt may
lengthen the detour, so it is enough that the moves become prompt when the rank
stands still.
-/

namespace FairRun

variable {σ α κ R D : Type*} {step : σ → α → σ} {start : σ} {schedule : ℕ → α}

/-- The state after the first `n` moves of the schedule. -/
def stateAt (step : σ → α → σ) (start : σ) (schedule : ℕ → α) : ℕ → σ
  | 0 => start
  | n + 1 => step (stateAt step start schedule n) (schedule n)

/-- Every turn comes again and again. -/
def Fair (turn : α → κ → Prop) (schedule : ℕ → α) : Prop :=
  ∀ k n, ∃ m, n ≤ m ∧ turn (schedule m) k

theorem invariant {inv : σ → Prop} {allowed : α → Prop}
    (hstep : ∀ s a, inv s → allowed a → inv (step s a)) (hstart : inv start)
    (hallowed : ∀ n, allowed (schedule n)) (n : ℕ) : inv (stateAt step start schedule n) := by
  induction n with
  | zero => exact hstart
  | succ n ih => exact hstep _ _ ih (hallowed n)

section Reaches

variable [PartialOrder R] [WellFoundedLT R] [PartialOrder D] [WellFoundedLT D]

/-- A measure which is not raised from some time on stands still in the end. -/
theorem settles (measure : ℕ → D) {n : ℕ} (hle : ∀ m, n ≤ m → measure (m + 1) ≤ measure m) :
    ∃ settled, n ≤ settled ∧ ∀ m, settled ≤ m → measure m = measure settled := by
  have hantitone : Antitone fun m => measure (n + m) := by
    apply antitone_nat_of_succ_le
    intro m
    exact hle (n + m) (by omega)
  obtain ⟨k, hk⟩ := WellFoundedLT.antitone_chain_condition hantitone
  refine ⟨n + k, by omega, ?_⟩
  intro m hm
  have heq := hk (m - n) (by omega)
  rw [show n + (m - n) = m by omega] at heq
  exact heq.symm

theorem Fair.reaches {inv : σ → Prop} {allowed prompt : α → Prop} {turn : α → κ → Prop}
    (goal : σ → Prop) (rank : σ → R) (detour : σ → D) (next : R → D → κ)
    (hinv : ∀ s a, inv s → allowed a → inv (step s a))
    (hrank : ∀ s a, inv s → allowed a → rank (step s a) ≤ rank s)
    (hdetour : ∀ s a, inv s → allowed a → prompt a → rank (step s a) = rank s →
      detour (step s a) ≤ detour s)
    (hnext : ∀ s a, inv s → allowed a → prompt a → ¬ goal s →
      turn a (next (rank s) (detour s)) → rank (step s a) = rank s → detour (step s a) ≠ detour s)
    (hfair : Fair turn schedule) (hstart : inv start) (hallowed : ∀ n, allowed (schedule n))
    (hprompt : ∀ n, (∀ m, n ≤ m → rank (stateAt step start schedule m) =
        rank (stateAt step start schedule n)) → ∃ m, n ≤ m ∧ ∀ k, m ≤ k → prompt (schedule k)) :
    ∃ n, goal (stateAt step start schedule n) := by
  have hinvariant := invariant hinv hstart hallowed
  obtain ⟨ranked, -, hranked⟩ := settles
    (fun n => rank (stateAt step start schedule n)) (n := 0)
    fun m _ => hrank _ (schedule m) (hinvariant m) (hallowed m)
  obtain ⟨quick, hquick, hall⟩ := hprompt ranked hranked
  have hsame : ∀ m, quick ≤ m → rank (stateAt step start schedule (m + 1)) =
      rank (stateAt step start schedule m) := by
    intro m hm
    rw [hranked (m + 1) (by omega), hranked m (by omega)]
  obtain ⟨settled, hsettled, hstill⟩ := settles
    (fun n => detour (stateAt step start schedule n)) (n := quick)
    fun m hm => hdetour _ (schedule m) (hinvariant m) (hallowed m) (hall m hm) (hsame m hm)
  -- Whose turn it is no longer changes, and it would lower one of the measures.
  obtain ⟨m, hm, hturn⟩ := hfair
    (next (rank (stateAt step start schedule settled))
      (detour (stateAt step start schedule settled))) settled
  refine ⟨m, ?_⟩
  by_contra hgoal
  apply hnext _ (schedule m) (hinvariant m) (hallowed m) (hall m (by omega)) hgoal
  · have hlater := hranked settled (by omega)
    rw [← hranked m (by omega)] at hlater
    rw [hlater, ← hstill m hm] at hturn
    exact hturn
  · exact hsame m (by omega)
  · have hafter := hstill (m + 1) (by omega)
    have hbefore := hstill m hm
    exact hafter.trans hbefore.symm

end Reaches

/-! ## Progress by one party's own moves -/

/-- A party whose own moves lower its work, while the moves of the others do not raise it, is
done after as many of its own moves as there was work. -/
theorem reaches_within {inv done : σ → Prop} (own : α → Bool) (work : σ → ℕ)
    (hinv : ∀ s a, inv s → inv (step s a))
    (hothers : ∀ s a, inv s → own a = false → work (step s a) ≤ work s)
    (hown : ∀ s a, inv s → own a = true → ¬ done s → work (step s a) < work s)
    (hdone : ∀ s, inv s → work s = 0 → done s) (hstart : inv start) (moves : List α)
    (henough : work start ≤ moves.countP own) :
    ∃ before after, moves = before ++ after ∧ done (before.foldl step start) ∧
      before.countP own ≤ work start := by
  induction moves generalizing start with
  | nil =>
      rw [List.countP_nil] at henough
      exact ⟨[], [], rfl, hdone start hstart (by omega), by simp⟩
  | cons move moves ih =>
      by_cases hgoal : done start
      · exact ⟨[], move :: moves, rfl, hgoal, by simp⟩
      · -- the work left is covered by the moves left, whoever has moved
        have hstep : work (step start move) + [move].countP own ≤ work start := by
          cases hmove : own move with
          | false =>
              have hle := hothers start move hstart hmove
              simp only [List.countP_singleton, hmove]
              exact hle
          | true =>
              have hlt := hown start move hstart hmove hgoal
              simp only [List.countP_singleton, hmove]
              exact hlt
        rw [← List.singleton_append, List.countP_append] at henough
        obtain ⟨before, after, hmoves, hreached, hcount⟩ :=
          ih (hinv start move hstart) (by omega)
        refine ⟨move :: before, after, by rw [hmoves, List.cons_append], hreached, ?_⟩
        rw [← List.singleton_append, List.countP_append]
        omega

end FairRun
