import NanoMatch.OrderBook

/-!
# What a book represents

`BookShape slab book queues` relates the level arrays, the cursors and the
index of a book to the queues of resting slots.  It says nothing about cached
aggregates or quantities, so it survives wrapped totals and equal order ids;
`BookRep` adds that no resting order is empty.

A slot of a queue carries its side and its price, which determine the level.
Hence the queues of one book are disjoint, and an operation on one level
leaves every other level alone.
-/

namespace NanoMatch

open IntrusiveList

/-- The resting slots of a book, level by level. -/
abbrev Queues := BookSide → ℕ → List Slot

namespace Queues

def set (queues : Queues) (side : BookSide) (i : ℕ) (slots : List Slot) : Queues :=
  fun side' j => if side' = side ∧ j = i then slots else queues side' j

@[simp] theorem set_same (queues : Queues) (side : BookSide) (i : ℕ)
    (slots : List Slot) : queues.set side i slots side i = slots := by
  simp [set]

theorem set_of_ne (queues : Queues) {side side' : BookSide} {i j : ℕ}
    (slots : List Slot) (hne : ¬ (side' = side ∧ j = i)) :
    queues.set side i slots side' j = queues side' j := by
  simp [set, hne]

theorem set_eq_self {queues : Queues} {side : BookSide} {i : ℕ}
    {slots : List Slot} (hslots : queues side i = slots) :
    queues.set side i slots = queues := by
  funext side' j
  by_cases hlevel : side' = side ∧ j = i
  · obtain ⟨rfl, rfl⟩ := hlevel
    simp [hslots]
  · exact set_of_ne queues slots hlevel

theorem mem_set_append {queues : Queues} {side side' : BookSide} {i j : ℕ}
    {slots : List Slot} {slot : Slot} (hslot : slot ∈ queues side' j) :
    slot ∈ queues.set side i (queues side i ++ slots) side' j := by
  by_cases hlevel : side' = side ∧ j = i
  · obtain ⟨rfl, rfl⟩ := hlevel
    rw [set_same]
    exact List.mem_append_left _ hslot
  · rw [set_of_ne _ _ hlevel]
    exact hslot

/-- One level of one of several books is replaced. -/
theorem update_set {ι : Type*} [DecidableEq ι] (queues : ι → Queues) (book : ι)
    (side : BookSide) (level : ℕ) (slots : List Slot) (book' : ι) (side' : BookSide) (i : ℕ) :
    Function.update queues book ((queues book).set side level slots) book' side' i =
      if book' = book ∧ side' = side ∧ i = level then slots else queues book' side' i := by
  by_cases hsame : book' = book
  · subst hsame
    simp [set]
  · simp [hsame]

end Queues

/-- Priority of level indices: bids are better above, asks below. -/
def BookSide.Better : BookSide → ℕ → ℕ → Prop
  | .bid, i, j => j < i
  | .ask, i, j => i < j

/-- A cursor points to the best non-empty level. -/
def IsBest (side : BookSide) (queues : ℕ → List Slot) : Option ℕ → Prop
  | none => ∀ i, queues i = []
  | some best => queues best ≠ [] ∧ ∀ i, queues i ≠ [] → ¬ side.Better i best

/-- The slot belongs to the level by its own side and price. -/
structure Placed (slab : Slab) (grid : PriceGrid) (side : BookSide) (i : ℕ)
    (slot : Slot) : Prop where
  range : i < grid.numLevels
  side_eq : (slab slot).side.bookSide = side
  price_eq : (slab slot).price = grid.indexToPrice i

/-- The level arrays hold exactly the given queues. -/
structure LevelsRep (slab : Slab) (grid : PriceGrid)
    (levels : BookSide → ℕ → PriceLevel) (queues : Queues) : Prop where
  linked : ∀ side i, Queue slab (levels side i) (queues side i)
  placed : ∀ side i, ∀ slot ∈ queues side i, Placed slab grid side i slot
  priced : ∀ side i, (levels side i).price = grid.indexToPrice i

structure BookShape (slab : Slab) (book : OrderBook) (queues : Queues) : Prop
    extends LevelsRep slab book.grid book.sideLevels queues where
  best : ∀ side, IsBest side (queues side) (book.bestIdx side)
  indexed : ∀ id slot, book.findOrder id = some slot →
    (∃ side i, slot ∈ queues side i) ∧ (slab slot).orderId = id

/-- The representation relation of a book between two operations. -/
structure BookRep (slab : Slab) (book : OrderBook) (queues : Queues) : Prop
    extends BookShape slab book queues where
  positive : ∀ side i, ∀ slot ∈ queues side i, 0 < (slab slot).remaining

theorem Placed.congr {slab slab' : Slab} {grid : PriceGrid} {side : BookSide}
    {i : ℕ} {slot : Slot} (hplaced : Placed slab grid side i slot)
    (hterms : (slab' slot).terms = (slab slot).terms) :
    Placed slab' grid side i slot where
  range := hplaced.range
  side_eq := by
    rw [show (slab' slot).side = (slab slot).side from congrArg Order.Terms.side hterms]
    exact hplaced.side_eq
  price_eq := by
    rw [show (slab' slot).price = (slab slot).price from congrArg Order.Terms.price hterms]
    exact hplaced.price_eq

/-! ## Field lemmas of the book updates -/

namespace OrderBook

variable (book : OrderBook) (side side' : BookSide) (i j : ℕ)
  (level : PriceLevel) (best : Option ℕ)

@[simp] theorem sideLevels_setLevel_same :
    (book.setLevel side i level).sideLevels side i = level := by
  cases side <;> simp [setLevel, sideLevels]

theorem sideLevels_setLevel_of_ne (hne : ¬ (side' = side ∧ j = i)) :
    (book.setLevel side i level).sideLevels side' j = book.sideLevels side' j := by
  cases side <;> cases side' <;> simp_all [setLevel, sideLevels, Function.update]

@[simp] theorem bestIdx_setLevel :
    (book.setLevel side i level).bestIdx side' = book.bestIdx side' := by
  cases side <;> cases side' <;> rfl

@[simp] theorem grid_setLevel : (book.setLevel side i level).grid = book.grid := by
  cases side <;> rfl

@[simp] theorem orderIndex_setLevel :
    (book.setLevel side i level).orderIndex = book.orderIndex := by
  cases side <;> rfl

@[simp] theorem instrumentId_setLevel :
    (book.setLevel side i level).instrumentId = book.instrumentId := by
  cases side <;> rfl

@[simp] theorem sideLevels_setBestIdx :
    (book.setBestIdx side best).sideLevels side' = book.sideLevels side' := by
  cases side <;> cases side' <;> rfl

@[simp] theorem bestIdx_setBestIdx_same :
    (book.setBestIdx side best).bestIdx side = best := by
  cases side <;> rfl

theorem bestIdx_setBestIdx_of_ne (hne : side' ≠ side) :
    (book.setBestIdx side best).bestIdx side' = book.bestIdx side' := by
  cases side <;> cases side' <;> first | rfl | exact absurd rfl hne

@[simp] theorem grid_setBestIdx : (book.setBestIdx side best).grid = book.grid := by
  cases side <;> rfl

@[simp] theorem orderIndex_setBestIdx :
    (book.setBestIdx side best).orderIndex = book.orderIndex := by
  cases side <;> rfl

@[simp] theorem instrumentId_setBestIdx :
    (book.setBestIdx side best).instrumentId = book.instrumentId := by
  cases side <;> rfl

end OrderBook

/-! ## Cursors -/

section Cursors

open OrderBook

variable {levels : ℕ → PriceLevel} {queues queues' : ℕ → List Slot}

theorem IsBest.unique {side : BookSide} {queues : ℕ → List Slot} {best best' : Option ℕ}
    (hbest : IsBest side queues best) (hbest' : IsBest side queues best') : best = best' := by
  cases best with
  | none =>
      cases best' with
      | none => rfl
      | some i' => exact absurd (hbest i') hbest'.1
  | some i =>
      cases best' with
      | none => exact absurd (hbest' i) hbest.1
      | some i' =>
          have hle := hbest.2 i' hbest'.1
          have hge := hbest'.2 i hbest.1
          congr 1
          cases side <;> simp only [BookSide.Better, not_lt] at hle hge <;> omega

theorem IsBest.congr {side : BookSide} {best : Option ℕ}
    (hbest : IsBest side queues best)
    (hsame : ∀ i, queues' i = [] ↔ queues i = []) : IsBest side queues' best := by
  cases best with
  | none =>
      intro i
      exact (hsame i).mpr (hbest i)
  | some best =>
      constructor
      · intro hempty
        exact hbest.1 ((hsame best).mp hempty)
      · intro i hi
        apply hbest.2 i
        intro hempty
        exact hi ((hsame i).mpr hempty)

theorem scanDown_spec (hlevels : ∀ i, levelEmpty (levels i) = true ↔ queues i = [])
    (top : ℕ) :
    match scanDown levels top with
    | none => ∀ i ≤ top, queues i = []
    | some best => best ≤ top ∧ queues best ≠ [] ∧
        ∀ i ≤ top, queues i ≠ [] → i ≤ best := by
  induction top with
  | zero =>
      unfold scanDown
      by_cases hempty : levelEmpty (levels 0) = true
      · simpa [hempty] using (hlevels 0).mp hempty
      · have hne : queues 0 ≠ [] := fun h => hempty ((hlevels 0).mpr h)
        simp [hempty, hne]
  | succ top ih =>
      unfold scanDown
      by_cases hempty : levelEmpty (levels (top + 1)) = true
      · have hnil := (hlevels (top + 1)).mp hempty
        simp only [hempty, if_true]
        cases hscan : scanDown levels top with
        | none =>
            simp only [hscan] at ih ⊢
            intro i hi
            rcases Nat.lt_or_ge top i with hlt | hle
            · obtain rfl : i = top + 1 := by omega
              exact hnil
            · exact ih i hle
        | some best =>
            simp only [hscan] at ih ⊢
            refine ⟨by omega, ih.2.1, ?_⟩
            intro i hi hne
            rcases Nat.lt_or_ge top i with hlt | hle
            · obtain rfl : i = top + 1 := by omega
              exact absurd hnil hne
            · exact ih.2.2 i hle hne
      · have hne : queues (top + 1) ≠ [] := fun h => hempty ((hlevels _).mpr h)
        simp only [hempty, Bool.false_eq_true, if_false]
        exact ⟨le_rfl, hne, fun i hi _ => hi⟩

theorem scanUp_spec (hlevels : ∀ i, levelEmpty (levels i) = true ↔ queues i = [])
    (bottom count : ℕ) :
    match scanUp levels bottom count with
    | none => ∀ i, bottom ≤ i → i < bottom + count → queues i = []
    | some best => bottom ≤ best ∧ queues best ≠ [] ∧
        ∀ i, bottom ≤ i → i < bottom + count → queues i ≠ [] → best ≤ i := by
  induction count generalizing bottom with
  | zero =>
      intro i hle hlt
      omega
  | succ count ih =>
      unfold scanUp
      by_cases hempty : levelEmpty (levels bottom) = true
      · have hnil := (hlevels bottom).mp hempty
        simp only [hempty, if_true]
        have htail := ih (bottom + 1)
        cases hscan : scanUp levels (bottom + 1) count with
        | none =>
            simp only [hscan] at htail ⊢
            intro i hle hlt
            rcases Nat.eq_or_lt_of_le hle with heq | hgt
            · rw [← heq]
              exact hnil
            · exact htail i hgt (by omega)
        | some best =>
            simp only [hscan] at htail ⊢
            refine ⟨by omega, htail.2.1, ?_⟩
            intro i hle hlt hne
            rcases Nat.eq_or_lt_of_le hle with heq | hgt
            · rw [← heq] at hne
              exact absurd hnil hne
            · exact htail.2.2 i hgt (by omega) hne
      · have hne : queues bottom ≠ [] := fun h => hempty ((hlevels _).mpr h)
        simp only [hempty, Bool.false_eq_true, if_false]
        exact ⟨le_rfl, hne, fun i hi _ _ => hi⟩

theorem isBest_scanDown (hlevels : ∀ i, levelEmpty (levels i) = true ↔ queues i = [])
    {drained : ℕ} (hbelow : ∀ i, queues i ≠ [] → i < drained) :
    IsBest .bid queues (if drained = 0 then none else scanDown levels (drained - 1)) := by
  by_cases hzero : drained = 0
  · rw [if_pos hzero]
    intro i
    by_contra hi
    have hlt := hbelow i hi
    omega
  · rw [if_neg hzero]
    have hscan := scanDown_spec hlevels (drained - 1)
    cases hresult : scanDown levels (drained - 1) with
    | none =>
        simp only [hresult] at hscan
        intro i
        by_contra hi
        have hlt := hbelow i hi
        exact hi (hscan i (by omega))
    | some best =>
        simp only [hresult] at hscan
        refine ⟨hscan.2.1, ?_⟩
        intro i hi
        have hlt := hbelow i hi
        have hle := hscan.2.2 i (by omega) hi
        simp only [BookSide.Better]
        omega

theorem isBest_scanUp (hlevels : ∀ i, levelEmpty (levels i) = true ↔ queues i = [])
    {drained n : ℕ} (habove : ∀ i, queues i ≠ [] → drained < i ∧ i < n) :
    IsBest .ask queues
      (if drained = n - 1 then none else scanUp levels (drained + 1) (n - (drained + 1))) := by
  by_cases hlast : drained = n - 1
  · rw [if_pos hlast]
    intro i
    by_contra hi
    have hlt := habove i hi
    omega
  · rw [if_neg hlast]
    have hscan := scanUp_spec hlevels (drained + 1) (n - (drained + 1))
    cases hresult : scanUp levels (drained + 1) (n - (drained + 1)) with
    | none =>
        simp only [hresult] at hscan
        intro i
        by_contra hi
        have hlt := habove i hi
        exact hi (hscan i (by omega) (by omega))
    | some best =>
        simp only [hresult] at hscan
        refine ⟨hscan.2.1, ?_⟩
        intro i hi
        have hlt := habove i hi
        have hle := hscan.2.2 i (by omega) (by omega) hi
        simp only [BookSide.Better]
        omega

/-- Draining one level and advancing the cursor. -/
theorem isBest_cursorAfterDrain (queues queues' : ℕ → List Slot)
    {book : OrderBook} {side : BookSide} {drained : ℕ}
    (hlevels : ∀ i, levelEmpty (book.sideLevels side i) = true ↔ queues' i = [])
    (hrange : ∀ i, queues i ≠ [] → i < book.grid.numLevels)
    (hbest : IsBest side queues (book.bestIdx side))
    (hdrained : queues drained ≠ []) (hempty : queues' drained = [])
    (hother : ∀ i, i ≠ drained → queues' i = queues i) :
    IsBest side queues' (book.cursorAfterDrain side drained) := by
  have hnonempty : ∀ i, queues' i ≠ [] → i ≠ drained ∧ queues i ≠ [] := by
    intro i hi
    have hne : i ≠ drained := by
      intro heq
      rw [heq] at hi
      exact hi hempty
    rw [hother i hne] at hi
    exact ⟨hne, hi⟩
  unfold cursorAfterDrain
  by_cases hpoint : book.bestIdx side = some drained
  · -- the cursor stood on the drained level, so every other level is worse
    rw [if_neg (by simpa using hpoint)]
    rw [hpoint] at hbest
    have hworse : ∀ i, queues' i ≠ [] →
        i ≠ drained ∧ ¬ side.Better i drained ∧ i < book.grid.numLevels := by
      intro i hi
      rcases hnonempty i hi with ⟨hne, hold⟩
      exact ⟨hne, hbest.2 i hold, hrange i hold⟩
    cases side with
    | bid =>
        apply isBest_scanDown hlevels
        intro i hi
        have hi' := hworse i hi
        simp only [BookSide.Better] at hi'
        omega
    | ask =>
        apply isBest_scanUp hlevels
        intro i hi
        have hi' := hworse i hi
        simp only [BookSide.Better] at hi'
        omega
  · rw [if_pos hpoint]
    cases hcursor : book.bestIdx side with
    | none =>
        rw [hcursor] at hbest
        exact absurd (hbest drained) hdrained
    | some best =>
        rw [hcursor] at hbest hpoint
        have hne : best ≠ drained := by
          intro heq
          exact hpoint (by rw [heq])
        constructor
        · rw [hother best hne]
          exact hbest.1
        · intro i hi
          exact hbest.2 i (hnonempty i hi).2

theorem isBest_cursorAfterAdd {book : OrderBook} {side : BookSide} {idx : ℕ}
    (hbest : IsBest side queues (book.bestIdx side))
    (hnonempty : queues' idx ≠ [])
    (hother : ∀ i, i ≠ idx → queues' i = queues i) :
    IsBest side queues' (book.cursorAfterAdd side idx) := by
  unfold cursorAfterAdd
  cases hcursor : book.bestIdx side with
  | none =>
      rw [hcursor] at hbest
      refine ⟨hnonempty, ?_⟩
      intro i hi
      have heq : i = idx := by
        by_contra hne
        exact hi ((hother i hne).trans (hbest i))
      subst heq
      cases side <;> simp [BookSide.Better]
  | some best =>
      rw [hcursor] at hbest
      have hkeep : queues' best ≠ [] := by
        by_cases heq : best = idx
        · rw [heq]
          exact hnonempty
        · rw [hother best heq]
          exact hbest.1
      have hcases : ∀ i, queues' i ≠ [] → i = idx ∨ ¬ side.Better i best := by
        intro i hi
        by_cases heq : i = idx
        · exact Or.inl heq
        · rw [hother i heq] at hi
          exact Or.inr (hbest.2 i hi)
      cases side with
      | bid =>
          simp only [BookSide.Better] at hcases
          simp only
          split_ifs with hlt
          · refine ⟨hnonempty, fun i hi => ?_⟩
            have := hcases i hi
            simp only [BookSide.Better]
            omega
          · refine ⟨hkeep, fun i hi => ?_⟩
            have := hcases i hi
            simp only [BookSide.Better]
            omega
      | ask =>
          simp only [BookSide.Better] at hcases
          simp only
          split_ifs with hlt
          · refine ⟨hnonempty, fun i hi => ?_⟩
            have := hcases i hi
            simp only [BookSide.Better]
            omega
          · refine ⟨hkeep, fun i hi => ?_⟩
            have := hcases i hi
            simp only [BookSide.Better]
            omega

end Cursors

end NanoMatch
