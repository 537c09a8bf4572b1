import NanoMatch.MatchingEngine
import Mathlib.Logic.Relation

/-!
# What a dispatch writes

Whatever path a message takes through the handlers, the engine is changed by a few kinds
of writes only, after at most one order was admitted.  A fact about a field which the
handlers pass through unchanged is proved once for each kind of write.
-/

namespace NanoMatch

open OrderBook

namespace Engine

/-- One write of the handlers, apart from the admission of an order. -/
inductive Write (engine : Engine) : Engine → Prop
  | cancelled (instrumentId : InstrumentId) (book : OrderBook) (slot : Slot) :
      Write engine (engine.setBook instrumentId (cancelOrder engine.slab book (some slot)))
  | added (instrumentId : InstrumentId) (book : OrderBook) (slot : Slot) :
      Write engine (engine.setBook instrumentId (addOrder engine.slab book (some slot)))
  | filled (instrumentId : InstrumentId) (book : OrderBook) (agg rest : Slot)
      (quantity fillQty : Quantity) :
      Write engine
        { engine.setBook instrumentId
            (fillRestingOrder (engine.slab.setQuantity agg quantity) book (some rest) fillQty).2
          with fillsExecuted := engine.fillsExecuted + 1 }
  | posted (kind : ExecKind) (orderId counterpartId : OrderId) (execPrice : Price)
      (execQty leavesQty : Quantity) :
      Write engine (engine.postReport kind orderId counterpartId execPrice execQty leavesQty)
  | released (slot : Slot) : Write engine (engine.release slot)
  | rejected : Write engine engine.countReject

abbrev Writes : Engine → Engine → Prop := Relation.ReflTransGen Write

namespace Writes

variable {engine : Engine}

theorem one {engine' : Engine} (hwrite : Write engine engine') : Writes engine engine' :=
  Relation.ReflTransGen.single hwrite

theorem trade (engine : Engine) (instrumentId : InstrumentId) (book : OrderBook)
    (agg rest : Slot) : Writes engine (engine.trade instrumentId book agg rest) := by
  have hfilled : Writes engine _ := one (.filled instrumentId book agg rest
    ((engine.slab agg).quantity - fillQuantity (engine.slab rest) (engine.slab agg))
    (fillQuantity (engine.slab rest) (engine.slab agg)))
  -- the reports of the maker and of the taker, whatever they say
  have hsettled := fun kind kind' orderId orderId' counterpartId counterpartId' price price'
      quantity quantity' leaves leaves' =>
    (hfilled.tail (.posted kind orderId counterpartId price quantity leaves)).tail
      (.posted kind' orderId' counterpartId' price' quantity' leaves')
  unfold Engine.trade
  simp only
  split
  · exact (hsettled _ _ _ _ _ _ _ _ _ _ _ _).tail (.released rest)
  · exact hsettled _ _ _ _ _ _ _ _ _ _ _ _

theorem sweepFuel (instrumentId : InstrumentId) (agg : Slot) (priceOk : Price → Bool) (fuel : ℕ)
    (engine : Engine) : Writes engine (Engine.sweepFuel instrumentId agg priceOk fuel engine) := by
  induction fuel generalizing engine with
  | zero => exact .refl
  | succ fuel ih =>
      unfold Engine.sweepFuel
      cases hstep : engine.sweepStep instrumentId agg priceOk with
      | none => exact .refl
      | some next =>
          have htrade : Writes engine next := by
            unfold sweepStep at hstep
            split at hstep
            · exact absurd hstep (by simp)
            · split at hstep
              · exact absurd hstep (by simp)
              · split at hstep
                · exact absurd hstep (by simp)
                · split at hstep
                  · exact absurd hstep (by simp)
                  · rcases Option.map_eq_some_iff.mp hstep with ⟨rest, _, rfl⟩
                    exact trade engine instrumentId _ agg rest
          exact htrade.trans (ih next)

theorem matchOrder (engine : Engine) (instrumentId : InstrumentId) (book : OrderBook)
    (slot : Slot) : Writes engine (engine.matchOrder instrumentId book slot) := by
  have hsweep : ∀ priceOk, Writes engine (engine.doSweep instrumentId slot priceOk) :=
    fun priceOk => sweepFuel instrumentId slot priceOk _ engine
  have hreject : Writes engine
      ((engine.postReject (engine.slab slot).orderId (engine.slab slot).quantity).release
        slot).countReject :=
    ((one (.posted _ _ _ _ _ _)).tail (.released slot)).tail .rejected
  have hack : ∀ swept : Engine, Writes engine swept →
      Writes engine ((swept.ackResidual slot).release slot) := by
    intro swept hswept
    unfold ackResidual
    split_ifs
    · exact (hswept.tail (.posted _ _ _ _ _ _)).tail (.released slot)
    · exact hswept.tail (.released slot)
  unfold Engine.matchOrder
  split
  · unfold matchLimit
    simp only
    split_ifs
    · unfold rest
      split
      · exact hsweep _
      · exact (hsweep _).tail (.added instrumentId _ slot)
    · exact (hsweep _).tail (.released slot)
  · exact hack _ (hsweep _)
  · exact hack _ (hsweep _)
  · unfold matchFok
    simp only
    split_ifs
    · exact hreject
    · exact (hsweep _).tail (.released slot)
  · exact hreject

/-- A dispatch is some writes, after at most one admission. -/
theorem dispatch (engine : Engine) (msg : InboundOrderMsg) :
    Writes engine (engine.dispatch msg) ∨
      ∃ slot pool, engine.pool.acquire = some (slot, pool) ∧
        Writes (engine.admitOrder msg slot pool) (engine.dispatch msg) := by
  have hrefuse : Writes engine (engine.postReject msg.orderId msg.quantity).countReject :=
    (one (.posted _ _ _ _ _ _)).tail .rejected
  have hcancel : Writes engine (engine.handleCancel msg) := by
    unfold handleCancel
    split
    · exact .refl
    · split
      · exact .refl
      · rename_i slot _
        exact ((one (.cancelled msg.instrumentId _ slot)).tail (.posted _ _ _ _ _ _)).tail
          (.released slot)
  unfold Engine.dispatch
  split
  · unfold handleNewOrder
    split
    · exact Or.inl hrefuse
    · split
      · exact Or.inl hrefuse
      · rename_i slot pool hacquire
        exact Or.inr ⟨slot, pool, hacquire, matchOrder _ _ _ slot⟩
  · exact Or.inl hcancel
  · exact Or.inl hcancel
  · exact Or.inl .refl

end Writes

end Engine

end NanoMatch
