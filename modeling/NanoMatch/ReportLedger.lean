import NanoMatch.SweepAccounting

/-!
# The report stream as a ledger

With pairwise distinct order ids every report can be checked against the order
it names: its leaves quantity is what the order was submitted with less what
has been executed for it so far.  The first part is about streams of reports
alone and says what a new report must satisfy.  The second part carries the
account of every live order, resting or incoming, through the phases of a
dispatch.
-/

namespace NanoMatch

open OrderBook

/-! ## Streams -/

/-- The quantity executed for one order. -/
def executedFor (reports : List ExecutionReport) (id : OrderId) : ℕ :=
  ((reports.filter fun report => report.isTrade && report.orderId = id).map
    fun report => report.execQuantity.toNat).sum

/-- No report so far ends the order. -/
def StillOpen (reports : List ExecutionReport) (id : OrderId) : Prop :=
  ∀ report ∈ reports, report.orderId = id → report.isTerminal = false

/-- The book side of the order submitted under an id. -/
def sideOf (orders : List InboundOrderMsg) (id : OrderId) : Option BookSide :=
  (orders.find? fun order => order.orderId = id).map fun order => order.orderSide.bookSide

/-- The quantity executed for all orders of one side. -/
def executedOn (orders : List InboundOrderMsg) (reports : List ExecutionReport)
    (side : BookSide) : ℕ :=
  ((reports.filter fun report => report.isTrade && sideOf orders report.orderId = some side).map
    fun report => report.execQuantity.toNat).sum

/-- Two reports of one trade. -/
structure TradeMatch (maker taker : ExecutionReport) : Prop where
  maker_trade : maker.isTrade = true
  taker_trade : taker.isTrade = true
  maker_names : maker.counterpartOrderId = taker.orderId
  taker_names : taker.counterpartOrderId = maker.orderId
  price_eq : maker.execPrice = taker.execPrice
  quantity_eq : maker.execQuantity = taker.execQuantity
  quantity_pos : 0 < maker.execQuantity.toNat

/-- Trades are adjacent maker/taker pairs; `pairs` counts them. -/
inductive Paired : List ExecutionReport → ℕ → Prop
  | nil : Paired [] 0
  | single {reports : List ExecutionReport} {pairs : ℕ} {report : ExecutionReport}
      (hsingle : report.isTrade = false) (hpaired : Paired reports pairs) :
      Paired (reports ++ [report]) pairs
  | pair {reports : List ExecutionReport} {pairs : ℕ} {maker taker : ExecutionReport}
      (hmatch : TradeMatch maker taker) (hpaired : Paired reports pairs) :
      Paired (reports ++ [maker, taker]) (pairs + 1)

/-- Every report agrees with the order it names and with the reports before
it. -/
structure Stream (orders : List InboundOrderMsg) (reports : List ExecutionReport) :
    Prop where
  known : ∀ report ∈ reports, ∃ order ∈ orders, order.orderId = report.orderId
  bounded : ∀ order ∈ orders, executedFor reports order.orderId ≤ order.quantity.toNat
  leaves : ∀ order ∈ orders, ∀ before report after, reports = before ++ report :: after →
    report.orderId = order.orderId →
      report.leavesQuantity.toNat + executedFor (before ++ [report]) order.orderId =
        order.quantity.toNat
  final : ∀ before report after, reports = before ++ report :: after →
    report.isTerminal = true → ∀ later ∈ after, later.orderId = report.orderId →
      later.isTrade = false

section Streams

variable {orders : List InboundOrderMsg} {reports : List ExecutionReport}
  {report : ExecutionReport} {id : OrderId}

theorem executedFor_append (first second : List ExecutionReport) (id : OrderId) :
    executedFor (first ++ second) id = executedFor first id + executedFor second id := by
  simp [executedFor]

theorem executedFor_singleton (report : ExecutionReport) (id : OrderId) :
    executedFor [report] id =
      if report.isTrade = true ∧ report.orderId = id then report.execQuantity.toNat else 0 := by
  unfold executedFor
  by_cases htrade : report.isTrade = true ∧ report.orderId = id
  · simp [htrade]
  · simp only [htrade, if_false]
    rw [List.filter_singleton]
    have hfalse : (report.isTrade && decide (report.orderId = id)) = false := by
      rw [Bool.and_eq_false_iff, decide_eq_false_iff_not]
      cases hcase : report.isTrade
      · exact Or.inl rfl
      · exact Or.inr (fun hid => htrade ⟨hcase, hid⟩)
    simp [hfalse]

theorem executedFor_snoc_of_ne (hne : report.orderId ≠ id) :
    executedFor (reports ++ [report]) id = executedFor reports id := by
  rw [executedFor_append, executedFor_singleton, if_neg (fun hboth => hne hboth.2),
    Nat.add_zero]

theorem executedFor_eq_zero (hnone : ∀ report ∈ reports, report.orderId ≠ id) :
    executedFor reports id = 0 := by
  unfold executedFor
  rw [List.filter_eq_nil_iff.mpr]
  · rfl
  · intro report hreport
    simp [hnone report hreport]

theorem StillOpen.snoc (hopen : StillOpen reports id)
    (hnew : report.orderId = id → report.isTerminal = false) :
    StillOpen (reports ++ [report]) id := by
  intro other hother hid
  rcases List.mem_append.mp hother with hold | hlast
  · exact hopen other hold hid
  · rw [List.mem_singleton] at hlast
    subst hlast
    exact hnew hid

theorem snoc_eq_split {α : Type*} {list before after : List α} {last middle : α}
    (hsplit : list ++ [last] = before ++ middle :: after) :
    (after = [] ∧ middle = last ∧ before = list) ∨
      ∃ rest, after = rest ++ [last] ∧ list = before ++ middle :: rest := by
  rcases List.eq_nil_or_concat after with hnil | ⟨rest, final, hconcat⟩
  · subst hnil
    rcases List.append_inj' hsplit rfl with ⟨hlist, hlast⟩
    rw [List.cons.injEq] at hlast
    exact Or.inl ⟨rfl, hlast.1.symm, hlist.symm⟩
  · subst hconcat
    rw [List.concat_eq_append, ← List.cons_append, ← List.append_assoc] at hsplit
    rcases List.append_inj' hsplit rfl with ⟨hlist, hlast⟩
    rw [List.cons.injEq] at hlast
    exact Or.inr ⟨rest, by rw [List.concat_eq_append, hlast.1], hlist⟩

namespace Stream

theorem nil : Stream [] [] := by
  constructor
  · simp
  · simp
  · simp
  · simp

theorem submit (hstream : Stream orders reports) {order : InboundOrderMsg}
    (hfresh : ∀ other ∈ orders, other.orderId ≠ order.orderId) :
    Stream (orders ++ [order]) reports := by
  have hunnamed : ∀ report ∈ reports, report.orderId ≠ order.orderId := by
    intro report hreport heq
    rcases hstream.known report hreport with ⟨other, hother, hid⟩
    exact hfresh other hother (hid.trans heq)
  constructor
  · intro report hreport
    rcases hstream.known report hreport with ⟨other, hother, hid⟩
    exact ⟨other, List.mem_append_left _ hother, hid⟩
  · intro other hother
    rcases List.mem_append.mp hother with hold | hnew
    · exact hstream.bounded other hold
    · rw [List.mem_singleton.mp hnew, executedFor_eq_zero hunnamed]
      exact Nat.zero_le _
  · intro other hother before report after hsplit hid
    rcases List.mem_append.mp hother with hold | hnew
    · exact hstream.leaves other hold before report after hsplit hid
    · rw [List.mem_singleton.mp hnew] at hid
      exact absurd hid (hunnamed report (by rw [hsplit]; simp))
  · exact hstream.final

theorem snoc (hstream : Stream orders reports)
    (hknown : ∃ order ∈ orders, order.orderId = report.orderId)
    (hleaves : ∀ order ∈ orders, report.orderId = order.orderId →
      report.leavesQuantity.toNat + executedFor (reports ++ [report]) order.orderId =
        order.quantity.toNat)
    (hopen : report.isTrade = true → StillOpen reports report.orderId) :
    Stream orders (reports ++ [report]) := by
  constructor
  · intro other hother
    rcases List.mem_append.mp hother with hold | hnew
    · exact hstream.known other hold
    · rw [List.mem_singleton.mp hnew]
      exact hknown
  · intro order horder
    by_cases hid : report.orderId = order.orderId
    · have hbalance := hleaves order horder hid
      omega
    · rw [executedFor_snoc_of_ne hid]
      exact hstream.bounded order horder
  · intro order horder before other after hsplit hid
    rcases snoc_eq_split hsplit with ⟨_, rfl, rfl⟩ | ⟨rest, _, hlist⟩
    · exact hleaves order horder hid
    · exact hstream.leaves order horder before other rest hlist hid
  · intro before other after hsplit hterminal later hlater hid
    rcases snoc_eq_split hsplit with ⟨rfl, _, _⟩ | ⟨rest, rfl, hlist⟩
    · exact absurd hlater (by simp)
    · rcases List.mem_append.mp hlater with hold | hnew
      · exact hstream.final before other rest hlist hterminal later hold hid
      · rw [List.mem_singleton] at hnew
        subst hnew
        by_contra htrade
        have hstill := hopen (by simpa using htrade) other (by rw [hlist]; simp) hid.symm
        rw [hterminal] at hstill
        exact absurd hstill (by simp)

end Stream

theorem executedOn_append (first second : List ExecutionReport) (side : BookSide) :
    executedOn orders (first ++ second) side =
      executedOn orders first side + executedOn orders second side := by
  simp [executedOn]

theorem executedOn_of_not_trade (hsingle : report.isTrade = false) (side : BookSide) :
    executedOn orders [report] side = 0 := by
  simp [executedOn, hsingle]

theorem order_eq_of_id (hdistinct : (orders.map fun order => order.orderId).Nodup)
    {order other : InboundOrderMsg} (horder : order ∈ orders) (hother : other ∈ orders)
    (hid : other.orderId = order.orderId) : other = order :=
  List.inj_on_of_nodup_map hdistinct hother horder hid

theorem sideOf_eq (hdistinct : (orders.map fun order => order.orderId).Nodup)
    {order : InboundOrderMsg} (horder : order ∈ orders) (hid : order.orderId = id) :
    sideOf orders id = some order.orderSide.bookSide := by
  subst hid
  unfold sideOf
  cases hfind : orders.find? fun other => decide (other.orderId = order.orderId) with
  | none =>
      rw [List.find?_eq_none] at hfind
      exact absurd (decide_eq_true rfl) (hfind order horder)
  | some other =>
      have hsame := List.find?_some hfind
      have hmem := List.mem_of_find?_eq_some hfind
      rw [order_eq_of_id hdistinct horder hmem (by simpa using hsame)]
      rfl

theorem executedOn_submit (hknown : ∀ report ∈ reports,
      ∃ order ∈ orders, order.orderId = report.orderId) (order : InboundOrderMsg)
    (side : BookSide) :
    executedOn (orders ++ [order]) reports side = executedOn orders reports side := by
  unfold executedOn
  congr 2
  apply List.filter_congr
  intro report hreport
  rcases hknown report hreport with ⟨other, hother, hid⟩
  have hfound : (orders.find? fun order => decide (order.orderId = report.orderId)).isSome := by
    rw [List.find?_isSome]
    exact ⟨other, hother, by simpa using hid⟩
  have hside : sideOf (orders ++ [order]) report.orderId = sideOf orders report.orderId := by
    unfold sideOf
    rw [List.find?_append, Option.or_of_isSome hfound]
  rw [hside]

end Streams

/-! ## Accounts -/

/-- The order agrees with the reports posted for it. -/
def Account (orders : List InboundOrderMsg) (reports : List ExecutionReport)
    (order : Order) : Prop :=
  ∃ submitted ∈ orders, submitted.orderId = order.orderId ∧
    submitted.orderSide = order.side ∧
    order.remaining + executedFor reports order.orderId = submitted.quantity.toNat ∧
    (0 < order.remaining → StillOpen reports order.orderId)

/-- The slot holds a queued order or the incoming one. -/
def Snapshot.Live (s : Snapshot) (incoming : Option Slot) (slot : Slot) : Prop :=
  incoming = some slot ∨ ∃ instrumentId side i, slot ∈ s.queues instrumentId side i

structure Ledger (orders : List InboundOrderMsg) (s : Snapshot) (incoming : Option Slot) :
    Prop where
  distinct : (orders.map fun order => order.orderId).Nodup
  account : ∀ slot, s.Live incoming slot → Account orders s.engine.outbound (s.slab slot)
  unique : ∀ slot other, s.Live incoming slot → s.Live incoming other →
    (s.slab other).orderId = (s.slab slot).orderId → other = slot
  stream : Stream orders s.engine.outbound
  paired : Paired s.engine.outbound s.engine.fillsExecuted
  balanced : executedOn orders s.engine.outbound .bid =
    executedOn orders s.engine.outbound .ask
  rejects : s.engine.ordersRejected =
    (s.engine.outbound.filter fun report => report.kind = .reject).length

section Accounts

variable {orders : List InboundOrderMsg} {reports : List ExecutionReport}

theorem Account.congr {order order' : Order} (haccount : Account orders reports order)
    (hterms : order'.terms = order.terms) (hquantity : order'.quantity = order.quantity) :
    Account orders reports order' := by
  rcases haccount with ⟨submitted, hmem, hid, hside, hbalance, hopen⟩
  have hidEq : order'.orderId = order.orderId := congrArg Order.Terms.orderId hterms
  have hsideEq : order'.side = order.side := congrArg Order.Terms.side hterms
  have hremaining : order'.remaining = order.remaining := congrArg UInt32.toNat hquantity
  refine ⟨submitted, hmem, ?_, ?_, ?_, ?_⟩
  · rw [hidEq, hid]
  · rw [hsideEq, hside]
  · rw [hidEq, hremaining, hbalance]
  · rw [hidEq, hremaining]
    exact hopen

theorem Account.snoc_other {order : Order} {report : ExecutionReport}
    (haccount : Account orders reports order) (hne : report.orderId ≠ order.orderId) :
    Account orders (reports ++ [report]) order := by
  rcases haccount with ⟨submitted, hmem, hid, hside, hbalance, hopen⟩
  refine ⟨submitted, hmem, hid, hside, ?_, ?_⟩
  · rw [executedFor_snoc_of_ne hne]
    exact hbalance
  · intro hpositive
    exact (hopen hpositive).snoc (fun hsame => absurd hsame hne)

/-- A trade moves its quantity from the order to the reports. -/
theorem Account.snoc_trade {order order' : Order} {report : ExecutionReport}
    (haccount : Account orders reports order) (hterms : order'.terms = order.terms)
    (htrade : report.isTrade = true) (hid : report.orderId = order.orderId)
    (hremaining : order'.remaining + report.execQuantity.toNat = order.remaining)
    (hkind : 0 < order'.remaining → report.isTerminal = false) :
    Account orders (reports ++ [report]) order' := by
  rcases haccount with ⟨submitted, hmem, hsubmitted, hside, hbalance, hopen⟩
  have hidEq : order'.orderId = order.orderId := congrArg Order.Terms.orderId hterms
  have hsideEq : order'.side = order.side := congrArg Order.Terms.side hterms
  refine ⟨submitted, hmem, ?_, ?_, ?_, ?_⟩
  · rw [hidEq, hsubmitted]
  · rw [hsideEq, hside]
  · rw [hidEq, executedFor_append, executedFor_singleton, if_pos ⟨htrade, hid⟩]
    omega
  · intro hpositive
    rw [hidEq]
    exact (hopen (by omega)).snoc (fun _ => hkind hpositive)

theorem Stream.snoc_trade {order : Order} {report : ExecutionReport}
    (hstream : Stream orders reports) (haccount : Account orders reports order)
    (hdistinct : (orders.map fun order => order.orderId).Nodup)
    (htrade : report.isTrade = true) (hid : report.orderId = order.orderId)
    (hpositive : 0 < order.remaining)
    (hleaves : report.leavesQuantity.toNat + report.execQuantity.toNat = order.remaining) :
    Stream orders (reports ++ [report]) := by
  rcases haccount with ⟨submitted, hmem, hsubmitted, hside, hbalance, hopen⟩
  apply hstream.snoc
  · exact ⟨submitted, hmem, by rw [hsubmitted, hid]⟩
  · intro other hother hnamed
    have hsame := order_eq_of_id hdistinct hmem hother
      (by rw [← hnamed, hid, hsubmitted])
    subst hsame
    rw [← hnamed, hid, executedFor_append, executedFor_singleton, if_pos ⟨htrade, hid⟩]
    omega
  · intro _
    rw [hid]
    exact hopen hpositive

theorem Stream.snoc_closing {order : Order} {report : ExecutionReport}
    (hstream : Stream orders reports) (haccount : Account orders reports order)
    (hdistinct : (orders.map fun order => order.orderId).Nodup)
    (htrade : report.isTrade = false) (hid : report.orderId = order.orderId)
    (hleaves : report.leavesQuantity = order.quantity) :
    Stream orders (reports ++ [report]) := by
  rcases haccount with ⟨submitted, hmem, hsubmitted, hside, hbalance, hopen⟩
  apply hstream.snoc
  · exact ⟨submitted, hmem, by rw [hsubmitted, hid]⟩
  · intro other hother hnamed
    have hsame := order_eq_of_id hdistinct hmem hother
      (by rw [← hnamed, hid, hsubmitted])
    subst hsame
    rw [← hnamed, hid, executedFor_append, executedFor_singleton,
      if_neg (by simp [htrade]), hleaves]
    exact hbalance
  · intro hcontra
    rw [htrade] at hcontra
    exact absurd hcontra (by simp)

end Accounts

/-! ## The reports of one trade -/

theorem executedOn_pair {orders : List InboundOrderMsg} {maker taker : ExecutionReport}
    (side : BookSide) (hmatch : TradeMatch maker taker)
    (hmaker : sideOf orders maker.orderId = some side.opposite)
    (htaker : sideOf orders taker.orderId = some side) :
    executedOn orders [maker, taker] .bid = executedOn orders [maker, taker] .ask := by
  cases side <;>
    simp [executedOn, hmatch.maker_trade, hmatch.taker_trade, hmaker, htaker,
      BookSide.opposite, hmatch.quantity_eq]

/-- What the two reports of a trade say about its parties. -/
structure TradePosted (maker taker : Slot) (makerReport takerReport : ExecutionReport)
    (s s' : Snapshot) : Prop where
  outbound_eq : s'.engine.outbound = s.engine.outbound ++ [makerReport, takerReport]
  pair : TradeMatch makerReport takerReport
  maker_id : makerReport.orderId = (s.slab maker).orderId
  taker_id : takerReport.orderId = (s.slab taker).orderId
  maker_leaves : makerReport.leavesQuantity.toNat + makerReport.execQuantity.toNat =
    (s.slab maker).remaining
  taker_leaves : takerReport.leavesQuantity.toNat + takerReport.execQuantity.toNat =
    (s.slab taker).remaining
  maker_left : (s'.slab maker).remaining + makerReport.execQuantity.toNat =
    (s.slab maker).remaining
  taker_left : (s'.slab taker).remaining + takerReport.execQuantity.toNat =
    (s.slab taker).remaining
  maker_open : 0 < (s'.slab maker).remaining → makerReport.isTerminal = false
  taker_open : 0 < (s'.slab taker).remaining → takerReport.isTerminal = false
  maker_kind : makerReport.kind ≠ .reject
  taker_kind : takerReport.kind ≠ .reject

theorem Traded.exists_reports {s s' : Snapshot} {instrumentId : InstrumentId}
    {slot maker : Slot} {level : ℕ} {behind : List Slot}
    (htraded : Traded instrumentId slot maker level behind s s') :
    ∃ makerReport takerReport, TradePosted maker slot makerReport takerReport s s' := by
  have hmakerPos := htraded.maker_pos
  have hunfilled := htraded.unfilled
  have hmakerLeft := htraded.remaining_eq maker
  rw [if_pos (Or.inl rfl)] at hmakerLeft
  have htakerLeft := htraded.remaining_eq slot
  rw [if_pos (Or.inr rfl)] at htakerLeft
  have hfill := Engine.fillQuantity_toNat (s.slab maker) (s.slab slot)
  refine ⟨_, _, htraded.outbound, ⟨?_, ?_, rfl, rfl, rfl, rfl, ?_⟩, rfl, rfl, ?_, ?_, ?_, ?_,
    ?_, ?_, ?_, ?_⟩
  · unfold ExecutionReport.isTrade
    split_ifs <;> rfl
  · unfold ExecutionReport.isTrade
    split_ifs <;> rfl
  · simp only
    omega
  · change (s'.slab maker).remaining + _ = _
    simp only
    omega
  · change (s'.slab slot).remaining + _ = _
    simp only
    omega
  · simp only
    omega
  · simp only
    omega
  · intro hpositive
    rw [← Quantity.pos_iff] at hpositive
    rw [if_neg (Quantity.ne_zero_of_pos hpositive)]
    rfl
  · intro hpositive
    rw [← Quantity.pos_iff] at hpositive
    rw [if_neg (Quantity.ne_zero_of_pos hpositive)]
    rfl
  · simp only
    split_ifs <;> simp
  · simp only
    split_ifs <;> simp

/-! ## The ledger of a snapshot -/

namespace Ledger

variable {orders : List InboundOrderMsg} {s s' : Snapshot} {incoming : Option Slot}
  {slot : Slot} {msg : InboundOrderMsg}

theorem initial (hqueues : s.queues = fun _ _ _ => []) (houtbound : s.engine.outbound = [])
    (hfills : s.engine.fillsExecuted = 0) (hrejects : s.engine.ordersRejected = 0) :
    Ledger [] s none := by
  have hnone : ∀ slot, ¬ s.Live none slot := by
    intro slot hlive
    rcases hlive with hnone | ⟨_, _, _, hmem⟩
    · exact absurd hnone (by simp)
    · rw [hqueues] at hmem
      exact absurd hmem (by simp)
  constructor
  · exact List.nodup_nil
  · intro slot hlive
    exact absurd hlive (hnone slot)
  · intro slot _ hlive
    exact absurd hlive (hnone slot)
  · rw [houtbound]
    exact Stream.nil
  · rw [houtbound, hfills]
    exact Paired.nil
  · rw [houtbound]
    rfl
  · rw [houtbound, hrejects]
    rfl

theorem of_live (hledger : Ledger orders s incoming) {incoming' : Option Slot}
    (hlive : ∀ slot, s'.Live incoming' slot → s.Live incoming slot ∧
      (s'.slab slot).terms = (s.slab slot).terms ∧
      (s'.slab slot).quantity = (s.slab slot).quantity)
    (houtbound : s'.engine.outbound = s.engine.outbound)
    (hfills : s'.engine.fillsExecuted = s.engine.fillsExecuted)
    (hrejects : s'.engine.ordersRejected = s.engine.ordersRejected) :
    Ledger orders s' incoming' := by
  constructor
  · exact hledger.distinct
  · intro slot hslot
    rcases hlive slot hslot with ⟨hold, hterms, hquantity⟩
    rw [houtbound]
    exact (hledger.account slot hold).congr hterms hquantity
  · intro slot other hslot hother hid
    rcases hlive slot hslot with ⟨hold, hterms, _⟩
    rcases hlive other hother with ⟨hold', hterms', _⟩
    apply hledger.unique slot other hold hold'
    rw [← show (s'.slab other).orderId = (s.slab other).orderId from
      congrArg Order.Terms.orderId hterms', hid]
    exact congrArg Order.Terms.orderId hterms
  · rw [houtbound]
    exact hledger.stream
  · rw [houtbound, hfills]
    exact hledger.paired
  · rw [houtbound]
    exact hledger.balanced
  · rw [houtbound, hrejects]
    exact hledger.rejects

theorem submit (hledger : Ledger orders s incoming)
    (hfresh : ∀ other ∈ orders, other.orderId ≠ msg.orderId) :
    Ledger (orders ++ [msg]) s incoming := by
  constructor
  · rw [List.map_append, List.nodup_append]
    refine ⟨hledger.distinct, by simp, ?_⟩
    intro id hid other hother
    rcases List.mem_map.mp hid with ⟨order, horder, rfl⟩
    simp only [List.map_cons, List.map_nil, List.mem_singleton] at hother
    rw [hother]
    exact hfresh order horder
  · intro slot hlive
    rcases hledger.account slot hlive with ⟨submitted, hmem, hrest⟩
    exact ⟨submitted, List.mem_append_left _ hmem, hrest⟩
  · exact hledger.unique
  · exact hledger.stream.submit hfresh
  · exact hledger.paired
  · rw [executedOn_submit hledger.stream.known, executedOn_submit hledger.stream.known]
    exact hledger.balanced
  · exact hledger.rejects

theorem unnamed (hledger : Ledger orders s incoming)
    (hfresh : ∀ other ∈ orders, other.orderId ≠ msg.orderId) :
    ∀ report ∈ s.engine.outbound, report.orderId ≠ msg.orderId := by
  intro report hreport heq
  rcases hledger.stream.known report hreport with ⟨other, hother, hid⟩
  exact hfresh other hother (hid.trans heq)

theorem admitted (hledger : Ledger orders s none)
    (hfresh : ∀ other ∈ orders, other.orderId ≠ msg.orderId)
    (hadmitted : Admitted msg slot s s') : Ledger (orders ++ [msg]) s' (some slot) := by
  have hsubmitted := hledger.submit hfresh
  have hunnamed := hledger.unnamed hfresh
  have hcases : ∀ other, s'.Live (some slot) other →
      other = slot ∨ other ≠ slot ∧ s.Live none other ∧ s'.slab other = s.slab other := by
    intro other hlive
    rcases hlive with hincoming | ⟨instrumentId, side, i, hmem⟩
    · exact Or.inl (Option.some.inj hincoming).symm
    · have hne := Snapshot.ne_of_isLoose hadmitted.loose hmem
      have hkept := hadmitted.others other hne
      rw [hadmitted.queues_eq] at hmem
      exact Or.inr ⟨hne, Or.inr ⟨instrumentId, side, i, hmem⟩, hkept⟩
  have hforeign : ∀ other, s.Live none other → (s.slab other).orderId ≠ msg.orderId := by
    intro other hlive
    rcases hledger.account other hlive with ⟨submitted, hmem, hid, _⟩
    rw [← hid]
    exact hfresh submitted hmem
  constructor
  · exact hsubmitted.distinct
  · intro other hlive
    rw [hadmitted.outbound_eq]
    rcases hcases other hlive with rfl | ⟨_, hold, hkept⟩
    · rw [hadmitted.order]
      refine ⟨msg, by simp, rfl, rfl, ?_, ?_⟩
      · change msg.quantity.toNat + executedFor _ msg.orderId = _
        rw [executedFor_eq_zero hunnamed, Nat.add_zero]
      · intro _ report hreport hid
        exact absurd hid (hunnamed report hreport)
    · rw [hkept]
      exact hsubmitted.account other hold
  · intro first second hfirst hsecond hid
    rcases hcases first hfirst with rfl | ⟨_, hold, hkept⟩
    · rcases hcases second hsecond with rfl | ⟨_, hold', hkept'⟩
      · rfl
      · rw [hadmitted.order, hkept'] at hid
        exact absurd hid (hforeign second hold')
    · rcases hcases second hsecond with rfl | ⟨_, hold', hkept'⟩
      · rw [hadmitted.order, hkept] at hid
        exact absurd hid.symm (hforeign first hold)
      · rw [hkept, hkept'] at hid
        exact hledger.unique first second hold hold' hid
  · rw [hadmitted.outbound_eq]
    exact hsubmitted.stream
  · rw [hadmitted.outbound_eq, hadmitted.fills_eq]
    exact hsubmitted.paired
  · rw [hadmitted.outbound_eq]
    exact hsubmitted.balanced
  · rw [hadmitted.outbound_eq, hadmitted.rejects_eq]
    exact hsubmitted.rejects

theorem released (hledger : Ledger orders s incoming) (hreleased : Released slot s s') :
    Ledger orders s' none := by
  apply hledger.of_live _ hreleased.outbound_eq hreleased.fills_eq hreleased.rejects_eq
  intro other hlive
  refine ⟨?_, hreleased.terms other, hreleased.quantity other⟩
  rcases hlive with hnone | ⟨instrumentId, side, i, hmem⟩
  · exact absurd hnone (by simp)
  · rw [hreleased.queues_eq] at hmem
    exact Or.inr ⟨instrumentId, side, i, hmem⟩

theorem forget (hledger : Ledger orders s incoming) : Ledger orders s none := by
  apply hledger.of_live _ rfl rfl rfl
  intro other hlive
  refine ⟨?_, rfl, rfl⟩
  rcases hlive with hnone | hqueued
  · exact absurd hnone (by simp)
  · exact Or.inr hqueued

theorem rested (hledger : Ledger orders s (some slot)) {instrumentId : InstrumentId}
    {level : ℕ} (hrested : Rested instrumentId slot level s s') : Ledger orders s' none := by
  apply hledger.of_live _ hrested.outbound_eq hrested.fills_eq hrested.rejects_eq
  intro other hlive
  refine ⟨?_, hrested.terms other, hrested.quantity other⟩
  rcases hlive with hnone | ⟨instrumentId', side, i, hmem⟩
  · exact absurd hnone (by simp)
  · rcases hrested.mem_cases hmem with hold | ⟨rfl, _⟩
    · exact Or.inr ⟨instrumentId', side, i, hold⟩
    · exact Or.inl rfl

theorem removed (hledger : Ledger orders s none) {instrumentId : InstrumentId}
    {side : BookSide} {level : ℕ} {before after : List Slot}
    (hremoved : Removed instrumentId slot side level before after s s') :
    Ledger orders s' (some slot) := by
  apply hledger.of_live _ hremoved.outbound_eq hremoved.fills_eq hremoved.rejects_eq
  intro other hlive
  refine ⟨?_, hremoved.terms other, hremoved.quantity other⟩
  rcases hlive with hincoming | ⟨instrumentId', side', i, hmem⟩
  · rw [Option.some.injEq] at hincoming
    subst hincoming
    exact Or.inr ⟨instrumentId, side, level, hremoved.slot_mem⟩
  · exact Or.inr ⟨instrumentId', side', i, hremoved.queue_subset hmem⟩

theorem counted (hledger : Ledger orders s incoming) (hcounted : Posted [] 0 s s') :
    Ledger orders s' incoming := by
  have hslab : s'.slab = s.slab := by
    unfold Snapshot.slab Engine.slab
    rw [hcounted.pool_eq]
  apply hledger.of_live
  · intro other hlive
    unfold Snapshot.Live at hlive ⊢
    rw [hcounted.queues_eq] at hlive
    rw [hslab]
    exact ⟨hlive, rfl, rfl⟩
  · simpa using hcounted.outbound_eq
  · exact hcounted.fills_eq
  · exact hcounted.rejects_eq

theorem post (hledger : Ledger orders s incoming) {report : ExecutionReport} {count : ℕ}
    (hposted : Posted [report] count s s')
    (hcount : count = if report.kind = .reject then 1 else 0)
    (hsingle : report.isTrade = false)
    (hstream : Stream orders (s.engine.outbound ++ [report]))
    (hforeign : ∀ other, s.Live none other → (s.slab other).orderId ≠ report.orderId) :
    Ledger orders s' none := by
  have hslab : s'.slab = s.slab := by
    unfold Snapshot.slab Engine.slab
    rw [hposted.pool_eq]
  have hlive : ∀ other, s'.Live none other → s.Live none other := by
    intro other hother
    unfold Snapshot.Live at hother ⊢
    rw [hposted.queues_eq] at hother
    exact hother
  have hforget := hledger.forget
  constructor
  · exact hledger.distinct
  · intro other hother
    rw [hposted.outbound_eq, hslab]
    exact (hforget.account other (hlive other hother)).snoc_other
      (hforeign other (hlive other hother)).symm
  · intro first second hfirst hsecond hid
    rw [hslab] at hid
    exact hforget.unique first second (hlive _ hfirst) (hlive _ hsecond) hid
  · rw [hposted.outbound_eq]
    exact hstream
  · rw [hposted.outbound_eq, hposted.fills_eq]
    exact Paired.single hsingle hledger.paired
  · rw [hposted.outbound_eq, executedOn_append, executedOn_append,
      executedOn_of_not_trade hsingle, executedOn_of_not_trade hsingle, hledger.balanced]
  · rw [hposted.outbound_eq, hposted.rejects_eq, List.filter_append, List.length_append,
      hledger.rejects, hcount]
    split_ifs with hreject <;> simp [hreject]

theorem closed (hledger : Ledger orders s (some slot)) (hloose : s.IsLoose slot)
    {report : ExecutionReport} {count : ℕ} (hposted : Posted [report] count s s')
    (hcount : count = if report.kind = .reject then 1 else 0)
    (hsingle : report.isTrade = false) (hid : report.orderId = (s.slab slot).orderId)
    (hleaves : report.leavesQuantity = (s.slab slot).quantity) : Ledger orders s' none := by
  apply hledger.post hposted hcount hsingle
  · exact hledger.stream.snoc_closing (hledger.account slot (Or.inl rfl)) hledger.distinct
      hsingle hid hleaves
  · intro other hlive heq
    rcases hlive with hnone | ⟨instrumentId, side, i, hmem⟩
    · exact absurd hnone (by simp)
    · have hne := Snapshot.ne_of_isLoose hloose hmem
      rw [hid] at heq
      exact hne (hledger.unique slot other (Or.inl rfl)
        (Or.inr ⟨instrumentId, side, i, hmem⟩) heq)

theorem refused (hledger : Ledger orders s none)
    (hfresh : ∀ other ∈ orders, other.orderId ≠ msg.orderId) {timestampNs : UInt64}
    (hposted : Posted [rejectReport msg.orderId msg.quantity timestampNs] 1 s s') :
    Ledger (orders ++ [msg]) s' none := by
  have hsubmitted := hledger.submit hfresh
  have hunnamed := hledger.unnamed hfresh
  apply hsubmitted.post hposted rfl rfl
  · apply hsubmitted.stream.snoc
    · exact ⟨msg, by simp, rfl⟩
    · intro other hother hnamed
      have hsame := order_eq_of_id hsubmitted.distinct (by simp) hother hnamed.symm
      rw [hsame, executedFor_append, executedFor_eq_zero hunnamed, executedFor_singleton,
        if_neg (by simp [rejectReport, ExecutionReport.isTrade])]
      rfl
    · intro hcontra
      exact absurd hcontra (by simp [rejectReport, ExecutionReport.isTrade])
  · intro other hlive
    rcases hledger.account other hlive with ⟨submitted, hmem, hid, _⟩
    rw [← hid]
    exact hfresh submitted hmem

theorem traded (hledger : Ledger orders s (some slot)) (hloose : s.IsLoose slot)
    {instrumentId : InstrumentId} {maker : Slot} {level : ℕ} {behind : List Slot}
    (htraded : Traded instrumentId slot maker level behind s s') :
    Ledger orders s' (some slot) := by
  rcases htraded.exists_reports with ⟨makerReport, takerReport, hposted⟩
  have hmakerLive : s.Live (some slot) maker :=
    Or.inr ⟨instrumentId, s.makerSide slot, level, htraded.maker_mem⟩
  have hslotLive : s.Live (some slot) slot := Or.inl rfl
  have hids : (s.slab maker).orderId ≠ (s.slab slot).orderId := fun heq =>
    Snapshot.ne_of_isLoose hloose htraded.maker_mem
      (hledger.unique slot maker hslotLive hmakerLive heq)
  have hlive : ∀ other, s'.Live (some slot) other → s.Live (some slot) other := by
    intro other hother
    rcases hother with hincoming | ⟨instrumentId', side, i, hmem⟩
    · exact Or.inl hincoming
    · exact Or.inr ⟨instrumentId', side, i, htraded.queue_subset hmem⟩
  have hsplit : s'.engine.outbound = s.engine.outbound ++ [makerReport] ++ [takerReport] := by
    rw [hposted.outbound_eq]
    simp
  have hmakerNe : ∀ other, s.Live (some slot) other → other ≠ maker →
      makerReport.orderId ≠ (s.slab other).orderId := by
    intro other hother hne heq
    exact hne (hledger.unique maker other hmakerLive hother
      (heq.symm.trans hposted.maker_id))
  have htakerNe : ∀ other, s.Live (some slot) other → other ≠ slot →
      takerReport.orderId ≠ (s.slab other).orderId := by
    intro other hother hne heq
    exact hne (hledger.unique slot other hslotLive hother (heq.symm.trans hposted.taker_id))
  have hmakerAccount := hledger.account maker hmakerLive
  have htakerAccount := (hledger.account slot hslotLive).snoc_other
    (fun heq => hids (hposted.maker_id.symm.trans heq) : makerReport.orderId ≠ _)
  have hstreamMaker := hledger.stream.snoc_trade hmakerAccount hledger.distinct
    hposted.pair.maker_trade hposted.maker_id htraded.maker_pos hposted.maker_leaves
  constructor
  · exact hledger.distinct
  · intro other hother
    rw [hsplit]
    by_cases hisTaker : other = slot
    · subst hisTaker
      exact htakerAccount.snoc_trade (htraded.terms other) hposted.pair.taker_trade
        hposted.taker_id hposted.taker_left hposted.taker_open
    · have hother' := hlive other hother
      by_cases hisMaker : other = maker
      · subst hisMaker
        have haccount := hmakerAccount.snoc_trade (htraded.terms other)
          hposted.pair.maker_trade hposted.maker_id hposted.maker_left hposted.maker_open
        apply haccount.snoc_other
        rw [htraded.orderId_eq other]
        exact htakerNe other hother' hisTaker
      · have hquantity := htraded.quantity other
        rw [if_neg (by simp [hisMaker, hisTaker])] at hquantity
        exact (((hledger.account other hother').snoc_other
          (hmakerNe other hother' hisMaker)).snoc_other
          (htakerNe other hother' hisTaker)).congr (htraded.terms other) hquantity
  · intro first second hfirst hsecond hid
    rw [htraded.orderId_eq first, htraded.orderId_eq second] at hid
    exact hledger.unique first second (hlive _ hfirst) (hlive _ hsecond) hid
  · rw [hsplit]
    exact hstreamMaker.snoc_trade htakerAccount hledger.distinct hposted.pair.taker_trade
      hposted.taker_id htraded.unfilled hposted.taker_leaves
  · rw [hposted.outbound_eq, htraded.fills]
    exact Paired.pair hposted.pair hledger.paired
  · rcases hledger.account slot hslotLive with ⟨taken, htaken, htakenId, htakenSide, _⟩
    rcases hmakerAccount with ⟨made, hmade, hmadeId, hmadeSide, _⟩
    have hmakerSide : (s.slab maker).side.bookSide =
        (s.slab slot).side.bookSide.opposite := by
      rcases s.rep.listed_of_mem htraded.maker_mem with ⟨book, hbook⟩
      exact ((s.rep.bookRep _ book hbook).placed _ _ _ htraded.maker_mem).side_eq
    rw [hposted.outbound_eq, executedOn_append, executedOn_append, hledger.balanced]
    rw [executedOn_pair (s.slab slot).side.bookSide hposted.pair]
    · rw [sideOf_eq hledger.distinct hmade (hmadeId.trans hposted.maker_id.symm), hmadeSide,
        hmakerSide]
    · rw [sideOf_eq hledger.distinct htaken (htakenId.trans hposted.taker_id.symm), htakenSide]
  · rw [hsplit, htraded.rejects, List.filter_append, List.filter_append, hledger.rejects]
    simp [hposted.maker_kind, hposted.taker_kind]

theorem swept (hledger : Ledger orders s (some slot)) (hloose : s.IsLoose slot)
    {instrumentId : InstrumentId} {priceOk : Price → Bool}
    (hswept : Swept instrumentId slot priceOk s s') : Ledger orders s' (some slot) := by
  have hinvariant := hswept.induction
    (fun t => t.IsLoose slot ∧ Ledger orders t (some slot)) ⟨hloose, hledger⟩ ?_
  · exact hinvariant.2
  · intro t t' _ _ _ htraded _ ih
    exact ⟨htraded.isLoose ih.1, ih.2.traded ih.1 htraded⟩

theorem newOrder (hledger : Ledger orders s none)
    (hfresh : ∀ other ∈ orders, other.orderId ≠ msg.orderId)
    (hstep : NewOrderStep msg s s') : Ledger (orders ++ [msg]) s' none := by
  cases hstep with
  | refused _ _ hposted => exact hledger.refused hfresh hposted
  | rejected slot book s₀ s₁ _ _ hadmitted _ hposted hreleased =>
      have horder := hadmitted.order
      have hclosed := (hledger.admitted hfresh hadmitted).closed hadmitted.loose hposted rfl rfl
        (by rw [horder]; rfl) (by rw [horder]; rfl)
      exact hclosed.released hreleased
  | completed slot book s₀ s₁ _ hadmitted hswept _ hreleased =>
      exact ((hledger.admitted hfresh hadmitted).swept hadmitted.loose hswept).released hreleased
  | acked slot book s₀ s₁ s₂ _ _ hadmitted hswept _ _ hposted hreleased =>
      have hswept' := (hledger.admitted hfresh hadmitted).swept hadmitted.loose hswept
      have hclosed := hswept'.closed hswept.loose hposted rfl rfl
        (hadmitted.swept_terms hswept).1.symm rfl
      exact hclosed.released hreleased
  | rested slot book s₀ s₁ _ hadmitted hswept _ _ hrested =>
      exact ((hledger.admitted hfresh hadmitted).swept hadmitted.loose hswept).rested hrested
  | lost slot book s₀ _ hadmitted hswept =>
      exact ((hledger.admitted hfresh hadmitted).swept hadmitted.loose hswept).forget

theorem cancel (hledger : Ledger orders s none) (hstep : CancelStep msg s s') :
    Ledger orders s' none := by
  cases hstep with
  | ignored hsame =>
      rw [hsame]
      exact hledger
  | cancelled slot book side level before after s₁ s₂ _ _ _ hid hremoved hposted hreleased =>
      have hidKept : (s₁.slab slot).orderId = msg.orderId :=
        (congrArg Order.Terms.orderId (hremoved.terms slot)).trans hid
      have hclosed := (hledger.removed hremoved).closed hremoved.loose hposted rfl rfl
        hidKept.symm (hremoved.quantity slot).symm
      exact hclosed.released hreleased

end Ledger

/-! ## The observable statement -/

def newOrders (msgs : List InboundOrderMsg) : List InboundOrderMsg :=
  msgs.filter fun msg => msg.kind = .newOrder

/-- The law of the report stream for the submitted orders. -/
structure ReportLedger (orders : List InboundOrderMsg) (engine : Engine) : Prop
    extends Stream orders engine.outbound where
  resting : ∀ order ∈ orders, ∀ instrumentId side i,
    ∀ slot ∈ engine.queue instrumentId side i, (engine.slab slot).orderId = order.orderId →
      (engine.slab slot).remaining + executedFor engine.outbound order.orderId =
        order.quantity.toNat
  pairs : Paired engine.outbound engine.fillsExecuted
  balanced : executedOn orders engine.outbound .bid = executedOn orders engine.outbound .ask
  rejects : engine.ordersRejected =
    (engine.outbound.filter fun report => report.kind = .reject).length

theorem Ledger.reportLedger {orders : List InboundOrderMsg} {s : Snapshot}
    (hledger : Ledger orders s none) : ReportLedger orders s.engine := by
  refine ⟨hledger.stream, ?_, hledger.paired, hledger.balanced, hledger.rejects⟩
  intro order horder instrumentId side i slot hslot hid
  rw [s.rep.queue_eq] at hslot
  rcases hledger.account slot (Or.inr ⟨instrumentId, side, i, hslot⟩) with
    ⟨submitted, hmem, hsubmitted, _, hbalance, _⟩
  have hid' : (s.slab slot).orderId = order.orderId := hid
  have hsame := order_eq_of_id hledger.distinct horder hmem (hsubmitted.trans hid')
  rw [hid', hsame] at hbalance
  exact hbalance

/-- With pairwise distinct ids the reports form a ledger at every point of the
run. -/
theorem run_reportLedger (capacity : ℕ) (clock : ℕ → UInt64)
    (listings : List (InstrumentId × PriceGrid)) (msgs : List InboundOrderMsg)
    (hdistinct : ((newOrders msgs).map fun msg => msg.orderId).Nodup)
    (before after : List InboundOrderMsg) (hsplit : msgs = before ++ after) :
    ReportLedger (newOrders before)
      ((Engine.listed capacity clock listings).runMessages before) := by
  have hinvariant := runMessages_induction capacity clock listings
    (fun history s => ∀ rest, msgs = history ++ rest → Ledger (newOrders history) s none)
    ?_ ?_ before
  · rcases hinvariant with ⟨s, hengine, hledger⟩
    rw [← hengine]
    exact (hledger after hsplit).reportLedger
  · intro s hs _ _
    rcases hs.reports with ⟨houtbound, hfills, hrejects, _⟩
    exact Ledger.initial hs.queues_eq houtbound hfills hrejects
  · intro history msg s s' _ hledger hstep rest hrest
    have hsplit' : msgs = history ++ msg :: rest := by simp [hrest]
    have hold := hledger _ hsplit'
    cases hstep with
    | newOrder s₁ hkind hstep hcounted =>
        have horders : newOrders (history ++ [msg]) = newOrders history ++ [msg] := by
          simp [newOrders, hkind]
        have hfresh : ∀ other ∈ newOrders history, other.orderId ≠ msg.orderId := by
          intro other hother
          rw [hrest, newOrders, List.filter_append] at hdistinct
          change ((newOrders (history ++ [msg]) ++ _).map _).Nodup at hdistinct
          rw [horders, List.map_append, List.map_append] at hdistinct
          have hfirst := (List.nodup_append.mp (List.nodup_append.mp hdistinct).1).2.2
          exact hfirst _ (List.mem_map_of_mem hother) _ (by simp)
        rw [horders]
        exact (hold.newOrder hfresh hstep).counted hcounted
    | cancel s₁ hkind hstep hcounted =>
        have horders : newOrders (history ++ [msg]) = newOrders history := by
          rcases hkind with hkind | hkind <;> simp [newOrders, hkind]
        rw [horders]
        exact (hold.cancel hstep).counted hcounted
    | ignored byte hkind hcounted =>
        have horders : newOrders (history ++ [msg]) = newOrders history := by
          simp [newOrders, hkind]
        rw [horders]
        exact hold.counted hcounted

/-- A sell of 5 at 100 which a buy of 3 at 101 trades with. -/
theorem run_reportLedger_sample :
    (sampleEngine.runMessages
        [sampleOrder 1 0 1 100 5, sampleOrder 0 0 2 101 3]).outbound.length = 2 ∧
      ReportLedger [sampleOrder 1 0 1 100 5, sampleOrder 0 0 2 101 3]
        (sampleEngine.runMessages [sampleOrder 1 0 1 100 5, sampleOrder 0 0 2 101 3]) :=
  ⟨by decide, run_reportLedger 4 (fun _ => 0) [(0, sampleGrid)]
    [sampleOrder 1 0 1 100 5, sampleOrder 0 0 2 101 3] (by decide)
    [sampleOrder 1 0 1 100 5, sampleOrder 0 0 2 101 3] [] (by simp)⟩

end NanoMatch
