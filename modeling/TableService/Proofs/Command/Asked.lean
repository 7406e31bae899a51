import TableService.Proofs.Command.Moments
import TableService.Proofs.Domain.Replay
import TableService.Proofs.Outbox.Recounting

/-!
# Entries carry what was asked for

- `OrderEvent.IsAsked`: an event that a command may record of an order. An item that is added has
  the price and the quantity of a line of the command.
- `OrderChange.isAsked`, `MenuItemChange.about`: a command records no other events.
- `Traffic.isAsked_of_mem`: so every entry in the log carries an event that some command has asked
  for, whatever the ids are and whatever turns the commands take.
-/

namespace TableService

/-- The lines that a command asks for. -/
def Command.lines : Command → List OrderLine
  | placeOrder _ _ lines => lines
  | _ => []

/-! ## Events of an order -/

namespace OrderEvent

/-- An event that neither makes an order nor adds to it. -/
def IsMark : OrderEvent → Prop
  | dishReady .. | itemCancelled .. | completed _ | cancelled _ => True
  | placed .. | itemAdded .. => False

/-- An event of the order with this id that the command may record. -/
structure IsAsked (command : Command) (id : String) (e : OrderEvent) : Prop where
  about : e.orderId = id
  inRange : e.InRange
  line {orderId itemId menuItemId name : String} {price : Decimal} {quantity : Nat} :
    e = .itemAdded orderId itemId menuItemId name price quantity →
      ∃ line ∈ command.lines, line.unitPrice = price ∧ line.quantity = quantity

theorem IsMark.isAsked {e : OrderEvent} (h : e.IsMark) (command : Command) :
    e.IsAsked command e.orderId where
  about := rfl
  inRange := by
    cases e with
    | placed | itemAdded => exact h.elim
    | _ => trivial
  line heq := by
    subst heq
    exact h.elim

end OrderEvent

namespace Order

variable {order order' : Order} {itemId : String}

/-- The events behind a change are those before it, and marks. -/
def OnlyMarks (order order' : Order) : Prop :=
  ∀ e ∈ order'.recorded, e ∈ order.recorded ∨ e.orderId = order.id ∧ e.IsMark

theorem OnlyMarks.of_append {marks : List OrderEvent}
    (h : order'.recorded = order.recorded ++ marks)
    (hmarks : ∀ e ∈ marks, e.orderId = order.id ∧ e.IsMark) : order.OnlyMarks order' := by
  intro e he
  rw [h] at he
  rcases List.mem_append.mp he with hold | hnew
  · exact .inl hold
  · exact .inr (hmarks e hnew)

theorem OnlyMarks.of_concat {mark : OrderEvent} (h : order'.recorded = order.recorded ++ [mark])
    (habout : mark.orderId = order.id) (hmark : mark.IsMark) : order.OnlyMarks order' := by
  refine .of_append h fun e he => ?_
  rw [List.mem_singleton.mp he]
  exact ⟨habout, hmark⟩

theorem OnlyMarks.trans {a b c : Order} (h : a.OnlyMarks b) (h' : b.OnlyMarks c)
    (hid : b.id = a.id) : a.OnlyMarks c := by
  intro e he
  rcases h' e he with hold | ⟨habout, hmark⟩
  · exact h e hold
  · exact .inr ⟨habout.trans hid, hmark⟩

theorem onlyMarks_markItemReady (h : order.markItemReady itemId = .ok order') :
    order.OnlyMarks order' := by
  obtain ⟨-, item, -, -, rfl⟩ := markItemReady_ok h
  exact .of_concat rfl rfl trivial

theorem onlyMarks_closeIfEmpty (order : Order) : order.OnlyMarks order.closeIfEmpty := by
  unfold closeIfEmpty
  split
  · exact .of_concat rfl rfl trivial
  · exact fun e he => .inl he

theorem onlyMarks_cancelItem (h : order.cancelItem itemId = .ok order') :
    order.OnlyMarks order' := by
  obtain ⟨-, item, -, ⟨-, rfl⟩ | ⟨-, rfl⟩⟩ := cancelItem_ok h
  · exact fun e he => .inl he
  · have hitem : order.OnlyMarks
        ((order.setItemStatus itemId .cancelled).record (.itemCancelled order.id itemId)) :=
      .of_concat rfl rfl trivial
    exact hitem.trans (onlyMarks_closeIfEmpty _) rfl

theorem onlyMarks_complete (h : order.complete = .ok order') : order.OnlyMarks order' := by
  obtain ⟨-, -, -, rfl⟩ := complete_ok h
  exact .of_concat rfl rfl trivial

theorem onlyMarks_cancel (h : order.cancel = .ok order') : order.OnlyMarks order' := by
  obtain ⟨-, rfl⟩ := cancel_ok h
  refine .of_append (List.append_assoc ..) fun e he => ?_
  rcases List.mem_append.mp he with hitem | hlast
  · obtain ⟨item, -, rfl⟩ := List.mem_map.mp hitem
    exact ⟨rfl, trivial⟩
  · rw [List.mem_singleton.mp hlast]
    exact ⟨rfl, trivial⟩

/-- A change of an order that has handed on its events. -/
theorem OnlyMarks.isAsked (h : order.OnlyMarks order') (hid : order'.id = order.id)
    (hsettled : Settled order) (command : Command) :
    ∀ e ∈ order'.recorded, e.IsAsked command order'.id := by
  intro e he
  rcases h e he with hold | ⟨habout, hmark⟩
  · have hnone : order.recorded = [] := by
      have hevents : order.recorded.map OrderEvent.toDomain = [] := hsettled.events
      exact List.map_eq_nil_iff.mp hevents
    rw [hnone] at hold
    cases hold
  · have hasked := hmark.isAsked command
    rw [habout, ← hid] at hasked
    exact hasked

/-- Each line that is added is recorded with its price and its quantity. -/
theorem recorded_addAll {ids ids' : IdSource} {lines : List OrderLine} {command : Command}
    (h : order.addAll ids lines = .ok (order', ids'))
    (hlines : ∀ line ∈ lines, line ∈ command.lines)
    (hbefore : ∀ e ∈ order.recorded, e.IsAsked command order.id) :
    ∀ e ∈ order'.recorded, e.IsAsked command order'.id := by
  induction lines generalizing order ids with
  | nil =>
    cases h
    exact hbefore
  | cons line rest ih =>
    obtain ⟨price, quantity, order₁, hprice, hquantity, hadd, hrest⟩ := addAll_cons_ok h
    refine ih hrest (fun line hline => hlines line (List.mem_cons_of_mem _ hline)) ?_
    obtain ⟨-, item, -, -, -, -, -, -, rfl⟩ := addItem_ok hadd
    intro e he
    rcases List.mem_append.mp he with hold | hnew
    · exact hbefore e hold
    · rw [List.mem_singleton.mp hnew]
      refine ⟨rfl, quantity.lt, fun heq => ?_⟩
      cases heq
      refine ⟨line, hlines line List.mem_cons_self, ?_, ?_⟩
      · unfold Money.of? at hprice
        split at hprice
        · cases hprice
          rfl
        · cases hprice
      · unfold Quantity.of? at hquantity
        split at hquantity
        · rename_i hpos
          cases hquantity
          show line.quantity = (line.quantity.toNat : Int)
          omega
        · cases hquantity

end Order

theorem OrderChange.isAsked {s : Stores} {ids : IdSource} {command : Command} {order : Order}
    (h : OrderChange s ids command order) (hs : s.Settled) :
    ∀ e ∈ order.recorded, e.IsAsked command order.id := by
  cases h with
  | placed nonempty absent dishes seat make items =>
    refine Order.recorded_addAll items (fun _ hline => hline) ?_
    obtain ⟨hleads, habout⟩ := Order.leads_place make
    have hplaced := (Order.place_ok make).2
    intro e he
    refine ⟨habout e he, hleads.inRange e he, fun heq => ?_⟩
    rw [hplaced, heq] at he
    cases List.mem_singleton.mp he
  | itemReady found change =>
    exact (Order.onlyMarks_markItemReady change).isAsked (Order.id_markItemReady change)
      (hs.orders found).2 _
  | itemCancelled found change =>
    exact (Order.onlyMarks_cancelItem change).isAsked (Order.id_cancelItem change)
      (hs.orders found).2 _
  | completed found change =>
    exact (Order.onlyMarks_complete change).isAsked (Order.id_complete change) (hs.orders found).2 _
  | cancelled found change =>
    exact (Order.onlyMarks_cancel change).isAsked (Order.id_cancel change) (hs.orders found).2 _

theorem MenuItemChange.about {s : Stores} {command : Command} {item : MenuItem}
    (h : MenuItemChange s command item) (hs : s.Settled) :
    ∀ e ∈ item.recorded, e.menuItemId = item.id := by
  have change {old new : MenuItem} (htells : Tells old new) (hsettled : Settled old) :
      ∀ e ∈ new.recorded, e.menuItemId = new.id := by
    obtain ⟨events, hrecorded, habout, -⟩ := htells.events
    rw [hsettled.recorded_eq_nil, List.nil_append] at hrecorded
    intro e he
    exact (habout e (hrecorded ▸ he)).trans htells.id_eq.symm
  cases h with
  | created absent money make => exact (MenuItem.leads_create make).2
  | soldOut found => exact change (MenuItem.tells_markSoldOut _) (hs.menuItems found).2
  | available found => exact change (MenuItem.tells_markAvailable _) (hs.menuItems found).2

/-! ## Entries of a run -/

/-- The entry carries an event that a command has asked for. -/
inductive Entry.IsAsked (moves : List Traffic.Move) (entry : Entry) : Prop where
  | order {policy : RetryPolicy} {command : Command} {id : String} {e : OrderEvent}
      (accepted : .accept policy command ∈ moves) (carries : entry.Carries Order e)
      (asked : e.IsAsked command id)
  | menuItem {e : MenuItemEvent} (carries : entry.Carries MenuItem e)

/-- The new entries of a commit carry the events that were recorded. -/
theorem Appended.carries {α : Type} [Aggregate α] [Collection α] [Story α] {policy : RetryPolicy}
    {t : Instant} {s s' : Stores} {a : α} (h : Appended policy t s s' a)
    (hevents : ∀ e ∈ Story.recorded a, Story.about e = Aggregate.id a ∧ Story.InRange e) :
    ∀ entry ∈ s'.outbox,
      entry ∈ s.outbox ∨ ∃ e ∈ Story.recorded a, entry.Carries α e := by
  obtain ⟨entries, hlog, hnew⟩ := h.outbox
  rw [Story.events_eq] at hnew
  have hcarries := forall₂_carries hnew (fun e he => (hevents e he).1) fun e he => (hevents e he).2
  intro entry hentry
  rw [hlog] at hentry
  rcases List.mem_append.mp hentry with hold | hentry
  · exact .inl hold
  · exact .inr (exists_of_forall₂ hcarries.flip hentry)

namespace Traffic

variable {start : Backend} {moves : List Move} {i : Nat}

/-- The stores stay as they are, unless a commit succeeds. -/
theorem stores_moment_succ (w : Traffic) (moves : List Move) (i : Nat) :
    (w.moment moves (i + 1)).backend.stores = (w.moment moves i).backend.stores ∨
      ∃ k, moves[i]? = some (.turn k) ∧ (w.moment moves i).commits k = true := by
  cases hmove : moves[i]? with
  | none =>
    have hi := List.getElem?_eq_none_iff.mp hmove
    rw [moment_of_length_le _ hi, moment_of_length_le _ (Nat.le_succ_of_le hi)]
    exact .inl rfl
  | some move =>
    rw [moment_succ _ hmove]
    rcases stores_after (w.moment moves i) move with hsame | ⟨k, rfl, hc⟩
    · exact .inl hsame
    · exact .inr ⟨k, rfl, hc⟩

theorem isAsked_moment_succ (hempty : start.stores = {})
    (h : ∀ entry ∈ (moment ⟨start, []⟩ moves i).backend.stores.outbox, entry.IsAsked moves) :
    ∀ entry ∈ (moment ⟨start, []⟩ moves (i + 1)).backend.stores.outbox, entry.IsAsked moves := by
  rcases stores_moment_succ ⟨start, []⟩ moves i with hsame | ⟨k, hmove, hc⟩
  · rw [hsame]
    exact h
  · obtain ⟨r, since, hr, hunderWay, hdeed⟩ := deed_of_commits hempty hmove hc
    obtain ⟨first, rfl, hfirst⟩ := hunderWay.accepted
    have haccepted := List.mem_of_getElem? hfirst
    intro entry hentry
    cases hdeed with
    | menuItem made =>
      obtain ⟨t, happended⟩ := made.appended
      have habout := made.change.about (settled_moment hempty moves i)
      rcases happended.carries (fun e he => ⟨habout e he, trivial⟩) entry hentry with
        hold | ⟨e, -, hcarries⟩
      · exact h entry hold
      · exact .menuItem hcarries
    | order made =>
      obtain ⟨t, happended⟩ := made.appended
      obtain ⟨menu, ids, hmenu, -, hchange⟩ := made.change
      -- the menu items that were found are settled, too
      have hsettled : Stores.Settled
          { (course hempty moves k).stores i with menuItems := menu } := by
        refine ⟨(settled_moment hempty moves i).orders, fun {id v} hv => ?_⟩
        obtain ⟨m, -, -, -, -, hfound⟩ := hmenu hv
        exact (settled_moment hempty moves m).menuItems hfound
      have hasked := hchange.isAsked hsettled
      rcases happended.carries (fun e he => ⟨(hasked e he).about, (hasked e he).inRange⟩) entry
        hentry with hold | ⟨e, he, hcarries⟩
      · exact h entry hold
      · exact .order haccepted hcarries (hasked e he)

/-- Whatever the ids are, and whatever turns the commands take, every entry carries an event that a
command has asked for. -/
theorem isAsked_of_mem (hempty : start.stores = {}) :
    ∀ entry ∈ (run ⟨start, []⟩ moves).backend.stores.outbox, entry.IsAsked moves := by
  rw [← moment_of_length_le _ (Nat.le_refl moves.length)]
  induction moves.length with
  | zero =>
    have hstores : (moment ⟨start, []⟩ moves 0).backend.stores = {} := hempty
    rw [hstores]
    exact fun entry hentry => absurd hentry List.not_mem_nil
  | succ i ih => exact isAsked_moment_succ hempty ih

end Traffic

end TableService
