import TableService.Proofs.Command.Asked
import TableService.Proofs.Command.Creation
import TableService.Proofs.Command.SeenMenu

/-!
# What is committed is well formed

The guarantees of a committed order come from different places. Texts are trimmed where the
aggregate takes them in, numbers are checked before they get there, and whether a dish exists is
asked of the menu, with the id as it was requested. That id is then trimmed, but a dish that was
found under it is stored under its own trimmed id, so nothing is left to be trimmed.

- `Law.wellFormed`: what holds of each aggregate by itself. Every change keeps it.
- `Order.IsOn`: an order has items, and all of them are on a menu. An order is made so, and what is
  on the menu stays there.
- `Traffic.wellFormed_moment`: so it is at every moment of every run from empty stores.

That an order has items is not a law of the aggregate: it is made without any, and gets them line by
line before it is committed.
-/

namespace TableService

/-! ## Texts -/

/-- A text that is not blank, without a blank at either end. -/
structure Text.IsTidy (s : String) : Prop where
  ne_empty : s ≠ ""
  first : ∀ c ∈ s.toList.head?, Text.isBlank c = false
  last : ∀ c ∈ s.toList.getLast?, Text.isBlank c = false

theorem Text.isTidy_of_required? {s t : String} (h : Text.required? s = some t) : IsTidy t := by
  obtain ⟨rfl, hne⟩ := required?_eq_some_iff.mp h
  constructor
  · exact hne
  · rw [trim, String.toList_ofList]
    exact head?_trimChars _
  · rw [trim, String.toList_ofList]
    exact getLast?_trimChars _

/-! ## Aggregates -/

/-- The texts are trimmed and not empty, and the price is not negative. -/
structure MenuItem.WellFormed (item : MenuItem) : Prop where
  id : Text.IsTidy item.id
  name : Text.IsTidy item.name
  price : 0 ≤ item.price.amount.coeff

/-- The same for a line, of which there is at least one. -/
structure OrderItem.WellFormed (item : OrderItem) : Prop where
  id : Text.IsTidy item.id
  menuItemId : Text.IsTidy item.menuItemId
  name : Text.IsTidy item.name
  unitPrice : 0 ≤ item.unitPrice.amount.coeff
  quantity : 1 ≤ item.quantity.value

/-- The same for an order with all its lines. -/
structure Order.WellFormed (order : Order) : Prop where
  id : Text.IsTidy order.id
  table : 1 ≤ order.table.value
  items : ∀ item ∈ order.items, item.WellFormed

/-- Aggregates are committed well formed. -/
def Law.wellFormed : Law := ⟨Order.WellFormed, MenuItem.WellFormed⟩

/-- An item as it was ordered, whatever has become of it. -/
def OrderItem.ordered (item : OrderItem) : OrderItem := { item with status := .pending }

namespace Order

variable {order order' : Order} {itemId : String}

/-- The items are those that were there before, in their order. -/
structure KeepsItems (order order' : Order) : Prop where
  id : order'.id = order.id
  table : order'.table = order.table
  items : order'.items.map OrderItem.ordered = order.items.map OrderItem.ordered

theorem KeepsItems.trans {a b c : Order} (h : a.KeepsItems b) (h' : b.KeepsItems c) :
    a.KeepsItems c where
  id := h'.id.trans h.id
  table := h'.table.trans h.table
  items := h'.items.trans h.items

/-- An item of the order was there before. -/
theorem KeepsItems.exists_mem (h : order.KeepsItems order') {item : OrderItem}
    (hitem : item ∈ order'.items) : ∃ old ∈ order.items,
      old.id = item.id ∧ old.menuItemId = item.menuItemId ∧ old.name = item.name := by
  have hmem : item.ordered ∈ order.items.map OrderItem.ordered :=
    h.items ▸ List.mem_map_of_mem hitem
  obtain ⟨old, hold, heq⟩ := List.mem_map.mp hmem
  cases old
  cases item
  cases heq
  exact ⟨_, hold, rfl, rfl, rfl⟩

theorem keepsItems_setItemStatus (order : Order) (itemId : String) (status : ItemStatus) :
    order.KeepsItems (order.setItemStatus itemId status) where
  id := rfl
  table := rfl
  items := by
    refine map_updateFirst ?_ order.items
    intro item
    rfl

theorem keepsItems_closeIfEmpty (order : Order) : order.KeepsItems order.closeIfEmpty := by
  unfold closeIfEmpty
  split
  · exact ⟨rfl, rfl, rfl⟩
  · exact ⟨rfl, rfl, rfl⟩

theorem keepsItems_markItemReady (h : order.markItemReady itemId = .ok order') :
    order.KeepsItems order' := by
  obtain ⟨-, item, -, -, rfl⟩ := markItemReady_ok h
  have hset := keepsItems_setItemStatus order itemId .ready
  exact ⟨hset.id, hset.table, hset.items⟩

theorem keepsItems_cancelItem (h : order.cancelItem itemId = .ok order') :
    order.KeepsItems order' := by
  obtain ⟨-, item, -, ⟨-, rfl⟩ | ⟨-, rfl⟩⟩ := cancelItem_ok h
  · exact ⟨rfl, rfl, rfl⟩
  · have hset := keepsItems_setItemStatus order itemId .cancelled
    have hrecorded : order.KeepsItems ((order.setItemStatus itemId .cancelled).record
        (.itemCancelled order.id itemId)) := ⟨hset.id, hset.table, hset.items⟩
    exact hrecorded.trans (keepsItems_closeIfEmpty _)

theorem keepsItems_complete (h : order.complete = .ok order') : order.KeepsItems order' := by
  obtain ⟨-, -, -, rfl⟩ := complete_ok h
  exact ⟨rfl, rfl, rfl⟩

theorem keepsItems_cancel (h : order.cancel = .ok order') : order.KeepsItems order' := by
  obtain ⟨-, rfl⟩ := cancel_ok h
  refine ⟨rfl, rfl, ?_⟩
  rw [List.map_map]
  refine List.map_congr_left fun item _ => ?_
  show OrderItem.ordered (if item.status = .pending then _ else item) = item.ordered
  split
  · rfl
  · rfl

theorem WellFormed.keepsItems (h : order.WellFormed) (hkeeps : order.KeepsItems order') :
    order'.drained.WellFormed where
  id := by
    show Text.IsTidy order'.id
    rw [hkeeps.id]
    exact h.id
  table := order'.table.pos
  items item hitem := by
    obtain ⟨old, hold, hid, hmenu, hname⟩ := hkeeps.exists_mem hitem
    have hwell := h.items old hold
    exact ⟨hid ▸ hwell.id, hmenu ▸ hwell.menuItemId, hname ▸ hwell.name, item.unitPrice.nonneg,
      item.quantity.pos⟩

end Order

theorem MenuItem.WellFormed.of_eq {item item' : MenuItem} (h : item.WellFormed)
    (hid : item'.id = item.id) (hname : item'.name = item.name) : item'.drained.WellFormed where
  id := by
    show Text.IsTidy item'.id
    rw [hid]
    exact h.id
  name := by
    show Text.IsTidy item'.name
    rw [hname]
    exact h.name
  price := item'.price.nonneg

/-- Every aggregate is made well formed, and stays so. -/
theorem Law.wellFormed_kept : Law.wellFormed.Kept where
  create {id name price item} h :=
    have hmade := MenuItem.create_ok h
    ⟨Text.isTidy_of_required? hmade.1, Text.isTidy_of_required? hmade.2.1, item.price.nonneg⟩
  markSoldOut {item} h := by
    refine MenuItem.WellFormed.of_eq h (MenuItem.id_markSoldOut item) ?_
    unfold MenuItem.markSoldOut
    split
    · rfl
    · rfl
  markAvailable {item} h := by
    refine MenuItem.WellFormed.of_eq h (MenuItem.id_markAvailable item) ?_
    unfold MenuItem.markAvailable
    split
    · rfl
    · rfl
  place {id table order} h := by
    obtain ⟨hid, heq⟩ := Order.place_ok h
    refine ⟨Text.isTidy_of_required? hid, order.table.pos, ?_⟩
    intro item hitem
    rw [heq] at hitem
    cases hitem
  addItem {order order' id line price quantity} h hadd := by
    obtain ⟨-, item, hid, hmenu, hname, -, -, -, rfl⟩ := Order.addItem_ok hadd
    refine ⟨h.id, h.table, fun other hother => ?_⟩
    rcases List.mem_append.mp hother with hold | hnew
    · exact h.items other hold
    · rw [List.mem_singleton.mp hnew]
      exact ⟨Text.isTidy_of_required? hid, Text.isTidy_of_required? hmenu,
        Text.isTidy_of_required? hname, item.unitPrice.nonneg, item.quantity.pos⟩
  markItemReady h hready := Order.WellFormed.keepsItems h (Order.keepsItems_markItemReady hready)
  cancelItem h hcancel := Order.WellFormed.keepsItems h (Order.keepsItems_cancelItem hcancel)
  complete h hcomplete := Order.WellFormed.keepsItems h (Order.keepsItems_complete hcomplete)
  cancel h hcancel := Order.WellFormed.keepsItems h (Order.keepsItems_cancel hcancel)

/-! ## Orders and the menu -/

/-- There are items, and each of them is of a dish on this menu. -/
structure Order.IsOn (menu : Table (Versioned MenuItem)) (order : Order) : Prop where
  nonempty : order.items ≠ []
  dishes : ∀ item ∈ order.items, ∃ v, menu[item.menuItemId]? = some v

namespace Order

variable {menu menu' : Table (Versioned MenuItem)} {order order' : Order}

/-- A dish is never taken off the menu. -/
theorem IsOn.mono (h : order.IsOn menu) (hmenu : menu.Advances menu') : order.IsOn menu' where
  nonempty := h.nonempty
  dishes item hitem := by
    obtain ⟨v, hv⟩ := h.dishes item hitem
    obtain ⟨now, hnow, -⟩ := hmenu.exists_of_some hv
    exact ⟨now, hnow⟩

theorem IsOn.keepsItems (h : order.IsOn menu) (hkeeps : order.KeepsItems order') :
    order'.IsOn menu where
  nonempty hnone := by
    have hitems := hkeeps.items
    rw [hnone] at hitems
    exact h.nonempty (List.map_eq_nil_iff.mp hitems.symm)
  dishes item hitem := by
    obtain ⟨old, hold, -, hmenu, -⟩ := hkeeps.exists_mem hitem
    exact hmenu ▸ h.dishes old hold

/-- An item that is added is of the dish that was requested, if its id needs no trimming. -/
theorem isOn_addAll {ids ids' : IdSource} {lines : List OrderLine}
    (h : order.addAll ids lines = .ok (order', ids'))
    (hbefore : ∀ item ∈ order.items, ∃ v, menu[item.menuItemId]? = some v)
    (hlines : ∀ line ∈ lines, Text.trim line.menuItemId = line.menuItemId ∧
      ∃ v, menu[line.menuItemId]? = some v)
    (hne : order.items ≠ [] ∨ lines ≠ []) : order'.IsOn menu := by
  induction lines generalizing order ids with
  | nil =>
    cases h
    exact ⟨hne.resolve_right fun hnil => hnil rfl, hbefore⟩
  | cons line rest ih =>
    obtain ⟨price, quantity, order₁, -, -, hadd, hrest⟩ := addAll_cons_ok h
    obtain ⟨htrim, hdish⟩ := hlines line List.mem_cons_self
    obtain ⟨-, item, -, hmenu, -, -, -, -, rfl⟩ := addItem_ok hadd
    have hitem : item.menuItemId = line.menuItemId :=
      (Text.trim_eq_of_required? hmenu).symm.trans htrim
    refine ih hrest ?_ (fun other hother => hlines other (List.mem_cons_of_mem _ hother)) (.inl ?_)
    · intro other hother
      rcases List.mem_append.mp hother with hold | hnew
      · exact hbefore other hold
      · rw [List.mem_singleton.mp hnew, hitem]
        exact hdish
    · exact List.append_ne_nil_of_right_ne_nil _ (List.cons_ne_nil _ _)

end Order

/-- What a command makes of orders that are on the menu is on the menu, if all dishes that it has
found are still there. -/
theorem OrderChange.isOn {s : Stores} {menu : Table (Versioned MenuItem)} {ids : IdSource}
    {command : Command} {order : Order} (h : OrderChange s ids command order)
    (horders : ∀ {id : String} {v : Versioned Order}, s.orders[id]? = some v →
      v.value.IsOn menu)
    (hfound : ∀ {id : String} {v : Versioned MenuItem}, s.menuItems[id]? = some v →
      v.value.id = id ∧ Text.trim id = id ∧ ∃ w, menu[id]? = some w) : order.IsOn menu := by
  cases h with
  | @placed id number lines table empty _ ids' nonempty absent dishes seat make items =>
    have hnone : empty.items = [] := by rw [(Order.place_ok make).2]
    refine Order.isOn_addAll items ?_ ?_ (.inr nonempty)
    · intro item hitem
      rw [hnone] at hitem
      cases hitem
    · intro line hline
      have hchange : OrderChange s ids (.placeOrder id number lines) order :=
        .placed nonempty absent dishes seat make items
      obtain ⟨v, hv, -⟩ := hchange.exists_available (fun hv => (hfound hv).1) hline
      exact (hfound hv).2
  | itemReady found change =>
    exact (horders found).keepsItems (Order.keepsItems_markItemReady change)
  | itemCancelled found change =>
    exact (horders found).keepsItems (Order.keepsItems_cancelItem change)
  | completed found change => exact (horders found).keepsItems (Order.keepsItems_complete change)
  | cancelled found change => exact (horders found).keepsItems (Order.keepsItems_cancel change)

/-! ## At every moment -/

/-- What holds of everything that is committed. -/
structure Stores.WellFormed (s : Stores) : Prop where
  orders {id : String} {v : Versioned Order} : s.orders[id]? = some v →
    v.value.id = id ∧ 1 ≤ v.version ∧ v.value.WellFormed ∧ v.value.IsOn s.menuItems
  menuItems {id : String} {v : Versioned MenuItem} : s.menuItems[id]? = some v →
    v.value.id = id ∧ 1 ≤ v.version ∧ v.value.WellFormed

/-- Whatever has come to be committed has a version. -/
theorem Table.Advances.one_le_version {α : Type} {t : Table (Versioned α)}
    (h : (∅ : Table (Versioned α)).Advances t) {id : String} {v : Versioned α}
    (hv : t[id]? = some v) : 1 ≤ v.version := by
  have hne : versionOf t id ≠ 0 := by
    intro hzero
    rw [(versionOf_eq_zero_iff h).mp hzero] at hv
    cases hv
  have hversion : versionOf t id = v.version := by
    rw [versionOf, hv]
    rfl
  omega

namespace Traffic

variable {start : Backend}

/-- A commit of a menu item leaves the dishes of orders on the menu, and a commit of an order is of
dishes that were found there. -/
theorem isOn_moment_succ (hempty : start.stores = {}) {moves : List Move} {i : Nat}
    (h : ∀ {id : String} {v : Versioned Order},
      (moment ⟨start, []⟩ moves i).backend.stores.orders[id]? = some v →
        v.value.IsOn (moment ⟨start, []⟩ moves i).backend.stores.menuItems)
    {id : String} {v : Versioned Order}
    (hv : (moment ⟨start, []⟩ moves (i + 1)).backend.stores.orders[id]? = some v) :
    v.value.IsOn (moment ⟨start, []⟩ moves (i + 1)).backend.stores.menuItems := by
  have hmenu := (advances_moment ⟨start, []⟩ moves i).menuItems
  rcases stores_moment_succ ⟨start, []⟩ moves i with hsame | ⟨k, hmove, hc⟩
  · rw [hsame] at hv ⊢
    exact h hv
  · obtain ⟨r, since, -, -, hdeed⟩ := deed_of_commits hempty hmove hc
    cases hdeed with
    | menuItem made =>
      have horders : (moment ⟨start, []⟩ moves (i + 1)).backend.stores.orders =
          (moment ⟨start, []⟩ moves i).backend.stores.orders := made.orders
      rw [horders] at hv
      exact (h hv).mono hmenu
    | @order order made =>
      obtain ⟨t, happended⟩ := made.appended
      obtain ⟨menu, ids, hfound, -, hchange⟩ := made.change
      by_cases hid : id = order.id
      · -- the order that was committed, of what was found before
        subst hid
        obtain rfl := Option.some.inj (hv.symm.trans happended.stored)
        have hison : order.IsOn (moment ⟨start, []⟩ moves i).backend.stores.menuItems := by
          refine hchange.isOn h fun {id v} hv => ?_
          obtain ⟨m, -, -, hlt, -, hseen⟩ := hfound hv
          obtain ⟨hown, hsettled⟩ := (settled_moment hempty moves m).menuItems hseen
          obtain ⟨now, hnow, -⟩ :=
            ((course hempty moves k).advances (Nat.le_of_lt hlt)).menuItems.exists_of_some hseen
          have htrim : Text.trim v.value.id = v.value.id := Text.trim_eq_of_required? hsettled.id
          rw [hown] at htrim
          exact ⟨hown, htrim, now, hnow⟩
        have hlater := hison.mono hmenu
        exact ⟨hlater.nonempty, hlater.dishes⟩
      · have hothers : (moment ⟨start, []⟩ moves (i + 1)).backend.stores.orders[id]? =
            (moment ⟨start, []⟩ moves i).backend.stores.orders[id]? := happended.others hid
        rw [hothers] at hv
        exact (h hv).mono hmenu

/-- By induction on the moves. -/
theorem isOn_moment (hempty : start.stores = {}) (moves : List Move) (i : Nat) {id : String}
    {v : Versioned Order} (hv : (moment ⟨start, []⟩ moves i).backend.stores.orders[id]? = some v) :
    v.value.IsOn (moment ⟨start, []⟩ moves i).backend.stores.menuItems := by
  induction i generalizing id v with
  | zero =>
    have hstores : (moment ⟨start, []⟩ moves 0).backend.stores = {} := hempty
    rw [hstores] at hv
    simp at hv
  | succ i ih => exact isOn_moment_succ hempty ih hv

/-- Whatever commands are under way on stores that were empty, and however they take turns, all that
is committed is well formed at every moment. -/
theorem wellFormed_moment (hempty : start.stores = {}) (moves : List Move) (i : Nat) :
    (moment ⟨start, []⟩ moves i).backend.stores.WellFormed := by
  have hreach : (moment ⟨start, []⟩ moves i).backend.stores.Reachable :=
    ⟨_, ⟨start, hempty, moves.take i, rfl⟩, rfl⟩
  have hlawful := hreach.lawful Law.wellFormed_kept
  obtain ⟨horders, hmenuItems⟩ := hreach.advances
  constructor
  · intro id v hv
    obtain ⟨hid, hwell⟩ := hlawful.orders hv
    exact ⟨hid, horders.one_le_version hv, hwell, isOn_moment hempty moves i hv⟩
  · intro id v hv
    obtain ⟨hid, hwell⟩ := hlawful.menuItems hv
    exact ⟨hid, hmenuItems.one_le_version hv, hwell⟩

/-- An order of a dish that is sold out by the time the order is committed. -/
theorem lateOrder_wellFormed : Backend.fresh.stores = {} ∧
    (moment ⟨.fresh, []⟩ lateOrder lateOrder.length).backend.stores.WellFormed ∧
      ((moment ⟨.fresh, []⟩ lateOrder lateOrder.length).backend.stores.orders.toList.map
        fun x => (x.1, x.2.version, x.2.value.items.length)) = [("o1", 1, 1)] :=
  ⟨Backend.fresh_stores, wellFormed_moment Backend.fresh_stores lateOrder _, by decide +kernel⟩

end Traffic

end TableService
