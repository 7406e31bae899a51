import TableService.Proofs.Command.AllOrNothing
import TableService.Proofs.Command.Result
import TableService.Proofs.Command.Serial

/-!
# Which orders are accepted

- `Check`, `FirstFailed`: conditions that are looked at one after the other, each with its error.
- `Decides`: a computation that goes on as long as the checks hold.
- `Stores.checks`: what is checked of a request, in this order. `Stores.Takes` says the same without
  an order.
- `Stores.placed?_decides`: so it is decided which order a request makes.
- `Order.addAll_eq`: the items that are made of the lines.
- `Backend.Places`: the stores behind a request that was accepted.
- `Stores.Reachable.takes_or_refuses`: a request is accepted if and only if nothing is wrong with
  it. Otherwise its error is that of the first check that fails.
-/

namespace TableService

variable {α β : Type}

/-! ## Checks in a row -/

/-- A check, and what is reported where it fails. -/
structure Check where
  holds : Prop
  refusal : CommandError

/-- The error is that of the first check that fails. -/
def FirstFailed (checks : List Check) (e : CommandError) : Prop :=
  ∃ passed check rest, checks = passed ++ check :: rest ∧ (∀ c ∈ passed, c.holds) ∧
    ¬ check.holds ∧ e = check.refusal

theorem FirstFailed.not_all {checks : List Check} {e : CommandError} (h : FirstFailed checks e) :
    ¬ ∀ c ∈ checks, c.holds := by
  obtain ⟨passed, check, rest, rfl, -, hfails, -⟩ := h
  exact fun hall => hfails (hall check (by simp))

/-- The value is there if all checks hold; otherwise there is the error of the first that fails. -/
def Decides (checks : List Check) : Except CommandError α → Prop
  | .ok _ => ∀ c ∈ checks, c.holds
  | .error e => FirstFailed checks e

theorem decides_ok (a : α) : Decides [] (.ok a) := List.forall_mem_nil _

theorem Decides.bind {checks more : List Check} {r : Except CommandError α}
    {f : α → Except CommandError β} (h : Decides checks r)
    (hf : ∀ a, r = .ok a → Decides more (f a)) : Decides (checks ++ more) (r >>= f) := by
  cases r with
  | error e =>
    obtain ⟨passed, check, rest, rfl, hpassed, hfails, he⟩ := h
    exact ⟨passed, check, rest ++ more, by simp, hpassed, hfails, he⟩
  | ok a =>
    have hmore := hf a rfl
    change Decides (checks ++ more) (f a)
    cases hfa : f a with
    | error e =>
      rw [hfa] at hmore
      obtain ⟨passed, check, rest, rfl, hpassed, hfails, he⟩ := hmore
      refine ⟨checks ++ passed, check, rest, by simp, ?_, hfails, he⟩
      intro c hc
      exact (List.mem_append.mp hc).elim (h c) (hpassed c)
    | ok b =>
      rw [hfa] at hmore
      intro c hc
      exact (List.mem_append.mp hc).elim (h c) (hmore c)

/-- A value that is made if `p` holds. -/
theorem decides_dite {ε : Type} {p q : Prop} [Decidable p] (hpq : p ↔ q) (f : p → α) (e : ε)
    (refusal : ε → CommandError) :
    Decides [⟨q, refusal e⟩]
      ((if h : p then .ok (f h) else .error e : Except ε α).mapError refusal) := by
  by_cases h : p
  · rw [dif_pos h]
    exact fun c hc => List.mem_singleton.mp hc ▸ hpq.mp h
  · rw [dif_neg h]
    exact ⟨[], _, [], rfl, List.forall_mem_nil _, mt hpq.mpr h, rfl⟩

theorem decides_if {ε : Type} {p q : Prop} [Decidable p] (hpq : p ↔ q) (a : α) (e : ε)
    (refusal : ε → CommandError) :
    Decides [⟨q, refusal e⟩] ((if p then .ok a else .error e : Except ε α).mapError refusal) :=
  decides_dite hpq (fun _ => a) e refusal

/-- A computation that begins with a refusal if `p` holds. -/
theorem decides_ite {p q : Prop} [Decidable p] {checks : List Check} {e : CommandError}
    {r r' : Except CommandError α} (hr : r = .error e) (hpq : ¬ p ↔ q)
    (h : ¬ p → Decides checks r') : Decides (⟨q, e⟩ :: checks) (if p then r else r') := by
  by_cases hp : p
  · rw [if_pos hp, hr]
    exact ⟨[], _, checks, rfl, List.forall_mem_nil _, fun hq => hpq.mpr hq hp, rfl⟩
  · rw [if_neg hp]
    have hall : Decides [⟨q, e⟩] (.ok () : Except CommandError Unit) :=
      fun c hc => List.mem_singleton.mp hc ▸ hpq.mp hp
    exact hall.bind fun _ _ => h hp

/-! ## What is checked of a request -/

/-- What is asked of a line, in this order. -/
def OrderLine.checks (line : OrderLine) : List Check :=
  [⟨0 ≤ line.unitPrice.coeff, .validation (.negativeMoney line.unitPrice)⟩,
   ⟨1 ≤ line.quantity ∧ line.quantity < limit32, .validation (.invalidQuantity line.quantity)⟩,
   ⟨Text.trim line.name ≠ "", .order (.validation (.requiredField "OrderItem" "name"))⟩]

/-- Whether there is an available menu item under this id. -/
def Stores.offers (s : Stores) (id : String) : Bool :=
  s.menuItems[id]?.any (·.value.available)

/-- What is asked of an order before its lines, in this order. -/
def Stores.checks (s : Stores) (id : String) (number : Int) (lines : List OrderLine) :
    List Check :=
  [⟨lines ≠ [], .order .emptyOrder⟩,
   ⟨s.orders[id]? = none, .orderAlreadyExists id⟩,
   ⟨∀ line ∈ lines, s.offers line.menuItemId = true,
    .menuItem (.notAvailable ((lines.map (·.menuItemId)).filter (!s.offers ·)))⟩,
   ⟨1 ≤ number ∧ number < limit32, .validation (.invalidTableNumber number)⟩,
   ⟨id ≠ "", .order (.validation (.requiredField "Order" "id"))⟩] ++ lines.flatMap OrderLine.checks

/-- A request that nothing is wrong with. -/
structure Stores.Takes (s : Stores) (id : String) (number : Int) (lines : List OrderLine) :
    Prop where
  nonempty : lines ≠ []
  absent : s.orders[id]? = none
  offered : ∀ line ∈ lines, ∃ v, s.menuItems[line.menuItemId]? = some v ∧ v.value.available = true
  table : 1 ≤ number ∧ number < limit32
  named : id ≠ ""
  price : ∀ line ∈ lines, 0 ≤ line.unitPrice.coeff
  quantity : ∀ line ∈ lines, 1 ≤ line.quantity ∧ line.quantity < limit32
  name : ∀ line ∈ lines, Text.trim line.name ≠ ""

namespace Stores

variable {s : Stores} {ids : IdSource} {id : String} {number : Int} {lines : List OrderLine}

theorem offers_iff : s.offers id = true ↔
    ∃ v, s.menuItems[id]? = some v ∧ v.value.available = true := by
  simp [offers, Option.any_eq_true]

theorem takes_iff : s.Takes id number lines ↔ ∀ c ∈ s.checks id number lines, c.holds := by
  simp only [checks, OrderLine.checks, List.forall_mem_append, List.forall_mem_cons,
    List.forall_mem_flatMap, offers_iff, List.not_mem_nil, false_imp_iff, implies_true, and_true]
  constructor
  · rintro ⟨h₁, h₂, h₃, h₄, h₅, h₆, h₇, h₈⟩
    exact ⟨⟨h₁, h₂, h₃, h₄, h₅⟩, fun line hline => ⟨h₆ line hline, h₇ line hline, h₈ line hline⟩⟩
  · rintro ⟨⟨h₁, h₂, h₃, h₄, h₅⟩, h⟩
    exact ⟨h₁, h₂, h₃, h₄, h₅, fun line hline => (h line hline).1,
      fun line hline => (h line hline).2.1, fun line hline => (h line hline).2.2⟩

end Stores

/-! ## Lines -/

/-- An item as it is made of a line. -/
structure OrderItem.IsOf (itemId : String) (line : OrderLine) (item : OrderItem) : Prop where
  id : item.id = Text.trim itemId
  menuItemId : item.menuItemId = line.menuItemId
  name : item.name = Text.trim line.name
  unitPrice : item.unitPrice.amount = line.unitPrice
  quantity : (item.quantity.value : Int) = line.quantity
  status : item.status = .pending

/-- What is recorded of a new item. -/
def OrderItem.added (orderId : String) (item : OrderItem) : OrderEvent :=
  .itemAdded orderId item.id item.menuItemId item.name item.unitPrice.amount item.quantity.value

theorem Money.of?_decides (amount : Decimal) :
    Decides [⟨0 ≤ amount.coeff, .validation (.negativeMoney amount)⟩]
      ((Money.of? amount).mapError .validation) :=
  decides_dite Iff.rfl _ _ _

theorem Quantity.of?_decides (n : Int) :
    Decides [⟨1 ≤ n ∧ n < limit32, .validation (.invalidQuantity n)⟩]
      ((Quantity.of? n).mapError .validation) :=
  decides_dite (by omega) _ _ _

theorem TableNumber.of?_decides (n : Int) :
    Decides [⟨1 ≤ n ∧ n < limit32, .validation (.invalidTableNumber n)⟩]
      ((TableNumber.of? n).mapError .validation) :=
  decides_dite (by omega) _ _ _

theorem requireText_eq (entity field value : String) :
    requireText entity field value =
      if Text.trim value ≠ "" then .ok (Text.trim value)
      else .error (.requiredField entity field) := by
  rw [requireText]
  split
  · rename_i t h
    obtain ⟨rfl, hne⟩ := Text.required?_eq_some_iff.mp h
    rw [if_pos hne]
  · rename_i h
    rw [if_neg]
    intro hne
    rw [Text.required?_eq_some_iff.mpr ⟨rfl, hne⟩] at h
    cases h

theorem Order.requireText_decides (entity field value : String) :
    Decides [⟨Text.trim value ≠ "", .order (.validation (.requiredField entity field))⟩]
      ((Order.requireText entity field value).mapError .order) := by
  rw [requireText, requireText_eq]
  by_cases h : Text.trim value ≠ ""
  · rw [if_pos h]
    exact fun c hc => List.mem_singleton.mp hc ▸ h
  · rw [if_neg h]
    exact ⟨[], _, [], rfl, List.forall_mem_nil _, h, rfl⟩

theorem Money.amount_of? {amount : Decimal} {price : Money} (h : Money.of? amount = .ok price) :
    price.amount = amount := by
  rw [of?] at h
  split at h
  · rw [← Except.ok.inj h]
  · cases h

theorem Quantity.value_of? {n : Int} {quantity : Quantity} (h : Quantity.of? n = .ok quantity) :
    (quantity.value : Int) = n := by
  rw [of?] at h
  split at h
  · rw [← Except.ok.inj h]
    show (n.toNat : Int) = n
    omega
  · cases h

theorem TableNumber.value_of? {n : Int} {table : TableNumber} (h : TableNumber.of? n = .ok table) :
    (table.value : Int) = n := by
  rw [of?] at h
  split at h
  · rw [← Except.ok.inj h]
    show (n.toNat : Int) = n
    omega
  · cases h

namespace Order

variable {order order' : Order}

theorem addItem_decides {itemId menuItemId : String} (name : String) (price : Money)
    (quantity : Quantity) (hopen : order.status = .opened) (hitem : Text.trim itemId ≠ "")
    (hmenu : Text.trim menuItemId ≠ "") :
    Decides [⟨Text.trim name ≠ "", .order (.validation (.requiredField "OrderItem" "name"))⟩]
      ((order.addItem itemId menuItemId name price quantity).mapError .order) := by
  have hassert : order.assertOpen = .ok () := by rw [assertOpen, if_pos hopen]
  have hi : requireText "OrderItem" "id" itemId = .ok (Text.trim itemId) := by
    rw [requireText, requireText_eq, if_pos hitem]
    rfl
  have hm : requireText "OrderItem" "menu_item_id" menuItemId = .ok (Text.trim menuItemId) := by
    rw [requireText, requireText_eq, if_pos hmenu]
    rfl
  have hn := requireText_decides "OrderItem" "name" name
  simp only [addItem, change, OrderM.addItem, OrderM.run_check_bind, hassert, hi, hm]
  cases hname : requireText "OrderItem" "name" name with
  | error e =>
    rw [hname] at hn
    exact hn
  | ok t =>
    rw [hname] at hn
    exact hn

/-- A line is added whenever nothing is wrong with it: ids are not blank, and no requested id is. -/
theorem addAll_decides {ids : IdSource} {lines : List OrderLine} (hopen : order.status = .opened)
    (hids : ∀ n, ids.used ≤ n → Text.trim (ids.text n) ≠ "")
    (hlines : ∀ line ∈ lines, Text.trim line.menuItemId ≠ "") :
    Decides (lines.flatMap OrderLine.checks) (order.addAll ids lines) := by
  induction lines generalizing order ids with
  | nil => exact decides_ok _
  | cons line rest ih =>
    refine (Money.of?_decides line.unitPrice).bind fun price _ => ?_
    refine (Quantity.of?_decides line.quantity).bind fun quantity _ => ?_
    refine (addItem_decides line.name price quantity hopen (hids ids.used (Nat.le_refl _))
      (hlines line List.mem_cons_self)).bind fun order₁ hadd => ?_
    obtain ⟨-, item, -, -, -, -, -, -, rfl⟩ := addItem_ok (mapError_ok hadd)
    exact ih hopen (fun n hn => hids n (Nat.le_of_succ_le hn))
      fun line hline => hlines line (List.mem_cons_of_mem _ hline)

/-- The items are made of the lines, in their order, under the ids that come next. -/
theorem addAll_eq {ids ids' : IdSource} {lines : List OrderLine}
    (h : order.addAll ids lines = .ok (order', ids'))
    (hlines : ∀ line ∈ lines, Text.trim line.menuItemId = line.menuItemId) :
    ∃ items, List.Forall₂ (fun p => OrderItem.IsOf (ids.text p.2) p.1) (lines.zipIdx ids.used)
        items ∧
      order' = { order with
        items := order.items ++ items
        recorded := order.recorded ++ items.map (OrderItem.added order.id) } := by
  induction lines generalizing order ids with
  | nil =>
    cases h
    exact ⟨[], .nil, by simp⟩
  | cons line rest ih =>
    obtain ⟨price, quantity, order₁, hprice, hquantity, hadd, hrest⟩ := addAll_cons_ok h
    obtain ⟨-, item, hid, hmenu, hname, rfl, rfl, hstatus, rfl⟩ := addItem_ok hadd
    obtain ⟨items, hitems, rfl⟩ :=
      ih hrest fun line hline => hlines line (List.mem_cons_of_mem _ hline)
    have hitem : item.IsOf (ids.text ids.used) line := by
      refine ⟨(Text.trim_eq_of_required? hid).symm, ?_, (Text.trim_eq_of_required? hname).symm,
        Money.amount_of? hprice, Quantity.value_of? hquantity, hstatus⟩
      rw [← Text.trim_eq_of_required? hmenu, hlines line List.mem_cons_self]
    refine ⟨item :: items, .cons hitem hitems, ?_⟩
    simp [OrderItem.added]

/-- A new order with its lines. -/
theorem addAll_place {id : String} {table : TableNumber} {ids ids' : IdSource}
    {lines : List OrderLine} (hplace : Order.place id table = .ok order)
    (h : order.addAll ids lines = .ok (order', ids')) (hid : Text.trim id = id)
    (hlines : ∀ line ∈ lines, Text.trim line.menuItemId = line.menuItemId) :
    ∃ items, List.Forall₂ (fun p => OrderItem.IsOf (ids.text p.2) p.1) (lines.zipIdx ids.used)
        items ∧
      order' = ⟨id, table, items, .opened,
        .placed id table.value :: items.map (OrderItem.added id)⟩ := by
  obtain ⟨items, hitems, rfl⟩ := addAll_eq h hlines
  obtain ⟨hrequired, hplaced⟩ := place_ok hplace
  have hown : order.id = id := (Text.trim_eq_of_required? hrequired).symm.trans hid
  rw [hown] at hplaced
  refine ⟨items, hitems, ?_⟩
  rw [hplaced]
  rfl

theorem place_decides {id : String} (table : TableNumber) (hid : Text.trim id = id) :
    Decides [⟨id ≠ "", .order (.validation (.requiredField "Order" "id"))⟩]
      ((Order.place id table).mapError .order) := by
  have hn := requireText_decides "Order" "id" id
  rw [hid] at hn
  rw [place]
  cases h : requireText "Order" "id" id with
  | error e =>
    rw [h] at hn
    exact hn
  | ok t =>
    rw [h] at hn
    exact hn

end Order

/-! ## Requests -/

namespace Stores

variable {s : Stores} {ids : IdSource} {id : String} {number : Int} {lines : List OrderLine}

/-- What is missing among the requested menu items is what is not on offer. -/
theorem verifyAvailable_menuItemsOf (hs : s.Settled) (requested : List String) :
    verifyAvailable requested (s.menuItemsOf requested) =
      if requested.filter (!s.offers ·) = [] then .ok ()
      else .error (.notAvailable (requested.filter (!s.offers ·))) := by
  have hmissing : (requested.filter fun id =>
      !(s.menuItemsOf requested).any fun m => m.id == id && m.available) =
        requested.filter (!s.offers ·) := by
    refine List.filter_congr fun id hid => congrArg _ ?_
    rw [Bool.eq_iff_iff, offers_iff, List.any_eq_true]
    constructor
    · rintro ⟨item, hitem, hfits⟩
      obtain ⟨other, -, hother⟩ := List.mem_filterMap.mp hitem
      obtain ⟨v, hv, rfl⟩ := Option.map_eq_some_iff.mp hother
      obtain ⟨hown, havailable⟩ := (Bool.and_eq_true _ _).mp hfits
      obtain rfl : other = id := (hs.menuItems hv).1.symm.trans (beq_iff_eq.mp hown)
      exact ⟨v, hv, havailable⟩
    · rintro ⟨v, hv, havailable⟩
      refine ⟨v.value, List.mem_filterMap.mpr ⟨id, hid, by rw [hv]; rfl⟩, ?_⟩
      rw [(hs.menuItems hv).1, havailable, beq_self_eq_true]
      rfl
  simp only [verifyAvailable, hmissing]

/-- Menu items are committed under trimmed ids that are not blank. -/
theorem Lawful.required_menuItem (hs : s.Settled) {v : Versioned MenuItem}
    (hv : s.menuItems[id]? = some v) : Text.trim id = id ∧ id ≠ "" := by
  obtain ⟨hown, hsettled⟩ := hs.menuItems hv
  have hrequired := hsettled.id
  rw [show Aggregate.id v.value = id from hown] at hrequired
  obtain ⟨htrim, hne⟩ := Text.required?_eq_some_iff.mp hrequired
  exact ⟨htrim.symm, hne⟩

theorem placed?_decides (hs : s.Settled) (hids : ∀ n, ids.used ≤ n → Text.trim (ids.text n) ≠ "")
    (hid : Text.trim id = id) :
    Decides (s.checks id number lines) (s.placed? ids id number lines) := by
  change Decides (_ :: _ :: ([_] ++ ([_] ++ ([_] ++ lines.flatMap OrderLine.checks)))) _
  refine decides_ite rfl Iff.rfl fun _ => ?_
  refine decides_ite rfl (by simp) fun _ => ?_
  have hoffered : Decides [⟨∀ line ∈ lines, s.offers line.menuItemId = true,
      .menuItem (.notAvailable ((lines.map (·.menuItemId)).filter (!s.offers ·)))⟩]
        ((verifyAvailable (lines.map (·.menuItemId))
          (s.menuItemsOf (lines.map (·.menuItemId)))).mapError .menuItem) := by
    rw [verifyAvailable_menuItemsOf hs]
    exact decides_if (by simp) _ _ _
  refine hoffered.bind fun _ hverified => ?_
  refine (TableNumber.of?_decides number).bind fun table _ => ?_
  refine (Order.place_decides table hid).bind fun order hplace => ?_
  have hopen : order.status = .opened := by rw [(Order.place_ok (mapError_ok hplace)).2]
  refine Order.addAll_decides hopen hids ?_
  intro line hline
  -- the requested ids have been found on the menu, where no id is blank
  rw [hverified] at hoffered
  obtain ⟨v, hv, -⟩ := offers_iff.mp (hoffered _ List.mem_cons_self line hline)
  obtain ⟨htrim, hne⟩ := hs.required_menuItem hv
  rw [htrim]
  exact hne

end Stores

/-- The stores behind an accepted request: the order is open, with one pending item for each line,
and the log tells of the order first and then of its items. Nothing else has changed. -/
structure Backend.Places (policy : RetryPolicy) (b : Backend) (id : String) (number : Int)
    (lines : List OrderLine) (after : Stores) (table : TableNumber) (items : List OrderItem)
    (entries : List Entry) : Prop where
  table_eq : (table.value : Int) = number
  items_of : List.Forall₂ (fun p => OrderItem.IsOf (b.ids.text p.2) p.1)
    (lines.zipIdx b.ids.used) items
  stored : after.orders[id]? = some ⟨1, ⟨id, table, items, .opened, []⟩⟩
  others {other : String} : other ≠ id → after.orders[other]? = b.stores.orders[other]?
  menuItems : after.menuItems = b.stores.menuItems
  outbox : after.outbox = b.stores.outbox ++ entries
  told : List.Forall₂ (Entry.IsNew policy id (Aggregate.kind Order) b.clock)
    ((.placed id table.value :: items.map (OrderItem.added id)).map OrderEvent.toDomain) entries

theorem Accepts.places {policy : RetryPolicy} {b : Backend} {id : String} {number : Int}
    {lines : List OrderLine} {count : Nat} {after : Stores}
    (h : Accepts policy b (.placeOrder id number lines) count after) (hid : Text.trim id = id)
    (hlines : ∀ line ∈ lines, Text.trim line.menuItemId = line.menuItemId) :
    count = lines.length + 1 ∧
      ∃ table items entries, b.Places policy id number lines after table items entries := by
  cases h with
  | menuItem change => cases change
  | order change id_eq count_eq committed menuItems =>
    cases change with
    | @placed _ _ _ table order₀ order ids' nonempty absent dishes seat make adds =>
      obtain ⟨items, hitems, rfl⟩ := Order.addAll_place make adds hid hlines
      obtain ⟨entries, houtbox, htold, -, -⟩ := committed.outbox
      have hfirst : versionOf b.stores.orders id = 0 := by
        rw [versionOf, absent]
        rfl
      have hstored : after.orders[id]? = some ⟨versionOf b.stores.orders id + 1,
          ⟨id, table, items, .opened, []⟩⟩ := committed.stored
      rw [hfirst] at hstored
      refine ⟨?_, table, items, entries, TableNumber.value_of? seat, hitems, hstored,
        committed.others, menuItems, houtbox, htold⟩
      rw [count_eq]
      show ((OrderEvent.placed id table.value :: items.map _).map _).length = _
      rw [List.length_map, List.length_cons, List.length_map, ← hitems.length_eq,
        List.length_zipIdx]

theorem Backend.HasFreshIds.draws {b : Backend} (h : b.HasFreshIds)
    (hblank : ∀ n, b.ids.used ≤ n → Text.trim (b.ids.text n) ≠ "") : b.Draws [] where
  injective := h.injective
  notBlank := hblank _
  free {e n} he hn := by
    rw [List.append_nil] at he
    exact h.free e he n hn

/-- An order is placed if and only if nothing is wrong with the request. Then it is stored as it was
asked for. Otherwise the error is that of the first check that fails, and the stores are as they
were. -/
theorem Stores.Reachable.takes_or_refuses {b : Backend} (hreach : b.stores.Reachable)
    (hfresh : b.HasFreshIds) (hblank : ∀ n, b.ids.used ≤ n → Text.trim (b.ids.text n) ≠ "")
    {id : String} (hid : Text.trim id = id) (policy : RetryPolicy) (number : Int)
    (lines : List OrderLine) :
    ((∃ count, ((Command.placeOrder id number lines).execute policy b).1 = .ok count) ↔
        b.stores.Takes id number lines) ∧
      match (Command.placeOrder id number lines).execute policy b with
      | (.ok count, b') => count = lines.length + 1 ∧ ∃ table items entries,
          b.Places policy id number lines b'.stores table items entries
      | (.error e, b') =>
        FirstFailed (b.stores.checks id number lines) e ∧ b'.stores = b.stores := by
  have hs := hreach.settled
  have hresult := Command.result_placeOrder (hfresh.draws hblank) policy id number lines
  have hdecides : Decides (b.stores.checks id number lines)
      (b.stores.placed? b.ids id number lines) := Stores.placed?_decides hs hblank hid
  have hspec := Command.execute_spec policy (.placeOrder id number lines) hs
  rcases hexecute : (Command.placeOrder id number lines).execute policy b with ⟨e | count, b'⟩
  · rw [hexecute] at hresult hspec
    cases hplaced : b.stores.placed? b.ids id number lines with
    | ok p =>
      rw [hplaced] at hresult
      cases hresult
    | error e' =>
      rw [hplaced] at hresult hdecides
      obtain rfl : e = e' := Except.error.inj hresult
      refine ⟨⟨nofun, fun htakes => ?_⟩, hdecides, hspec⟩
      exact absurd (Stores.takes_iff.mp htakes) hdecides.not_all
  · rw [hexecute] at hresult hspec
    cases hplaced : b.stores.placed? b.ids id number lines with
    | error e' =>
      rw [hplaced] at hresult
      cases hresult
    | ok p =>
      rw [hplaced] at hdecides
      have htakes : b.stores.Takes id number lines := Stores.takes_iff.mpr hdecides
      refine ⟨⟨fun _ => htakes, fun _ => ⟨count, rfl⟩⟩, hspec.places hid ?_⟩
      intro line hline
      obtain ⟨v, hv, -⟩ := htakes.offered line hline
      exact (hs.required_menuItem hv).1

theorem Backend.withTea_ids : Backend.withTea.ids.text = Backend.fresh.ids.text ∧
    Backend.withTea.ids.used = 1 ∧
      Backend.withTea.stores.outbox.map Entry.id = [Backend.fresh.ids.text 0] :=
  ⟨(Command.execute_inPlace {} .fresh _).2, by decide +kernel, by decide +kernel⟩

theorem Backend.withTea_hasFreshIds : Backend.withTea.HasFreshIds := by
  obtain ⟨htext, hused, houtbox⟩ := Backend.withTea_ids
  refine ⟨?_, ?_⟩
  · intro m n _ _ heq
    rw [htext] at heq
    exact Backend.fresh_ids.injective heq
  · intro e he n hn heq
    rw [htext] at heq
    have hmem : e.id ∈ Backend.withTea.stores.outbox.map Entry.id := List.mem_map_of_mem he
    rw [houtbox, List.mem_singleton, heq] at hmem
    obtain rfl : n = 0 := Backend.fresh_ids.injective hmem
    rw [hused] at hn
    exact Nat.not_succ_le_zero 0 hn

/-- Two teas, which are on the menu. -/
def teaLines : List OrderLine :=
  [⟨"tea", " Tea ", .whole 3 three_lt_limit96, 2⟩,
   ⟨"tea", "Cold tea", .whole 3 three_lt_limit96, 1⟩]

/-- Cakes, which are not, and a tea without a name. -/
def cakeLines : List OrderLine :=
  [⟨"cake", "Cake", .whole 3 three_lt_limit96, 1⟩, ⟨"tea", "", .whole 3 three_lt_limit96, 1⟩,
   ⟨"cake", "Cake", .whole 3 three_lt_limit96, 0⟩]

theorem teaLines_takes_or_refuses :
    ((Command.placeOrder "o1" 4 teaLines).execute {} .withTea).1 = .ok 3 ∧
      Backend.withTea.stores.Takes "o1" 4 teaLines ∧
      ((Command.placeOrder "o1" 4 cakeLines).execute {} .withTea).1 =
        .error (.menuItem (.notAvailable ["cake", "cake"])) ∧
      FirstFailed (Backend.withTea.stores.checks "o1" 4 cakeLines)
        (.menuItem (.notAvailable ["cake", "cake"])) := by
  have hreach : Backend.withTea.stores.Reachable :=
    ⟨_, (Backend.reachable_of_empty rfl).execute {} _, rfl⟩
  have hblank : ∀ n, Backend.withTea.ids.used ≤ n →
      Text.trim (Backend.withTea.ids.text n) ≠ "" := by
    intro n _
    rw [Backend.withTea_ids.1]
    obtain ⟨htrim, hne⟩ := Text.required?_eq_some_iff.mp (Backend.fresh_ids.required n)
    rwa [← htrim]
  have htrim : Text.trim "o1" = "o1" := by decide +kernel
  have haccepted : ((Command.placeOrder "o1" 4 teaLines).execute {} .withTea).1 = .ok 3 := by
    decide +kernel
  have hrefused : ((Command.placeOrder "o1" 4 cakeLines).execute {} .withTea).1 =
      .error (.menuItem (.notAvailable ["cake", "cake"])) := by
    decide +kernel
  have htea := hreach.takes_or_refuses Backend.withTea_hasFreshIds hblank htrim {} 4 teaLines
  obtain ⟨-, hcake⟩ :=
    hreach.takes_or_refuses Backend.withTea_hasFreshIds hblank htrim {} 4 cakeLines
  refine ⟨haccepted, htea.1.mp ⟨3, haccepted⟩, hrefused, ?_⟩
  revert hrefused hcake
  rcases (Command.placeOrder "o1" 4 cakeLines).execute {} .withTea with ⟨r, b'⟩
  rintro rfl h
  exact h.1

end TableService
