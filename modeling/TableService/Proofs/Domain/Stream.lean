import TableService.Proofs.Domain.Availability
import TableService.Proofs.Domain.Effect

/-!
# The shape of a story

What an aggregate is determines much of the list of events that lead to it.

- `OrderState.Streams`: an order is placed first and only then. Each of its items has been added,
  then made what it is. If the order is closed, that came last.
- `MenuItemState.Streams`: a menu item is created first and only then. From then on it is sold out
  and available by turns.
- `OrderState.streams_of_leads`, `MenuItemState.streams_of_leads`: so it is with all events that
  fit.
-/

namespace TableService

/-! ## Orders -/

namespace OrderEvent

/-- The item that an event is about. -/
def itemId? : OrderEvent → Option String
  | itemAdded _ itemId _ _ _ _ | dishReady _ itemId | itemCancelled _ itemId => some itemId
  | placed _ _ | completed _ | cancelled _ => none

/-- Whether the order is new with the event. -/
def isPlaced : OrderEvent → Bool
  | placed _ _ => true
  | itemAdded _ _ _ _ _ _ | dishReady _ _ | itemCancelled _ _ | completed _ | cancelled _ => false

end OrderEvent

open OrderEvent

/-- The events about an item of an order: it was added, and a pending item has seen nothing else. -/
def ItemState.events (orderId : String) (item : ItemState) : List OrderEvent :=
  .itemAdded orderId item.id item.menuItemId item.name item.unitPrice item.quantity ::
    match item.status with
    | .pending => []
    | .ready => [.dishReady orderId item.id]
    | .cancelled => [.itemCancelled orderId item.id]

namespace OrderState

/-- The event that has closed an order. -/
def closing (s : OrderState) : List OrderEvent :=
  match s.status with
  | .opened => []
  | .completed => [.completed s.id]
  | .cancelled => [.cancelled s.id]

/-- The shape of the events that lead to an order. -/
structure Streams (s : OrderState) (events : List OrderEvent) : Prop where
  placed : ∃ rest, events = .placed s.id s.table :: rest ∧ ∀ e ∈ rest, e.isPlaced = false
  items (itemId : String) : events.filter (·.itemId? = some itemId) =
    (s.find? itemId).elim [] (ItemState.events s.id)
  closed : ∃ front, events = front ++ s.closing ∧ ∀ e ∈ front, e.status? = none

variable {s : OrderState} {events : List OrderEvent} {itemId : String}

theorem find?_setItem (s : OrderState) (itemId other : String) (status : ItemStatus) :
    (s.setItem itemId status).find? other =
      if itemId = other then (s.find? itemId).map ({ · with status }) else s.find? other := by
  obtain ⟨id, table, items, orderStatus⟩ := s
  simp only [find?, setItem]
  induction items with
  | nil => split <;> rfl
  | cons item rest ih =>
    by_cases hid : item.id = itemId
    · subst hid
      by_cases hother : item.id = other
      · simp [updateFirst, hother]
      · simp [updateFirst, hother]
    · by_cases hother : item.id = other
      · subst hother
        simp [updateFirst, hid, Ne.symm hid]
      · simpa [updateFirst, hid, hother] using ih

@[simp] theorem id_setItem (s : OrderState) (itemId : String) (status : ItemStatus) :
    (s.setItem itemId status).id = s.id := rfl

theorem id_add (s : OrderState) (item : ItemState) : (s.add item).id = s.id := by
  unfold add
  split <;> rfl

/-- No event changes the id. -/
theorem id_after {t : OrderState} {e : OrderEvent} (h : after (some s) e = some t) :
    t.id = s.id := by
  cases e with
  | itemAdded => exact Option.some.inj h ▸ id_add s _
  | _ =>
    cases h
    rfl

theorem closing_of_opened (h : s.status = .opened) : s.closing = [] := by
  rw [closing, h]

theorem streams_placed (id : String) (table : Nat) :
    Streams ⟨id, table, [], .opened⟩ [.placed id table] where
  placed := ⟨[], rfl, by simp⟩
  items _ := rfl
  closed := ⟨[.placed id table], rfl, by simp [status?]⟩

/-- Behind the first event, no order is placed. -/
theorem Streams.placed_concat {t : OrderState} {e : OrderEvent} (h : s.Streams events)
    (hid : t.id = s.id) (htable : t.table = s.table) (he : e.isPlaced = false) :
    ∃ rest, events ++ [e] = .placed t.id t.table :: rest ∧ ∀ e ∈ rest, e.isPlaced = false := by
  obtain ⟨rest, rfl, hrest⟩ := h.placed
  refine ⟨rest ++ [e], ?_, List.forall_mem_append.mpr ⟨hrest, List.forall_mem_singleton.mpr he⟩⟩
  rw [hid, htable]
  rfl

/-- As long as an order is open, no event has closed it. -/
theorem Streams.closed_concat {t : OrderState} {e : OrderEvent} (h : s.Streams events)
    (hopen : s.status = .opened) (ht : t.status = .opened) (he : e.status? = none) :
    ∃ front, events ++ [e] = front ++ t.closing ∧ ∀ e ∈ front, e.status? = none := by
  obtain ⟨front, rfl, hfront⟩ := h.closed
  rw [closing_of_opened hopen, closing_of_opened ht, List.append_nil]
  exact ⟨front ++ [e], (List.append_nil _).symm,
    List.forall_mem_append.mpr ⟨hfront, List.forall_mem_singleton.mpr he⟩⟩

theorem Streams.add {item : ItemState} (h : s.Streams events) (hopen : s.status = .opened)
    (hnew : s.find? item.id = none) (hpending : item.status = .pending) :
    (s.add item).Streams (events ++ [.itemAdded s.id item.id item.menuItemId item.name
      item.unitPrice item.quantity]) := by
  have hadd : s.add item = { s with items := s.items ++ [item] } := by
    rw [OrderState.add, hnew]
    rfl
  rw [hadd]
  refine ⟨h.placed_concat rfl rfl rfl, fun itemId => ?_, h.closed_concat hopen hopen rfl⟩
  rw [List.filter_append, h.items itemId, find?, find?, List.find?_append]
  by_cases hid : item.id = itemId
  · subst hid
    have hnone : s.items.find? (·.id == item.id) = none := hnew
    simp [hnone, itemId?, ItemState.events, hpending]
  · simp [itemId?, hid]

/-- A pending item is made ready or cancelled. -/
theorem Streams.setItem {itemId : String} {status : ItemStatus} {e : OrderEvent}
    (h : s.Streams events) (hopen : s.status = .opened) (hpending : s.IsPending itemId)
    (hplaced : e.isPlaced = false) (hstatus : e.status? = none) (hitem : e.itemId? = some itemId)
    (hevents : ∀ item : ItemState, item.id = itemId → item.status = .pending →
      item.events s.id ++ [e] = ItemState.events s.id { item with status }) :
    (s.setItem itemId status).Streams (events ++ [e]) := by
  refine ⟨h.placed_concat rfl rfl hplaced, fun other => ?_, h.closed_concat hopen hopen hstatus⟩
  rw [List.filter_append, h.items other, find?_setItem]
  by_cases hid : itemId = other
  · subst hid
    obtain ⟨item, hfind, hp⟩ := hpending
    have hown : item.id = itemId := by simpa using List.find?_some hfind
    simpa [hfind, hitem] using hevents item hown hp
  · simp [hitem, hid]

/-- An open order is completed or cancelled. -/
theorem Streams.setStatus {status : OrderStatus} {e : OrderEvent} (h : s.Streams events)
    (hopen : s.status = .opened) (hplaced : e.isPlaced = false) (hitem : e.itemId? = none)
    (hclosing : closing { s with status } = [e]) :
    Streams { s with status } (events ++ [e]) := by
  refine ⟨h.placed_concat rfl rfl hplaced, fun itemId => ?_, ?_⟩
  · rw [List.filter_append, h.items itemId]
    simp [hitem, find?]
  · obtain ⟨front, rfl, hfront⟩ := h.closed
    rw [closing_of_opened hopen, List.append_nil, hclosing]
    exact ⟨front, rfl, hfront⟩

/-- An event that fits keeps the shape. -/
theorem Streams.after {t : OrderState} {e : OrderEvent} (h : s.Streams events)
    (hfits : Fits (some s) e) (habout : e.orderId = s.id)
    (ht : OrderState.after (some s) e = some t) : t.Streams (events ++ [e]) := by
  cases e with
  | placed => exact hfits.elim
  | itemAdded id itemId menuItemId name unitPrice quantity =>
    obtain rfl : id = s.id := habout
    obtain rfl := Option.some.inj ht
    exact h.add hfits.1 hfits.2.1 rfl
  | dishReady id itemId | itemCancelled id itemId =>
    obtain rfl : id = s.id := habout
    obtain rfl := Option.some.inj ht
    refine h.setItem hfits.1 hfits.2 rfl rfl rfl fun item hid hp => ?_
    simp [ItemState.events, hid, hp]
  | completed id | cancelled id =>
    obtain rfl : id = s.id := habout
    obtain rfl := Option.some.inj ht
    exact h.setStatus hfits rfl rfl rfl

theorem streams_of_leads {events : List (Story.Event Order)} {s : OrderState}
    (h : Leads Order none events (some s)) (habout : ∀ e ∈ events, Story.about e = s.id) :
    s.Streams events := by
  induction events using List.reverseRecOn generalizing s with
  | nil => cases h
  | append_singleton events e ih =>
    obtain ⟨hevents, hfits⟩ := h.of_concat
    have hafter := h.foldl_eq
    rw [List.foldl_append] at hafter
    cases hs : events.foldl Story.after none with
    | none =>
      -- the first event places the order
      rw [hs] at hevents hfits hafter
      obtain rfl := hevents.eq_nil
      cases e with
      | placed id table =>
        obtain rfl := Option.some.inj hafter
        exact streams_placed id table
      | _ => exact hfits.elim
    | some s' =>
      rw [hs] at hevents hfits hafter
      have hid : s.id = s'.id := id_after hafter
      rw [hid] at habout
      refine (ih hevents fun e' he' => ?_).after hfits (habout e ?_) hafter
      · exact habout e' (List.mem_append_left _ he')
      · exact List.mem_append_right _ List.mem_cons_self

end OrderState

/-! ## Menu items -/

open MenuItemEvent

namespace MenuItemState

/-- The shape of the events that lead to a menu item. -/
structure Streams (s : MenuItemState) (events : List MenuItemEvent) : Prop where
  created : ∃ rest, events = .created s.id s.name s.price :: rest ∧ ∀ e ∈ rest, e.isCreated = false
  byTurns : (events.map offers).IsChain (· ≠ ·)
  last : (events.map offers).getLast? = some s.available

/-- An event that changes whether the item is available. -/
theorem Streams.setAvailable {s : MenuItemState} {events : List MenuItemEvent} {e : MenuItemEvent}
    (h : s.Streams events) (he : e.isCreated = false) (hother : s.available ≠ e.offers) :
    Streams { s with available := e.offers } (events ++ [e]) := by
  refine ⟨?_, ?_, by simp⟩
  · obtain ⟨rest, rfl, hrest⟩ := h.created
    exact ⟨rest ++ [e], rfl,
      List.forall_mem_append.mpr ⟨hrest, List.forall_mem_singleton.mpr he⟩⟩
  · rw [List.map_append]
    refine h.byTurns.append (List.isChain_singleton _) fun a ha b hb => ?_
    obtain rfl : s.available = a := Option.some.inj (h.last.symm.trans ha)
    obtain rfl : e.offers = b := Option.some.inj hb
    exact hother

theorem streams_of_leads {events : List (Story.Event MenuItem)} {s : MenuItemState}
    (h : Leads MenuItem none events (some s)) : s.Streams events := by
  induction events using List.reverseRecOn generalizing s with
  | nil => cases h
  | append_singleton events e ih =>
    obtain ⟨hevents, hfits⟩ := h.of_concat
    have hafter := h.foldl_eq
    rw [List.foldl_append] at hafter
    cases hs : events.foldl Story.after none with
    | none =>
      -- the first event creates the item
      rw [hs] at hevents hfits hafter
      obtain rfl := hevents.eq_nil
      cases e with
      | created id name price =>
        obtain rfl := Option.some.inj hafter
        exact ⟨⟨[], rfl, by simp⟩, List.isChain_singleton _, rfl⟩
      | _ => exact hfits.elim
    | some s' =>
      rw [hs] at hevents hfits hafter
      have hstreams := ih hevents
      cases e with
      | created => exact hfits.elim
      | soldOut id =>
        obtain rfl := Option.some.inj hafter
        exact hstreams.setAvailable (e := .soldOut id) rfl (Bool.ne_false_iff.mpr hfits)
      | available id =>
        obtain rfl := Option.some.inj hafter
        exact hstreams.setAvailable (e := .available id) rfl (Bool.eq_false_iff.mp hfits)

end MenuItemState

end TableService
