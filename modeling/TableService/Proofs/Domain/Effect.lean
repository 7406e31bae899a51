import Mathlib
import TableService.Proofs.Domain.Replay

/-!
# Events of an order that do something where they come

- `OrderState.TakesEffect`, `OrderState.InEffect`: an event does something, and so does every event
  of a list.
- `OrderState.Told`: what a list of such events tells, read off the list as a whole.
- `OrderState.replay_eq_of_perm`: they tell the same in another order, as long as items are added in
  the same order.
-/

namespace TableService

/-! ## What an event of an order is for -/

namespace OrderEvent

/-- The item that an event adds. -/
def added? : OrderEvent → Option ItemState
  | itemAdded _ itemId menuItemId name unitPrice quantity =>
    some ⟨itemId, menuItemId, name, unitPrice, quantity, .pending⟩
  | _ => none

/-- What an event makes of the item with this id. -/
def statusOf? (itemId : String) : OrderEvent → Option ItemStatus
  | dishReady _ id => if id = itemId then some .ready else none
  | itemCancelled _ id => if id = itemId then some .cancelled else none
  | _ => none

/-- What an event makes of the order. -/
def status? : OrderEvent → Option OrderStatus
  | completed _ => some .completed
  | cancelled _ => some .cancelled
  | _ => none

end OrderEvent

open OrderEvent

namespace OrderState

/-- Whether an event does something to an order. -/
def TakesEffect : Option OrderState → OrderEvent → Prop
  | none, .placed .. => True
  | none, _ => False
  | some _, .placed .. => False
  | some s, .itemAdded _ itemId _ _ _ _ => s.find? itemId = none
  | some s, .dishReady _ itemId => s.find? itemId ≠ none
  | some s, .itemCancelled _ itemId => s.find? itemId ≠ none
  | some _, .completed _ => True
  | some _, .cancelled _ => True

/-- Every event does something where it comes. -/
def InEffect : Option OrderState → List OrderEvent → Prop
  | _, [] => True
  | s, e :: rest => TakesEffect s e ∧ InEffect (after s e) rest

theorem inEffect_concat {s : Option OrderState} {events : List OrderEvent} {e : OrderEvent} :
    InEffect s (events ++ [e]) ↔ InEffect s events ∧ TakesEffect (events.foldl after s) e := by
  induction events generalizing s with
  | nil => exact and_comm
  | cons first rest ih =>
    show TakesEffect s first ∧ InEffect (after s first) (rest ++ [e]) ↔ _
    rw [ih, ← and_assoc]
    rfl

/-- What fits does something. -/
theorem takesEffect_of_fits {s : Option OrderState} {e : OrderEvent} (h : Fits s e) :
    TakesEffect s e := by
  cases s with
  | none =>
    cases e with
    | placed => trivial
    | _ => exact h.elim
  | some s =>
    cases e with
    | placed => exact h.elim
    | itemAdded => exact h.2.1
    | dishReady | itemCancelled =>
      obtain ⟨-, item, hfind, -⟩ := h
      show s.find? _ ≠ none
      rw [hfind]
      exact Option.some_ne_none item
    | completed => trivial
    | cancelled => trivial

theorem inEffect_of_leads {s t : Option (Story.State Order)} {events : List (Story.Event Order)}
    (h : Leads Order s events t) : InEffect s events := by
  induction h with
  | nil s => trivial
  | cons fits _ ih => exact ⟨takesEffect_of_fits fits, ih⟩

/-! ## What is told, read off the list -/

/-- What a list of events tells, if each of them does something. -/
structure Told (s : OrderState) (events : List OrderEvent) : Prop where
  placed (id : String) (table : Nat) : .placed id table ∈ events ↔ id = s.id ∧ table = s.table
  items : s.items = (events.filterMap added?).map fun item =>
    { item with status := (events.filterMap (statusOf? item.id)).getLastD .pending }
  status : s.status = (events.filterMap status?).getLastD .opened
  nodup : (s.items.map (·.id)).Nodup
  found (itemId : String) : events.filterMap (statusOf? itemId) ≠ [] → s.find? itemId ≠ none

variable {s : OrderState} {events : List OrderEvent} {itemId : String}

theorem find?_eq_none_iff : s.find? itemId = none ↔ itemId ∉ s.items.map (·.id) := by
  simp [find?, List.find?_eq_none]

theorem updateFirst_eq_map {status : ItemStatus} {items : List ItemState}
    (h : (items.map (·.id)).Nodup) :
    updateFirst (·.id == itemId) (fun i : ItemState => { i with status }) items =
      items.map fun i => if i.id = itemId then { i with status } else i := by
  induction items with
  | nil => rfl
  | cons item rest ih =>
    rw [List.map_cons, List.nodup_cons] at h
    by_cases hid : item.id = itemId
    · have hrest : (rest.map fun i => if i.id = itemId then { i with status } else i) = rest := by
        refine (List.map_congr_left fun i hi => if_neg fun heq => h.1 ?_).trans (List.map_id _)
        rw [hid, ← heq]
        exact List.mem_map_of_mem hi
      simp [updateFirst, hid, hrest]
    · simp [updateFirst, hid, ih h.2]

theorem told_placed (id : String) (table : Nat) :
    Told ⟨id, table, [], .opened⟩ [.placed id table] where
  placed id' table' := by simp
  items := rfl
  status := rfl
  nodup := List.nodup_nil
  found _ h := absurd rfl h

/-- An event adds a pending item. -/
theorem Told.add {e : OrderEvent} {item : ItemState} (h : s.Told events)
    (hnew : s.find? item.id = none) (hpending : item.status = .pending)
    (hadded : e.added? = some item) (hstatus : e.status? = none)
    (hplaced : ∀ id table, .placed id table ≠ e) (hitem : ∀ id, e.statusOf? id = none) :
    Told (s.add item) (events ++ [e]) := by
  have hadd : s.add item = { s with items := s.items ++ [item] } := by
    rw [OrderState.add, hnew]
    rfl
  have hitems : ∀ id,
      (events ++ [e]).filterMap (statusOf? id) = events.filterMap (statusOf? id) := by
    intro id
    simp [hitem]
  have hnone : events.filterMap (statusOf? item.id) = [] := by
    by_contra hne
    exact h.found item.id hne hnew
  have hself : item = { item with
      status := (events.filterMap (statusOf? item.id)).getLastD .pending } := by
    rw [hnone, List.getLastD_nil, ← hpending]
  rw [hadd]
  refine ⟨?_, ?_, ?_, ?_, ?_⟩
  · intro id table
    simp only [List.mem_append, List.mem_singleton, hplaced id table, or_false]
    exact h.placed id table
  · -- nothing has happened to the new item, so it is pending
    simp only [hitems, List.filterMap_append, List.filterMap_cons, hadded, List.filterMap_nil,
      List.map_append, List.map_singleton]
    rw [← h.items, ← hself]
  · simp only [List.filterMap_append, List.filterMap_cons, hstatus, List.filterMap_nil,
      List.append_nil]
    exact h.status
  · rw [List.map_append, List.nodup_append]
    refine ⟨h.nodup, List.nodup_singleton _, ?_⟩
    rintro _ ha _ hb rfl
    rw [List.map_singleton, List.mem_singleton] at hb
    rw [hb] at ha
    exact find?_eq_none_iff.mp hnew ha
  · intro id hid
    rw [hitems] at hid
    have hfound := h.found id hid
    rw [Ne, find?_eq_none_iff, not_not] at hfound ⊢
    rw [List.map_append]
    exact List.mem_append_left _ hfound

/-- An event about an item sets its status. -/
theorem Told.setItem {e : OrderEvent} {status : ItemStatus} (h : s.Told events)
    (hfound : s.find? itemId ≠ none) (hadded : e.added? = none) (hstatus : e.status? = none)
    (hplaced : ∀ id table, .placed id table ≠ e)
    (hitem : ∀ id, e.statusOf? id = if itemId = id then some status else none) :
    Told (s.setItem itemId status) (events ++ [e]) := by
  have hids : (s.setItem itemId status).items.map (·.id) = s.items.map (·.id) := by
    refine map_updateFirst ?_ s.items
    intro item
    rfl
  refine ⟨?_, ?_, ?_, ?_, ?_⟩
  · intro id table
    simp only [List.mem_append, List.mem_singleton, hplaced id table, or_false]
    exact h.placed id table
  · -- the last status of an item is the new one if the event is about it
    rw [OrderState.setItem, updateFirst_eq_map h.nodup]
    simp only [List.filterMap_append, List.filterMap_cons, hadded, List.filterMap_nil,
      List.append_nil, hitem]
    rw [h.items, List.map_map]
    refine List.map_congr_left ?_
    intro item _
    by_cases hid : item.id = itemId
    · simp [hid]
    · simp [hid, Ne.symm hid]
  · simp only [List.filterMap_append, List.filterMap_cons, hstatus, List.filterMap_nil,
      List.append_nil]
    exact h.status
  · rw [hids]
    exact h.nodup
  · intro id hid
    rw [Ne, find?_eq_none_iff, hids, ← find?_eq_none_iff]
    by_cases heq : itemId = id
    · rw [← heq]
      exact hfound
    · refine h.found id ?_
      intro hnil
      exact hid (by simp [List.filterMap_append, hnil, hitem, heq])

/-- An event about the order sets its status. -/
theorem Told.setStatus {e : OrderEvent} {status : OrderStatus} (h : s.Told events)
    (hadded : e.added? = none) (hplaced : ∀ id table, .placed id table ≠ e)
    (hitem : ∀ id, e.statusOf? id = none) (hstatus : e.status? = some status) :
    Told { s with status } (events ++ [e]) := by
  have hitems : ∀ id,
      (events ++ [e]).filterMap (statusOf? id) = events.filterMap (statusOf? id) := by
    intro id
    simp [hitem]
  refine ⟨?_, ?_, ?_, h.nodup, ?_⟩
  · intro id table
    simp only [List.mem_append, List.mem_singleton, hplaced id table, or_false]
    exact h.placed id table
  · simp only [hitems, List.filterMap_append, List.filterMap_cons, hadded, List.filterMap_nil,
      List.append_nil]
    exact h.items
  · simp [hstatus]
  · intro id hid
    rw [hitems] at hid
    exact h.found id hid

/-- Events that all do something tell what can be read off their list. -/
theorem told_of_inEffect (h : InEffect none events) (hne : events ≠ []) :
    ∃ s, Story.replay Order events = some s ∧ s.Told events := by
  induction events using List.reverseRecOn with
  | nil => exact absurd rfl hne
  | append_singleton events e ih =>
    obtain ⟨hevents, heffect⟩ := inEffect_concat.mp h
    have hafter : Story.replay Order (events ++ [e]) = after (Story.replay Order events) e :=
      Story.replay_concat Order events e
    rw [hafter]
    change TakesEffect (Story.replay Order events) e at heffect
    by_cases hnil : events = []
    · -- only the placing of an order does something at first
      subst hnil
      cases e with
      | placed id table => exact ⟨_, rfl, told_placed id table⟩
      | _ => exact heffect.elim
    · obtain ⟨s, hs, htold⟩ := ih hevents hnil
      rw [hs] at heffect ⊢
      cases e with
      | placed => exact heffect.elim
      | itemAdded => exact ⟨_, rfl, htold.add heffect rfl rfl rfl nofun fun _ => rfl⟩
      | dishReady => exact ⟨_, rfl, htold.setItem heffect rfl rfl nofun fun _ => rfl⟩
      | itemCancelled => exact ⟨_, rfl, htold.setItem heffect rfl rfl nofun fun _ => rfl⟩
      | completed => exact ⟨_, rfl, htold.setStatus rfl nofun (fun _ => rfl) rfl⟩
      | cancelled => exact ⟨_, rfl, htold.setStatus rfl nofun (fun _ => rfl) rfl⟩

/-! ## Events that come in another order -/

theorem mem_getLastD {α : Type} {l : List α} (d : α) (h : l ≠ []) : l.getLastD d ∈ l := by
  rw [List.getLastD_eq_getLast?, List.getLast?_eq_some_getLast h]
  exact List.getLast_mem h

theorem statusOf?_ne_pending {e : OrderEvent} : e.statusOf? itemId ≠ some .pending := by
  cases e with
  | dishReady | itemCancelled =>
    simp only [statusOf?]
    split
    · nofun
    · nofun
  | _ => nofun

theorem status?_ne_opened {e : OrderEvent} : e.status? ≠ some .opened := by
  cases e <;> nofun

/-- No event has been about the item as long as it is pending. -/
theorem Told.statusOf_eq_nil (h : s.Told events) (hpending : s.IsPending itemId) :
    events.filterMap (statusOf? itemId) = [] := by
  obtain ⟨item, hfind, hstatus⟩ := hpending
  have hid : item.id = itemId := by simpa using List.find?_some hfind
  have hmem := List.mem_of_find?_eq_some hfind
  rw [h.items] at hmem
  obtain ⟨new, -, rfl⟩ := List.mem_map.mp hmem
  by_contra hne
  rw [← hid] at hne
  -- the last event about the item would have set its status, and not to pending
  have hlast := mem_getLastD ItemStatus.pending hne
  have hpending : (events.filterMap (statusOf? new.id)).getLastD .pending = .pending := hstatus
  rw [hpending] at hlast
  obtain ⟨e, -, he⟩ := List.mem_filterMap.mp hlast
  exact statusOf?_ne_pending he

/-- No event has been about the order as long as it is open. -/
theorem Told.status_eq_nil (h : s.Told events) (hopen : s.status = .opened) :
    events.filterMap status? = [] := by
  by_contra hne
  have hlast := mem_getLastD OrderStatus.opened hne
  rw [← h.status, hopen] at hlast
  obtain ⟨e, -, he⟩ := List.mem_filterMap.mp hlast
  exact status?_ne_opened he

/-- An item is made ready or cancelled once, and so is an order completed or cancelled. -/
theorem length_statuses {events : List (Story.Event Order)} {t : Option (Story.State Order)}
    (h : Leads Order none events t) (itemId : String) :
    (events.filterMap (statusOf? itemId)).length ≤ 1 ∧ (events.filterMap status?).length ≤ 1 := by
  induction events using List.reverseRecOn generalizing t with
  | nil => exact ⟨Nat.zero_le _, Nat.zero_le _⟩
  | append_singleton events e ih =>
    obtain ⟨hevents, hfits⟩ := h.of_concat
    obtain ⟨hitem, horder⟩ := ih hevents
    by_cases hnil : events = []
    · subst hnil
      simp only [List.nil_append, List.filterMap_cons, List.filterMap_nil]
      constructor
      · cases e.statusOf? itemId <;> simp
      · cases e.status? <;> simp
    · obtain ⟨s, hs, htold⟩ := told_of_inEffect (inEffect_of_leads hevents) hnil
      have hfits : Fits (some s) e := by
        rw [← hs]
        exact hfits
      rw [List.filterMap_append, List.filterMap_append, List.length_append, List.length_append]
      cases e with
      | placed => exact hfits.elim
      | itemAdded => exact ⟨hitem, horder⟩
      | dishReady orderId id | itemCancelled orderId id =>
        -- the event fits, so its item is pending and no other event has been about it
        refine ⟨?_, horder⟩
        by_cases hid : id = itemId
        · subst hid
          rw [htold.statusOf_eq_nil hfits.2]
          simp [statusOf?]
        · simpa [statusOf?, hid] using hitem
      | completed | cancelled =>
        refine ⟨hitem, ?_⟩
        rw [htold.status_eq_nil hfits]
        simp [status?]

theorem eq_of_perm_of_length {α : Type} {l l' : List α} (h : l.Perm l') (hlength : l'.length ≤ 1) :
    l = l' := by
  match l', hlength with
  | [], _ => exact h.eq_nil
  | [a], _ => exact List.perm_singleton.mp h

/-- Events that all do something tell the same in another order, as long as items are added in the
same order. -/
theorem replay_eq_of_perm {events others : List (Story.Event Order)}
    {t : Option (Story.State Order)} (h : Leads Order none events t) (hperm : others.Perm events)
    (heffect : InEffect none others)
    (hadded : others.filterMap added? = events.filterMap added?) :
    Story.replay Order others = Story.replay Order events := by
  by_cases hnil : events = []
  · subst hnil
    rw [hperm.eq_nil]
  · have hnil' : others ≠ [] := by
      rintro rfl
      exact hnil hperm.symm.eq_nil
    -- whatever is told can be read off a list that has the same events
    obtain ⟨s, hs, htold⟩ := told_of_inEffect (inEffect_of_leads h) hnil
    obtain ⟨s', hs', htold'⟩ := told_of_inEffect heffect hnil'
    have hfirst : s'.id = s.id ∧ s'.table = s.table := by
      rw [← htold.placed, ← hperm.mem_iff, htold'.placed]
      exact ⟨rfl, rfl⟩
    have hstatus : s'.status = s.status := by
      rw [htold.status, htold'.status,
        eq_of_perm_of_length (hperm.filterMap _) (length_statuses h "").2]
    have hitems : s'.items = s.items := by
      rw [htold.items, htold'.items, hadded]
      refine List.map_congr_left ?_
      intro item _
      rw [eq_of_perm_of_length (hperm.filterMap _) (length_statuses h item.id).1]
    rw [hs, hs']
    obtain ⟨id, table, items, status⟩ := s
    obtain ⟨id', table', items', status'⟩ := s'
    obtain ⟨rfl, rfl⟩ := hfirst
    obtain rfl : status' = status := hstatus
    obtain rfl : items' = items := hitems
    rfl

end OrderState

end TableService
