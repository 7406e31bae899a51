import TableService.Proofs.Command.Outcome
import TableService.Proofs.Domain.Replay

/-!
# What an accepted command records

- `IdSource.Fresh`: ids that are all different, and that are kept as they are.
- `Recorded`: the events recorded in an aggregate lead from what is committed under its id to what
  the aggregate is now.
- `MenuItemChange.recorded`, `OrderChange.recorded`: so it is with what a command makes.
-/

namespace TableService

/-- Ids that never repeat, are not blank, and have no blanks around them. -/
structure IdSource.Fresh (ids : IdSource) : Prop where
  injective : Function.Injective ids.text
  required (n : Nat) : Text.required? (ids.text n) = some (ids.text n)

/-- No two items of a committed order have the same id. -/
def Stores.HaveDistinctItems (s : Stores) : Prop :=
  ∀ {id : String} {v : Versioned Order}, s.orders[id]? = some v → v.value.HasDistinctItems

/-- To commit an order leaves all others as they are. -/
theorem Stores.HaveDistinctItems.commit {policy : RetryPolicy} {now : Instant} {s s' : Stores}
    {order : Order} (h : s.HaveDistinctItems) (ha : Appended policy now s s' order)
    (hdistinct : order.HasDistinctItems) : s'.HaveDistinctItems := by
  intro id v hv
  by_cases hid : id = order.id
  · subst hid
    have hstored := ha.stored.symm.trans hv
    rw [← Option.some.inj hstored]
    exact hdistinct
  · exact h ((ha.others hid).symm.trans hv)

/-- What is committed under an id, as its events tell it. -/
def Stores.told (α : Type) [Aggregate α] [Collection α] [Story α] (s : Stores) (id : String) :
    Option (Story.State α) :=
  (Collection.committed (α := α) s)[id]?.map fun v => Story.state v.value

section

variable {α : Type} [Aggregate α] [Collection α] [Story α]

/-- The events recorded in `a` are about it, and lead from what is committed to what it is now. -/
structure Recorded (s : Stores) (a : α) : Prop where
  leads : Leads α (s.told α (Aggregate.id a)) (Story.recorded a) (some (Story.state a))
  about : ∀ e ∈ Story.recorded a, Story.about e = Aggregate.id a

omit [Collection α] in
theorem Settled.recorded_eq_nil {a : α} (h : Settled a) : Story.recorded a = [] := by
  have hevents := h.events
  rw [Story.events_eq, List.map_eq_nil_iff] at hevents
  exact hevents

theorem Stores.told_eq_none {s : Stores} {id : String}
    (h : (Collection.committed (α := α) s)[id]? = none) : s.told α id = none := by
  rw [Stores.told, h]
  rfl

/-- A change that tells, of an aggregate that has handed on its events. -/
theorem Recorded.of_tells {s : Stores} {id : String} {v : Versioned α} {a : α}
    (hv : (Collection.committed (α := α) s)[id]? = some v) (hid : Aggregate.id v.value = id)
    (hsettled : Settled v.value) (h : Tells v.value a) : Recorded s a := by
  obtain ⟨events, hrecorded, habout, hleads⟩ := h.events
  rw [hsettled.recorded_eq_nil, List.nil_append] at hrecorded
  have htold : s.told α (Aggregate.id a) = some (Story.state v.value) := by
    rw [Stores.told, h.id_eq, hid, hv]
    rfl
  constructor
  · rw [htold, hrecorded]
    exact hleads
  · rw [hrecorded, h.id_eq]
    exact habout

end

/-! ## Menu items -/

theorem MenuItemChange.recorded {s : Stores} {command : Command} {item : MenuItem}
    (h : MenuItemChange s command item) (hs : s.Settled)
    (htarget : Text.trim command.target = command.target) : Recorded s item := by
  cases h with
  | created absent money make =>
    obtain ⟨hleads, habout⟩ := MenuItem.leads_create make
    have hid : item.id = _ :=
      (Text.trim_eq_of_required? (MenuItem.create_ok make).1).symm.trans htarget
    have htold : s.told MenuItem item.id = none := by
      rw [hid]
      exact Stores.told_eq_none absent
    refine ⟨?_, habout⟩
    show Leads MenuItem (s.told MenuItem item.id) _ _
    rw [htold]
    exact hleads
  | soldOut found =>
    obtain ⟨hid, hsettled⟩ := hs.menuItems found
    exact .of_tells found hid hsettled (MenuItem.tells_markSoldOut _)
  | available found =>
    obtain ⟨hid, hsettled⟩ := hs.menuItems found
    exact .of_tells found hid hsettled (MenuItem.tells_markAvailable _)

/-! ## Orders -/

/-- Lines that are added under fresh ids. The ids of the items that are there are gone already. -/
theorem Order.tells_addAll {order order' : Order} {ids ids' : IdSource} {lines : List OrderLine}
    (hids : ids.Fresh) (hold : ∀ item ∈ order.items, ∃ n < ids.used, item.id = ids.text n)
    (hdistinct : order.HasDistinctItems) (h : order.addAll ids lines = .ok (order', ids')) :
    Tells order order' ∧ order'.HasDistinctItems := by
  induction lines generalizing order ids with
  | nil =>
    cases h
    exact ⟨.refl _, hdistinct⟩
  | cons line rest ih =>
    obtain ⟨price, quantity, order₁, -, -, hadd, hrest⟩ := Order.addAll_cons_ok h
    have htext : ids.next.1 = ids.text ids.used := rfl
    have htrim : Text.trim (ids.text ids.used) = ids.text ids.used :=
      Text.trim_eq_of_required? (hids.required ids.used)
    -- ids do not repeat, so the next one is not the id of an item that is there
    have hnew : ∀ item ∈ order.items, item.id ≠ Text.trim ids.next.1 := by
      intro item hitem heq
      obtain ⟨n, hn, hid⟩ := hold item hitem
      rw [htext, htrim, hid] at heq
      exact Nat.ne_of_lt hn (hids.injective heq)
    obtain ⟨-, item, hid, -, -, -, -, -, hitems⟩ := addItem_ok hadd
    -- the id of the new item is taken now, too
    have hold' : ∀ other ∈ order₁.items, ∃ n < ids.used + 1, other.id = ids.text n := by
      intro other hother
      rw [hitems] at hother
      rcases List.mem_append.mp hother with hother | hother
      · obtain ⟨n, hn, hid⟩ := hold other hother
        exact ⟨n, Nat.lt_succ_of_lt hn, hid⟩
      · rw [List.mem_singleton.mp hother, ← Text.trim_eq_of_required? hid, htext, htrim]
        exact ⟨ids.used, Nat.lt_succ_self _, rfl⟩
    have hids' : IdSource.Fresh ids.next.2 := ⟨hids.injective, hids.required⟩
    obtain ⟨htells, hdistinct'⟩ := ih hids' hold' (hdistinct.addItem hadd hnew) hrest
    exact ⟨(tells_addItem hadd hnew).trans htells, hdistinct'⟩

theorem OrderChange.recorded {s : Stores} {ids : IdSource} {command : Command} {order : Order}
    (h : OrderChange s ids command order) (hs : s.Settled) (hitems : s.HaveDistinctItems)
    (hids : ids.Fresh) (htarget : Text.trim command.target = command.target) :
    Recorded s order ∧ order.HasDistinctItems := by
  cases h with
  | placed nonempty absent dishes seat make items =>
    obtain ⟨hleads, habout⟩ := Order.leads_place make
    have hempty := (Order.place_ok make).2
    have hplaced := Order.hasDistinctItems_place make
    obtain ⟨htells, hdistinct⟩ := Order.tells_addAll hids (by rw [hempty]; simp) hplaced items
    obtain ⟨events, hrecorded, habout', hleads'⟩ := htells.events
    -- nothing is committed under the id yet, so the story begins here
    have hid : order.id = _ :=
      htells.id_eq.trans ((Text.trim_eq_of_required? (Order.place_ok make).1).symm.trans htarget)
    have htold : s.told Order order.id = none := by
      rw [hid]
      exact Stores.told_eq_none absent
    refine ⟨⟨?_, ?_⟩, hdistinct⟩
    · show Leads Order (s.told Order order.id) _ _
      rw [htold, hrecorded]
      exact hleads.append hleads'
    · intro e he
      rw [hrecorded] at he
      rcases List.mem_append.mp he with he | he
      · exact (habout e he).trans htells.id_eq.symm
      · exact (habout' e he).trans htells.id_eq.symm
  | itemReady found change =>
    obtain ⟨hid, hsettled⟩ := hs.orders found
    exact ⟨.of_tells found hid hsettled (Order.tells_markItemReady change),
      (hitems found).markItemReady change⟩
  | itemCancelled found change =>
    obtain ⟨hid, hsettled⟩ := hs.orders found
    exact ⟨.of_tells found hid hsettled (Order.tells_cancelItem change),
      (hitems found).cancelItem change⟩
  | completed found change =>
    obtain ⟨hid, hsettled⟩ := hs.orders found
    exact ⟨.of_tells found hid hsettled (Order.tells_complete change),
      (hitems found).complete change⟩
  | cancelled found change =>
    obtain ⟨hid, hsettled⟩ := hs.orders found
    exact ⟨.of_tells found hid hsettled (Order.tells_cancel change (hitems found)),
      (hitems found).cancel change⟩

end TableService
