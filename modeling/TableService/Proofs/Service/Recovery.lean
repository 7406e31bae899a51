import Mathlib.Data.List.Perm.Basic
import TableService.Proofs.Domain.Availability
import TableService.Proofs.Domain.Weight
import TableService.Proofs.Service.Prefix

/-!
# When failed attempts do no harm

- `Flow.AllDone`: all entries about an aggregate are processed, its events were delivered in some
  order.
- `Flow.Reached.shows_committed_iff`: then an order is shown as it is committed exactly if every
  event did something when it was delivered and items came in the order of the log; a menu item,
  exactly if the last event since its creation leaves it as available as the last one in the log.
-/

namespace TableService

/-! ## Everything is delivered once -/

/-- If all entries about an aggregate are processed, then those that have been delivered are the
same. -/
theorem Log.Relays.perm_of {α : Type} [Aggregate α] {log waiting delivered : List Entry}
    {id : String} (h : Log.Relays log waiting delivered) (hn : (log.map Entry.id).Nodup)
    (hall : ∀ e ∈ Log.of α log id, e.status = .processed) :
    ((Log.of α delivered id).map Entry.id).Perm ((Log.of α log id).map Entry.id) := by
  have hdelivered : ((Log.of α delivered id).map Entry.id).Nodup :=
    h.delivered_nodup.sublist (List.filter_sublist.map _)
  have hlog : ((Log.of α log id).map Entry.id).Nodup := hn.sublist (List.filter_sublist.map _)
  rw [List.perm_ext_iff_of_nodup hdelivered hlog]
  intro entryId
  rw [List.mem_map, List.mem_map]
  constructor
  · rintro ⟨d, hd, rfl⟩
    obtain ⟨hd, habout⟩ := Log.mem_of.mp hd
    obtain ⟨e, he, hsame, -⟩ := h.arrived d hd
    exact ⟨e, Log.mem_of.mpr ⟨he, hsame.isAbout_eq.trans habout⟩, hsame.id⟩
  · rintro ⟨e, he, rfl⟩
    obtain ⟨hmem, habout⟩ := Log.mem_of.mp he
    obtain ⟨d, hd, hsame⟩ := h.processed e hmem (hall e he)
    exact ⟨d, Log.mem_of.mpr ⟨hd, hsame.isAbout_eq.symm.trans habout⟩, hsame.id.symm⟩

namespace Flow

/-- All events of an aggregate have been delivered: the log has them as `events`, and they came as
`delivered`. -/
structure AllDone (α : Type) [Aggregate α] [Collection α] [Story α] [Shown α] (w : Flow)
    (id : String) (events delivered : List (Story.Event α)) : Prop where
  carries : List.Forall₂ (Entry.Carries α) (Log.of α w.service.log id) events
  leads : Leads α none events (w.service.backend.stores.told α id)
  arrived : List.Forall₂ (Entry.Carries α) (Log.of α w.delivered id) delivered
  perm : delivered.Perm events
  shows : Shows α w.service.models id (Story.replay α delivered)

variable {w : Flow} {id : String}

theorem Sound.exists_allDone {α : Type} [Aggregate α] [Collection α] [Story α] [Shown α]
    (h : w.Sound) (hrecounts : w.service.backend.stores.Recounts α)
    (hdelivers : Delivers α w.delivered w.service.models)
    (hall : ∀ e ∈ Log.of α w.service.log id, e.status = .processed) :
    ∃ events delivered, w.AllDone α id events delivered := by
  obtain ⟨events, hcarries, hleads⟩ := hrecounts id
  obtain ⟨delivered, harrived, hshows⟩ := hdelivers id
  -- the entries of the log and those that were delivered have the same ids, in some order
  have hperm : delivered.Perm events := by
    refine List.rel_perm_imp (Log.hasAt_unique h.log.nodup) (h.relays.forall₂_hasAt harrived) ?_
      (h.relays.perm_of h.log.nodup hall)
    refine Log.forall₂_hasAt ?_ hcarries
    intro e he
    exact ⟨e, (Log.mem_of.mp he).1, .refl e⟩
  exact ⟨events, delivered, hcarries, hleads, harrived, hperm, hshows⟩

theorem AllDone.shows_told {α : Type} [Aggregate α] [Collection α] [Story α] [Shown α]
    {events delivered : List (Story.Event α)} (h : w.AllDone α id events delivered)
    (heq : Story.replay α delivered = w.service.backend.stores.told α id) :
    Shows α w.service.models id (w.service.backend.stores.told α id) := by
  rw [← heq]
  exact h.shows

end Flow

/-! ## Orders -/

theorem OrderStatus.text_injective : Function.Injective OrderStatus.text := by
  intro a b h
  cases a <;> cases b <;> first | rfl | exact absurd h (by decide)

theorem ItemStatus.text_injective : Function.Injective ItemStatus.text := by
  intro a b h
  cases a <;> cases b <;> first | rfl | exact absurd h (by decide)

/-- What is shown of the items of an order: their ids and statuses. -/
theorem map_of_mapM_model? {items : List ItemState} {shown : List OrderItemModel}
    (h : items.mapM ItemState.model? = some shown) :
    shown.map (·.itemId) = items.map (·.id) ∧ shown.map (·.status) = items.map (·.status.text) := by
  induction items generalizing shown with
  | nil =>
    cases h
    exact ⟨rfl, rfl⟩
  | cons item rest ih =>
    obtain ⟨first, others, hfirst, hothers, rfl⟩ := mapM_cons_eq_some.mp h
    obtain ⟨total, -, rfl⟩ := Option.map_eq_some_iff.mp hfirst
    obtain ⟨hids, hstatuses⟩ := ih hothers
    exact ⟨congrArg (_ :: ·) hids, congrArg (_ :: ·) hstatuses⟩

theorem map_of_forall₂_shownAs {items : List OrderItem} {shown : List OrderItemModel}
    (h : List.Forall₂ OrderItem.ShownAs items shown) :
    shown.map (·.itemId) = items.map (·.id) ∧ shown.map (·.status) = items.map (·.status.text) := by
  induction h with
  | nil => exact ⟨rfl, rfl⟩
  | cons hfirst _ ih =>
    obtain ⟨hids, hstatuses⟩ := ih
    simp only [List.map_cons, hids, hstatuses, hfirst.itemId, hfirst.status, and_self]

/-- If a read model shows both what is told and the order, the two agree. -/
theorem OrderState.agree_of_shownAs {s : OrderState} {order : Order} {shown : OrderModel}
    (hmodel : s.model? = some shown) (h : order.ShownAs shown) :
    s.items.map (·.id) = order.state.items.map (·.id) ∧
      s.items.map (·.status) = order.state.items.map (·.status) ∧
      s.status = order.state.status := by
  obtain ⟨-, hitems, hshown⟩ := OrderState.model?_eq_some hmodel
  obtain ⟨hids, hstatuses⟩ := map_of_mapM_model? hitems
  obtain ⟨hids', hstatuses'⟩ := map_of_forall₂_shownAs h.items
  refine ⟨?_, ?_, ?_⟩
  · rw [← hids, hids', Order.state, List.map_map]
    rfl
  · have htexts : (s.items.map (·.status)).map ItemStatus.text =
        (order.state.items.map (·.status)).map ItemStatus.text := by
      rw [List.map_map, List.map_map, Order.state, List.map_map]
      exact hstatuses.symm.trans hstatuses'
    exact List.map_injective_iff.mpr ItemStatus.text_injective htexts
  · have htext : shown.status = s.status.text := by rw [hshown]
    exact OrderStatus.text_injective (htext.symm.trans h.status)

/-! ## Menu items -/

/-- If the menu answers both what is told and what is committed, the two offer the item alike. -/
theorem Service.available_of_answersMenu {s : Service} {id : String} {v : Versioned MenuItem}
    {available : Bool} (hv : s.backend.stores.menuItems[id]? = some v)
    (hanswers : s.AnswersMenu id (some { v.value.state with available }))
    (hcommitted : s.AnswersCommittedMenuItem id) : available = v.value.available := by
  have hlisted : s.listed id = .ok (if available then
      [⟨v.value.id, v.value.name, v.value.price.amount.plain, true⟩] else []) := hanswers
  unfold Service.AnswersCommittedMenuItem at hcommitted
  rw [hv] at hcommitted
  cases hoffered : v.value.available with
  | true =>
    simp only [hoffered, if_true] at hcommitted
    obtain ⟨shown, hshown, -⟩ := hcommitted
    rw [hshown] at hlisted
    cases available with
    | true => rfl
    | false => cases hlisted
  | false =>
    simp only [hoffered, Bool.false_eq_true, if_false] at hcommitted
    rw [hcommitted] at hlisted
    cases available with
    | true => cases hlisted
    | false => rfl

/-! ## What the order of delivery decides -/

open OrderEvent MenuItemEvent

namespace Flow

variable {w : Flow} {id : String}

theorem AllDone.answersCommittedOrder_iff {events delivered : List (Story.Event Order)}
    (h : w.AllDone Order id events delivered) (hup : w.service.outage = []) :
    w.service.AnswersCommittedOrder id ↔ OrderState.InEffect none delivered ∧
      delivered.filterMap added? = events.filterMap added? := by
  constructor
  · intro hanswers
    unfold Service.AnswersCommittedOrder at hanswers
    cases hv : w.service.backend.stores.orders[id]? with
    | none =>
      -- nothing has happened, so nothing was delivered
      have hleads := h.leads
      rw [Stores.told_eq_none hv] at hleads
      have hperm := h.perm
      rw [hleads.eq_nil] at hperm
      rw [hleads.eq_nil, hperm.eq_nil]
      exact ⟨trivial, rfl⟩
    | some v =>
      rw [hv] at hanswers
      obtain ⟨shown, hget, hshown⟩ := hanswers
      have htold : w.service.backend.stores.told Order id = some v.value.state :=
        congrArg (Option.map _) hv
      have hleads := h.leads
      rw [htold] at hleads
      have horder := h.shows.answersOrder hup
      cases hreplay : Story.replay Order delivered with
      | none =>
        rw [hreplay] at horder
        cases hget.symm.trans horder
      | some s =>
        rw [hreplay] at horder
        obtain ⟨shown', hmodel, hget'⟩ := horder
        obtain rfl : shown = shown' := Except.ok.inj (hget.symm.trans hget')
        obtain ⟨hids, hstatuses, hstatus⟩ := OrderState.agree_of_shownAs hmodel hshown
        exact OrderState.inEffect_of_agree hleads h.perm hreplay hids hstatuses hstatus
  · -- the other way, the events tell the same as in the order of the log
    rintro ⟨heffect, hadded⟩
    have hreplay := OrderState.replay_eq_of_perm h.leads h.perm heffect hadded
    have htold : Story.replay Order events = w.service.backend.stores.told Order id :=
      h.leads.foldl_eq
    exact ((h.shows_told (hreplay.trans htold)).answersOrder hup).committed

theorem AllDone.answersCommittedMenuItem_iff {events delivered : List (Story.Event MenuItem)}
    (h : w.AllDone MenuItem id events delivered) (hup : w.service.outage = [])
    (hdelivers : Delivers MenuItem w.delivered w.service.models) :
    w.service.AnswersCommittedMenuItem id ↔
      (sinceCreation delivered).getLast?.map offers = events.getLast?.map offers := by
  have hanswers := h.shows.answersMenu hup hdelivers
  cases hv : w.service.backend.stores.menuItems[id]? with
  | none =>
    -- nothing has happened, and nothing is listed
    have hleads := h.leads
    have htold := Stores.told_eq_none hv
    rw [htold] at hleads
    have hperm := h.perm
    rw [hleads.eq_nil] at hperm
    rw [hleads.eq_nil, hperm.eq_nil]
    rw [hperm.eq_nil] at hanswers
    refine iff_of_true ?_ rfl
    refine Service.AnswersMenu.committed ?_
    rw [htold]
    exact hanswers
  | some v =>
    have htold : w.service.backend.stores.told MenuItem id = some v.value.state :=
      congrArg (Option.map _) hv
    have hleads := h.leads
    rw [htold] at hleads
    obtain ⟨available, hreplay, hsince, hlast⟩ := MenuItemState.replay_of_perm hleads h.perm
    rw [hsince, hlast, Option.some.injEq]
    constructor
    · intro hcommitted
      rw [hreplay] at hanswers
      exact Service.available_of_answersMenu hv hanswers hcommitted
    · intro heq
      refine ((h.shows_told ?_).answersMenu hup hdelivers).committed
      rw [hreplay, htold, heq]

/-- Once all entries about an aggregate are processed, an order is shown as it is committed exactly
if every event did something when it was delivered, and items were added in the order of the log. A
menu item is, exactly if the last event since its creation says of it what the last one in the log
says. -/
theorem Reached.shows_committed_iff (h : w.Reached) (id : String) :
    ((∀ e ∈ Log.of Order w.service.log id, e.status = .processed) →
      ∃ events delivered, w.AllDone Order id events delivered ∧
        (w.service.AnswersCommittedOrder id ↔ OrderState.InEffect none delivered ∧
          delivered.filterMap added? = events.filterMap added?)) ∧
    ((∀ e ∈ Log.of MenuItem w.service.log id, e.status = .processed) →
      ∃ events delivered, w.AllDone MenuItem id events delivered ∧
        (w.service.AnswersCommittedMenuItem id ↔
          (sinceCreation delivered).getLast?.map offers = events.getLast?.map offers)) := by
  have hsound := h.sound
  constructor
  · intro hall
    obtain ⟨events, delivered, hdone⟩ := hsound.exists_allDone hsound.orders hsound.shownOrders hall
    exact ⟨events, delivered, hdone, hdone.answersCommittedOrder_iff hsound.up.outage⟩
  · intro hall
    obtain ⟨events, delivered, hdone⟩ :=
      hsound.exists_allDone hsound.menuItems hsound.shownMenuItems hall
    exact ⟨events, delivered, hdone,
      hdone.answersCommittedMenuItem_iff hsound.up.outage hsound.shownMenuItems⟩

/-! ## An item that is lost -/

/-- A pass over the first entry that is due. -/
def once (w : Flow) (fault : Option ProjectionFailure) : Flow :=
  match w.service.log.filter (·.isDue w.service.now) with
  | [] => w
  | entry :: _ => w.attempt fault entry []

theorem Reached.once (h : w.Reached) (hidle : w.waiting = []) (fault : Option ProjectionFailure) :
    (w.once fault).Reached ∧ (w.once fault).waiting = [] := by
  have hfound := h.sound.findPending_eq 1
  unfold Flow.once
  cases hdue : w.service.log.filter (·.isDue w.service.now) with
  | nil => exact ⟨h, hidle⟩
  | cons entry rest =>
    rw [hdue] at hfound
    exact ⟨(h.step (.fetch hidle hfound)).step (.attempt rfl fault), rfl⟩

/-- The dish has been projected. The attempt to project the order has failed, and the item of the
order has been attempted before the order is tried again. -/
def itemSkipped : Flow :=
  ((({ service := .withOrder } : Flow).once none).once (some (.error (.storage "down")))).once none

theorem zero_lt_two_giga : 0 < 2 * giga := by decide

/-- A second later the order may be tried again. -/
def orderDue : Flow :=
  { itemSkipped with
    service := itemSkipped.service.setClock ⟨1, 0, by decide, by decide, zero_lt_two_giga⟩ }

/-- Now the order is there, without its item. -/
def itemLost : Flow := orderDue.once none

theorem reached_itemLost : itemLost.Reached := by
  obtain ⟨hmenu, hidle⟩ := Service.reached_withOrder.once rfl none
  obtain ⟨hfailed, hidle⟩ := hmenu.once hidle (some (.error (.storage "down")))
  obtain ⟨hskipped, hidle⟩ : itemSkipped.Reached ∧ itemSkipped.waiting = [] :=
    hfailed.once hidle none
  have hlater : itemSkipped.Step orderDue := .setClock (by decide +kernel)
  have hdue : orderDue.waiting = [] := hidle
  exact ((hskipped.step hlater).once hdue none).1

/-- Every entry about the order is processed, and its item is not shown. -/
theorem itemLost_not_shown : itemLost.Reached ∧
    (∀ e ∈ Log.of Order itemLost.service.log "o1", e.status = .processed) ∧
    ¬ itemLost.service.AnswersCommittedOrder "o1" := by
  have hall : ∀ e ∈ Log.of Order itemLost.service.log "o1", e.status = .processed := by
    decide +kernel
  refine ⟨reached_itemLost, hall, ?_⟩
  obtain ⟨events, delivered, hdone, hiff⟩ :=
    (Reached.shows_committed_iff reached_itemLost "o1").1 hall
  rw [hiff]
  rintro ⟨heffect, -⟩
  have hfirst : ((Log.of Order itemLost.delivered "o1").head?.map (·.eventType)) =
    some "OrderItemAdded" := by decide +kernel
  have harrived := hdone.arrived
  generalize Log.of Order itemLost.delivered "o1" = entries at hfirst harrived
  cases harrived with
  | nil => cases hfirst
  | @cons entry e _ _ hcarries _ =>
    -- nothing but the placing of an order does something before the order is there
    have hname : Story.name e = "OrderItemAdded" :=
      hcarries.eventType.symm.trans (Option.some.inj hfirst)
    cases e with
    | placed =>
      have hother : "OrderPlaced" ≠ "OrderItemAdded" := by decide
      exact absurd hname hother
    | _ => exact heffect.1.elim

end Flow

end TableService
