import TableService.Proofs.Command.Conduct
import TableService.Proofs.Command.Work
import TableService.Proofs.Outbox.Recounting
import TableService.Proofs.Service.Delivery
import TableService.Proofs.Service.Flow

/-!
# What holds at any time of a flow

- `Flow.Sound`: the invariant. The log recounts what is committed, and the read models show what has
  been delivered.
- `Flow.Reached.sound`: it holds of whatever can come of a new service.
-/

namespace TableService

/-! ## Behind a command -/

/-- The stores behind a command: as before, or with one aggregate and the events that lead to it. -/
inductive Stores.Moves (policy : RetryPolicy) (now : Instant) (s s' : Stores) : Prop where
  | refused (same : s' = s)
  | order {order : Order} (committed : Committed policy now s s' order)
      (recorded : Recorded s order) (distinct : order.HasDistinctItems)
      (menuItems : s'.menuItems = s.menuItems)
  | menuItem {item : MenuItem} (committed : Committed policy now s s' item)
      (recorded : Recorded s item) (orders : s'.orders = s.orders)

theorem Command.execute_moves (policy : RetryPolicy) {b : Backend} {command : Command}
    (hs : b.stores.Settled) (hdistinct : b.stores.HaveDistinctItems) (hids : b.ids.Fresh)
    (htrimmed : Text.trim command.target = command.target) :
    b.stores.Moves policy b.clock (command.execute policy b).2.stores := by
  have hspec := Command.execute_spec policy command hs
  revert hspec
  rcases command.execute policy b with ⟨_ | count, b'⟩
  · exact .refused
  · intro haccepts
    cases haccepts with
    | menuItem change id_eq count_eq committed orders =>
      exact .menuItem committed (change.recorded hs htrimmed) orders
    | order change id_eq count_eq committed menuItems =>
      obtain ⟨hrecorded, hitems⟩ := change.recorded hs hdistinct hids htrimmed
      exact .order committed hrecorded hitems menuItems

theorem IdSource.Fresh.of_text_eq {ids ids' : IdSource} (h : ids.Fresh)
    (htext : ids'.text = ids.text) : ids'.Fresh where
  injective := htext ▸ h.injective
  required n := htext ▸ h.required n

namespace Stores.Moves

variable {policy : RetryPolicy} {now : Instant} {s s' : Stores}

theorem haveDistinctItems (h : s.Moves policy now s') (hdistinct : s.HaveDistinctItems) :
    s'.HaveDistinctItems := by
  cases h with
  | refused same => exact same ▸ hdistinct
  | menuItem committed recorded orders =>
    intro id v hv
    rw [orders] at hv
    exact hdistinct hv
  | order committed recorded distinct menuItems =>
    exact hdistinct.commit committed.appended distinct

theorem recounts (h : s.Moves policy now s') (horders : s.Recounts Order)
    (hitems : s.Recounts MenuItem) : s'.Recounts Order ∧ s'.Recounts MenuItem := by
  cases h with
  | refused same => exact same ▸ ⟨horders, hitems⟩
  | menuItem committed recorded orders =>
    exact ⟨horders.commit_other committed.appended recorded apart_menuItem.kind orders,
      hitems.commit committed.appended recorded⟩
  | order committed recorded distinct menuItems =>
    exact ⟨horders.commit committed.appended recorded,
      hitems.commit_other committed.appended recorded apart_order.kind menuItems⟩

/-- The log has grown by pending entries. -/
theorem outbox (h : s.Moves policy now s') (hsound : Log.Sound s.outbox now)
    (hretries : policy.maxRetries ≠ 0) : Log.Sound s'.outbox now ∧
      ∃ entries, s'.outbox = s.outbox ++ entries ∧ ∀ e ∈ entries, e.status = .pending := by
  cases h with
  | refused same =>
    rw [same]
    exact ⟨hsound, [], (List.append_nil _).symm, fun e he => absurd he List.not_mem_nil⟩
  | menuItem committed recorded orders =>
    obtain ⟨entries, hlog, hnew⟩ := committed.entries recorded
    refine ⟨hlog ▸ hsound.commit hnew hretries .menuItem, entries, hlog, fun e he => ?_⟩
    exact (hnew.isNew e he).choose_spec.status
  | order committed recorded distinct menuItems =>
    obtain ⟨entries, hlog, hnew⟩ := committed.entries recorded
    refine ⟨hlog ▸ hsound.commit hnew hretries .order, entries, hlog, fun e he => ?_⟩
    exact (hnew.isNew e he).choose_spec.status

end Stores.Moves

/-! ## The invariant -/

namespace Flow

/-- The invariant of a flow. -/
structure Sound (w : Flow) : Prop where
  up : w.service.IsUp
  ids : w.service.backend.ids.Fresh
  retries : w.service.policy.maxRetries ≠ 0
  settled : w.service.backend.stores.Settled
  distinct : w.service.backend.stores.HaveDistinctItems
  log : Log.Sound w.service.log w.service.now
  relays : Log.Relays w.service.log w.waiting w.delivered
  orders : w.service.backend.stores.Recounts Order
  menuItems : w.service.backend.stores.Recounts MenuItem
  shownOrders : Delivers Order w.delivered w.service.models
  shownMenuItems : Delivers MenuItem w.delivered w.service.models

theorem sound_start {s : Service} (h : s.IsNew) : Sound { service := s } where
  up := h.up
  ids := h.ids
  retries := h.retries
  settled := by
    show s.backend.stores.Settled
    rw [h.stores]
    exact Stores.lawful_empty
  distinct := by
    intro id v hv
    have hempty : s.backend.stores.orders = ∅ := by rw [h.stores]
    rw [hempty, Std.ExtTreeMap.getElem?_empty] at hv
    cases hv
  log := by
    show Log.Sound s.backend.stores.outbox s.now
    rw [h.stores]
    exact Log.sound_empty _
  relays := by
    show Log.Relays s.backend.stores.outbox [] []
    rw [h.stores]
    exact .empty
  orders := by
    show s.backend.stores.Recounts Order
    rw [h.stores]
    exact Stores.recounts_empty
  menuItems := by
    show s.backend.stores.Recounts MenuItem
    rw [h.stores]
    exact Stores.recounts_empty
  shownOrders := by
    show Delivers Order [] s.models
    rw [h.models]
    exact .empty
  shownMenuItems := by
    show Delivers MenuItem [] s.models
    rw [h.models]
    exact .empty

/-- The first entry that waits is held by the log. -/
theorem Sound.holds {w : Flow} {entry : Entry} {rest : List Entry} (h : w.Sound)
    (hnext : w.waiting = entry :: rest) : w.service.Holds entry := by
  have hentry : entry ∈ w.waiting := by
    rw [hnext]
    exact List.mem_cons_self
  obtain ⟨hmem, hopen⟩ := h.relays.waits entry hentry
  exact ⟨h.log.nodup, hmem, (h.log.kept entry hmem).sound, hopen⟩

theorem Sound.command {w : Flow} {command : Command} (h : w.Sound)
    (htrimmed : Text.trim command.target = command.target) :
    Sound { w with service := (w.service.execute command).2 } := by
  obtain ⟨hclock, htext⟩ := command.execute_inPlace w.service.policy w.service.backend
  have hmoves := Command.execute_moves w.service.policy h.settled h.distinct h.ids htrimmed
  obtain ⟨hlog, entries, hentries, hpending⟩ := hmoves.outbox h.log h.retries
  obtain ⟨horders, hitems⟩ := hmoves.recounts h.orders h.menuItems
  exact {
    up := ⟨h.up.outage, h.up.registry⟩
    ids := h.ids.of_text_eq htext
    retries := h.retries
    settled := command.execute_lawful Law.settled_kept w.service.policy h.settled
    distinct := hmoves.haveDistinctItems h.distinct
    log := by
      show Log.Sound (command.execute w.service.policy w.service.backend).2.stores.outbox
        (command.execute w.service.policy w.service.backend).2.clock
      rw [hclock]
      exact hlog
    relays := by
      show Log.Relays (command.execute w.service.policy w.service.backend).2.stores.outbox _ _
      rw [hentries]
      exact h.relays.append hpending
    orders := horders
    menuItems := hitems
    shownOrders := h.shownOrders
    shownMenuItems := h.shownMenuItems }

/-- A pass fetches the first entries that are due, in the order of the log. -/
theorem Sound.findPending_eq {w : Flow} (h : w.Sound) (limit : Nat) :
    w.service.findPending limit =
      .ok ((w.service.log.filter (·.isDue w.service.now)).take limit) := by
  rw [Service.findPending, h.up.outage, ← h.log.pending_eq limit]
  rfl

theorem Sound.fetch {w : Flow} {limit : Nat} {entries : List Entry} (h : w.Sound)
    (hidle : w.waiting = []) (hfound : w.service.findPending limit = .ok entries) :
    Sound { w with waiting := entries } := by
  have hrelays := h.relays
  rw [hidle] at hrelays
  have hfetched : entries.Sublist (w.service.log.filter (·.isDue w.service.now)) := by
    rw [h.findPending_eq] at hfound
    rw [← Except.ok.inj hfound]
    exact List.take_sublist _ _
  exact { h with relays := hrelays.fetch h.log.nodup hfetched }

/-- An attempt, whatever kind of aggregate its entry is about. -/
theorem Sound.attempt_spec {w : Flow} {entry : Entry} (h : w.Sound)
    (fault : Option ProjectionFailure) (hholds : w.service.Holds entry) :
    ∃ done entry' models metrics, entry.Attempted done entry' ∧
      w.service.attempt fault entry =
        (done, { w.service.setLog (w.service.log.map (Log.put entry')) with models, metrics }) ∧
      Delivers Order (w.delivered ++ if done then [entry] else []) models ∧
      Delivers MenuItem (w.delivered ++ if done then [entry] else []) models := by
  cases (h.log.kept entry hholds.mem).record with
  | order carries =>
    exact h.shownOrders.attempt fault apart_order h.shownMenuItems h.up hholds carries
  | menuItem carries =>
    obtain ⟨done, entry', models, metrics, hattempted, hattempt, hitems, horders⟩ :=
      h.shownMenuItems.attempt fault apart_menuItem h.shownOrders h.up hholds carries
    exact ⟨done, entry', models, metrics, hattempted, hattempt, horders, hitems⟩

theorem Sound.attempt {w : Flow} {entry : Entry} {rest : List Entry} (h : w.Sound)
    (hnext : w.waiting = entry :: rest) (fault : Option ProjectionFailure) :
    (w.attempt fault entry rest).Sound := by
  have hholds := h.holds hnext
  obtain ⟨done, entry', models, metrics, hattempted, hattempt, horders, hitems⟩ :=
    h.attempt_spec fault hholds
  have hrelays := h.relays
  rw [hnext] at hrelays
  rw [Flow.attempt, hattempt]
  exact {
    up := ⟨h.up.outage, h.up.registry⟩
    ids := h.ids
    retries := h.retries
    settled := ⟨h.settled.orders, h.settled.menuItems⟩
    distinct := h.distinct
    log := h.log.put hholds.mem hattempted.same hattempted.sound
    relays := hrelays.attempt h.log.nodup hattempted
    orders := h.orders.put h.log.nodup hholds.mem hattempted.same rfl rfl
    menuItems := h.menuItems.put h.log.nodup hholds.mem hattempted.same rfl rfl
    shownOrders := horders
    shownMenuItems := hitems }

theorem Sound.step {w w' : Flow} (h : w.Sound) (hstep : w.Step w') : w'.Sound := by
  cases hstep with
  | command trimmed => exact h.command trimmed
  | setPolicy retries => exact { h with up := ⟨h.up.outage, h.up.registry⟩, retries }
  | setClock later =>
    exact { h with
      up := ⟨h.up.outage, h.up.registry⟩
      log := h.log.later later }
  | fetch idle found => exact h.fetch idle found
  | attempt next fault => exact h.attempt next fault

theorem Reached.sound {w : Flow} (h : Reached w) : w.Sound := by
  induction h with
  | start new => exact sound_start new
  | step _ step ih => exact ih.step step

end Flow

end TableService
