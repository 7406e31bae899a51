import TableService.Proofs.Command.AllOrNothing
import TableService.Proofs.Command.Once
import TableService.Proofs.Domain.Stream
import TableService.Proofs.Outbox.Recounting

/-!
# The log is the exact history of what is committed

- `Made`, `Traffic.Makes`: what a commit has put into the stores, with the events of its command.
- `Traffic.Chronicle`: the invariant. The log holds what the commits of a run have recorded, each
  event once and in order.
- `Traffic.exact_history`: so it is at every point of a run from empty stores, and the events in the
  log make each aggregate what it is.
-/

namespace TableService

/-- An aggregate as a command has made it, with the events it has recorded. -/
inductive Made where
  | order (order : Order)
  | menuItem (item : MenuItem)

namespace Made

/-- The order, if one was made. -/
def order? : Made → Option Order
  | order o => some o
  | menuItem _ => none

/-- The menu item, if one was made. -/
def menuItem? : Made → Option MenuItem
  | order _ => none
  | menuItem item => some item

end Made

/-- The events that those of `made` with this id have recorded, one after the other. -/
def recordedUnder {α : Type} [Aggregate α] [Story α] (made : List α) (id : String) :
    List (Story.Event α) :=
  (made.filter fun a => Aggregate.id a = id).flatMap Story.recorded

/-- What has been recorded under an id by orders. -/
def Made.orderEvents (made : List Made) (id : String) : List OrderEvent :=
  recordedUnder (made.filterMap order?) id

/-- What has been recorded under an id by menu items. -/
def Made.menuItemEvents (made : List Made) (id : String) : List MenuItemEvent :=
  recordedUnder (made.filterMap menuItem?) id

theorem recordedUnder_concat {α : Type} [Aggregate α] [Story α] (made : List α) (a : α)
    (id : String) : recordedUnder (made ++ [a]) id =
      recordedUnder made id ++ if Aggregate.id a = id then Story.recorded a else [] := by
  by_cases hid : Aggregate.id a = id
  · simp [recordedUnder, hid]
  · simp [recordedUnder, hid]

/-- The ids of a source that was drawn from by others as well. -/
theorem IdSource.DrawnFrom.fresh {ids source : IdSource} (h : ids.DrawnFrom source)
    (hsource : source.Fresh) : ids.Fresh := by
  obtain ⟨index, hindex, htext⟩ := h
  constructor
  · rw [htext]
    exact hsource.injective.comp hindex.injective
  · rw [htext]
    exact fun n => hsource.required (index n)

namespace Traffic

variable {start : Backend} {moves : List Move} {i : Nat} {made : List Made}

/-- The commit at the move `commit.1`, by the command with the number `commit.2`, is of something
that the command makes of what is committed then. -/
inductive Makes (hempty : start.stores = {}) (moves : List Move) (commit : Nat × Nat) :
    Made → Prop where
  | order {r : Running} {first : Nat} {order : Order}
      (running : (moment ⟨start, []⟩ moves commit.1).running[commit.2]? = some r)
      (accepted : moves[first]? = some (.accept r.policy r.command))
      (made : (course hempty moves commit.2).MakesOrder r.policy r.command (first + 1) commit.1
        order) :
      Makes hempty moves commit (.order order)
  | menuItem {r : Running} {first : Nat} {item : MenuItem}
      (running : (moment ⟨start, []⟩ moves commit.1).running[commit.2]? = some r)
      (accepted : moves[first]? = some (.accept r.policy r.command))
      (made : (course hempty moves commit.2).MakesMenuItem r.policy r.command commit.1 item) :
      Makes hempty moves commit (.menuItem item)

/-- The invariant: `made` is what the commits before the move `i` have made, and the log holds what
these have recorded. -/
structure Chronicle (hempty : start.stores = {}) (moves : List Move) (i : Nat)
    (made : List Made) : Prop where
  commits : List.Forall₂ (Makes hempty moves) (successes ⟨start, []⟩ moves i) made
  distinct : (moment ⟨start, []⟩ moves i).backend.stores.HaveDistinctItems
  records : ∀ e ∈ (moment ⟨start, []⟩ moves i).backend.stores.outbox, e.IsRecord
  orders (id : String) : (moment ⟨start, []⟩ moves i).backend.stores.RecountedBy Order id
    (Made.orderEvents made id)
  menuItems (id : String) : (moment ⟨start, []⟩ moves i).backend.stores.RecountedBy MenuItem id
    (Made.menuItemEvents made id)

variable {hempty : start.stores = {}}

theorem chronicle_zero (hempty : start.stores = {}) (moves : List Move) :
    Chronicle hempty moves 0 [] := by
  have hstores : (moment ⟨start, []⟩ moves 0).backend.stores = {} := hempty
  refine ⟨.nil, ?_, ?_, fun id => ?_, fun id => ?_⟩
  · intro id v hv
    rw [hstores] at hv
    rw [Std.ExtTreeMap.getElem?_empty] at hv
    cases hv
  · intro e he
    rw [hstores] at he
    exact absurd he List.not_mem_nil
  · rw [hstores]
    exact Stores.recountedBy_empty id
  · rw [hstores]
    exact Stores.recountedBy_empty id

/-- A move that commits nothing. -/
theorem Chronicle.of_same (h : Chronicle hempty moves i made)
    (hsuccesses : successes ⟨start, []⟩ moves (i + 1) = successes ⟨start, []⟩ moves i)
    (hstores : (moment ⟨start, []⟩ moves (i + 1)).backend.stores =
      (moment ⟨start, []⟩ moves i).backend.stores) : Chronicle hempty moves (i + 1) made := by
  obtain ⟨commits, distinct, records, orders, menuItems⟩ := h
  rw [← hstores] at distinct records
  refine ⟨?_, distinct, records, fun id => ?_, fun id => ?_⟩
  · rw [hsuccesses]
    exact commits
  · rw [hstores]
    exact orders id
  · rw [hstores]
    exact menuItems id

theorem kind_ne : Aggregate.kind Order ≠ Aggregate.kind MenuItem := by decide

section

variable {k first : Nat} {r : Running}

theorem Chronicle.menuItem {item : MenuItem} (h : Chronicle hempty moves i made)
    (hsuccesses : successes ⟨start, []⟩ moves (i + 1) = successes ⟨start, []⟩ moves i ++ [(i, k)])
    (hrunning : (moment ⟨start, []⟩ moves i).running[k]? = some r)
    (haccepted : moves[first]? = some (.accept r.policy r.command))
    (hmade : (course hempty moves k).MakesMenuItem r.policy r.command i item)
    (htrimmed : Text.trim r.command.target = r.command.target) :
    Chronicle hempty moves (i + 1) (made ++ [.menuItem item]) := by
  obtain ⟨t, happended⟩ := hmade.appended
  have hrecorded := hmade.change.recorded (settled_moment hempty moves i) htrimmed
  refine ⟨?_, ?_, ?_, fun id => ?_, fun id => ?_⟩
  · rw [hsuccesses]
    exact List.rel_append h.commits (.cons (.menuItem hrunning haccepted hmade) .nil)
  · intro id v hv
    change ((course hempty moves k).stores (i + 1)).orders[id]? = some v at hv
    rw [hmade.orders] at hv
    exact h.distinct hv
  · exact Stores.isRecord_commit h.records happended hrecorded .menuItem
  · rw [Made.orderEvents, List.filterMap_append]
    show Stores.RecountedBy Order _ id (recordedUnder (_ ++ []) id)
    rw [List.append_nil]
    exact (h.orders id).commit_other happended hrecorded kind_ne.symm hmade.orders
  · rw [Made.menuItemEvents, List.filterMap_append]
    show Stores.RecountedBy MenuItem _ id (recordedUnder (_ ++ [item]) id)
    rw [recordedUnder_concat]
    exact (h.menuItems id).commit happended hrecorded

theorem Chronicle.order {order : Order} (h : Chronicle hempty moves i made)
    (hsuccesses : successes ⟨start, []⟩ moves (i + 1) = successes ⟨start, []⟩ moves i ++ [(i, k)])
    (hrunning : (moment ⟨start, []⟩ moves i).running[k]? = some r)
    (haccepted : moves[first]? = some (.accept r.policy r.command))
    (hmade : (course hempty moves k).MakesOrder r.policy r.command (first + 1) i order)
    (htrimmed : Text.trim r.command.target = r.command.target) (hids : start.ids.Fresh) :
    Chronicle hempty moves (i + 1) (made ++ [.order order]) := by
  obtain ⟨t, happended⟩ := hmade.appended
  obtain ⟨menu, ids, hmenu, hdrawn, hchange⟩ := hmade.change
  -- the menu items that were found are settled, too
  have hsettled : Stores.Settled { (course hempty moves k).stores i with menuItems := menu } := by
    refine ⟨(settled_moment hempty moves i).orders, fun {id v} hv => ?_⟩
    obtain ⟨m, -, -, -, -, hfound⟩ := hmenu hv
    exact (settled_moment hempty moves m).menuItems hfound
  obtain ⟨hrecorded, hdistinct⟩ := hchange.recorded hsettled h.distinct (hdrawn.fresh hids) htrimmed
  replace hrecorded : Recorded ((course hempty moves k).stores i) order :=
    ⟨hrecorded.leads, hrecorded.about⟩
  refine ⟨?_, ?_, ?_, fun id => ?_, fun id => ?_⟩
  · rw [hsuccesses]
    exact List.rel_append h.commits (.cons (.order hrunning haccepted hmade) .nil)
  · exact Stores.HaveDistinctItems.commit h.distinct happended hdistinct
  · exact Stores.isRecord_commit h.records happended hrecorded .order
  · rw [Made.orderEvents, List.filterMap_append]
    show Stores.RecountedBy Order _ id (recordedUnder (_ ++ [order]) id)
    rw [recordedUnder_concat]
    exact (h.orders id).commit happended hrecorded
  · rw [Made.menuItemEvents, List.filterMap_append]
    show Stores.RecountedBy MenuItem _ id (recordedUnder (_ ++ []) id)
    rw [List.append_nil]
    exact (h.menuItems id).commit_other happended hrecorded kind_ne hmade.menuItems

end

/-- Only a commit that succeeds changes the stores, and it is the deed of its command. -/
theorem Chronicle.succ (h : Chronicle hempty moves i made) (hids : start.ids.Fresh)
    (htrimmed : ∀ {policy command}, .accept policy command ∈ moves →
      Text.trim command.target = command.target) :
    ∃ made, Chronicle hempty moves (i + 1) made := by
  by_cases hcommit : ∃ k, moves[i]? = some (.turn k) ∧
      (moment ⟨start, []⟩ moves i).commits k = true
  · obtain ⟨k, hmove, hc⟩ := hcommit
    have hsuccesses : successes ⟨start, []⟩ moves (i + 1) =
        successes ⟨start, []⟩ moves i ++ [(i, k)] := by rw [successes_turn hmove, if_pos hc]
    obtain ⟨r, since, hr, hunderWay, hdeed⟩ := deed_of_commits hempty hmove hc
    obtain ⟨first, rfl, hfirst⟩ := hunderWay.accepted
    have htarget := htrimmed (List.mem_of_getElem? hfirst)
    cases hdeed with
    | menuItem made => exact ⟨_, h.menuItem hsuccesses hr hfirst made htarget⟩
    | order made => exact ⟨_, h.order hsuccesses hr hfirst made htarget hids⟩
  · refine ⟨made, h.of_same ?_ ?_⟩
    · rw [successes]
      split
      · rename_i k hmove
        rw [if_neg fun hc => hcommit ⟨k, hmove, hc⟩, List.append_nil]
      · exact List.append_nil _
    · cases hmove : moves[i]? with
      | none =>
        have hi := List.getElem?_eq_none_iff.mp hmove
        rw [moment_of_length_le _ hi, moment_of_length_le _ (Nat.le_succ_of_le hi)]
      | some move =>
        rw [moment_succ _ hmove]
        rcases stores_after (moment ⟨start, []⟩ moves i) move with hsame | ⟨k, rfl, hc⟩
        · exact hsame
        · exact absurd ⟨k, hmove, hc⟩ hcommit

theorem exists_chronicle (hempty : start.stores = {}) (hids : start.ids.Fresh)
    (htrimmed : ∀ {policy command}, .accept policy command ∈ moves →
      Text.trim command.target = command.target) (i : Nat) :
    ∃ made, Chronicle hempty moves i made := by
  induction i with
  | zero => exact ⟨[], chronicle_zero hempty moves⟩
  | succ i ih =>
    obtain ⟨made, h⟩ := ih
    exact h.succ hids htrimmed

/-! ## The exact history -/

/-- The entries about an aggregate carry these events, one after the other, and these make it what
it is. -/
structure TellsOf {α : Type} [Aggregate α] [Story α] (log : Log) (a : α)
    (events : List (Story.Event α)) : Prop where
  carries : List.Forall₂ (Entry.Carries α) (Log.of α log (Aggregate.id a)) events
  replay_eq : Story.replay α events = some (Story.state a)

/-- What the stores and the log are at the end of a run, if `made` is what the commits that
succeeded have made, in their order. -/
structure ExactHistory (hempty : start.stores = {}) (moves : List Move) (made : List Made) :
    Prop where
  commits : List.Forall₂ (Makes hempty moves) (successes ⟨start, []⟩ moves moves.length) made
  /-- No command commits twice. -/
  once : (committers ⟨start, []⟩ moves moves.length).Nodup
  /-- A command that has ended was accepted exactly if it has committed. -/
  accepted {k : Nat} {r : Running} {result : Except CommandError Nat} :
    (run ⟨start, []⟩ moves).running[k]? = some r → r.result? = some result →
      (k ∈ committers ⟨start, []⟩ moves moves.length ↔ result.isOk = true)
  orders {id : String} {v : Versioned Order} :
    (run ⟨start, []⟩ moves).backend.stores.orders[id]? = some v →
      v.value.id = id ∧ v.value.HasDistinctItems ∧
        TellsOf (run ⟨start, []⟩ moves).backend.stores.outbox v.value (Made.orderEvents made id) ∧
        v.value.state.Streams (Made.orderEvents made id)
  menuItems {id : String} {v : Versioned MenuItem} :
    (run ⟨start, []⟩ moves).backend.stores.menuItems[id]? = some v →
      v.value.id = id ∧
        TellsOf (run ⟨start, []⟩ moves).backend.stores.outbox v.value
          (Made.menuItemEvents made id) ∧
        v.value.state.Streams (Made.menuItemEvents made id)
  /-- There is no entry about anything else. -/
  entries {e : Entry} : e ∈ (run ⟨start, []⟩ moves).backend.stores.outbox →
    e.aggregateType = Aggregate.kind Order ∧
        (∃ v, (run ⟨start, []⟩ moves).backend.stores.orders[e.aggregateId]? = some v) ∨
      e.aggregateType = Aggregate.kind MenuItem ∧
        ∃ v, (run ⟨start, []⟩ moves).backend.stores.menuItems[e.aggregateId]? = some v

theorem TellsOf.of_recountedBy {α : Type} [Aggregate α] [Collection α] [Story α] {s : Stores}
    {id : String} {events : List (Story.Event α)} {v : Versioned α}
    (h : s.RecountedBy α id events) (hv : (Collection.committed (α := α) s)[id]? = some v)
    (hown : Aggregate.id v.value = id) :
    TellsOf s.outbox v.value events ∧ Leads α none events (some (Story.state v.value)) := by
  have hleads := h.leads
  rw [Stores.told, hv] at hleads
  refine ⟨⟨?_, hleads.foldl_eq⟩, hleads⟩
  rw [hown]
  exact h.carries

/-- At every point of a run from empty stores, the events in the log about an aggregate are those
that its commands have recorded, each once and in order, and they make it what it is. -/
theorem exact_history (hempty : start.stores = {}) (hids : start.ids.Fresh)
    (htrimmed : ∀ {policy command}, .accept policy command ∈ moves →
      Text.trim command.target = command.target) : ∃ made, ExactHistory hempty moves made := by
  obtain ⟨made, commits, distinct, records, orders, menuItems⟩ :=
    exists_chronicle hempty hids htrimmed moves.length
  have hsettled := settled_moment hempty moves moves.length
  have hend := moment_of_length_le ⟨start, []⟩ (Nat.le_refl moves.length)
  simp only [hend] at distinct records orders menuItems hsettled
  refine ⟨made, commits, (commitOnce start moves _).nodup, mem_committers_iff, ?_, ?_, ?_⟩
  · intro id v hv
    obtain ⟨hown, -⟩ := hsettled.orders hv
    obtain ⟨htells, hleads⟩ := TellsOf.of_recountedBy (orders id) hv hown
    refine ⟨hown, distinct hv, htells, OrderState.streams_of_leads hleads fun e he => ?_⟩
    exact ((orders id).about e he).trans hown.symm
  · intro id v hv
    obtain ⟨hown, -⟩ := hsettled.menuItems hv
    obtain ⟨htells, hleads⟩ := TellsOf.of_recountedBy (menuItems id) hv hown
    exact ⟨hown, htells, MenuItemState.streams_of_leads hleads⟩
  · intro e he
    cases records e he with
    | order carries =>
      have habout := Entry.isAbout_iff.mpr ⟨carries.aggregateType, rfl⟩
      have hmem := Log.mem_of.mpr ⟨he, habout⟩
      exact .inl ⟨carries.aggregateType, (orders e.aggregateId).exists_committed hmem⟩
    | menuItem carries =>
      have habout := Entry.isAbout_iff.mpr ⟨carries.aggregateType, rfl⟩
      have hmem := Log.mem_of.mpr ⟨he, habout⟩
      exact .inr ⟨carries.aggregateType, (menuItems e.aggregateId).exists_committed hmem⟩

/-- Tea for two tables at a time, one of which has to leave. -/
def teaTime : List Move :=
  .accept {} .createTea :: List.replicate 9 (.turn 0) ++
    [.accept {} .placeTea,
      .accept {} (.placeOrder "o2" 5 [⟨"tea", "Tea", .whole 3 three_lt_limit96, 1⟩])] ++
    (List.replicate 13 [.turn 1, .turn 2]).flatten ++
    .accept {} (.cancelOrder "o1") :: List.replicate 11 (.turn 3)

theorem teaTime_exact_history : ∃ made v, ExactHistory Backend.fresh_stores teaTime made ∧
    (run ⟨.fresh, []⟩ teaTime).backend.stores.orders["o1"]? = some v ∧
    v.value.status = .cancelled ∧ made.length = 4 ∧ (Made.orderEvents made "o1").length = 4 := by
  have htrimmed : ∀ {policy command}, .accept policy command ∈ teaTime →
      Text.trim command.target = command.target := by
    intro policy command h
    have hcommand : command = .createTea ∨ command = .placeTea ∨
        command = .placeOrder "o2" 5 [⟨"tea", "Tea", .whole 3 three_lt_limit96, 1⟩] ∨
        command = .cancelOrder "o1" := by
      simp [teaTime] at h
      tauto
    rcases hcommand with rfl | rfl | rfl | rfl <;> decide +kernel
  obtain ⟨made, h⟩ := exact_history Backend.fresh_stores Backend.fresh_ids htrimmed
  have hlength : (successes ⟨.fresh, []⟩ teaTime teaTime.length).length = 4 := by decide +kernel
  have hentries :
      (Log.of Order (run ⟨.fresh, []⟩ teaTime).backend.stores.outbox "o1").length = 4 := by
    decide +kernel
  have horder : ((run ⟨.fresh, []⟩ teaTime).backend.stores.orders["o1"]?).map
      (·.value.status) = some .cancelled := by decide +kernel
  obtain ⟨v, hv, hstatus⟩ := Option.map_eq_some_iff.mp horder
  obtain ⟨hid, -, htells, -⟩ := h.orders hv
  refine ⟨made, v, h, hv, hstatus, ?_, ?_⟩
  · rw [← h.commits.length_eq, hlength]
  · rw [← htells.carries.length_eq, ← hentries]
    exact congrArg (fun id => (Log.of Order _ id).length) hid

end Traffic

end TableService
