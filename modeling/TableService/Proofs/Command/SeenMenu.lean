import TableService.Proofs.Command.AllOrNothing
import TableService.Proofs.Command.Moments

/-!
# What an order knows of the menu

A commit looks at the versions of what it stores, and an order stores no menu item. So a dish that
was available when the order asked for it may have been sold out by the time the order is committed.

- `Traffic.SawAvailable`: what is known of a menu item at the commit of an order that asks for it.
- `Traffic.placed_saw_available`: it is known of every item that is asked for.
-/

namespace TableService

/-- Every menu item that an order asks for is among those it was made of, and available there. -/
theorem OrderChange.exists_available {s : Stores} {ids : IdSource} {id : String} {number : Int}
    {lines : List OrderLine} {order : Order}
    (h : OrderChange s ids (.placeOrder id number lines) order)
    (hs : ∀ {id : String} {v : Versioned MenuItem}, s.menuItems[id]? = some v → v.value.id = id)
    {line : OrderLine} (hline : line ∈ lines) :
    ∃ v, s.menuItems[line.menuItemId]? = some v ∧ v.value.available = true := by
  cases h with
  | placed nonempty absent dishes seat make items =>
    obtain ⟨item, hitem, hid, havailable⟩ :=
      verifyAvailable_ok_iff.mp dishes _ (List.mem_map_of_mem hline)
    obtain ⟨other, -, hother⟩ := List.mem_filterMap.mp hitem
    obtain ⟨v, hv, rfl⟩ := Option.map_eq_some_iff.mp hother
    obtain rfl : other = line.menuItemId := (hs hv).symm.trans hid
    exact ⟨v, hv, havailable⟩

namespace Traffic

variable {start : Backend} {moves : List Move}

/-- The command with the number `k` has looked for the menu item, by the move `look`. It was
available then, and is still there at the move `commit`, with a higher version if it has changed
since. -/
structure SawAvailable (start : Backend) (moves : List Move) (k look commit : Nat) (id : String)
    (seen now : Versioned MenuItem) : Prop where
  look_lt : look < commit
  move_eq : moves[look]? = some (.turn k)
  looks : ∃ r, (moment ⟨start, []⟩ moves look).running[k]? = some r ∧
    r.request? = some (.unit (.findMenuItem id))
  seen_eq : (moment ⟨start, []⟩ moves look).backend.stores.menuItems[id]? = some seen
  available : seen.value.available = true
  now_eq : (moment ⟨start, []⟩ moves commit).backend.stores.menuItems[id]? = some now
  changed : now = seen ∨ seen.version < now.version

/-- An order that was placed has found every dish available at some moment before its commit. By the
commit each of them is still on the menu, but it is sure to be available only if it has not been
committed again. -/
theorem placed_saw_available (hempty : start.stores = {}) {k count : Nat} {r : Running}
    {id : String} {number : Int} {lines : List OrderLine}
    (hr : (run ⟨start, []⟩ moves).running[k]? = some r)
    (hcommand : r.command = .placeOrder id number lines) (hok : r.result? = some (.ok count)) :
    ∃ first commit, moves[first]? = some (.accept r.policy r.command) ∧
      moves[commit]? = some (.turn k) ∧ (moment ⟨start, []⟩ moves commit).commits k = true ∧
      ∀ line ∈ lines, ∃ look seen now, first < look ∧
        SawAvailable start moves k look commit line.menuItemId seen now := by
  rw [← moment_of_length_le _ (Nat.le_refl moves.length)] at hr
  obtain ⟨since, h⟩ := underWay hempty moves hr
  obtain ⟨first, rfl, hfirst⟩ := h.accepted
  have hamong := h.among
  rw [Running.rest_of_result? hok] at hamong
  obtain ⟨commit, o, -, -, ⟨⟨hmove, r', hr', hunit, hrequest⟩, hc⟩, hdeed⟩ := hamong count rfl
  refine ⟨first, commit, hfirst, hmove,
    commits_eq_true_iff.mpr ⟨r', o, hr', hrequest, hunit, hc⟩, fun line hline => ?_⟩
  rw [hcommand] at hdeed
  cases hdeed with
  | menuItem made => cases made.change
  | order made =>
    obtain ⟨menu, ids, hmenu, -, hchange⟩ := made.change
    have hown : ∀ {id : String} {v : Versioned MenuItem}, menu[id]? = some v → v.value.id = id := by
      intro id v hv
      obtain ⟨m, -, -, -, -, hfound⟩ := hmenu hv
      exact ((settled_moment hempty moves m).menuItems hfound).1
    obtain ⟨seen, hseen, havailable⟩ := hchange.exists_available hown hline
    obtain ⟨look, u, hlook, hlt, ⟨hturn, r'', hr'', -, hasks⟩, hfound⟩ := hmenu hseen
    obtain ⟨now, hnow, hchanged⟩ :=
      ((course hempty moves k).advances (Nat.le_of_lt hlt)).menuItems.exists_of_some hfound
    exact ⟨look, seen, now, hlook,
      ⟨hlt, hturn, ⟨r'', hr'', hasks⟩, hfound, havailable, hnow, hchanged⟩⟩

/-- The tea is sold out while an order of it is under way. -/
def lateOrder : List Move :=
  .accept {} .createTea :: List.replicate 9 (.turn 0) ++
    .accept {} .placeTea :: List.replicate 3 (.turn 1) ++
      .accept {} (.markSoldOut "tea") :: List.replicate 9 (.turn 2) ++ List.replicate 10 (.turn 1)

theorem lateOrder_not_available : ∃ look commit seen now,
    (moment ⟨.fresh, []⟩ lateOrder commit).commits 1 = true ∧
      SawAvailable .fresh lateOrder 1 look commit "tea" seen now ∧ now.value.available = false := by
  have hend : ((run ⟨.fresh, []⟩ lateOrder).running[1]?).map (fun r => (r.command, r.result?)) =
      some (.placeTea, some (.ok 2)) := by decide +kernel
  have hsoldOut : ∀ commit < lateOrder.length,
      (moment ⟨.fresh, []⟩ lateOrder commit).commits 1 = true →
        ((moment ⟨.fresh, []⟩ lateOrder commit).backend.stores.menuItems["tea"]?).map
          (·.value.available) = some false := by decide +kernel
  obtain ⟨r, hr, heq⟩ := Option.map_eq_some_iff.mp hend
  have hcommand : r.command = .placeTea := congrArg Prod.fst heq
  have hresult : r.result? = some (.ok 2) := congrArg Prod.snd heq
  obtain ⟨first, commit, -, hmove, hcommits, hlines⟩ :=
    placed_saw_available Backend.fresh_stores hr hcommand hresult
  obtain ⟨look, seen, now, -, hsaw⟩ := hlines _ List.mem_cons_self
  have havailable := hsoldOut commit (List.getElem?_eq_some_iff.mp hmove).1 hcommits
  rw [show (moment ⟨.fresh, []⟩ lateOrder commit).backend.stores.menuItems["tea"]? = some now from
    hsaw.now_eq] at havailable
  exact ⟨look, commit, seen, now, hcommits, hsaw, Option.some.inj havailable⟩

end Traffic

end TableService
