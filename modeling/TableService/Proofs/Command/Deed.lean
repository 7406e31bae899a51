import Mathlib.Order.Monotone.Basic
import TableService.Proofs.Command.Course
import TableService.Proofs.Command.Work

/-!
# What a command does among others

A command changes one aggregate. Its commit succeeds only if that aggregate is at the version at
which the command has seen it, so the command makes its change of what is committed at that very
moment. This is not so of the menu items that a new order asks for: they are as the command has
found them before.

- `Course.MakesMenuItem`, `Course.MakesOrder`: what the commit of a command comes to.
- `Course.Deed`: the one or the other.
- `Command.handle_among`: every successful commit of a command is a deed, and a command that is
  accepted has made one.
-/

namespace TableService

open UnitOfWork CommandM

/-! ## Deeds -/

/-- `ids` are some of the ids of `source`, in their order. -/
def IdSource.DrawnFrom (ids source : IdSource) : Prop :=
  ∃ index : Nat → Nat, StrictMono index ∧ ids.text = source.text ∘ index

theorem IdSource.DrawnFrom.refl (ids : IdSource) : ids.DrawnFrom ids := ⟨id, strictMono_id, rfl⟩

namespace Course

/-- Between the moments `i` and `j` the program has asked for the menu item and found it. -/
def Found (c : Course) (i j : Nat) (id : String) (v : Versioned MenuItem) : Prop :=
  ∃ m u, i ≤ m ∧ m < j ∧ c.turn m u (.unit (.findMenuItem id)) ∧
    (c.stores m).menuItems[id]? = some v

/-- The commit at the moment `j` is of a menu item that the command makes of what is committed. -/
structure MakesMenuItem (c : Course) (policy : RetryPolicy) (command : Command) (j : Nat)
    (item : MenuItem) : Prop where
  change : MenuItemChange (c.stores j) command item
  id_eq : item.id = Text.trim command.target
  appended : ∃ t, Appended policy t (c.stores j) (c.stores (j + 1)) item
  orders : (c.stores (j + 1)).orders = (c.stores j).orders

/-- The commit at the moment `j` is of an order that the command makes of what is committed, of the
menu items it has found since the moment `i`, and of ids it has been given. -/
structure MakesOrder (c : Course) (policy : RetryPolicy) (command : Command) (i j : Nat)
    (order : Order) : Prop where
  change : ∃ menu ids, (∀ {id v}, menu[id]? = some v → c.Found i j id v) ∧
    ids.DrawnFrom (c.backend 0).ids ∧
    OrderChange { c.stores j with menuItems := menu } ids command order
  id_eq : order.id = Text.trim command.target
  appended : ∃ t, Appended policy t (c.stores j) (c.stores (j + 1)) order
  menuItems : (c.stores (j + 1)).menuItems = (c.stores j).menuItems

/-- The entries that come with `a` bear the time of a moment before the commit, and since an earlier
one still `a` has been at the version that the commit finds. -/
def InTime {α : Type} [Aggregate α] [Collection α] (c : Course) (policy : RetryPolicy) (j : Nat)
    (a : α) : Prop :=
  ∃ m n, m ≤ n ∧ n ≤ j ∧
    versionOf (Collection.committed (α := α) (c.stores m)) (Aggregate.id a) =
      versionOf (Collection.committed (α := α) (c.stores j)) (Aggregate.id a) ∧
    Appended policy (c.backend n).clock (c.stores j) (c.stores (j + 1)) a

/-- What the commit of a command comes to at the moment `j`, if the command began at the moment `i`.
Who looks for an id with blanks around it has not seen the aggregate that it then makes. -/
inductive Deed (c : Course) (policy : RetryPolicy) (command : Command) (i j : Nat) : Prop where
  | menuItem {item : MenuItem} (made : c.MakesMenuItem policy command j item)
      (inTime : Text.trim command.target = command.target → c.InTime policy j item)
  | order {order : Order} (made : c.MakesOrder policy command i j order)
      (inTime : Text.trim command.target = command.target → c.InTime policy j order)

/-- Between the moments `i` and `j` a commit of the program has succeeded with `F`. -/
def Done (c : Course) (F : Nat → Prop) (i j : Nat) : Prop :=
  ∃ m o, i ≤ m ∧ m < j ∧ c.Commits m o ∧ F m

theorem Done.earlier {c : Course} {F : Nat → Prop} {i i' j : Nat} (h : c.Done F i j)
    (hi : i' ≤ i) : c.Done F i' j := by
  obtain ⟨m, o, hm, hmj, hdone⟩ := h
  exact ⟨m, o, by omega, hmj, hdone⟩

end Course

/-! ## Looking things up -/

/-- Nothing is staged. -/
structure Overlay.IsIdle (o : Overlay) : Prop where
  orders : o.orders.staged = ∅
  menuItems : o.menuItems.staged = ∅
  outbox : o.outbox = []

theorem Overlay.isIdle_empty : ({} : Overlay).IsIdle := ⟨rfl, rfl, rfl⟩

theorem StagedTable.find_of_empty {α : Type} {t : StagedTable α} (h : t.staged = ∅)
    (committed : Table (Versioned α)) (id : String) :
    t.find committed id = (committed[id]?.map Versioned.value, t.observe committed id) := by
  have hs : t.staged[id]? = none := by simp [h]
  rw [find, hs]

/-- The version of a key that was touched by an empty overlay. -/
theorem StagedTable.observed_observe_self {α : Type} (committed : Table (Versioned α))
    (id : String) :
    (({} : StagedTable α).observe committed id).observed[id]? = some (versionOf committed id) := by
  rw [observed_observe]
  exact if_pos ⟨rfl, Std.ExtTreeMap.getElem?_empty⟩

section

variable {c : Course} {F : Nat → Prop} {i : Nat} {o : Overlay} {policy : RetryPolicy}

theorem among_loadOrder {Q : Order → Nat → UnitOfWork → Prop} {id : String} (h : o.IsIdle)
    (hQ : ∀ j v, i ≤ j → (c.stores j).orders[id]? = some v →
      Q v.value (j + 1) (some { o with orders := o.orders.observe (c.stores j).orders id })) :
    Among c F (loadOrder id) Q i (some o) := by
  refine among_bind (among_findOrder fun j hj => ?_)
  rw [StagedTable.find_of_empty h.orders]
  cases hv : (c.stores j).orders[id]? with
  | none => exact among_throw _
  | some v => exact among_pure (hQ j v hj hv)

theorem among_loadMenuItem {Q : MenuItem → Nat → UnitOfWork → Prop} {id : String} (h : o.IsIdle)
    (hQ : ∀ j v, i ≤ j → (c.stores j).menuItems[id]? = some v →
      Q v.value (j + 1)
        (some { o with menuItems := o.menuItems.observe (c.stores j).menuItems id })) :
    Among c F (loadMenuItem id) Q i (some o) := by
  refine among_bind (among_findMenuItem fun j hj _ => ?_)
  rw [StagedTable.find_of_empty h.menuItems]
  cases hv : (c.stores j).menuItems[id]? with
  | none => exact among_throw _
  | some v => exact among_pure (hQ j v hj hv)

/-- Each menu item is as it was when it was asked for, which may be another moment for each. -/
theorem among_findMenuItems {Q : List MenuItem → Nat → UnitOfWork → Prop} {ids : List String}
    (h : o.IsIdle)
    (hQ : ∀ j items o', i ≤ j → (∀ item ∈ items, ∃ v, c.Found i j item.id v ∧ v.value = item) →
      o'.IsIdle → o'.orders = o.orders → Q items j (some o')) :
    Among c F (findMenuItems ids) Q i (some o) := by
  induction ids generalizing i o Q with
  | nil => exact among_pure (hQ i [] o (Nat.le_refl i) (fun _ h => absurd h List.not_mem_nil) h rfl)
  | cons id rest ih =>
    refine among_bind (among_findMenuItem fun j hj hturn => among_bind ?_)
    rw [StagedTable.find_of_empty h.menuItems]
    refine ih ⟨h.orders, h.menuItems, h.outbox⟩ fun k items o' hk hitems ho' horders => ?_
    refine among_pure (hQ k _ o' (by omega) ?_ ho' horders)
    intro item hitem
    rcases List.mem_append.mp hitem with hfirst | hrest
    · -- the item that was asked for first
      obtain ⟨v, hv, rfl⟩ := Option.map_eq_some_iff.mp (Option.mem_toList.mp hfirst)
      obtain ⟨hid, -⟩ := (c.settled j).menuItems hv
      exact ⟨v, ⟨j, some o, hj, hk, hid ▸ hturn, hid ▸ hv⟩, rfl⟩
    · obtain ⟨v, ⟨m, u, hm, hmk, hfound⟩, hvalue⟩ := hitems item hrest
      exact ⟨v, ⟨m, u, by omega, hmk, hfound⟩, hvalue⟩

/-! ## Handing events on -/

theorem among_stageEntries {aggregateId kind : String} {occurredAt : Instant}
    {Q : Unit → Nat → UnitOfWork → Prop} (events : List DomainEvent)
    (hQ : ∀ j entries, i ≤ j →
      List.Forall₂ (Entry.IsNew policy aggregateId kind occurredAt) events entries →
      Q () j (some { o with outbox := o.outbox ++ entries })) :
    Among c F (stageEntries policy aggregateId kind occurredAt events) Q i (some o) := by
  induction events generalizing i o with
  | nil =>
    have h := hQ i [] (Nat.le_refl i) .nil
    rw [List.append_nil] at h
    exact among_pure h
  | cons event rest ih =>
    refine among_bind (among_nextId fun j hj _ => ?_)
    refine among_bind (among_check _ fun entry hc => among_bind (among_check _ fun entry' hp => ?_))
    refine among_bind (among_saveEntry fun k hk => ih fun l entries hl hall => ?_)
    have h := hQ l (entry' :: entries) ?_ (.cons (Entry.isNew_of_create hc hp).2 hall)
    · rw [List.append_cons o.outbox] at h
      exact h
    · omega

/-- All entries bear the time at which they began to be staged. -/
theorem among_stageEvents {α : Type} [Aggregate α] (a : α) {Q : Nat × α → Nat → UnitOfWork → Prop}
    (hQ : ∀ n j entries, i ≤ n → n < j →
      List.Forall₂ (Entry.IsNew policy (Aggregate.id a) (Aggregate.kind α) (c.backend n).clock)
        (Aggregate.events a) entries →
      Q ((Aggregate.events a).length, Aggregate.drained a) j
        (some { o with outbox := o.outbox ++ entries })) :
    Among c F (stageEvents policy a) Q i (some o) := by
  refine among_bind (among_now fun n hn => among_bind (among_requireOpen fun k hk => ?_))
  refine among_bind (among_stageEntries _ fun l entries hl hall => among_pure ?_)
  exact hQ n l entries hn (by omega) hall

/-! ## Commits -/

/-- The commit at the moment `j` puts `a` in its place, which is at the version that `o` has seen.
The time has been asked for since the moment `i`. -/
structure Course.Puts {α : Type} [Aggregate α] [Collection α] (c : Course) (policy : RetryPolicy)
    (o : Overlay) (i j : Nat) (a : α) : Prop where
  stamped : ∃ n, i ≤ n ∧ n ≤ j ∧
    Appended policy (c.backend n).clock (c.stores j) (c.stores (j + 1)) a
  seen {v : Nat} : (Collection.staging (α := α) o).observed[Aggregate.id a]? = some v →
    v = versionOf (Collection.committed (α := α) (c.stores j)) (Aggregate.id a)

namespace Course.Puts

variable {α : Type} [Aggregate α] [Collection α] {i j : Nat} {a : α}

theorem appended (h : c.Puts policy o i j a) :
    ∃ t, Appended policy t (c.stores j) (c.stores (j + 1)) a := by
  obtain ⟨n, -, -, happended⟩ := h.stamped
  exact ⟨_, happended⟩

/-- The time was asked for when the aggregate had been seen, so the entries are in time. -/
theorem inTime {m : Nat} (h : c.Puts policy o i j a) (hm : m ≤ i)
    (hv : versionOf (Collection.committed (α := α) (c.stores m)) (Aggregate.id a) =
      versionOf (Collection.committed (α := α) (c.stores j)) (Aggregate.id a)) :
    c.InTime policy j a := by
  obtain ⟨n, hn, hnj, happended⟩ := h.stamped
  exact ⟨m, n, hm.trans hn, hnj, hv, happended⟩

end Course.Puts

/-- A commit of nothing but `a` and its entries. -/
theorem Course.Commits.puts {α : Type} [Aggregate α] [Collection α] {o' : Overlay} {j : Nat} {a : α}
    {seen : Table (Versioned α)} {entries : List Entry} {n : Nat} (h : c.Commits j o')
    (hi : i ≤ n) (hn : n ≤ j)
    (hidle : (Collection.staging (α := α) o).staged = ∅)
    (hsave : Collection.staging o' = (Collection.staging o).save seen (Aggregate.drained a))
    (hid : Aggregate.id (Aggregate.drained a) = Aggregate.id a) (hentries : o'.outbox = entries)
    (hall : List.Forall₂ (Entry.IsNew policy (Aggregate.id a) (Aggregate.kind α)
      (c.backend n).clock) (Aggregate.events a) entries) : c.Puts policy o i j a := by
  have hcommitted : Collection.committed (α := α) (c.stores (j + 1)) =
      ((Collection.staging o).save seen (Aggregate.drained a)).merge
        (Collection.committed (c.stores j)) := by
    rw [h.stores_eq, Collection.committed_merge, hsave]
  have hget := fun id => StagedTable.getElem?_merge_save hidle seen
    (Collection.committed (c.stores j)) (Aggregate.drained a) id
  rw [← hcommitted, hid] at hget
  refine ⟨⟨n, hi, hn, ?_, ?_, entries, ?_, hall⟩, ?_⟩
  · exact (hget _).trans (if_pos rfl)
  · intro id hne
    exact (hget id).trans (if_neg (Ne.symm hne))
  · rw [h.stores_eq, ← hentries]
    rfl
  · intro v hv
    have hc := Collection.conflict?_eq_none (α := α) h.2
    rw [hsave, StagedTable.conflict?_save_eq_none_iff hidle, hid, hv] at hc
    exact hc

theorem among_commitOrder {order : Order} (h : o.IsIdle)
    (hF : ∀ j, i ≤ j → c.Puts policy o i j order →
      (c.stores (j + 1)).menuItems = (c.stores j).menuItems → F j) :
    Among c F (commitOrder policy order) (fun _ j _ => c.Done F i j) i (some o) := by
  refine among_bind (among_stageEvents order fun n j entries hn hj hall => ?_)
  refine among_bind (among_saveOrder fun k hk => among_bind ?_)
  have hdeed : ∀ l, k + 1 ≤ l → c.Commits l { o with
      orders := o.orders.save (c.stores k).orders (Aggregate.drained order)
      outbox := o.outbox ++ entries } → F l := by
    intro l hl hcommits
    refine hF l (by omega) (hcommits.puts hn (by omega) h.orders rfl rfl ?_ hall) ?_
    · rw [h.outbox, List.nil_append]
    · rw [hcommits.stores_eq]
      exact StagedTable.merge_of_empty h.menuItems _
  refine among_commit hdeed fun l hl hcommits => among_pure ?_
  exact ⟨l, _, by omega, by omega, hcommits, hdeed l hl hcommits⟩

theorem among_commitMenuItem {item : MenuItem} (h : o.IsIdle)
    (hF : ∀ j, i ≤ j → c.Puts policy o i j item →
      (c.stores (j + 1)).orders = (c.stores j).orders → F j) :
    Among c F (commitMenuItem policy item) (fun _ j _ => c.Done F i j) i (some o) := by
  refine among_bind (among_stageEvents item fun n j entries hn hj hall => ?_)
  refine among_bind (among_saveMenuItem fun k hk => among_bind ?_)
  have hdeed : ∀ l, k + 1 ≤ l → c.Commits l { o with
      menuItems := o.menuItems.save (c.stores k).menuItems (Aggregate.drained item)
      outbox := o.outbox ++ entries } → F l := by
    intro l hl hcommits
    refine hF l (by omega) (hcommits.puts hn (by omega) h.menuItems rfl rfl ?_ hall) ?_
    · rw [h.outbox, List.nil_append]
    · rw [hcommits.stores_eq]
      exact StagedTable.merge_of_empty h.orders _
  refine among_commit hdeed fun l hl hcommits => among_pure ?_
  exact ⟨l, _, by omega, by omega, hcommits, hdeed l hl hcommits⟩

/-! ## Changes of what is there -/

/-- A change of a menu item, which is at the commit as it was when it was loaded. -/
theorem among_changeMenuItem {start : Nat} (command : Command) (change : MenuItem → MenuItem)
    (keeps : ∀ item, (change item).id = item.id)
    (made : ∀ {s : Stores} {v}, s.menuItems[command.target]? = some v →
      MenuItemChange s command (change v.value)) :
    Among c (c.Deed policy command start)
      (do commitMenuItem policy (change (← loadMenuItem command.target)))
      (fun _ j _ => c.Done (c.Deed policy command start) i j) i (some {}) := by
  refine among_bind (among_loadMenuItem Overlay.isIdle_empty fun m v hm hv => ?_)
  obtain ⟨hid, hsettled⟩ := (c.settled m).menuItems hv
  have hchanged : (change v.value).id = command.target := (keeps _).trans hid
  refine Among.mono (among_commitMenuItem ⟨rfl, rfl, rfl⟩ fun j hj hputs horders => ?_) ?_
  · have hversion : versionOf (c.stores m).menuItems (change v.value).id =
        versionOf (c.stores j).menuItems (change v.value).id :=
      hputs.seen (hchanged ▸ StagedTable.observed_observe_self _ _)
    have hfound : (c.stores j).menuItems[command.target]? = some v :=
      ((c.advances (by omega)).menuItems.getElem?_eq (hchanged ▸ hversion)).trans hv
    refine .menuItem ⟨made hfound, ?_, hputs.appended, horders⟩ fun _ => ?_
    · rw [keeps, ← hid]
      exact (Text.trim_eq_of_required? hsettled.id).symm
    · exact hputs.inTime (Nat.le_succ m) hversion
  · exact fun _ _ _ _ hdone => hdone.earlier (by omega)

/-- A change of an order, which is at the commit as it was when it was loaded. -/
theorem among_changeOrder {start : Nat} (command : Command)
    (change : Order → Except OrderError Order)
    (keeps : ∀ {order order'}, change order = .ok order' → order'.id = order.id)
    (made : ∀ {s : Stores} {ids v order}, s.orders[command.target]? = some v →
      change v.value = .ok order → OrderChange s ids command order) :
    Among c (c.Deed policy command start)
      (do commitOrder policy (← check .order (change (← loadOrder command.target))))
      (fun _ j _ => c.Done (c.Deed policy command start) i j) i (some {}) := by
  refine among_bind (among_loadOrder Overlay.isIdle_empty fun m v hm hv => ?_)
  obtain ⟨hid, hsettled⟩ := (c.settled m).orders hv
  refine among_bind (among_check _ fun order hchange => ?_)
  have hchanged : order.id = command.target := (keeps hchange).trans hid
  refine Among.mono (among_commitOrder ⟨rfl, rfl, rfl⟩ fun j hj hputs hitems => ?_) ?_
  · have hversion : versionOf (c.stores m).orders order.id =
        versionOf (c.stores j).orders order.id :=
      hputs.seen (hchanged ▸ StagedTable.observed_observe_self _ _)
    have hfound : (c.stores j).orders[command.target]? = some v :=
      ((c.advances (by omega)).orders.getElem?_eq (hchanged ▸ hversion)).trans hv
    refine .order ⟨⟨∅, _, ?_, .refl _, made hfound hchange⟩, ?_, hputs.appended, hitems⟩
      fun _ => ?_
    · intro id v hv
      rw [Std.ExtTreeMap.getElem?_empty] at hv
      cases hv
    · rw [keeps hchange, ← hid]
      exact (Text.trim_eq_of_required? hsettled.id).symm
    · exact hputs.inTime (Nat.le_succ m) hversion
  · exact fun _ _ _ _ hdone => hdone.earlier (by omega)

/-! ## What is new -/

/-- What was absent when it was looked for is absent at the commit: either the commit has seen its
version, or no such id can be committed at all. -/
theorem Table.Advances.absent {α : Type} {seen now : Table (Versioned α)} {id : String}
    (h : seen.Advances now) (habsent : seen[id]? = none)
    (htrimmed : ∀ v, now[id]? = some v → Text.trim id = id)
    (hversion : Text.trim id = id → versionOf seen id = versionOf now id) : now[id]? = none := by
  cases hv : now[id]? with
  | none => rfl
  | some v => rw [h.getElem?_eq (hversion (htrimmed v hv)), habsent] at hv; exact hv.symm

theorem among_createMenuItem {id name : String} {amount : Decimal}
    {Q : MenuItem → Nat → UnitOfWork → Prop}
    (hQ : ∀ m item, i ≤ m → (c.stores m).menuItems[id]? = none →
      (∀ {s : Stores}, s.menuItems[id]? = none →
        MenuItemChange s (.createMenuItem id name amount) item) →
      Text.required? id = some item.id →
      Q item (m + 1)
        (some { menuItems := ({} : Overlay).menuItems.observe (c.stores m).menuItems id })) :
    Among c F (createMenuItem id name amount) Q i (some {}) := by
  refine among_bind (among_findMenuItem fun m hm _ => ?_)
  rw [StagedTable.find_of_empty rfl]
  cases hv : (c.stores m).menuItems[id]? with
  | some v => exact among_bind (among_throw _)
  | none =>
    refine among_bind (among_check _ fun price hprice => among_check _ fun item hitem => ?_)
    have hid := (MenuItem.create_ok hitem).1
    exact hQ m item hm hv (fun habsent => .created habsent hprice hitem) hid

/-- Only the ids that come next matter to an order. -/
theorem Order.addAll_congr {order order' : Order} {ids ids' left : IdSource}
    {lines : List OrderLine}
    (hids : ∀ n, ids.text (ids.used + n) = ids'.text (ids'.used + n))
    (h : order.addAll ids lines = .ok (order', left)) :
    ∃ left', order.addAll ids' lines = .ok (order', left') := by
  induction lines generalizing order ids ids' with
  | nil =>
    cases h
    exact ⟨ids', rfl⟩
  | cons line rest ih =>
    obtain ⟨price, quantity, order₁, hm, hq, hi, hrest⟩ := Order.addAll_cons_ok h
    have hfirst : ids'.next.1 = ids.next.1 := (hids 0).symm
    have hnext : ∀ n, ids.next.2.text (ids.next.2.used + n) =
        ids'.next.2.text (ids'.next.2.used + n) := by
      intro n
      have h := hids (n + 1)
      rw [Nat.add_comm n 1, ← Nat.add_assoc, ← Nat.add_assoc] at h
      exact h
    rw [← hfirst] at hi
    rw [Order.addAll_cons rest hm hq hi]
    exact ih hnext hrest

/-- Puts an index in front. -/
def prepend (first : Nat) (index : Nat → Nat) : Nat → Nat
  | 0 => first
  | n + 1 => index n

theorem strictMono_prepend {first : Nat} {index : Nat → Nat} (h : StrictMono index)
    (hfirst : first < index 0) : StrictMono (prepend first index) := by
  refine strictMono_nat_of_lt_succ fun n => ?_
  cases n with
  | zero => exact hfirst
  | succ n => exact h (Nat.lt_succ_self n)

theorem Order.addAll_prepend {text : Nat → String} {first : Nat} {index : Nat → Nat}
    {order order₁ order' : Order} {line : OrderLine} {rest : List OrderLine} {price : Money}
    {quantity : Quantity} {left : IdSource} (hm : Money.of? line.unitPrice = .ok price)
    (hq : Quantity.of? line.quantity = .ok quantity)
    (hi : order.addItem (text first) line.menuItemId line.name price quantity = .ok order₁)
    (h : order₁.addAll ⟨text ∘ index, 0⟩ rest = .ok (order', left)) :
    ∃ left', order.addAll ⟨text ∘ prepend first index, 0⟩ (line :: rest) = .ok (order', left') := by
  have hshift : ∀ n, (IdSource.mk (text ∘ index) 0).text (0 + n) =
      (IdSource.mk (text ∘ prepend first index) 1).text (1 + n) := by
    intro n
    rw [Nat.zero_add, Nat.add_comm 1 n]
    rfl
  obtain ⟨left', h'⟩ := Order.addAll_congr hshift h
  have hcons : order.addAll ⟨text ∘ prepend first index, 0⟩ (line :: rest) =
      order₁.addAll ⟨text ∘ prepend first index, 1⟩ rest := Order.addAll_cons rest hm hq hi
  exact ⟨left', hcons.trans h'⟩

/-- The lines get ids in the order of the source, though others may be given ids in between. -/
theorem among_addLines {u : UnitOfWork} {Q : Order → Nat → UnitOfWork → Prop} (order : Order)
    (lines : List OrderLine)
    (hQ : ∀ j order' index left, i ≤ j → StrictMono index → (c.backend i).ids.used ≤ index 0 →
      order.addAll ⟨(c.backend 0).ids.text ∘ index, 0⟩ lines = .ok (order', left) →
      Q order' j u) : Among c F (addLines order lines) Q i u := by
  induction lines generalizing i order with
  | nil =>
    refine among_pure (hQ i order (fun n => (c.backend i).ids.used + n) _ (Nat.le_refl i) ?_
      (Nat.le_refl _) rfl)
    exact strictMono_nat_of_lt_succ fun n => Nat.lt_succ_self _
  | cons line rest ih =>
    refine among_bind (among_nextId fun j hj hused => ?_)
    refine among_bind (among_check _ fun price hm => among_bind ?_)
    refine among_check _ fun quantity hq => among_bind ?_
    refine among_check _ fun order₁ hi => ih order₁ ?_
    intro k order' index left hk hindex hnext hall
    rw [hused] at hnext
    rw [(c.advances (Nat.zero_le j)).text] at hi
    obtain ⟨left', hall'⟩ := Order.addAll_prepend hm hq hi hall
    refine hQ k order' _ left' ?_ (strictMono_prepend hindex hnext) (c.advances hj).used hall'
    omega

/-! ## Orders of what was found -/

theorem verifyAvailable_ok_iff {requested : List String} {items : List MenuItem} :
    verifyAvailable requested items = .ok () ↔
      ∀ id ∈ requested, ∃ item ∈ items, item.id = id ∧ item.available = true := by
  have hmissing : (requested.filter fun id => !items.any fun m => m.id == id && m.available) = [] ↔
      ∀ id ∈ requested, ∃ item ∈ items, item.id = id ∧ item.available = true := by
    simp [List.filter_eq_nil_iff]
  rw [← hmissing, verifyAvailable]
  constructor
  · intro h
    by_contra hne
    simp only [hne, if_false, reduceCtorEq] at h
  · intro h
    simp only [h, if_true]

/-- A table with a value for each of some keys. -/
theorem Table.exists_of_forall {α : Type} {P : String → α → Prop} (keys : List String)
    (h : ∀ key ∈ keys, ∃ a, P key a) :
    ∃ t : Table α, (∀ {key a}, t[key]? = some a → P key a) ∧
      ∀ key ∈ keys, ∃ a, t[key]? = some a := by
  induction keys with
  | nil =>
    refine ⟨∅, fun ha => ?_, fun _ hkey => absurd hkey List.not_mem_nil⟩
    rw [Std.ExtTreeMap.getElem?_empty] at ha
    cases ha
  | cons first rest ih =>
    obtain ⟨t, ht, hall⟩ := ih fun key hkey => h key (List.mem_cons_of_mem _ hkey)
    obtain ⟨a, ha⟩ := h first List.mem_cons_self
    refine ⟨t.insert first a, fun {key a'} ha' => ?_, fun key hkey => ?_⟩
    · rw [Std.ExtTreeMap.getElem?_insert] at ha'
      split at ha'
      · rename_i hfirst
        cases ha'
        exact Std.LawfulEqCmp.compare_eq_iff_eq.mp hfirst ▸ ha
      · exact ht ha'
    · rw [Std.ExtTreeMap.getElem?_insert]
      split
      · exact ⟨a, rfl⟩
      · rename_i hne
        rcases List.mem_cons.mp hkey with rfl | hrest
        · exact absurd Std.ReflCmp.compare_self hne
        · exact hall key hrest

/-- What was found may be put on a menu, on which everything that is requested is available. -/
theorem exists_menu {requested : List String} {items : List MenuItem}
    {P : String → Versioned MenuItem → Prop} (h : verifyAvailable requested items = .ok ())
    (hfound : ∀ item ∈ items, ∃ v, P item.id v ∧ v.value = item) :
    ∃ menu : Table (Versioned MenuItem), (∀ {id v}, menu[id]? = some v → P id v) ∧
      ∀ s : Stores, verifyAvailable requested
        (Stores.menuItemsOf { s with menuItems := menu } requested) = .ok () := by
  have hchoice : ∀ id ∈ requested, ∃ v : Versioned MenuItem,
      P id v ∧ v.value.id = id ∧ v.value.available = true := by
    intro id hid
    obtain ⟨item, hitem, rfl, havailable⟩ := verifyAvailable_ok_iff.mp h id hid
    obtain ⟨v, hv, rfl⟩ := hfound item hitem
    exact ⟨v, hv, rfl, havailable⟩
  obtain ⟨menu, hmenu, hall⟩ := Table.exists_of_forall requested hchoice
  refine ⟨menu, fun hv => (hmenu hv).1, fun s => verifyAvailable_ok_iff.mpr fun id hid => ?_⟩
  obtain ⟨v, hv⟩ := hall id hid
  obtain ⟨-, hown, havailable⟩ := hmenu hv
  refine ⟨v.value, List.mem_filterMap.mpr ⟨id, hid, ?_⟩, hown, havailable⟩
  exact congrArg (Option.map Versioned.value) hv

/-- An order is made of the menu items as they were found, and of ids as they were given. -/
theorem among_place {id : String} {number : Int} {lines : List OrderLine}
    {Q : Order → Nat → UnitOfWork → Prop}
    (hQ : ∀ m j order o, i ≤ m → m < j → (c.stores m).orders[id]? = none → o.IsIdle →
      o.orders = ({} : Overlay).orders.observe (c.stores m).orders id →
      (∃ menu ids, (∀ {id v}, menu[id]? = some v → c.Found i j id v) ∧
        ids.DrawnFrom (c.backend 0).ids ∧ ∀ s : Stores, s.orders[id]? = none →
          OrderChange { s with menuItems := menu } ids (.placeOrder id number lines) order) →
      Text.required? id = some order.id → Q order j (some o)) :
    Among c F (place id number lines) Q i (some {}) := by
  rw [place]
  split
  · exact among_bind (among_throw _)
  · rename_i hnonempty
    refine among_bind (among_findOrder fun m hm => ?_)
    rw [StagedTable.find_of_empty rfl]
    cases habsent : (c.stores m).orders[id]? with
    | some v => exact among_bind (among_throw _)
    | none =>
      refine among_bind (among_findMenuItems ⟨rfl, rfl, rfl⟩ ?_)
      intro k items o hk hitems ho horders
      refine among_bind (among_check _ fun _ hdishes => ?_)
      obtain ⟨menu, hmenu, hverified⟩ := exists_menu hdishes hitems
      refine among_bind (among_check _ fun table hseat => ?_)
      refine among_bind (among_check _ fun order hmake => among_addLines order lines ?_)
      intro j order' index left hj hindex _ hall
      have hfound : ∀ {id v}, menu[id]? = some v → c.Found i j id v := by
        intro id v hv
        obtain ⟨l, u, hl, hlk, hturn⟩ := hmenu hv
        exact ⟨l, u, by omega, by omega, hturn⟩
      refine hQ m j order' o hm (by omega) habsent ho horders ⟨menu, ⟨_, 0⟩, hfound,
        ⟨index, hindex, rfl⟩, fun s hs => ?_⟩ ?_
      · exact .placed hnonempty hs (hverified s) hseat hmake hall
      · rw [Order.id_addAll hall]
        exact (Order.place_ok hmake).1

/-! ## Commands -/

theorem Command.work_among (c : Course) (policy : RetryPolicy) (command : Command) {start i : Nat}
    (hstart : start ≤ i) : Among c (c.Deed policy command start) (command.work policy)
      (fun _ j _ => c.Done (c.Deed policy command start) i j) i (some {}) := by
  cases command with
  | markSoldOut id =>
    exact among_changeMenuItem (.markSoldOut id) _ MenuItem.id_markSoldOut .soldOut
  | markAvailable id =>
    exact among_changeMenuItem (.markAvailable id) _ MenuItem.id_markAvailable .available
  | markItemReady id itemId =>
    exact among_changeOrder (.markItemReady id itemId) _ Order.id_markItemReady .itemReady
  | cancelItem id itemId =>
    exact among_changeOrder (.cancelItem id itemId) _ Order.id_cancelItem .itemCancelled
  | completeOrder id => exact among_changeOrder (.completeOrder id) _ Order.id_complete .completed
  | cancelOrder id => exact among_changeOrder (.cancelOrder id) _ Order.id_cancel .cancelled
  | createMenuItem id name amount =>
    refine among_bind (among_createMenuItem fun m item hm habsent hchange hid => ?_)
    have htrim := Text.trim_eq_of_required? hid
    refine Among.mono (among_commitMenuItem ⟨rfl, rfl, rfl⟩ fun j hj hputs horders => ?_)
      fun _ _ _ _ hdone => hdone.earlier (by omega)
    have hversion : Text.trim id = id → versionOf (c.stores m).menuItems item.id =
        versionOf (c.stores j).menuItems item.id := by
      intro hself
      have hown : item.id = id := htrim.symm.trans hself
      exact hputs.seen (hown ▸ StagedTable.observed_observe_self _ _)
    refine .menuItem ⟨hchange ?_, htrim.symm, hputs.appended, horders⟩ fun hself => ?_
    · refine (c.advances (by omega)).menuItems.absent habsent (fun v hv => ?_) fun hself => ?_
      · obtain ⟨hown, hsettled⟩ := (c.settled j).menuItems hv
        rw [← hown]
        exact Text.trim_eq_of_required? hsettled.id
      · have hown : item.id = id := htrim.symm.trans hself
        exact hown ▸ hversion hself
    · exact hputs.inTime (Nat.le_succ m) (hversion hself)
  | placeOrder id number lines =>
    refine among_bind (among_place fun m k order o hm hk habsent ho horders hmade hid => ?_)
    have htrim := Text.trim_eq_of_required? hid
    obtain ⟨menu, ids, hmenu, hids, hchange⟩ := hmade
    refine Among.mono (among_commitOrder ho fun j hj hputs hitems => ?_)
      fun _ _ _ _ hdone => hdone.earlier (by omega)
    have hversion : Text.trim id = id → versionOf (c.stores m).orders order.id =
        versionOf (c.stores j).orders order.id := by
      intro hself
      have hown : order.id = id := htrim.symm.trans hself
      refine hputs.seen ?_
      show o.orders.observed[order.id]? = _
      rw [horders, hown]
      exact StagedTable.observed_observe_self _ _
    refine .order ⟨⟨menu, ids, ?_, hids, hchange _ ?_⟩, htrim.symm, hputs.appended, hitems⟩
      fun hself => ?_
    · intro id v hv
      obtain ⟨l, u, hl, hlk, hturn⟩ := hmenu hv
      exact ⟨l, u, by omega, by omega, hturn⟩
    · refine (c.advances (by omega)).orders.absent habsent (fun v hv => ?_) fun hself => ?_
      · obtain ⟨hown, hsettled⟩ := (c.settled j).orders hv
        rw [← hown]
        exact Text.trim_eq_of_required? hsettled.id
      · have hown : order.id = id := htrim.symm.trans hself
        exact hown ▸ hversion hself
    · exact hputs.inTime (by omega) (hversion hself)

/-- To close a unit commits nothing. -/
theorem Program.among_close {i : Nat} {u : UnitOfWork} {Q : Within Unit → Nat → UnitOfWork → Prop}
    (failed : Bool) (hQ : ∀ j u, i ≤ j → Q (.ok ()) j u) :
    (Program.close failed).Among c F Q i u := by
  have hexit : ∀ {j u}, i ≤ j →
      (do Program.request (.unit .exit); return .ok () :
        Program (Within Unit)).Among c F Q j u := by
    intro j u hj k hk _
    exact ⟨fun _ h => (by cases h), hQ (k + 1) _ (by omega)⟩
  cases failed with
  | false => exact hexit (Nat.le_refl i)
  | true =>
    intro j hj _
    refine ⟨fun _ h => (by cases h), ?_⟩
    cases u with
    | none => exact hexit (by omega)
    | some o =>
      intro k hk _
      exact ⟨fun _ h => (by cases h), hexit (by omega)⟩

theorem Program.among_inScope {ε α : Type} {i : Nat} (refusal : UnitOfWorkError → ε)
    {work : Program (Except ε α)} {Q : Except ε α → Nat → Prop}
    (h : ∀ j, i ≤ j → work.Among c F (fun r k _ => Q r k) j (some {}))
    (hQ : ∀ r j k, j ≤ k → Q r j → Q r k) :
    (Program.inScope refusal work).Among c F (fun r j _ => Q r j) i none := by
  intro j hj _
  refine ⟨fun _ h => (by cases h), ?_⟩
  change (work >>= _).Among c F _ (j + 1) (some {})
  rw [among_bind]
  refine (h (j + 1) (by omega)).mono fun r k u _ hr => ?_
  rw [among_bind]
  exact Program.among_close _ fun l u hl => hQ r k l hl hr

/-- Every successful commit of a command is a deed, and a command that is accepted has made one. -/
theorem Command.handle_among (c : Course) (policy : RetryPolicy) (command : Command) (i : Nat) :
    (command.handle policy).Among c (c.Deed policy command i)
      (fun r j _ => ∀ count, r = .ok count → c.Done (c.Deed policy command i) i j) i none := by
  refine Program.among_inScope _ (fun j hj => ?_) fun r j k hjk hdone count hr => ?_
  · refine (command.work_among c policy hj).program.mono fun r k _ _ hdone count hr => ?_
    exact (hdone count hr).earlier hj
  · obtain ⟨m, o, hm, hmj, hcommits⟩ := hdone count hr
    exact ⟨m, o, hm, by omega, hcommits⟩

end

end TableService
