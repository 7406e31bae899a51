import TableService.Proofs.Store.EntryIds

/-!
# A commit as a whole

A commit looks at every staged aggregate before it stores the first one, so it stores all that is
staged or nothing.

- `Overlay.Grown`: an overlay with all that its unit did since the overlay was empty. Whoever else
  commits meanwhile, every open unit has one of these (`Shared.exists_grown`).
- `MovedOn`: a staged aggregate that is committed at another version than the overlay first saw.
- `Shared.CommitsWhole`: what comes of a commit. It fails exactly if an aggregate has moved on.
-/

namespace TableService

open UnitOfWork Collection

/-! ## How overlays come about -/

/-- What a unit did since its overlay was empty. The stores may change in between, so each act comes
with those that it met. -/
inductive Overlay.Grown : List (Stores × Act) → Overlay → Prop where
  | new : Grown [] {}
  | act {past : List (Stores × Act)} {o o' : Overlay} (s : Stores) {act : Act}
      (grown : Grown past o) (stays : act.isWhole = false)
      (result : (perform s (some o) act).2.2 = some o') :
      Grown (past ++ [(s, act)]) o'

/-- The version at which a key was committed when one of these acts touched it first. -/
def SawFirst (α : Type) [Aggregate α] [Collection α] (past : List (Stores × Act)) (id : String)
    (version : Nat) : Prop :=
  ∃ before s touch later, past = before ++ (s, touch) :: later ∧ Touches α touch id ∧
    (∀ met ∈ before, ¬ Touches α met.2 id) ∧ versionOf (committed (α := α) s) id = version

/-- What the part `t` of an overlay has to do with the acts that it has come of. -/
structure Accounted (α : Type) [Aggregate α] [Collection α] (past : List (Stores × Act))
    (t : StagedTable α) : Prop where
  own {id : String} {a : α} : t.staged[id]? = some a → Aggregate.id a = id
  observed {id : String} : t.staged[id]?.isSome → t.observed[id]?.isSome
  untouched {id : String} : t.observed[id]? = none → ∀ met ∈ past, ¬ Touches α met.2 id
  saw {id : String} {version : Nat} : t.observed[id]? = some version → SawFirst α past id version

section

variable {α : Type} [Aggregate α] [Collection α] {past : List (Stores × Act)} {o o' : Overlay}
  {t t' : StagedTable α} {s : Stores} {act : Act} {id : String} {version : Nat}

/-- Whatever else follows, the first touch stays the first one. -/
theorem SawFirst.concat (h : SawFirst α past id version) (met : Stores × Act) :
    SawFirst α (past ++ [met]) id version := by
  obtain ⟨before, s, touch, later, rfl, htouch, hbefore, hversion⟩ := h
  exact ⟨before, s, touch, later ++ [met], by simp, htouch, hbefore, hversion⟩

theorem accounted_empty : Accounted α [] (staging {}) := by
  rw [staging_empty]
  constructor
  · intro id a h
    simp at h
  · intro id h
    simp at h
  · intro id _ met hmet
    exact absurd hmet List.not_mem_nil
  · intro id version h
    simp at h

theorem Accounted.staged_eq_none (h : Accounted α past t) (hnone : t.observed[id]? = none) :
    t.staged[id]? = none := by
  by_contra hstaged
  have hseen := h.observed (Option.isSome_iff_ne_none.mpr hstaged)
  rw [hnone] at hseen
  cases hseen

theorem Accounted.concat (h : Accounted α past t) (hstays : Stays (committed s) t act t') :
    Accounted α (past ++ [(s, act)]) t' where
  own ha := by
    rcases hstays.staged_cases ha with ha | ⟨-, hid⟩
    · exact h.own ha
    · exact hid
  observed := hstays.observed_of_staged fun _ => h.observed
  untouched {id} hnone := by
    have hbefore : t.observed[id]? = none := by
      cases hseen : t.observed[id]? with
      | none => rfl
      | some version =>
        rw [hstays.observed_of_some hseen] at hnone
        cases hnone
    intro met hmet htouch
    rcases List.mem_append.mp hmet with hmet | hmet
    · exact h.untouched hbefore met hmet htouch
    · -- the touch of a key that was not observed would have been observed
      obtain rfl := List.mem_singleton.mp hmet
      rw [hstays.observed_of_touches htouch hbefore (h.staged_eq_none hbefore)] at hnone
      cases hnone
  saw {id version} hseen := by
    cases hbefore : t.observed[id]? with
    | some version' =>
      rw [hstays.observed_of_some hbefore, Option.some.injEq] at hseen
      exact hseen ▸ (h.saw hbefore).concat (s, act)
    | none =>
      by_cases htouch : Touches α act id
      · rw [hstays.observed_of_touches htouch hbefore (h.staged_eq_none hbefore),
          Option.some.injEq] at hseen
        exact ⟨past, s, act, [], rfl, htouch, h.untouched hbefore, hseen⟩
      · rw [(hstays.of_not_touches htouch).1, hbefore] at hseen
        cases hseen

theorem Overlay.Grown.accounted (h : o.Grown past) : Accounted α past (staging o) := by
  induction h with
  | new => exact accounted_empty
  | @act past o o' s act _ stays result ih =>
    rcases perform_cases α s o act with ⟨rfl, -⟩ | ⟨rfl, -⟩ | ⟨rfl, -⟩ | ⟨rfl, -⟩ | ⟨-, o₁, hp, hs⟩
    · cases stays
    · cases stays
    · cases stays
    · cases stays
    · rw [hp, Option.some.injEq] at result
      exact ih.concat (result ▸ hs)

end

/-- The entry that an act is given to save. -/
def UnitOfWork.Act.savedEntry : Act → Option Entry
  | .saveEntry entry => some entry
  | _ => none

/-- Entries are staged in the order in which they are saved. -/
theorem Overlay.Grown.outbox_sublist {past : List (Stores × Act)} {o : Overlay} (h : o.Grown past) :
    o.outbox.Sublist (past.filterMap fun met => met.2.savedEntry) := by
  induction h with
  | new => exact List.Sublist.refl _
  | @act past o o' s act _ _ result ih =>
    rw [List.filterMap_append]
    have hentries : UnitOfWork.entries (perform s (some o) act).2.2 = o'.outbox := by
      rw [result]
      rfl
    rcases outbox_perform s (some o) act with ⟨entry, rfl, -, -, h⟩ | ⟨-, -, -, h⟩ | ⟨-, h | h⟩
    · rw [← hentries, h]
      exact ih.append (List.Sublist.refl [entry])
    · rw [← hentries, h]
      exact List.nil_sublist _
    · rw [← hentries, h]
      exact ih.trans (List.sublist_append_left _ _)
    · rw [← hentries, h]
      exact List.nil_sublist _

/-- Every open unit of a run has an overlay of this kind, if all units were closed at first. -/
theorem Shared.exists_grown {w : Shared} (hclosed : ∀ unit, w.units unit = none) (steps : List Step)
    {unit : Nat} {o : Overlay} (ho : (w.run steps).units unit = some o) : ∃ past, o.Grown past := by
  induction steps using List.reverseRecOn generalizing unit o with
  | nil =>
    rw [run_nil, hclosed] at ho
    cases ho
  | append_singleton steps step ih =>
    rw [run_append] at ho
    change ((w.run steps).after step).units unit = some o at ho
    obtain ⟨own, act⟩ := step
    by_cases hown : own = unit
    · subst hown
      rw [units_after_self] at ho
      cases hu : (w.run steps).units own with
      | none =>
        rw [hu] at ho
        rcases perform_none (w.run steps).stores act with h | ⟨-, h⟩
        · rw [h] at ho
          cases ho
        · rw [h] at ho
          cases ho
          exact ⟨[], .new⟩
      | some before =>
        obtain ⟨past, hpast⟩ := ih hu
        rw [hu] at ho
        rcases perform_cases Order (w.run steps).stores before act with ⟨-, h⟩ | ⟨-, h⟩ |
          ⟨-, -, h⟩ | ⟨-, -, h⟩ | ⟨hstays, -⟩
        · rw [h] at ho
          cases ho
        · rw [h] at ho
          cases ho
          exact ⟨[], .new⟩
        · rw [h] at ho
          cases ho
          exact ⟨[], .new⟩
        · -- a commit that fails leaves the overlay as it was
          rw [h] at ho
          cases ho
          exact ⟨past, hpast⟩
        · exact ⟨_, .act _ hpast hstays ho⟩
    · rw [units_after_of_ne _ hown] at ho
      exact ih ho

/-! ## What a commit reports -/

/-- A staged aggregate is committed at another version than the one that the overlay saw when it
first touched it. An aggregate that is not there has version 0. -/
structure MovedOn (α : Type) [Aggregate α] [Collection α] (past : List (Stores × Act))
    (o : Overlay) (s : Stores) (c : Conflict) : Prop where
  staged : ∃ a : α, (staging o).staged[c.id]? = some a ∧ Aggregate.id a = c.id
  observed : (staging (α := α) o).observed[c.id]? = some c.expected
  saw : SawFirst α past c.id c.expected
  actual : versionOf (committed (α := α) s) c.id = c.actual
  ne : c.expected ≠ c.actual

/-- The conflict that a failed commit reports. It is about a menu item only if no order has
moved on. -/
inductive Reports (past : List (Stores × Act)) (o : Overlay) (s : Stores) :
    UnitOfWorkError → Prop where
  | order {c : Conflict} (moved : MovedOn Order past o s c) :
      Reports past o s (.concurrencyConflict "Order" c)
  | menuItem {c : Conflict} (moved : MovedOn MenuItem past o s c)
      (orders : ∀ c', ¬ MovedOn Order past o s c') :
      Reports past o s (.concurrencyConflict "MenuItem" c)

namespace Reports

variable {past : List (Stores × Act)} {o : Overlay} {s : Stores} {e : UnitOfWorkError}

theorem movedOn (h : Reports past o s e) :
    (∃ c, MovedOn Order past o s c) ∨ ∃ c, MovedOn MenuItem past o s c := by
  cases h with
  | order moved => exact .inl ⟨_, moved⟩
  | menuItem moved _ => exact .inr ⟨_, moved⟩

theorem eq_concurrencyConflict (h : Reports past o s e) :
    ∃ kind c, e = .concurrencyConflict kind c := by
  cases h with
  | order _ => exact ⟨_, _, rfl⟩
  | menuItem _ _ => exact ⟨_, _, rfl⟩

end Reports

section

variable {α : Type}

theorem StagedTable.conflictAt?_eq_some_iff {t : StagedTable α} {committed : Table (Versioned α)}
    {id : String} {c : Conflict} : t.conflictAt? committed id = some c ↔
      c.id = id ∧ c.expected = t.observed.getD id 0 ∧ c.actual = versionOf committed id ∧
        c.expected ≠ c.actual := by
  simp only [conflictAt?]
  constructor
  · intro h
    split at h
    · cases h
    · rename_i hne
      cases h
      exact ⟨rfl, rfl, rfl, hne⟩
  · obtain ⟨id', expected, actual⟩ := c
    rintro ⟨rfl, hexpected, hactual, hne⟩
    dsimp only at hexpected hactual hne
    rw [← hexpected, ← hactual, if_neg hne]

/-- What is reported as a conflict is one. -/
theorem StagedTable.conflictAt?_of_conflict? {t : StagedTable α} {committed : Table (Versioned α)}
    {c : Conflict} (h : t.conflict? committed = some c) :
    c.id ∈ t.staged ∧ t.conflictAt? committed c.id = some c := by
  obtain ⟨id, hid, hc⟩ := List.exists_of_findSome?_eq_some h
  obtain rfl := (conflictAt?_eq_some_iff.mp hc).1
  exact ⟨Std.ExtTreeMap.mem_keys.mp hid, hc⟩

variable [Aggregate α] [Collection α] {past : List (Stores × Act)} {o : Overlay} {s : Stores}

theorem movedOn_iff (h : o.Grown past) {c : Conflict} : MovedOn α past o s c ↔
    c.id ∈ (staging (α := α) o).staged ∧
      (staging o).conflictAt? (committed (α := α) s) c.id = some c := by
  constructor
  · rintro ⟨⟨a, ha, -⟩, hobserved, -, hactual, hne⟩
    refine ⟨Std.ExtTreeMap.mem_iff_isSome_getElem?.mpr (by rw [ha]; rfl), ?_⟩
    refine StagedTable.conflictAt?_eq_some_iff.mpr ⟨rfl, ?_, hactual.symm, hne⟩
    rw [Std.ExtTreeMap.getD_eq_getD_getElem?, hobserved, Option.getD_some]
  · rintro ⟨hstaged, hc⟩
    obtain ⟨-, hexpected, hactual, hne⟩ := StagedTable.conflictAt?_eq_some_iff.mp hc
    have hsome := Std.ExtTreeMap.mem_iff_isSome_getElem?.mp hstaged
    obtain ⟨a, ha⟩ := Option.isSome_iff_exists.mp hsome
    -- what is staged has been seen, so the version is not the one that stands for none
    obtain ⟨version, hversion⟩ := Option.isSome_iff_exists.mp (h.accounted.observed hsome)
    rw [Std.ExtTreeMap.getD_eq_getD_getElem?, hversion, Option.getD_some] at hexpected
    subst hexpected
    exact ⟨⟨a, ha, h.accounted.own ha⟩, hversion, h.accounted.saw hversion, hactual.symm, hne⟩

theorem movedOn_of_conflict? (h : o.Grown past) {c : Conflict}
    (hc : (staging (α := α) o).conflict? (committed s) = some c) : MovedOn α past o s c :=
  (movedOn_iff h).mpr (StagedTable.conflictAt?_of_conflict? hc)

/-- No conflict is overlooked. -/
theorem not_movedOn_of_conflict? (h : o.Grown past)
    (hnone : (staging (α := α) o).conflict? (committed s) = none) (c : Conflict) :
    ¬ MovedOn α past o s c := by
  intro hc
  obtain ⟨hstaged, hat⟩ := (movedOn_iff h).mp hc
  rw [List.findSome?_eq_none_iff.mp hnone c.id (Std.ExtTreeMap.mem_keys.mpr hstaged)] at hat
  cases hat

end

/-- A conflict is reported exactly if an aggregate has moved on. -/
theorem Overlay.Grown.conflict?_cases {past : List (Stores × Act)} {o : Overlay} (h : o.Grown past)
    (s : Stores) : (∃ e, o.conflict? s = some e ∧ Reports past o s e) ∨
      o.conflict? s = none ∧ (∀ c, ¬ MovedOn Order past o s c) ∧
        ∀ c, ¬ MovedOn MenuItem past o s c := by
  cases horders : o.orders.conflict? s.orders with
  | some c =>
    refine .inl ⟨.concurrencyConflict "Order" c, ?_, .order (movedOn_of_conflict? h horders)⟩
    simp [Overlay.conflict?, horders, Aggregate.kind]
  | none =>
    have hnoOrder := not_movedOn_of_conflict? (α := Order) h horders
    cases hmenuItems : o.menuItems.conflict? s.menuItems with
    | some c =>
      refine .inl ⟨.concurrencyConflict "MenuItem" c, ?_,
        .menuItem (movedOn_of_conflict? h hmenuItems) hnoOrder⟩
      simp [Overlay.conflict?, horders, hmenuItems, Aggregate.kind]
    | none =>
      exact .inr ⟨Overlay.conflict?_eq_none_iff.mpr ⟨horders, hmenuItems⟩, hnoOrder,
        not_movedOn_of_conflict? (α := MenuItem) h hmenuItems⟩

/-! ## What a commit stores -/

/-- Every staged aggregate is stored under its id, one version up, and all other ids are left alone.
-/
structure Stored (α : Type) [Aggregate α] [Collection α] (o : Overlay) (s s' : Stores) : Prop where
  staged {id : String} {a : α} : (staging o).staged[id]? = some a → Aggregate.id a = id ∧
    (committed s')[id]? = some ⟨versionOf (committed (α := α) s) id + 1, a⟩
  others {id : String} : (staging (α := α) o).staged[id]? = none →
    (committed (α := α) s')[id]? = (committed s)[id]?

theorem stored_merge {α : Type} [Aggregate α] [Collection α] {past : List (Stores × Act)}
    {o : Overlay} (h : o.Grown past) (s : Stores) : Stored α o s (o.merge s) where
  staged {id a} ha := by
    refine ⟨h.accounted.own ha, ?_⟩
    rw [committed_merge, StagedTable.getElem?_merge, ha]
  others {id} hnone := by
    rw [committed_merge, StagedTable.getElem?_merge, hnone]

theorem Overlay.merge_empty (s : Stores) : ({} : Overlay).merge s = s := by
  have horders : ({} : StagedTable Order).merge s.orders = s.orders :=
    StagedTable.merge_of_empty rfl _
  have hmenuItems : ({} : StagedTable MenuItem).merge s.menuItems = s.menuItems :=
    StagedTable.merge_of_empty rfl _
  simp [Overlay.merge, horders, hmenuItems]

theorem Overlay.conflict?_empty (s : Stores) : ({} : Overlay).conflict? s = none :=
  conflict?_eq_none_iff.mpr
    ⟨StagedTable.conflict?_eq_none_of_empty rfl _, StagedTable.conflict?_eq_none_of_empty rfl _⟩

namespace Shared

/-- The unit has committed all that it had staged, as it was staged, and has nothing left. -/
structure Accepts (w : Shared) (unit : Nat) (o : Overlay) : Prop where
  reply : w.reply (unit, .commit) = .ok ()
  orders : Stored Order o w.stores (w.after (unit, .commit)).stores
  menuItems : Stored MenuItem o w.stores (w.after (unit, .commit)).stores
  outbox : (w.after (unit, .commit)).stores.outbox = w.stores.outbox ++ o.outbox
  units : (w.after (unit, .commit)).units = Function.update w.units unit (some {})
  again : (w.after (unit, .commit)).reply (unit, .commit) = .ok () ∧
    (w.after (unit, .commit)).after (unit, .commit) = w.after (unit, .commit)

/-- What comes of a commit by a unit whose overlay is `o`. -/
structure CommitsWhole (w : Shared) (unit : Nat) (o : Overlay) (past : List (Stores × Act)) :
    Prop where
  refused_iff : (∃ kind c, w.reply (unit, .commit) = .error (.concurrencyConflict kind c)) ↔
    (∃ c, MovedOn Order past o w.stores c) ∨ ∃ c, MovedOn MenuItem past o w.stores c
  /-- A commit that fails says why, and leaves the stores and all units as they are. -/
  refused {e : UnitOfWorkError} : w.reply (unit, .commit) = .error e →
    Reports past o w.stores e ∧ w.after (unit, .commit) = w
  accepted : (∀ c, ¬ MovedOn Order past o w.stores c) →
    (∀ c, ¬ MovedOn MenuItem past o w.stores c) → w.Accepts unit o
  /-- The staged entries are in the order in which they were saved. -/
  entries : o.outbox.Sublist (past.filterMap fun met => met.2.savedEntry)

variable {w : Shared} {unit : Nat} {o : Overlay}

theorem perform_commit_of_conflict {e : UnitOfWorkError} (ho : w.units unit = some o)
    (hc : o.conflict? w.stores = some e) :
    perform w.stores (w.units unit) .commit = (.error e, w.stores, w.units unit) := by
  simp only [ho, perform, hc]

theorem perform_commit_of_no_conflict (ho : w.units unit = some o)
    (hc : o.conflict? w.stores = none) :
    perform w.stores (w.units unit) .commit = (.ok (), o.merge w.stores, some {}) := by
  simp only [ho, perform, hc]

/-- To commit nothing changes nothing. -/
theorem commit_empty (h : w.units unit = some {}) :
    w.reply (unit, .commit) = .ok () ∧ w.after (unit, .commit) = w := by
  have hperform := perform_commit_of_no_conflict h (Overlay.conflict?_empty w.stores)
  rw [Overlay.merge_empty, ← h] at hperform
  constructor
  · rw [reply, hperform]
  · simp only [after, hperform, Function.update_eq_self]

theorem accepts_of_no_conflict {past : List (Stores × Act)} (ho : w.units unit = some o)
    (grown : o.Grown past) (hc : o.conflict? w.stores = none) : w.Accepts unit o := by
  have hperform := perform_commit_of_no_conflict ho hc
  have hafter : w.after (unit, .commit) =
      { stores := o.merge w.stores, units := Function.update w.units unit (some {}) } := by
    simp only [after, hperform]
  constructor
  · rw [reply, hperform]
  · rw [hafter]
    exact stored_merge grown w.stores
  · rw [hafter]
    exact stored_merge grown w.stores
  · rw [hafter]
    rfl
  · rw [hafter]
  · refine commit_empty ?_
    rw [hafter]
    exact Function.update_self ..

end Shared

/-- If a staged aggregate has moved on, a commit names one and changes nothing. Any other commit
stores all that is staged, each aggregate one version up and the entries at the end of the log. -/
theorem commits_whole {w : Shared} {unit : Nat} {o : Overlay} {past : List (Stores × Act)}
    (ho : w.units unit = some o) (grown : o.Grown past) : w.CommitsWhole unit o past := by
  rcases grown.conflict?_cases w.stores with ⟨e, hc, hreports⟩ | ⟨hc, hnoOrder, hnoMenuItem⟩
  · have hperform := Shared.perform_commit_of_conflict ho hc
    have hreply : w.reply (unit, .commit) = .error e := by rw [Shared.reply, hperform]
    refine ⟨⟨fun _ => hreports.movedOn, fun _ => ?_⟩, ?_, ?_, grown.outbox_sublist⟩
    · obtain ⟨kind, c, rfl⟩ := hreports.eq_concurrencyConflict
      exact ⟨kind, c, hreply⟩
    · intro e' he'
      rw [hreply, Except.error.injEq] at he'
      exact he' ▸ ⟨hreports, by simp only [Shared.after, hperform, Function.update_eq_self]⟩
    · intro hnoOrder hnoMenuItem
      rcases hreports.movedOn with ⟨c, hmoved⟩ | ⟨c, hmoved⟩
      · exact absurd hmoved (hnoOrder c)
      · exact absurd hmoved (hnoMenuItem c)
  · have haccepts := Shared.accepts_of_no_conflict ho grown hc
    refine ⟨⟨?_, ?_⟩, ?_, fun _ _ => haccepts, grown.outbox_sublist⟩
    · rintro ⟨kind, c, herror⟩
      rw [haccepts.reply] at herror
      cases herror
    · rintro (⟨c, hmoved⟩ | ⟨c, hmoved⟩)
      · exact absurd hmoved (hnoOrder c)
      · exact absurd hmoved (hnoMenuItem c)
    · intro e herror
      rw [haccepts.reply] at herror
      cases herror

/-- Two units save the same dish, and the other one has committed first. -/
def Shared.outrun : Shared :=
  let dish : MenuItem := ⟨"m", "Dish", ⟨.zero, by decide⟩, true, []⟩
  run {} [(0, .enter), (1, .enter), (0, .findMenuItem "m"), (1, .saveMenuItem dish),
    (0, .saveMenuItem dish), (1, .commit)]

theorem outrun_commits_whole : ∃ o past, Shared.outrun.units 0 = some o ∧ Overlay.Grown past o ∧
    Shared.outrun.CommitsWhole 0 o past ∧
    Shared.outrun.reply (0, .commit) = .error (.concurrencyConflict "MenuItem" ⟨"m", 0, 1⟩) := by
  have ho : Shared.outrun.units 0 = some _ := rfl
  obtain ⟨past, grown⟩ := Shared.exists_grown (w := {}) (fun _ => rfl) _ ho
  exact ⟨_, past, ho, grown, commits_whole ho grown, by decide +kernel⟩

end TableService
