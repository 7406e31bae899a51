import TableService.Proofs.Command.Course

/-!
# Acts that are done again

A unit of work remembers at which version it has seen a key first. Stores that have moved on, but
not under these keys, answer its acts as they were answered before.

- `StagedTable.Seen`, `StagedTable.Agrees`: the versions that were seen are not ahead of what is
  committed, and are what is committed.
- `StagedTable.find_again`, `StagedTable.save_again`: the same of a key that is touched again.
- `Stores.Advances`: how the stores move forward, the log included.
- `UnitOfWork.perform_again`: an act that comes to an overlay which later stores agree with comes to
  the same over these stores.
-/

namespace TableService

namespace StagedTable

variable {α : Type} {t : StagedTable α} {now later : Table (Versioned α)} {id : String}

/-- No version was seen that has not been committed yet. -/
def Seen (t : StagedTable α) (committed : Table (Versioned α)) : Prop :=
  ∀ (id : String) (v : Nat), t.observed[id]? = some v → v ≤ versionOf committed id

/-- Every key that was touched is at the version that was seen. -/
def Agrees (t : StagedTable α) (committed : Table (Versioned α)) : Prop :=
  ∀ (id : String) (v : Nat), t.observed[id]? = some v → v = versionOf committed id

theorem seen_empty (committed : Table (Versioned α)) : ({} : StagedTable α).Seen committed := by
  intro id v hv
  simp at hv

theorem Seen.advance (h : t.Seen now) (hadvances : now.Advances later) : t.Seen later :=
  fun id v hv => Nat.le_trans (h id v hv) hadvances.version_le

theorem Seen.observe (h : t.Seen now) (id : String) : (t.observe now id).Seen now := by
  intro other v hv
  rw [observed_observe] at hv
  split at hv
  · rename_i hid
    cases hv
    exact Nat.le_of_eq (congrArg _ hid.1)
  · exact h other v hv

theorem Seen.find (h : t.Seen now) (id : String) : (t.find now id).2.Seen now := by
  unfold StagedTable.find
  split
  · exact h
  · exact h.observe id

theorem Seen.save [Aggregate α] (h : t.Seen now) (a : α) : (t.save now a).Seen now :=
  h.observe (Aggregate.id a)

/-- A key that later stores agree on has not been committed in the meantime. -/
theorem Agrees.of_observe (h : (t.observe now id).Agrees later) (hseen : t.Seen now)
    (hadvances : now.Advances later) :
    t.Agrees later ∧ versionOf now id = versionOf later id := by
  have hold : t.Agrees later := by
    intro other v hv
    refine h other v ?_
    rw [observed_observe, if_neg fun hid => by simp [hid.2] at hv]
    exact hv
  refine ⟨hold, ?_⟩
  cases hv : t.observed[id]? with
  | some v =>
    -- the key has been seen before, and no version lies between
    have hle := hseen id v hv
    have heq := hold id v hv
    have hmore : versionOf now id ≤ versionOf later id := hadvances.version_le
    omega
  | none =>
    refine h id _ ?_
    rw [observed_observe, if_pos ⟨rfl, hv⟩]

theorem find_again (hseen : t.Seen now) (hadvances : now.Advances later)
    (h : (t.find now id).2.Agrees later) : t.Agrees later ∧ t.find later id = t.find now id := by
  unfold find at h ⊢
  split at h
  · exact ⟨h, rfl⟩
  · obtain ⟨hold, hversion⟩ := h.of_observe hseen hadvances
    refine ⟨hold, ?_⟩
    rw [hadvances.getElem?_eq hversion, observe, observe, hversion]

theorem save_again [Aggregate α] {a : α} (hseen : t.Seen now) (hadvances : now.Advances later)
    (h : (t.save now a).Agrees later) : t.Agrees later ∧ t.save later a = t.save now a := by
  have hobserved : (t.observe now (Aggregate.id a)).Agrees later := h
  obtain ⟨hold, hversion⟩ := hobserved.of_observe hseen hadvances
  refine ⟨hold, ?_⟩
  rw [save, save, observe, observe, hversion]

/-- Keys that were only touched to be staged are at the versions that were seen, if there is no
conflict. -/
theorem agrees_of_conflict? (hstaged : ∀ id ∈ t.observed, id ∈ t.staged)
    (h : t.conflict? now = none) : t.Agrees now := by
  intro id v hv
  have hmem : id ∈ t.observed := Std.ExtTreeMap.mem_iff_isSome_getElem?.mpr (by rw [hv]; rfl)
  have hversion := (conflict?_eq_none_iff t now).mp h id (hstaged id hmem)
  rw [Std.ExtTreeMap.getD_eq_getD_getElem?, hv] at hversion
  exact hversion

/-- The first key that is looked up is the only one that is touched. -/
theorem eq_of_mem_observe {own : String} (h : own = id) :
    ∀ other ∈ (({} : StagedTable α).observe now id).observed, other = own := by
  intro other hother
  rw [observe, Std.ExtTreeMap.mem_insertIfNew] at hother
  rcases hother with hother | hother
  · exact (h.trans (Std.LawfulEqCmp.compare_eq_iff_eq.mp hother)).symm
  · exact absurd hother Std.ExtTreeMap.not_mem_empty

/-- To save the only aggregate that was touched covers all keys. -/
theorem covered_save [Aggregate α] {a : α} (h : ∀ id ∈ t.observed, id = Aggregate.id a)
    (committed : Table (Versioned α)) :
    ∀ id ∈ (t.save committed a).observed, id ∈ (t.save committed a).staged := by
  intro id hid
  rw [save, observe, Std.ExtTreeMap.mem_insertIfNew] at hid
  refine Std.ExtTreeMap.mem_insert.mpr (.inl ?_)
  rcases hid with hid | hid
  · exact hid
  · rw [h id hid]
    exact Std.ReflCmp.compare_self

end StagedTable

/-! ## Overlays -/

/-- How the stores move forward. -/
structure Stores.Advances (s s' : Stores) : Prop where
  orders : s.orders.Advances s'.orders
  menuItems : s.menuItems.Advances s'.menuItems
  outbox : s.outbox <+: s'.outbox

theorem Stores.Advances.refl (s : Stores) : s.Advances s :=
  ⟨.refl _, .refl _, List.prefix_refl _⟩

theorem Stores.Advances.trans {s s' s'' : Stores} (h : s.Advances s') (h' : s'.Advances s'') :
    s.Advances s'' :=
  ⟨h.orders.trans h'.orders, h.menuItems.trans h'.menuItems, h.outbox.trans h'.outbox⟩

theorem Overlay.advances_merge (o : Overlay) (s : Stores) : s.Advances (o.merge s) :=
  ⟨o.orders.advances_merge _, o.menuItems.advances_merge _, List.prefix_append _ _⟩

namespace Overlay

/-- What was seen of the keys that were touched is no newer than these stores. -/
structure Seen (o : Overlay) (s : Stores) : Prop where
  orders : o.orders.Seen s.orders
  menuItems : o.menuItems.Seen s.menuItems

/-- With these stores the overlay can be committed. -/
structure Agrees (o : Overlay) (s : Stores) : Prop where
  orders : o.orders.Agrees s.orders
  menuItems : o.menuItems.Agrees s.menuItems
  /-- The ids of staged entries are free. -/
  free : ∀ e ∈ o.outbox, ∀ old ∈ s.outbox, old.id ≠ e.id

theorem seen_empty (s : Stores) : ({} : Overlay).Seen s :=
  ⟨StagedTable.seen_empty _, StagedTable.seen_empty _⟩

theorem Seen.advance {o : Overlay} {s later : Stores} (h : o.Seen s)
    (hadvances : s.Advances later) : o.Seen later :=
  ⟨h.orders.advance hadvances.orders, h.menuItems.advance hadvances.menuItems⟩

/-- Only keys that are staged have been touched. -/
structure Covered (o : Overlay) : Prop where
  orders : ∀ id ∈ o.orders.observed, id ∈ o.orders.staged
  menuItems : ∀ id ∈ o.menuItems.observed, id ∈ o.menuItems.staged

theorem Covered.agrees {o : Overlay} {s : Stores} (h : o.Covered)
    (hfree : ∀ e ∈ o.outbox, ∀ old ∈ s.outbox, old.id ≠ e.id) (hc : o.conflict? s = none) :
    o.Agrees s := by
  obtain ⟨horders, hitems⟩ := Overlay.conflict?_eq_none_iff.mp hc
  exact ⟨StagedTable.agrees_of_conflict? h.orders horders,
    StagedTable.agrees_of_conflict? h.menuItems hitems, hfree⟩

/-- What is staged with an id that is free later was staged because the id was free. -/
theorem saveEntry_again {o : Overlay} {s later : Stores} {entry : Entry}
    (hadvances : s.Advances later)
    (h : ∀ o', o.saveEntry s entry = .ok o' →
      ∀ e ∈ o'.outbox, ∀ old ∈ later.outbox, old.id ≠ e.id) :
    o.saveEntry later entry = o.saveEntry s entry := by
  obtain ⟨more, hmore⟩ := hadvances.outbox
  have hsame : o.findEntry later entry.id = none ↔ o.findEntry s entry.id = none := by
    rw [findEntry_eq_none_iff, findEntry_eq_none_iff]
    constructor
    · intro hnone e he
      refine hnone e ?_
      rw [← hmore]
      rcases List.mem_append.mp he with he | he
      · exact List.mem_append_left _ (List.mem_append_left _ he)
      · exact List.mem_append_right _ he
    · intro hnone e he
      have hok : o.saveEntry s entry = .ok { o with outbox := o.outbox ++ [entry] } := by
        rw [saveEntry, findEntry_eq_none_iff.mpr hnone]
      rcases List.mem_append.mp he with he | he
      · exact h _ hok entry (List.mem_append_right _ (List.mem_singleton_self _)) e he
      · exact hnone e (List.mem_append_right _ he)
  rw [saveEntry, saveEntry]
  cases hfound : o.findEntry s entry.id with
  | none => rw [hsame.mpr hfound]
  | some e =>
    cases hlater : o.findEntry later entry.id with
    | none =>
      rw [hsame.mp hlater] at hfound
      cases hfound
    | some _ => rfl

end Overlay

/-! ## Units of work -/

namespace UnitOfWork

/-- The acts whose answers depend on what the unit has seen, and on nothing else. -/
def Act.isSteady : Act → Bool
  | .exit | .rollback | .commit | .findEntry _ => false
  | _ => true

/-- An open unit has seen nothing newer than these stores. -/
def Seen (u : UnitOfWork) (s : Stores) : Prop := ∀ o, u = some o → o.Seen s

/-- An open unit can be committed with these stores. -/
def Agrees (u : UnitOfWork) (s : Stores) : Prop := ∀ o, u = some o → o.Agrees s

/-- The ids of all entries that are staged are among these. -/
def StagesUnder (u : UnitOfWork) (ids : List String) : Prop :=
  ∀ o, u = some o → ∀ e ∈ o.outbox, e.id ∈ ids

variable {s later : Stores} {u : UnitOfWork} {act : Act} {ids : List String}

theorem agrees_none (s : Stores) : Agrees none s := nofun

theorem agrees_some {o : Overlay} : Agrees (some o) s ↔ o.Agrees s :=
  ⟨fun h => h o rfl, fun h _ ho => Option.some.inj ho ▸ h⟩

theorem seen_some {o : Overlay} : Seen (some o) s ↔ o.Seen s :=
  ⟨fun h => h o rfl, fun h _ ho => Option.some.inj ho ▸ h⟩

theorem Seen.advance (h : u.Seen s) (hadvances : s.Advances later) : u.Seen later :=
  fun o ho => (h o ho).advance hadvances

theorem StagesUnder.mono {more : List String} (h : u.StagesUnder ids) (hsub : ids ⊆ more) :
    u.StagesUnder more :=
  fun o ho e he => hsub (h o ho e he)

theorem isCommit_of_isSteady (h : act.isSteady = true) : act ≠ .commit := by
  rintro rfl
  cases h

theorem perform_stores (h : act.isSteady = true) : (perform s u act).2.1 = s := by
  rcases stores_perform s u act with hsame | ⟨hcommit, -⟩
  · exact hsame
  · exact absurd hcommit (isCommit_of_isSteady h)

/-- An act comes to the same over later stores that agree with what the unit has seen by then. -/
theorem perform_again (hsteady : act.isSteady = true) (hseen : u.Seen s)
    (hadvances : s.Advances later) (h : Agrees (perform s u act).2.2 later) :
    perform later u act = ((perform s u act).1, later, (perform s u act).2.2) ∧ u.Agrees later := by
  cases u with
  | none =>
    refine ⟨?_, agrees_none later⟩
    cases act <;> rfl
  | some o =>
    have hseen := seen_some.mp hseen
    cases act with
    | enter | isOpen | look => exact ⟨rfl, h⟩
    | findOrder id =>
      have hagrees := agrees_some.mp h
      obtain ⟨hold, hfind⟩ := StagedTable.find_again hseen.orders hadvances.orders hagrees.orders
      refine ⟨?_, agrees_some.mpr ⟨hold, hagrees.menuItems, hagrees.free⟩⟩
      simp only [perform, within, hfind]
    | findMenuItem id =>
      have hagrees := agrees_some.mp h
      obtain ⟨hold, hfind⟩ :=
        StagedTable.find_again hseen.menuItems hadvances.menuItems hagrees.menuItems
      refine ⟨?_, agrees_some.mpr ⟨hagrees.orders, hold, hagrees.free⟩⟩
      simp only [perform, within, hfind]
    | saveOrder order =>
      have hagrees := agrees_some.mp h
      obtain ⟨hold, hsave⟩ := StagedTable.save_again hseen.orders hadvances.orders hagrees.orders
      refine ⟨?_, agrees_some.mpr ⟨hold, hagrees.menuItems, hagrees.free⟩⟩
      simp only [perform, within, hsave]
    | saveMenuItem item =>
      have hagrees := agrees_some.mp h
      obtain ⟨hold, hsave⟩ :=
        StagedTable.save_again hseen.menuItems hadvances.menuItems hagrees.menuItems
      refine ⟨?_, agrees_some.mpr ⟨hagrees.orders, hold, hagrees.free⟩⟩
      simp only [perform, within, hsave]
    | saveEntry entry =>
      have hsame : o.saveEntry later entry = o.saveEntry s entry := by
        refine Overlay.saveEntry_again hadvances fun o' ho' => ?_
        have hagrees := h
        simp only [perform, within, ho'] at hagrees
        exact (agrees_some.mp hagrees).free
      refine ⟨by simp only [perform, within, hsame], ?_⟩
      cases hfound : o.findEntry s entry.id with
      | some _ =>
        simp only [perform, within, Overlay.saveEntry, hfound] at h
        exact h
      | none =>
        simp only [perform, within, Overlay.saveEntry, hfound] at h
        have hagrees := agrees_some.mp h
        exact agrees_some.mpr ⟨hagrees.orders, hagrees.menuItems,
          fun e he => hagrees.free e (List.mem_append_left _ he)⟩
    | _ => cases hsteady

theorem Seen.perform (hsteady : act.isSteady = true) (h : u.Seen s) :
    Seen (perform s u act).2.2 s := by
  cases u with
  | none =>
    cases act with
    | enter => exact seen_some.mpr (Overlay.seen_empty s)
    | _ => exact h
  | some o =>
    have hseen := seen_some.mp h
    cases act with
    | enter | isOpen | look => exact h
    | findOrder id => exact seen_some.mpr ⟨hseen.orders.find id, hseen.menuItems⟩
    | findMenuItem id => exact seen_some.mpr ⟨hseen.orders, hseen.menuItems.find id⟩
    | saveOrder order => exact seen_some.mpr ⟨hseen.orders.save order, hseen.menuItems⟩
    | saveMenuItem item => exact seen_some.mpr ⟨hseen.orders, hseen.menuItems.save item⟩
    | saveEntry entry =>
      simp only [UnitOfWork.perform, within, Overlay.saveEntry]
      cases o.findEntry s entry.id with
      | some _ => exact h
      | none => exact seen_some.mpr ⟨hseen.orders, hseen.menuItems⟩
    | _ => cases hsteady

theorem StagesUnder.perform (hsteady : act.isSteady = true)
    (hown : ∀ e, act = .saveEntry e → e.id ∈ ids) (h : u.StagesUnder ids) :
    StagesUnder (perform s u act).2.2 ids := by
  cases u with
  | none =>
    cases act with
    | enter =>
      intro o ho e he
      cases ho
      exact absurd he List.not_mem_nil
    | _ => exact h
  | some o =>
    have hold := h o rfl
    cases act with
    | enter | isOpen | look => exact h
    | findOrder | findMenuItem | saveOrder | saveMenuItem =>
      intro o' ho'
      cases ho'
      exact hold
    | saveEntry entry =>
      simp only [UnitOfWork.perform, within, Overlay.saveEntry]
      cases o.findEntry s entry.id with
      | some _ => exact h
      | none =>
        intro o' ho' e he
        cases ho'
        rcases List.mem_append.mp he with he | he
        · exact hold e he
        · rw [List.mem_singleton.mp he]
          exact hown entry rfl
    | _ => cases hsteady

end UnitOfWork

end TableService
