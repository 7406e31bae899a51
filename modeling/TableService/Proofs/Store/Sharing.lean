import Mathlib.Logic.Function.Basic
import TableService.Proofs.Store.Staging
import TableService.Store.UnitOfWork

/-!
# Units of work that share their stores

- `Shared`: the stores and any number of units of work over them. A run is a list of steps, each of
  which is one act of one unit, so units take turns in any way.
- `Collection`: a table of the stores together with its part of an overlay. There are two of them,
  `Order` and `MenuItem`, and what is said of a collection is said of both.
- `perform_cases`: all that an act can do, seen from one collection: it opens an empty overlay,
  closes the unit, merges the overlay, or stays in it.
- `Shared.at?_after`: the only step that changes a key is a successful commit by a unit that staged
  it.
-/

namespace TableService

open UnitOfWork

/-- The stores, and the units of work that share them. All units are closed at first. -/
structure Shared where
  stores : Stores := {}
  units : Nat → UnitOfWork := fun _ => none

/-- The acts that concern the overlay as a whole. -/
def UnitOfWork.Act.isWhole : Act → Bool
  | .exit | .rollback | .commit => true
  | _ => false

/-- Whether the act is a commit, accepted or not. -/
def UnitOfWork.Act.isCommit : Act → Bool
  | .commit => true
  | _ => false

theorem UnitOfWork.Act.isCommit_of_not_isWhole {act : Act} (h : act.isWhole = false) :
    act.isCommit = false := by
  cases act <;> first | rfl | cases h

/-- What a table of the stores and its part of an overlay have to do with the acts of a unit. -/
class Collection (α : Type) [Aggregate α] where
  committed : Stores → Table (Versioned α)
  staging : Overlay → StagedTable α
  find : String → Act
  save : α → Act
  /-- What a unit finds under a key. -/
  found : Stores → UnitOfWork → String → Within (Option α)
  find_inj {id id' : String} : find id = find id' → id = id'
  save_inj {a a' : α} : save a = save a' → a = a'
  find_ne_save (id : String) (a : α) : find id ≠ save a
  isWhole_find (id : String) : (find id).isWhole = false
  isWhole_save (a : α) : (save a).isWhole = false
  committed_empty : committed {} = ∅
  staging_empty : staging {} = {}
  committed_merge (o : Overlay) (s : Stores) :
    committed (o.merge s) = (staging o).merge (committed s)
  conflict?_eq_none {o : Overlay} {s : Stores} :
    o.conflict? s = none → (staging o).conflict? (committed s) = none
  found_eq (s : Stores) (o : Overlay) (id : String) :
    found s (some o) id = .ok ((staging o).find (committed s) id).1
  perform_find (s : Stores) (o : Overlay) (id : String) :
    ∃ o', (perform s (some o) (find id)).2 = (s, some o') ∧
      staging o' = ((staging o).find (committed s) id).2
  perform_save (s : Stores) (o : Overlay) (a : α) :
    ∃ o', (perform s (some o) (save a)).2 = (s, some o') ∧
      staging o' = (staging o).save (committed s) a
  /-- Other acts leave the collection alone, unless they concern the overlay as a whole. -/
  perform_other (s : Stores) (o : Overlay) {act : Act} (h : act.isWhole = false) :
    (∃ id, act = find id) ∨ (∃ a, act = save a) ∨
      ∃ o', (perform s (some o) act).2 = (s, some o') ∧ staging o' = staging o

theorem Overlay.conflict?_eq_none_iff {o : Overlay} {s : Stores} :
    o.conflict? s = none ↔
      o.orders.conflict? s.orders = none ∧ o.menuItems.conflict? s.menuItems = none := by
  simp [conflict?]

/-- An entry is found unless no entry has the id, neither a staged nor a committed one. -/
theorem Overlay.findEntry_eq_none_iff {o : Overlay} {s : Stores} {id : String} :
    o.findEntry s id = none ↔ ∀ e ∈ s.outbox ++ o.outbox, e.id ≠ id := by
  simp only [Overlay.findEntry, Log.find?, Option.or_eq_none_iff, List.find?_eq_none, beq_iff_eq,
    List.mem_append]
  constructor
  · rintro ⟨ho, hs⟩ e (he | he)
    · exact hs e he
    · exact ho e he
  · intro h
    constructor
    · exact fun e he => h e (.inr he)
    · exact fun e he => h e (.inl he)

/-- Saving an entry leaves the aggregates of the overlay alone. -/
theorem Overlay.perform_saveEntry (s : Stores) (o : Overlay) (entry : Entry) :
    ∃ o', (perform s (some o) (.saveEntry entry)).2 = (s, some o') ∧
      o'.orders = o.orders ∧ o'.menuItems = o.menuItems := by
  simp only [perform, within, saveEntry]
  cases o.findEntry s entry.id with
  | none => exact ⟨_, rfl, rfl, rfl⟩
  | some _ => exact ⟨_, rfl, rfl, rfl⟩

instance : Collection Order where
  committed := Stores.orders
  staging := Overlay.orders
  find := .findOrder
  save := .saveOrder
  found s u id := (perform s u (.findOrder id)).1
  find_inj h := by cases h; rfl
  save_inj h := by cases h; rfl
  find_ne_save _ _ h := by cases h
  isWhole_find _ := rfl
  isWhole_save _ := rfl
  committed_empty := rfl
  staging_empty := rfl
  committed_merge _ _ := rfl
  conflict?_eq_none h := (Overlay.conflict?_eq_none_iff.mp h).1
  found_eq _ _ _ := rfl
  perform_find _ _ _ := ⟨_, rfl, rfl⟩
  perform_save _ _ _ := ⟨_, rfl, rfl⟩
  perform_other s o act h := by
    cases act with
    | exit => cases h
    | rollback => cases h
    | commit => cases h
    | saveEntry entry =>
      obtain ⟨o', h, ho, -⟩ := Overlay.perform_saveEntry s o entry
      exact .inr (.inr ⟨o', h, ho⟩)
    | _ => simp [perform, within]

instance : Collection MenuItem where
  committed := Stores.menuItems
  staging := Overlay.menuItems
  find := .findMenuItem
  save := .saveMenuItem
  found s u id := (perform s u (.findMenuItem id)).1
  find_inj h := by cases h; rfl
  save_inj h := by cases h; rfl
  find_ne_save _ _ h := by cases h
  isWhole_find _ := rfl
  isWhole_save _ := rfl
  committed_empty := rfl
  staging_empty := rfl
  committed_merge _ _ := rfl
  conflict?_eq_none h := (Overlay.conflict?_eq_none_iff.mp h).2
  found_eq _ _ _ := rfl
  perform_find _ _ _ := ⟨_, rfl, rfl⟩
  perform_save _ _ _ := ⟨_, rfl, rfl⟩
  perform_other s o act h := by
    cases act with
    | exit => cases h
    | rollback => cases h
    | commit => cases h
    | saveEntry entry =>
      obtain ⟨o', h, -, ho⟩ := Overlay.perform_saveEntry s o entry
      exact .inr (.inr ⟨o', h, ho⟩)
    | _ => simp [perform, within]

/-- A closed unit changes nothing, and only entering opens it. -/
theorem perform_none (s : Stores) (act : Act) :
    (perform s none act).2 = (s, none) ∨ act = .enter ∧ (perform s none act).2 = (s, some {}) := by
  cases act with
  | enter => exact .inr ⟨rfl, rfl⟩
  | _ => exact .inl rfl

namespace Collection

variable {α : Type} [Aggregate α] [Collection α]

/-- The acts that look a key up, or save to it. -/
def Touches (α : Type) [Aggregate α] [Collection α] (act : Act) (id : String) : Prop :=
  act = find α id ∨ ∃ a : α, act = save a ∧ Aggregate.id a = id

theorem not_touches_of_isWhole {act : Act} (h : act.isWhole = true) (id : String) :
    ¬ Touches α act id := by
  rintro (rfl | ⟨a, rfl, -⟩)
  · rw [isWhole_find] at h
    cases h
  · rw [isWhole_save] at h
    cases h

/-- The part `t` of an overlay becomes `t'` by an act that the overlay outlives. -/
inductive Stays (c : Table (Versioned α)) (t : StagedTable α) (act : Act) :
    StagedTable α → Prop where
  | find (id : String) (h : act = Collection.find α id) : Stays c t act (t.find c id).2
  | save (a : α) (h : act = Collection.save a) : Stays c t act (t.save c a)
  | other (h : ∀ id, ¬ Touches α act id) : Stays c t act t

/-- All that an act can do to an open unit, seen from one collection. -/
theorem perform_cases (α : Type) [Aggregate α] [Collection α] (s : Stores) (o : Overlay)
    (act : Act) :
    act = .exit ∧ (perform s (some o) act).2 = (s, none) ∨
    act = .rollback ∧ (perform s (some o) act).2 = (s, some {}) ∨
    act = .commit ∧ o.conflict? s = none ∧ (perform s (some o) act).2 = (o.merge s, some {}) ∨
    act = .commit ∧ o.conflict? s ≠ none ∧ (perform s (some o) act).2 = (s, some o) ∨
    act.isWhole = false ∧ ∃ o', (perform s (some o) act).2 = (s, some o') ∧
      Stays (α := α) (committed s) (staging o) act (staging o') := by
  cases hw : act.isWhole with
  | true =>
    cases act with
    | exit => exact .inl ⟨rfl, rfl⟩
    | rollback => exact .inr (.inl ⟨rfl, rfl⟩)
    | commit =>
      cases hc : o.conflict? s with
      | none => exact .inr (.inr (.inl ⟨rfl, rfl, by simp [perform, hc]⟩))
      | some e => exact .inr (.inr (.inr (.inl ⟨rfl, by simp, by simp [perform, hc]⟩)))
    | _ => cases hw
  | false =>
    refine .inr (.inr (.inr (.inr ⟨rfl, ?_⟩)))
    -- the overlay stays: the act searches, saves, or leaves the collection alone
    by_cases ht : ∃ id, Touches α act id
    · obtain ⟨id, rfl | ⟨a, rfl, -⟩⟩ := ht
      · obtain ⟨o', h, ho⟩ := perform_find (α := α) s o id
        exact ⟨o', h, ho ▸ .find id rfl⟩
      · obtain ⟨o', h, ho⟩ := perform_save (α := α) s o a
        exact ⟨o', h, ho ▸ .save a rfl⟩
    · rcases perform_other (α := α) s o hw with ⟨id, rfl⟩ | ⟨a, rfl⟩ | ⟨o', h, ho⟩
      · exact absurd ⟨id, .inl rfl⟩ ht
      · exact absurd ⟨_, .inr ⟨a, rfl, rfl⟩⟩ ht
      · exact ⟨o', h, ho ▸ .other (not_exists.mp ht)⟩

namespace Stays

variable {c : Table (Versioned α)} {t t' : StagedTable α} {act : Act} {id : String}

/-- The version that was seen of a key stays the one that was seen first. -/
theorem observed_of_some {v : Nat} (h : Stays c t act t') (ho : t.observed[id]? = some v) :
    t'.observed[id]? = some v := by
  cases h with
  | find k _ =>
    simp only [StagedTable.find]
    split
    · exact ho
    · simp [StagedTable.observed_observe, ho]
  | save a _ => simp [StagedTable.save, StagedTable.observed_observe, ho]
  | other _ => exact ho

/-- What does not touch a key leaves it alone. -/
theorem of_not_touches (h : Stays c t act t') (hn : ¬ Touches α act id) :
    t'.observed[id]? = t.observed[id]? ∧ t'.staged[id]? = t.staged[id]? := by
  cases h with
  | find k hk =>
    have hne : k ≠ id := by
      rintro rfl
      exact hn (.inl hk)
    simp only [StagedTable.find]
    split
    · exact ⟨rfl, rfl⟩
    · simp [StagedTable.observed_observe, hne]
  | save a ha =>
    have hne : Aggregate.id a ≠ id := by
      intro hid
      exact hn (.inr ⟨a, ha, hid⟩)
    simp [StagedTable.save, StagedTable.observed_observe, Std.ExtTreeMap.getElem?_insert, hne]
  | other _ => exact ⟨rfl, rfl⟩

/-- The first touch of a key sees the version that is committed then. -/
theorem observed_of_touches (h : Stays c t act t') (ht : Touches α act id)
    (ho : t.observed[id]? = none) (hs : t.staged[id]? = none) :
    t'.observed[id]? = some (versionOf c id) := by
  cases h with
  | find k hk =>
    have hkid : k = id := by
      obtain hf | ⟨a, ha, -⟩ := ht
      · exact find_inj (hk.symm.trans hf)
      · exact absurd (hk.symm.trans ha) (find_ne_save k a)
    subst hkid
    simp [StagedTable.find, hs, StagedTable.observed_observe, ho]
  | save a ha =>
    -- a save is not a search, so it touches the key of what it saves
    have hid : Aggregate.id a = id := by
      obtain hf | ⟨a', ha', hid⟩ := ht
      · exact absurd (hf.symm.trans ha) (find_ne_save id a)
      · rw [save_inj (ha.symm.trans ha')]
        exact hid
    simp [StagedTable.save, StagedTable.observed_observe, hid, ho]
  | other hn => exact absurd ht (hn id)

/-- Only a save under a key stages a value there. -/
theorem staged_of_no_save (h : Stays c t act t')
    (hn : ∀ a : α, act = Collection.save a → Aggregate.id a ≠ id) :
    t'.staged[id]? = t.staged[id]? := by
  cases h with
  | find k _ => rw [StagedTable.staged_find]
  | save a ha => simp [StagedTable.save, Std.ExtTreeMap.getElem?_insert, hn a ha]
  | other _ => rfl

/-- A save stages its value. -/
theorem staged_of_save {a : α} (h : Stays c t (Collection.save a) t') :
    t'.staged[Aggregate.id a]? = some a := by
  cases h with
  | find k hk => exact absurd hk.symm (find_ne_save k a)
  | save b hb =>
    rw [save_inj hb]
    exact Std.ExtTreeMap.getElem?_insert_self
  | other ho => exact absurd (.inr ⟨a, rfl, rfl⟩) (ho (Aggregate.id a))

/-- What is staged under a key was there before, or is the value that has just been saved. -/
theorem staged_cases {a : α} (h : Stays c t act t') (ha : t'.staged[id]? = some a) :
    t.staged[id]? = some a ∨ act = Collection.save a ∧ Aggregate.id a = id := by
  by_cases hn : ∀ b : α, act = Collection.save b → Aggregate.id b ≠ id
  · rw [h.staged_of_no_save hn] at ha
    exact .inl ha
  · simp only [not_forall, not_not] at hn
    obtain ⟨b, hb, hid⟩ := hn
    cases h with
    | find k hk => exact absurd (hk.symm.trans hb) (find_ne_save k b)
    | save d hd =>
      rw [← save_inj (hb.symm.trans hd)] at ha
      unfold StagedTable.save at ha
      simp only [hid, Std.ExtTreeMap.getElem?_insert_self, Option.some.injEq] at ha
      exact .inr ⟨ha ▸ hb, ha ▸ hid⟩
    | other ho => exact absurd (.inr ⟨b, hb, hid⟩) (ho id)

/-- A key that is staged has been seen. -/
theorem observed_of_staged (h : Stays c t act t')
    (hobs : ∀ id : String, t.staged[id]?.isSome → t.observed[id]?.isSome)
    (hs : t'.staged[id]?.isSome) :
    t'.observed[id]?.isSome := by
  by_cases ht : Touches α act id
  · cases ho : t.observed[id]? with
    | some v =>
      rw [h.observed_of_some ho]
      rfl
    | none =>
      cases hst : t.staged[id]? with
      | some a =>
        have hseen : t.observed[id]?.isSome := hobs id (by rw [hst]; rfl)
        rw [ho] at hseen
        cases hseen
      | none =>
        rw [h.observed_of_touches ht ho hst]
        rfl
  · rw [(h.of_not_touches ht).1]
    rw [(h.of_not_touches ht).2] at hs
    exact hobs id hs

end Stays

end Collection

/-- Only a successful commit changes the stores. -/
theorem UnitOfWork.stores_perform (s : Stores) (u : UnitOfWork) (act : Act) :
    (perform s u act).2.1 = s ∨ act = .commit ∧ ∃ o, u = some o ∧ o.conflict? s = none ∧
      (perform s u act).2.1 = o.merge s := by
  cases u with
  | none =>
    rcases perform_none s act with h | ⟨-, h⟩
    · exact .inl (congrArg Prod.fst h)
    · exact .inl (congrArg Prod.fst h)
  | some o =>
    rcases Collection.perform_cases Order s o act with ⟨-, h⟩ | ⟨-, h⟩ | ⟨rfl, hc, h⟩ | ⟨-, -, h⟩ |
      ⟨-, o', h, -⟩
    · exact .inl (congrArg Prod.fst h)
    · exact .inl (congrArg Prod.fst h)
    · exact .inr ⟨rfl, o, rfl, hc, congrArg Prod.fst h⟩
    · exact .inl (congrArg Prod.fst h)
    · exact .inl (congrArg Prod.fst h)

namespace Shared

open Collection

/-- The number of a unit, and what it does. -/
abbrev Step := Nat × Act

/-- What a step gives to its unit. -/
def reply (w : Shared) (step : Step) : step.2.Reply :=
  (perform w.stores (w.units step.1) step.2).1

/-- The stores and all units behind a step. Only one unit takes part. -/
def after (w : Shared) (step : Step) : Shared :=
  let (_, stores, u) := perform w.stores (w.units step.1) step.2
  { stores, units := Function.update w.units step.1 u }

/-- The stores and all units after one step after another. -/
def run (w : Shared) (steps : List Step) : Shared :=
  steps.foldl after w

@[simp] theorem run_nil (w : Shared) : w.run [] = w := rfl

@[simp] theorem run_cons (w : Shared) (step : Step) (steps : List Step) :
    w.run (step :: steps) = (w.after step).run steps := rfl

theorem run_append (w : Shared) (steps more : List Step) :
    w.run (steps ++ more) = (w.run steps).run more := List.foldl_append

/-- Whether a commit of this unit succeeds. -/
def commits (w : Shared) (unit : Nat) : Bool :=
  (w.reply (unit, .commit)).isOk

variable {α : Type} [Aggregate α] [Collection α]

/-- The values of a collection that a unit has staged. -/
def staged (α : Type) [Aggregate α] [Collection α] (w : Shared) (unit : Nat) : Table α :=
  match w.units unit with
  | some o => (staging o).staged
  | none => ∅

/-- The committed value under a key with its version, if there is one. -/
def at? (α : Type) [Aggregate α] [Collection α] (w : Shared) (id : String) : Option (Versioned α) :=
  (committed w.stores)[id]?

/-- The committed version of a key of a collection. -/
def version (α : Type) [Aggregate α] [Collection α] (w : Shared) (id : String) : Nat :=
  versionOf (committed (α := α) w.stores) id

theorem version_eq (w : Shared) (id : String) :
    w.version α id = ((w.at? α id).map Versioned.version).getD 0 := rfl

/-- Whether a step is a successful commit by a unit that staged this key. -/
def writes (α : Type) [Aggregate α] [Collection α] (w : Shared) (step : Step)
    (id : String) : Bool :=
  step.2.isCommit && w.commits step.1 && (w.staged α step.1)[id]?.isSome

theorem units_after_self (w : Shared) (unit : Nat) (act : Act) :
    (w.after (unit, act)).units unit = (perform w.stores (w.units unit) act).2.2 := by
  simp [after]

theorem units_after_of_ne (w : Shared) {unit : Nat} {step : Step} (h : step.1 ≠ unit) :
    (w.after step).units unit = w.units unit := by
  simp [after, Function.update_of_ne (Ne.symm h)]

theorem stores_after (w : Shared) (step : Step) :
    (w.after step).stores = (perform w.stores (w.units step.1) step.2).2.1 := rfl

theorem commits_eq_true_iff {w : Shared} {unit : Nat} :
    w.commits unit = true ↔ ∃ o, w.units unit = some o ∧ o.conflict? w.stores = none := by
  simp only [commits, reply]
  cases w.units unit with
  | none => simp [perform, Except.isOk, Except.toBool]
  | some o =>
    cases h : o.conflict? w.stores with
    | none => simp [perform, h, Except.isOk, Except.toBool]
    | some e => simp [perform, h, Except.isOk, Except.toBool]

theorem staged_of_some {w : Shared} {unit : Nat} {o : Overlay} (h : w.units unit = some o) :
    w.staged α unit = (staging o).staged := by
  rw [staged, h]

/-- A key changes by a successful commit of a unit that staged it, and by nothing else. -/
theorem at?_after (w : Shared) (step : Step) (id : String) :
    (w.after step).at? α id =
      if w.writes α step id then
        (w.staged α step.1)[id]?.map fun a => ⟨w.version α id + 1, a⟩
      else w.at? α id := by
  obtain ⟨unit, act⟩ := step
  simp only [at?, stores_after, writes]
  cases hu : w.units unit with
  | none =>
    have hs : (perform w.stores none act).2.1 = w.stores := by
      rcases perform_none w.stores act with h | ⟨-, h⟩ <;> rw [h]
    have hc : w.commits unit = false := by
      rw [Bool.eq_false_iff, ne_eq, commits_eq_true_iff, hu]
      simp
    simp [hs, hc]
  | some o =>
    rcases perform_cases α w.stores o act with ⟨rfl, h⟩ | ⟨rfl, h⟩ | ⟨rfl, hc, h⟩ | ⟨rfl, hc, h⟩ |
      ⟨hw, o', h, -⟩
    · simp [h, Act.isCommit]
    · simp [h, Act.isCommit]
    · -- the merge puts what is staged, one version up
      have hok : w.commits unit = true := commits_eq_true_iff.mpr ⟨o, hu, hc⟩
      simp only [h, hok, committed_merge, StagedTable.getElem?_merge, staged_of_some hu, version]
      cases (staging (α := α) o).staged[id]? <;> simp [Act.isCommit]
    · have hno : w.commits unit = false := by
        rw [Bool.eq_false_iff, ne_eq, commits_eq_true_iff, hu]
        simpa using hc
      simp [h, hno]
    · simp [h, Act.isCommit_of_not_isWhole hw]

/-- A version goes up by one with each commit of its key, and never down. -/
theorem version_after (w : Shared) (step : Step) (id : String) :
    (w.after step).version α id = w.version α id + if w.writes α step id then 1 else 0 := by
  rw [version_eq, at?_after]
  split
  · rename_i h
    simp only [writes, Bool.and_eq_true] at h
    obtain ⟨a, ha⟩ := Option.isSome_iff_exists.mp h.2
    simp [ha]
  · rfl

end Shared

end TableService
