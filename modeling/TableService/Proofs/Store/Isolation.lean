import Mathlib.Data.List.Induction
import TableService.Proofs.Store.EntryIds
import TableService.Proofs.Store.LostUpdate

/-!
# Units of work in isolation

- `Shared.AgreeApart`: two states that only one unit can tell apart. A step of another unit gives
  the same in both and keeps them so. A step of the unit itself keeps them so as well, as long as it
  is no successful commit.
- `Shared.agreeApart_run`: so a run without the steps of a unit that never commits is the same run
  to all others.
- `Kept`: what units save under keys and find there again, which is an order, a menu item or an
  entry. `Shared.LastSaved` says which value a unit saved last since its overlay was new.
- `Shared.Remembers`: the invariant. An overlay holds the value that was saved last, and nothing
  else.
-/

namespace TableService

open UnitOfWork

namespace Shared

/-! ## Runs without one unit -/

/-- The steps of all units but one. -/
def without (unit : Nat) (steps : List Step) : List Step :=
  steps.filter fun step => step.1 ≠ unit

/-- The steps of a run, each with what it gave to its unit. -/
def transcript (w : Shared) : List Step → List ((step : Step) × step.2.Reply)
  | [] => []
  | step :: rest => ⟨step, w.reply step⟩ :: (w.after step).transcript rest

/-- No commit of the unit succeeds along these steps. -/
def NeverCommits (w : Shared) (unit : Nat) : List Step → Prop
  | [] => True
  | step :: rest =>
    (step = (unit, .commit) → w.commits unit = false) ∧ (w.after step).NeverCommits unit rest

/-- Only the unit itself can tell the two apart. -/
structure AgreeApart (unit : Nat) (w v : Shared) : Prop where
  stores_eq : w.stores = v.stores
  units_eq {other : Nat} : other ≠ unit → w.units other = v.units other

namespace AgreeApart

variable {unit : Nat} {w v : Shared} {step : Step}

theorem refl (unit : Nat) (w : Shared) : AgreeApart unit w w where
  stores_eq := rfl
  units_eq _ := rfl

theorem reply_eq (h : AgreeApart unit w v) (hne : step.1 ≠ unit) : w.reply step = v.reply step := by
  unfold reply
  rw [h.stores_eq, h.units_eq hne]

/-- Another unit does the same to both. -/
theorem after_other (h : AgreeApart unit w v) (hne : step.1 ≠ unit) :
    AgreeApart unit (w.after step) (v.after step) where
  stores_eq := by rw [stores_after, stores_after, h.stores_eq, h.units_eq hne]
  units_eq {other} hother := by
    by_cases hown : step.1 = other
    · subst hown
      show ((w.after (step.1, step.2)).units step.1) = (v.after (step.1, step.2)).units step.1
      rw [units_after_self, units_after_self, h.stores_eq, h.units_eq hne]
    · rw [units_after_of_ne w hown, units_after_of_ne v hown]
      exact h.units_eq hother

/-- What the unit itself does reaches nobody, unless it is a commit that succeeds. -/
theorem after_own (h : AgreeApart unit w v) {act : Act}
    (hc : act = .commit → w.commits unit = false) :
    AgreeApart unit (w.after (unit, act)) v where
  stores_eq := by
    rw [← h.stores_eq, stores_after]
    rcases stores_perform w.stores (w.units unit) act with hsame | ⟨rfl, o, ho, hnone, -⟩
    · exact hsame
    · have hyes : w.commits unit = true := commits_eq_true_iff.mpr ⟨o, ho, hnone⟩
      rw [hc rfl] at hyes
      cases hyes
  units_eq {other} hother := by
    rw [units_after_of_ne w (Ne.symm hother)]
    exact h.units_eq hother

end AgreeApart

theorem without_cons_self (unit : Nat) (act : Act) (steps : List Step) :
    without unit ((unit, act) :: steps) = without unit steps :=
  List.filter_cons_of_neg (by simp)

theorem without_cons_of_ne {unit : Nat} {step : Step} (h : step.1 ≠ unit) (steps : List Step) :
    without unit (step :: steps) = step :: without unit steps :=
  List.filter_cons_of_pos (by simpa using h)

/-- A unit that never commits can be left out of a run: the others reach the same, -/
theorem agreeApart_run {unit : Nat} {w v : Shared} {steps : List Step} (h : AgreeApart unit w v)
    (hn : w.NeverCommits unit steps) :
    AgreeApart unit (w.run steps) (v.run (without unit steps)) := by
  induction steps generalizing w v with
  | nil => exact h
  | cons step rest ih =>
    obtain ⟨own, act⟩ := step
    by_cases hown : own = unit
    · subst hown
      rw [without_cons_self]
      exact ih (h.after_own fun hact => hn.1 (by rw [hact])) hn.2
    · rw [without_cons_of_ne hown]
      exact ih (h.after_other hown) hn.2

/-- and are told the same on the way. -/
theorem transcript_without {unit : Nat} {w v : Shared} {steps : List Step} (h : AgreeApart unit w v)
    (hn : w.NeverCommits unit steps) :
    v.transcript (without unit steps) =
      (w.transcript steps).filter fun told => told.1.1 ≠ unit := by
  induction steps generalizing w v with
  | nil => rfl
  | cons step rest ih =>
    obtain ⟨own, act⟩ := step
    by_cases hown : own = unit
    · subst hown
      rw [without_cons_self, transcript, List.filter_cons_of_neg (by simp)]
      exact ih (h.after_own fun hact => hn.1 (by rw [hact])) hn.2
    · rw [without_cons_of_ne hown, transcript, transcript,
        List.filter_cons_of_pos (by simpa using hown), ih (h.after_other hown) hn.2,
        h.reply_eq hown]

end Shared

/-! ## What a unit has saved -/

/-- What units save under keys and find there again. -/
class Kept (β : Type) where
  find : String → Act
  save : β → Act
  key : β → String
  /-- Whether a unit takes a value that it is given to save. -/
  Takes : Stores → UnitOfWork → β → Prop
  /-- What a unit finds under a key. -/
  found : Stores → UnitOfWork → String → Within (Option β)
  held : Overlay → String → Option β
  committed : Stores → String → Option β
  save_inj {b b' : β} : save b = save b' → b = b'
  isWhole_save (b : β) : (save b).isWhole = false
  not_takes_none (s : Stores) (b : β) : ¬ Takes s none b
  held_empty (id : String) : held {} id = none
  found_eq (s : Stores) (o : Overlay) (id : String) :
    found s (some o) id = .ok ((held o id).or (committed s id))
  /-- Unless an act concerns the overlay as a whole, only a save changes what is held. -/
  perform_held (s : Stores) (o : Overlay) {act : Act} (h : act.isWhole = false) (id : String) :
    ∃ o', (perform s (some o) act).2 = (s, some o') ∧
      ((∃ b, act = save b ∧ key b = id ∧ Takes s (some o) b ∧ held o' id = some b) ∨
        (∀ b, act = save b → key b = id → ¬ Takes s (some o) b) ∧ held o' id = held o id)

open Collection in
/-- An open unit takes every value of a collection. -/
instance {α : Type} [Aggregate α] [Collection α] : Kept α where
  find := Collection.find α
  save := Collection.save
  key := Aggregate.id
  Takes _ u _ := u.isSome
  found := Collection.found
  held o id := (staging o).staged[id]?
  committed s id := (Collection.committed s)[id]?.map Versioned.value
  save_inj := Collection.save_inj
  isWhole_save := Collection.isWhole_save
  not_takes_none _ _ h := by cases h
  held_empty id := by rw [staging_empty]; exact Std.ExtTreeMap.getElem?_empty
  found_eq s o id := by
    rw [Collection.found_eq, StagedTable.find]
    cases (staging (α := α) o).staged[id]? <;> rfl
  perform_held s o act h id := by
    rcases perform_cases α s o act with ⟨rfl, -⟩ | ⟨rfl, -⟩ | ⟨rfl, -⟩ | ⟨rfl, -⟩ | ⟨-, o', hp, hs⟩
    · cases h
    · cases h
    · cases h
    · cases h
    · refine ⟨o', hp, ?_⟩
      by_cases hsave : ∃ a : α, act = Collection.save a ∧ Aggregate.id a = id
      · obtain ⟨a, rfl, rfl⟩ := hsave
        exact .inl ⟨a, rfl, rfl, rfl, hs.staged_of_save⟩
      · refine .inr ⟨fun a ha hid => absurd ⟨a, ha, hid⟩ hsave, hs.staged_of_no_save ?_⟩
        exact fun a ha hid => hsave ⟨a, ha, hid⟩

/-- A new entry is found under its id. -/
theorem Log.find?_concat {log : Log} {entry : Entry} (h : log.IsFree entry.id) (id : String) :
    Log.find? (log ++ [entry]) id = if entry.id = id then some entry else log.find? id := by
  by_cases hid : entry.id = id
  · subst hid
    have hnone : List.find? (fun e => e.id == entry.id) log = none :=
      List.find?_eq_none.mpr fun e he => by simpa using h e he
    rw [if_pos rfl, find?, List.find?_append, hnone, Option.none_or,
      List.find?_cons_of_pos (by simp)]
  · rw [if_neg hid, find?, List.find?_append, List.find?_cons_of_neg (by simpa using hid),
      List.find?_nil, Option.or_none]
    rfl

/-- An open unit takes an entry whose id is free. -/
instance : Kept Entry where
  find := .findEntry
  save := .saveEntry
  key := Entry.id
  Takes s u entry := (perform s u (.saveEntry entry)).1 = .ok (.ok ())
  found s u id := (perform s u (.findEntry id)).1
  held o id := Log.find? o.outbox id
  committed s id := Log.find? s.outbox id
  save_inj h := by cases h; rfl
  isWhole_save _ := rfl
  not_takes_none _ _ h := by cases h
  held_empty _ := rfl
  found_eq _ _ _ := rfl
  perform_held s o act h id := by
    cases act with
    | exit => cases h
    | rollback => cases h
    | commit => cases h
    | saveEntry entry =>
      rcases o.saveEntry_eq s entry with ⟨hfree, hsave⟩ | ⟨-, hsave⟩
      · refine ⟨{ o with outbox := o.outbox ++ [entry] }, by simp only [perform, within, hsave], ?_⟩
        have hfree' : Log.IsFree o.outbox entry.id :=
          fun e he => hfree e (List.mem_append_right _ he)
        by_cases hid : entry.id = id
        · refine .inl ⟨entry, rfl, hid, by simp only [perform, within, hsave], ?_⟩
          rw [Log.find?_concat hfree', if_pos hid]
        · refine .inr ⟨fun e he hkey => ?_, by rw [Log.find?_concat hfree', if_neg hid]⟩
          cases he
          exact absurd hkey hid
      · refine ⟨o, by simp only [perform, within, hsave], .inr ⟨fun e he _ htakes => ?_, rfl⟩⟩
        cases he
        simp only [perform, within, hsave] at htakes
        cases htakes
    | _ => exact ⟨_, rfl, .inr ⟨fun _ he => (by cases he), rfl⟩⟩

namespace Shared

open Kept

variable {β : Type} [Kept β] {w : Shared} {steps : List Step} {unit : Nat} {id : String}

/-- The unit begins anew with nothing: it enters while it is closed, rolls back, or commits. -/
def Renews (w : Shared) (unit : Nat) (step : Step) : Prop :=
  step.1 = unit ∧
    (step.2 = .enter ∧ w.units unit = none ∨ step.2 = .rollback ∨
      step.2 = .commit ∧ w.commits unit = true)

/-- The unit saves a value, and it is taken. -/
def Saves (w : Shared) (unit : Nat) (value : β) (step : Step) : Prop :=
  step = (unit, save value) ∧ Takes w.stores (w.units unit) value

/-- A step after which what the unit has saved under a key so far is not what it saved last. -/
def Forgets (β : Type) [Kept β] (w : Shared) (unit : Nat) (id : String) (step : Step) : Prop :=
  w.Renews unit step ∨ ∃ value : β, key value = id ∧ w.Saves unit value step

/-- There is no such step. -/
def NeverForgets (β : Type) [Kept β] (w : Shared) (unit : Nat) (id : String) : List Step → Prop
  | [] => True
  | step :: rest => ¬ w.Forgets β unit id step ∧ (w.after step).NeverForgets β unit id rest

theorem neverForgets_append {more : List Step} : w.NeverForgets β unit id (steps ++ more) ↔
    w.NeverForgets β unit id steps ∧ (w.run steps).NeverForgets β unit id more := by
  induction steps generalizing w with
  | nil => simp [NeverForgets]
  | cons step rest ih => simp [NeverForgets, ih, and_assoc]

/-- The last value that the unit saved under a key since it began anew. -/
def LastSaved (w : Shared) (steps : List Step) (unit : Nat) (id : String) (value : β) : Prop :=
  ∃ before step later, steps = before ++ step :: later ∧ key value = id ∧
    (w.run before).Saves unit value step ∧
    ((w.run before).after step).NeverForgets β unit id later

/-- One step further, the last value is the one just saved, or still the same. -/
theorem lastSaved_concat {step : Step} {value : β} :
    w.LastSaved (steps ++ [step]) unit id value ↔
      key value = id ∧ (w.run steps).Saves unit value step ∨
        w.LastSaved steps unit id value ∧ ¬ (w.run steps).Forgets β unit id step := by
  constructor
  · rintro ⟨before, saving, later, hsteps, hid, hsaves, hlater⟩
    rcases List.eq_nil_or_concat' later with rfl | ⟨later, last, rfl⟩
    · obtain ⟨rfl, hstep⟩ := List.append_inj' hsteps rfl
      cases hstep
      exact .inl ⟨hid, hsaves⟩
    · rw [← List.cons_append, ← List.append_assoc] at hsteps
      obtain ⟨rfl, hstep⟩ := List.append_inj' hsteps rfl
      cases hstep
      rw [neverForgets_append] at hlater
      refine .inr ⟨⟨before, saving, later, rfl, hid, hsaves, hlater.1⟩, ?_⟩
      rw [run_append]
      exact hlater.2.1
  · rintro (⟨hid, hsaves⟩ | ⟨⟨before, saving, later, rfl, hid, hsaves, hlater⟩, hstep⟩)
    · exact ⟨steps, step, [], rfl, hid, hsaves, trivial⟩
    · rw [run_append] at hstep
      exact ⟨before, saving, later ++ [step], by simp, hid, hsaves,
        neverForgets_append.mpr ⟨hlater, hstep, trivial⟩⟩

/-- A step of another unit concerns nothing that this unit has saved. -/
theorem not_forgets_of_ne {step : Step} (h : step.1 ≠ unit) : ¬ w.Forgets β unit id step := by
  rintro (⟨hown, -⟩ | ⟨b, -, rfl, -⟩)
  · exact h hown
  · exact h rfl

theorem lastSaved_concat_of_ne {step : Step} {value : β} (h : step.1 ≠ unit) :
    w.LastSaved (steps ++ [step]) unit id value ↔ w.LastSaved steps unit id value := by
  rw [lastSaved_concat]
  constructor
  · rintro (⟨-, rfl, -⟩ | ⟨hlast, -⟩)
    · exact absurd rfl h
    · exact hlast
  · exact fun hlast => .inr ⟨hlast, not_forgets_of_ne h⟩

/-- Nothing has been saved since a unit began anew. -/
theorem not_lastSaved_of_renews {step : Step} {value : β} (h : (w.run steps).Renews unit step) :
    ¬ w.LastSaved (steps ++ [step]) unit id value := by
  rw [lastSaved_concat]
  rintro (⟨-, rfl, htakes⟩ | ⟨-, hkeep⟩)
  · obtain ⟨-, ⟨-, hclosed⟩ | hact | ⟨hact, -⟩⟩ := h
    · rw [hclosed] at htakes
      exact not_takes_none _ _ htakes
    · have := isWhole_save value
      rw [show save value = Act.rollback from hact] at this
      cases this
    · have := isWhole_save value
      rw [show save value = Act.commit from hact] at this
      cases this
  · exact hkeep (.inl h)

/-- An act that leaves the overlay as it is changes nothing about what was saved last. -/
theorem lastSaved_concat_of_keeps {act : Act} {value : β}
    (hr : ¬ (w.run steps).Renews unit (unit, act))
    (hs : ∀ b : β, act = save b → key b = id →
      ¬ Takes (w.run steps).stores ((w.run steps).units unit) b) :
    w.LastSaved (steps ++ [(unit, act)]) unit id value ↔ w.LastSaved steps unit id value := by
  have hno (b : β) (hb : key b = id) : ¬ (w.run steps).Saves unit b (unit, act) := by
    rintro ⟨hact, htakes⟩
    exact hs b (congrArg Prod.snd hact) hb htakes
  have hkeep : ¬ (w.run steps).Forgets β unit id (unit, act) := by
    rintro (hrenews | ⟨b, hb, hsaves⟩)
    · exact hr hrenews
    · exact hno b hb hsaves
  rw [lastSaved_concat]
  constructor
  · rintro (⟨hid, hsaves⟩ | ⟨hlast, -⟩)
    · exact absurd hsaves (hno value hid)
    · exact hlast
  · exact fun hlast => .inr ⟨hlast, hkeep⟩

/-- A save that is taken is the last one. -/
theorem lastSaved_concat_of_saves {a value : β} (hid : key a = id)
    (h : Takes (w.run steps).stores ((w.run steps).units unit) a) :
    w.LastSaved (steps ++ [(unit, save a)]) unit id value ↔ a = value := by
  rw [lastSaved_concat]
  constructor
  · rintro (⟨-, hstep, -⟩ | ⟨-, hkeep⟩)
    · exact save_inj (congrArg Prod.snd hstep)
    · exact absurd (.inr ⟨a, hid, rfl, h⟩) hkeep
  · rintro rfl
    exact .inl ⟨hid, rfl, h⟩

/-! ## What a unit finds -/

/-- An overlay holds the value that its unit saved last since it began anew, and nothing else. -/
def Remembers (β : Type) [Kept β] (w : Shared) (steps : List Step) (unit : Nat) (o : Overlay) :
    Prop :=
  ∀ (id : String) (value : β), held o id = some value ↔ w.LastSaved steps unit id value

/-- A new overlay holds nothing. -/
theorem remembers_of_renews {step : Step} (h : (w.run steps).Renews unit step) :
    Remembers β w (steps ++ [step]) unit {} := by
  intro id value
  rw [held_empty]
  constructor
  · exact fun hsome => by cases hsome
  · exact fun hlast => absurd hlast (not_lastSaved_of_renews h)

/-- An act of its own unit, after which the unit is still open. -/
theorem remembers_concat_own {act : Act} {o o' : Overlay} (h : Remembers β w steps unit o)
    (ho : (w.run steps).units unit = some o)
    (ho' : (w.run (steps ++ [(unit, act)])).units unit = some o') :
    Remembers β w (steps ++ [(unit, act)]) unit o' := by
  rw [run_concat, units_after_self, ho] at ho'
  rcases Collection.perform_cases Order (w.run steps).stores o act with ⟨rfl, hp⟩ | ⟨rfl, hp⟩ |
    ⟨rfl, hc, hp⟩ | ⟨rfl, hc, hp⟩ | ⟨hw, -⟩
  · rw [hp] at ho'
    cases ho'
  · rw [hp] at ho'
    cases ho'
    exact remembers_of_renews ⟨rfl, .inr (.inl rfl)⟩
  · rw [hp] at ho'
    cases ho'
    exact remembers_of_renews ⟨rfl, .inr (.inr ⟨rfl, commits_eq_true_iff.mpr ⟨o, ho, hc⟩⟩)⟩
  · -- a commit that fails leaves the overlay as it is
    rw [hp] at ho'
    cases ho'
    intro id value
    rw [h, lastSaved_concat_of_keeps]
    · rintro ⟨-, ⟨he, -⟩ | he | ⟨-, he⟩⟩
      · cases he
      · cases he
      · obtain ⟨o₂, ho₂, hnone⟩ := commits_eq_true_iff.mp he
        rw [ho, Option.some.injEq] at ho₂
        exact hc (ho₂ ▸ hnone)
    · intro b hb
      have := isWhole_save b
      rw [← hb] at this
      cases this
  · intro id value
    obtain ⟨o₁, hp, hheld⟩ := perform_held (β := β) (w.run steps).stores o hw id
    rw [hp] at ho'
    cases ho'
    rcases hheld with ⟨a, rfl, hid, htakes, ha⟩ | ⟨hno, hsame⟩
    · rw [ha, Option.some.injEq]
      exact (lastSaved_concat_of_saves hid (ho ▸ htakes)).symm
    · rw [hsame, h]
      refine (lastSaved_concat_of_keeps ?_ fun b hb hid => ho ▸ hno b hb hid).symm
      -- to enter an open unit is refused
      rintro ⟨-, ⟨-, hnone⟩ | he | ⟨he, -⟩⟩
      · rw [ho] at hnone
        cases hnone
      · subst he
        cases hw
      · subst he
        cases hw

theorem remembers_run (β : Type) [Kept β] (hw : w.units unit = none) {o : Overlay}
    (ho : (w.run steps).units unit = some o) : Remembers β w steps unit o := by
  induction steps using List.reverseRecOn generalizing o with
  | nil =>
    rw [run_nil, hw] at ho
    cases ho
  | append_singleton steps step ih =>
    obtain ⟨own, act⟩ := step
    by_cases hown : own = unit
    · subst hown
      cases hu : (w.run steps).units own with
      | some o₁ => exact remembers_concat_own (ih hu) hu ho
      | none =>
        -- only entering opens a unit, and it opens it with nothing
        rw [run_concat, units_after_self, hu] at ho
        rcases perform_none (w.run steps).stores act with hp | ⟨rfl, hp⟩
        · rw [hp] at ho
          cases ho
        · rw [hp] at ho
          cases ho
          exact remembers_of_renews ⟨rfl, .inl ⟨rfl, hu⟩⟩
    · rw [run_concat, units_after_of_ne _ hown] at ho
      intro id value
      rw [lastSaved_concat_of_ne hown]
      exact ih ho id value

/-- A unit that is open finds what it has saved, and under other keys what is committed. -/
structure FindsOwn (β : Type) [Kept β] (w : Shared) (steps : List Step) (unit : Nat) : Prop where
  saved {id : String} {value : β} : w.LastSaved steps unit id value →
    found (w.run steps).stores ((w.run steps).units unit) id = .ok (some value)
  committed {id : String} : (∀ value : β, ¬ w.LastSaved steps unit id value) →
    found (w.run steps).stores ((w.run steps).units unit) id =
      .ok (committed (β := β) (w.run steps).stores id)

theorem findsOwn (β : Type) [Kept β] (hw : w.units unit = none)
    (hopen : ((w.run steps).units unit).isSome) : FindsOwn β w steps unit := by
  obtain ⟨o, ho⟩ := Option.isSome_iff_exists.mp hopen
  have hrem := remembers_run β hw ho
  constructor
  · intro id value hlast
    rw [ho, found_eq, (hrem id value).mpr hlast]
    rfl
  · intro id hnone
    have hheld : held (β := β) o id = none := by
      cases hsome : held (β := β) o id with
      | none => rfl
      | some value => exact absurd ((hrem id value).mp hsome) (hnone value)
    rw [ho, found_eq, hheld, Option.none_or]

/-- How the stores, and each unit, fare in a run of units that take turns. -/
structure Isolated (w : Shared) (steps : List Step) : Prop where
  /-- A unit that never commits leaves no trace: without its steps the others are told the same, and
  the same is committed. -/
  invisible {unit : Nat} : w.NeverCommits unit steps →
    w.transcript (without unit steps) = (w.transcript steps).filter (fun told => told.1.1 ≠ unit) ∧
      (w.run (without unit steps)).stores = (w.run steps).stores
  /-- A unit that has opened its scope finds what it saved last, and else what is committed. -/
  finds {unit : Nat} : w.units unit = none → ((w.run steps).units unit).isSome →
    FindsOwn Order w steps unit ∧ FindsOwn MenuItem w steps unit ∧ FindsOwn Entry w steps unit

end Shared

/-- However units of work over the same stores take turns: what a unit has not committed is seen by
that unit alone. -/
theorem uncommitted_work_is_invisible (w : Shared) (steps : List Shared.Step) :
    w.Isolated steps where
  invisible hn :=
    ⟨Shared.transcript_without (.refl _ w) hn,
      (Shared.agreeApart_run (.refl _ w) hn).stores_eq.symm⟩
  finds hw hopen := ⟨Shared.findsOwn Order hw hopen, Shared.findsOwn MenuItem hw hopen,
    Shared.findsOwn Entry hw hopen⟩

/-- A commit that fails leaves no trace either, and its unit still finds what it has saved. -/
theorem failed_commit_is_invisible :
    let dish (name : String) : MenuItem := ⟨"m", name, ⟨.zero, by decide⟩, true, []⟩
    let steps : List Shared.Step :=
      [(0, .enter), (1, .enter), (1, .saveMenuItem (dish "Soup")), (0, .findMenuItem "m"),
        (0, .saveMenuItem (dish "Stew")), (0, .commit), (1, .commit)]
    let w : Shared := {}
    w.NeverCommits 1 steps ∧
    (w.run (Shared.without 1 steps)).stores = (w.run steps).stores ∧
    w.units 1 = none ∧ ((w.run steps).units 1).isSome ∧
    w.LastSaved steps 1 "m" (dish "Soup") ∧
    ((w.run steps).reply (1, .findMenuItem "m") : Within (Option MenuItem)) =
      .ok (some (dish "Soup")) := by
  intro dish steps w
  have hnever : w.NeverCommits 1 steps :=
    ⟨nofun, nofun, nofun, nofun, nofun, nofun, fun _ => by decide +kernel, trivial⟩
  have hopen : ((w.run steps).units 1).isSome := by decide +kernel
  have hlast : w.LastSaved steps 1 "m" (dish "Soup") := by
    refine ⟨[(0, .enter), (1, .enter)], _, _, rfl, rfl, ⟨rfl, rfl⟩, ?_⟩
    have hother {v : Shared} {act : Act} : ¬ v.Forgets MenuItem 1 "m" (0, act) :=
      Shared.not_forgets_of_ne Nat.zero_ne_one
    refine ⟨hother, hother, hother, ?_, trivial⟩
    rintro (⟨-, ⟨h, -⟩ | h | ⟨-, h⟩⟩ | ⟨b, -, h, -⟩)
    · cases h
    · cases h
    · revert h
      decide +kernel
    · cases h
  have h := uncommitted_work_is_invisible w steps
  exact ⟨hnever, (h.invisible hnever).2, rfl, hopen, hlast, (h.finds rfl hopen).2.1.saved hlast⟩

end TableService
