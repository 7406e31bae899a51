import Mathlib.Data.List.Induction
import TableService.Proofs.Store.Sharing

/-!
# No update is lost

- `FirstTouch`: where in a run the overlay that a unit still has looked a key up, or saved to it,
  for the first time.
- `TracedOverlay`: the invariant. For each key that an overlay has touched, the version it remembers
  is the one that was committed at the first touch.
- `NoLostUpdate`: what follows for a commit that succeeds, and for the versions of a whole run.
-/

namespace TableService

open UnitOfWork Collection

namespace Shared

variable {α : Type} [Aggregate α] [Collection α]

/-- All units are closed, and nothing is committed. -/
abbrev start : Shared := {}

/-- Whether the overlay of an open unit ends with a step. -/
def ends (w : Shared) (unit : Nat) (step : Step) : Prop :=
  step.1 = unit ∧ (step.2 = .exit ∨ step.2 = .rollback ∨ step.2 = .commit ∧ w.commits unit = true)

/-- A unit that is open keeps its overlay throughout these steps. -/
def Keeps (w : Shared) (unit : Nat) : List Step → Prop
  | [] => True
  | step :: rest => ¬ w.ends unit step ∧ (w.after step).Keeps unit rest

theorem keeps_append {w : Shared} {unit : Nat} {steps more : List Step} :
    w.Keeps unit (steps ++ more) ↔ w.Keeps unit steps ∧ (w.run steps).Keeps unit more := by
  induction steps generalizing w with
  | nil => simp [Keeps]
  | cons step rest ih => simp [Keeps, ih, and_assoc]

/-- The overlay that the unit has behind these steps has not touched the key: it was empty at some
point, and from there on no act of the unit touched the key. -/
def Untouched (α : Type) [Aggregate α] [Collection α] (steps : List Step) (unit : Nat)
    (id : String) : Prop :=
  ∃ earlier own, steps = earlier ++ own ∧ (start.run earlier).units unit = some {} ∧
    (start.run earlier).Keeps unit own ∧ ∀ act, (unit, act) ∈ own → ¬ Touches α act id

/-- The overlay that the unit has behind these steps touched the key first by `touch`. -/
structure FirstTouch (α : Type) [Aggregate α] [Collection α] (steps : List Step) (unit : Nat)
    (id : String) (before : List Step) (touch : Act) (later : List Step) : Prop where
  steps_eq : steps = before ++ (unit, touch) :: later
  untouched : Untouched α before unit id
  touches : Touches α touch id
  keeps : (start.run before).Keeps unit ((unit, touch) :: later)

/-! ## What an overlay keeps -/

/-- A step that does not end an overlay leaves it open, and only its own unit changes it. -/
theorem overlay_after {w : Shared} {unit : Nat} {step : Step} {o : Overlay}
    (ho : w.units unit = some o) (hk : ¬ w.ends unit step) :
    ∃ o', (w.after step).units unit = some o' ∧
      (step.1 ≠ unit ∧ o' = o ∨
        step.1 = unit ∧ Stays (α := α) (committed w.stores) (staging o) step.2 (staging o')) := by
  obtain ⟨own, act⟩ := step
  by_cases h : own = unit
  · subst h
    rw [units_after_self, ho]
    rcases perform_cases α w.stores o act with ⟨rfl, -⟩ | ⟨rfl, -⟩ | ⟨rfl, hc, -⟩ | ⟨rfl, -, hp⟩ |
      ⟨-, o', hp, hs⟩
    -- leaving, rolling back and a successful commit would end the overlay
    · exact absurd ⟨rfl, .inl rfl⟩ hk
    · exact absurd ⟨rfl, .inr (.inl rfl)⟩ hk
    · exact absurd ⟨rfl, .inr (.inr ⟨rfl, commits_eq_true_iff.mpr ⟨o, ho, hc⟩⟩)⟩ hk
    · exact ⟨o, by rw [hp], .inr ⟨rfl, .other (not_touches_of_isWhole rfl)⟩⟩
    · exact ⟨o', by rw [hp], .inr ⟨rfl, hs⟩⟩
  · exact ⟨o, by rw [units_after_of_ne w h, ho], .inl ⟨h, rfl⟩⟩

/-- An overlay stages nothing under a key until its unit saves there. -/
theorem staged_run_of_no_save {w : Shared} {unit : Nat} {steps : List Step} {o : Overlay}
    {id : String} (ho : w.units unit = some o) (hk : w.Keeps unit steps)
    (hn : ∀ a : α, (unit, Collection.save a) ∈ steps → Aggregate.id a ≠ id) :
    ∃ o', (w.run steps).units unit = some o' ∧
      (staging (α := α) o').staged[id]? = (staging (α := α) o).staged[id]? := by
  induction steps generalizing w o with
  | nil => exact ⟨o, ho, rfl⟩
  | cons step rest ih =>
    obtain ⟨o₁, ho₁, hstep⟩ := overlay_after (α := α) ho hk.1
    obtain ⟨o', ho', hs⟩ := ih ho₁ hk.2 fun a ha => hn a (List.mem_cons_of_mem _ ha)
    refine ⟨o', ho', hs.trans ?_⟩
    obtain ⟨-, rfl⟩ | ⟨rfl, hstays⟩ := hstep
    · rfl
    · refine hstays.staged_of_no_save fun a ha => hn a ?_
      rw [← ha]
      exact List.mem_cons_self

/-- An overlay remembers and stages nothing under a key until its unit touches it. -/
theorem staging_run_of_not_touches {w : Shared} {unit : Nat} {steps : List Step} {o : Overlay}
    {id : String} (ho : w.units unit = some o) (hk : w.Keeps unit steps)
    (hn : ∀ act, (unit, act) ∈ steps → ¬ Touches α act id) :
    ∃ o', (w.run steps).units unit = some o' ∧
      (staging (α := α) o').observed[id]? = (staging (α := α) o).observed[id]? ∧
      (staging (α := α) o').staged[id]? = (staging (α := α) o).staged[id]? := by
  induction steps generalizing w o with
  | nil => exact ⟨o, ho, rfl, rfl⟩
  | cons step rest ih =>
    obtain ⟨o₁, ho₁, hstep⟩ := overlay_after (α := α) ho hk.1
    obtain ⟨o', ho', hob, hst⟩ := ih ho₁ hk.2 fun act h => hn act (List.mem_cons_of_mem _ h)
    refine ⟨o', ho', ?_⟩
    obtain ⟨-, rfl⟩ | ⟨rfl, hstays⟩ := hstep
    · exact ⟨hob, hst⟩
    · obtain ⟨h₁, h₂⟩ := hstays.of_not_touches (hn step.2 List.mem_cons_self)
      exact ⟨hob.trans h₁, hst.trans h₂⟩

theorem Untouched.overlay {steps : List Step} {unit : Nat} {id : String}
    (h : Untouched α steps unit id) :
    ∃ o, (start.run steps).units unit = some o ∧ (staging (α := α) o).observed[id]? = none ∧
      (staging (α := α) o).staged[id]? = none := by
  obtain ⟨earlier, own, rfl, hopen, hk, hn⟩ := h
  obtain ⟨o, ho, hob, hst⟩ := staging_run_of_not_touches (α := α) hopen hk hn
  refine ⟨o, by rw [run_append]; exact ho, ?_, ?_⟩
  · rw [hob, staging_empty]
    exact Std.ExtTreeMap.getElem?_empty
  · rw [hst, staging_empty]
    exact Std.ExtTreeMap.getElem?_empty

/-! ## First touches along a run -/

theorem run_concat (w : Shared) (steps : List Step) (step : Step) :
    w.run (steps ++ [step]) = (w.run steps).after step := by
  rw [run_append]
  rfl

theorem Untouched.concat {steps : List Step} {unit : Nat} {id : String} {step : Step}
    (h : Untouched α steps unit id) (hk : ¬ (start.run steps).ends unit step)
    (hn : step.1 = unit → ¬ Touches α step.2 id) : Untouched α (steps ++ [step]) unit id := by
  obtain ⟨earlier, own, rfl, hopen, hkeeps, hno⟩ := h
  rw [run_append] at hk
  refine ⟨earlier, own ++ [step], by simp, hopen, keeps_append.mpr ⟨hkeeps, hk, trivial⟩, ?_⟩
  intro act hact
  rcases List.mem_append.mp hact with hact | hact
  · exact hno act hact
  · obtain rfl := List.mem_singleton.mp hact
    exact hn rfl

theorem FirstTouch.concat {steps before later : List Step} {unit : Nat} {id : String} {touch : Act}
    {step : Step} (h : FirstTouch α steps unit id before touch later)
    (hk : ¬ (start.run steps).ends unit step) :
    FirstTouch α (steps ++ [step]) unit id before touch (later ++ [step]) where
  steps_eq := by rw [h.steps_eq, List.append_assoc, List.cons_append]
  untouched := h.untouched
  touches := h.touches
  keeps := by
    rw [h.steps_eq, run_append] at hk
    rw [← List.cons_append, keeps_append]
    exact ⟨h.keeps, hk, trivial⟩

/-- What the part `t` of an overlay has to do with the steps that led to it. -/
structure TracedOverlay (α : Type) [Aggregate α] [Collection α] (steps : List Step) (unit : Nat)
    (t : StagedTable α) : Prop where
  untouched (id : String) : t.observed[id]? = none → Untouched α steps unit id
  touched {id : String} {v : Nat} : t.observed[id]? = some v →
    ∃ before touch later, FirstTouch α steps unit id before touch later ∧
      (start.run before).version α id = v
  observed {id : String} : t.staged[id]?.isSome → t.observed[id]?.isSome
  own {id : String} {a : α} : t.staged[id]? = some a → Aggregate.id a = id

theorem TracedOverlay.staged_eq_none {steps : List Step} {unit : Nat} {t : StagedTable α}
    {id : String} (h : TracedOverlay α steps unit t) (ho : t.observed[id]? = none) :
    t.staged[id]? = none := by
  cases hs : t.staged[id]? with
  | none => rfl
  | some a =>
    have := h.observed (by rw [hs]; rfl)
    rw [ho] at this
    cases this

/-- A new overlay has touched nothing. -/
theorem TracedOverlay.empty {steps : List Step} {unit : Nat}
    (h : (start.run steps).units unit = some {}) : TracedOverlay α steps unit {} where
  untouched _ _ := ⟨steps, [], by simp, h, trivial, by simp⟩
  touched h := by simp at h
  observed h := by simp at h
  own h := by simp at h

/-- Steps of other units do not concern an overlay. -/
theorem TracedOverlay.concat_other {steps : List Step} {unit : Nat} {t : StagedTable α}
    {step : Step} (h : TracedOverlay α steps unit t) (hne : step.1 ≠ unit) :
    TracedOverlay α (steps ++ [step]) unit t where
  untouched id hid := (h.untouched id hid).concat (fun he => hne he.1) (fun he => absurd he hne)
  touched hid := by
    obtain ⟨before, touch, later, hft, hv⟩ := h.touched hid
    exact ⟨before, touch, later ++ [step], hft.concat fun he => hne he.1, hv⟩
  observed := h.observed
  own := h.own

theorem TracedOverlay.concat_stays {steps : List Step} {unit : Nat} {t t' : StagedTable α}
    {act : Act} (h : TracedOverlay α steps unit t)
    (hk : ¬ (start.run steps).ends unit (unit, act))
    (hs : Stays (committed (start.run steps).stores) t act t') :
    TracedOverlay α (steps ++ [(unit, act)]) unit t' where
  untouched id hid := by
    have hold : t.observed[id]? = none := by
      cases ho : t.observed[id]? with
      | none => rfl
      | some v => rw [hs.observed_of_some ho] at hid; cases hid
    refine (h.untouched id hold).concat hk ?_
    intro _ ht
    rw [hs.observed_of_touches ht hold (h.staged_eq_none hold)] at hid
    cases hid
  touched {id v} hid := by
    cases hold : t.observed[id]? with
    | some v' =>
      rw [hs.observed_of_some hold, Option.some.injEq] at hid
      obtain ⟨before, touch, later, hft, hv⟩ := h.touched hold
      exact ⟨before, touch, later ++ [(unit, act)], hft.concat hk, hv.trans hid⟩
    | none =>
      by_cases ht : Touches α act id
      · -- this step is the first touch, so it has seen the version that is committed now
        rw [hs.observed_of_touches ht hold (h.staged_eq_none hold), Option.some.injEq] at hid
        exact ⟨steps, act, [], ⟨rfl, h.untouched id hold, ht, hk, trivial⟩, hid⟩
      · rw [(hs.of_not_touches ht).1, hold] at hid
        cases hid
  observed := hs.observed_of_staged fun _ => h.observed
  own ha := by
    rcases hs.staged_cases ha with ha | ⟨-, hid⟩
    · exact h.own ha
    · exact hid

/-- Every overlay of a run is traced, and every committed value is stored under its own id. -/
structure Traced (α : Type) [Aggregate α] [Collection α] (steps : List Step) : Prop where
  overlay {unit : Nat} {o : Overlay} : (start.run steps).units unit = some o →
    TracedOverlay α steps unit (staging o)
  own {id : String} {v : Versioned α} :
    (start.run steps).at? α id = some v → Aggregate.id v.value = id

theorem traced_nil : Traced α [] where
  overlay h := by cases h
  own {id v} h := by
    rw [at?, run_nil, committed_empty] at h
    simp at h

/-- What is stored by a commit was staged under its own id. -/
theorem Traced.own_after {steps : List Step} (h : Traced α steps) {step : Step} {id : String}
    {v : Versioned α} (hv : ((start.run steps).after step).at? α id = some v) :
    Aggregate.id v.value = id := by
  rw [at?_after] at hv
  split at hv
  · obtain ⟨a, ha, rfl⟩ := Option.map_eq_some_iff.mp hv
    cases hu : (start.run steps).units step.1 with
    | none => rw [staged, hu] at ha; simp at ha
    | some o =>
      rw [staged_of_some hu] at ha
      exact (h.overlay hu).own ha
  · exact h.own hv

/-- An overlay that is empty behind the last step is new. -/
theorem TracedOverlay.of_eq_empty {steps : List Step} {unit : Nat} {o : Overlay}
    (ho : (start.run steps).units unit = some o) (h : {} = o) :
    TracedOverlay α steps unit (staging o) := by
  subst h
  rw [staging_empty]
  exact .empty ho

/-- An act of its own unit leaves an overlay traced, whether it stays or is replaced. -/
theorem TracedOverlay.concat_own {steps : List Step} {unit : Nat} {act : Act} {o o' : Overlay}
    (h : TracedOverlay α steps unit (staging o)) (ho : (start.run steps).units unit = some o)
    (ho' : (start.run (steps ++ [(unit, act)])).units unit = some o') :
    TracedOverlay α (steps ++ [(unit, act)]) unit (staging o') := by
  have hnew := ho'
  rw [run_concat, units_after_self, ho] at ho'
  rcases perform_cases α (start.run steps).stores o act with ⟨rfl, hp⟩ | ⟨rfl, hp⟩ |
    ⟨rfl, -, hp⟩ | ⟨rfl, hc, hp⟩ | ⟨hw, o₁, hp, hs⟩
  · rw [hp] at ho'
    cases ho'
  · rw [hp, Option.some.injEq] at ho'
    exact .of_eq_empty hnew ho'
  · rw [hp, Option.some.injEq] at ho'
    exact .of_eq_empty hnew ho'
  · -- a commit that fails leaves the overlay as it is
    rw [hp, Option.some.injEq] at ho'
    subst ho'
    refine h.concat_stays ?_ (.other (not_touches_of_isWhole rfl))
    rintro ⟨-, he | he | ⟨-, he⟩⟩
    · cases he
    · cases he
    · obtain ⟨o₂, ho₂, hnone⟩ := commits_eq_true_iff.mp he
      rw [ho, Option.some.injEq] at ho₂
      exact hc (ho₂ ▸ hnone)
  · rw [hp, Option.some.injEq] at ho'
    subst ho'
    refine h.concat_stays ?_ hs
    rintro ⟨-, rfl | rfl | ⟨rfl, -⟩⟩ <;> cases hw

theorem Traced.concat {steps : List Step} (h : Traced α steps) (step : Step) :
    Traced α (steps ++ [step]) where
  own {id v} hv := h.own_after (by rwa [run_concat] at hv)
  overlay {unit o'} ho' := by
    obtain ⟨own, act⟩ := step
    by_cases hne : own = unit
    · subst hne
      cases hu : (start.run steps).units own with
      | none =>
        -- a closed unit has an overlay only behind an enter, and that one is empty
        have hnew := ho'
        rw [run_concat, units_after_self, hu] at ho'
        rcases perform_none (start.run steps).stores act with hp | ⟨-, hp⟩
        · rw [hp] at ho'
          cases ho'
        · rw [hp, Option.some.injEq] at ho'
          exact .of_eq_empty hnew ho'
      | some o => exact (h.overlay hu).concat_own hu ho'
    · rw [run_concat, units_after_of_ne _ hne] at ho'
      exact (h.overlay ho').concat_other hne

theorem traced (α : Type) [Aggregate α] [Collection α] (steps : List Step) : Traced α steps := by
  induction steps using List.reverseRecOn with
  | nil => exact traced_nil
  | append_singleton steps step ih => exact ih.concat step

/-! ## Versions along a run -/

/-- How many of these steps are successful commits by a unit that staged the key. -/
def commitCount (α : Type) [Aggregate α] [Collection α] (w : Shared) (id : String) : List Step → Nat
  | [] => 0
  | step :: rest => (if w.writes α step id then 1 else 0) + (w.after step).commitCount α id rest

theorem version_run (w : Shared) (id : String) (steps : List Step) :
    (w.run steps).version α id = w.version α id + w.commitCount α id steps := by
  induction steps generalizing w with
  | nil => rfl
  | cons step rest ih =>
    rw [run_cons, ih, version_after, commitCount]
    omega

theorem version_le_run (w : Shared) (id : String) (steps : List Step) :
    w.version α id ≤ (w.run steps).version α id := by
  rw [version_run]
  omega

/-- A key whose version is the same at the end has not been committed in between, so neither has its
value changed. -/
theorem unwritten_of_version_eq {w : Shared} {id : String} {steps : List Step}
    (h : (w.run steps).version α id = w.version α id) {between more : List Step} {step : Step}
    (hs : steps = between ++ step :: more) :
    (w.run between).at? α id = w.at? α id ∧ (w.run between).writes α step id = false := by
  subst hs
  induction between generalizing w with
  | nil =>
    refine ⟨rfl, ?_⟩
    -- versions never fall again, so a commit at this step would show at the end
    by_contra hw
    have hle := version_le_run (α := α) (w.after step) id more
    have hup := version_after (α := α) w step id
    rw [Bool.not_eq_false] at hw
    rw [run_nil] at hw
    rw [if_pos hw] at hup
    have h' : ((w.after step).run more).version α id = w.version α id := h
    omega
  | cons first rest ih =>
    have hle := version_le_run (α := α) (w.after first) id (rest ++ step :: more)
    have hup := version_after (α := α) w first id
    have h' : ((w.after first).run (rest ++ step :: more)).version α id = w.version α id := h
    have hno : ¬ w.writes α first id = true := by
      intro hw
      rw [if_pos hw] at hup
      omega
    rw [if_neg hno] at hup
    obtain ⟨hat, hwr⟩ := ih (w := w.after first) (h'.trans hup.symm)
    rw [at?_after, if_neg hno] at hat
    exact ⟨hat, hwr⟩

/-! ## Commits -/

/-- The run from `before` on, which begins with the first touch of the key by an overlay, does not
disturb what the overlay has to know for its commit. -/
structure Undisturbed (α : Type) [Aggregate α] [Collection α] (steps : List Step) (unit : Nat)
    (id : String) (before : List Step) (touch : Act) (later : List Step) : Prop where
  /-- The version is still the one of the first touch. -/
  version_eq : (start.run steps).version α id = (start.run before).version α id
  /-- The commit raises it by one. -/
  version_commit :
    (start.run (steps ++ [(unit, .commit)])).version α id = (start.run before).version α id + 1
  /-- No other commit of the key has succeeded since. -/
  unwritten {between more : List Step} {step : Step} :
    (unit, touch) :: later = between ++ step :: more →
      (start.run (before ++ between)).writes α step id = false
  /-- What the unit found under the key, before it saved there, is the value of that version. -/
  found_eq {between more : List Step} :
    (unit, touch) :: later = between ++ (unit, find α id) :: more →
    (∀ a : α, (unit, save a) ∈ between → Aggregate.id a ≠ id) →
      found (start.run (before ++ between)).stores ((start.run (before ++ between)).units unit) id =
        .ok (((start.run before).at? α id).map Versioned.value)

/-- How the keys of a collection fare in a run. -/
structure NoLostUpdate (α : Type) [Aggregate α] [Collection α] (steps : List Step) : Prop where
  /-- A commit that succeeds for a key has the key as its overlay first saw it. -/
  commit {unit : Nat} {id : String} : (start.run steps).writes α (unit, .commit) id = true →
    ∃ before touch later, FirstTouch α steps unit id before touch later ∧
      Undisturbed α steps unit id before touch later
  /-- The version of a key is the number of successful commits that staged it. -/
  version_eq (id : String) : (start.run steps).version α id = start.commitCount α id steps
  version_le (id : String) (more : List Step) :
    (start.run steps).version α id ≤ (start.run (steps ++ more)).version α id
  own {id : String} {v : Versioned α} :
    (start.run steps).at? α id = some v → Aggregate.id v.value = id

theorem version_start (id : String) : start.version α id = 0 := by
  simp [version, versionOf, committed_empty]

/-- A successful commit finds the version that its overlay saw first. -/
theorem Traced.version_of_writes {steps : List Step} (h : Traced α steps) {unit : Nat} {id : String}
    (hw : (start.run steps).writes α (unit, .commit) id = true) :
    ∃ before touch later, FirstTouch α steps unit id before touch later ∧
      (start.run steps).version α id = (start.run before).version α id := by
  simp only [writes, Bool.and_eq_true, Act.isCommit, true_and] at hw
  obtain ⟨o, ho, hc⟩ := commits_eq_true_iff.mp hw.1
  have hst := hw.2
  rw [staged_of_some ho] at hst
  obtain ⟨v, hv⟩ := Option.isSome_iff_exists.mp ((h.overlay ho).observed hst)
  obtain ⟨before, touch, later, hft, hbefore⟩ := (h.overlay ho).touched hv
  refine ⟨before, touch, later, hft, ?_⟩
  have hcur := (StagedTable.conflict?_eq_none_iff _ _).mp (conflict?_eq_none (α := α) hc) id
    (Std.ExtTreeMap.mem_iff_isSome_getElem?.mpr hst)
  rw [Std.ExtTreeMap.getD_eq_getD_getElem?, hv, Option.getD_some] at hcur
  rw [hbefore, hcur]
  rfl

theorem noLostUpdate (α : Type) [Aggregate α] [Collection α] (steps : List Step) :
    NoLostUpdate α steps where
  version_eq id := by rw [version_run, version_start, Nat.zero_add]
  version_le id more := by
    rw [run_append]
    exact version_le_run _ _ _
  own := (traced α steps).own
  commit {unit id} hw := by
    obtain ⟨before, touch, later, hft, hv⟩ := (traced α steps).version_of_writes hw
    have hseg : ((start.run before).run ((unit, touch) :: later)).version α id =
        (start.run before).version α id := by
      rw [← run_append, ← hft.steps_eq]
      exact hv
    refine ⟨before, touch, later, hft, hv, ?_, ?_, ?_⟩
    · rw [run_concat, version_after, if_pos hw, hv]
    · intro between more step hs
      rw [run_append]
      exact (unwritten_of_version_eq hseg hs).2
    · -- nothing is staged under the key yet, so the unit finds what is committed
      intro between more hs hn
      obtain ⟨o, ho, -, hst⟩ := hft.untouched.overlay
      have hk := hft.keeps
      rw [hs, keeps_append] at hk
      obtain ⟨o', ho', hst'⟩ := staged_run_of_no_save ho hk.1 hn
      rw [run_append, ho', Collection.found_eq, StagedTable.find, hst', hst]
      exact congrArg (fun v => Except.ok (v.map Versioned.value))
        (unwritten_of_version_eq hseg hs).1

end Shared

/-- However units of work over the same stores take turns: a commit finds every key that it stores
at the version at which its overlay first saw it, so it overwrites nothing that the overlay has not
seen. -/
theorem no_lost_update (steps : List Shared.Step) :
    Shared.NoLostUpdate Order steps ∧ Shared.NoLostUpdate MenuItem steps :=
  ⟨Shared.noLostUpdate Order steps, Shared.noLostUpdate MenuItem steps⟩

-- Two units have seen a key that is absent and save to it: one of them commits, the other cannot.
example :
    let dish : MenuItem := ⟨"m", "Dish", ⟨.zero, by decide⟩, true, []⟩
    let w := Shared.start.run
      [(0, .enter), (1, .enter), (0, .findMenuItem "m"),
        (1, .saveMenuItem dish), (0, .saveMenuItem dish)]
    w.commits 0 = true ∧ w.commits 1 = true ∧ (w.after (0, .commit)).commits 1 = false := by
  decide +kernel

end TableService
