import Mathlib.Data.List.Induction
import Mathlib.Data.List.Nodup
import TableService.Proofs.Outbox.InPlace
import TableService.Proofs.Store.Sharing

/-!
# Ids of entries

- `Shared.Use`: an act of a unit, or an entry that is put into the log past all units.
- `UnitOfWork.outbox_perform`: all that an act can do to the entries that are committed and staged.
- `Shared.Filed`: the invariant. The entries that a unit has staged have ids of their own, and none
  of them was in the log when it was staged.
- `Shared.EntryIds`: whoever asks for an id that is taken is refused. A commit asks no more, so ids
  in the log repeat exactly if an entry was overtaken on its way there.
-/

namespace TableService

open UnitOfWork

/-! ## Entries that are asked for -/

/-- What a unit has staged for the log. -/
def UnitOfWork.entries : UnitOfWork → List Entry
  | none => []
  | some o => o.outbox

/-- No entry among these has the id. -/
def Log.IsFree (log : Log) (id : String) : Prop :=
  ∀ e ∈ log, e.id ≠ id

theorem Overlay.saveEntry_eq (o : Overlay) (s : Stores) (entry : Entry) :
    Log.IsFree (s.outbox ++ o.outbox) entry.id ∧
        o.saveEntry s entry = .ok { o with outbox := o.outbox ++ [entry] } ∨
      ¬ Log.IsFree (s.outbox ++ o.outbox) entry.id ∧
        o.saveEntry s entry = .error (.duplicateEntry entry.id) := by
  rw [Log.IsFree, ← findEntry_eq_none_iff, saveEntry]
  cases o.findEntry s entry.id with
  | none => exact .inl ⟨rfl, rfl⟩
  | some _ => exact .inr ⟨Option.some_ne_none _, rfl⟩

/-- An entry is put at the end of the log, or its id is taken and the log stays as it is. -/
theorem Log.run_save_cases (log : Log) (entry : Entry) :
    log.IsFree entry.id ∧ (LogM.save entry).run.run log = (.ok (), log ++ [entry]) ∨
      ¬ log.IsFree entry.id ∧
        (LogM.save entry).run.run log = (.error (.duplicateEntry entry.id), log) := by
  have hany : log.any (·.id == entry.id) = true ↔ ¬ log.IsFree entry.id := by
    simp [IsFree]
  rw [LogM.run_save]
  by_cases h : log.IsFree entry.id
  · rw [if_neg fun htaken => hany.mp htaken h]
    exact .inl ⟨h, rfl⟩
  · rw [if_pos (hany.mpr h)]
    exact .inr ⟨h, rfl⟩

/-- Lists of entries with ids of their own that have no id in common. -/
theorem Log.nodup_append_iff {log more : Log} : ((log ++ more).map Entry.id).Nodup ↔
    (log.map Entry.id).Nodup ∧ (more.map Entry.id).Nodup ∧ ∀ e ∈ more, log.IsFree e.id := by
  rw [List.map_append, List.nodup_append]
  simp only [List.forall_mem_map, IsFree]
  constructor
  · exact fun ⟨hlog, hmore, h⟩ => ⟨hlog, hmore, fun e he old hold => h old hold e he⟩
  · exact fun ⟨hlog, hmore, h⟩ => ⟨hlog, hmore, fun old hold e he => h e he old hold⟩

/-- All that an act can do to the entries that are committed and staged: it stages one whose id is
free, moves all of them to the end of the log, drops them, or leaves them alone. -/
theorem UnitOfWork.outbox_perform (s : Stores) (u : UnitOfWork) (act : Act) :
    (∃ entry, act = .saveEntry entry ∧ Log.IsFree (s.outbox ++ u.entries) entry.id ∧
      (perform s u act).2.1.outbox = s.outbox ∧
      (perform s u act).2.2.entries = u.entries ++ [entry]) ∨
    (act = .commit ∧ (∃ o, u = some o ∧ o.conflict? s = none) ∧
      (perform s u act).2.1.outbox = s.outbox ++ u.entries ∧
      (perform s u act).2.2.entries = []) ∨
    (perform s u act).2.1.outbox = s.outbox ∧
      ((perform s u act).2.2.entries = u.entries ∨ (perform s u act).2.2.entries = []) := by
  cases u with
  | none =>
    rcases perform_none s act with h | ⟨-, h⟩
    · rw [h]
      exact .inr (.inr ⟨rfl, .inl rfl⟩)
    · rw [h]
      exact .inr (.inr ⟨rfl, .inl rfl⟩)
  | some o =>
    cases act with
    | exit => exact .inr (.inr ⟨rfl, .inr rfl⟩)
    | rollback => exact .inr (.inr ⟨rfl, .inr rfl⟩)
    | commit =>
      cases hc : o.conflict? s with
      | none =>
        have h : (perform s (some o) .commit).2 = (o.merge s, some {}) := by simp only [perform, hc]
        rw [h]
        exact .inr (.inl ⟨rfl, ⟨o, rfl, hc⟩, rfl, rfl⟩)
      | some e =>
        have h : (perform s (some o) .commit).2 = (s, some o) := by simp only [perform, hc]
        rw [h]
        exact .inr (.inr ⟨rfl, .inl rfl⟩)
    | saveEntry entry =>
      rcases o.saveEntry_eq s entry with ⟨hfree, hsave⟩ | ⟨-, hsave⟩
      · have h : (perform s (some o) (.saveEntry entry)).2 =
            (s, some { o with outbox := o.outbox ++ [entry] }) := by
          simp only [perform, within, hsave]
        rw [h]
        exact .inl ⟨entry, rfl, hfree, rfl, rfl⟩
      · have h : (perform s (some o) (.saveEntry entry)).2 = (s, some o) := by
          simp only [perform, within, hsave]
        rw [h]
        exact .inr (.inr ⟨rfl, .inl rfl⟩)
    | _ => exact .inr (.inr ⟨rfl, .inl rfl⟩)

/-! ## Runs -/

namespace Shared

/-- An act of a unit, or an entry that is put into the log past all units. -/
inductive Use where
  | act (unit : Nat) (act : Act)
  | append (entry : Entry)

/-- An entry is put into the log in place, whatever comes of it. -/
def append (w : Shared) (entry : Entry) : Shared :=
  { w with stores :=
    { w.stores with outbox := ((LogM.save entry).run.run w.stores.outbox).2 } }

/-- What a use does. -/
def use (w : Shared) : Use → Shared
  | .act unit act => w.after (unit, act)
  | .append entry => w.append entry

/-- What the uses do, one after the other. -/
def runUses (w : Shared) (uses : List Use) : Shared :=
  uses.foldl use w

/-- The committed entries. -/
def log (w : Shared) : Log := w.stores.outbox

/-- The entries that a unit has staged. -/
def entries (w : Shared) (unit : Nat) : List Entry := (w.units unit).entries

theorem runUses_concat (w : Shared) (uses : List Use) (last : Use) :
    w.runUses (uses ++ [last]) = (w.runUses uses).use last := List.foldl_concat ..

/-- All that a use can do to the log, and to the entries that a unit has staged. -/
theorem outbox_use (w : Shared) (next : Use) (unit : Nat) :
    (∃ entry, next = .act unit (.saveEntry entry) ∧
      Log.IsFree (w.log ++ w.entries unit) entry.id ∧
      (w.use next).entries unit = w.entries unit ++ [entry]) ∨
    (w.use next).entries unit = w.entries unit ∨ (w.use next).entries unit = [] := by
  cases next with
  | append entry => exact .inr (.inl rfl)
  | act other act =>
    by_cases h : other = unit
    · subst h
      have hself : (w.use (.act other act)).entries other =
          (perform w.stores (w.units other) act).2.2.entries :=
        congrArg UnitOfWork.entries (units_after_self w other act)
      rw [hself]
      rcases outbox_perform w.stores (w.units other) act with
        ⟨entry, rfl, hfree, -, hnew⟩ | ⟨-, -, -, hnew⟩ | ⟨-, hnew⟩
      · exact .inl ⟨entry, rfl, hfree, hnew⟩
      · exact .inr (.inr hnew)
      · exact .inr hnew
    · exact .inr (.inl (congrArg UnitOfWork.entries (units_after_of_ne w h)))

theorem log_use (w : Shared) (next : Use) :
    (∃ unit, next = .act unit .commit ∧ w.commits unit = true ∧
      (w.use next).log = w.log ++ w.entries unit) ∨
    (∃ entry, w.log.IsFree entry.id ∧ (w.use next).log = w.log ++ [entry]) ∨
    (w.use next).log = w.log := by
  cases next with
  | append entry =>
    simp only [use, append]
    rcases w.stores.outbox.run_save_cases entry with ⟨hfree, h⟩ | ⟨-, h⟩
    · rw [h]
      exact .inr (.inl ⟨entry, hfree, rfl⟩)
    · rw [h]
      exact .inr (.inr rfl)
  | act unit act =>
    rcases outbox_perform w.stores (w.units unit) act with
      ⟨entry, rfl, -, hlog, -⟩ | ⟨rfl, ⟨o, ho, hc⟩, hlog, -⟩ | ⟨hlog, -⟩
    · exact .inr (.inr hlog)
    · exact .inl ⟨unit, rfl, commits_eq_true_iff.mpr ⟨o, ho, hc⟩, hlog⟩
    · exact .inr (.inr hlog)

theorem log_prefix_use (w : Shared) (next : Use) : w.log <+: (w.use next).log := by
  rcases w.log_use next with ⟨unit, -, -, h⟩ | ⟨entry, -, h⟩ | h
  · exact h ▸ List.prefix_append ..
  · exact h ▸ List.prefix_append ..
  · exact h ▸ List.prefix_rfl

/-- The log only grows. -/
theorem log_prefix_run (w : Shared) (uses : List Use) : w.log <+: (w.runUses uses).log := by
  induction uses generalizing w with
  | nil => exact List.prefix_rfl
  | cons next rest ih => exact (w.log_prefix_use next).trans (ih (w.use next))

/-! ## Staged entries -/

/-- The unit staged the entry in the course of these uses, and its id was not in the log then. -/
def StagedFree (uses : List Use) (unit : Nat) (entry : Entry) : Prop :=
  ∃ before between, uses = before ++ .act unit (.saveEntry entry) :: between ∧
    (runUses {} before).log.IsFree entry.id

/-- What holds of the entries that a unit has staged. -/
structure Filed (uses : List Use) (unit : Nat) : Prop where
  nodup : (((runUses {} uses).entries unit).map Entry.id).Nodup
  stagedFree {entry : Entry} : entry ∈ (runUses {} uses).entries unit →
    StagedFree uses unit entry

theorem StagedFree.concat {uses : List Use} {unit : Nat} {entry : Entry}
    (h : StagedFree uses unit entry) (next : Use) : StagedFree (uses ++ [next]) unit entry := by
  obtain ⟨before, between, rfl, hfree⟩ := h
  exact ⟨before, between ++ [next], by rw [List.append_assoc, List.cons_append], hfree⟩

theorem Filed.concat {uses : List Use} {unit : Nat} (h : Filed uses unit) (next : Use) :
    Filed (uses ++ [next]) unit := by
  rcases outbox_use (runUses {} uses) next unit with ⟨entry, rfl, hfree, hnew⟩ | hsame | hnone
  · rw [Log.IsFree, List.forall_mem_append] at hfree
    constructor
    · rw [runUses_concat, hnew]
      refine Log.nodup_append_iff.mpr ⟨h.nodup, List.nodup_singleton _, ?_⟩
      intro e he
      rw [List.mem_singleton.mp he]
      exact hfree.2
    · intro e he
      rw [runUses_concat, hnew] at he
      rcases List.mem_append.mp he with he | he
      · exact (h.stagedFree he).concat _
      · -- the entry that was staged last
        rw [List.mem_singleton.mp he]
        exact ⟨uses, [], rfl, hfree.1⟩
  · constructor
    · rw [runUses_concat, hsame]
      exact h.nodup
    · intro e he
      rw [runUses_concat, hsame] at he
      exact (h.stagedFree he).concat next
  · constructor
    · rw [runUses_concat, hnone]
      exact List.nodup_nil
    · intro e he
      rw [runUses_concat, hnone] at he
      cases he

theorem filed (uses : List Use) (unit : Nat) : Filed uses unit := by
  induction uses using List.reverseRecOn with
  | nil => exact ⟨List.nodup_nil, fun h => absurd h List.not_mem_nil⟩
  | append_singleton uses next ih => exact ih.concat next

/-! ## Commits -/

/-- A commit of the unit would put an entry into the log whose id was free when it was staged and
has come into the log since. -/
structure Overtaken (uses : List Use) (unit : Nat) (entry : Entry) : Prop where
  commits : (runUses {} uses).commits unit = true
  staged : entry ∈ (runUses {} uses).entries unit
  stagedFree : StagedFree uses unit entry
  taken : ¬ (runUses {} uses).log.IsFree entry.id

/-- No commit in the course of these uses has put an entry into the log that was overtaken. -/
def NoneOvertaken (uses : List Use) : Prop :=
  ∀ {earlier more : List Use} {unit : Nat} {entry : Entry},
    uses = earlier ++ .act unit .commit :: more → ¬ Overtaken earlier unit entry

theorem NoneOvertaken.of_append {uses more : List Use} (h : NoneOvertaken (uses ++ more)) :
    NoneOvertaken uses := by
  rintro earlier later unit entry rfl
  exact h (by rw [List.append_assoc, List.cons_append])

/-- The commit of an entry that was overtaken repeats an id, for good. -/
theorem Overtaken.not_nodup {earlier more : List Use} {unit : Nat} {entry : Entry}
    (h : Overtaken earlier unit entry) :
    ¬ ((runUses {} (earlier ++ .act unit .commit :: more)).log.map Entry.id).Nodup := by
  intro hnodup
  have hlog : (runUses {} (earlier ++ [.act unit .commit])).log =
      (runUses {} earlier).log ++ (runUses {} earlier).entries unit := by
    obtain ⟨o, ho, hc⟩ := commits_eq_true_iff.mp h.commits
    rw [runUses_concat]
    simp only [log, entries, use, stores_after, ho, perform, hc]
    rfl
  have hgrown : (runUses {} (earlier ++ [.act unit .commit])).log <+:
      (runUses {} (earlier ++ .act unit .commit :: more)).log := by
    have hmore := log_prefix_run (runUses {} (earlier ++ [.act unit .commit])) more
    rw [runUses, runUses, ← List.foldl_append, List.append_assoc] at hmore
    exact hmore
  rw [hlog] at hgrown
  have hboth := hnodup.sublist (hgrown.sublist.map Entry.id)
  exact h.taken ((Log.nodup_append_iff.mp hboth).2.2 entry h.staged)

theorem nodup_of_noneOvertaken {uses : List Use} (h : NoneOvertaken uses) :
    ((runUses {} uses).log.map Entry.id).Nodup := by
  induction uses using List.reverseRecOn with
  | nil => exact List.nodup_nil
  | append_singleton uses next ih =>
    have hnodup := ih h.of_append
    rw [runUses_concat]
    rcases log_use (runUses {} uses) next with ⟨unit, rfl, hc, hlog⟩ | ⟨entry, hfree, hlog⟩ | hlog
    · -- an entry that meets its own id in the log was overtaken
      rw [hlog, Log.nodup_append_iff]
      refine ⟨hnodup, (filed uses unit).nodup, ?_⟩
      intro entry hentry
      by_contra htaken
      exact h rfl ⟨hc, hentry, (filed uses unit).stagedFree hentry, htaken⟩
    · rw [hlog, Log.nodup_append_iff]
      refine ⟨hnodup, List.nodup_singleton _, ?_⟩
      intro e he
      rw [List.mem_singleton.mp he]
      exact hfree
    · rw [hlog]
      exact hnodup

/-! ## What holds of ids -/

/-- How ids of entries fare in a run. -/
structure EntryIds (uses : List Use) : Prop where
  /-- An id that is in the log, or staged by the unit itself, cannot be staged; nothing changes. -/
  stage_taken {unit : Nat} {entry : Entry} :
    ((runUses {} uses).units unit).isSome →
    ¬ Log.IsFree ((runUses {} uses).log ++ (runUses {} uses).entries unit) entry.id →
      (runUses {} uses).reply (unit, .saveEntry entry) = .ok (.error (.duplicateEntry entry.id)) ∧
        runUses {} (uses ++ [.act unit (.saveEntry entry)]) = runUses {} uses
  stage_free {unit : Nat} {entry : Entry} :
    ((runUses {} uses).units unit).isSome →
    Log.IsFree ((runUses {} uses).log ++ (runUses {} uses).entries unit) entry.id →
      (runUses {} uses).reply (unit, .saveEntry entry) = .ok (.ok ()) ∧
        (runUses {} (uses ++ [.act unit (.saveEntry entry)])).entries unit =
          (runUses {} uses).entries unit ++ [entry]
  /-- An id that is in the log cannot be put there past the units; nothing changes. -/
  append_taken {entry : Entry} : ¬ (runUses {} uses).log.IsFree entry.id →
    (runUses {} uses).log.append entry = .error (.duplicateEntry entry.id) ∧
      runUses {} (uses ++ [.append entry]) = runUses {} uses
  append_free {entry : Entry} : (runUses {} uses).log.IsFree entry.id →
    (runUses {} (uses ++ [.append entry])).log = (runUses {} uses).log ++ [entry]
  nodup_staged (unit : Nat) : (((runUses {} uses).entries unit).map Entry.id).Nodup
  /-- Ids in the log differ exactly as long as no commit puts an entry there that was overtaken. -/
  nodup_iff : ((runUses {} uses).log.map Entry.id).Nodup ↔ NoneOvertaken uses

section

variable {w : Shared} {unit : Nat} {entry : Entry}

/-- To stage an entry whose id is taken leaves everything as it is. -/
theorem stage_taken (hopen : (w.units unit).isSome)
    (htaken : ¬ Log.IsFree (w.log ++ w.entries unit) entry.id) :
    w.reply (unit, .saveEntry entry) = .ok (.error (.duplicateEntry entry.id)) ∧
      w.after (unit, .saveEntry entry) = w := by
  obtain ⟨o, ho⟩ := Option.isSome_iff_exists.mp hopen
  have hsave : o.saveEntry w.stores entry = .error (.duplicateEntry entry.id) := by
    rw [entries, ho] at htaken
    rcases o.saveEntry_eq w.stores entry with ⟨hfree, -⟩ | ⟨-, h⟩
    · exact absurd hfree htaken
    · exact h
  have hperform : perform w.stores (w.units unit) (.saveEntry entry) =
      (.ok (.error (.duplicateEntry entry.id)), w.stores, w.units unit) := by
    simp only [ho, perform, within, hsave]
  constructor
  · rw [reply, hperform]
  · simp only [after, hperform, Function.update_eq_self]

theorem stage_free (hopen : (w.units unit).isSome)
    (hfree : Log.IsFree (w.log ++ w.entries unit) entry.id) :
    w.reply (unit, .saveEntry entry) = .ok (.ok ()) ∧
      (w.after (unit, .saveEntry entry)).entries unit = w.entries unit ++ [entry] := by
  obtain ⟨o, ho⟩ := Option.isSome_iff_exists.mp hopen
  have hsave : o.saveEntry w.stores entry = .ok { o with outbox := o.outbox ++ [entry] } := by
    rw [entries, ho] at hfree
    rcases o.saveEntry_eq w.stores entry with ⟨-, h⟩ | ⟨htaken, -⟩
    · exact h
    · exact absurd hfree htaken
  have hperform : perform w.stores (w.units unit) (.saveEntry entry) =
      (.ok (.ok ()), w.stores, some { o with outbox := o.outbox ++ [entry] }) := by
    simp only [ho, perform, within, hsave]
  constructor
  · rw [reply, hperform]
  · rw [entries, units_after_self, hperform, entries, ho]
    rfl

theorem append_taken (htaken : ¬ w.log.IsFree entry.id) :
    w.log.append entry = .error (.duplicateEntry entry.id) ∧ w.append entry = w := by
  rcases w.log.run_save_cases entry with ⟨hfree, -⟩ | ⟨-, h⟩
  · exact absurd hfree htaken
  · constructor
    · rw [Log.append, Log.change, h]
      rfl
    · rw [append, show (LogM.save entry).run.run w.stores.outbox = _ from h]
      rfl

theorem append_free (hfree : w.log.IsFree entry.id) : (w.append entry).log = w.log ++ [entry] := by
  rcases w.log.run_save_cases entry with ⟨-, h⟩ | ⟨htaken, -⟩
  · rw [append, show (LogM.save entry).run.run w.stores.outbox = _ from h]
    rfl
  · exact absurd hfree htaken

end

end Shared

/-- However units of work and others take turns at one log: an id that is taken is refused to
whoever asks for it. Only a commit does not ask again, and that is the one way for an id to repeat.
-/
theorem entry_ids (uses : List Shared.Use) : Shared.EntryIds uses where
  stage_taken hopen htaken := by
    rw [Shared.runUses_concat]
    exact Shared.stage_taken hopen htaken
  stage_free hopen hfree := by
    rw [Shared.runUses_concat]
    exact Shared.stage_free hopen hfree
  append_taken htaken := by
    rw [Shared.runUses_concat]
    exact Shared.append_taken htaken
  append_free hfree := by
    rw [Shared.runUses_concat]
    exact Shared.append_free hfree
  nodup_staged unit := (Shared.filed uses unit).nodup
  nodup_iff := by
    constructor
    · rintro hnodup earlier more unit entry rfl hovertaken
      exact hovertaken.not_nodup hnodup
    · exact Shared.nodup_of_noneOvertaken

-- Two units stage the same entry before either commits, and both of them commit it.
example (entry : Entry) : (Shared.runUses {} [.act 0 .enter, .act 1 .enter,
    .act 0 (.saveEntry entry), .act 1 (.saveEntry entry), .act 0 .commit, .act 1 .commit]).log =
    [entry, entry] := by rfl

end TableService
