import TableService.Proofs.Outbox.Soundness
import TableService.Proofs.ReadModel.Shown
import TableService.Proofs.Service.Attempt

/-!
# What has been delivered

- `Log.Relays`: the invariant of a pass. What waits is open, and what has been delivered is
  processed.
- `Delivers`: the read models show what the delivered entries tell, in the order of their delivery.
- `Delivers.attempt`: an attempt keeps it.
-/

namespace TableService

/-! ## Waiting and delivered entries -/

/-- What waits is in the log as it was fetched. What has been delivered is what is processed. -/
structure Log.Relays (log waiting delivered : List Entry) : Prop where
  waiting_nodup : (waiting.map Entry.id).Nodup
  waits : ∀ e ∈ waiting, e ∈ log ∧ e.status.isTerminal = false
  delivered_nodup : (delivered.map Entry.id).Nodup
  arrived : ∀ d ∈ delivered, ∃ e ∈ log, d.Same e ∧ e.status = .processed
  processed : ∀ e ∈ log, e.status = .processed → ∃ d ∈ delivered, d.Same e

namespace Log.Relays

variable {log waiting delivered entries : List Entry}

theorem empty : Log.Relays [] [] [] where
  waiting_nodup := List.nodup_nil
  waits _ he := absurd he List.not_mem_nil
  delivered_nodup := List.nodup_nil
  arrived _ hd := absurd hd List.not_mem_nil
  processed _ he := absurd he List.not_mem_nil

/-- New entries are not processed yet. -/
theorem append (h : Log.Relays log waiting delivered) (hnew : ∀ e ∈ entries, e.status = .pending) :
    Log.Relays (log ++ entries) waiting delivered where
  waiting_nodup := h.waiting_nodup
  waits e he := ⟨List.mem_append_left _ (h.waits e he).1, (h.waits e he).2⟩
  delivered_nodup := h.delivered_nodup
  arrived d hd := by
    obtain ⟨e, he, hsame, hstatus⟩ := h.arrived d hd
    exact ⟨e, List.mem_append_left _ he, hsame, hstatus⟩
  processed e he hstatus := by
    rcases List.mem_append.mp he with he | he
    · exact h.processed e he hstatus
    · rw [hnew e he] at hstatus
      cases hstatus

/-- A pass fetches some of the entries that are due. -/
theorem fetch {now : Instant} (h : Log.Relays log [] delivered) (hn : (log.map Entry.id).Nodup)
    (hfetched : waiting.Sublist (log.filter (·.isDue now))) : Log.Relays log waiting delivered where
  waiting_nodup := hn.sublist ((hfetched.trans List.filter_sublist).map _)
  waits e he := by
    obtain ⟨hmem, hdue⟩ := List.mem_filter.mp (hfetched.subset he)
    exact ⟨hmem, Entry.isOpen_of_isDue hdue⟩
  delivered_nodup := h.delivered_nodup
  arrived := h.arrived
  processed := h.processed

/-- What has been delivered is not attempted again. -/
theorem id_ne_of_mem {e d : Entry} (h : Log.Relays log waiting delivered)
    (hn : (log.map Entry.id).Nodup) (he : e ∈ waiting) (hd : d ∈ delivered) : d.id ≠ e.id := by
  intro hid
  obtain ⟨hmem, hopen⟩ := h.waits e he
  obtain ⟨x, hx, hsame, hstatus⟩ := h.arrived d hd
  obtain rfl : x = e := Log.eq_of_id_eq hn hx hmem (hsame.id.trans hid)
  rw [hstatus] at hopen
  cases hopen

/-- What waits behind an entry is another entry. -/
theorem id_ne_of_waiting {entry e : Entry} {rest : List Entry}
    (h : Log.Relays log (entry :: rest) delivered) (he : e ∈ rest) : e.id ≠ entry.id := by
  intro hid
  refine (List.nodup_cons.mp h.waiting_nodup).1 ?_
  rw [← hid]
  exact List.mem_map_of_mem he

section

variable {entry entry' : Entry} {rest : List Entry} {done : Bool}

theorem delivered_nodup_attempt (h : Log.Relays log (entry :: rest) delivered)
    (hn : (log.map Entry.id).Nodup) :
    ((delivered ++ if done then [entry] else []).map Entry.id).Nodup := by
  rw [List.map_append, List.nodup_append]
  refine ⟨h.delivered_nodup, ?_, ?_⟩
  · cases done with
    | true => exact List.nodup_singleton _
    | false => exact List.nodup_nil
  · intro _ ha _ hb heq
    obtain ⟨d, hd, rfl⟩ := List.mem_map.mp ha
    obtain ⟨e, he, rfl⟩ := List.mem_map.mp hb
    cases done with
    | true =>
      rw [List.mem_singleton.mp he] at heq
      exact h.id_ne_of_mem hn List.mem_cons_self hd heq
    | false => cases he

/-- What has been delivered is marked processed, and it keeps its mark. -/
theorem arrived_attempt (h : Log.Relays log (entry :: rest) delivered)
    (hn : (log.map Entry.id).Nodup) (hattempted : entry.Attempted done entry') :
    ∀ d ∈ delivered ++ (if done then [entry] else []),
      ∃ e ∈ log.map (Log.put entry'), d.Same e ∧ e.status = .processed := by
  intro d hd
  rcases List.mem_append.mp hd with hd | hd
  · obtain ⟨e, he, hsame, hstatus⟩ := h.arrived d hd
    have hne : e.id ≠ entry'.id := by
      rw [hattempted.same.id, hsame.id]
      exact h.id_ne_of_mem hn List.mem_cons_self hd
    exact ⟨e, List.mem_map.mpr ⟨e, he, Log.put_of_ne hne⟩, hsame, hstatus⟩
  · cases done with
    | true =>
      rw [List.mem_singleton.mp hd]
      have hentry : entry ∈ log := (h.waits entry List.mem_cons_self).1
      have hstatus : entry'.status = .processed := (hattempted.processed rfl).1
      refine ⟨entry', List.mem_map.mpr ⟨entry, hentry, ?_⟩, hattempted.same, hstatus⟩
      exact Log.put_of_eq hattempted.same.id.symm
    | false => cases hd

/-- What is marked processed has been delivered. -/
theorem processed_attempt (h : Log.Relays log (entry :: rest) delivered)
    (hattempted : entry.Attempted done entry') :
    ∀ e ∈ log.map (Log.put entry'), e.status = .processed →
      ∃ d ∈ delivered ++ (if done then [entry] else []), d.Same e := by
  intro x hx hstatus
  obtain ⟨y, hy, rfl⟩ := List.mem_map.mp hx
  by_cases hid : y.id = entry'.id
  · -- the entry of this attempt is processed only if the attempt has succeeded
    rw [Log.put_of_eq hid] at hstatus ⊢
    cases done with
    | true => exact ⟨entry, List.mem_append_right _ List.mem_cons_self, hattempted.same⟩
    | false =>
      rcases hattempted.failed rfl with hfailed | hdead
      · rw [hfailed] at hstatus
        cases hstatus
      · rw [hdead] at hstatus
        cases hstatus
  · rw [Log.put_of_ne hid] at hstatus ⊢
    obtain ⟨d, hd, hsame⟩ := h.processed y hy hstatus
    exact ⟨d, List.mem_append_left _ hd, hsame⟩

/-- An entry that has been attempted is delivered if it is processed. -/
theorem attempt (h : Log.Relays log (entry :: rest) delivered) (hn : (log.map Entry.id).Nodup)
    (hattempted : entry.Attempted done entry') :
    Log.Relays (log.map (Log.put entry')) rest (delivered ++ if done then [entry] else []) where
  waiting_nodup := (List.nodup_cons.mp h.waiting_nodup).2
  waits e he := by
    -- the other entries that wait have other ids, so the log still has them as they were
    obtain ⟨hmem, hopen⟩ := h.waits e (List.mem_cons_of_mem _ he)
    have hne : e.id ≠ entry'.id := by
      rw [hattempted.same.id]
      exact h.id_ne_of_waiting he
    exact ⟨List.mem_map.mpr ⟨e, hmem, Log.put_of_ne hne⟩, hopen⟩
  delivered_nodup := h.delivered_nodup_attempt hn
  arrived := h.arrived_attempt hn hattempted
  processed := h.processed_attempt hattempted

end

/-- What has been delivered carries the events that the log has under the same ids. -/
theorem forall₂_hasAt {α : Type} [Aggregate α] [Story α] {id : String}
    {events : List (Story.Event α)} (h : Log.Relays log waiting delivered)
    (hcarries : List.Forall₂ (Entry.Carries α) (Log.of α delivered id) events) :
    List.Forall₂ (Log.HasAt α log) ((Log.of α delivered id).map Entry.id) events := by
  refine Log.forall₂_hasAt ?_ hcarries
  intro d hd
  obtain ⟨e, he, hsame, -⟩ := h.arrived d (Log.mem_of.mp hd).1
  exact ⟨e, he, hsame⟩

end Log.Relays

/-! ## What the read models show -/

/-- The read models show what the delivered entries tell. -/
def Delivers (α : Type) [Aggregate α] [Story α] [Shown α] (delivered : List Entry)
    (m : ReadModels) : Prop :=
  ∀ id, ∃ events, List.Forall₂ (Entry.Carries α) (Log.of α delivered id) events ∧
    Shows α m id (Story.replay α events)

theorem about_of_forall₂ {α : Type} [Aggregate α] [Story α] {entries : List Entry}
    {events : List (Story.Event α)} {id : String}
    (h : List.Forall₂ (Entry.Carries α) entries events)
    (habout : ∀ entry ∈ entries, entry.isAbout α id) : ∀ e ∈ events, Story.about e = id := by
  induction h with
  | nil => exact fun e he => absurd he List.not_mem_nil
  | cons hfirst _ ih =>
    intro e he
    rcases List.mem_cons.mp he with rfl | he
    · exact hfirst.isAbout_iff.mp (habout _ List.mem_cons_self)
    · exact ih (fun entry hentry => habout entry (List.mem_cons_of_mem _ hentry)) e he

namespace Delivers

variable {α β : Type} [Aggregate α] [Story α] [Shown α] [Aggregate β] [Story β] [Shown β]
  {delivered : List Entry} {m m' : ReadModels} {entry : Entry} {e : Story.Event α}

theorem empty : Delivers α [] {} :=
  fun id => ⟨[], .nil, shows_empty id⟩

/-- An entry that is delivered goes behind those that were delivered before. -/
theorem concat {events : List (Story.Event α)} (h : Delivers α delivered m)
    (hcarries : entry.Carries α e)
    (hevents : List.Forall₂ (Entry.Carries α) (Log.of α delivered (Story.about e)) events)
    (hshows : Shows α m (Story.about e) (Story.replay α events))
    (hproject : Projected α m (Story.replay α events) e m') :
    Delivers α (delivered ++ [entry]) m' := by
  intro id
  rw [Log.of_append]
  by_cases habout : Story.about e = id
  · subst habout
    have hone : Log.of α [entry] (Story.about e) = [entry] := by
      refine Log.of_eq_self ?_
      intro x hx
      rw [List.mem_singleton.mp hx]
      exact hcarries.isAbout_iff.mpr rfl
    rw [hone]
    refine ⟨events ++ [e], List.rel_append hevents (.cons hcarries .nil), ?_⟩
    rw [Story.replay_concat]
    exact hshows.projected hproject
  · have hnone : Log.of α [entry] id = [] := by
      refine Log.of_eq_nil fun x hx hx' => habout ?_
      rw [List.mem_singleton.mp hx] at hx'
      exact hcarries.isAbout_iff.mp hx'
    obtain ⟨others, hothers, hid⟩ := h id
    rw [hnone, List.append_nil]
    exact ⟨others, hothers, hid.projected_of_ne habout hproject⟩

/-- An entry of the other kind changes nothing. -/
theorem concat_other (hapart : Apart α β) (h : Delivers β delivered m)
    (hcarries : entry.Carries α e) {told : Option (Story.State α)}
    (hproject : Projected α m told e m') :
    Delivers β (delivered ++ [entry]) m' := by
  intro id
  obtain ⟨events, hevents, hid⟩ := h id
  have hnone : Log.of β [entry] id = [] := by
    refine Log.of_eq_nil fun x hx hx' => hapart.kind ?_
    rw [List.mem_singleton.mp hx] at hx'
    exact hcarries.aggregateType.symm.trans (Entry.isAbout_iff.mp hx').1
  rw [Log.of_append, hnone, List.append_nil]
  exact ⟨events, hevents, hapart.shows hid hproject⟩

/-- An attempt at an entry that waits. -/
theorem attempt [Service.Routed α] {s : Service} (fault : Option ProjectionFailure)
    (hapart : Apart α β) (h : Delivers α delivered s.models)
    (hother : Delivers β delivered s.models) (hup : s.IsUp) (hholds : s.Holds entry)
    (hcarries : entry.Carries α e) :
    ∃ done entry' models metrics, entry.Attempted done entry' ∧
      s.attempt fault entry =
        (done, { s.setLog (s.log.map (Log.put entry')) with models, metrics }) ∧
      Delivers α (delivered ++ if done then [entry] else []) models ∧
      Delivers β (delivered ++ if done then [entry] else []) models := by
  obtain ⟨events, hevents, hshows⟩ := h (Story.about e)
  have hid := stateId_replay (about_of_forall₂ hevents fun x hx => (Log.mem_of.mp hx).2)
  obtain ⟨done, entry', models, metrics, hattempted, hattempt, hmodels⟩ :=
    Service.attempt_spec fault hup hholds hcarries hid hshows
  refine ⟨done, entry', models, metrics, hattempted, hattempt, ?_⟩
  cases done with
  | true =>
    constructor
    · exact h.concat hcarries hevents hshows hmodels
    · exact hother.concat_other hapart hcarries hmodels
  | false =>
    rw [show models = s.models from hmodels]
    simp only [Bool.false_eq_true, if_false, List.append_nil]
    exact ⟨h, hother⟩

end Delivers

end TableService
