import TableService.Proofs.Outbox.Soundness

/-!
# The log recounts what is committed

- `Stores.Recounts`: the events in the log, from the first on, lead to each aggregate as it is
  committed.
- `Stores.RecountedBy`: the same of one aggregate, and what these events are.
- `Log.IsNew`: the entries of a command.
- `Stores.Recounts.commit`, `Stores.Recounts.put`: commands and attempts keep it.
-/

namespace TableService

/-- The events in the log lead to each aggregate of this kind as it is committed. -/
def Stores.Recounts (α : Type) [Aggregate α] [Collection α] [Story α] (s : Stores) : Prop :=
  ∀ id, ∃ events, List.Forall₂ (Entry.Carries α) (Log.of α s.outbox id) events ∧
    Leads α none events (s.told α id)

/-- These are the events in the log about an aggregate, and they lead to it as it is committed. -/
structure Stores.RecountedBy (α : Type) [Aggregate α] [Collection α] [Story α] (s : Stores)
    (id : String) (events : List (Story.Event α)) : Prop where
  carries : List.Forall₂ (Entry.Carries α) (Log.of α s.outbox id) events
  leads : Leads α none events (s.told α id)

/-! ## New entries -/

section

variable {α : Type} [Aggregate α] [Story α] {policy : RetryPolicy} {now : Instant}

/-- The entries of a command, at the end of the log. -/
structure Log.IsNew (α : Type) [Aggregate α] [Story α] (policy : RetryPolicy) (occurredAt : Instant)
    (log : Log) (a : α) (entries : List Entry) : Prop where
  carries : List.Forall₂ (Entry.Carries α) entries (Story.recorded a)
  about : ∀ e ∈ entries, e.isAbout α (Aggregate.id a)
  nodup : (entries.map Entry.id).Nodup
  fresh : ∀ e ∈ entries, ∀ old ∈ log, e.id ≠ old.id
  isNew : ∀ e ∈ entries, ∃ event,
    Entry.IsNew policy (Aggregate.id a) (Aggregate.kind α) occurredAt event e

theorem exists_of_forall₂ {β γ : Type} {R : β → γ → Prop} {l : List β} {m : List γ}
    (h : List.Forall₂ R l m) {c : γ} (hc : c ∈ m) : ∃ b ∈ l, R b c := by
  induction h with
  | nil => cases hc
  | cons hfirst _ ih =>
    rcases List.mem_cons.mp hc with rfl | hc
    · exact ⟨_, List.mem_cons_self, hfirst⟩
    · obtain ⟨b, hb, hR⟩ := ih hc
      exact ⟨b, List.mem_cons_of_mem _ hb, hR⟩

theorem Entry.IsNew.sound {entry : Entry} {id kind : String} {event : DomainEvent}
    (h : Entry.IsNew policy id kind now event entry) : entry.Sound where
  pending _ := ⟨h.retryCount, h.nextRetryAt⟩
  failed hstatus := by
    rw [h.status] at hstatus
    cases hstatus

theorem Log.Sound.commit {log : Log} {a : α} {entries : List Entry} (h : log.Sound now)
    (hnew : Log.IsNew α policy now log a entries) (hretries : policy.maxRetries ≠ 0)
    (hrecord : ∀ {entry : Entry} {e : Story.Event α}, entry.Carries α e → entry.IsRecord) :
    Log.Sound (log ++ entries) now := by
  refine h.append hnew.nodup hnew.fresh ?_ ?_
  · intro e he
    obtain ⟨event, hevent⟩ := hnew.isNew e he
    obtain ⟨ev, -, hcarries⟩ := exists_of_forall₂ hnew.carries.flip he
    refine ⟨hevent.sound, ?_, ?_, hrecord hcarries⟩
    · rw [hevent.policy]
      exact hretries
    · rw [hevent.occurredAt]
      exact Instant.le_refl now
  · intro e he
    obtain ⟨event, hevent⟩ := hnew.isNew e he
    exact hevent.occurredAt

theorem forall₂_carries_put {entries : List Entry} {events : List (Story.Event α)} {e' : Entry}
    (h : List.Forall₂ (Entry.Carries α) entries events)
    (hsame : ∀ x ∈ entries, x.Same (Log.put e' x)) :
    List.Forall₂ (Entry.Carries α) (entries.map (Log.put e')) events := by
  induction h with
  | nil => exact .nil
  | cons hfirst _ ih =>
    refine .cons (hfirst.of_same (hsame _ List.mem_cons_self)) (ih fun x hx => ?_)
    exact hsame x (List.mem_cons_of_mem _ hx)

end

variable {α : Type} [Aggregate α] [Collection α] [Story α] {policy : RetryPolicy} {now : Instant}

/-- The entries for the events of an aggregate carry these events, and are about it. -/
theorem Recorded.carries {s : Stores} {a : α} {entries : List Entry} (h : Recorded s a)
    (hnew : List.Forall₂ (Entry.IsNew policy (Aggregate.id a) (Aggregate.kind α) now)
      (Aggregate.events a) entries) :
    List.Forall₂ (Entry.Carries α) entries (Story.recorded a) ∧
      ∀ e ∈ entries, e.isAbout α (Aggregate.id a) := by
  refine ⟨?_, fun e he => ?_⟩
  · rw [Story.events_eq] at hnew
    exact forall₂_carries hnew h.about h.leads.inRange
  · obtain ⟨event, -, hevent⟩ := exists_of_forall₂ hnew he
    exact Entry.isAbout_iff.mpr ⟨hevent.aggregateType, hevent.aggregateId⟩

/-- The entries of a command are new, and they carry the events that it recorded. -/
theorem Committed.entries {s s' : Stores} {a : α} (hc : Committed policy now s s' a)
    (hrecorded : Recorded s a) :
    ∃ entries, s'.outbox = s.outbox ++ entries ∧ Log.IsNew α policy now s.outbox a entries := by
  obtain ⟨entries, hlog, hnew, hnodup, hfresh⟩ := hc.outbox
  obtain ⟨hcarries, habout⟩ := hrecorded.carries hnew
  refine ⟨entries, hlog, hcarries, habout, hnodup, hfresh, fun e he => ?_⟩
  obtain ⟨event, -, hevent⟩ := exists_of_forall₂ hnew he
  exact ⟨event, hevent⟩

/-! ## Commands -/

namespace Stores

variable {s s' : Stores} {id : String}

theorem recountedBy_empty (id : String) : Stores.RecountedBy α {} id [] := by
  have htold : Stores.told α {} id = none := by
    rw [told_eq_none]
    rw [Collection.committed_empty]
    exact Std.ExtTreeMap.getElem?_empty
  refine ⟨.nil, ?_⟩
  rw [htold]
  exact .nil _

theorem recounts_empty : Stores.Recounts α {} :=
  fun id => ⟨[], (recountedBy_empty id).carries, (recountedBy_empty id).leads⟩

theorem told_commit {a : α} (ha : Appended policy now s s' a) :
    s'.told α (Aggregate.id a) = some (Story.state a) := by
  rw [told, ha.stored, Option.map_some, Story.state_drained]

theorem told_commit_of_ne {a : α} (ha : Appended policy now s s' a) (hne : id ≠ Aggregate.id a) :
    s'.told α id = s.told α id := by
  rw [told, told, ha.others hne]

/-- The events of a command go on from where the log has ended. -/
theorem RecountedBy.commit {a : α} {events : List (Story.Event α)} (h : s.RecountedBy α id events)
    (ha : Appended policy now s s' a) (hrecorded : Recorded s a) :
    s'.RecountedBy α id (events ++ if Aggregate.id a = id then Story.recorded a else []) := by
  obtain ⟨entries, hlog, hnew⟩ := ha.outbox
  obtain ⟨hcarries, habout⟩ := hrecorded.carries hnew
  by_cases hid : Aggregate.id a = id
  · subst hid
    rw [if_pos rfl]
    constructor
    · rw [hlog, Log.of_append, Log.of_eq_self habout]
      exact List.rel_append h.carries hcarries
    · rw [told_commit ha]
      exact h.leads.append hrecorded.leads
  · -- the new entries are all about another aggregate
    have hnone : Log.of α entries id = [] := by
      refine Log.of_eq_nil fun e he hother => hid ?_
      exact (Entry.isAbout_iff.mp (habout e he)).2.symm.trans (Entry.isAbout_iff.mp hother).2
    rw [if_neg hid, List.append_nil]
    constructor
    · rw [hlog, Log.of_append, hnone, List.append_nil]
      exact h.carries
    · rw [told_commit_of_ne ha (Ne.symm hid)]
      exact h.leads

/-- Aggregates of the other kind have nothing to do with it. -/
theorem RecountedBy.commit_other {β : Type} [Aggregate β] [Collection β] [Story β] {a : α}
    {events : List (Story.Event β)} (h : s.RecountedBy β id events)
    (ha : Appended policy now s s' a) (hrecorded : Recorded s a)
    (hkind : Aggregate.kind α ≠ Aggregate.kind β)
    (hsame : Collection.committed (α := β) s' = Collection.committed s) :
    s'.RecountedBy β id events := by
  obtain ⟨entries, hlog, hnew⟩ := ha.outbox
  obtain ⟨-, habout⟩ := hrecorded.carries hnew
  have hnone : Log.of β entries id = [] := by
    refine Log.of_eq_nil fun e he hother => hkind ?_
    exact (Entry.isAbout_iff.mp (habout e he)).1.symm.trans (Entry.isAbout_iff.mp hother).1
  have htold : s'.told β id = s.told β id := by rw [told, told, hsame]
  constructor
  · rw [hlog, Log.of_append, hnone, List.append_nil]
    exact h.carries
  · rw [htold]
    exact h.leads

theorem RecountedBy.about {events : List (Story.Event α)} (h : s.RecountedBy α id events) :
    ∀ e ∈ events, Story.about e = id := by
  intro e he
  obtain ⟨entry, hentry, hcarries⟩ := exists_of_forall₂ h.carries he
  exact hcarries.isAbout_iff.mp (Log.mem_of.mp hentry).2

/-- There is an entry about an aggregate only if the aggregate is committed. -/
theorem RecountedBy.exists_committed {events : List (Story.Event α)} (h : s.RecountedBy α id events)
    {entry : Entry} (hentry : entry ∈ Log.of α s.outbox id) :
    ∃ v, (Collection.committed (α := α) s)[id]? = some v := by
  cases hv : (Collection.committed (α := α) s)[id]? with
  | some v => exact ⟨v, rfl⟩
  | none =>
    have hleads := h.leads
    rw [told_eq_none hv] at hleads
    obtain rfl := hleads.eq_nil
    rw [List.forall₂_nil_right_iff.mp h.carries] at hentry
    exact absurd hentry List.not_mem_nil

/-- The entries of a command are made of its events. -/
theorem isRecord_commit {a : α} (h : ∀ e ∈ s.outbox, e.IsRecord)
    (ha : Appended policy now s s' a) (hrecorded : Recorded s a)
    (hrecord : ∀ {entry : Entry} {e : Story.Event α}, entry.Carries α e → entry.IsRecord) :
    ∀ e ∈ s'.outbox, e.IsRecord := by
  obtain ⟨entries, hlog, hnew⟩ := ha.outbox
  obtain ⟨hcarries, -⟩ := hrecorded.carries hnew
  intro e he
  rw [hlog] at he
  rcases List.mem_append.mp he with he | he
  · exact h e he
  · obtain ⟨event, -, hevent⟩ := exists_of_forall₂ hcarries.flip he
    exact hrecord hevent

theorem Recounts.commit {a : α} (h : s.Recounts α) (ha : Appended policy now s s' a)
    (hrecorded : Recorded s a) : s'.Recounts α := by
  intro id
  obtain ⟨events, hcarries, hleads⟩ := h id
  obtain ⟨hcarries', hleads'⟩ := RecountedBy.commit ⟨hcarries, hleads⟩ ha hrecorded
  exact ⟨_, hcarries', hleads'⟩

theorem Recounts.commit_other {β : Type} [Aggregate β] [Collection β] [Story β] {a : α}
    (h : s.Recounts β) (ha : Appended policy now s s' a) (hrecorded : Recorded s a)
    (hkind : Aggregate.kind α ≠ Aggregate.kind β)
    (hsame : Collection.committed (α := β) s' = Collection.committed s) : s'.Recounts β := by
  intro id
  obtain ⟨events, hcarries, hleads⟩ := h id
  obtain ⟨hcarries', hleads'⟩ :=
    RecountedBy.commit_other ⟨hcarries, hleads⟩ ha hrecorded hkind hsame
  exact ⟨events, hcarries', hleads'⟩

/-! ## Attempts -/

theorem Recounts.put {e e' : Entry} (h : s.Recounts α) (hn : (s.outbox.map Entry.id).Nodup)
    (he : e ∈ s.outbox) (hsame : e.Same e') (hlog : s'.outbox = s.outbox.map (Log.put e'))
    (hcommitted : Collection.committed (α := α) s' = Collection.committed s) : s'.Recounts α := by
  intro id
  obtain ⟨events, hcarries, hleads⟩ := h id
  have htold : s'.told α id = s.told α id := by rw [told, told, hcommitted]
  rw [hlog, Log.of_map_put hn he hsame, htold]
  refine ⟨events, forall₂_carries_put hcarries fun x hx => ?_, hleads⟩
  exact Log.same_put hn he hsame (Log.mem_of.mp hx).1

end Stores

end TableService
