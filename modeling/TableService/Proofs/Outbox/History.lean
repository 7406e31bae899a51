import Mathlib.Data.List.Forall2
import TableService.Proofs.Command.Recorded
import TableService.Proofs.Outbox.Marking

/-!
# The events that entries carry

- `Entry.Carries`: the event that an entry was made of. There is only one.
- `Log.of`: the entries about one aggregate.
- `Log.HasAt`: the event of the entry with an id. Entries that are the same but for their marks have
  the same events there.
- `forall₂_carries`: the entries of a command carry the events that it recorded.
-/

namespace TableService

/-! ## Entries and events -/

section

variable (α : Type) [Aggregate α]

/-- Whether an entry is about the aggregate with this id. -/
def Entry.isAbout (id : String) (entry : Entry) : Bool :=
  entry.aggregateType = Aggregate.kind α ∧ entry.aggregateId = id

/-- The entries about one aggregate, in their order. -/
def Log.of (log : Log) (id : String) : Log :=
  log.filter (Entry.isAbout α id)

/-- The entry was made of the event. -/
structure Entry.Carries [Story α] (entry : Entry) (e : Story.Event α) : Prop where
  eventType : entry.eventType = Story.name e
  eventData : entry.eventData = Story.fields e
  aggregateType : entry.aggregateType = Aggregate.kind α
  aggregateId : entry.aggregateId = Story.about e
  inRange : Story.InRange e

end

variable {α : Type} [Aggregate α] {entry entry' : Entry} {id : String}

theorem Entry.isAbout_iff : entry.isAbout α id ↔
    entry.aggregateType = Aggregate.kind α ∧ entry.aggregateId = id := decide_eq_true_iff

theorem Entry.Same.isAbout_eq (h : entry.Same entry') :
    entry'.isAbout α id = entry.isAbout α id := by
  unfold Entry.isAbout
  rw [h.aggregateType, h.aggregateId]

section

variable [Story α] {e e' : Story.Event α}

theorem Entry.Carries.of_same (h : entry.Carries α e) (hsame : entry.Same entry') :
    entry'.Carries α e where
  eventType := hsame.eventType.trans h.eventType
  eventData := hsame.eventData.trans h.eventData
  aggregateType := hsame.aggregateType.trans h.aggregateType
  aggregateId := hsame.aggregateId.trans h.aggregateId
  inRange := h.inRange

/-- An entry carries one event only. -/
theorem Entry.Carries.unique (h : entry.Carries α e) (h' : entry.Carries α e') : e = e' :=
  Story.ext_of_fields (h.eventType.symm.trans h'.eventType) (h.eventData.symm.trans h'.eventData)

theorem Entry.Carries.isAbout_iff (h : entry.Carries α e) :
    entry.isAbout α id ↔ Story.about e = id := by
  rw [Entry.isAbout_iff, h.aggregateId]
  exact and_iff_right h.aggregateType

/-- The new entry for an event carries it. -/
theorem Entry.IsNew.carries {policy : RetryPolicy} {occurredAt : Instant}
    (h : Entry.IsNew policy id (Aggregate.kind α) occurredAt
      (.ofFields (Story.name e) (Story.fields e)) entry)
    (habout : Story.about e = id) (hrange : Story.InRange e) : entry.Carries α e where
  eventType := h.eventType
  eventData := by
    have hdata := h.eventData
    rw [DomainEvent.payload_ofFields _ (Story.isPrimitive_fields e)] at hdata
    exact (Except.ok.inj hdata).symm
  aggregateType := h.aggregateType
  aggregateId := h.aggregateId.trans habout.symm
  inRange := hrange

end

/-! ## The entries about one aggregate -/

namespace Log

variable {log more : Log}

theorem mem_of : entry ∈ log.of α id ↔ entry ∈ log ∧ entry.isAbout α id := List.mem_filter

theorem of_append : Log.of α (log ++ more) id = log.of α id ++ more.of α id :=
  List.filter_append ..

theorem of_eq_self (h : ∀ entry ∈ log, entry.isAbout α id) : log.of α id = log :=
  List.filter_eq_self.mpr h

theorem of_eq_nil (h : ∀ entry ∈ log, ¬ entry.isAbout α id) : log.of α id = [] :=
  List.filter_eq_nil_iff.mpr h

theorem of_map_put (hn : (log.map Entry.id).Nodup) (he : entry ∈ log) (hsame : entry.Same entry') :
    Log.of α (log.map (put entry')) id = (log.of α id).map (put entry') :=
  filter_map_put Entry.Same.isAbout_eq hn he hsame

/-- An entry about another aggregate has no place among these. -/
theorem of_map_put_of_not (hn : (log.map Entry.id).Nodup) (he : entry ∈ log)
    (hsame : entry.Same entry') (hnot : ¬ entry.isAbout α id) :
    Log.of α (log.map (put entry')) id = log.of α id := by
  rw [of_map_put hn he hsame]
  refine (List.map_congr_left fun x hx => put_of_ne fun hid => ?_).trans (List.map_id _)
  obtain ⟨hx, habout⟩ := mem_of.mp hx
  rw [eq_of_id_eq hn hx he (hid.trans hsame.id)] at habout
  exact hnot habout

end Log

/-! ## The event under an id -/

/-- The entry with this id carries the event. -/
def Log.HasAt (α : Type) [Aggregate α] [Story α] (log : Log) (entryId : String)
    (e : Story.Event α) : Prop :=
  ∃ entry ∈ log, entry.id = entryId ∧ entry.Carries α e

/-- An id determines its entry, and the entry its event. -/
theorem Log.hasAt_unique [Story α] {log : Log} (hn : (log.map Entry.id).Nodup) :
    Relator.RightUnique (Log.HasAt α log) := by
  rintro entryId e e' ⟨x, hx, hid, hcarries⟩ ⟨x', hx', hid', hcarries'⟩
  obtain rfl : x = x' := Log.eq_of_id_eq hn hx hx' (hid.trans hid'.symm)
  exact hcarries.unique hcarries'

theorem Log.forall₂_hasAt [Story α] {log : Log} {entries : List Entry}
    {events : List (Story.Event α)} (hsame : ∀ d ∈ entries, ∃ e ∈ log, d.Same e)
    (h : List.Forall₂ (Entry.Carries α) entries events) :
    List.Forall₂ (Log.HasAt α log) (entries.map Entry.id) events := by
  rw [List.forall₂_map_left_iff]
  induction h with
  | nil => exact .nil
  | cons hfirst _ ih =>
    obtain ⟨x, hx, hxsame⟩ := hsame _ List.mem_cons_self
    refine .cons ⟨x, hx, hxsame.id, hfirst.of_same hxsame⟩ (ih ?_)
    intro d hd
    exact hsame d (List.mem_cons_of_mem _ hd)

/-! ## The entries of a command -/

theorem forall₂_carries [Story α] {policy : RetryPolicy} {occurredAt : Instant}
    {events : List (Story.Event α)} {entries : List Entry}
    (h : List.Forall₂ (Entry.IsNew policy id (Aggregate.kind α) occurredAt)
      (events.map fun e => .ofFields (Story.name e) (Story.fields e)) entries)
    (habout : ∀ e ∈ events, Story.about e = id) (hrange : ∀ e ∈ events, Story.InRange e) :
    List.Forall₂ (Entry.Carries α) entries events := by
  rw [List.forall₂_map_left_iff] at h
  induction h with
  | nil => exact .nil
  | cons hfirst _ ih =>
    refine .cons (hfirst.carries (habout _ List.mem_cons_self) (hrange _ List.mem_cons_self))
      (ih ?_ ?_)
    · exact fun e he => habout e (List.mem_cons_of_mem _ he)
    · exact fun e he => hrange e (List.mem_cons_of_mem _ he)

end TableService
