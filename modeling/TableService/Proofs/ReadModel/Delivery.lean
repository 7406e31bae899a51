import TableService.Proofs.ReadModel.OneCall

/-!
# Deliveries to the projectors

- `ReadModelKind`: the two kinds of read models, each with its projector.
- `Delivery`: an event that is delivered to one of the projectors, and what storage was down then.
- `Delivery.Runs`: a delivery is refused or has nothing to do, or it saves a revision of the read
  model that it names. Which of these it is depends only on what is shown under that name.
- `Delivery.finishCall_eq`: a delivery is what a service does when it calls a projector.
- `ReadModels.WellKept`: every read model is under its own id and as it should be.
- `ReadModels.Grows`: nothing disappears, and each read model is a later state of what it was.
- `ReadModels.deliveries_keep_and_grow`: so it is after all deliveries and between any two of them.
-/

namespace TableService

/-- There is a projector for each kind. -/
inductive ReadModelKind where
  | menuItem
  | order
deriving DecidableEq

namespace ReadModelKind

/-- What is shown of a thing of this kind. -/
def Model : ReadModelKind → Type
  | menuItem => MenuItemModel
  | order => OrderModel

/-- Where it is kept. -/
def shelf : (kind : ReadModelKind) → Shelf kind.Model
  | menuItem => .menuItems
  | order => .orders

/-- The handlers of the projector for this kind. -/
def handlers : ReadModelKind → HandlerTable Steps
  | menuItem => menuItemHandlers
  | order => orderHandlers

/-- What holds of every read model that is shown. -/
def Sound : (kind : ReadModelKind) → kind.Model → Prop
  | menuItem => fun _ => True
  | order => OrderModel.Sound

/-- What a read model may become. -/
def Follows : (kind : ReadModelKind) → kind.Model → kind.Model → Prop
  | menuItem => MenuItemModel.Follows
  | order => OrderModel.Follows

variable {kind : ReadModelKind}

theorem handlers_planned : (kind : ReadModelKind) → kind.handlers.Planned kind.shelf
  | menuItem => menuItemHandlers_planned
  | order => orderHandlers_planned

theorem sound_of_revises {found : Option kind.Model} {a : kind.Model}
    (h : kind.shelf.Revises found a) (hfound : ∀ b ∈ found, kind.Sound b) : kind.Sound a := by
  cases kind with
  | menuItem => trivial
  | order => exact OrderModel.Revises.sound h hfound

theorem follows_of_revises {a b : kind.Model} (h : kind.shelf.Revises (some a) b) :
    kind.Follows a b := by
  cases kind with
  | menuItem => exact MenuItemModel.Revises.follows h
  | order => exact OrderModel.Revises.follows h

theorem Follows.refl (a : kind.Model) : kind.Follows a a := by
  cases kind with
  | menuItem => exact MenuItemModel.Follows.refl a
  | order => exact OrderModel.Follows.refl a

theorem Follows.trans {a b c : kind.Model} (h : kind.Follows a b) (h' : kind.Follows b c) :
    kind.Follows a c := by
  cases kind with
  | menuItem => exact MenuItemModel.Follows.trans h h'
  | order => exact OrderModel.Follows.trans h h'

end ReadModelKind

/-! ## What is shown -/

namespace ReadModels

variable {m : ReadModels} {kind : ReadModelKind} {a : kind.Model}

/-- The read model that is found under an id. -/
def shown (m : ReadModels) (kind : ReadModelKind) (id : String) : Option kind.Model :=
  (kind.shelf.table m)[id]?

@[simp] theorem shown_put_self : (kind.shelf.put m a).shown kind (kind.shelf.own a) = some a :=
  Shelf.found_put

/-- The same is shown under a name, if there is one. -/
def SameAt (target? : Option (ReadModelKind × String)) (m m' : ReadModels) : Prop :=
  ∀ kind id, target? = some (kind, id) → m'.shown kind id = m.shown kind id

theorem SameAt.refl {target? : Option (ReadModelKind × String)} : SameAt target? m m :=
  fun _ _ _ => rfl

/-- To save a read model changes no other. -/
theorem shown_put_of_ne {other : ReadModelKind} {id : String}
    (h : (kind, kind.shelf.own a) ≠ (other, id)) :
    (kind.shelf.put m a).shown other id = m.shown other id := by
  by_cases hkind : kind = other
  · subst hkind
    have hid : kind.shelf.own a ≠ id := fun heq => h (by rw [heq])
    rw [shown, kind.shelf.table_put, Table.getElem?_insert_of_ne hid]
    rfl
  · cases kind <;> cases other <;> first | exact absurd rfl hkind | rfl

theorem ext_shown {m m' : ReadModels} (h : ∀ kind id, m.shown kind id = m'.shown kind id) :
    m = m' := by
  have horders : m.orders = m'.orders := Std.ExtTreeMap.ext_getElem? (h .order)
  have hitems : m.menuItems = m'.menuItems := Std.ExtTreeMap.ext_getElem? (h .menuItem)
  cases m
  cases m'
  exact congrArg₂ ReadModels.mk horders hitems

end ReadModels

/-! ## Deliveries -/

/-- An event that is handed to the projector of a kind. Calls to storage may be down then. -/
structure Delivery where
  kind : ReadModelKind
  eventType : String
  data : Payload
  outage : Outage := []

namespace Delivery

open ReadModels (SameAt)

/-- What the delivery comes to, and the read models as it leaves them. -/
def run (d : Delivery) (m : ReadModels) : Except ProjectionFailure Unit × ReadModels :=
  (d.kind.handlers.steps d.eventType d.data).run d.outage m

/-- The read model that is named. -/
def target? (d : Delivery) : Option (ReadModelKind × String) :=
  (d.data.named d.kind.shelf.field).map (d.kind, ·)

/-- What a delivery does to all read models that show the same as `m` under its name. -/
inductive Runs (d : Delivery) (m : ReadModels) : Prop where
  /-- Nothing is changed. -/
  | keeps (r : Except ProjectionFailure Unit)
      (run : ∀ m', SameAt d.target? m m' → d.run m' = (r, m'))
  | saves (id : String) (a : d.kind.Model) (target : d.target? = some (d.kind, id))
      (own : (∀ b ∈ m.shown d.kind id, d.kind.shelf.own b = id) → d.kind.shelf.own a = id)
      (revises : d.kind.shelf.Revises (m.shown d.kind id) a)
      (run : ∀ m', SameAt d.target? m m' → d.run m' = (.ok (), d.kind.shelf.put m' a))

theorem runs (d : Delivery) (m : ReadModels) : d.Runs m := by
  rcases d.kind.handlers_planned.cases d.eventType d.data with ⟨e, hrun⟩ | ⟨id, hid, plan, hrun⟩
  · exact .keeps (.error e) fun m' _ => hrun d.outage m'
  · have htarget : d.target? = some (d.kind, id) := by rw [target?, hid]; rfl
    rcases plan.apply_cases d.outage (m.shown d.kind id) with ⟨r, happly⟩ | ⟨a, hrevise, happly⟩
    · refine .keeps r fun m' hm' => ?_
      rw [run, hrun, happly m' (hm' _ _ htarget)]
    · refine .saves id a htarget (fun hfound => plan.own_revised hfound hrevise)
        (plan.revises hrevise) fun m' hm' => ?_
      rw [run, hrun, happly m' (hm' _ _ htarget)]
      rfl

/-- A service calls a projector, and keeps the read models as the delivery leaves them. -/
theorem finishCall_eq (d : Delivery) {s : Service} (h : s.outage = d.outage) :
    s.finishCall (.project ((Projector.ofTable d.kind.handlers).project d.eventType d.data)) =
      ((d.run s.models).1, { s with models := (d.run s.models).2 }) := by
  have hrun :
      (d.kind.handlers.steps d.eventType d.data).run s.outage s.models = d.run s.models := by
    rw [h]
    rfl
  simp only [Service.finishCall, Projector.ofTable, Projection.ofSteps, hrun]
  cases d.runs s.models with
  | keeps r hrun =>
    rw [hrun s.models .refl]
    cases r with
    | error e => rfl
    | ok u => rfl
  | saves _ _ _ _ _ hrun => rw [hrun s.models .refl]

end Delivery

/-! ## What holds of the read models -/

namespace ReadModels

/-- The read models behind a delivery. -/
def receive (m : ReadModels) (d : Delivery) : ReadModels := (d.run m).2

/-- The read models behind all deliveries, whatever each of them comes to. -/
def receiveAll (m : ReadModels) (ds : List Delivery) : ReadModels := ds.foldl receive m

/-- Every read model is under its own id. -/
def Keyed (m : ReadModels) : Prop :=
  ∀ kind id a, m.shown kind id = some a → kind.shelf.own a = id

/-- Each read model is under its own id, and sound in itself. -/
structure WellKept (m : ReadModels) : Prop where
  keyed : m.Keyed
  sound : ∀ kind id a, m.shown kind id = some a → kind.Sound a

/-- Every read model is still there, and has become what it may. -/
def Grows (m m' : ReadModels) : Prop :=
  ∀ kind id a, m.shown kind id = some a → ∃ b, m'.shown kind id = some b ∧ kind.Follows a b

variable {m m' : ReadModels} {d : Delivery}

theorem Grows.refl (m : ReadModels) : m.Grows m := by
  intro kind id a ha
  exact ⟨a, ha, .refl a⟩

theorem Grows.trans {m'' : ReadModels} (h : m.Grows m') (h' : m'.Grows m'') : m.Grows m'' := by
  intro kind id a ha
  obtain ⟨b, hb, hab⟩ := h kind id a ha
  obtain ⟨c, hc, hbc⟩ := h' kind id b hb
  exact ⟨c, hc, hab.trans hbc⟩

theorem shown_empty (kind : ReadModelKind) (id : String) : shown {} kind id = none := by
  cases kind <;> exact Std.ExtTreeMap.getElem?_empty

theorem wellKept_empty : WellKept {} where
  keyed kind id a ha := by
    rw [shown_empty] at ha
    cases ha
  sound kind id a ha := by
    rw [shown_empty] at ha
    cases ha

section

variable {kind : ReadModelKind} {a : kind.Model}

/-- What is shown once a read model is saved is that one, or it was shown before. -/
theorem shown_put {other : ReadModelKind} {id : String} {b : other.Model}
    (h : (kind.shelf.put m a).shown other id = some b) :
    (⟨kind, a⟩ : Sigma ReadModelKind.Model) = ⟨other, b⟩ ∧ kind.shelf.own a = id ∨
      m.shown other id = some b := by
  by_cases heq : (kind, kind.shelf.own a) = (other, id)
  · cases heq
    rw [shown_put_self] at h
    exact .inl ⟨by rw [Option.some.inj h], rfl⟩
  · rw [shown_put_of_ne heq] at h
    exact .inr h

theorem Keyed.put (h : m.Keyed) (a : kind.Model) : (kind.shelf.put m a).Keyed := by
  intro other id b hb
  obtain ⟨⟨⟩, hid⟩ | hold := shown_put hb
  · exact hid
  · exact h other id b hold

/-- A revision of what is shown is kept as well. -/
theorem WellKept.put (h : m.WellKept)
    (hrevises : kind.shelf.Revises (m.shown kind (kind.shelf.own a)) a) :
    (kind.shelf.put m a).WellKept := by
  refine ⟨h.keyed.put a, fun other id b hb => ?_⟩
  obtain ⟨⟨⟩, -⟩ | hold := shown_put hb
  · exact ReadModelKind.sound_of_revises hrevises (h.sound kind _)
  · exact h.sound other id b hold

theorem grows_put (hrevises : kind.shelf.Revises (m.shown kind (kind.shelf.own a)) a) :
    m.Grows (kind.shelf.put m a) := by
  intro other id b hb
  by_cases heq : (kind, kind.shelf.own a) = (other, id)
  · cases heq
    rw [hb] at hrevises
    exact ⟨a, shown_put_self, ReadModelKind.follows_of_revises hrevises⟩
  · exact ⟨b, by rw [shown_put_of_ne heq, hb], .refl b⟩

end

theorem WellKept.receive (h : m.WellKept) (d : Delivery) :
    (m.receive d).WellKept ∧ m.Grows (m.receive d) := by
  cases d.runs m with
  | keeps r hrun =>
    rw [ReadModels.receive, hrun m .refl]
    exact ⟨h, .refl m⟩
  | saves id a _ hown hrevises hrun =>
    obtain rfl := hown (h.keyed d.kind id)
    rw [ReadModels.receive, hrun m .refl]
    exact ⟨h.put hrevises, grows_put hrevises⟩

theorem WellKept.receiveAll (h : m.WellKept) (ds : List Delivery) :
    (m.receiveAll ds).WellKept ∧ m.Grows (m.receiveAll ds) := by
  induction ds generalizing m with
  | nil => exact ⟨h, .refl m⟩
  | cons d ds ih =>
    have hfirst := h.receive d
    have hrest := ih hfirst.1
    exact ⟨hrest.1, hfirst.2.trans hrest.2⟩

/-- Whatever is delivered, from no read models at all: every read model is under its own id and
every order is sound, and from then on nothing disappears and nothing changes but what may. -/
theorem deliveries_keep_and_grow (ds more : List Delivery) :
    (receiveAll {} ds).WellKept ∧ (receiveAll {} ds).Grows (receiveAll {} (ds ++ more)) := by
  have hkept := (wellKept_empty.receiveAll ds).1
  refine ⟨hkept, ?_⟩
  rw [receiveAll, receiveAll, List.foldl_append]
  exact (hkept.receiveAll more).2

end ReadModels

end TableService
