import TableService.Proofs.ReadModel.Delivery

/-!
# Deliveries in another order

The deliveries for one read model see nothing of the others. So it is for each read model alone that
the order matters.

- `ReadModels.outcomes`: what each delivery of a run comes to.
- `ReadModels.outcomes_filter`: the deliveries for one read model come to the same without all
  others.
- `Reordered`: two runs of the same deliveries, in the same order for each read model.
- `ReadModels.Stored.reordered`: two such runs have the same effect.
-/

namespace TableService

namespace Delivery

/-- Whether the delivery is for this read model. -/
def isFor (target? : Option (ReadModelKind × String)) (d : Delivery) : Bool :=
  d.target? == target?

variable {target? : Option (ReadModelKind × String)} {d : Delivery}

theorem isFor_iff : d.isFor target? = true ↔ d.target? = target? :=
  beq_iff_eq

theorem isFor_target? (d : Delivery) : d.isFor d.target? = true :=
  isFor_iff.mpr rfl

end Delivery

/-- A delivery and what it came to. -/
structure Outcome where
  delivery : Delivery
  result : Except ProjectionFailure Unit

/-- Whether the delivery was for this read model. -/
def Outcome.isFor (target? : Option (ReadModelKind × String)) (o : Outcome) : Bool :=
  o.delivery.isFor target?

namespace ReadModels

variable {m m' : ReadModels} {target? : Option (ReadModelKind × String)}

/-! ## One delivery -/

theorem Stored.keyed_shown (h : m.Stored) : m.Keyed
  | .menuItem => h.keyed.2
  | .order => h.keyed.1

theorem Keyed.receive (h : m.Keyed) (d : Delivery) : (m.receive d).Keyed := by
  cases d.runs m with
  | keeps r hrun =>
    rw [ReadModels.receive, hrun m .refl]
    exact h
  | saves id a _ _ _ hrun =>
    rw [ReadModels.receive, hrun m .refl]
    exact h.put a

/-- A delivery changes nothing but what it is for. -/
theorem Keyed.sameAt_receive (h : m.Keyed) {d : Delivery} (hd : d.target? ≠ target?) :
    SameAt target? m (m.receive d) := by
  rintro kind id rfl
  cases d.runs m with
  | keeps r hrun => rw [ReadModels.receive, hrun m .refl]
  | saves own a htarget hown _ hrun =>
    obtain rfl := hown (h d.kind own)
    rw [ReadModels.receive, hrun m .refl]
    refine shown_put_of_ne ?_
    intro heq
    exact hd (htarget.trans (congrArg some heq))

/-- What a delivery does is the same wherever the same is shown under its name. -/
theorem SameAt.receive {d : Delivery} (h : SameAt d.target? m m') (hm : m.Keyed) :
    (d.run m).1 = (d.run m').1 ∧ SameAt d.target? (m.receive d) (m'.receive d) := by
  rw [ReadModels.receive, ReadModels.receive]
  cases d.runs m with
  | keeps r hrun =>
    rw [hrun m .refl, hrun m' h]
    exact ⟨rfl, h⟩
  | saves own a htarget hown _ hrun =>
    obtain rfl := hown (hm d.kind own)
    rw [hrun m .refl, hrun m' h]
    refine ⟨rfl, ?_⟩
    rintro kind id hname
    obtain ⟨rfl, rfl⟩ := Prod.mk.inj (Option.some.inj (htarget.symm.trans hname))
    rw [shown_put_self, shown_put_self]

/-! ## A run -/

/-- What each delivery comes to, in their order. -/
def outcomes : ReadModels → List Delivery → List Outcome
  | _, [] => []
  | m, d :: ds => ⟨d, (d.run m).1⟩ :: (m.receive d).outcomes ds

/-- To one read model it makes no difference whether the deliveries for others take place. -/
theorem outcomes_filter (hm : m.Keyed) (hm' : m'.Keyed) (h : SameAt target? m m')
    (ds : List Delivery) :
    (m.outcomes ds).filter (·.isFor target?) = m'.outcomes (ds.filter (·.isFor target?)) ∧
      SameAt target? (m.receiveAll ds) (m'.receiveAll (ds.filter (·.isFor target?))) := by
  induction ds generalizing m m' with
  | nil => exact ⟨rfl, h⟩
  | cons d ds ih =>
    by_cases hd : d.target? = target?
    · subst hd
      obtain ⟨hsame, hafter⟩ := h.receive hm
      obtain ⟨hrest, hlast⟩ := ih (hm.receive d) (hm'.receive d) hafter
      have hfirst : (m.outcomes (d :: ds)).filter (·.isFor d.target?) =
          ⟨d, (d.run m).1⟩ :: ((m.receive d).outcomes ds).filter (·.isFor d.target?) :=
        List.filter_cons_of_pos (p := Outcome.isFor d.target?) d.isFor_target?
      rw [hfirst, List.filter_cons_of_pos d.isFor_target?, outcomes, hrest, hsame]
      exact ⟨rfl, hlast⟩
    · have hother : ¬ d.isFor target? = true := mt Delivery.isFor_iff.mp hd
      have hafter : SameAt target? (m.receive d) m' := by
        intro kind id hname
        rw [h kind id hname, hm.sameAt_receive hd kind id hname]
      have hfirst : (m.outcomes (d :: ds)).filter (·.isFor target?) =
          ((m.receive d).outcomes ds).filter (·.isFor target?) :=
        List.filter_cons_of_neg (p := Outcome.isFor target?) hother
      rw [hfirst, List.filter_cons_of_neg hother]
      exact ih (hm.receive d) hm' hafter

/-- A delivery that names nothing changes nothing, so it comes to the same at any time. -/
theorem outcomes_of_unnamed {ds : List Delivery} (hm : m.Keyed)
    (hds : ∀ d ∈ ds, d.target? = none) : m.outcomes ds = ds.map fun d => ⟨d, (d.run {}).1⟩ := by
  induction ds generalizing m with
  | nil => rfl
  | cons d ds ih =>
    have hd := hds d List.mem_cons_self
    have hsame : SameAt d.target? m {} := by
      intro kind id hname
      rw [hd] at hname
      cases hname
    rw [outcomes, List.map_cons, (hsame.receive hm).1,
      ih (hm.receive d) fun d hmem => hds d (List.mem_cons_of_mem _ hmem)]

end ReadModels

/-! ## Two runs -/

/-- The same deliveries, and for each read model in the same order. -/
structure Reordered (xs ys : List Delivery) : Prop where
  perm : xs.Perm ys
  order : ∀ kind id, xs.filter (·.isFor (some (kind, id))) = ys.filter (·.isFor (some (kind, id)))

/-- Neighbours for different read models may change places. -/
theorem Reordered.swap {d e : Delivery} (h : d.target? ≠ e.target?) (before after : List Delivery) :
    Reordered (before ++ d :: e :: after) (before ++ e :: d :: after) where
  perm := (List.Perm.swap e d after).append_left before
  order kind id := by
    rw [List.filter_append, List.filter_append]
    by_cases hd : d.isFor (some (kind, id)) = true
    · have he : ¬ e.isFor (some (kind, id)) = true := by
        intro he
        exact h ((Delivery.isFor_iff.mp hd).trans (Delivery.isFor_iff.mp he).symm)
      rw [List.filter_cons_of_pos hd, List.filter_cons_of_neg he, List.filter_cons_of_neg he,
        List.filter_cons_of_pos hd]
    · rw [List.filter_cons_of_neg hd]
      by_cases he : e.isFor (some (kind, id)) = true
      · rw [List.filter_cons_of_pos he, List.filter_cons_of_pos he, List.filter_cons_of_neg hd]
      · rw [List.filter_cons_of_neg he, List.filter_cons_of_neg he, List.filter_cons_of_neg hd]

/-- The same read models and the same outcomes, seen from each read model in the same order. -/
structure ReadModels.SameEffect (m : ReadModels) (xs ys : List Delivery) : Prop where
  models : m.receiveAll xs = m.receiveAll ys
  outcomes : (m.outcomes xs).Perm (m.outcomes ys)
  order : ∀ kind id, (m.outcomes xs).filter (·.isFor (some (kind, id))) =
    (m.outcomes ys).filter (·.isFor (some (kind, id)))
  getOrder : ∀ out id, (m.receiveAll xs).getOrder out id = (m.receiveAll ys).getOrder out id
  getAvailableMenuItems : ∀ out,
    (m.receiveAll xs).getAvailableMenuItems out = (m.receiveAll ys).getAvailableMenuItems out

namespace ReadModels

variable {m : ReadModels} {xs ys : List Delivery}

theorem Keyed.order_outcomes (hm : m.Keyed) (h : Reordered xs ys) (kind : ReadModelKind)
    (id : String) :
    (m.outcomes xs).filter (·.isFor (some (kind, id))) =
      (m.outcomes ys).filter (·.isFor (some (kind, id))) := by
  rw [(outcomes_filter hm hm .refl xs).1, h.order kind id,
    (outcomes_filter hm hm .refl ys).1]

theorem Keyed.perm_outcomes (hm : m.Keyed) (h : Reordered xs ys) :
    (m.outcomes xs).Perm (m.outcomes ys) := by
  classical
  refine List.perm_iff_count.mpr ?_
  rintro ⟨d, r⟩
  -- an outcome is counted among those for the same read model
  have hcount (ds : List Delivery) : (m.outcomes ds).count ⟨d, r⟩ =
      ((m.outcomes ds).filter (·.isFor d.target?)).count ⟨d, r⟩ :=
    (List.count_filter (a := ⟨d, r⟩) (p := Outcome.isFor d.target?) d.isFor_target?).symm
  rw [hcount, hcount]
  cases htarget : d.target? with
  | some target => rw [hm.order_outcomes h target.1 target.2]
  | none =>
    have hmap (ds : List Delivery) : (m.outcomes ds).filter (·.isFor none) =
        (ds.filter (·.isFor none)).map fun d => ⟨d, (d.run {}).1⟩ := by
      rw [(outcomes_filter hm hm .refl ds).1]
      exact outcomes_of_unnamed hm fun d hd => Delivery.isFor_iff.mp (List.mem_filter.mp hd).2
    rw [hmap, hmap]
    exact ((h.perm.filter _).map _).count_eq _

theorem Keyed.receiveAll_eq (hm : m.Keyed) (h : Reordered xs ys) :
    m.receiveAll xs = m.receiveAll ys := by
  refine ext_shown ?_
  intro kind id
  have hxs := (outcomes_filter hm hm .refl xs).2 kind id rfl
  have hys := (outcomes_filter hm hm .refl ys).2 kind id rfl
  rw [h.order kind id] at hxs
  exact hxs.symm.trans hys

/-- Deliveries may change their places as long as the order for each read model stays. -/
theorem Stored.reordered (hm : m.Stored) (h : Reordered xs ys) : m.SameEffect xs ys := by
  have hkeyed := hm.keyed_shown
  have hmodels := hkeyed.receiveAll_eq h
  exact {
    models := hmodels
    outcomes := hkeyed.perm_outcomes h
    order := hkeyed.order_outcomes h
    getOrder := fun out id => by rw [hmodels]
    getAvailableMenuItems := fun out => by rw [hmodels] }

end ReadModels

/-- An id may be written as a number. -/
def Delivery.placing : Delivery where
  kind := .order
  eventType := "OrderPlaced"
  data := [("order_id", .int 7), ("table_number", .str " 3")]

/-- The id of an order may be that of a menu item too. -/
def Delivery.creating : Delivery where
  kind := .menuItem
  eventType := "MenuItemCreated"
  data := [("menu_item_id", .str "7")]

theorem placing_and_creating_reordered :
    ReadModels.Stored {} ∧
      Reordered [.placing, .creating] [.creating, .placing] ∧
      (ReadModels.outcomes {} [.creating, .placing]).map Outcome.result =
        [.error (.error (.missingField "MenuItemCreated" "name")), .ok ()] ∧
      ReadModels.SameEffect {} [.placing, .creating] [.creating, .placing] := by
  have hswap : Reordered [.placing, .creating] [.creating, .placing] :=
    Reordered.swap (by decide) [] []
  exact ⟨.empty, hswap, rfl, ReadModels.Stored.reordered .empty hswap⟩

end TableService
