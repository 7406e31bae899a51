import TableService.Proofs.Command.Outcome

/-!
# Programs among others

Between two requests of a program anything may happen that others do to the stores. What a program
can count on is that the stores only move forward: a key whose version is the same has the same
value.

- `Backend.Advances`: how what is shared moves forward.
- `Course`: a run as one program sees it: what is shared at each moment, and the moments at which it
  is the program's turn.
- `Program.Among`: what holds at every successful commit of a program, and at its end, if the
  program goes on along a course.
- `among_bind` and one lemma for each request take a command apart.
-/

namespace TableService

open UnitOfWork

/-! ## What is shared moves forward -/

/-- Each key has kept its value, or has been committed again. -/
def Table.Advances {α : Type} (before after : Table (Versioned α)) : Prop :=
  ∀ id : String, after[id]? = before[id]? ∨ versionOf before id < versionOf after id

namespace Table.Advances

variable {α : Type} {a b c : Table (Versioned α)} {id : String}

theorem refl (a : Table (Versioned α)) : a.Advances a := fun _ => .inl rfl

theorem version_le (h : a.Advances b) : versionOf a id ≤ versionOf b id := by
  rcases h id with heq | hlt
  · exact Nat.le_of_eq (congrArg (fun v => (v.map Versioned.version).getD 0) heq.symm)
  · exact Nat.le_of_lt hlt

theorem trans (h : a.Advances b) (h' : b.Advances c) : a.Advances c := by
  intro id
  rcases h id with heq | hlt
  · rcases h' id with heq' | hlt'
    · exact .inl (heq'.trans heq)
    · refine .inr ?_
      rw [versionOf, ← heq]
      exact hlt'
  · exact .inr (Nat.lt_of_lt_of_le hlt h'.version_le)

/-- A key at the same version has the same value. -/
theorem getElem?_eq (h : a.Advances b) (hv : versionOf a id = versionOf b id) :
    b[id]? = a[id]? := by
  rcases h id with heq | hlt
  · exact heq
  · exact absurd hv (Nat.ne_of_lt hlt)

/-- What is there stays there. -/
theorem exists_of_some {v : Versioned α} (h : a.Advances b) (hv : a[id]? = some v) :
    ∃ now, b[id]? = some now ∧ (now = v ∨ v.version < now.version) := by
  rcases h id with heq | hlt
  · exact ⟨v, heq.trans hv, .inl rfl⟩
  · simp only [versionOf, hv] at hlt
    cases hnow : b[id]? with
    | none =>
      rw [hnow] at hlt
      exact absurd hlt (Nat.not_lt_zero _)
    | some now =>
      rw [hnow] at hlt
      exact ⟨now, rfl, .inr hlt⟩

end Table.Advances

theorem StagedTable.advances_merge {α : Type} (t : StagedTable α)
    (committed : Table (Versioned α)) : committed.Advances (t.merge committed) := by
  intro id
  rw [versionOf, versionOf, getElem?_merge]
  cases t.staged[id]? with
  | none => exact .inl rfl
  | some value => exact .inr (Nat.lt_succ_self _)

/-- How what is shared moves forward. -/
structure Backend.Advances (b b' : Backend) : Prop where
  orders : b.stores.orders.Advances b'.stores.orders
  menuItems : b.stores.menuItems.Advances b'.stores.menuItems
  text : b'.ids.text = b.ids.text
  used : b.ids.used ≤ b'.ids.used

namespace Backend.Advances

variable {a b c : Backend}

theorem of_eq (hstores : b.stores = a.stores) (hids : b.ids = a.ids) : a.Advances b where
  orders := hstores ▸ .refl _
  menuItems := hstores ▸ .refl _
  text := congrArg IdSource.text hids
  used := Nat.le_of_eq (congrArg IdSource.used hids).symm

theorem trans (h : a.Advances b) (h' : b.Advances c) : a.Advances c where
  orders := h.orders.trans h'.orders
  menuItems := h.menuItems.trans h'.menuItems
  text := h'.text.trans h.text
  used := Nat.le_trans h.used h'.used

end Backend.Advances

theorem Request.advances_answer (b : Backend) (u : UnitOfWork) (r : Request) :
    b.Advances (r.answer b u).2.1 := by
  cases r with
  | unit act =>
    rcases stores_perform b.stores u act with h | ⟨-, o, -, -, h⟩
    · exact .of_eq h rfl
    · have hstores : ((Request.unit act).answer b u).2.1.stores = o.merge b.stores := h
      constructor
      · rw [hstores]
        exact o.orders.advances_merge _
      · rw [hstores]
        exact o.menuItems.advances_merge _
      · rfl
      · exact Nat.le_refl _
  | now => exact .of_eq rfl rfl
  | nextId => exact ⟨.refl _, .refl _, rfl, Nat.le_succ _⟩

/-! ## Courses -/

/-- A run as one program sees it. -/
structure Course where
  backend : Nat → Backend
  /-- It is the program's turn, and with this unit of work it asks this request. -/
  turn : Nat → UnitOfWork → Request → Prop
  answered {i : Nat} {u : UnitOfWork} {r : Request} : turn i u r →
    backend (i + 1) = (r.answer (backend i) u).2.1
  advances_succ (i : Nat) : (backend i).Advances (backend (i + 1))
  settled (i : Nat) : (backend i).stores.Settled

namespace Course

variable {c : Course} {i j : Nat}

/-- The committed state after so many requests. -/
def stores (c : Course) (i : Nat) : Stores := (c.backend i).stores

theorem advances (c : Course) (h : i ≤ j) : (c.backend i).Advances (c.backend j) := by
  induction h with
  | refl => exact .of_eq rfl rfl
  | step _ ih => exact ih.trans (c.advances_succ _)

/-- It is the program's turn to commit this overlay, and the commit succeeds. -/
def Commits (c : Course) (i : Nat) (o : Overlay) : Prop :=
  c.turn i (some o) (.unit .commit) ∧ o.conflict? (c.stores i) = none

theorem Commits.stores_eq {o : Overlay} (h : c.Commits i o) :
    c.stores (i + 1) = o.merge (c.stores i) := by
  obtain ⟨hturn, hc⟩ := h
  change o.conflict? (c.backend i).stores = none at hc
  have hmerge : ((Request.unit .commit).answer (c.backend i) (some o)).2.1.stores =
      o.merge (c.backend i).stores := by
    simp only [Request.answer, perform, hc]
  rw [stores, c.answered hturn, hmerge]
  rfl

end Course

/-! ## Programs along a course -/

/-- If the program goes on from the moment `i` with the unit `u`, `F` holds at each of its
successful commits, and `Q` when it ends. -/
def Program.Among {α : Type} (c : Course) (F : Nat → Prop)
    (Q : α → Nat → UnitOfWork → Prop) : Program α → Nat → UnitOfWork → Prop
  | done a, i, u => Q a i u
  | ask r next, i, u => ∀ j, i ≤ j → c.turn j u r →
    (∀ o, r = .unit .commit → u = some o → c.Commits j o → F j) ∧
      (next (r.answer (c.backend j) u).1).Among c F Q (j + 1) (r.answer (c.backend j) u).2.2

section

variable {c : Course} {F : Nat → Prop} {i : Nat} {u : UnitOfWork} {α β : Type}

theorem Program.among_bind {Q : β → Nat → UnitOfWork → Prop} (p : Program α)
    (f : α → Program β) :
    (p >>= f).Among c F Q i u ↔ p.Among c F (fun a i u => (f a).Among c F Q i u) i u := by
  change (p.bind f).Among c F Q i u ↔ _
  induction p generalizing i u with
  | done a => rfl
  | ask r next ih =>
    refine forall_congr' fun j => imp_congr_right fun _ => imp_congr_right fun _ => ?_
    exact and_congr_right fun _ => ih _

/-- At the end it may be relied on that time has not gone back. -/
theorem Program.Among.mono {Q R : α → Nat → UnitOfWork → Prop} {p : Program α}
    (h : p.Among c F Q i u) (hQ : ∀ a j u, i ≤ j → Q a j u → R a j u) : p.Among c F R i u := by
  induction p generalizing i u with
  | done a => exact hQ a i u (Nat.le_refl i) h
  | ask r next ih =>
    intro j hj hturn
    obtain ⟨hF, hnext⟩ := h j hj hturn
    refine ⟨hF, ih _ hnext fun a k u hk => hQ a k u ?_⟩
    omega

/-- Others may go on in the meantime. -/
theorem Program.Among.later {Q : α → Nat → UnitOfWork → Prop} {p : Program α}
    (h : p.Among c F Q i u) (hQ : ∀ a u, Q a i u → Q a (i + 1) u) : p.Among c F Q (i + 1) u := by
  cases p with
  | done a => exact hQ a u h
  | ask r next => exact fun j hj => h j (by omega)

namespace CommandM

/-- The same of a part of a command, which ends with `Q` unless it is refused. -/
structure Among (c : Course) (F : Nat → Prop) (m : CommandM α)
    (Q : α → Nat → UnitOfWork → Prop) (i : Nat) (u : UnitOfWork) : Prop where
  program : Program.Among c F (fun r j u => ∀ a, r = .ok a → Q a j u) m.run i u

theorem among_pure {Q : α → Nat → UnitOfWork → Prop} {a : α} (h : Q a i u) :
    Among c F (pure a) Q i u where
  program a' ha := by
    cases ha
    exact h

theorem among_throw {Q : α → Nat → UnitOfWork → Prop} (e : CommandError) :
    Among c F (throw e : CommandM α) Q i u where
  program a ha := by cases ha

theorem among_bind {Q : β → Nat → UnitOfWork → Prop} {m : CommandM α} {f : α → CommandM β}
    (h : Among c F m (fun a j u => Among c F (f a) Q j u) i u) : Among c F (m >>= f) Q i u where
  program := by
    rw [ExceptT.run_bind, Program.among_bind]
    refine h.program.mono ?_
    intro r j u _ hr
    cases r with
    | error e =>
      intro b hb
      cases hb
    | ok a => exact (hr a rfl).program

theorem Among.mono {Q R : α → Nat → UnitOfWork → Prop} {m : CommandM α} (h : Among c F m Q i u)
    (hQ : ∀ a j u, i ≤ j → Q a j u → R a j u) : Among c F m R i u where
  program := h.program.mono fun _ j u hj hr a ha => hQ a j u hj (hr a ha)

theorem among_check {ε : Type} {Q : α → Nat → UnitOfWork → Prop} (refusal : ε → CommandError)
    {r : Except ε α} (h : ∀ a, r = .ok a → Q a i u) : Among c F (check refusal r) Q i u where
  program a ha := h a (mapError_ok ha)

/-! ## Requests -/

/-- A request that is not a commit. -/
theorem among_request {r : Request} {Q : r.Reply → Nat → UnitOfWork → Prop}
    (hr : r ≠ .unit .commit)
    (hQ : ∀ j, i ≤ j → c.turn j u r →
      Q (r.answer (c.backend j) u).1 (j + 1) (r.answer (c.backend j) u).2.2) :
    Among c F (ExceptT.lift (Program.request r)) Q i u where
  program j hj hturn := by
    refine ⟨fun _ hcommit => absurd hcommit hr, fun a ha => ?_⟩
    cases ha
    exact hQ j hj hturn

/-- A request that only an open unit grants. -/
theorem among_ofUnit {p : Program (Within α)} {Q : α → Nat → UnitOfWork → Prop}
    (h : Among c F (ExceptT.lift p) (fun r j u => ∀ a, r = .ok a → Q a j u) i u) :
    Among c F (ofUnit p) Q i u :=
  among_bind (h.mono fun _ _ _ _ hr => among_check _ hr)

theorem among_now {Q : Instant → Nat → UnitOfWork → Prop}
    (hQ : ∀ j, i ≤ j → Q (c.backend j).clock (j + 1) u) : Among c F now Q i u :=
  among_request Request.noConfusion fun j hj _ => hQ j hj

/-- The source has given the id away for good. -/
theorem among_nextId {Q : String → Nat → UnitOfWork → Prop}
    (hQ : ∀ j, i ≤ j → (c.backend (j + 1)).ids.used = (c.backend j).ids.used + 1 →
      Q ((c.backend j).ids.text (c.backend j).ids.used) (j + 1) u) : Among c F nextId Q i u :=
  among_request Request.noConfusion fun j hj hturn => hQ j hj (by rw [c.answered hturn]; rfl)

variable {o : Overlay}

theorem among_requireOpen {Q : Unit → Nat → UnitOfWork → Prop}
    (hQ : ∀ j, i ≤ j → Q () (j + 1) (some o)) : Among c F requireOpen Q i (some o) :=
  among_bind (among_request (by simp) fun j hj _ => among_pure (hQ j hj))

theorem among_findOrder {Q : Option Order → Nat → UnitOfWork → Prop} {id : String}
    (hQ : ∀ j, i ≤ j → Q (o.orders.find (c.stores j).orders id).1 (j + 1)
      (some { o with orders := (o.orders.find (c.stores j).orders id).2 })) :
    Among c F (findOrder id) Q i (some o) := by
  refine among_ofUnit (among_request (by simp) fun j hj hturn found hfound => ?_)
  cases hfound
  exact hQ j hj

theorem among_findMenuItem {Q : Option MenuItem → Nat → UnitOfWork → Prop} {id : String}
    (hQ : ∀ j, i ≤ j → c.turn j (some o) (.unit (.findMenuItem id)) →
      Q (o.menuItems.find (c.stores j).menuItems id).1 (j + 1)
        (some { o with menuItems := (o.menuItems.find (c.stores j).menuItems id).2 })) :
    Among c F (findMenuItem id) Q i (some o) := by
  refine among_ofUnit (among_request (by simp) fun j hj hturn found hfound => ?_)
  cases hfound
  exact hQ j hj hturn

theorem among_saveOrder {Q : Unit → Nat → UnitOfWork → Prop} {order : Order}
    (hQ : ∀ j, i ≤ j →
      Q () (j + 1) (some { o with orders := o.orders.save (c.stores j).orders order })) :
    Among c F (saveOrder order) Q i (some o) :=
  among_ofUnit (among_request (by simp) fun j hj _ _ _ => hQ j hj)

theorem among_saveMenuItem {Q : Unit → Nat → UnitOfWork → Prop} {item : MenuItem}
    (hQ : ∀ j, i ≤ j →
      Q () (j + 1) (some { o with menuItems := o.menuItems.save (c.stores j).menuItems item })) :
    Among c F (saveMenuItem item) Q i (some o) :=
  among_ofUnit (among_request (by simp) fun j hj _ _ _ => hQ j hj)

theorem among_saveEntry {Q : Unit → Nat → UnitOfWork → Prop} {entry : Entry}
    (hQ : ∀ j, i ≤ j → Q () (j + 1) (some { o with outbox := o.outbox ++ [entry] })) :
    Among c F (saveEntry entry) Q i (some o) := by
  refine among_bind (among_ofUnit (among_request (by simp) fun j hj _ r hr => ?_))
  refine among_check _ fun a ha => ?_
  subst ha
  change (perform (c.stores j) (some o) (.saveEntry entry)).1 = _ at hr
  change Q () (j + 1) (perform (c.stores j) (some o) (.saveEntry entry)).2.2
  -- an entry whose id is taken is refused
  cases hfound : o.findEntry (c.stores j) entry.id with
  | some _ =>
    simp only [perform, within, Overlay.saveEntry, hfound] at hr
    cases hr
  | none =>
    simp only [perform, within, Overlay.saveEntry, hfound]
    exact hQ j hj

theorem among_commit {Q : Unit → Nat → UnitOfWork → Prop}
    (hF : ∀ j, i ≤ j → c.Commits j o → F j)
    (hQ : ∀ j, i ≤ j → c.Commits j o → Q () (j + 1) (some {})) :
    Among c F commit Q i (some o) := by
  refine among_ofUnit ⟨fun j hj hturn => ⟨fun o' _ ho hc => ?_, fun r hr a ha => ?_⟩⟩
  · obtain rfl := Option.some.inj ho
    exact hF j hj hc
  · obtain rfl := Except.ok.inj hr
    change (perform (c.stores j) (some o) .commit).1 = _ at ha
    change Q a (j + 1) (perform (c.stores j) (some o) .commit).2.2
    cases hc : o.conflict? (c.stores j) with
    | none =>
      simp only [perform, hc]
      exact hQ j hj ⟨hturn, hc⟩
    | some e =>
      simp only [perform, hc] at ha
      cases ha

end CommandM

end

end TableService
