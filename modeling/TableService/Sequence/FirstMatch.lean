/-!
# Changing the first match in a list

- `updateFirst p f l`: `l` with `f` applied to the first element that satisfies `p`.

All other elements keep their place and value; without a match nothing changes.
-/

namespace TableService

/-- Changes the first match where it stands. -/
def updateFirst (p : α → Bool) (f : α → α) : List α → List α
  | [] => []
  | x :: rest => if p x then f x :: rest else x :: updateFirst p f rest

theorem updateFirst_eq_self {p : α → Bool} {l : List α} (f : α → α) (h : ∀ x ∈ l, p x = false) :
    updateFirst p f l = l := by
  induction l with
  | nil => rfl
  | cons x rest ih =>
    simp [updateFirst, h x (by simp), ih fun y hy => h y (by simp [hy])]

/-- The first match is in one place, and it is the one that is changed. -/
theorem exists_updateFirst_eq_set {p : α → Bool} {l : List α} {a : α} (h : l.find? p = some a)
    (f : α → α) : ∃ k : Nat, l[k]? = some a ∧ updateFirst p f l = l.set k (f a) := by
  induction l with
  | nil => cases h
  | cons x rest ih =>
    by_cases hx : p x = true
    · rw [List.find?_cons_of_pos hx, Option.some.injEq] at h
      subst h
      refine ⟨0, rfl, ?_⟩
      rw [updateFirst, if_pos hx]
      rfl
    · rw [List.find?_cons_of_neg hx] at h
      obtain ⟨k, hk, heq⟩ := ih h
      refine ⟨k + 1, hk, ?_⟩
      rw [updateFirst, if_neg hx, heq]
      rfl

/-- The first match stays as it is if it is not changed. -/
theorem updateFirst_of_find? {p : α → Bool} {f : α → α} {l : List α} {a : α}
    (h : l.find? p = some a) (hf : f a = a) : updateFirst p f l = l := by
  obtain ⟨k, hk, heq⟩ := exists_updateFirst_eq_set h f
  obtain ⟨hlt, rfl⟩ := List.getElem?_eq_some_iff.mp hk
  rw [heq, hf]
  exact List.set_getElem_self hlt

/-- The first match, given its place. -/
theorem updateFirst_eq_set {p : α → Bool} {l : List α} {k : Nat} {a : α} (hk : l[k]? = some a)
    (ha : p a = true) (hfirst : ∀ {j b}, j < k → l[j]? = some b → p b = false) (f : α → α) :
    l.find? p = some a ∧ updateFirst p f l = l.set k (f a) := by
  induction l generalizing k with
  | nil => cases hk
  | cons x rest ih =>
    cases k with
    | zero =>
      obtain rfl : x = a := Option.some.inj hk
      rw [updateFirst, if_pos ha]
      exact ⟨List.find?_cons_of_pos ha, rfl⟩
    | succ k =>
      have hx : ¬ p x = true := by
        rw [hfirst (Nat.succ_pos k) (List.getElem?_cons_zero)]
        exact Bool.false_ne_true
      obtain ⟨hfind, hset⟩ := ih hk fun hj hb => hfirst (Nat.succ_lt_succ hj) hb
      rw [List.find?_cons_of_neg hx, updateFirst, if_neg hx, hset]
      exact ⟨hfind, rfl⟩

/-- Whatever is in a place, `f` has been applied to it or not. -/
theorem getElem?_updateFirst {p : α → Bool} {f : α → α} {l : List α} {k : Nat} {a : α}
    (h : l[k]? = some a) :
    (updateFirst p f l)[k]? = some a ∨ (updateFirst p f l)[k]? = some (f a) := by
  induction l generalizing k with
  | nil => cases h
  | cons x rest ih =>
    rw [updateFirst]
    by_cases hx : p x = true
    · rw [if_pos hx]
      cases k with
      | zero =>
        obtain rfl : x = a := Option.some.inj h
        exact .inr rfl
      | succ k => exact .inl h
    · rw [if_neg hx]
      cases k with
      | zero => exact .inl h
      | succ k => exact ih h

/-- What holds of all elements, and what `f` does not take away, holds of all of them behind it. -/
theorem forall_mem_updateFirst {p : α → Bool} {f : α → α} {P : α → Prop} {l : List α}
    (h : ∀ x ∈ l, P x) (hf : ∀ x, P x → P (f x)) : ∀ x ∈ updateFirst p f l, P x := by
  induction l with
  | nil => exact h
  | cons x rest ih =>
    have hrest : ∀ y ∈ rest, P y := fun y hy => h y (List.mem_cons_of_mem _ hy)
    rw [updateFirst]
    split
    · rw [List.forall_mem_cons]
      exact ⟨hf x (h x List.mem_cons_self), hrest⟩
    · rw [List.forall_mem_cons]
      exact ⟨h x List.mem_cons_self, ih hrest⟩

/-- What does not match stays. -/
theorem getElem?_updateFirst_of_not {p : α → Bool} {f : α → α} {l : List α} {k : Nat} {a : α}
    (hk : l[k]? = some a) (ha : p a = false) : (updateFirst p f l)[k]? = some a := by
  induction l generalizing k with
  | nil => cases hk
  | cons x rest ih =>
    rw [updateFirst]
    split
    · rename_i hx
      cases k with
      | zero =>
        obtain rfl : x = a := Option.some.inj hk
        rw [ha] at hx
        cases hx
      | succ k => exact hk
    · cases k with
      | zero => exact hk
      | succ k => exact ih hk

/-- A match behind another one stays, too. -/
theorem getElem?_updateFirst_of_behind {p : α → Bool} {f : α → α} {l : List α} {j k : Nat}
    {a b : α} (hjk : j < k) (hj : l[j]? = some b) (hk : l[k]? = some a)
    (hp : p a = true → p b = true) : (updateFirst p f l)[k]? = some a := by
  induction l generalizing j k with
  | nil => cases hk
  | cons x rest ih =>
    obtain ⟨k, rfl⟩ : ∃ k', k = k' + 1 := ⟨k - 1, by omega⟩
    rw [updateFirst]
    split
    · exact hk
    · rename_i hx
      cases j with
      | zero =>
        obtain rfl : x = b := Option.some.inj hj
        exact getElem?_updateFirst_of_not hk (Bool.eq_false_iff.mpr fun ha => hx (hp ha))
      | succ j => exact ih (by omega) hj hk

/-- To change the first match once more changes nothing, if one change is enough. -/
theorem updateFirst_updateFirst {p : α → Bool} {f : α → α} (hp : ∀ x, p (f x) = p x)
    (hf : ∀ x, f (f x) = f x) (l : List α) :
    updateFirst p f (updateFirst p f l) = updateFirst p f l := by
  induction l with
  | nil => rfl
  | cons x rest ih =>
    by_cases hx : p x = true
    · have hfx : p (f x) = true := (hp x).trans hx
      simp only [updateFirst, if_pos hx, if_pos hfx, hf]
    · simp only [updateFirst, if_neg hx, ih]

/-- A function of the elements that `f` does not touch is the same before and after. -/
theorem map_updateFirst {p : α → Bool} {f : α → α} {g : α → β} (h : ∀ x, g (f x) = g x)
    (l : List α) : (updateFirst p f l).map g = l.map g := by
  induction l with
  | nil => rfl
  | cons x rest ih => simp only [updateFirst]; split <;> simp [ih, h]

end TableService
