import TableService.Proofs.Json.Scalars

/-!
# JSON text is read as it was written

- `Json.Exact`: values without floating-point numbers, whose whole numbers have 64 bits and whose
  objects have each key once.
- `Json.Reader.ReadsBack`: from the front of a text a value is read as it was written.
- `Json.ofText?_text`: so it is for every exact value.

Floating-point numbers are left out, since it depends on how they are written whether they are read
as the same number.
-/

namespace TableService

namespace Json

open Text Numeral

/-- Values that their texts tell in full. -/
inductive Exact : Json → Prop where
  | null : Exact null
  | bool (b : Bool) : Exact (bool b)
  | int {n : Int} (hlow : -limit63 ≤ n) (hhigh : n < limit64) : Exact (int n)
  | str (s : String) : Exact (str s)
  | arr {items : List Json} (hitems : ∀ v ∈ items, Exact v) : Exact (arr items)
  | obj {fields : Payload} (hkeys : (fields.map Prod.fst).Nodup)
      (hfields : ∀ p ∈ fields, Exact p.2) : Exact (obj fields)

theorem itemChars_cons_cons (v w : Json) (items : List Json) :
    itemChars (v :: w :: items) = v.toChars ++ ',' :: itemChars (w :: items) := by
  rw [itemChars]
  exact nofun

theorem fieldChars_cons_cons (k : String) (v : Json) (p : String × Json) (fields : Payload) :
    fieldChars ((k, v) :: p :: fields) =
      quote k ++ ':' :: v.toChars ++ ',' :: fieldChars (p :: fields) := by
  rw [fieldChars]
  exact nofun

theorem quote_append (s : String) (rest : List Char) :
    quote s ++ rest = '"' :: (s.toList.flatMap escapeChar ++ '"' :: rest) := by
  simp [quote]

namespace Reader

theorem stops_nil : Stops [] := nofun

/-- A number ends where a mark between values stands. -/
theorem stops_cons {c : Char} (hc : c ∈ [',', ']', '\x7d']) (rest : List Char) :
    Stops (c :: rest) := by
  rintro _ ⟨⟩
  simp only [List.mem_cons, List.not_mem_nil, or_false] at hc
  rcases hc with rfl | rfl | rfl <;> decide

/-- The text begins with no blank. -/
def Solid (cs : List Char) : Prop :=
  ∀ c ∈ cs.head?, (c == ' ' || c == '\t' || c == '\n' || c == '\r') = false

theorem skip_of_solid {cs : List Char} (h : Solid cs) : skip cs = cs := by
  cases cs with
  | nil => rfl
  | cons c cs => exact List.dropWhile_cons_of_neg (Bool.eq_false_iff.mp (h c rfl))

/-- From the front of a text the value is read, and what is behind it is left. Two steps for each
character are enough. -/
def ReadsBack (v : Json) : Prop :=
  ∀ {fuel : Nat} {rest : List Char}, 2 * v.toChars.length ≤ fuel + 1 → Stops rest →
    value? (fuel + 1) (v.toChars ++ rest) = some (v, rest)

/-! ## Values without values inside them -/

theorem solid_cons {c : Char} (hc : c.isDigit = true ∨ c ∈ ['n', 't', 'f', '"', '[', '\x7b', '-'])
    (cs : List Char) : Solid (c :: cs) := by
  rintro _ ⟨⟩
  rcases hc with hdigit | hmark
  · cases hblank : (c == ' ' || c == '\t' || c == '\n' || c == '\r') with
    | false => rfl
    | true =>
      simp only [Bool.or_eq_true, beq_iff_eq] at hblank
      rcases hblank with ((rfl | rfl) | rfl) | rfl <;> cases hdigit
  · simp only [List.mem_cons, List.not_mem_nil, or_false] at hmark
    rcases hmark with rfl | rfl | rfl | rfl | rfl | rfl | rfl <;> rfl

/-- The first character of an exact value. -/
theorem exists_toChars_eq_cons {v : Json} (h : v.Exact) : ∃ c cs, v.toChars = c :: cs ∧
    (c.isDigit = true ∨ c ∈ ['n', 't', 'f', '"', '[', '\x7b', '-']) := by
  cases h with
  | null => exact ⟨_, _, rfl, by decide⟩
  | bool b => cases b <;> exact ⟨_, _, rfl, by decide⟩
  | @int n hlow hhigh =>
    rw [toChars, ofInt]
    split
    · exact ⟨_, _, rfl, by decide⟩
    · obtain ⟨c, cs, hcons⟩ := List.exists_cons_of_ne_nil (ofNat_ne_nil n.natAbs)
      exact ⟨c, cs, hcons, .inl (isDigit_of_mem_ofNat (hcons ▸ List.mem_cons_self))⟩
  | str s => exact ⟨_, _, rfl, by decide⟩
  | arr hitems => exact ⟨_, _, rfl, by decide⟩
  | obj hkeys hfields => exact ⟨_, _, rfl, by decide⟩

theorem readsBack_null : ReadsBack null := fun _ _ => rfl

theorem readsBack_bool (b : Bool) : ReadsBack (bool b) := by
  intro fuel rest _ _
  cases b with
  | false => rfl
  | true => rfl

/-- What begins with a digit or a minus sign is read as a number. -/
theorem value?_ofInt (n : Int) (fuel : Nat) (rest : List Char) :
    value? (fuel + 1) (ofInt n ++ rest) = number? (ofInt n ++ rest) := by
  rw [ofInt]
  split
  · rfl
  · have hsolid : Solid (ofNat n.natAbs ++ rest) := by
      obtain ⟨c, cs, hcons⟩ := List.exists_cons_of_ne_nil (ofNat_ne_nil n.natAbs)
      rw [hcons]
      exact solid_cons (.inl (isDigit_of_mem_ofNat (hcons ▸ List.mem_cons_self))) _
    rw [value?, skip_of_solid hsolid]
    split
    -- every other value begins with something that is no digit
    iterate 6
      · rename_i heq
        exact absurd heq (ofNat_append_ne rfl _ _ _)
    rfl

theorem readsBack_int {n : Int} (hlow : -limit63 ≤ n) (hhigh : n < limit64) :
    ReadsBack (int n) := by
  intro fuel rest _ hrest
  rw [toChars, value?_ofInt, number?_ofInt hlow hhigh hrest]

theorem readsBack_str (s : String) : ReadsBack (str s) := by
  intro fuel rest _ _
  have hread : value? (fuel + 1) ('"' :: (s.toList.flatMap escapeChar ++ '"' :: rest)) =
      (string? (s.toList.flatMap escapeChar ++ '"' :: rest)).map fun p => (str p.1, p.2) := rfl
  rw [toChars, quote_append, hread, string?_quote, Option.map_some]

/-! ## Values with values inside them -/

/-- One value after the other is read up to the closing bracket. -/
theorem items?_itemChars {items : List Json} (hne : items ≠ [])
    (hread : ∀ v ∈ items, ReadsBack v) {fuel : Nat} {rest : List Char}
    (hfuel : 2 * (itemChars items).length ≤ fuel + 1) :
    items? (fuel + 2) (itemChars items ++ ']' :: rest) = some (items, rest) := by
  induction items generalizing fuel with
  | nil => exact absurd rfl hne
  | cons v items ih =>
    -- the comma behind the first value pays for the step to the next one
    have hv : ReadsBack v := hread v List.mem_cons_self
    cases items with
    | nil =>
      rw [itemChars] at hfuel ⊢
      rw [items?, hv hfuel (stops_cons (by decide) rest)]
      rfl
    | cons w items =>
      rw [itemChars_cons_cons, List.length_append, List.length_cons] at hfuel
      obtain ⟨fuel, rfl⟩ : ∃ k, fuel = k + 1 := ⟨fuel - 1, by omega⟩
      have hrest : items? (fuel + 2) (itemChars (w :: items) ++ ']' :: rest) =
          some (w :: items, rest) :=
        ih nofun (fun v hv => hread v (List.mem_cons_of_mem _ hv)) (by omega)
      rw [itemChars_cons_cons, List.append_assoc, List.cons_append, items?,
        hv (by omega) (stops_cons (by decide) _), Option.bind_eq_bind, Option.bind_some]
      show (items? (fuel + 2) (itemChars (w :: items) ++ ']' :: rest)).map
        (fun p => (v :: p.1, p.2)) = some (v :: w :: items, rest)
      rw [hrest, Option.map_some]

theorem value?_bracket {cs : List Char} (hsolid : Solid cs) (hclose : cs.head? ≠ some ']')
    (fuel : Nat) :
    value? (fuel + 1) ('[' :: cs) = (items? fuel cs).map fun p => (arr p.1, p.2) := by
  rw [value?, skip_of_solid (solid_cons (.inr (by decide)) cs)]
  split
  case h_5 =>
    rename_i heq
    obtain rfl := (List.cons.inj heq).2
    rw [skip_of_solid hsolid]
    split
    · exact absurd rfl hclose
    · rfl
  case h_7 =>
    rename_i hbracket _
    exact absurd rfl (hbracket cs)
  all_goals
    rename_i heq
    exact absurd (List.cons.inj heq).1 (by decide)

theorem readsBack_arr {items : List Json} (hitems : ∀ v ∈ items, v.Exact)
    (hread : ∀ v ∈ items, ReadsBack v) : ReadsBack (arr items) := by
  intro fuel rest hfuel _
  have hchars : (arr items).toChars ++ rest = '[' :: (itemChars items ++ ']' :: rest) := by
    simp [toChars]
  have hlength : (arr items).toChars.length = (itemChars items).length + 2 := by
    simp [toChars]
  obtain ⟨fuel, rfl⟩ : ∃ k, fuel = k + 2 := ⟨fuel - 2, by omega⟩
  rw [hchars]
  cases items with
  | nil => rfl
  | cons v items =>
    obtain ⟨c, cs, hcons, hc⟩ := exists_toChars_eq_cons (hitems v List.mem_cons_self)
    obtain ⟨cs', hopen⟩ : ∃ cs', itemChars (v :: items) ++ ']' :: rest = c :: cs' := by
      cases items with
      | nil => exact ⟨_, by rw [itemChars, hcons, List.cons_append]⟩
      | cons w items =>
        exact ⟨_, by rw [itemChars_cons_cons, hcons, List.cons_append, List.cons_append]⟩
    have hclose : (itemChars (v :: items) ++ ']' :: rest).head? ≠ some ']' := by
      rw [hopen]
      rintro ⟨⟩
      rcases hc with hdigit | hmark
      · cases hdigit
      · exact absurd hmark (by decide)
    have hsolid : Solid (itemChars (v :: items) ++ ']' :: rest) := by
      rw [hopen]
      exact solid_cons hc cs'
    rw [value?_bracket hsolid hclose, items?_itemChars (List.cons_ne_nil v items) hread (by omega),
      Option.map_some]

/-- Behind a key and its value comes the closing brace or the next key. -/
theorem pairs?_quote (k : String) (fuel : Nat) (cs : List Char) :
    ∃ next : Json × List Char → Option (Payload × List Char),
      pairs? (fuel + 1) (quote k ++ ':' :: cs) = (value? fuel cs).bind next ∧
      (∀ v rest, next (v, '\x7d' :: rest) = some ([(k, v)], rest)) ∧
      ∀ v rest, next (v, ',' :: rest) =
        (pairs? fuel rest).map fun p => ((k, v) :: p.1, p.2) := by
  rw [quote_append, pairs?, skip_of_solid (solid_cons (.inr (by decide)) _)]
  split
  · rename_i heq
    obtain rfl := (List.cons.inj heq).2
    rw [string?_quote, Option.bind_eq_bind, Option.bind_some]
    exact ⟨_, rfl, fun _ _ => rfl, fun _ _ => rfl⟩
  · rename_i hquote
    exact absurd rfl (hquote _)

/-- One key and value after the other is read up to the closing brace. -/
theorem pairs?_fieldChars {fields : Payload} (hne : fields ≠ [])
    (hread : ∀ p ∈ fields, ReadsBack p.2) {fuel : Nat} {rest : List Char}
    (hfuel : 2 * (fieldChars fields).length ≤ fuel + 1) :
    pairs? (fuel + 2) (fieldChars fields ++ '\x7d' :: rest) = some (fields, rest) := by
  induction fields generalizing fuel with
  | nil => exact absurd rfl hne
  | cons p fields ih =>
    obtain ⟨k, v⟩ := p
    have hv : ReadsBack v := hread (k, v) List.mem_cons_self
    cases fields with
    | nil =>
      rw [fieldChars] at hfuel ⊢
      rw [List.length_append, List.length_cons] at hfuel
      obtain ⟨next, hnext, hend, -⟩ := pairs?_quote k (fuel + 1) (v.toChars ++ '\x7d' :: rest)
      rw [List.append_assoc, List.cons_append, hnext,
        hv (by omega) (stops_cons (by decide) rest), Option.bind_some, hend]
    | cons q fields =>
      rw [fieldChars_cons_cons, List.length_append, List.length_append, List.length_cons,
        List.length_cons] at hfuel
      obtain ⟨fuel, rfl⟩ : ∃ k, fuel = k + 1 := ⟨fuel - 1, by omega⟩
      have hrest : pairs? (fuel + 2) (fieldChars (q :: fields) ++ '\x7d' :: rest) =
          some (q :: fields, rest) :=
        ih nofun (fun p hp => hread p (List.mem_cons_of_mem _ hp)) (by omega)
      obtain ⟨next, hnext, -, hmore⟩ := pairs?_quote k (fuel + 2)
        (v.toChars ++ ',' :: (fieldChars (q :: fields) ++ '\x7d' :: rest))
      rw [fieldChars_cons_cons, List.append_assoc, List.append_assoc, List.cons_append,
        List.cons_append, hnext, hv (by omega) (stops_cons (by decide) _), Option.bind_some, hmore,
        hrest, Option.map_some]

theorem readsBack_obj {fields : Payload} (hkeys : (fields.map Prod.fst).Nodup)
    (hread : ∀ p ∈ fields, ReadsBack p.2) : ReadsBack (obj fields) := by
  intro fuel rest hfuel _
  have hchars : (obj fields).toChars ++ rest = '\x7b' :: (fieldChars fields ++ '\x7d' :: rest) := by
    simp [toChars]
  have hlength : (obj fields).toChars.length = (fieldChars fields).length + 2 := by
    simp [toChars]
  obtain ⟨fuel, rfl⟩ : ∃ k, fuel = k + 2 := ⟨fuel - 2, by omega⟩
  rw [hchars]
  cases fields with
  | nil => rfl
  | cons p fields =>
    obtain ⟨k, v⟩ := p
    obtain ⟨cs, hopen⟩ : ∃ cs, fieldChars ((k, v) :: fields) ++ '\x7d' :: rest = '"' :: cs := by
      cases fields with
      | nil => exact ⟨_, by rw [fieldChars, List.append_assoc, quote_append]⟩
      | cons q fields =>
        exact ⟨_, by
          rw [fieldChars_cons_cons, List.append_assoc, List.append_assoc, quote_append]⟩
    have hpairs : pairs? (fuel + 2) (fieldChars ((k, v) :: fields) ++ '\x7d' :: rest) =
        some ((k, v) :: fields, rest) :=
      pairs?_fieldChars (List.cons_ne_nil _ fields) hread (by omega)
    have hstep : value? (fuel + 2 + 1) ('\x7b' :: '"' :: cs) =
        (pairs? (fuel + 2) ('"' :: cs)).map fun p => (obj (putAll p.1), p.2) := rfl
    rw [hopen] at hpairs ⊢
    rw [hstep, hpairs, Option.map_some, putAll_eq_self hkeys]

end Reader

/-- Every exact value is read from its text. -/
theorem readsBack_of_exact {v : Json} (h : v.Exact) : Reader.ReadsBack v := by
  induction h with
  | null => exact Reader.readsBack_null
  | bool b => exact Reader.readsBack_bool b
  | int hlow hhigh => exact Reader.readsBack_int hlow hhigh
  | str s => exact Reader.readsBack_str s
  | arr hitems ih => exact Reader.readsBack_arr hitems ih
  | obj hkeys hfields ih => exact Reader.readsBack_obj hkeys ih

theorem ofText?_text {v : Json} (h : v.Exact) : ofText? v.text = some v := by
  have hlength : v.text.length = v.toChars.length := String.length_ofList
  have hread : Reader.value? (2 * v.text.length + 1) (v.toChars ++ []) = some (v, []) :=
    readsBack_of_exact h (by omega) Reader.stops_nil
  rw [List.append_nil] at hread
  rw [ofText?, text, String.toList_ofList, ← text, hread]
  rfl

end Json

end TableService
