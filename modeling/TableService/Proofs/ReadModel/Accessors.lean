import TableService.Proofs.Text.Numerals
import TableService.Proofs.Text.Trim
import TableService.ReadModel.Fields

/-!
# What is read from a field

- `Fields.AsString`, `Fields.AsNatural`, `Fields.AsDecimal`: which text, natural number or decimal a
  JSON value stands for.
- `Fields.string?_eq_some_iff`, `word?_eq_some_iff`, `decimal?_eq_some_iff`: what is read from a
  value is what it stands for.
- `Fields.Answers`: an accessor gives what the value of its field stands for, or tells what is wrong
  with the field.
- `Fields.accessors_answer`: so do all accessors, for every field of every payload.
-/

namespace TableService

open Text

/-- Whole numbers and floating-point numbers. -/
inductive Json.IsNumber : Json → Prop
  | int (n : Int) : IsNumber (int n)
  | float (x : Binary64) : IsNumber (float x)

namespace Fields

/-! ## What a value stands for -/

/-- A text stands for itself, and a number for its text in JSON. -/
inductive AsString : Json → String → Prop
  | text (s : String) : AsString (.str s) s
  | number {v : Json} (hv : v.IsNumber) : AsString v v.text

/-- A whole number below the bound, or a numeral of one with blanks around it. A floating-point
number is none, even if it has no places. -/
inductive AsNatural (bound : Nat) : Json → Nat → Prop
  | int {n : Nat} (hn : n < bound) : AsNatural bound (.int n) n
  | text {s : String} {numeral : List Char} {n : Nat} (hs : Trimmed s.toList numeral)
      (hnumeral : Numeral.Denotes numeral n) (hn : n < bound) : AsNatural bound (.str s) n

/-- The decimal of a text between blanks, or of the text of a number. -/
inductive AsDecimal : Json → Decimal → Prop
  | text {s t : String} {d : Decimal} (hs : Trimmed s.toList t.toList)
      (ht : Decimal.ofText? t = some d) : AsDecimal (.str s) d
  | number {v : Json} {d : Decimal} (hv : v.IsNumber) (ht : Decimal.ofText? v.text = some d) :
      AsDecimal v d

/-- A lower bound may be looked at later. -/
theorem asNatural_iff_of_le {bound wide : Nat} (h : bound ≤ wide) {v : Json} {n : Nat} :
    AsNatural bound v n ↔ AsNatural wide v n ∧ n < bound := by
  constructor
  · rintro (hn | ⟨hs, hnumeral, hn⟩)
    · exact ⟨.int (Nat.lt_of_lt_of_le hn h), hn⟩
    · exact ⟨.text hs hnumeral (Nat.lt_of_lt_of_le hn h), hn⟩
  · rintro ⟨hn | ⟨hs, hnumeral, -⟩, hlt⟩
    · exact .int hlt
    · exact .text hs hnumeral hlt

/-! ## What is read from a value -/

variable {v : Json}

/-- A value that is neither a text nor a number stands for nothing. -/
theorem text_or_isNumber (v : Json) :
    (∃ s, v = .str s) ∨ v.IsNumber ∨ string? v = none ∧ decimal? v = none := by
  cases v with
  | str s => exact .inl ⟨s, rfl⟩
  | int n => exact .inr (.inl (.int n))
  | float x => exact .inr (.inl (.float x))
  | _ => exact .inr (.inr ⟨rfl, rfl⟩)

theorem numeral?_of_isNumber (hv : v.IsNumber) : v.numeral? = some v.toChars := by
  cases hv with
  | int n => rw [Json.numeral?, Json.toChars]
  | float x => rw [Json.numeral?, Json.toChars]

theorem string?_of_isNumber (hv : v.IsNumber) : string? v = some v.text := by
  have hread : string? v = v.numeral?.map String.ofList := by cases hv <;> rfl
  rw [hread, numeral?_of_isNumber hv]
  rfl

theorem string?_eq_some_iff {s : String} : string? v = some s ↔ AsString v s := by
  constructor
  · intro h
    rcases text_or_isNumber v with ⟨t, rfl⟩ | hv | ⟨hnone, -⟩
    · exact Option.some.inj h ▸ .text t
    · rw [string?_of_isNumber hv] at h
      exact Option.some.inj h ▸ .number hv
    · rw [hnone] at h
      cases h
  · rintro (s | hv)
    · rfl
    · exact string?_of_isNumber hv

theorem natural?_eq_some_iff {n : Nat} : natural? v = some n ↔ AsNatural limit64 v n := by
  constructor
  · intro h
    cases v with
    | int m =>
      rw [natural?] at h
      split at h
      · rename_i hrange
        obtain ⟨n, rfl⟩ := Int.eq_ofNat_of_zero_le hrange.1
        exact Option.some.inj h ▸ .int (Int.ofNat_lt.mp hrange.2)
      · cases h
    | str s =>
      obtain ⟨hnumeral, hn⟩ := Numeral.unsigned?_eq_some_iff.mp h
      exact .text (trimmed_trimChars s.toList) hnumeral hn
    | _ => cases h
  · rintro (hn | ⟨hs, hnumeral, hn⟩)
    · rw [natural?, if_pos ⟨Int.natCast_nonneg n, Int.ofNat_lt.mpr hn⟩, Int.toNat_natCast]
    · rw [natural?, trimChars_eq_iff.mpr hs]
      exact Numeral.unsigned?_eq_some_iff.mpr ⟨hnumeral, hn⟩

/-- The number is read with 64 bits and then has to have 32; that is as if it were read with 32. -/
theorem word?_eq_some_iff {n : Nat} : word? v = some n ↔ AsNatural limit32 v n := by
  have hle : limit32 ≤ limit64 := by decide
  rw [word?, Option.filter_eq_some_iff, natural?_eq_some_iff, decide_eq_true_eq,
    asNatural_iff_of_le hle]

example : word? (.str "\u00a0+0004294967295\n") = some 4294967295 ∧
    word? (.str "4294967296") = none ∧ word? (.int 4294967296) = none ∧
    word? (.str "1 0") = none := by
  decide +kernel

theorem decimal?_of_isNumber (hv : v.IsNumber) : decimal? v = Decimal.ofText? v.text := by
  have hread : decimal? v = v.numeral?.bind Decimal.ofChars? := by cases hv <;> rfl
  rw [hread, numeral?_of_isNumber hv, Decimal.ofText?, Json.text, String.toList_ofList]
  rfl

theorem decimal?_eq_some_iff {d : Decimal} : decimal? v = some d ↔ AsDecimal v d := by
  constructor
  · intro h
    rcases text_or_isNumber v with ⟨s, rfl⟩ | hv | ⟨-, hnone⟩
    · have hs : Trimmed s.toList (trim s).toList := by
        rw [trim, String.toList_ofList]
        exact trimmed_trimChars s.toList
      refine .text hs ?_
      rw [Decimal.ofText?, trim, String.toList_ofList]
      exact h
    · rw [decimal?_of_isNumber hv] at h
      exact .number hv h
    · rw [hnone] at h
      cases h
  · rintro (⟨hs, ht⟩ | ⟨hv, ht⟩)
    · rw [decimal?, trimChars_eq_iff.mpr hs]
      exact ht
    · rw [decimal?_of_isNumber hv]
      exact ht

/-! ## What is read from a field -/

/-- What an accessor answers: what the value of the field stands for by `As`, or why there is
nothing. A field that is not there and a value that stands for nothing are told apart. -/
structure Answers {α : Type} (f : Fields) (field : String) (As : Json → α → Prop)
    (answer : Except ProjectionError α) : Prop where
  missing : answer = .error (.missingField f.eventType field) ↔ field ∉ f.payload.map Prod.fst
  read (a : α) : answer = .ok a ↔ ∃ v, f.payload.lookup field = some v ∧ As v a
  invalid (shown : String) : answer = .error (.invalidField f.eventType field shown) ↔
    ∃ v, f.payload.lookup field = some v ∧ (∀ a, ¬ As v a) ∧ shown = v.text

variable {α : Type} {f : Fields} {field : String} {read? : Json → Option α}

theorem read_missing (hv : f.payload.lookup field = none) :
    f.read field read? = .error (.missingField f.eventType field) := by
  rw [Fields.read, get, hv]
  rfl

theorem read_ok {a : α} (hv : f.payload.lookup field = some v) (ha : read? v = some a) :
    f.read field read? = .ok a := by
  have hget : f.get field = .ok v := by rw [get, hv]
  simp only [Fields.read, hget, ha, bind, Except.bind]
  rfl

theorem read_invalid (hv : f.payload.lookup field = some v) (ha : read? v = none) :
    f.read field read? = .error (.invalidField f.eventType field v.text) := by
  have hget : f.get field = .ok v := by rw [get, hv]
  simp only [Fields.read, hget, ha, bind, Except.bind]
  rfl

theorem lookup_eq_none_iff : f.payload.lookup field = none ↔ field ∉ f.payload.map Prod.fst := by
  simp only [List.lookup_eq_none_iff, bne_iff_ne, List.mem_map, not_exists, not_and]
  exact forall₂_congr fun p _ => ne_comm

theorem read_answers {As : Json → α → Prop} (h : ∀ {v a}, read? v = some a ↔ As v a) (f : Fields)
    (field : String) : Answers f field As (f.read field read?) := by
  cases hv : f.payload.lookup field with
  | none =>
    have hanswer : f.read field read? = _ := read_missing hv
    exact {
      missing := iff_of_true hanswer (lookup_eq_none_iff.mp hv)
      read a := by simp [hanswer, hv]
      invalid shown := by simp [hanswer, hv] }
  | some v =>
    have hthere : ¬ field ∉ f.payload.map Prod.fst := by
      rw [← lookup_eq_none_iff, hv]
      nofun
    cases ha : read? v with
    | none =>
      have hanswer : f.read field read? = _ := read_invalid hv ha
      have hnone : ∀ a, ¬ As v a := by
        intro a hAs
        rw [h.mpr hAs] at ha
        cases ha
      exact {
        missing := iff_of_false (by simp [hanswer]) hthere
        read a := by simp [hanswer, hv, hnone]
        invalid shown := by simp [hanswer, hv, hnone, eq_comm] }
    | some a =>
      have hanswer : f.read field read? = _ := read_ok hv ha
      have hAs : As v a := h.mp ha
      exact {
        missing := iff_of_false (by simp [hanswer]) hthere
        read b := by simp [hanswer, hv, ← h, ha]
        invalid shown := iff_of_false (by simp [hanswer]) fun ⟨w, hw, hnone, _⟩ => by
          rw [hv] at hw
          cases hw
          exact hnone a hAs }

/-- Each accessor reads exactly what stands for what it is to read. -/
theorem accessors_answer (f : Fields) (field : String) :
    Answers f field AsString (f.string field) ∧
      Answers f field (AsNatural (2 ^ 32)) (f.word field) ∧
      Answers f field AsDecimal (f.decimal field) :=
  ⟨read_answers string?_eq_some_iff f field, read_answers word?_eq_some_iff f field,
    read_answers decimal?_eq_some_iff f field⟩

end Fields

end TableService
