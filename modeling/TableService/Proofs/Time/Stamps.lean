import TableService.Proofs.Text.Numerals
import TableService.Proofs.Time.Dates
import TableService.Time.Rfc3339

/-!
# Times are read as they were written

- `Instant.Proper`: a leap second is the last one of its minute.
- `Instant.settled`: the time that a text tells. It is another one than was written only if a leap
  second is not where it should be.
- `Instant.ofText?_text`: what has been written is read.
-/

namespace TableService.Instant

open Text Numeral

/-! ## Numbers -/

theorem skipBlanks_cons {c : Char} (cs : List Char) (h : isBlank c = false) :
    skipBlanks (c :: cs) = c :: cs :=
  List.dropWhile_cons_of_neg (Bool.eq_false_iff.mp h)

theorem skipBlanks_digits {ds : List Char} (hne : ds ≠ []) (hds : ∀ c ∈ ds, c.isDigit = true)
    (rest : List Char) : skipBlanks (ds ++ rest) = ds ++ rest := by
  cases ds with
  | nil => exact absurd rfl hne
  | cons c ds => exact skipBlanks_cons _ (isBlank_of_isDigit (hds c List.mem_cons_self))

/-- Digits are read as far as they go, if the width allows for it. -/
theorem digits?_append {width : Nat} {ds rest : List Char} (hne : ds ≠ [])
    (hds : ∀ c ∈ ds, c.isDigit = true) (hlength : ds.length ≤ width)
    (hrest : ds.length = width ∨ EndsDigits rest) :
    digits? width (ds ++ rest) = some (Nat.ofDigitChars 10 ds 0, rest) := by
  have hread : ((ds ++ rest).take width).takeWhile Char.isDigit = ds := by
    rw [List.take_append, List.take_of_length_le hlength]
    refine takeWhile_append hds ?_
    -- either the width is used up, or what follows is no digit
    rcases hrest with hfull | hend
    · rw [hfull, Nat.sub_self, List.take_zero]
      exact nofun
    · intro c hc
      cases hroom : width - ds.length with
      | zero => rw [hroom, List.take_zero] at hc; cases hc
      | succ room => rw [hroom, List.head?_take] at hc; exact hend c hc
  rw [digits?, hread, value?_of_isDigit hne hds, Option.map_some, List.drop_left]

theorem digits?_padded {width n : Nat} (hwidth : 0 < width) (h : n < 10 ^ width)
    (rest : List Char) : digits? width (padded width n ++ rest) = some (n, rest) := by
  have hlength := length_padded hwidth h
  rw [digits?_append (padded_ne_nil width n) (fun c => isDigit_of_mem_padded)
    (Nat.le_of_eq hlength) (.inl hlength), value_padded]

theorem markedPair?_padded {mark : Char} {n : Nat} (hmark : isBlank mark = false) (h : n < 100)
    (rest : List Char) : markedPair? mark (mark :: padded 2 n ++ rest) = some (n, rest) := by
  rw [markedPair?, List.cons_append, skipBlanks_cons _ hmark]
  dsimp only
  rw [if_pos rfl, skipBlanks_digits (padded_ne_nil 2 n) (fun c => isDigit_of_mem_padded),
    digits?_padded (by decide) h]

/-! ## The date -/

theorem year?_digits {ds : List Char} (hne : ds ≠ []) (hds : ∀ c ∈ ds, c.isDigit = true)
    (rest : List Char) :
    year? (ds ++ rest) = (digits? 4 (ds ++ rest)).map fun p => ((p.1 : Int), p.2) := by
  cases ds with
  | nil => exact absurd rfl hne
  | cons c ds =>
    have hc : c.isDigit = true := hds c List.mem_cons_self
    unfold year?
    split
    -- neither sign is a digit
    · rename_i hsign
      cases hsign
      exact absurd hc (by decide)
    · rename_i hsign
      cases hsign
      exact absurd hc (by decide)
    · rfl

/-- A year of more than four digits ends where the digits do. -/
theorem year?_yearChars (year : Int) {rest : List Char} (hrest : EndsDigits rest) :
    year? (yearChars year ++ rest) = some (year, rest) := by
  have hdigits {c : Char} (hc : c ∈ padded 4 year.natAbs) : c.isDigit = true :=
    isDigit_of_mem_padded hc
  have hsigned : digits? (padded 4 year.natAbs ++ rest).length (padded 4 year.natAbs ++ rest) =
      some (year.natAbs, rest) := by
    rw [digits?_append (padded_ne_nil 4 _) (fun c => hdigits) (by simp) (.inr hrest), value_padded]
  unfold yearChars
  split
  · rename_i hfour
    rw [year?_digits (padded_ne_nil 4 _) (fun c => hdigits), digits?_padded (by decide) (by omega),
      Option.map_some, Int.natAbs_of_nonneg hfour.1]
  · split
    · rename_i hneg
      show (digits? (padded 4 year.natAbs ++ rest).length (padded 4 year.natAbs ++ rest)).map
        (fun p => (-(p.1 : Int), p.2)) = some (year, rest)
      rw [hsigned, Option.map_some]
      congr 2
      omega
    · rename_i hpos
      show (digits? (padded 4 year.natAbs ++ rest).length (padded 4 year.natAbs ++ rest)).map
        (fun p => ((p.1 : Int), p.2)) = some (year, rest)
      rw [hsigned, Option.map_some]
      congr 2
      omega

theorem skipBlanks_yearChars (year : Int) (rest : List Char) :
    skipBlanks (yearChars year ++ rest) = yearChars year ++ rest := by
  unfold yearChars
  split
  · exact skipBlanks_digits (padded_ne_nil 4 _) (fun c => isDigit_of_mem_padded) rest
  · refine skipBlanks_cons _ ?_
    split <;> decide

/-- A date as it is written. -/
def dateChars (d : Date) : List Char :=
  yearChars d.year ++ '-' :: padded 2 d.month.toNat ++ '-' :: padded 2 d.day.toNat

theorem date?_dateChars {d : Date} (h : d.Valid) (rest : List Char) :
    date? (dateChars d ++ rest) = some (d, rest) := by
  obtain ⟨hmonth, hmonthLe, hday, hdayLe⟩ := h
  have hlength : Date.monthLength d.year d.month ≤ 31 := by
    unfold Date.monthLength
    split <;> split <;> omega
  have hmark (cs : List Char) : EndsDigits ('-' :: padded 2 d.month.toNat ++ cs) := by
    rintro _ ⟨⟩
    rfl
  rw [date?, dateChars, List.append_assoc, List.append_assoc, skipBlanks_yearChars,
    year?_yearChars _ (hmark _)]
  simp only [Option.bind_eq_bind, Option.bind_some]
  rw [markedPair?_padded (by decide) (by omega), Option.bind_some,
    markedPair?_padded (by decide) (by omega), Option.bind_some,
    Int.toNat_of_nonneg (by omega), Int.toNat_of_nonneg (by omega)]

/-! ## The time of day -/

theorem nanos?_point {width n : Nat} (hwidth : 0 < width) (hle : width ≤ 9) (h : n < 10 ^ width)
    {rest : List Char} (hrest : EndsDigits rest) :
    nanos? ('.' :: padded width n ++ rest) = some (n * 10 ^ (9 - width), rest) := by
  have hlength := length_padded hwidth h
  have hplaces : (padded width n ++ rest).length - rest.length = width := by
    rw [List.length_append, hlength, Nat.add_sub_cancel]
  have hstop : ([] ++ rest).dropWhile Char.isDigit = rest := dropWhile_append nofun hrest
  rw [List.cons_append, nanos?, digits?_append (padded_ne_nil width n)
    (fun c => isDigit_of_mem_padded) (hlength.trans_le hle) (.inr hrest), value_padded]
  simp only [Option.bind_eq_bind, Option.bind_some]
  rw [hplaces, ← List.nil_append rest, hstop]
  rfl

/-- As many digits are written as the nanoseconds need. -/
theorem nanos?_fractionChars {nano : Nat} (h : nano < giga) {rest : List Char}
    (hrest : EndsDigits rest) (hpoint : rest.head? ≠ some '.') :
    nanos? (fractionChars nano ++ rest) = some (nano, rest) := by
  unfold fractionChars
  split
  · rename_i hzero
    subst hzero
    rw [List.nil_append]
    unfold nanos?
    split
    · exact absurd rfl hpoint
    · rfl
  · split
    · rename_i hmilli
      have hback : nano / 1000000 * 10 ^ (9 - 3) = nano :=
        Nat.div_mul_cancel (Nat.dvd_of_mod_eq_zero hmilli)
      rw [nanos?_point (by decide) (by decide) (by simp only [giga] at h; omega) hrest, hback]
    · split
      · rename_i hmicro
        have hback : nano / 1000 * 10 ^ (9 - 6) = nano :=
          Nat.div_mul_cancel (Nat.dvd_of_mod_eq_zero hmicro)
        rw [nanos?_point (by decide) (by decide) (by simp only [giga] at h; omega) hrest, hback]
      · rw [nanos?_point (by decide) (by decide) h hrest, Nat.sub_self, Nat.pow_zero, Nat.mul_one]

/-- A time of day as it is written. -/
def timeChars (hour minute second nano : Nat) : List Char :=
  padded 2 hour ++ ':' :: padded 2 minute ++ ':' :: padded 2 second ++ fractionChars nano

theorem timeOfDay?_timeChars {hour minute second nano : Nat} (hhour : hour ≤ 23)
    (hminute : minute ≤ 59) (hsecond : second ≤ 60) (hnano : nano < giga) {rest : List Char}
    (hrest : EndsDigits rest) (hpoint : rest.head? ≠ some '.') :
    timeOfDay? (timeChars hour minute second nano ++ rest) =
      some (if second = 60 then (hour * 3600 + minute * 60 + 59, nano + giga)
        else (hour * 3600 + minute * 60 + second, nano), rest) := by
  rw [timeOfDay?, timeChars]
  simp only [List.append_assoc]
  rw [skipBlanks_digits (padded_ne_nil 2 _) (fun c => isDigit_of_mem_padded),
    digits?_padded (by decide) (by omega)]
  simp only [Option.bind_eq_bind, Option.bind_some]
  rw [markedPair?_padded (by decide) (by omega), Option.bind_some,
    markedPair?_padded (by decide) (by omega), Option.bind_some,
    nanos?_fractionChars hnano hrest hpoint, Option.bind_some, if_pos ⟨hhour, hminute, hsecond⟩]
  split <;> rfl

/-! ## Times -/

/-- A leap second is the last one of its minute, as it always is in UTC. -/
def Proper (t : Instant) : Prop := giga ≤ t.nano → t.second % 60 = 59

instance (t : Instant) : Decidable t.Proper :=
  inferInstanceAs (Decidable (_ → _))

theorem le_last_of_mod {second : Int} (h : second ≤ lastSecond) (hmod : second % 60 ≠ 59) :
    second + 1 ≤ lastSecond := by
  simp only [lastSecond] at *
  omega

/-- The time that is told by its text. Within a minute a leap second is told as the second after
it. -/
def settled (t : Instant) : Instant :=
  if h : t.Proper then t
  else
    ⟨t.second + 1, t.nano - giga, by have := t.first_le; omega,
      le_last_of_mod t.le_last (Classical.not_imp.mp h).2, by have := t.nano_lt; omega⟩

theorem toChars_eq (t : Instant) :
    t.toChars = dateChars (Date.ofDay (t.second / 86400)) ++
      'T' :: (timeChars ((t.second % 86400).toNat / 3600) ((t.second % 86400).toNat / 60 % 60)
        ((t.second % 86400).toNat % 60 + t.nano / giga) (t.nano % giga) ++ ['Z']) := by
  simp [toChars, dateChars, timeChars]

theorem of?_self (t : Instant) : of? t.second t.nano = some t := by
  rw [of?, dif_pos ⟨t.first_le, t.le_last, t.nano_lt⟩]

/-- A date and a time of day in UTC are the time that they make up. -/
theorem ofChars?_of_parts {cs rest : List Char} {date : Date} {t : Instant} {inDay : Nat}
    (hdate : date? cs = some (date, 'T' :: rest)) (hvalid : date.Valid)
    (htime : timeOfDay? rest = some ((inDay, t.nano), ['Z']))
    (hsecond : date.toDay * 86400 + inDay = t.second) : ofChars? cs = some t := by
  have hoffset : offset? (skipBlanks ['Z']) = some (0, []) := by decide
  rw [ofChars?, hdate]
  simp only [Option.bind_eq_bind, Option.bind_some, ne_eq, not_true_eq_false, false_and, if_false,
    htime, hoffset, hvalid, hsecond, of?_self, Int.sub_zero]
  rfl

theorem second_le_settled (t : Instant) : t.second ≤ t.settled.second := by
  unfold settled
  split
  · exact Int.le_refl _
  · show t.second ≤ t.second + 1
    omega

/-- The second of the day and the nanoseconds that the written numbers come to. -/
theorem settled_spec (t : Instant) {inDay : Nat} (hinDay : inDay = (t.second % 86400).toNat) :
    (if inDay % 60 + t.nano / giga = 60 then
        (inDay / 3600 * 3600 + inDay / 60 % 60 * 60 + 59, t.nano % giga + giga)
      else
        (inDay / 3600 * 3600 + inDay / 60 % 60 * 60 + (inDay % 60 + t.nano / giga),
          t.nano % giga)) =
      ((t.settled.second - t.second / 86400 * 86400).toNat, t.settled.nano) := by
  have hlt := t.nano_lt
  unfold settled
  by_cases hproper : t.Proper
  · rw [dif_pos hproper]
    unfold Proper at hproper
    simp only [giga] at *
    split <;> rw [Prod.mk.injEq] <;> omega
  · rw [dif_neg hproper]
    obtain ⟨hleap, hminute⟩ := Classical.not_imp.mp hproper
    simp only [giga] at *
    rw [if_neg (by omega), Prod.mk.injEq]
    omega

theorem ofChars?_toChars (t : Instant) : ofChars? t.toChars = some t.settled := by
  have hvalid := Date.valid_ofDay (t.second / 86400)
  have hday := Date.toDay_ofDay (t.second / 86400)
  rw [toChars_eq]
  generalize Date.ofDay (t.second / 86400) = date at hvalid hday
  obtain ⟨inDay, hinDay⟩ : ∃ inDay, inDay = (t.second % 86400).toNat := ⟨_, rfl⟩
  have hnano : t.nano % giga < giga := Nat.mod_lt _ (by decide)
  have hsecond : inDay % 60 + t.nano / giga ≤ 60 := by
    have hlt := t.nano_lt
    simp only [giga] at *
    omega
  have hdate := date?_dateChars (d := date) hvalid
  have htime : timeOfDay? (timeChars (inDay / 3600) (inDay / 60 % 60) (inDay % 60 + t.nano / giga)
      (t.nano % giga) ++ ['Z']) = _ :=
    timeOfDay?_timeChars (by omega) (by omega) hsecond hnano (by simp [EndsDigits]) (by simp)
  rw [settled_spec t hinDay] at htime
  rw [← hinDay]
  refine ofChars?_of_parts (hdate _) hvalid htime ?_
  have hle := second_le_settled t
  rw [hday, Int.toNat_of_nonneg (by omega)]
  omega

/-- What has been written is read. -/
theorem ofText?_text (t : Instant) : ofText? t.text = some t.settled := by
  rw [ofText?, text, String.toList_ofList, ofChars?_toChars]

/-- Whatever is not where it should be is read as another time. -/
theorem settled_eq_self_iff {t : Instant} : t.settled = t ↔ t.Proper := by
  constructor
  · intro h
    by_contra himproper
    rw [settled, dif_neg himproper] at h
    have hsecond : t.second + 1 = t.second := congrArg second h
    omega
  · exact fun h => dif_pos h

end TableService.Instant
