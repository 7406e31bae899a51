import Mathlib.Tactic.Common
import TableService.Outbox.Settings
import TableService.Proofs.Text.Numerals

/-!
# Which settings are read

- `Settings.Field`: a key, how large its number may be, and whether it may be zero.
- `Settings.Check`: something that can be wrong with the text of a key, and `Settings.checks`, the
  order in which it is found. Zero retries are found behind a base delay that cannot be read.
- `Settings.Carries`: each setting is the number of its text, or the usual one.
- `Settings.Settles`: a part of the reading refuses exactly what its checks fail for.
- `Settings.ofLookup_read`: the settings are read exactly if all texts are in order.
-/

namespace TableService.Settings

open Text

variable {lookup : String → Option String}

/-! ## What the texts say -/

/-- The text of a key, without the blanks around it, is a numeral of this value below the bound. -/
def Reads (bound : Nat) (raw : String) (n : Nat) : Prop :=
  Numeral.Denotes (trimChars raw.toList) n ∧ n < bound

/-- What a key comes to: what its text says, or the usual value without a text. -/
def Gives (lookup : String → Option String) (key : String) (bound usual n : Nat) : Prop :=
  match lookup key with
  | none => n = usual
  | some raw => Reads bound raw n

/-- A setting: its key, the numbers that are in range, and whether zero is refused. -/
structure Field where
  key : String
  bound : Nat
  positive : Bool

/-- All settings. -/
def fields : List Field :=
  [⟨pollIntervalKey, limit64, true⟩, ⟨batchSizeKey, limit64, true⟩, ⟨maxRetriesKey, limit32, true⟩,
   ⟨baseDelayKey, limit32, false⟩]

/-- A text that is there can be read, and is not zero where zero is not allowed. -/
def Field.InOrder (lookup : String → Option String) (f : Field) : Prop :=
  ∀ raw, lookup f.key = some raw → ∃ n, Reads f.bound raw n ∧ (f.positive = true → n ≠ 0)

/-- Each setting is what its key comes to, and none but the base delay is zero. -/
structure Carries (lookup : String → Option String) (s : Settings) : Prop where
  pollInterval : Gives lookup pollIntervalKey limit64 1000 s.pollIntervalMs
  batchSize : Gives lookup batchSizeKey limit64 10 s.batchSize
  maxRetries : Gives lookup maxRetriesKey limit32 3 s.policy.maxRetries.toNat
  baseDelay : Gives lookup baseDelayKey limit32 1 s.policy.baseDelaySeconds.toNat
  pollInterval_pos : 0 < s.pollIntervalMs
  one_le_batchSize : 1 ≤ s.batchSize
  one_le_maxRetries : 1 ≤ s.policy.maxRetries.toNat

/-! ## What is wrong with them -/

/-- What is wrong with a text. -/
inductive Fault where
  | unreadable
  | zero

/-- The question whether one thing is wrong with the text of a key. -/
structure Check where
  key : String
  bound : Nat
  fault : Fault

/-- All questions in the order in which they are asked. -/
def checks : List Check :=
  [⟨pollIntervalKey, limit64, .unreadable⟩, ⟨pollIntervalKey, limit64, .zero⟩,
   ⟨batchSizeKey, limit64, .unreadable⟩, ⟨batchSizeKey, limit64, .zero⟩,
   ⟨maxRetriesKey, limit32, .unreadable⟩, ⟨baseDelayKey, limit32, .unreadable⟩,
   ⟨maxRetriesKey, limit32, .zero⟩]

namespace Check

/-- A text that cannot be read is shown as it is, and a zero as `0`. -/
def Fails (lookup : String → Option String) (c : Check) (shown : String) : Prop :=
  ∃ raw, lookup c.key = some raw ∧
    match c.fault with
    | .unreadable => (∀ n, ¬ Reads c.bound raw n) ∧ shown = raw
    | .zero => Reads c.bound raw 0 ∧ shown = "0"

/-- What a check that fails shows. -/
def shown? (lookup : String → Option String) (c : Check) : Option String :=
  (lookup c.key).bind fun raw =>
    match c.fault, Numeral.unsigned? c.bound (trimChars raw.toList) with
    | .unreadable, none => some raw
    | .zero, some 0 => some "0"
    | _, _ => none

theorem shown?_eq_some_iff {c : Check} {shown : String} :
    c.shown? lookup = some shown ↔ c.Fails lookup shown := by
  obtain ⟨key, bound, fault⟩ := c
  simp only [shown?, Fails, Option.bind_eq_some_iff]
  refine exists_congr fun raw => and_congr_right fun _ => ?_
  cases hread : Numeral.unsigned? bound (trimChars raw.toList) with
  | none =>
    have hnone : ∀ n, ¬ Reads bound raw n := fun n hn =>
      Numeral.unsigned?_eq_none_iff.mp hread n hn.2 hn.1
    cases fault with
    | unreadable => simp [hnone, eq_comm]
    | zero => simp [hnone]
  | some n =>
    have hn : Reads bound raw n := Numeral.unsigned?_eq_some_iff.mp hread
    cases fault with
    | unreadable =>
      refine iff_of_false nofun fun h => h.1 n hn
    | zero =>
      have hzero : Reads bound raw 0 ↔ n = 0 :=
        ⟨fun h => hn.1.unique h.1, fun h => h ▸ hn⟩
      cases n with
      | zero => simp [hzero, eq_comm]
      | succ n => simp [hzero]

theorem shown?_eq_none_iff {c : Check} :
    c.shown? lookup = none ↔ ∀ shown, ¬ c.Fails lookup shown := by
  rw [Option.eq_none_iff_forall_not_mem]
  exact forall_congr' fun shown => not_congr shown?_eq_some_iff

end Check

/-! ## Reading -/

/-- The error for the first check that fails. -/
def fault? (lookup : String → Option String) (cs : List Check) : Option SettingsError :=
  cs.findSome? fun c => (c.shown? lookup).map (.invalid c.key)

/-- A part of the reading refuses exactly what its checks fail for, with the error of the first. -/
def Settles (lookup : String → Option String) (cs : List Check) (r : Except SettingsError α)
    (Q : α → Prop) : Prop :=
  match r with
  | .ok a => Q a ∧ fault? lookup cs = none
  | .error e => fault? lookup cs = some e

variable {Q : α → Prop} {R : β → Prop}

theorem Settles.pure {a : α} (h : Q a) : Settles lookup [] (pure a) Q :=
  ⟨h, rfl⟩

theorem Settles.bind {cs more : List Check} {r : Except SettingsError α}
    {f : α → Except SettingsError β} (hr : Settles lookup cs r Q)
    (hf : ∀ a, Q a → Settles lookup more (f a) R) : Settles lookup (cs ++ more) (r >>= f) R := by
  have hfault : fault? lookup (cs ++ more) = (fault? lookup cs).or (fault? lookup more) :=
    List.findSome?_append
  cases r with
  | error e =>
    have hfirst : fault? lookup cs = some e := hr
    show fault? lookup (cs ++ more) = some e
    rw [hfault, hfirst, Option.some_or]
  | ok a =>
    obtain ⟨hQ, hnone⟩ := hr
    have hrest : Settles lookup more (f a) R := hf a hQ
    rw [hnone, Option.none_or] at hfault
    show Settles lookup (cs ++ more) (f a) R
    unfold Settles at hrest ⊢
    rw [hfault]
    exact hrest

theorem settles_number (lookup : String → Option String) (key : String) (bound usual : Nat) :
    Settles lookup [⟨key, bound, .unreadable⟩] (number lookup key bound usual)
      (Gives lookup key bound usual) := by
  unfold number
  cases hkey : lookup key with
  | none => exact ⟨by simp [Gives, hkey], by simp [fault?, Check.shown?, hkey]⟩
  | some raw =>
    cases hread : Numeral.unsigned? bound (trimChars raw.toList) with
    | none => simp [Settles, fault?, Check.shown?, hkey, hread]
    | some n =>
      have hreads : Reads bound raw n := Numeral.unsigned?_eq_some_iff.mp hread
      simp [Settles, Gives, fault?, Check.shown?, hkey, hread, hreads]

/-- A zero is always found in the text: no usual value is zero. -/
theorem settles_nonzero {key : String} {bound usual n : Nat} (h : Gives lookup key bound usual n)
    (husual : usual ≠ 0) :
    Settles lookup [⟨key, bound, .zero⟩] (nonzero key n) fun _ => n ≠ 0 := by
  rw [Gives] at h
  cases hkey : lookup key with
  | none =>
    rw [hkey] at h
    have hn : n ≠ 0 := h ▸ husual
    simp [Settles, nonzero, fault?, Check.shown?, hkey, hn]
  | some raw =>
    rw [hkey] at h
    have hread := Numeral.unsigned?_eq_some_iff.mpr h
    cases n with
    | zero => simp [Settles, nonzero, fault?, Check.shown?, hkey, hread]
    | succ n => simp [Settles, nonzero, fault?, Check.shown?, hkey, hread]

theorem Gives.lt {key : String} {bound usual n : Nat} (h : Gives lookup key bound usual n)
    (husual : usual < bound) : n < bound := by
  rw [Gives] at h
  split at h
  · exact h ▸ husual
  · exact h.2

/-- The reader carries what the texts say, unless one of the checks fails. -/
theorem settles_ofLookup (lookup : String → Option String) :
    Settles lookup checks (ofLookup lookup) (Carries lookup) := by
  -- one rule for each step, in the order of the checks
  refine .bind (settles_number lookup pollIntervalKey limit64 1000) fun poll hpoll => ?_
  refine .bind (settles_nonzero hpoll (by decide)) fun _ hpollPos => ?_
  refine .bind (settles_number lookup batchSizeKey limit64 10) fun batch hbatch => ?_
  refine .bind (settles_nonzero hbatch (by decide)) fun _ hbatchPos => ?_
  refine .bind (settles_number lookup maxRetriesKey limit32 3) fun retries hretries => ?_
  refine .bind (settles_number lookup baseDelayKey limit32 1) fun delay hdelay => ?_
  refine .bind (settles_nonzero hretries (by decide)) fun _ hretriesPos => .pure ?_
  have hretriesWord : (UInt32.ofNat retries).toNat = retries :=
    UInt32.toNat_ofNat_of_lt (hretries.lt (by decide))
  have hdelayWord : (UInt32.ofNat delay).toNat = delay :=
    UInt32.toNat_ofNat_of_lt (hdelay.lt (by decide))
  exact {
    pollInterval := hpoll
    batchSize := hbatch
    maxRetries := by rwa [hretriesWord]
    baseDelay := by rwa [hdelayWord]
    pollInterval_pos := Nat.pos_of_ne_zero hpollPos
    one_le_batchSize := Nat.one_le_iff_ne_zero.mpr hbatchPos
    one_le_maxRetries := by rwa [hretriesWord, Nat.one_le_iff_ne_zero] }

/-! ## What is refused -/

theorem fault?_eq_none_iff {cs : List Check} :
    fault? lookup cs = none ↔ ∀ c ∈ cs, ∀ shown, ¬ c.Fails lookup shown := by
  simp only [fault?, List.findSome?_eq_none_iff, Option.map_eq_none_iff, Check.shown?_eq_none_iff]

/-- The error is that of the first check that fails. -/
theorem fault?_eq_some_iff {cs : List Check} {e : SettingsError} :
    fault? lookup cs = some e ↔ ∃ before c after shown, cs = before ++ c :: after ∧
      (∀ b ∈ before, ∀ shown, ¬ b.Fails lookup shown) ∧ c.Fails lookup shown ∧
      e = .invalid c.key shown := by
  rw [fault?, List.findSome?_eq_some_iff]
  simp only [Option.map_eq_some_iff, Option.map_eq_none_iff, Check.shown?_eq_some_iff,
    Check.shown?_eq_none_iff]
  constructor
  · rintro ⟨before, c, after, hsplit, ⟨shown, hfails, rfl⟩, hbefore⟩
    exact ⟨before, c, after, shown, hsplit, hbefore, hfails, rfl⟩
  · rintro ⟨before, c, after, shown, hsplit, hbefore, hfails, rfl⟩
    exact ⟨before, c, after, hsplit, ⟨shown, hfails, rfl⟩, hbefore⟩

/-- The text of a key is in order if neither check of it fails. -/
theorem Field.inOrder_iff {f : Field} :
    f.InOrder lookup ↔ (∀ shown, ¬ Check.Fails lookup ⟨f.key, f.bound, .unreadable⟩ shown) ∧
      (f.positive = true → ∀ shown, ¬ Check.Fails lookup ⟨f.key, f.bound, .zero⟩ shown) := by
  constructor
  · intro h
    constructor
    · rintro shown ⟨raw, hraw, hnone, -⟩
      obtain ⟨n, hn, -⟩ := h raw hraw
      exact hnone n hn
    · rintro hpositive shown ⟨raw, hraw, hzero, -⟩
      obtain ⟨n, hn, hne⟩ := h raw hraw
      exact hne hpositive (hn.1.unique hzero.1)
  · rintro ⟨hunreadable, hzero⟩ raw hraw
    by_cases hread : ∃ n, Reads f.bound raw n
    · obtain ⟨n, hn⟩ := hread
      refine ⟨n, hn, fun hpositive hn0 => ?_⟩
      subst hn0
      exact hzero hpositive "0" ⟨raw, hraw, hn, rfl⟩
    · exact absurd ⟨raw, hraw, not_exists.mp hread, rfl⟩ (hunreadable raw)

theorem fault?_checks_eq_none_iff :
    fault? lookup checks = none ↔ ∀ f ∈ fields, f.InOrder lookup := by
  rw [fault?_eq_none_iff]
  simp only [checks, fields, List.forall_mem_cons, List.not_mem_nil, IsEmpty.forall_iff,
    implies_true, and_true, Field.inOrder_iff, forall_const, Bool.false_eq_true]
  tauto

/-- The settings are read exactly if all texts are in order, and are then what the texts say. What
is refused is the first fault in the order of `checks`. -/
theorem ofLookup_read (lookup : String → Option String) :
    ((∃ s, ofLookup lookup = .ok s) ↔ ∀ f ∈ fields, f.InOrder lookup) ∧
    (∀ s, ofLookup lookup = .ok s → Carries lookup s) ∧
    (∀ e, ofLookup lookup = .error e ↔ ∃ before c after shown, checks = before ++ c :: after ∧
      (∀ b ∈ before, ∀ shown, ¬ b.Fails lookup shown) ∧ c.Fails lookup shown ∧
      e = .invalid c.key shown) := by
  simp only [← fault?_checks_eq_none_iff, ← fault?_eq_some_iff]
  have h := settles_ofLookup lookup
  cases hread : ofLookup lookup with
  | ok s =>
    rw [hread] at h
    obtain ⟨hcarries, hnone⟩ := h
    rw [hnone]
    exact ⟨⟨fun _ => rfl, fun _ => ⟨s, rfl⟩⟩, fun s' hs' => Except.ok.inj hs' ▸ hcarries,
      fun e => iff_of_false nofun nofun⟩
  | error e =>
    rw [hread] at h
    have hsome : fault? lookup checks = some e := h
    rw [hsome]
    refine ⟨iff_of_false nofun nofun, nofun, fun e' => ?_⟩
    rw [Except.error.injEq, Option.some.injEq]

/-- The texts of one batch size, without retries and with a base delay that is no number. -/
def faulty (key : String) : Option String :=
  if key = batchSizeKey then some " +0020\n"
  else if key = maxRetriesKey then some "0"
  else if key = baseDelayKey then some " 1s"
  else none

theorem faulty_read :
    ofLookup faulty = .error (.invalid baseDelayKey " 1s") ∧ ¬ ∀ f ∈ fields, f.InOrder faulty := by
  have hread : ofLookup faulty = .error (.invalid baseDelayKey " 1s") := by
    refine ((ofLookup_read faulty).2.2 _).mpr
      ⟨checks.take 5, ⟨baseDelayKey, limit32, .unreadable⟩, checks.drop 6, " 1s", rfl, ?_, ?_, rfl⟩
    · intro b hb
      have hnone : ∀ b ∈ checks.take 5, b.shown? faulty = none := by decide
      exact Check.shown?_eq_none_iff.mp (hnone b hb)
    · exact Check.shown?_eq_some_iff.mp (by decide)
  refine ⟨hread, fun h => ?_⟩
  obtain ⟨s, hs⟩ := (ofLookup_read faulty).1.mpr h
  rw [hread] at hs
  cases hs

end TableService.Settings
