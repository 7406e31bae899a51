import Mathlib.Data.List.DropRight
import TableService.Text.Blank

/-!
# Trimming

- `trimChars_eq_self`: a text is trimmed if it neither begins nor ends with a blank.
- `Trimmed`: what stands between the blanks around a text; `trimChars_eq_iff`: trimming finds it.
- `trim_trim`: a trimmed text stays as it is.
- `required?_of_required?`: so does a required text.
-/

namespace TableService.Text

/-- The text `core` stands between blanks, and neither begins nor ends with one. -/
def Trimmed (cs core : List Char) : Prop :=
  ∃ before after, cs = before ++ core ++ after ∧ (∀ c ∈ before ++ after, isBlank c = true) ∧
    (∀ c ∈ core.head?, isBlank c = false) ∧ ∀ c ∈ core.getLast?, isBlank c = false

theorem trimChars_eq_rdropWhile (cs : List Char) :
    trimChars cs = (cs.dropWhile isBlank).rdropWhile isBlank := rfl

/-- Nothing is trimmed off a text without a blank at either end. -/
theorem trimChars_eq_self {cs : List Char} (hfirst : ∀ c ∈ cs.head?, isBlank c = false)
    (hlast : ∀ c ∈ cs.getLast?, isBlank c = false) : trimChars cs = cs := by
  -- nothing is dropped in front, and nothing at the end
  have hdrop : cs.dropWhile isBlank = cs := by
    cases cs with
    | nil => rfl
    | cons c rest => simp [hfirst c rfl]
  rw [trimChars_eq_rdropWhile, hdrop, List.rdropWhile_eq_self_iff]
  intro hne
  simp [hlast _ (List.getLast_mem_getLast? hne)]

theorem head?_trimChars (cs : List Char) : ∀ c ∈ (trimChars cs).head?, isBlank c = false := by
  intro c hc
  have hhead : c ∈ (cs.dropWhile isBlank).head? := by
    obtain ⟨rest, hrest⟩ : trimChars cs <+: cs.dropWhile isBlank := List.rdropWhile_prefix _ _
    rw [← hrest, List.head?_append, Option.mem_def.mp hc]
    rfl
  have h := List.head?_dropWhile_not isBlank cs
  rw [hhead] at h
  simpa using h

theorem getLast?_trimChars (cs : List Char) : ∀ c ∈ (trimChars cs).getLast?, isBlank c = false := by
  intro c hc
  rw [trimChars, List.getLast?_reverse] at hc
  have h := List.head?_dropWhile_not isBlank (cs.dropWhile isBlank).reverse
  rw [hc] at h
  simpa using h

variable {cs before after : List Char}

theorem trimChars_append_left (h : ∀ c ∈ before, isBlank c = true) (cs : List Char) :
    trimChars (before ++ cs) = trimChars cs := by
  rw [trimChars, trimChars, List.dropWhile_append_of_pos h]

theorem trimChars_append_right (h : ∀ c ∈ after, isBlank c = true) (cs : List Char) :
    trimChars (cs ++ after) = trimChars cs := by
  have hnone : after.dropWhile isBlank = [] := List.dropWhile_eq_nil_iff.mpr h
  have hreverse : ∀ c ∈ after.reverse, isBlank c = true := fun c hc => h c (List.mem_reverse.mp hc)
  rw [trimChars, trimChars, List.dropWhile_append]
  split
  · -- nothing but blanks in front of these either
    rename_i hempty
    rw [hnone, List.isEmpty_iff.mp hempty]
  · rw [List.reverse_append, List.dropWhile_append_of_pos hreverse]

theorem trimmed_trimChars (cs : List Char) : Trimmed cs (trimChars cs) := by
  have hfirst : cs = cs.takeWhile isBlank ++ cs.dropWhile isBlank :=
    List.takeWhile_append_dropWhile.symm
  have hlast : cs.dropWhile isBlank = trimChars cs ++ (cs.dropWhile isBlank).rtakeWhile isBlank :=
    List.rdropWhile_append_rtakeWhile.symm
  refine ⟨cs.takeWhile isBlank, (cs.dropWhile isBlank).rtakeWhile isBlank, ?_, ?_,
    head?_trimChars cs, getLast?_trimChars cs⟩
  · rw [List.append_assoc, ← hlast, ← hfirst]
  · intro c hc
    rcases List.mem_append.mp hc with hc | hc
    · exact List.mem_takeWhile_imp hc
    · exact List.mem_rtakeWhile_imp hc

/-- Trimming takes the blanks off at both ends, and nothing else. -/
theorem trimChars_eq_iff {core : List Char} : trimChars cs = core ↔ Trimmed cs core := by
  constructor
  · rintro rfl
    exact trimmed_trimChars cs
  · rintro ⟨before, after, rfl, hblank, hfirst, hlast⟩
    rw [trimChars_append_right fun c hc => hblank c (List.mem_append_right _ hc),
      trimChars_append_left fun c hc => hblank c (List.mem_append_left _ hc),
      trimChars_eq_self hfirst hlast]

theorem trim_trim (s : String) : trim (trim s) = trim s := by
  simp only [trim, String.toList_ofList]
  rw [trimChars_eq_self (head?_trimChars _) (getLast?_trimChars _)]

theorem required?_eq_some_iff {s t : String} : required? s = some t ↔ t = trim s ∧ t ≠ "" := by
  simp only [required?]
  split
  · rename_i h
    simp only [reduceCtorEq, false_iff, not_and, not_not]
    rintro rfl
    simpa using h
  · rename_i h
    simp only [Option.some.injEq]
    constructor
    · rintro rfl
      exact ⟨rfl, by simpa using h⟩
    · exact fun h => h.1.symm

/-- What has been required once may be required again. -/
theorem required?_of_required? {s t : String} (h : required? s = some t) :
    required? t = some t := by
  obtain ⟨rfl, hne⟩ := required?_eq_some_iff.mp h
  exact required?_eq_some_iff.mpr ⟨(trim_trim s).symm, hne⟩

end TableService.Text
