/-!
# Lists of keyed values

- `put`: sets the value of a key. A key that is there keeps its place; a new one comes last.
- `putAll`: the list that results from setting keys one after the other. Without a repeated key it
  is the list itself.
-/

namespace TableService

/-- Sets the value of a key. -/
def put (pairs : List (String × α)) (key : String) (value : α) : List (String × α) :=
  match pairs with
  | [] => [(key, value)]
  | (k, v) :: rest => if k = key then (k, value) :: rest else (k, v) :: put rest key value

/-- Sets the keys one after the other. -/
def putAll (pairs : List (String × α)) : List (String × α) :=
  pairs.foldl (fun done p => put done p.1 p.2) []

theorem put_of_not_mem {done : List (String × α)} {key : String} (h : key ∉ done.map Prod.fst)
    (value : α) : put done key value = done ++ [(key, value)] := by
  induction done with
  | nil => rfl
  | cons p rest ih =>
    rw [List.map_cons, List.mem_cons, not_or] at h
    rw [put, if_neg (Ne.symm h.1), ih h.2, List.cons_append]

/-- Keys that are set once stay where they are. -/
theorem putAll_eq_self {pairs : List (String × α)} (h : (pairs.map Prod.fst).Nodup) :
    putAll pairs = pairs := by
  have hbehind : ∀ (rest done : List (String × α)), ((done ++ rest).map Prod.fst).Nodup →
      rest.foldl (fun done p => put done p.1 p.2) done = done ++ rest := by
    intro rest
    induction rest with
    | nil => exact fun done _ => (List.append_nil done).symm
    | cons p rest ih =>
      intro done hnodup
      have hnew : p.1 ∉ done.map Prod.fst := by
        rw [List.map_append, List.map_cons, List.nodup_append] at hnodup
        exact fun hmem => hnodup.2.2 _ hmem _ List.mem_cons_self rfl
      have happend : done ++ p :: rest = done ++ [p] ++ rest := by simp
      rw [List.foldl_cons, put_of_not_mem hnew, ih _ (happend ▸ hnodup), happend]
  exact hbehind pairs [] h

end TableService
