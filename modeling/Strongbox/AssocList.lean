/-!
Association lists with at most one entry per key, in order of insertion. Main statements: what
`lookup` finds after `put` and after `remove`.
-/

namespace Strongbox.AssocList

variable {κ α : Type} [DecidableEq κ]

/-- The value of an entry that is there is replaced in place, and a new entry goes to the end. -/
def put (k : κ) (v : α) : List (κ × α) → List (κ × α)
  | [] => [(k, v)]
  | (k', v') :: rest => if k' = k then (k, v) :: rest else (k', v') :: put k v rest

def remove (k : κ) : List (κ × α) → List (κ × α)
  | [] => []
  | (k', v') :: rest => if k' = k then remove k rest else (k', v') :: remove k rest

theorem map_fst_put (k : κ) (v : α) (entries : List (κ × α)) :
    (put k v entries).map Prod.fst =
      if k ∈ entries.map Prod.fst then entries.map Prod.fst
      else entries.map Prod.fst ++ [k] := by
  induction entries with
  | nil => simp [put]
  | cons e rest ih =>
      obtain ⟨k', v'⟩ := e
      by_cases h : k' = k
      · simp [put, h]
      · have hk : ¬ k = k' := fun e => h e.symm
        simp only [put, h, if_false, List.map_cons, ih, List.mem_cons, hk, false_or]
        split <;> simp

theorem nodup_put (k : κ) (v : α) {entries : List (κ × α)}
    (h : (entries.map Prod.fst).Nodup) : ((put k v entries).map Prod.fst).Nodup := by
  rw [map_fst_put]
  split
  · exact h
  · rename_i hk
    rw [List.nodup_append]
    refine ⟨h, by simp, ?_⟩
    intro a ha b hb
    rw [List.mem_singleton] at hb
    exact fun e => hk (hb ▸ e ▸ ha)

theorem lookup_put [BEq κ] [LawfulBEq κ] (k k' : κ) (v : α) (entries : List (κ × α)) :
    (put k v entries).lookup k' = if k' = k then some v else entries.lookup k' := by
  induction entries with
  | nil => by_cases h : k' = k <;> simp [put, List.lookup_cons, h, beq_false_of_ne]
  | cons e rest ih =>
      obtain ⟨k₀, v₀⟩ := e
      by_cases h₀ : k₀ = k
      · subst h₀
        by_cases h : k' = k₀ <;> simp [put, List.lookup_cons, h, beq_false_of_ne]
      · by_cases h' : k' = k₀
        · subst h'
          simp [put, h₀]
        · simp [put, List.lookup_cons, h₀, beq_false_of_ne h', ih]

theorem lookup_remove [BEq κ] [LawfulBEq κ] (k k' : κ) (entries : List (κ × α)) :
    (remove k entries).lookup k' = if k' = k then none else entries.lookup k' := by
  induction entries with
  | nil => simp [remove]
  | cons e rest ih =>
      obtain ⟨k₀, v₀⟩ := e
      by_cases h₀ : k₀ = k
      · subst h₀
        by_cases h : k' = k₀
        · rw [remove, if_pos rfl, ih, if_pos h, if_pos h]
        · simp [remove, ih, List.lookup_cons, h, beq_false_of_ne h]
      · by_cases h' : k' = k₀
        · subst h'
          simp [remove, h₀]
        · simp [remove, List.lookup_cons, h₀, beq_false_of_ne h', ih]

end Strongbox.AssocList
