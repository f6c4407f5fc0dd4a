import DocBlocks.Value.Basic

/-! Pairs under distinct names, and what binding a name does to them. -/
namespace DocBlocks.Entries

def names (pairs : List (String × Value)) : List String := pairs.map (·.1)

theorem insertNew {name : String} {pairs : List (String × Value)} (value : Value)
    (fresh : name ∉ names pairs) : insert name value pairs = pairs ++ [(name,value)] := by
  induction pairs with
  | nil => rfl
  | cons pair rest ih =>
      obtain ⟨key,old⟩ := pair
      simp only [names, List.map_cons, List.mem_cons, not_or] at fresh
      rw [insert, if_neg (Ne.symm fresh.1), ih fresh.2, List.cons_append]

theorem insertNames (name : String) (value : Value) (pairs : List (String × Value)) :
    names (insert name value pairs) =
      if name ∈ names pairs then names pairs else names pairs ++ [name] := by
  induction pairs with
  | nil => simp [names, insert]
  | cons pair rest ih =>
      obtain ⟨key,old⟩ := pair
      rw [insert]
      by_cases same : key = name
      · simp [same, names]
      · rw [if_neg same]
        simp only [names, List.map_cons, List.mem_cons] at ih ⊢
        rw [ih]
        have other : name ≠ key := Ne.symm same
        by_cases old : name ∈ rest.map (·.1) <;> simp [old, other]

theorem insertNodup {name : String} {value : Value} {pairs : List (String × Value)}
    (distinct : (names pairs).Nodup) : (names (insert name value pairs)).Nodup := by
  rw [insertNames]
  split
  · exact distinct
  · rename_i fresh
    refine List.nodup_append.mpr ⟨distinct,by simp,?_⟩
    rintro a ha b hb rfl
    rw [List.mem_singleton] at hb
    exact fresh (hb ▸ ha)

theorem insertMember {name key : String} {value other : Value} {pairs : List (String × Value)}
    (member : (key,other) ∈ insert name value pairs) :
    (key,other) ∈ pairs ∨ key = name ∧ other = value := by
  induction pairs with
  | nil => exact .inr (by simpa [insert] using member)
  | cons pair rest ih =>
      obtain ⟨first,old⟩ := pair
      rw [insert] at member
      split at member
      · rename_i same
        rcases List.mem_cons.mp member with here | there
        · cases here; exact .inr ⟨same,rfl⟩
        · exact .inl (List.mem_cons_of_mem _ there)
      · rcases List.mem_cons.mp member with here | there
        · exact .inl (here ▸ List.mem_cons_self)
        · rcases ih there with old | new
          · exact .inl (List.mem_cons_of_mem _ old)
          · exact .inr new

theorem getMember {name : String} {value : Value} {pairs : List (String × Value)}
    (found : get? name pairs = some value) : (name,value) ∈ pairs := by
  induction pairs with
  | nil => cases found
  | cons pair rest ih =>
      obtain ⟨key,old⟩ := pair
      rw [get?] at found
      split at found
      · rename_i same
        cases found
        rw [same]
        exact List.mem_cons_self
      · exact List.mem_cons_of_mem _ (ih found)

end DocBlocks.Entries
