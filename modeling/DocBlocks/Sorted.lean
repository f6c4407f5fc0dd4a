/-!
Lists kept in an order. An element goes behind those that are equal to it, so that sorting is stable;
in a sorted mapping there is one entry for each key.
-/
namespace DocBlocks.Sorted

variable {α : Type}

def insert (order : α → α → Ordering) (x : α) : List α → List α
  | [] => [x]
  | y :: rest => if order x y == .lt then x :: y :: rest else y :: insert order x rest

def ofList (order : α → α → Ordering) (xs : List α) : List α :=
  xs.foldl (fun sorted x => insert order x sorted) []

def put (order : α → α → Ordering) (x : α) : List α → List α
  | [] => [x]
  | y :: rest =>
      match order x y with
      | .lt => x :: y :: rest
      | .eq => x :: rest
      | .gt => y :: put order x rest

def byKey {β : Type} (order : α → α → Ordering) (a b : α × β) : Ordering := order a.1 b.1

theorem insert_perm (order : α → α → Ordering) (x : α) (xs : List α) :
    (insert order x xs).Perm (x :: xs) := by
  induction xs with
  | nil => exact List.Perm.refl _
  | cons y rest ih =>
      simp only [insert]
      split
      · exact List.Perm.refl _
      · exact (ih.cons y).trans (List.Perm.swap x y rest)

theorem ofList_perm (order : α → α → Ordering) (xs : List α) : (ofList order xs).Perm xs := by
  have all : ∀ sorted, (xs.foldl (fun sorted x => insert order x sorted) sorted).Perm
      (sorted ++ xs) := by
    induction xs with
    | nil => intro sorted; simp
    | cons x rest ih =>
        intro sorted
        have h := (insert_perm order x sorted).append_right rest
        have moved : (x :: sorted ++ rest).Perm (sorted ++ x :: rest) := List.perm_middle.symm
        exact (ih (insert order x sorted)).trans (h.trans moved)
  simpa [ofList] using all []

end DocBlocks.Sorted
