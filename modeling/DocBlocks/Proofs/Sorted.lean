import DocBlocks.Sorted

/-! Lists kept in an order. Sorting keeps elements that are equal in the order in which they came, and
so is settled by that order alone; putting elements one after another gives each of them one place. -/
namespace DocBlocks.Sorted

variable {α : Type} {order : α → α → Ordering} {x y z : α} {xs ys : List α}

def InOrder (order : α → α → Ordering) (xs : List α) : Prop := xs.Pairwise fun a b => order a b ≠ .gt

def Strict (order : α → α → Ordering) (xs : List α) : Prop := xs.Pairwise fun a b => order a b = .lt

def level (order : α → α → Ordering) (a b : α) : Bool := order a b == .eq

section
variable [Std.TransCmp order]

theorem levelSelf (order : α → α → Ordering) [Std.TransCmp order] (a : α) : level order a a = true :=
  beq_iff_eq.mpr Std.ReflCmp.compare_self

theorem levelBoth {a : α} (first : level order a x = true) (second : level order a y = true) :
    order x y = .eq :=
  Std.TransCmp.eq_trans (Std.OrientedCmp.eq_symm (beq_iff_eq.mp first)) (beq_iff_eq.mp second)

theorem beforeAll (before : order x y = .lt) (ordered : InOrder order (y :: xs)) :
    ∀ z ∈ y :: xs, order x z = .lt := by
  intro z member
  rcases List.mem_cons.mp member with rfl | later
  · exact before
  · have next := (List.pairwise_cons.mp ordered).1 z later
    cases same : order y z with
    | lt => exact Std.TransCmp.lt_trans before same
    | eq => rw [← Std.TransCmp.congr_right same]; exact before
    | gt => exact absurd same next

theorem insertInOrder (ordered : InOrder order xs) (x : α) : InOrder order (insert order x xs) := by
  induction xs with
  | nil => exact List.pairwise_singleton _ _
  | cons y rest ih =>
      rw [insert]
      split
      · rename_i before
        refine List.pairwise_cons.mpr ⟨fun z member => ?_,ordered⟩
        rw [beforeAll (beq_iff_eq.mp before) ordered z member]
        intro after
        cases after
      · rename_i behind
        obtain ⟨first,ordered⟩ := List.pairwise_cons.mp ordered
        refine List.pairwise_cons.mpr ⟨fun z member => ?_,ih ordered⟩
        rcases List.mem_cons.mp ((insert_perm order x rest).mem_iff.mp member) with rfl | later
        · intro after
          exact behind (beq_iff_eq.mpr (Std.OrientedCmp.lt_of_gt after))
        · exact first z later

theorem insertFilter (ordered : InOrder order xs) (x a : α) :
    (insert order x xs).filter (level order a) =
      xs.filter (level order a) ++ [x].filter (level order a) := by
  induction xs with
  | nil => rfl
  | cons y rest ih =>
      rw [insert]
      split
      · rename_i before
        have after := beforeAll (beq_iff_eq.mp before) ordered
        cases kind : level order a x with
        | false => simp [kind]
        | true =>
            have none : (y :: rest).filter (level order a) = [] := by
              refine List.filter_eq_nil_iff.mpr fun z member same => ?_
              have behind := after z member
              rw [levelBoth kind same] at behind
              cases behind
            rw [List.filter_cons_of_pos kind, none, List.filter_cons_of_pos kind]
            rfl
      · have later := ih (List.pairwise_cons.mp ordered).2
        rw [List.filter_cons, List.filter_cons, later]
        split <;> rfl

theorem insertAllInOrder (xs : List α) {sorted : List α} (ordered : InOrder order sorted) :
    InOrder order (xs.foldl (fun sorted x => insert order x sorted) sorted) := by
  induction xs generalizing sorted with
  | nil => exact ordered
  | cons x rest ih => exact ih (insertInOrder ordered x)

theorem insertAllFilter (xs : List α) (a : α) {sorted : List α} (ordered : InOrder order sorted) :
    (xs.foldl (fun sorted x => insert order x sorted) sorted).filter (level order a) =
      sorted.filter (level order a) ++ xs.filter (level order a) := by
  induction xs generalizing sorted with
  | nil => exact (List.append_nil _).symm
  | cons x rest ih =>
      rw [List.foldl_cons, ih (insertInOrder ordered x), insertFilter ordered x a,
        List.append_assoc, ← List.filter_append]
      rfl

theorem ofListInOrder (order : α → α → Ordering) [Std.TransCmp order] (xs : List α) :
    InOrder order (ofList order xs) := insertAllInOrder xs .nil

theorem ofListFilter (order : α → α → Ordering) [Std.TransCmp order] (xs : List α) (a : α) :
    (ofList order xs).filter (level order a) = xs.filter (level order a) := insertAllFilter xs a .nil

structure StablySorted (order : α → α → Ordering) (xs sorted : List α) : Prop where
  ordered : InOrder order sorted
  same : sorted.Perm xs
  stable : ∀ a, sorted.filter (level order a) = xs.filter (level order a)

theorem ofListStable (order : α → α → Ordering) [Std.TransCmp order] (xs : List α) :
    StablySorted order xs (ofList order xs) :=
  ⟨ofListInOrder order xs,ofList_perm order xs,ofListFilter order xs⟩

theorem headLeast (ordered : InOrder order (y :: ys))
    (same : (x :: xs).filter (level order x) = (y :: ys).filter (level order x)) :
    order y x ≠ .gt := by
  have inside : x ∈ (y :: ys).filter (level order x) := by
    rw [← same, List.filter_cons_of_pos (levelSelf order x)]
    exact List.mem_cons_self
  rcases List.mem_cons.mp (List.mem_filter.mp inside).1 with rfl | later
  · rw [beq_iff_eq.mp (levelSelf order x)]
    nofun
  · exact (List.pairwise_cons.mp ordered).1 x later

/- Ordered lists with the same elements of every level, each level in the same order, are the same. -/
theorem inOrderSame (first : InOrder order xs) (second : InOrder order ys)
    (same : ∀ a, xs.filter (level order a) = ys.filter (level order a)) : xs = ys := by
  induction xs generalizing ys with
  | nil =>
      cases ys with
      | nil => rfl
      | cons y rest =>
          have none := same y
          rw [List.filter_nil, List.filter_cons_of_pos (levelSelf order y)] at none
          cases none
  | cons x xs ih =>
      cases ys with
      | nil =>
          have none := same x
          rw [List.filter_nil, List.filter_cons_of_pos (levelSelf order x)] at none
          cases none
      | cons y ys =>
          have left := headLeast second (same x)
          have right := headLeast first (same y).symm
          have heads := same x
          -- neither head comes before the other, as it stands in the other list too
          have equal : level order x y = true := by
            cases way : order x y with
            | lt => exact absurd (Std.OrientedCmp.gt_of_lt way) left
            | eq => exact beq_iff_eq.mpr way
            | gt => exact absurd way right
          rw [List.filter_cons_of_pos (levelSelf order x), List.filter_cons_of_pos equal] at heads
          obtain ⟨rfl,_⟩ := List.cons.inj heads
          refine congrArg (x :: ·) (ih (List.pairwise_cons.mp first).2 (List.pairwise_cons.mp second).2
            fun a => ?_)
          have all := same a
          rw [List.filter_cons, List.filter_cons] at all
          split at all
          · exact (List.cons.inj all).2
          · exact all

end

theorem putMember (member : z ∈ put order x xs) : z = x ∨ z ∈ xs := by
  induction xs with
  | nil => exact .inl (List.mem_singleton.mp member)
  | cons y rest ih =>
      simp only [put] at member
      split at member
      · exact List.mem_cons.mp member
      · exact (List.mem_cons.mp member).imp_right (List.mem_cons_of_mem _)
      · rcases List.mem_cons.mp member with rfl | later
        · exact .inr List.mem_cons_self
        · exact (ih later).imp_right (List.mem_cons_of_mem _)

theorem putSelf (order : α → α → Ordering) (x : α) (xs : List α) : x ∈ put order x xs := by
  induction xs with
  | nil => exact List.mem_singleton_self x
  | cons y rest ih =>
      simp only [put]
      split
      · exact List.mem_cons_self
      · exact List.mem_cons_self
      · exact List.mem_cons_of_mem _ ih

theorem putKept (member : z ∈ xs) (apart : order x z ≠ .eq) : z ∈ put order x xs := by
  induction xs with
  | nil => cases member
  | cons y rest ih =>
      simp only [put]
      split
      · exact List.mem_cons_of_mem _ member
      · rename_i same
        rcases List.mem_cons.mp member with rfl | later
        · exact absurd same apart
        · exact List.mem_cons_of_mem _ later
      · rcases List.mem_cons.mp member with rfl | later
        · exact List.mem_cons_self
        · exact List.mem_cons_of_mem _ (ih later)

theorem putPairwise {apart : α → α → Prop} (both : xs.Pairwise apart)
    (new : ∀ y ∈ xs, apart x y ∧ apart y x) : (put order x xs).Pairwise apart := by
  induction xs with
  | nil => exact List.pairwise_singleton _ _
  | cons y rest ih =>
      obtain ⟨first,later⟩ := List.pairwise_cons.mp both
      obtain ⟨here,there⟩ := List.forall_mem_cons.mp new
      simp only [put]
      split
      · exact List.pairwise_cons.mpr ⟨fun z member => (new z member).1,both⟩
      · exact List.pairwise_cons.mpr ⟨fun z member => (there z member).1,later⟩
      · refine List.pairwise_cons.mpr ⟨fun z member => ?_,ih later there⟩
        rcases putMember member with rfl | old
        · exact here.2
        · exact first z old

theorem putIff [Std.LawfulEqCmp order] : z ∈ put order x xs ↔ z = x ∨ z ∈ xs := by
  refine ⟨putMember,?_⟩
  rintro (rfl | member)
  · exact putSelf order z xs
  · by_cases same : order x z = .eq
    · rw [Std.LawfulEqCmp.eq_of_compare same]
      exact putSelf order z xs
    · exact putKept member same

theorem putStrict [Std.TransCmp order] (ordered : Strict order xs) (x : α) :
    Strict order (put order x xs) := by
  induction xs with
  | nil => exact List.pairwise_singleton _ _
  | cons y rest ih =>
      obtain ⟨first,later⟩ := List.pairwise_cons.mp ordered
      simp only [put]
      split
      · rename_i before
        refine List.pairwise_cons.mpr ⟨fun z member => ?_,ordered⟩
        rcases List.mem_cons.mp member with rfl | member
        · exact before
        · exact Std.TransCmp.lt_trans before (first z member)
      · rename_i same
        refine List.pairwise_cons.mpr ⟨fun z member => ?_,later⟩
        rw [Std.TransCmp.congr_left same]
        exact first z member
      · rename_i after
        refine List.pairwise_cons.mpr ⟨fun z member => ?_,ih later⟩
        rcases putMember member with rfl | member
        · exact Std.OrientedCmp.lt_of_gt after
        · exact first z member

instance {β : Type} [Std.TransCmp order] :
    Std.TransCmp (byKey order : α × β → α × β → Ordering) where
  eq_swap {a b} := (Std.OrientedCmp.eq_swap : order a.1 b.1 = (order b.1 a.1).swap)
  isLE_trans {a b c} first second :=
    have before : (order a.1 b.1).isLE = true := first
    have after : (order b.1 c.1).isLE = true := second
    (Std.TransCmp.isLE_trans before after : (order a.1 c.1).isLE = true)

def putAll (order : α → α → Ordering) (xs sorted : List α) : List α :=
  xs.foldl (fun sorted x => put order x sorted) sorted

theorem putAllAppend (xs ys sorted : List α) :
    putAll order (xs ++ ys) sorted = putAll order ys (putAll order xs sorted) := List.foldl_append

theorem putAllStrict [Std.TransCmp order] (xs : List α) {sorted : List α}
    (ordered : Strict order sorted) : Strict order (putAll order xs sorted) := by
  induction xs generalizing sorted with
  | nil => exact ordered
  | cons x rest ih => exact ih (putStrict ordered x)

theorem putAllFound {sorted : List α} (member : z ∈ putAll order xs sorted) : z ∈ xs ∨ z ∈ sorted := by
  induction xs generalizing sorted with
  | nil => exact .inr member
  | cons x rest ih =>
      rcases ih member with later | member
      · exact .inl (List.mem_cons_of_mem _ later)
      · rcases putMember member with rfl | old
        · exact .inl List.mem_cons_self
        · exact .inr old

theorem putAllIff [Std.LawfulEqCmp order] {sorted : List α} :
    z ∈ putAll order xs sorted ↔ z ∈ xs ∨ z ∈ sorted := by
  induction xs generalizing sorted with
  | nil => simp [putAll]
  | cons x rest ih =>
      change z ∈ putAll order rest (put order x sorted) ↔ _
      rw [ih, putIff, List.mem_cons]
      grind

theorem putAllKept {sorted : List α} (member : z ∈ sorted) (apart : ∀ x ∈ xs, order x z ≠ .eq) :
    z ∈ putAll order xs sorted := by
  induction xs generalizing sorted with
  | nil => exact member
  | cons x rest ih =>
      exact ih (putKept member (apart x List.mem_cons_self))
        fun y later => apart y (List.mem_cons_of_mem _ later)

theorem putAllMember (apart : xs.Pairwise fun a b => order b a ≠ .eq) {sorted : List α} :
    z ∈ xs → z ∈ putAll order xs sorted := by
  intro member
  induction xs generalizing sorted with
  | nil => cases member
  | cons x rest ih =>
      obtain ⟨first,apart⟩ := List.pairwise_cons.mp apart
      rcases List.mem_cons.mp member with rfl | later
      · change z ∈ putAll order rest (put order z sorted)
        exact putAllKept (putSelf order z sorted) first
      · exact ih apart later

theorem findLeast [Std.TransCmp order] (ordered : Strict order xs) (kind : α → Bool) :
    xs.find? kind = some x ↔
      x ∈ xs ∧ kind x = true ∧ ∀ y ∈ xs, kind y = true → y = x ∨ order x y = .lt := by
  have least {x} (found : xs.find? kind = some x) :
      x ∈ xs ∧ kind x = true ∧ ∀ y ∈ xs, kind y = true → y = x ∨ order x y = .lt := by
    obtain ⟨own,before,after,rfl,others⟩ := List.find?_eq_some_iff_append.mp found
    refine ⟨by simp,own,fun y member kept => ?_⟩
    rcases List.mem_append.mp member with early | later
    · have dropped := others y early
      rw [kept] at dropped
      cases dropped
    · rcases List.mem_cons.mp later with same | later
      · exact .inl same
      · have rest := (List.pairwise_append.mp ordered).2.1
        exact .inr ((List.pairwise_cons.mp rest).1 y later)
  refine ⟨least,fun ⟨member,own,first⟩ => ?_⟩
  cases found : xs.find? kind with
  | none => exact absurd own (List.find?_eq_none.mp found x member)
  | some y =>
      obtain ⟨inside,kept,first'⟩ := least found
      rcases first y inside kept with same | before
      · rw [same]
      · rcases first' x member own with same | after
        · rw [same]
        · rw [Std.OrientedCmp.gt_of_lt after] at before
          cases before

end DocBlocks.Sorted
