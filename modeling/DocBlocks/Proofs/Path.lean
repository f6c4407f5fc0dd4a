import DocBlocks.Files.Lookup
import DocBlocks.Proofs.Text.Pieces

/-! Paths below a directory: the components of a child are those of its directory with the name behind
them, so that a path from the directory down is told by its names, and children are in the order of
their names. -/
namespace DocBlocks.Path

def IsName (name : String) : Prop := name ≠ "" ∧ name ≠ "." ∧ name ≠ ".." ∧ '/' ∉ name.toList

instance (name : String) : Decidable (IsName name) :=
  inferInstanceAs (Decidable (_ ∧ _ ∧ _ ∧ _))

def under (p : Path) (names : List String) : Path := names.foldl child p

variable {p q : Path} {name other : String} {names names' : List String}

theorem childText (filled : p.text ≠ "") (plain : IsName name) : ∃ before,
    (p.text.toList = before ∨ p.text.toList = before ++ ['/']) ∧
      (p.child name).text.toList = before ++ '/' :: name.toList := by
  have relative : (Path.mk name).isAbsolute = false := by
    rw [isAbsolute, beq_eq_false_iff_ne]
    intro head
    exact plain.2.2.2 (List.mem_of_head? head)
  have there : p.text.isEmpty = false := by simpa using filled
  unfold child join
  rw [relative, there, Bool.or_false, if_neg Bool.false_ne_true]
  split
  · rename_i slash
    obtain ⟨before,last⟩ := List.getLast?_eq_some_iff.mp (beq_iff_eq.mp slash)
    exact ⟨before,.inr last,by simp [last]⟩
  · exact ⟨p.text.toList,.inl rfl,by simp⟩

theorem childFilled (filled : p.text ≠ "") (plain : IsName name) : (p.child name).text ≠ "" := by
  obtain ⟨before,_,whole⟩ := childText filled plain
  intro none
  rw [none] at whole
  simp at whole

theorem childAbsolute (filled : p.text ≠ "") (plain : IsName name) :
    (p.child name).isAbsolute = p.isAbsolute := by
  obtain ⟨before,same,whole⟩ := childText filled plain
  rw [isAbsolute, isAbsolute, whole]
  cases before with
  | nil =>
      rcases same with same | same
      · exact absurd (String.toList_eq_nil_iff.mp same) filled
      · rw [same]
        rfl
  | cons c before =>
      rcases same with same | same <;> rw [same] <;> rfl

theorem childPieces (filled : p.text ≠ "") (plain : IsName name) : ∃ parts,
    Text.pieces (· == '/') (p.child name).text.toList = parts ++ [name.toList] ∧
      (Text.pieces (· == '/') p.text.toList = parts ∨
        Text.pieces (· == '/') p.text.toList = parts ++ [[]]) := by
  obtain ⟨before,same,whole⟩ := childText filled plain
  have last : Text.pieces (· == '/') name.toList = [name.toList] :=
    Text.piecesWhole fun d member => beq_false_of_ne fun slash => plain.2.2.2 (slash ▸ member)
  refine ⟨Text.pieces (· == '/') before,?_,?_⟩
  · rw [whole, Text.piecesAtCut rfl, last]
  · rcases same with same | same
    · exact .inl (by rw [same])
    · exact .inr (by rw [same, Text.piecesAtCut rfl]; rfl)

theorem childSegments (filled : p.text ≠ "") (plain : IsName name) : ∃ parts,
    segments (p.child name).text = parts ++ [name] ∧
      (segments p.text = parts ∨ segments p.text = parts ++ [""]) := by
  obtain ⟨parts,whole,same⟩ := childPieces filled plain
  refine ⟨parts.map String.ofList,by simp [segments, whole],?_⟩
  rcases same with same | same
  · exact .inl (by rw [segments, same])
  · exact .inr (by simp [segments, same])

theorem segmentsLast {last : List Char} {component : Option Component}
    (counts : ∀ isFirst, Component.ofSegment? isFirst last = component) (isFirst : Bool)
    (start : Nat) (parts : List (List Char)) :
    (ofSegments isFirst start (parts ++ [last])).map (·.1) =
      (ofSegments isFirst start parts).map (·.1) ++ component.toList := by
  induction parts generalizing isFirst start with
  | nil =>
      simp only [List.nil_append, ofSegments, counts]
      cases component <;> rfl
  | cons part rest ih =>
      have later := ih false (start + part.length + 1)
      simp only [List.cons_append, ofSegments]
      cases Component.ofSegment? isFirst part with
      | none => exact later
      | some component => exact congrArg (component :: ·) later

theorem nameSegment (plain : IsName name) (isFirst : Bool) :
    Component.ofSegment? isFirst name.toList = some (.name name) := by
  obtain ⟨filled,current,parent,_⟩ := plain
  unfold Component.ofSegment?
  split
  · rename_i same
    exact absurd (String.toList_eq_nil_iff.mp same) filled
  · rename_i same
    exact absurd (String.toList_inj.mp same) current
  · rename_i same
    exact absurd (String.toList_inj.mp same) parent
  · simp

theorem childComponents (filled : p.text ≠ "") (plain : IsName name) :
    (p.child name).components = p.components ++ [.name name] := by
  obtain ⟨parts,whole,same⟩ := childPieces filled plain
  have last (isFirst : Bool) : (ofSegments isFirst 0 (parts ++ [name.toList])).map (·.1) =
      (ofSegments isFirst 0 (Text.pieces (· == '/') p.text.toList)).map (·.1) ++ [.name name] := by
    rw [segmentsLast (nameSegment plain)]
    rcases same with same | same
    · rw [same]
      rfl
    · have empty (isFirst : Bool) : Component.ofSegment? isFirst [] = none := rfl
      rw [same, segmentsLast empty]
      simp
  unfold components placed
  dsimp only
  rw [childAbsolute filled plain, whole]
  split
  · exact congrArg (Component.root :: ·) (last false)
  · exact last true

/-! ### The order of paths -/

theorem orderLevels (a b : Component) : a.order b =
    compareLex (compareOn Component.rank) (compareOn Component.text) a b := by
  cases a <;> cases b <;> rfl

instance : Std.TransCmp Component.order := by
  have same : Component.order = compareLex (compareOn Component.rank) (compareOn Component.text) :=
    funext fun a => funext (orderLevels a)
  rw [same]
  infer_instance

instance : Std.LawfulEqCmp Component.order where
  eq_of_compare {a b} equal := by
    cases a <;> cases b <;> first
      | rfl
      | exact congrArg Component.name (Std.LawfulEqOrd.compare_eq_iff_eq.mp equal)
      | cases equal

theorem orderGo (as bs : List Component) : order.go as bs = List.compareLex Component.order as bs := by
  induction as generalizing bs with
  | nil => cases bs <;> rfl
  | cons a as ih =>
      cases bs with
      | nil => rfl
      | cons b bs => rw [order.go, ih, List.compareLex_cons_cons]

theorem orderComponents (p q : Path) :
    p.order q = List.compareLex Component.order p.components q.components := orderGo _ _

instance : Std.TransCmp Path.order where
  eq_swap {p q} := by
    rw [orderComponents, orderComponents]
    exact Std.OrientedCmp.eq_swap
  isLE_trans {p q r} first second := by
    rw [orderComponents] at *
    exact Std.TransCmp.isLE_trans first second

instance {α : Type} (path : α → Path) : Std.TransCmp fun a b => (path a).order (path b) where
  eq_swap := Std.OrientedCmp.eq_swap
  isLE_trans := Std.TransCmp.isLE_trans

theorem orderEqual : p.order q = .eq ↔ p.components = q.components := by
  rw [orderComponents]
  exact Std.LawfulEqCmp.compare_eq_iff_eq

theorem orderGoSame (shared as bs : List Component) :
    order.go (shared ++ as) (shared ++ bs) = order.go as bs := by
  induction shared with
  | nil => rfl
  | cons c shared ih =>
      rw [List.cons_append, List.cons_append, order.go, ih,
        show c.order c = .eq from Std.ReflCmp.compare_self]
      rfl

theorem childOrder (filled : p.text ≠ "") (plain : IsName name) (plain' : IsName other) :
    (p.child name).order (p.child other) = compare name other := by
  rw [order, childComponents filled plain, childComponents filled plain', orderGoSame]
  change (compare name other).then .eq = _
  cases compare name other <;> rfl

/-! ### Paths below a directory -/

theorem underAppend (p : Path) (names : List String) (name : String) :
    p.under (names ++ [name]) = (p.under names).child name := by
  simp [under]

theorem underFilled (filled : p.text ≠ "") (plain : ∀ name ∈ names, IsName name) :
    (p.under names).text ≠ "" := by
  induction names generalizing p with
  | nil => exact filled
  | cons name rest ih =>
      obtain ⟨first,later⟩ := List.forall_mem_cons.mp plain
      exact ih (childFilled filled first) later

theorem underComponents (filled : p.text ≠ "") (plain : ∀ name ∈ names, IsName name) :
    (p.under names).components = p.components ++ names.map Component.name := by
  induction names generalizing p with
  | nil => exact (List.append_nil _).symm
  | cons name rest ih =>
      obtain ⟨first,later⟩ := List.forall_mem_cons.mp plain
      refine (ih (childFilled filled first) later).trans ?_
      rw [childComponents filled first, List.append_assoc]
      rfl

theorem underSame (filled : p.text ≠ "") (plain : ∀ name ∈ names, IsName name)
    (plain' : ∀ name ∈ names', IsName name)
    (equal : (p.under names).order (p.under names') = .eq) : names = names' := by
  have same := orderEqual.mp equal
  rw [underComponents filled plain, underComponents filled plain'] at same
  have injective : Function.Injective Component.name := fun _ _ same => Component.name.inj same
  exact injective.list_map (List.append_cancel_left same)

end DocBlocks.Path
