import DocBlocks.Expr.Eval
import DocBlocks.Proofs.Expr.Induction

/-! The names that an expression mentions. Its value, and its error when it has none, depend on what a
scope binds them to and on nothing else in the scope. -/
namespace DocBlocks.Expr

mutual

def names : Expr → List String
  | literal _ => []
  | name id => [id]
  | template parts => partNames parts
  | list items => itemNames items
  | map entries => entryNames entries
  | unary _ operand => operand.names
  | binary _ left right => left.names ++ right.names
  | compare first links => first.names ++ linkNames links
  | and left right => left.names ++ right.names
  | or left right => left.names ++ right.names
  | index target place => target.names ++ place.names

def partNames : List (TemplatePart Expr) → List String
  | [] => []
  | .text _ :: rest => partNames rest
  | .embedded e :: rest => e.names ++ partNames rest

def itemNames : List Expr → List String
  | [] => []
  | item :: rest => item.names ++ itemNames rest

def entryNames : List (Expr × Expr) → List String
  | [] => []
  | (key, item) :: rest => key.names ++ item.names ++ entryNames rest

def linkNames : List (CompareOp × Expr) → List String
  | [] => []
  | (_, right) :: rest => right.names ++ linkNames rest

end

variable {first second : Arguments}

def Agree (first second : Arguments) (ids : List String) : Prop :=
  ∀ id ∈ ids, first.get? id = second.get? id

theorem agreeAppend {a b : List String} :
    Agree first second (a ++ b) ↔ Agree first second a ∧ Agree first second b :=
  List.forall_mem_append

def Alike (first second : Arguments) (e : Expr) : Prop :=
  Agree first second e.names → e.eval first = e.eval second

theorem partsAlike {parts : List (TemplatePart Expr)}
    (each : ∀ e, .embedded e ∈ parts → Alike first second e)
    (agree : Agree first second (partNames parts)) : evalParts first parts = evalParts second parts := by
  induction parts with
  | nil => rfl
  | cons part rest ih =>
      have later := ih fun e member => each e (List.mem_cons_of_mem _ member)
      cases part with
      | text s => rw [evalParts, evalParts, later agree]
      | embedded e =>
          rw [partNames, agreeAppend] at agree
          rw [evalParts, evalParts, each e List.mem_cons_self agree.1, later agree.2]

theorem itemsAlike {items : List Expr} (each : ∀ e ∈ items, Alike first second e)
    (agree : Agree first second (itemNames items)) : evalItems first items = evalItems second items := by
  induction items with
  | nil => rfl
  | cons item rest ih =>
      have later := ih fun e member => each e (List.mem_cons_of_mem _ member)
      rw [itemNames, agreeAppend] at agree
      rw [evalItems, evalItems, each item List.mem_cons_self agree.1, later agree.2]

theorem entriesAlike {entries : List (Expr × Expr)}
    (each : ∀ key e, (key,e) ∈ entries → Alike first second key ∧ Alike first second e)
    (agree : Agree first second (entryNames entries)) (pairs : List (String × Value)) :
    evalEntries first pairs entries = evalEntries second pairs entries := by
  induction entries generalizing pairs with
  | nil => rfl
  | cons entry rest ih =>
      obtain ⟨key,item⟩ := entry
      rw [entryNames, agreeAppend, agreeAppend] at agree
      obtain ⟨keyAlike,itemAlike⟩ := each key item List.mem_cons_self
      have later := ih (fun key e member => each key e (List.mem_cons_of_mem _ member)) agree.2
      simp only [evalEntries, keyAlike agree.1.1, itemAlike agree.1.2, later]

theorem linksAlike {links : List (CompareOp × Expr)}
    (each : ∀ op e, (op,e) ∈ links → Alike first second e)
    (agree : Agree first second (linkNames links)) (left : Value) :
    evalLinks first left links = evalLinks second left links := by
  induction links generalizing left with
  | nil => rfl
  | cons link rest ih =>
      obtain ⟨op,right⟩ := link
      rw [linkNames, agreeAppend] at agree
      have later := ih (fun op e member => each op e (List.mem_cons_of_mem _ member)) agree.2
      simp only [evalLinks, each op right List.mem_cons_self agree.1, later]

/- Two scopes that agree on the names of an expression give it the same value, or the same error. -/
theorem evalOnNames {e : Expr} (agree : ∀ id ∈ e.names, first.get? id = second.get? id) :
    e.eval first = e.eval second := by
  revert agree
  -- a node looks no name up that is not among its own or those of its parts
  induction e using partsInduction with
  | literal value => intro _; rfl
  | name id =>
      intro agree
      rw [eval, eval, agree id List.mem_cons_self]
  | template parts each =>
      intro agree
      rw [eval, eval, partsAlike each agree]
  | list items each =>
      intro agree
      rw [eval, eval, itemsAlike each agree]
  | map entries each =>
      intro agree
      rw [eval, eval, entriesAlike each agree]
  | unary op operand ih =>
      intro agree
      rw [eval, eval, ih agree]
  | compare head links ih each =>
      intro agree
      obtain ⟨inHead,inLinks⟩ := agreeAppend.mp agree
      simp only [eval, ih inHead, linksAlike each inLinks]
  | binary _ left right ihLeft ihRight | and left right ihLeft ihRight
  | or left right ihLeft ihRight | index left right ihLeft ihRight =>
      intro agree
      obtain ⟨inLeft,inRight⟩ := agreeAppend.mp agree
      rw [eval, eval, ihLeft inLeft, ihRight inRight]

theorem reorderedAlike :
    (∀ id ∈ (index (template [.embedded (name "n")]) (name "at")).names,
        Arguments.get? ⟨[("n",.int 1),("more",.null),("at",.int 0)]⟩ id =
          Arguments.get? ⟨[("at",.int 0),("n",.int 1)]⟩ id) ∧
      (index (template [.embedded (name "n")]) (name "at")).eval
          ⟨[("n",.int 1),("more",.null),("at",.int 0)]⟩ =
        (index (template [.embedded (name "n")]) (name "at")).eval ⟨[("at",.int 0),("n",.int 1)]⟩ := by
  have agree : ∀ id ∈ (index (template [.embedded (name "n")]) (name "at")).names,
      Arguments.get? ⟨[("n",.int 1),("more",.null),("at",.int 0)]⟩ id =
        Arguments.get? ⟨[("at",.int 0),("n",.int 1)]⟩ id :=
    List.forall_mem_cons.mpr ⟨rfl,List.forall_mem_singleton.mpr rfl⟩
  exact ⟨agree,evalOnNames agree⟩

end DocBlocks.Expr
