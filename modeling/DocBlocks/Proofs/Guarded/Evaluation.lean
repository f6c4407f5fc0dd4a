import DocBlocks.Expr.Eval
import DocBlocks.Proofs.Expr.Induction
import DocBlocks.Proofs.Guarded.Operations

/-! Evaluating expressions with guarded operators. The order of evaluation is the same, so that a fault or an
error is that of the first operation that has one. -/
namespace DocBlocks.Guarded

mutual

def eval (scope : Arguments) : Expr → Tried Value
  | .literal value => return value
  | .name id => .of ((Expr.name id).eval scope)
  | .template parts => do
      let text ← evalParts scope parts
      return .string text
  | .list items => do
      let values ← evalItems scope items
      return .list values
  | .map entries => do
      let pairs ← evalEntries scope [] entries
      return .map pairs
  | .unary op operand => do
      let value ← eval scope operand
      .of (Operation.unary op value)
  | .binary op left right => do
      let a ← eval scope left
      let b ← eval scope right
      binary op a b
  | .compare first links => do
      let value ← eval scope first
      let holds ← evalLinks scope value links
      return .bool holds
  | .and left right => do
      let value ← eval scope left
      if value.isTruthy then eval scope right else return value
  | .or left right => do
      let value ← eval scope left
      if value.isTruthy then return value else eval scope right
  | .index target place => do
      let a ← eval scope target
      let b ← eval scope place
      subscript a b

def evalParts (scope : Arguments) : List (TemplatePart Expr) → Tried String
  | [] => return ""
  | .text s :: rest => do
      let text ← evalParts scope rest
      return s ++ text
  | .embedded e :: rest => do
      let value ← eval scope e
      let text ← evalParts scope rest
      return value.display ++ text

def evalItems (scope : Arguments) : List Expr → Tried (List Value)
  | [] => return []
  | item :: rest => do
      let value ← eval scope item
      let values ← evalItems scope rest
      return value :: values

def evalEntries (scope : Arguments) (pairs : List (String × Value)) :
    List (Expr × Expr) → Tried (List (String × Value))
  | [] => return pairs
  | (key, item) :: rest => do
      let keyValue ← eval scope key
      let key ← Tried.of (Expr.keyOf keyValue)
      let value ← eval scope item
      evalEntries scope (Entries.insert key value pairs) rest

def evalLinks (scope : Arguments) (left : Value) : List (CompareOp × Expr) → Tried Bool
  | [] => return true
  | (op, right) :: rest => do
      let value ← eval scope right
      let holds ← Tried.of (Operation.relate op left value)
      if holds then evalLinks scope value rest else return false

end

variable {scope : Arguments}

theorem partsRuns {parts : List (TemplatePart Expr)}
    (each : ∀ e, .embedded e ∈ parts → Follows (eval scope e) (e.eval scope)) :
    Follows (evalParts scope parts) (Expr.evalParts scope parts) := by
  induction parts with
  | nil => exact .inl rfl
  | cons part rest ih =>
      have others := ih fun e member => each e (List.mem_cons_of_mem _ member)
      cases part with
      | text s =>
          rw [evalParts, Expr.evalParts]
          exact followsTry others fun text found => .inl rfl
      | embedded e =>
          rw [evalParts, Expr.evalParts]
          exact followsTry (each e List.mem_cons_self) fun value found =>
            followsTry others fun text found => .inl rfl

theorem itemsRun {items : List Expr} (each : ∀ e ∈ items, Follows (eval scope e) (e.eval scope)) :
    Follows (evalItems scope items) (Expr.evalItems scope items) := by
  induction items with
  | nil => exact .inl rfl
  | cons item rest ih =>
      have others := ih fun e member => each e (List.mem_cons_of_mem _ member)
      rw [evalItems, Expr.evalItems]
      exact followsTry (each item List.mem_cons_self) fun value found =>
        followsTry others fun values found => .inl rfl

theorem entriesRun {entries : List (Expr × Expr)}
    (each : ∀ key e, (key,e) ∈ entries →
      Follows (eval scope key) (key.eval scope) ∧ Follows (eval scope e) (e.eval scope))
    (pairs : List (String × Value)) :
    Follows (evalEntries scope pairs entries) (Expr.evalEntries scope pairs entries) := by
  induction entries generalizing pairs with
  | nil => exact .inl rfl
  | cons entry rest ih =>
      obtain ⟨key,e⟩ := entry
      obtain ⟨keyRuns,itemRuns⟩ := each key e List.mem_cons_self
      rw [evalEntries, Expr.evalEntries]
      refine followsTry keyRuns fun keyValue found => followsTry (.inl rfl) fun name found =>
        followsTry itemRuns fun value found => ?_
      exact ih (fun key e member => each key e (List.mem_cons_of_mem _ member)) _

theorem linksRun {links : List (CompareOp × Expr)}
    (each : ∀ op e, (op,e) ∈ links → Follows (eval scope e) (e.eval scope)) (left : Value) :
    Follows (evalLinks scope left links) (Expr.evalLinks scope left links) := by
  induction links generalizing left with
  | nil => exact .inl rfl
  | cons link rest ih =>
      obtain ⟨op,e⟩ := link
      rw [evalLinks, Expr.evalLinks]
      refine followsTry (each op e List.mem_cons_self) fun value found =>
        followsTry (.inl rfl) fun holds found => ?_
      cases holds with
      | false => exact .inl rfl
      | true => exact ih (fun op e member => each op e (List.mem_cons_of_mem _ member)) value

theorem evalRuns (scope : Arguments) (e : Expr) : Follows (eval scope e) (e.eval scope) := by
  -- the parts follow the model, and what is done with their values follows it too
  induction e using Expr.partsInduction with
  | literal value =>
      rw [eval, Expr.eval]
      exact .inl rfl
  | name id =>
      rw [eval]
      exact .inl rfl
  | template parts each =>
      rw [eval, Expr.eval]
      exact followsTry (partsRuns each) fun text found => .inl rfl
  | list items each =>
      rw [eval, Expr.eval]
      exact followsTry (itemsRun each) fun values found => .inl rfl
  | map entries each =>
      rw [eval, Expr.eval]
      exact followsTry (entriesRun each []) fun pairs found => .inl rfl
  | unary op operand runs =>
      rw [eval, Expr.eval]
      exact followsTry runs fun value found => .inl rfl
  | binary op left right leftRuns rightRuns =>
      rw [eval, Expr.eval]
      exact followsTry leftRuns fun a found => followsTry rightRuns fun b found => .inl (binaryRuns op a b)
  | compare first links firstRuns each =>
      rw [eval, Expr.eval]
      exact followsTry firstRuns fun value found =>
        followsTry (linksRun each value) fun holds found => .inl rfl
  | and left right leftRuns rightRuns =>
      rw [eval, Expr.eval]
      refine followsTry leftRuns fun value found => ?_
      split
      · exact rightRuns
      · exact .inl rfl
  | or left right leftRuns rightRuns =>
      rw [eval, Expr.eval]
      refine followsTry leftRuns fun value found => ?_
      split
      · exact .inl rfl
      · exact rightRuns
  | index target place targetRuns placeRuns =>
      rw [eval, Expr.eval]
      exact followsTry targetRuns fun a found => followsTry placeRuns fun b found => subscriptRuns a b

end DocBlocks.Guarded
