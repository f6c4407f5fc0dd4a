import DocBlocks.Expr.Basic

/-! Induction on expressions with a hypothesis for every direct part, those inside lists and mappings, chains
and templates included. -/
namespace DocBlocks.Expr

theorem partsInduction {P : Expr → Prop} (literal : ∀ value, P (.literal value))
    (name : ∀ id, P (.name id))
    (template : ∀ parts, (∀ e, .embedded e ∈ parts → P e) → P (.template parts))
    (list : ∀ items, (∀ e ∈ items, P e) → P (.list items))
    (map : ∀ entries, (∀ key e, (key,e) ∈ entries → P key ∧ P e) → P (.map entries))
    (unary : ∀ op operand, P operand → P (.unary op operand))
    (binary : ∀ op left right, P left → P right → P (.binary op left right))
    (compare : ∀ first links, P first → (∀ op e, (op,e) ∈ links → P e) → P (.compare first links))
    (and : ∀ left right, P left → P right → P (.and left right))
    (or : ∀ left right, P left → P right → P (.or left right))
    (index : ∀ target place, P target → P place → P (.index target place)) (e : Expr) : P e := by
  -- by size, since the parts of a node stand in lists and pairs, into which the recursor of the type does
  -- not go
  induction size : sizeOf e using Nat.strongRecOn generalizing e with
  | ind n ih =>
      have part (inner : Expr) (smaller : sizeOf inner < sizeOf e) : P inner :=
        ih _ (size ▸ smaller) inner rfl
      cases e with
      | literal value => exact literal value
      | name id => exact name id
      | template parts =>
          refine template parts fun e member => part e ?_
          have inside := List.sizeOf_lt_of_mem member
          simp only [TemplatePart.embedded.sizeOf_spec, Expr.template.sizeOf_spec] at inside ⊢
          omega
      | list items =>
          refine list items fun e member => part e ?_
          have inside := List.sizeOf_lt_of_mem member
          simp only [Expr.list.sizeOf_spec]
          omega
      | map entries =>
          refine map entries fun key e member => ⟨part key ?_,part e ?_⟩
          all_goals
            have inside := List.sizeOf_lt_of_mem member
            simp only [Prod.mk.sizeOf_spec, Expr.map.sizeOf_spec] at inside ⊢
            omega
      | compare first links =>
          refine compare first links (part first ?_) fun op e member => part e ?_
          · simp only [Expr.compare.sizeOf_spec]
            omega
          · have inside := List.sizeOf_lt_of_mem member
            simp only [Prod.mk.sizeOf_spec, Expr.compare.sizeOf_spec] at inside ⊢
            omega
      | unary op operand =>
          refine unary op operand (part operand ?_)
          simp only [Expr.unary.sizeOf_spec]
          omega
      | binary op left right =>
          refine binary op left right (part left ?_) (part right ?_) <;>
            simp only [Expr.binary.sizeOf_spec] <;> omega
      | and left right =>
          refine and left right (part left ?_) (part right ?_) <;>
            simp only [Expr.and.sizeOf_spec] <;> omega
      | or left right =>
          refine or left right (part left ?_) (part right ?_) <;>
            simp only [Expr.or.sizeOf_spec] <;> omega
      | index target place =>
          refine index target place (part target ?_) (part place ?_) <;>
            simp only [Expr.index.sizeOf_spec] <;> omega

end DocBlocks.Expr
