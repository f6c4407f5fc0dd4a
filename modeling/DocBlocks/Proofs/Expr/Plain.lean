import DocBlocks.Proofs.Expr.Soundness
import DocBlocks.Proofs.Value.Parts

/-! The parser makes literals of scalars only: a list or a mapping in a source is an expression of
its items, never a literal. -/
namespace DocBlocks

inductive Expr.Plain : Expr → Prop where
  | literal {value : Value} (scalar : value.IsScalar) : Plain (.literal value)
  | name (id : String) : Plain (.name id)
  | template {parts : List (TemplatePart Expr)} (inside : ∀ e, .embedded e ∈ parts → Plain e) :
      Plain (.template parts)
  | list {items : List Expr} (inside : ∀ e ∈ items, Plain e) : Plain (.list items)
  | map {entries : List (Expr × Expr)} (keys : ∀ key e, (key,e) ∈ entries → Plain key)
      (values : ∀ key e, (key,e) ∈ entries → Plain e) : Plain (.map entries)
  | unary (op : UnaryOp) {operand : Expr} (inside : Plain operand) : Plain (.unary op operand)
  | binary (op : BinaryOp) {left right : Expr} (first : Plain left) (second : Plain right) :
      Plain (.binary op left right)
  | compare {first : Expr} {links : List (CompareOp × Expr)} (head : Plain first)
      (inside : ∀ op e, (op,e) ∈ links → Plain e) : Plain (.compare first links)
  | and {left right : Expr} (first : Plain left) (second : Plain right) : Plain (.and left right)
  | or {left right : Expr} (first : Plain left) (second : Plain right) : Plain (.or left right)
  | index {target place : Expr} (first : Plain target) (second : Plain place) :
      Plain (.index target place)

theorem Expr.derivesPlain {level : Level} {tokens : List Token} {e : Expr}
    (derives : Derives level tokens e) : e.Plain := by
  induction derives with
  | conjunction _ ih | negation _ ih | comparison _ ih | sum _ ih | product _ ih | signed _ ih
  | power _ ih | subscripted _ ih | atom _ ih | paren _ ih => exact ih
  | or _ _ left right => exact .or left right
  | and _ _ left right => exact .and left right
  | not _ ih => exact .unary .not ih
  | minus _ ih => exact .unary .neg ih
  | plus _ ih => exact .unary .pos ih
  | additive _ _ _ left right | multiplicative _ _ _ left right => exact .binary _ left right
  | pow _ _ base exponent => exact .binary .pow base exponent
  | index _ _ target place => exact .index target place
  | int n | float x | strings s more | true _ | false _ | null _ => exact .literal trivial
  | name _ => exact .name _
  | compare _ _ _ first inside =>
      refine .compare first ?_
      intro op e member
      obtain ⟨link,linked,same⟩ := List.mem_map.mp member
      cases same
      exact inside link linked
  | @template s pieces _ _ _ inside =>
      refine .template ?_
      intro e member
      obtain ⟨piece,placed,same⟩ := List.mem_map.mp member
      cases piece with
      | text s => cases same
      | embedded piece =>
          cases same
          exact inside piece placed
  | list _ _ inside =>
      refine .list ?_
      intro e member
      obtain ⟨item,listed,rfl⟩ := List.mem_map.mp member
      exact inside item listed
  | map _ _ _ keys values =>
      refine .map ?_ ?_
      all_goals
        intro key e member
        obtain ⟨entry,listed,same⟩ := List.mem_map.mp member
        cases same
      · exact keys entry listed
      · exact values entry listed

theorem Expr.ofTokensPlain {tokens : List Token} {e : Expr} (read : ofTokens tokens = .ok e) :
    e.Plain :=
  derivesPlain (ofTokensSound read)

end DocBlocks
