import DocBlocks.Expr.Parse

/-! What each level of the expression parser reads from the head of a token list, as a relation
between the list, the outcome and the list that is left. Errors and the proofs that lists get shorter
do not appear in it. -/
namespace DocBlocks.Parse

def Reads {α : Type} {P : List Token → Prop} (parsed : Except ExprError (α × { rest // P rest }))
    (value : α) (rest : List Token) : Prop :=
  ∃ left, parsed = .ok (value,⟨rest,left⟩)

theorem readsLeft {α : Type} {P : List Token → Prop}
    {parsed : Except ExprError (α × { rest // P rest })} {value : α} {rest : List Token}
    (reads : Reads parsed value rest) : P rest := by
  obtain ⟨left,_⟩ := reads
  exact left

theorem readsOk {α : Type} {P : List Token → Prop} {a b : α} {left rest : List Token}
    {h : P left} :
    Reads (P := P) (.ok (a,⟨left,h⟩)) b rest ↔ b = a ∧ rest = left := by
  constructor
  · rintro ⟨_,same⟩
    cases same
    exact ⟨rfl,rfl⟩
  · rintro ⟨rfl,rfl⟩
    exact ⟨h,rfl⟩

theorem readsError {α : Type} {P : List Token → Prop} {e : ExprError} {a : α}
    {rest : List Token} : Reads (P := P) (.error e) a rest ↔ False := by
  constructor
  · rintro ⟨_,same⟩
    cases same
  · exact False.elim

theorem readsBind {α β : Type} {P Q : List Token → Prop}
    {first : Except ExprError (α × { rest // P rest })}
    {next : α × { rest // P rest } → Except ExprError (β × { rest // Q rest })} {b : β}
    {rest : List Token} :
    Reads (first >>= next) b rest ↔
      ∃ a mid, ∃ h : P mid, Reads first a mid ∧ Reads (next (a,⟨mid,h⟩)) b rest := by
  constructor
  · intro reads
    cases first with
    | error e => exact (readsError.mp reads).elim
    | ok outcome => exact ⟨outcome.1,outcome.2.1,outcome.2.2,⟨outcome.2.2,rfl⟩,reads⟩
  · rintro ⟨a,mid,h,⟨_,rfl⟩,second⟩
    exact second

theorem readsVia {α β : Type} {P Q : List Token → Prop}
    {first : Except ExprError (α × { rest // P rest })}
    {next : α × { rest // P rest } → Except ExprError (β × { rest // Q rest })} {b : β}
    {rest : List Token} (after : α → List Token → Prop)
    (same : ∀ a mid h, Reads (next (a,⟨mid,h⟩)) b rest ↔ after a mid) :
    Reads (first >>= next) b rest ↔ ∃ a mid, Reads first a mid ∧ after a mid := by
  rw [readsBind]
  constructor
  · rintro ⟨a,mid,h,one,two⟩
    exact ⟨a,mid,one,(same a mid h).mp two⟩
  · rintro ⟨a,mid,one,two⟩
    exact ⟨a,mid,readsLeft one,one,(same a mid _).mpr two⟩

theorem readsReturn {α β : Type} {P Q : List Token → Prop}
    {first : Except ExprError (α × { rest // P rest })}
    {next : α × { rest // P rest } → Except ExprError (β × { rest // Q rest })} {b : β}
    {rest : List Token} {f : α → β}
    (same : ∀ a mid h, ∃ k, next (a,⟨mid,h⟩) = .ok (f a,⟨mid,k⟩)) :
    Reads (first >>= next) b rest ↔ ∃ a, Reads first a rest ∧ b = f a := by
  rw [readsBind]
  constructor
  · rintro ⟨a,mid,h,one,two⟩
    obtain ⟨k,made⟩ := same a mid h
    rw [made, readsOk] at two
    obtain ⟨rfl,rfl⟩ := two
    exact ⟨a,one,rfl⟩
  · rintro ⟨a,one,rfl⟩
    obtain ⟨k,made⟩ := same a rest (readsLeft one)
    exact ⟨a,rest,readsLeft one,one,made ▸ readsOk.mpr ⟨rfl,rfl⟩⟩

theorem readsSame {α : Type} {P Q : List Token → Prop}
    {first : Except ExprError (α × { rest // P rest })}
    {next : α × { rest // P rest } → Except ExprError (α × { rest // Q rest })} {b : α}
    {rest : List Token} (same : ∀ a mid h, ∃ k, next (a,⟨mid,h⟩) = .ok (a,⟨mid,k⟩)) :
    Reads (first >>= next) b rest ↔ Reads first b rest := by
  simp [readsReturn (f := fun a => a) same]

theorem symbolReads {s : Symbol} {expected : String} {tokens rest : List Token} {u : Unit} :
    Reads (symbol s expected tokens) u rest ↔ tokens = .symbol s :: rest := by
  unfold symbol
  cases tokens with
  | nil => simp [readsError]
  | cons token more =>
      dsimp only
      split
      · rename_i same
        simp [same, readsOk, eq_comm]
      · rename_i other
        simp [readsError, other]

variable {template : String → Except ExprError (List (TemplatePart Expr))}
  {tokens rest : List Token} {left e : Expr}

theorem disjunctionReads : Reads (disjunction template tokens) e rest ↔
    ∃ left mid, Reads (conjunction template tokens) left mid ∧
      Reads (disjunctionTail template left mid) e rest := by
  rw [disjunction]
  exact readsVia _ fun _ _ _ => readsSame fun _ _ _ => ⟨_,rfl⟩

theorem disjunctionTailOr {more : List Token} :
    Reads (disjunctionTail template left (.ident "or" :: more)) e rest ↔
      ∃ right mid, Reads (conjunction template more) right mid ∧
        Reads (disjunctionTail template (.or left right) mid) e rest := by
  rw [disjunctionTail]
  exact readsVia _ fun _ _ _ => readsSame fun _ _ _ => ⟨_,rfl⟩

theorem disjunctionTailStop (other : ∀ more, tokens ≠ .ident "or" :: more) :
    Reads (disjunctionTail template left tokens) e rest ↔ e = left ∧ rest = tokens := by
  rw [disjunctionTail]
  · exact readsOk
  · exact other

theorem conjunctionReads : Reads (conjunction template tokens) e rest ↔
    ∃ left mid, Reads (negation template tokens) left mid ∧
      Reads (conjunctionTail template left mid) e rest := by
  rw [conjunction]
  exact readsVia _ fun _ _ _ => readsSame fun _ _ _ => ⟨_,rfl⟩

theorem conjunctionTailAnd {more : List Token} :
    Reads (conjunctionTail template left (.ident "and" :: more)) e rest ↔
      ∃ right mid, Reads (negation template more) right mid ∧
        Reads (conjunctionTail template (.and left right) mid) e rest := by
  rw [conjunctionTail]
  exact readsVia _ fun _ _ _ => readsSame fun _ _ _ => ⟨_,rfl⟩

theorem conjunctionTailStop (other : ∀ more, tokens ≠ .ident "and" :: more) :
    Reads (conjunctionTail template left tokens) e rest ↔ e = left ∧ rest = tokens := by
  rw [conjunctionTail]
  · exact readsOk
  · exact other

theorem negationNot {more : List Token} :
    Reads (negation template (.ident "not" :: more)) e rest ↔
      ∃ operand, Reads (negation template more) operand rest ∧ e = .unary .not operand := by
  rw [negation]
  exact readsReturn fun _ _ _ => ⟨_,rfl⟩

theorem negationOther (other : ∀ more, tokens ≠ .ident "not" :: more) :
    Reads (negation template tokens) e rest ↔ Reads (comparison template tokens) e rest := by
  rw [negation]
  exact other

theorem comparisonReads : Reads (comparison template tokens) e rest ↔
    ∃ first mid, Reads (sum template tokens) first mid ∧
      ∃ links, Reads (comparisonLinks template mid) links rest ∧
        e = if links.isEmpty then first else .compare first links := by
  rw [comparison]
  exact readsVia _ fun _ _ _ => readsReturn fun _ _ _ => ⟨_,rfl⟩

theorem comparisonLinksOp {token : Token} {more : List Token} {op : CompareOp}
    {links : List (CompareOp × Expr)} (isOp : compareOp? token = some op) :
    Reads (comparisonLinks template (token :: more)) links rest ↔
      ∃ right mid, Reads (sum template more) right mid ∧
        ∃ others, Reads (comparisonLinks template mid) others rest ∧
          links = (op,right) :: others := by
  rw [comparisonLinks]
  simp only [isOp]
  exact readsVia _ fun _ _ _ => readsReturn fun _ _ _ => ⟨_,rfl⟩

theorem comparisonLinksStop {links : List (CompareOp × Expr)}
    (other : ∀ token, tokens.head? = some token → compareOp? token = none) :
    Reads (comparisonLinks template tokens) links rest ↔ links = [] ∧ rest = tokens := by
  cases tokens with
  | nil => rw [comparisonLinks]; exact readsOk
  | cons token more =>
      rw [comparisonLinks]
      simp only [other token rfl]
      exact readsOk

theorem sumReads : Reads (sum template tokens) e rest ↔
    ∃ left mid, Reads (product template tokens) left mid ∧
      Reads (sumTail template left mid) e rest := by
  rw [sum]
  exact readsVia _ fun _ _ _ => readsSame fun _ _ _ => ⟨_,rfl⟩

theorem sumTailOp {token : Token} {more : List Token} {op : BinaryOp}
    (isOp : sumOp? token = some op) :
    Reads (sumTail template left (token :: more)) e rest ↔
      ∃ right mid, Reads (product template more) right mid ∧
        Reads (sumTail template (.binary op left right) mid) e rest := by
  rw [sumTail]
  simp only [isOp]
  exact readsVia _ fun _ _ _ => readsSame fun _ _ _ => ⟨_,rfl⟩

theorem sumTailStop (other : ∀ token, tokens.head? = some token → sumOp? token = none) :
    Reads (sumTail template left tokens) e rest ↔ e = left ∧ rest = tokens := by
  cases tokens with
  | nil => rw [sumTail]; exact readsOk
  | cons token more =>
      rw [sumTail]
      simp only [other token rfl]
      exact readsOk

theorem productReads : Reads (product template tokens) e rest ↔
    ∃ left mid, Reads (signed template tokens) left mid ∧
      Reads (productTail template left mid) e rest := by
  rw [product]
  exact readsVia _ fun _ _ _ => readsSame fun _ _ _ => ⟨_,rfl⟩

theorem productTailOp {token : Token} {more : List Token} {op : BinaryOp}
    (isOp : productOp? token = some op) :
    Reads (productTail template left (token :: more)) e rest ↔
      ∃ right mid, Reads (signed template more) right mid ∧
        Reads (productTail template (.binary op left right) mid) e rest := by
  rw [productTail]
  simp only [isOp]
  exact readsVia _ fun _ _ _ => readsSame fun _ _ _ => ⟨_,rfl⟩

theorem productTailStop (other : ∀ token, tokens.head? = some token → productOp? token = none) :
    Reads (productTail template left tokens) e rest ↔ e = left ∧ rest = tokens := by
  cases tokens with
  | nil => rw [productTail]; exact readsOk
  | cons token more =>
      rw [productTail]
      simp only [other token rfl]
      exact readsOk

theorem signedMinus {more : List Token} :
    Reads (signed template (.symbol .minus :: more)) e rest ↔
      ∃ operand, Reads (signed template more) operand rest ∧ e = .unary .neg operand := by
  rw [signed]
  exact readsReturn fun _ _ _ => ⟨_,rfl⟩

theorem signedPlus {more : List Token} :
    Reads (signed template (.symbol .plus :: more)) e rest ↔
      ∃ operand, Reads (signed template more) operand rest ∧ e = .unary .pos operand := by
  rw [signed]
  exact readsReturn fun _ _ _ => ⟨_,rfl⟩

theorem signedOther (notMinus : ∀ more, tokens ≠ .symbol .minus :: more)
    (notPlus : ∀ more, tokens ≠ .symbol .plus :: more) :
    Reads (signed template tokens) e rest ↔ Reads (power template tokens) e rest := by
  rw [signed]
  · exact notMinus
  · exact notPlus

theorem powerReads : Reads (power template tokens) e rest ↔
    ∃ base mid, Reads (subscripted template tokens) base mid ∧
      ((∃ more exponent, mid = .symbol .doubleStar :: more ∧
          Reads (signed template more) exponent rest ∧ e = .binary .pow base exponent) ∨
        (∀ more, mid ≠ .symbol .doubleStar :: more) ∧ e = base ∧ rest = mid) := by
  rw [power]
  refine readsVia _ fun base mid shorter => ?_
  dsimp only
  split
  · rw [readsReturn (f := Expr.binary .pow base) fun _ _ _ => ⟨_,rfl⟩]
    simp
  · rename_i other
    have none : ∀ more, mid ≠ .symbol .doubleStar :: more := by
      intro more same
      exact other more (same ▸ shorter) same (proof_irrel_heq _ _)
    simp [pure, Except.pure, readsOk, none]

theorem subscriptedReads : Reads (subscripted template tokens) e rest ↔
    ∃ target mid, Reads (atom template tokens) target mid ∧
      Reads (subscripts template target mid) e rest := by
  rw [subscripted]
  exact readsVia _ fun _ _ _ => readsSame fun _ _ _ => ⟨_,rfl⟩

theorem subscriptsOpen {target : Expr} {more : List Token} :
    Reads (subscripts template target (.symbol .openBracket :: more)) e rest ↔
      ∃ index next, Reads (disjunction template more) index (.symbol .closeBracket :: next) ∧
        Reads (subscripts template (.index target index) next) e rest := by
  rw [subscripts]
  refine (readsVia _ fun index _ _ => readsVia
    (fun _ next => Reads (subscripts template (.index target index) next) e rest)
    fun _ _ _ => by
      dsimp only
      exact readsSame fun _ _ _ => ⟨_,rfl⟩).trans ?_
  constructor
  · rintro ⟨index,mid,inside,⟨⟩,next,close,others⟩
    rw [symbolReads] at close
    exact ⟨index,next,close ▸ inside,others⟩
  · rintro ⟨index,next,inside,others⟩
    exact ⟨index,_,inside,(),next,symbolReads.mpr rfl,others⟩

theorem subscriptsStop {target : Expr} (other : ∀ s more, tokens = .symbol s :: more →
    s ≠ .openBracket ∧ s ≠ .openParen ∧ s ≠ .dot) :
    Reads (subscripts template target tokens) e rest ↔ e = target ∧ rest = tokens := by
  rw [subscripts]
  · exact readsOk
  · intro more same; exact (other _ more same).1 rfl
  · intro more same; exact (other _ more same).2.1 rfl
  · intro more same; exact (other _ more same).2.2 rfl

theorem atomInt {n : Int64} {more : List Token} :
    Reads (atom template (.int n :: more)) e rest ↔ e = .literal (.int n) ∧ rest = more := by
  rw [atom]
  exact readsOk

theorem atomFloat {x : Float} {more : List Token} :
    Reads (atom template (.float x :: more)) e rest ↔ e = .literal (.float x) ∧ rest = more := by
  rw [atom]
  exact readsOk

theorem atomNone (other : tokens = [] ∨ ∃ more, tokens = .newline :: more) :
    ¬ Reads (atom template tokens) e rest := by
  intro reads
  rcases other with rfl | ⟨more,rfl⟩
  · rw [atom] at reads
    exact readsError.mp reads
  · rw [atom] at reads
    exact readsError.mp reads

theorem atomString {s : String} {more : List Token} :
    Reads (atom template (.string s :: more)) e rest ↔
      e = .literal (.string (adjacent s more).1) ∧ rest = (adjacent s more).2.1 := by
  rw [atom]
  exact readsOk

theorem atomTemplate {s : String} {more : List Token} :
    Reads (atom template (.template s :: more)) e rest ↔
      ∃ parts, template s = .ok parts ∧ e = .template parts ∧ rest = more := by
  rw [atom]
  cases template s with
  | error fault => simp [bind, Except.bind, readsError]
  | ok parts => simp [bind, Except.bind, pure, Except.pure, readsOk]

theorem atomIdent {name : String} {more : List Token} :
    Reads (atom template (.ident name :: more)) e rest ↔ word name = .ok e ∧ rest = more := by
  rw [atom]
  cases word name with
  | error fault => simp [bind, Except.bind, readsError]
  | ok made => simp [bind, Except.bind, pure, Except.pure, readsOk, eq_comm]

theorem atomParen {more : List Token} :
    Reads (atom template (.symbol .openParen :: more)) e rest ↔
      Reads (disjunction template more) e (.symbol .closeParen :: rest) := by
  rw [atom, bracketed]
  refine (readsVia _ fun inner _ _ => readsReturn (f := fun _ => inner)
    fun _ _ _ => ⟨_,rfl⟩).trans ?_
  constructor
  · rintro ⟨inner,mid,inside,⟨⟩,close,rfl⟩
    exact symbolReads.mp close ▸ inside
  · intro inside
    exact ⟨e,_,inside,(),symbolReads.mpr rfl,rfl⟩

theorem atomBracket {more : List Token} :
    Reads (atom template (.symbol .openBracket :: more)) e rest ↔
      ∃ content, Reads (items template more) content rest ∧ e = .list content := by
  rw [atom, bracketed]
  exact readsReturn fun _ _ _ => ⟨_,rfl⟩

theorem atomBrace {more : List Token} :
    Reads (atom template (.symbol .openBrace :: more)) e rest ↔
      ∃ content, Reads (entries template more) content rest ∧ e = .map content := by
  rw [atom, bracketed]
  exact readsReturn fun _ _ _ => ⟨_,rfl⟩

theorem atomSymbol {s : Symbol} {more : List Token}
    (other : s ≠ .openParen ∧ s ≠ .openBracket ∧ s ≠ .openBrace) :
    ¬ Reads (atom template (.symbol s :: more)) e rest := by
  intro reads
  rw [atom, bracketed] at reads
  · exact readsError.mp reads
  · exact other.1
  · exact other.2.1
  · exact other.2.2

theorem itemsClose {content : List Expr} {more : List Token} :
    Reads (items template (.symbol .closeBracket :: more)) content rest ↔
      content = [] ∧ rest = more := by
  rw [items]
  exact readsOk

theorem itemsReads {content : List Expr}
    (other : ∀ more, tokens ≠ .symbol .closeBracket :: more) :
    Reads (items template tokens) content rest ↔
      ∃ item mid, Reads (disjunction template tokens) item mid ∧
        ((∃ more others, mid = .symbol .comma :: more ∧
            Reads (items template more) others rest ∧ content = item :: others) ∨
          mid = .symbol .closeBracket :: rest ∧ content = [item]) := by
  rw [items]
  · refine readsVia _ fun item mid shorter => ?_
    dsimp only
    split
    · rw [readsReturn (f := (item :: ·)) fun _ _ _ => ⟨_,rfl⟩]
      simp
    · rename_i noComma
      have none : ∀ more, mid ≠ .symbol .comma :: more := by
        intro more same
        exact noComma more (same ▸ shorter) same (proof_irrel_heq _ _)
      rw [readsReturn (f := fun _ => [item]) fun _ _ _ => ⟨_,rfl⟩]
      simp [none, symbolReads]
  · exact other

theorem entriesClose {content : List (Expr × Expr)} {more : List Token} :
    Reads (entries template (.symbol .closeBrace :: more)) content rest ↔
      content = [] ∧ rest = more := by
  rw [entries]
  exact readsOk

theorem entriesReads {content : List (Expr × Expr)}
    (other : ∀ more, tokens ≠ .symbol .closeBrace :: more) :
    Reads (entries template tokens) content rest ↔
      ∃ key after value mid, Reads (disjunction template tokens) key (.symbol .colon :: after) ∧
        Reads (disjunction template after) value mid ∧
        ((∃ more others, mid = .symbol .comma :: more ∧
            Reads (entries template more) others rest ∧ content = (key,value) :: others) ∨
          mid = .symbol .closeBrace :: rest ∧ content = [(key,value)]) := by
  rw [entries]
  · refine (readsVia _ fun key _ _ => readsVia _ fun _ _ _ => readsVia (fun value mid =>
      ((∃ more others, mid = .symbol .comma :: more ∧
          Reads (entries template more) others rest ∧ content = (key,value) :: others) ∨
        mid = .symbol .closeBrace :: rest ∧ content = [(key,value)]))
      fun value mid shorter => ?_).trans ?_
    · dsimp only
      split
      · rw [readsReturn (f := ((key,value) :: ·)) fun _ _ _ => ⟨_,rfl⟩]
        simp
      · rename_i noComma
        have none : ∀ more, mid ≠ .symbol .comma :: more := by
          intro more same
          exact noComma more (same ▸ shorter) same (proof_irrel_heq _ _)
        rw [readsReturn (f := fun _ => [(key,value)]) fun _ _ _ => ⟨_,rfl⟩]
        simp [none, symbolReads]
    · constructor
      · rintro ⟨key,mid,first,⟨⟩,after,colon,value,left,second,last⟩
        exact ⟨key,after,value,left,symbolReads.mp colon ▸ first,second,last⟩
      · rintro ⟨key,after,value,left,first,second,last⟩
        exact ⟨key,_,first,(),after,symbolReads.mpr rfl,value,left,second,last⟩
  · exact other

theorem wholeReads : whole template tokens = .ok e ↔ Reads (disjunction template tokens) e [] := by
  unfold whole
  constructor
  · intro parsed
    cases first : disjunction template tokens with
    | error fault => rw [first] at parsed; cases parsed
    | ok outcome =>
        obtain ⟨tree,rest,shorter⟩ := outcome
        rw [first] at parsed
        cases rest with
        | nil => cases parsed; exact ⟨shorter,rfl⟩
        | cons token more => cases parsed
  · rintro ⟨shorter,first⟩
    rw [first]
    rfl

end DocBlocks.Parse
