import DocBlocks.Expr.Eval
import DocBlocks.Proofs.Expr.Completeness
import DocBlocks.Proofs.Literal.Tokens

/-! The grammar derives one expression from the tokens of a literal, whose value is the value that was written. A
float comes back as the double that its text is read as, or as null when it is not finite. -/
namespace DocBlocks.Value
open DocBlocks.Expr (Derives Phrase Entry Listed derivesSum derivesSigned derivesAtom signedAtom)

def signedExpr : Int → Expr
  | .ofNat n => .literal (.int (Int64.ofNat n))
  | .negSucc n => .unary .neg (.literal (.int (Int64.ofNat (n + 1))))

def intExpr (n : Int64) : Expr :=
  if n = Int64.minValue then
    .binary .sub (signedExpr (n.toInt + 1)) (.literal (.int (Int64.ofNat 1)))
  else signedExpr n.toInt

def floatExpr (x : Float) : Expr :=
  let unsigned := Expr.literal (.float (Token.doubleOf (Decimal.unsignedText x)))
  if Decimal.isSigned x then .unary .neg unsigned else unsigned

mutual

def expr : Value → Expr
  | .null => .literal .null
  | .bool b => .literal (.bool b)
  | .int n => intExpr n
  | .float x => if x.isFinite then floatExpr x else .literal .null
  | .string s => .literal (.string s)
  | .list items => .list (itemExprs items)
  | .map entries => .map (entryExprs entries)

def itemExprs : List Value → List Expr
  | [] => []
  | item :: rest => item.expr :: itemExprs rest

def entryExprs : List (String × Value) → List (Expr × Expr)
  | [] => []
  | (key,value) :: rest => (.literal (.string key),value.expr) :: entryExprs rest

end

theorem signedDerives (n : Int) : Derives .signed (signedTokens n) (signedExpr n) := by
  cases n with
  | ofNat n => exact signedAtom (.int _)
  | negSucc n => exact .minus (signedAtom (.int _))

/- The least integer has no literal of its own, and is written as a difference. -/
theorem intDerives (n : Int64) : Derives .disjunction (intTokens n) (intExpr n) := by
  unfold intTokens intExpr
  split
  · have difference : Derives .sum _ _ := .additive (.inr rfl)
      (.product (.signed (signedDerives (n.toInt + 1))))
      (.signed (signedAtom (.int (Int64.ofNat 1))))
    have inside := Derives.paren (derivesSum difference)
    rw [List.append_assoc] at inside
    exact derivesAtom inside
  · exact derivesSigned (signedDerives _)

theorem floatDerives (x : Float) : Derives .disjunction (floatTokens x) (floatExpr x) := by
  unfold floatTokens floatExpr
  cases Decimal.isSigned x with
  | true => exact derivesSigned (.minus (signedAtom (.float _)))
  | false => exact derivesAtom (.float _)

theorem nullDerives : Derives .disjunction [.ident "null"] (.literal .null) :=
  derivesAtom (.null (by simp))

theorem stringDerives (s : String) : Derives .disjunction [.string s] (.literal (.string s)) := by
  have alone := Derives.strings s []
  rw [show String.join [s] = s by simp [String.join]] at alone
  exact derivesAtom alone

mutual

theorem literalDerives : ∀ value : Value, Derives .disjunction value.tokens value.expr
  | .null => nullDerives
  | .bool b => by
      cases b with
      | true => exact derivesAtom (.true (by simp))
      | false => exact derivesAtom (.false (by simp))
  | .int n => intDerives n
  | .float x => by
      rw [Value.tokens, expr]
      cases x.isFinite with
      | true => exact floatDerives x
      | false => exact nullDerives
  | .string s => stringDerives s
  | .list values => by
      obtain ⟨items,listed,trees,each⟩ := itemsDerive values
      rw [Value.tokens, expr, ← trees]
      exact derivesAtom (.list listed each)
  | .map pairs => by
      obtain ⟨entries,listed,trees,keys,values⟩ := entriesDerive pairs
      rw [Value.tokens, expr, ← trees]
      exact derivesAtom (.map listed keys values)

theorem itemsDerive : ∀ values : List Value, ∃ items : List Phrase,
    Listed (items.map Phrase.tokens) (itemTokens values) ∧ items.map Phrase.tree = itemExprs values ∧
      ∀ item ∈ items, Derives .disjunction item.tokens item.tree
  | [] => ⟨[],.nil,rfl,by simp⟩
  | [value] => ⟨[⟨value.tokens,value.expr⟩],.last _,rfl,by simpa using literalDerives value⟩
  | value :: next :: values => by
      obtain ⟨items,listed,trees,each⟩ := itemsDerive (next :: values)
      have first := literalDerives value
      refine ⟨⟨value.tokens,value.expr⟩ :: items,.comma value.tokens listed,?_,?_⟩
      · rw [itemExprs, ← trees]
        rfl
      · intro item member
        rcases List.mem_cons.mp member with rfl | member
        · exact first
        · exact each item member

theorem entriesDerive : ∀ pairs : List (String × Value), ∃ entries : List Entry,
    Listed (entries.map Entry.words) (entryTokens pairs) ∧
      entries.map (fun entry => (entry.key.tree,entry.value.tree)) = entryExprs pairs ∧
      (∀ entry ∈ entries, Derives .disjunction entry.key.tokens entry.key.tree) ∧
      ∀ entry ∈ entries, Derives .disjunction entry.value.tokens entry.value.tree
  | [] => ⟨[],.nil,rfl,by simp,by simp⟩
  | [(key,value)] => ⟨[⟨⟨[.string key],.literal (.string key)⟩,⟨value.tokens,value.expr⟩⟩],.last _,rfl,
      by simpa using stringDerives key,by simpa using literalDerives value⟩
  | (key,value) :: next :: pairs => by
      obtain ⟨entries,listed,trees,keys,values⟩ := entriesDerive (next :: pairs)
      have second := literalDerives value
      refine ⟨⟨⟨[.string key],.literal (.string key)⟩,⟨value.tokens,value.expr⟩⟩ :: entries,
        .comma (.string key :: .symbol .colon :: value.tokens) listed,?_,?_,?_⟩
      · rw [entryExprs, ← trees]
        rfl
      · intro entry member
        rcases List.mem_cons.mp member with rfl | member
        · exact stringDerives key
        · exact keys entry member
      · intro entry member
        rcases List.mem_cons.mp member with rfl | member
        · exact second
        · exact values entry member

end

theorem literalParsed (value : Value) : Expr.ofTokens value.tokens = .ok value.expr :=
  Expr.ofTokensComplete (literalDerives value)

end DocBlocks.Value
