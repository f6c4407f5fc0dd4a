import DocBlocks.Proofs.Literal.Floats
import DocBlocks.Proofs.Value.Parts

/-! The tokens of a value's literal. -/
namespace DocBlocks.Value
open Token

def signedTokens : Int → List Token
  | .ofNat n => [.int (Int64.ofNat n)]
  | .negSucc n => [.symbol .minus,.int (Int64.ofNat (n + 1))]

def intTokens (n : Int64) : List Token :=
  if n = Int64.minValue then
    .symbol .openParen :: (signedTokens (n.toInt + 1) ++
      [.symbol .minus,.int (Int64.ofNat 1),.symbol .closeParen])
  else signedTokens n.toInt

def floatTokens (x : Float) : List Token :=
  (if Decimal.isSigned x then [.symbol .minus] else []) ++
    [.float (doubleOf (Decimal.unsignedText x))]

mutual

def tokens : Value → List Token
  | .null => [.ident "null"]
  | .bool b => [.ident (if b then "true" else "false")]
  | .int n => intTokens n
  | .float x => if x.isFinite then floatTokens x else [.ident "null"]
  | .string s => [.string s]
  | .list items => .symbol .openBracket :: (itemTokens items ++ [.symbol .closeBracket])
  | .map entries => .symbol .openBrace :: (entryTokens entries ++ [.symbol .closeBrace])

def itemTokens : List Value → List Token
  | [] => []
  | [item] => item.tokens
  | item :: next :: rest => item.tokens ++ .symbol .comma :: itemTokens (next :: rest)

def entryTokens : List (String × Value) → List Token
  | [] => []
  | [(key,value)] => .string key :: .symbol .colon :: value.tokens
  | (key,value) :: next :: rest =>
      .string key :: .symbol .colon :: (value.tokens ++ .symbol .comma :: entryTokens (next :: rest))

end

theorem yieldsSigned (n : Int) (small : n.natAbs < 0x8000000000000000) :
    Yields (toString n).toList (signedTokens n) := by
  cases n with
  | ofNat m =>
      rw [show (toString (Int.ofNat m)).toList = Nat.toDigits 10 m from Nat.toList_repr]
      exact yieldsNumber m small
  | negSucc m =>
      rw [show toString (Int.negSucc m) = "-" ++ (m + 1).repr from rfl, String.toList_append,
        Nat.toList_repr]
      exact yieldsSymbol (fun _ => rfl) (yieldsNumber (m + 1) small)

theorem yieldsInt (n : Int64) : Yields (intLiteral n).toList (intTokens n) := by
  have lower := n.le_toInt
  have upper := n.toInt_lt
  unfold intLiteral intTokens
  split
  · rename_i least
    have one : Yields ['1'] [.int (Int64.ofNat 1)] := yieldsNumber 1 (by decide)
    have close : Yields [')'] [.symbol .closeParen] := yieldsSymbol (fun _ => rfl) yieldsNil
    have tail : Yields " - 1)".toList [.symbol .minus,.int (Int64.ofNat 1),.symbol .closeParen] :=
      yieldsSpace rfl (yieldsSymbol (fun _ => rfl) (yieldsSpace rfl
        (yieldsAppend one close fun rest _ => endsCons (by decide))))
    have number := yieldsSigned (n.toInt + 1) (by rw [least, Int64.toInt_minValue]; decide)
    have both := yieldsAppend number tail fun rest _ => endsCons (by decide)
    rw [String.toList_append, String.toList_append, List.append_assoc]
    exact yieldsSymbol (fun _ => rfl) both
  · rename_i above
    refine yieldsSigned n.toInt ?_
    have : n.toInt ≠ -0x8000000000000000 := by
      intro same
      exact above (Int64.toInt_inj.mp (by rw [same]; rfl))
    omega

theorem yieldsNull : Yields "null".toList [.ident "null"] :=
  @yieldsName 'n' "ull".toList (by decide) (List.all_eq_true.mp (by decide))

theorem yieldsBool (b : Bool) :
    Yields (if b then "true" else "false").toList [.ident (if b then "true" else "false")] := by
  cases b with
  | true => exact @yieldsName 't' "rue".toList (by decide) (List.all_eq_true.mp (by decide))
  | false => exact @yieldsName 'f' "alse".toList (by decide) (List.all_eq_true.mp (by decide))

theorem yieldsFinite {x : Float} (finite : x.isFinite = true) :
    Yields (floatText x).toList (floatTokens x) := by
  have number := yieldsFloat (Decimal.unsignedWritten x)
  unfold floatText floatTokens
  rw [Decimal.finiteText finite]
  cases Decimal.isSigned x with
  | true => exact yieldsSymbol (fun _ => rfl) number
  | false => exact number

mutual

theorem yieldsLiteral : ∀ value : Value, Yields value.literal.toList value.tokens
  | .null => yieldsNull
  | .bool b => yieldsBool b
  | .int n => yieldsInt n
  | .float x => by
      unfold literal tokens
      cases finite : x.isFinite with
      | true => simpa [finite] using yieldsFinite finite
      | false => simpa [finite] using yieldsNull
  | .string s => yieldsString s
  | .list items => by
      have inside := yieldsItems items
      have close : Yields [']'] [.symbol .closeBracket] := yieldsSymbol (fun _ => rfl) yieldsNil
      have both := yieldsAppend inside close fun rest _ => endsCons (by decide)
      unfold literal tokens
      rw [String.toList_append, String.toList_append, List.append_assoc]
      exact yieldsSymbol (fun _ => rfl) both
  | .map entries => by
      have inside := yieldsEntries entries
      have close : Yields ['}'] [.symbol .closeBrace] := yieldsSymbol (fun _ => rfl) yieldsNil
      have both := yieldsAppend inside close fun rest _ => endsCons (by decide)
      unfold literal tokens
      rw [String.toList_append, String.toList_append, List.append_assoc]
      exact yieldsSymbol (fun _ => rfl) both

theorem yieldsItems : ∀ items : List Value,
    Yields (", ".intercalate (itemLiterals items)).toList (itemTokens items)
  | [] => yieldsNil
  | [item] => by
      simpa [itemLiterals, itemTokens] using yieldsLiteral item
  | item :: next :: rest => by
      have first := yieldsLiteral item
      have others := yieldsItems (next :: rest)
      have after : Yields (',' :: ' ' :: (", ".intercalate (itemLiterals (next :: rest))).toList)
          (.symbol .comma :: itemTokens (next :: rest)) :=
        yieldsSymbol (fun _ => rfl) (yieldsSpace rfl others)
      have both := yieldsAppend first after fun rest _ => endsCons (by decide)
      simpa [itemLiterals, itemTokens, String.intercalate_cons_cons] using both

theorem yieldsEntries : ∀ entries : List (String × Value),
    Yields (", ".intercalate (entryLiterals entries)).toList (entryTokens entries)
  | [] => yieldsNil
  | [(key,value)] => by
      have item := yieldsLiteral value
      have after : Yields (':' :: ' ' :: value.literal.toList) (.symbol .colon :: value.tokens) :=
        yieldsSymbol (fun _ => rfl) (yieldsSpace rfl item)
      have both := yieldsAppend (yieldsString key) after fun rest _ => endsCons (by decide)
      simpa [entryLiterals, entryTokens] using both
  | (key,value) :: next :: rest => by
      have item := yieldsLiteral value
      have others := yieldsEntries (next :: rest)
      have separated : Yields
          (',' :: ' ' :: (", ".intercalate (entryLiterals (next :: rest))).toList)
          (.symbol .comma :: entryTokens (next :: rest)) :=
        yieldsSymbol (fun _ => rfl) (yieldsSpace rfl others)
      have valued := yieldsAppend item separated fun rest _ => endsCons (by decide)
      have after := yieldsSymbol (c := ':') (fun _ => rfl) (yieldsSpace (c := ' ') rfl valued)
      have both := yieldsAppend (yieldsString key) after fun rest _ => endsCons (by decide)
      simpa [entryLiterals, entryTokens, String.intercalate_cons_cons] using both

end

end DocBlocks.Value
