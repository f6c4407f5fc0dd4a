import DocBlocks.Proofs.Arguments.Written

/-! What parsing binds can be written: its names are names of the argument language and distinct, and
the mappings in its values have distinct keys. -/
namespace DocBlocks.Lexeme

theorem quotedKind {kind : LexemeKind} {quote : Char} {rest : List Char} (other : kind ≠ .ident) :
    (quoted kind quote rest).kind ≠ .ident := by
  unfold quoted
  split
  · exact other
  · simp

theorem numberKind (rest : List Char) : (number rest).kind ≠ .ident := by
  unfold number
  dsimp only
  split
  · simp
  · split <;> simp

theorem backslashKind (rest : List Char) : (backslash rest).kind ≠ .ident := by
  unfold backslash
  split <;> simp

theorem symbolKind (first : Char) (rest : List Char) :
    ((symbol? first rest).getD ⟨.invalid,0⟩).kind ≠ .ident := by
  unfold symbol?
  dsimp only
  split <;> (try split) <;> simp

theorem nameKind {first : Char} {rest : List Char}
    (named : (nameOrTemplate first rest).kind = .ident) :
    nameOrTemplate first rest = ⟨.ident,runLength isNamePart rest⟩ := by
  unfold nameOrTemplate at named ⊢
  dsimp only at named ⊢
  split
  · rename_i mark
    rw [if_pos mark] at named
    split
    · split <;> simp_all
    · split <;> simp_all
    · rfl
  · rfl

theorem nextIdent {first : Char} {rest : List Char} (named : (next first rest).kind = .ident) :
    isNameStart first = true ∧ ∀ c ∈ rest.take (next first rest).more, isNamePart c = true := by
  unfold next at named ⊢
  cases space : isSpace first with
  | true => simp [space] at named
  | false =>
  cases feed : first == '\n' with
  | true => simp [space, feed] at named
  | false =>
  cases hash : first == '#' with
  | true => simp [space, feed, hash] at named
  | false =>
  simp only [space, feed, hash, Bool.false_eq_true, if_false] at named ⊢
  split at named
  · exact absurd named (backslashKind rest)
  split at named
  · exact absurd named (quotedKind (by decide))
  split at named
  · exact absurd named (quotedKind (by decide))
  split at named
  · rename_i slash double single start
    simp only [slash, double, single, start, if_true, if_false, Bool.false_eq_true]
    refine ⟨trivial,?_⟩
    rw [nameKind named]
    intro c member
    have taken : rest.take (runLength isNamePart rest) = rest.takeWhile isNamePart :=
      (List.prefix_iff_eq_take.mp (List.takeWhile_prefix _)).symm
    rw [taken] at member
    exact List.all_eq_true.mp List.all_takeWhile c member
  split at named
  · exact absurd named (numberKind rest)
  · exact absurd named (symbolKind first rest)

end DocBlocks.Lexeme

namespace DocBlocks.Token

theorem lexemeIdent {offset : Nat} {text : List Char} {kind : LexemeKind} {name : String}
    (read : ofLexeme offset text kind = .ok (some (.ident name))) :
    kind = .ident ∧ name = String.ofList text := by
  cases kind with
  | ident =>
      simp only [ofLexeme, Except.ok.injEq, Option.some.injEq, Token.ident.injEq] at read
      exact ⟨rfl,read.symm⟩
  | skipped | newline | symbol | invalid => simp [ofLexeme] at read
  | int =>
      simp only [ofLexeme, ofDigits] at read
      split at read <;> simp at read
  | float =>
      simp only [ofLexeme, ofFloatText] at read
      split at read <;> simp at read
  | doubleQuoted | singleQuoted | doubleQuotedTemplate | singleQuotedTemplate =>
      obtain ⟨s,same⟩ := decodedMade read
      cases same

theorem scanNamed {seen tokens : List Token} {offset : Nat} {text : List Char}
    (scanned : scanFrom.go seen offset text = .ok tokens)
    (before : ∀ name, .ident name ∈ seen → IsName name) :
    ∀ name, .ident name ∈ tokens → IsName name := by
  intro name member
  rcases scanMember scanned member with old | ⟨place,c,rest,_,read⟩
  · exact before name old
  · obtain ⟨kind,rfl⟩ := lexemeIdent read
    obtain ⟨start,parts⟩ := Lexeme.nextIdent kind
    exact ⟨c,_,String.toList_ofList,start,parts⟩

end DocBlocks.Token

namespace DocBlocks.Arguments
open Token Value

theorem emptySourced : Sourced empty :=
  ⟨fun _ _ member => (List.not_mem_nil member).elim,List.nodup_nil,
    fun _ _ member => (List.not_mem_nil member).elim⟩

theorem insertSourced {arguments : Arguments} {name : String} {value : Value}
    (sourced : Sourced arguments) (named : IsName name) (keyed : Keyed value) :
    Sourced (arguments.insert name value) := by
  refine ⟨?_,Entries.insertNodup sourced.distinct,?_⟩
  · intro key other member
    rcases Entries.insertMember member with old | ⟨rfl,_⟩
    · exact sourced.named key other old
    · exact named
  · intro key other member
    rcases Entries.insertMember member with old | ⟨_,rfl⟩
    · exact sourced.keyed key other old
    · exact keyed

theorem evaluatedKeyed {arguments : Arguments} {tokens : List Token} {value : Value}
    (sourced : Sourced arguments) (made : evaluated arguments tokens = .ok value) : Keyed value := by
  obtain ⟨e,parsed,evaluates⟩ := okBind.mp made
  exact Expr.plainKeyed sourced.keyed (Expr.ofTokensPlain parsed) value evaluates

def Effect.Sound : Effect → Prop
  | .nothing => True
  | .assigned name value => IsName name ∧ Keyed value
  | .failed name _ => ∀ target, name = some target → IsName target

theorem effectSound {arguments : Arguments} (sourced : Sourced arguments) (text : List Char) :
    (effectOf arguments text).Sound := by
  unfold effectOf
  split
  · intro target same
    cases same
  · rename_i tokens scanned
    have names := scanNamed scanned (by simp)
    split
    · trivial
    · rename_i name right kept
      have named : IsName name := by
        have member : .ident name ∈ tokens.filter (· != .newline) := by
          rw [kept]
          exact List.mem_cons_self
        exact names name (List.mem_filter.mp member).1
      split
      · rename_i value made
        exact ⟨named,evaluatedKeyed sourced made⟩
      · intro target same
        cases same
        exact named
    · intro target same
      cases same

theorem bindSourced {state : Arguments × List StatementError} (sourced : Sourced state.1)
    (statement : Statement) : Sourced (bindStatement state statement).1 := by
  obtain ⟨arguments,errors⟩ := state
  have sound := effectSound sourced (Text.trim statement.text)
  unfold bindStatement
  dsimp only at sound ⊢
  split
  · exact sourced
  · cases effect : effectOf arguments (Text.trim statement.text) with
    | nothing => exact sourced
    | assigned name value =>
        rw [effect] at sound
        exact insertSourced sourced sound.1 sound.2
    | failed name e =>
        rw [effect] at sound
        cases name with
        | none => exact sourced
        | some name => exact insertSourced sourced (sound name rfl) (keyedScalar trivial)

theorem parseSourced (source : String) : Sourced (parse source) := by
  unfold parse parseWithErrors
  have each : ∀ (statements : List Statement) (state : Arguments × List StatementError),
      Sourced state.1 → Sourced (statements.foldl bindStatement state).1 := by
    intro statements
    induction statements with
    | nil => exact fun state sourced => sourced
    | cons statement rest ih => exact fun state sourced => ih _ (bindSourced sourced statement)
  exact each _ _ emptySourced

def FloatFree (arguments : Arguments) : Prop :=
  ∀ name value, (name,value) ∈ arguments.entries → value.FloatFree

theorem floatFreeReread {arguments : Arguments} (free : arguments.FloatFree) :
    arguments.reread = arguments := by
  unfold reread
  rw [floatFreeEntries arguments.entries free]

/- The text that arguments are parsed from is any text at all; only what was bound is written. -/
theorem sourceRoundTrip (source : String) (free : (parse source).FloatFree) :
    parseWithErrors (parse source).toSource = (parse source,[]) := by
  rw [parseWritten (parseSourced source), floatFreeReread free]

theorem nestedRoundTrip : (parse "a = -1; b = [a]").FloatFree ∧
    parseWithErrors (parse "a = -1; b = [a]").toSource = (parse "a = -1; b = [a]",[]) := by
  have bound : parse "a = -1; b = [a]" = ⟨[("a",.int (-1)),("b",.list [.int (-1)])]⟩ := by cbv
  have number : Value.FloatFree (.int (-1)) := by
    intro x inside
    cases inside
  have free : (parse "a = -1; b = [a]").FloatFree := by
    intro name value member
    rw [bound] at member
    simp only [List.mem_cons, Prod.mk.injEq, List.not_mem_nil, or_false] at member
    rcases member with ⟨_,rfl⟩ | ⟨_,rfl⟩
    · exact number
    · exact Value.floatFreeList.mpr fun item inside => List.mem_singleton.mp inside ▸ number
  exact ⟨free,sourceRoundTrip _ free⟩

end DocBlocks.Arguments
