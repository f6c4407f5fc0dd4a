import DocBlocks.Proofs.Arguments.Layout
import DocBlocks.Proofs.Guarded.Evaluation
import DocBlocks.Proofs.Guarded.Templates

/-! Parsing argument text with every access checked. No text comes to a fault: what a slice, an index or a sum
relies on holds wherever the parser comes to it. -/
namespace DocBlocks.Guarded
open Arguments

def evaluated (scope : Arguments) (tokens : List Token) : Tried Value := do
  let e ← ofTokens tokens
  eval scope e

def tokensEffect (scope : Arguments) (text : List Char) (tokens : List Token) : Guarded Effect :=
  if tokens.isEmpty then return .nothing
  else
    match (tokens[0]? : Option Token), (tokens[1]? : Option Token) with
    | some (.ident name), some (.symbol .assign) => do
        let right ← after 2 tokens
        match ← (evaluated scope right).run with
        | .ok value => return .assigned name value
        | .error e => return .failed (some name) e
    | _, _ => return .failed none (.invalidTarget (targetOf text))

def effectOf (scope : Arguments) (text : List Char) : Guarded Effect := do
  match ← (scan text).run with
  | .error e => return .failed none e
  | .ok tokens => tokensEffect scope text (tokens.filter (· != .newline))

def bindStatement (state : Arguments × List StatementError) (statement : Statement) :
    Guarded (Arguments × List StatementError) := do
  let (arguments, errors) := state
  let text := Text.trim statement.text
  if text.isEmpty then return state
  match ← effectOf arguments text with
  | .nothing => return state
  | .assigned name value => return (arguments.insert name value, errors)
  | .failed name e =>
      let kept :=
        match name with
        | some name => arguments.insert name .null
        | none => arguments
      return (kept, errors ++ [⟨String.ofList text, statement.line, name, e⟩])

def parse (source : String) : Guarded (Arguments × List StatementError) := do
  if Text.isBlankText source.toList then return (.empty, [])
  let text ← dedent source.toList
  (Statement.split text).foldlM bindStatement (.empty, [])

theorem evaluatedRuns (scope : Arguments) (tokens : List Token) :
    Follows (evaluated scope tokens) (Arguments.evaluated scope tokens) :=
  followsTry (.inl (ofTokensRuns tokens)) fun e _ => evalRuns scope e

theorem effectRuns (scope : Arguments) (text : List Char) :
    Follows (effectOf scope text) (Arguments.effectOf scope text) := by
  rw [effectOf, Arguments.effectOf, scanRuns]
  cases Token.scanFrom 0 text with
  | error e => exact .inl rfl
  | ok scanned =>
      change Follows (tokensEffect scope text (scanned.filter (· != .newline))) _
      dsimp only
      generalize scanned.filter (· != .newline) = tokens
      rcases tokens with _ | ⟨first,_ | ⟨second,right⟩⟩
      · exact .inl rfl
      · cases first <;> exact .inl rfl
      -- Only an assignment has an access, and it has two tokens to leave out.
      cases first with
      | ident name =>
          cases second with
          | symbol s =>
              cases s with
              | assign =>
                  change Follows ((evaluated scope right).run >>= _) _
                  refine followsBind (evaluatedRuns scope right) ?_
                  dsimp only
                  cases Arguments.evaluated scope right <;> exact .inl rfl
              | _ => exact .inl rfl
          | _ => exact .inl rfl
      | _ => exact .inl rfl

theorem bindRuns (state : Arguments × List StatementError) (statement : Statement) :
    Follows (bindStatement state statement) (Arguments.bindStatement state statement) := by
  rw [bindStatement, Arguments.bindStatement]
  dsimp only
  split
  · exact .inl rfl
  refine followsBind (effectRuns _ _) (.inl ?_)
  cases Arguments.effectOf state.1 (Text.trim statement.text) <;> rfl

/- No argument text makes parsing or evaluating it come to a fault. -/
theorem parseFaultless (source : String) :
    (∀ fault, parse source ≠ .error (.fault fault)) ∧
      Follows (parse source) (parseWithErrors source) := by
  have runs : Follows (parse source) (parseWithErrors source) := by
    rw [parse]
    split
    · rename_i blank
      refine .inl (congrArg Except.ok (parseBlank fun line inside => ?_).symm)
      exact List.all_eq_true.mpr fun c member => List.all_eq_true.mp blank c (Text.linesMember inside member)
    · exact followsBind (.inl (dedentRuns _)) (followsFold bindRuns _ _)
  refine ⟨fun fault faulty => ?_,runs⟩
  rcases runs with done | ⟨length,_,stopped⟩
  · cases faulty.symm.trans done
  · cases faulty.symm.trans stopped

end DocBlocks.Guarded
