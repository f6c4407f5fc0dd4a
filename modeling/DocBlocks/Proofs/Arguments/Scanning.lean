import DocBlocks.Proofs.Literal.Lexing

/-! The tokens of a text do not depend on where it stands nor on what was scanned before it; only the
error does, which gives the place. So the tokens of a text are those of its first lexeme and those of
what follows. -/
namespace DocBlocks.Token
open Lexeme

def reads (text : List Char) : Option (List Token) := (scanFrom 0 text).toOption

theorem readsIff {text : List Char} {tokens : List Token} :
    reads text = some tokens ↔ scanFrom 0 text = .ok tokens := by
  unfold reads
  cases scanFrom 0 text with
  | error e => simp [Except.toOption]
  | ok found => simp [Except.toOption]

theorem lexemeMoved (offset place : Nat) (text : List Char) (kind : LexemeKind) :
    (ofLexeme offset text kind).toOption = (ofLexeme place text kind).toOption := by
  cases kind <;> rfl

theorem scanMoved (seen : List Token) (offset : Nat) (text : List Char) :
    (scanFrom.go seen offset text).toOption = (reads text).map (seen.reverse ++ ·) := by
  -- offsets are told in errors alone, so both scans fail or read the same
  induction length : text.length using Nat.strongRecOn generalizing seen offset text with
  | ind n ih =>
      cases text with
      | nil =>
          rw [reads, scanFrom, scanFrom.go, scanFrom.go]
          simp [Except.toOption]
      | cons c rest =>
          have less : (rest.drop (next c rest).more).length < n := by
            rw [← length, List.length_drop, List.length_cons]
            omega
          have moved := lexemeMoved offset 0 (c :: rest.take (next c rest).more) (next c rest).kind
          rw [reads, scanFrom, scanFrom.go, scanFrom.go]
          cases here : ofLexeme offset (c :: rest.take (next c rest).more) (next c rest).kind with
          | error e =>
              cases there : ofLexeme 0 (c :: rest.take (next c rest).more) (next c rest).kind with
              | error e' => rfl
              | ok found => simp [here, there, Except.toOption] at moved
          | ok found =>
              cases there : ofLexeme 0 (c :: rest.take (next c rest).more) (next c rest).kind with
              | error e' => simp [here, there, Except.toOption] at moved
              | ok same =>
                  rw [here, there] at moved
                  cases moved
                  cases found with
                  | none =>
                      dsimp only
                      rw [ih _ less seen _ _ rfl, ih _ less [] _ _ rfl]
                      simp
                  | some token =>
                      dsimp only
                      rw [ih _ less (token :: seen) _ _ rfl, ih _ less [token] _ _ rfl]
                      simp [Function.comp_def]

theorem readsNil : reads [] = some [] := by
  rw [reads, scanFrom, scanFrom.go]
  rfl

theorem readsLexeme (c : Char) (rest : List Char) : reads (c :: rest) =
    (ofLexeme 0 (c :: rest.take (next c rest).more) (next c rest).kind).toOption.bind fun token =>
      (reads (rest.drop (next c rest).more)).map (token.toList ++ ·) := by
  rw [reads, scanFrom, scanFrom.go]
  cases ofLexeme 0 (c :: rest.take (next c rest).more) (next c rest).kind with
  | error e => rfl
  | ok found =>
      cases found with
      | none => exact scanMoved [] _ _
      | some token => exact scanMoved [token] _ _

theorem readsSpace {c : Char} (rest : List Char) (space : isSpace c = true) :
    reads (c :: rest) = reads rest := by
  have shortened : reads (c :: rest) = reads (rest.dropWhile isSpace) := by
    rw [reads, scanFrom, skipOne c rest [] 0 space, scanMoved]
    exact Option.map_id'
  rw [shortened]
  cases rest with
  | nil => rfl
  | cons d more =>
      cases blank : isSpace d with
      | false => simp [blank]
      | true =>
          rw [reads, reads, scanFrom, scanFrom, skipOne d more [] 0 blank, scanMoved,
            List.dropWhile_cons_of_pos blank, scanMoved]

theorem readsYield {text rest : List Char} {tokens : List Token} (yields : Yields text tokens)
    (ends : Ends rest) : reads (text ++ rest) = (reads rest).map (tokens ++ ·) := by
  rw [reads, scanFrom, yields [] 0 rest ends, scanMoved]
  simp

end DocBlocks.Token
