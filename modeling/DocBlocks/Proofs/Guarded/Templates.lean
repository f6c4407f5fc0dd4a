import DocBlocks.Expr.Parse
import DocBlocks.Proofs.Expr.Templates
import DocBlocks.Proofs.Guarded.Scanning

/-! Parsing expressions, with the sources embedded in a template cut out of the whole template between two
byte offsets. Braces have one byte each, so the offsets next to them fall between characters. -/
namespace DocBlocks.Guarded
open Template

def cutFrom (whole : List Char) (offset : Nat) (seen : List Char) : List Char → Guarded Cut
  | [] => return ⟨textPart seen, none⟩
  | '{' :: '{' :: rest => cutFrom whole (offset + 2) ('{' :: seen) rest
  | '}' :: '}' :: rest => cutFrom whole (offset + 2) ('}' :: seen) rest
  | '{' :: rest =>
      match embeddedLength? rest with
      | none => return ⟨[], some unclosed⟩
      | some n => do
          let stop := offset + 1 + Text.size (rest.take n)
          let source ← slice (offset + 1) stop whole
          let cut ← cutFrom whole (stop + 1) [] (rest.drop (n + 1))
          return ⟨textPart seen ++ .embedded source :: cut.parts, cut.fault⟩
  | '}' :: _ => return ⟨[], some loneBrace⟩
  | c :: rest => cutFrom whole (offset + c.utf8Size) (c :: seen) rest
termination_by text => text.length
decreasing_by all_goals simp only [List.length_drop, List.length_cons]; omega

def parseParts (embedded : List Char → Tried Expr) :
    List (TemplatePart (List Char)) → Tried (List (TemplatePart Expr))
  | [] => return []
  | .text s :: rest => do
      let parts ← parseParts embedded rest
      return .text s :: parts
  | .embedded source :: rest => do
      let expr ← embedded source
      let parts ← parseParts embedded rest
      return .embedded expr :: parts

def parseTemplate (embedded : List Char → Tried Expr) (template : String) :
    Tried (List (TemplatePart Expr)) := do
  let cut ← cutFrom template.toList 0 [] template.toList
  let parts ← parseParts embedded cut.parts
  Tried.of (match cut.fault with
    | some fault => .error fault
    | none => .ok parts)

def templates (tokens : List Token) : List String :=
  tokens.filterMap fun token =>
    match token with
    | .template s => some s
    | _ => none

def parseAll (template : String → Tried (List (TemplatePart Expr))) (tokens : List Token) :
    Guarded (List (Except ExprError (List (TemplatePart Expr)))) :=
  (templates tokens).mapM fun s => (template s).run

/-- Parses a whole token list. Of the accesses only those inside templates can fail; a fault in any of
them counts, also where an error before it keeps the parser from coming to it. -/
def parseTokens (template : String → Tried (List (TemplatePart Expr))) (tokens : List Token) :
    Tried Expr := do
  let _ ← parseAll template tokens
  -- No template has a fault from here on, so the default stands for none.
  Tried.of (Parse.whole (fun s => (template s).run.toOption.getD (.ok [])) tokens)

def parseSource : Nat → List Char → Tried Expr
  | 0, _ => Tried.of (.error (.unexpectedEnd "an expression"))
  | depth + 1, text => do
      let tokens ← scan text
      parseTokens (parseTemplate (parseSource depth)) tokens

def ofTokens (tokens : List Token) : Tried Expr :=
  parseTokens (parseTemplate (parseSource (Parse.longestTemplate tokens))) tokens

theorem placeOnward {whole before rest : List Char} (front : List Char)
    (place : whole = before ++ (front ++ rest)) : whole = (before ++ front) ++ rest := by
  rw [place, List.append_assoc]

theorem cutRuns {whole before : List Char} (seen text : List Char) (place : whole = before ++ text) :
    cutFrom whole (Text.size before) seen text = .ok (cutAfter seen text) := by
  -- along the cuts, with the offset kept at the number of bytes that were passed
  fun_induction cutAfter seen text generalizing before with
  | case1 seen =>
      rw [cutFrom]
      rfl
  | case2 seen rest ih =>
      rw [cutFrom, ← ih (placeOnward ['{','{'] place), Text.size_append]
      rfl
  | case3 seen rest ih =>
      rw [cutFrom, ← ih (placeOnward ['}','}'] place), Text.size_append]
      rfl
  | case4 seen rest single none =>
      rw [cutFrom, none]
      · rfl
      · exact single
  | case5 seen rest single n found cut =>
      rename_i ih
      obtain ⟨source,later,rfl,_,length⟩ := lengthParts found
      rw [Nat.zero_add] at length
      subst length
      rw [embeddedLeft] at ih
      have taken := sliceMiddle (before ++ ['{']) source ('}' :: later)
      have place' : whole = before ++ ('{' :: (source ++ ['}']) ++ later) := by simp [place]
      have next := ih (placeOnward _ place')
      have opened : Text.size (before ++ ['{']) = Text.size before + 1 := Text.size_append _ _
      have closed : Text.size (before ++ '{' :: (source ++ ['}'])) =
          Text.size before + 1 + Text.size source + 1 := by
        rw [Text.size_append, Text.size_cons, Text.size_append, ← Nat.add_assoc, ← Nat.add_assoc]
        rfl
      rw [opened, List.append_assoc, List.singleton_append, ← place] at taken
      rw [closed] at next
      rw [cutFrom, found]
      · simp only [List.take_left, embeddedLeft, taken, next, cut]
        rfl
      · exact single
  | case6 seen rest single =>
      rw [cutFrom]
      · rfl
      · exact single
  | case7 seen c rest notOpens notCloses notOpen notClose ih =>
      have next := ih (placeOnward [c] place)
      rw [Text.size_append, Text.size_cons, Text.size_nil, Nat.add_zero] at next
      rw [cutFrom, next]
      all_goals assumption

variable {template : String → Tried (List (TemplatePart Expr))}
  {parts : String → Except ExprError (List (TemplatePart Expr))}
  {embedded : List Char → Tried Expr} {expr : List Char → Except ExprError Expr}

theorem partsRun (each : ∀ source, embedded source = .of (expr source))
    (pieces : List (TemplatePart (List Char))) :
    parseParts embedded pieces = .of (Template.parseParts expr pieces) := by
  induction pieces with
  | nil => rfl
  | cons piece rest ih =>
      cases piece with
      | text s => exact triedBind ih fun parts => rfl
      | embedded source => exact triedBind (each source) fun e => triedBind ih fun parts => rfl

theorem templateRuns (each : ∀ source, embedded source = .of (expr source)) (s : String) :
    parseTemplate embedded s = .of (Template.parse expr s) := by
  have cut : cutFrom s.toList 0 [] s.toList = .ok (cut s) := @cutRuns s.toList [] [] s.toList rfl
  refine (liftBind cut).trans (triedBind (partsRun each _) fun parts => ?_)
  cases (Template.cut s).fault <;> rfl

theorem tokensRun (each : ∀ s, template s = .of (parts s)) (tokens : List Token) :
    parseTokens template tokens = .of (Parse.whole parts tokens) := by
  have all : parseAll template tokens = .ok ((templates tokens).map parts) := by
    have run : (fun s => (template s).run) = fun s => pure (parts s) := funext each
    rw [parseAll, run]
    exact List.mapM_pure
  have same : (fun s => (template s).run.toOption.getD (.ok [])) = parts := by
    funext s
    rw [each]
    rfl
  rw [parseTokens, same]
  exact liftBind all

theorem sourceRuns (depth : Nat) (text : List Char) :
    parseSource depth text = .of (Parse.source depth text) := by
  induction depth generalizing text with
  | zero => rfl
  | succ depth ih => exact triedBind (scanRuns text) fun tokens => tokensRun (templateRuns ih) tokens

theorem ofTokensRuns (tokens : List Token) : ofTokens tokens = .of (Expr.ofTokens tokens) :=
  tokensRun (templateRuns (sourceRuns _)) tokens

end DocBlocks.Guarded
