import DocBlocks.Proofs.Arguments.Lexemes
import DocBlocks.Proofs.Text.Lines

/-! The splitter and the scanner agree. A text that can be scanned is split between tokens, at the line
feeds and semicolons outside brackets, and its tokens are those of the statements with the separators
between them. -/
namespace DocBlocks.Token

def separates : Token → Bool
  | newline => true
  | symbol .semicolon => true
  | _ => false

def depthAfter (depth : Nat) : Token → Nat
  | symbol .openParen | symbol .openBracket | symbol .openBrace => depth + 1
  | symbol .closeParen | symbol .closeBracket | symbol .closeBrace => depth - 1
  | _ => depth

def Enclosed (depth : Nat) : List Token → Prop
  | [] => True
  | token :: rest => (token.separates = true → depth ≠ 0) ∧ Enclosed (token.depthAfter depth) rest

inductive Separated : List (List Token) → List Token → Prop where
  | last (own : List Token) : Separated [own] own
  | next (own : List Token) {separator : Token} {parts : List (List Token)} {tokens : List Token}
      (separates : separator.separates = true) (more : Separated parts tokens) :
      Separated (own :: parts) (own ++ separator :: tokens)

theorem separatedAppend {own tokens : List Token} {parts : List (List Token)} (given : List Token)
    (separated : Separated (own :: parts) tokens) :
    Separated ((given ++ own) :: parts) (given ++ tokens) := by
  cases separated with
  | last => exact .last _
  | next _ separates more =>
      rw [← List.append_assoc]
      exact .next _ separates more

theorem lexemeFound {text : List Char} {kind : LexemeKind} {found : Option Token} {offset : Nat}
    (word : kind.Word) (read : ofLexeme offset text kind = .ok found) :
    ∃ token, found = some token ∧ token.separates = false ∧
      ∀ depth, token.depthAfter depth = depth := by
  obtain ⟨skipped,newline,invalid,symbol⟩ := word
  have made {make : String → Token} {whole : List Char} (read : decoded make whole = .ok found) :
      ∃ s, found = some (make s) := by
    unfold decoded at read
    split at read
    · cases read; exact ⟨_,rfl⟩
    · cases read
  cases kind with
  | skipped => exact absurd rfl skipped
  | newline => exact absurd rfl newline
  | invalid => exact absurd rfl invalid
  | symbol s => exact absurd rfl (symbol s)
  | ident => cases read; exact ⟨_,rfl,rfl,fun _ => rfl⟩
  | int =>
      simp only [ofLexeme, ofDigits] at read
      split at read
      · cases read; exact ⟨_,rfl,rfl,fun _ => rfl⟩
      · cases read
  | float =>
      simp only [ofLexeme, ofFloatText] at read
      split at read
      · cases read; exact ⟨_,rfl,rfl,fun _ => rfl⟩
      · cases read
  | doubleQuoted | singleQuoted | doubleQuotedTemplate | singleQuotedTemplate =>
      obtain ⟨s,rfl⟩ := made read
      exact ⟨_,rfl,rfl,fun _ => rfl⟩

end DocBlocks.Token

namespace DocBlocks.Statement
open Token Lexeme

structure Passage (s s' : State) (text rest written : List Char) (tokens : List Token) : Prop where
  splits : splitFrom s (text ++ rest) = splitFrom s' rest
  plain : s'.mode = .plain
  seen : s'.seen = written.reverse ++ s.seen
  start : s'.start = s.start
  fronts : ∀ front, Fronts rest front → Fronts (text ++ rest) (written ++ front)
  reads : ∀ front, Fronts rest front → reads (written ++ front) = (reads front).map (tokens ++ ·)
  enclosed : ∀ own, Enclosed s'.depth own → Enclosed s.depth (tokens ++ own)

inductive Step (s : State) : List Char → List Token → Prop where
  | done : Step s [] []
  | pass {s' : State} {text rest written : List Char} {given tokens : List Token}
      (passage : Passage s s' text rest written given) (filled : text ≠ [])
      (more : Token.reads rest = some tokens) : Step s (text ++ rest) (given ++ tokens)
  | cut {s' : State} {c : Char} {rest : List Char} {token : Token} {tokens : List Token}
      (splits : splitFrom s (c :: rest) = s.statement :: splitFrom s' rest)
      (fresh : s'.seen = [] ∧ s'.depth = 0 ∧ s'.mode = .plain) (separator : c = '\n' ∨ c = ';')
      (separates : token.separates = true) (more : Token.reads rest = some tokens) :
      Step s (c :: rest) (token :: tokens)

variable {s : State} {c quote : Char} {text rest : List Char} {tokens : List Token}

theorem readsFirst (read : Token.reads (c :: rest) = some tokens) : ∃ found more,
    ofLexeme 0 (c :: rest.take (next c rest).more) (next c rest).kind = .ok found ∧
      Token.reads (rest.drop (next c rest).more) = some more ∧ tokens = found.toList ++ more := by
  rw [readsLexeme, Option.bind_eq_some_iff] at read
  obtain ⟨found,first,read⟩ := read
  obtain ⟨more,after,rfl⟩ := Option.map_eq_some_iff.mp read
  refine ⟨found,more,?_,after,rfl⟩
  revert first
  cases ofLexeme 0 (c :: rest.take (next c rest).more) (next c rest).kind with
  | error e => exact fun first => nomatch first
  | ok other => exact fun first => congrArg Except.ok (Option.some.inj first)

theorem passLexeme {s' : State} {kind : LexemeKind} (found : Option Token)
    (splits : splitFrom s (c :: text ++ rest) = splitFrom s' rest)
    (after : s'.mode = .plain ∧ s'.seen = (c :: text).reverse ++ s.seen ∧ s'.start = s.start)
    (stays : ∀ front, Fronts rest front → next c (text ++ front) = ⟨kind,text.length⟩)
    (read : ofLexeme 0 (c :: text) kind = .ok found)
    (enclosed : ∀ own, Enclosed s'.depth own → Enclosed s.depth (found.toList ++ own)) :
    Passage s s' (c :: text) rest (c :: text) found.toList := by
  refine ⟨splits,after.1,after.2.1,after.2.2,fun front fronts => frontsAppend _ fronts,?_,enclosed⟩
  intro front fronts
  have same := stays front fronts
  rw [List.cons_append, readsLexeme, same]
  simp only [List.take_left, List.drop_left, read]
  rfl

theorem stepSpace (plain : s.mode = .plain) (space : isSpace c = true)
    (read : Token.reads (c :: rest) = some tokens) : Step s (c :: rest) tokens := by
  rw [readsSpace rest space] at read
  have marks : c ≠ '\n' ∧ c ≠ '\\' ∧ c ≠ ';' ∧ depthAfter s.depth c = s.depth ∧ Mode.after c = .plain := by
    simp only [isSpace, Bool.or_eq_true, beq_iff_eq] at space
    rcases space with (rfl | rfl) | rfl <;> exact ⟨by decide,by decide,by decide,rfl,rfl⟩
  obtain ⟨feed,slash,semicolon,depth,after⟩ := marks
  have passage : Passage s (s.take c) [c] rest [c] [] := by
    refine ⟨splitPlain rest plain feed slash (.inl semicolon),after,rfl,rfl,
      fun front fronts => .same c fronts,fun front fronts => ?_,fun own enclosed => ?_⟩
    · rw [List.singleton_append, readsSpace front space]
      exact Option.map_id'.symm
    · rw [State.take, depth] at enclosed
      exact enclosed
  exact .pass passage (List.cons_ne_nil c []) read

theorem stepJoined (plain : s.mode = .plain)
    (read : Token.reads ('\\' :: '\n' :: rest) = some tokens) : Step s ('\\' :: '\n' :: rest) tokens := by
  have after : Token.reads rest = some tokens := by
    rw [← read, readsLexeme]
    exact Option.map_id'.symm
  have passage : Passage s ({ s with line := s.line + 1 }.push ' ') ['\\','\n'] rest [' '] [] := by
    refine ⟨splitJoined rest plain,plain,rfl,rfl,fun front fronts => .blank fronts,
      fun front fronts => ?_,fun own enclosed => enclosed⟩
    rw [List.singleton_append, readsSpace front rfl]
    exact Option.map_id'.symm
  exact .pass passage (List.cons_ne_nil _ _) after

theorem stepSeparator (plain : s.mode = .plain) {token : Token}
    (separator : (c,token) = ('\n',.newline) ∨ (c,token) = (';',.symbol .semicolon))
    (read : Token.reads (c :: rest) = some tokens) : Step s (c :: rest) tokens := by
  have lexeme : token.separates = true ∧ (∀ depth, token.depthAfter depth = depth) ∧
      ∃ kind, (∀ rest, next c rest = ⟨kind,0⟩) ∧ ofLexeme 0 [c] kind = .ok (some token) := by
    rcases separator with same | same <;> cases same
    · exact ⟨rfl,fun _ => rfl,.newline,fun _ => rfl,rfl⟩
    · exact ⟨rfl,fun _ => rfl,.symbol .semicolon,fun _ => rfl,rfl⟩
  have marks : c = '\n' ∨ c = ';' := separator.imp (congrArg Prod.fst) (congrArg Prod.fst)
  obtain ⟨separates,depth,kind,next,made⟩ := lexeme
  obtain ⟨found,more,first,after,rfl⟩ := readsFirst read
  rw [next, List.take_zero, made] at first
  cases first
  rw [next] at after
  by_cases outside : s.depth = 0
  · rcases marks with rfl | rfl
    · exact .cut (splitFeed rest outside) ⟨rfl,outside,rfl⟩ (.inl rfl) separates after
    · exact .cut (splitSemicolon rest plain outside) ⟨rfl,outside,plain⟩ (.inr rfl) separates after
  · have passes : ∃ s', splitFrom s (c :: rest) = splitFrom s' rest ∧
        (s'.mode = .plain ∧ s'.seen = [c].reverse ++ s.seen ∧ s'.start = s.start) ∧
        s'.depth = s.depth := by
      rcases marks with rfl | rfl
      · exact ⟨s.newline.push '\n',splitInside rest outside,⟨rfl,rfl,rfl⟩,rfl⟩
      · exact ⟨s.take ';',splitPlain rest plain (by decide) (by decide) (.inr outside),⟨rfl,rfl,rfl⟩,rfl⟩
    obtain ⟨s',splits,state,same⟩ := passes
    have passage : Passage s s' [c] rest [c] [token] := passLexeme (some token) splits state
      (fun front _ => next front) made fun own enclosed =>
        ⟨fun _ => outside,by rw [depth, ← same]; exact enclosed⟩
    exact .pass passage (List.cons_ne_nil c []) after

theorem splitComment (text rest : List Char) (sameLine : ∀ c ∈ text, c ≠ '\n') (s : State)
    (comment : s.mode = .comment) : splitFrom s (text ++ rest) = splitFrom (s.pass text) rest := by
  induction text generalizing s with
  | nil => rfl
  | cons c text ih =>
      have sameLine' d member := sameLine d (List.mem_cons_of_mem c member)
      rw [List.cons_append, splitCommented _ comment (sameLine c List.mem_cons_self),
        ih sameLine' (s.push c) comment]
      simp [State.push, State.pass]

theorem splitLineEnd (mode : Mode) (ends : rest = [] ∨ ∃ more, rest = '\n' :: more) :
    splitFrom s rest = splitFrom { s with mode := mode } rest := by
  rcases ends with rfl | ⟨more,rfl⟩
  · rw [splitFrom.eq_def, splitFrom.eq_def]
    rfl
  · rw [splitFrom.eq_def, splitFrom.eq_def]
    rfl

theorem stepComment (plain : s.mode = .plain) (read : Token.reads ('#' :: rest) = some tokens) :
    Step s ('#' :: rest) tokens := by
  -- a comment ends with its line, for the scanner and for the splitter
  obtain ⟨text,later,rfl,sameLine,ends⟩ : ∃ text later, rest = text ++ later ∧
      (∀ c ∈ text, c ≠ '\n') ∧ (later = [] ∨ ∃ more, later = '\n' :: more) := by
    refine ⟨rest.takeWhile (· != '\n'),rest.dropWhile (· != '\n'),
      List.takeWhile_append_dropWhile.symm,fun c member => ?_,?_⟩
    · simpa using List.mem_takeWhile_imp member
    · cases found : rest.dropWhile (· != '\n') with
      | nil => exact .inl rfl
      | cons c more =>
          have stops := List.head_dropWhile_not (· != '\n') (l := rest) (by simp [found])
          simp only [found, List.head_cons] at stops
          exact .inr ⟨more,by simpa using stops⟩
  have lexeme : ∀ front, (front = [] ∨ ∃ more, front = '\n' :: more) →
      next '#' (text ++ front) = ⟨.skipped,text.length⟩ := by
    intro front ends
    have length : runLength (· != '\n') (text ++ front) = text.length := by
      refine runStops front (fun c member => by simpa using sameLine c member) fun c head => ?_
      rcases ends with rfl | ⟨more,rfl⟩
      · cases head
      · cases head; rfl
    rw [← length]
    rfl
  obtain ⟨found,more,first,after,rfl⟩ := readsFirst read
  rw [lexeme later ends] at first after
  rw [List.drop_left] at after
  cases first
  have splits : splitFrom s ('#' :: text ++ later) =
      splitFrom { (s.take '#').pass text with mode := .plain } later := by
    rw [List.cons_append, splitPlain _ plain (by decide) (by decide) (.inl (by decide)),
      splitComment text later sameLine (s.take '#') rfl, splitLineEnd .plain ends]
  have passage := passLexeme none splits ⟨rfl,by simp [State.pass, State.take],rfl⟩
    (fun front fronts => lexeme front ?_) rfl fun own enclosed => enclosed
  · exact .pass passage (List.cons_ne_nil _ _) after
  · cases fronts with
    | done => exact .inl rfl
    | cut => exact .inl rfl
    | blank more => rcases ends with none | ⟨_,same⟩ <;> simp_all
    | same c more => rcases ends with none | ⟨_,same⟩ <;> simp_all

theorem closedPasses (mark : IsQuote quote) (closed : Closed quote text) (rest : List Char) (s : State)
    (quoted : s.mode = .quoted quote) :
    splitFrom s (text ++ rest) = splitFrom { s.pass text with mode := .plain } rest := by
  have marks : quote ≠ '\n' ∧ quote ≠ '\\' := by rcases mark with rfl | rfl <;> decide
  induction closed generalizing s with
  | close =>
      rw [List.singleton_append, splitQuoted rest quoted marks.1 marks.2, if_pos rfl]
      rfl
  | @escape c text sameLine more ih =>
      rw [List.cons_append, List.cons_append, splitEscaped _ quoted sameLine,
        ih ((s.push '\\').push c) quoted]
      simp [State.push, State.pass]
  | @plain c text other more ih =>
      rw [List.cons_append, splitQuoted _ quoted other.2.1 other.2.2, if_neg other.1,
        ih (s.push c) quoted]
      simp [State.push, State.pass]

theorem stepQuoted (plain : s.mode = .plain) {kind : LexemeKind} (word : kind.Word) (front : List Char)
    {inside : List Char} (written : c :: text = front ++ quote :: inside) (mark : IsQuote quote)
    (closed : Closed quote inside)
    (ordinary : front.all isOrdinary = true)
    (lexeme : ∀ rest, next c (text ++ rest) = ⟨kind,text.length⟩)
    (read : Token.reads (c :: (text ++ rest)) = some tokens) : Step s (c :: (text ++ rest)) tokens := by
  have marks : quote ≠ '\n' ∧ quote ≠ '\\' ∧ quote ≠ ';' ∧
      Mode.after quote = .quoted quote ∧ ∀ depth, depthAfter depth quote = depth := by
    rcases mark with rfl | rfl <;> exact ⟨by decide,by decide,by decide,rfl,fun depth => rfl⟩
  obtain ⟨feed,slash,semicolon,opens,depth⟩ := marks
  obtain ⟨found,more,made,after,rfl⟩ := readsFirst read
  rw [lexeme] at made after
  simp only [List.take_left, List.drop_left] at made after
  obtain ⟨token,rfl,separates,level⟩ := lexemeFound word made
  let s' : State := { ((s.pass front).take quote).pass inside with mode := .plain }
  have splits : splitFrom s (c :: text ++ rest) = splitFrom s' rest := by
    rw [written, List.append_assoc, (inertText front ordinary).passes s _ plain, List.cons_append,
      splitPlain (s := s.pass front) _ plain feed slash (.inl semicolon)]
    exact closedPasses mark closed rest ((s.pass front).take quote) opens
  have seen : s'.seen = (c :: text).reverse ++ s.seen := by
    rw [written]
    simp [s', State.pass, State.take]
  have same : s'.depth = s.depth := depth s.depth
  have passage := passLexeme (some token) splits ⟨rfl,seen,rfl⟩ (fun front _ => lexeme front) made
    fun own enclosed => ⟨fun ends => by simp [separates] at ends,by rw [level, ← same]; exact enclosed⟩
  exact .pass passage (List.cons_ne_nil _ _) after

theorem stepLiteral (plain : s.mode = .plain) (mark : IsQuote c)
    (read : Token.reads (c :: rest) = some tokens) : Step s (c :: rest) tokens := by
  obtain ⟨kind,word,next⟩ := nextQuoted mark
  cases length : quotedLength? c rest with
  | none =>
      obtain ⟨found,more,made,_⟩ := readsFirst read
      rw [next, quoted, length] at made
      cases made
  | some n =>
      obtain ⟨inside,later,rfl,_,closed⟩ := quotedClosed length
      have slash : c ≠ '\\' := by rcases mark with rfl | rfl <;> decide
      refine stepQuoted plain word [] rfl mark closed rfl (fun rest => ?_) read
      rw [next, quoted, closedLength slash closed]

theorem stepSpans (plain : s.mode = .plain) {lexeme : Lexeme}
    (marks : c ≠ '\n' ∧ c ≠ '\\' ∧ c ≠ ';' ∧ Mode.after c = .plain)
    (stays : ∀ front, Fronts rest front → next c front = lexeme) (spans : Spans lexeme.more rest)
    (made : ∀ text found, ofLexeme 0 text lexeme.kind = .ok found → ∃ token, found = some token ∧
      token.separates = false ∧ ∀ depth, token.depthAfter depth = depthAfter depth c)
    (first : next c rest = lexeme) (read : Token.reads (c :: rest) = some tokens) :
    Step s (c :: rest) tokens := by
  obtain ⟨feed,slash,semicolon,mode⟩ := marks
  obtain ⟨kind,length⟩ := lexeme
  obtain ⟨text,later,rfl,same,ordinary⟩ := spansText spans
  dsimp only at same made
  subst same
  obtain ⟨found,more,lexed,after,rfl⟩ := readsFirst read
  rw [first] at lexed after
  simp only [List.take_left, List.drop_left] at lexed after
  obtain ⟨token,rfl,separates,level⟩ := made _ found lexed
  have splits : splitFrom s (c :: text ++ later) = splitFrom ((s.take c).pass text) later := by
    rw [List.cons_append, splitPlain _ plain feed slash (.inl semicolon),
      (inertText text ordinary).passes (s.take c) later mode]
  have passage := passLexeme (some token) splits ⟨mode,by simp [State.pass, State.take],rfl⟩
    (fun front fronts => stays _ (frontsAppend text fronts)) lexed
    fun own enclosed => ⟨fun ends => by simp [separates] at ends,by rw [level]; exact enclosed⟩
  exact .pass passage (List.cons_ne_nil _ _) after

theorem ordinaryMarks (ordinary : isOrdinary c = true) :
    (c ≠ '\n' ∧ c ≠ '\\' ∧ c ≠ ';' ∧ Mode.after c = .plain) ∧
      ∀ depth, depthAfter depth c = depth := by
  simp only [isOrdinary, List.mem_cons, List.not_mem_nil, or_false, not_or, Bool.not_eq_true',
    decide_eq_false_iff_not] at ordinary
  obtain ⟨feed,_,semicolon,slash,double,single,hash,p,p',b,b',c₁,c₂,_⟩ := ordinary
  refine ⟨⟨feed,slash,semicolon,?_⟩,fun depth => ?_⟩
  · simp [Mode.after, double, single, hash]
  · simp [depthAfter, p, p', b, b', c₁, c₂]

theorem stepWord (plain : s.mode = .plain) {lexeme : Lexeme} (word : lexeme.kind.Word)
    (ordinary : isOrdinary c = true) (stays : ∀ front, Fronts rest front → next c front = lexeme)
    (spans : Spans lexeme.more rest) (first : next c rest = lexeme)
    (read : Token.reads (c :: rest) = some tokens) : Step s (c :: rest) tokens := by
  obtain ⟨marks,depth⟩ := ordinaryMarks ordinary
  refine stepSpans plain marks stays spans (fun text found lexed => ?_) first read
  obtain ⟨token,same,separates,level⟩ := lexemeFound word lexed
  exact ⟨token,same,separates,fun n => (level n).trans (depth n).symm⟩

theorem stepNumber (plain : s.mode = .plain) (digit : Decimal.isDigit c = true)
    (read : Token.reads (c :: rest) = some tokens) : Step s (c :: rest) tokens := by
  have word : (number rest).kind.Word := by
    by_cases point : (rest.drop (runLength Decimal.isDigit rest)).head? = some '.'
    · obtain ⟨more,found⟩ := List.head?_eq_some_iff.mp point
      rw [numberPointed found]
      simp [LexemeKind.Word]
    · rw [numberScaled point, scaledKind]
      split <;> simp [LexemeKind.Word]
  refine stepWord plain word (digitCompact digit).1 (fun front fronts => ?_) (spansNumber rest)
    (nextNumber digit rest) read
  rw [nextNumber digit, frontsNumber fronts]

theorem stepName (plain : s.mode = .plain) (start : isNameStart c = true)
    (read : Token.reads (c :: rest) = some tokens) : Step s (c :: rest) tokens := by
  have ordinary := (Arguments.nameCompact (Arguments.nameStartPart start)).1
  by_cases literal : IsMark c ∧ ∃ quote, IsQuote quote ∧ rest.head? = some quote
  · obtain ⟨mark,quote,quotes,head⟩ := literal
    obtain ⟨rest,rfl⟩ := List.head?_eq_some_iff.mp head
    obtain ⟨kind,word,template⟩ := nameTemplate mark quotes
    cases length : quotedLength? quote rest with
    | none =>
        -- the name ends before a quote that begins no literal
        obtain ⟨_,_,next⟩ := nextQuoted quotes
        obtain ⟨found,more,_,after,_⟩ := readsFirst read
        rw [nextName start, template, length] at after
        obtain ⟨_,_,made,_⟩ := readsFirst after
        rw [next, quoted, length] at made
        cases made
    | some n =>
        obtain ⟨inside,later,rfl,_,closed⟩ := quotedClosed length
        have slash : quote ≠ '\\' := by rcases quotes with rfl | rfl <;> decide
        have alone : [c].all isOrdinary = true := by simp [ordinary]
        have written : c :: quote :: inside = [c] ++ quote :: inside := rfl
        refine stepQuoted plain word [c] written quotes closed alone (fun rest => ?_) read
        rw [nextName start, List.cons_append, template, closedLength slash closed]
        rfl
  · have name {text : List Char} (heads : ∀ quote, IsQuote quote →
        (text.head? = some quote ↔ rest.head? = some quote)) :
        next c text = ⟨.ident,runLength isNamePart text⟩ := by
      rw [nextName start]
      exact namePlain fun mark quote quotes head => literal ⟨mark,quote,quotes,(heads quote quotes).mp head⟩
    refine stepWord plain (by simp [LexemeKind.Word]) ordinary (fun front fronts => ?_) (spansName rest)
      (name fun _ _ => Iff.rfl) read
    have heads : ∀ quote, IsQuote quote → (front.head? = some quote ↔ rest.head? = some quote) :=
      fun quote quotes => frontsHead (by rcases quotes with rfl | rfl <;> decide) fronts
    rw [name heads, (frontsRun nameKept fronts).1]

structure SymbolRead (c : Char) (rest : List Char) (lexeme : Lexeme) (x : Symbol) : Prop where
  kind : lexeme.kind = .symbol x
  spans : Spans lexeme.more rest
  apart : c ≠ '\n' ∧ c ≠ '\\' ∧ Mode.after c = .plain
  depth : ∀ depth, (Token.symbol x).depthAfter depth = depthAfter depth c
  separates : (Token.symbol x).separates = (c == ';')

theorem symbolRead {lexeme : Lexeme} (found : symbol? c rest = some lexeme) :
    ∃ x, SymbolRead c rest lexeme x := by
  have short : Spans 0 rest := ⟨Nat.zero_le _,by simp⟩
  have long {d : Char} (ordinary : isOrdinary d = true) (second : rest.head? = some d) : Spans 1 rest := by
    obtain ⟨more,rfl⟩ := List.head?_eq_some_iff.mp second
    exact spansCons ordinary ⟨Nat.zero_le _,by simp⟩
  unfold symbol? at found
  dsimp only at found
  split at found
  case h_20 => cases found
  all_goals first
    | cases found
      exact ⟨_,rfl,short,by decide,fun _ => rfl,rfl⟩
    | split at found
      · rename_i second
        cases found
        exact ⟨_,rfl,long (by decide) second,by decide,fun _ => rfl,rfl⟩
      · cases found
        try exact ⟨_,rfl,short,by decide,fun _ => rfl,rfl⟩

theorem stepSymbol (plain : s.mode = .plain) (inside : c ≠ ';')
    (next : ∀ rest, next c rest = (symbol? c rest).getD ⟨.invalid,0⟩)
    (read : Token.reads (c :: rest) = some tokens) : Step s (c :: rest) tokens := by
  cases symbol : symbol? c rest with
  | none =>
      obtain ⟨_,_,made,_⟩ := readsFirst read
      rw [next, symbol] at made
      cases made
  | some lexeme =>
      obtain ⟨x,kind,spans,⟨feed,slash,mode⟩,depth,separates⟩ := symbolRead symbol
      have stays : ∀ front, Fronts rest front → Lexeme.next c front = lexeme := by
        intro front fronts
        rw [next, frontsSymbol fronts, symbol]
        rfl
      refine stepSpans plain ⟨feed,slash,inside,mode⟩ stays spans (fun text found made => ?_)
        (by rw [next, symbol]; rfl) read
      rw [kind] at made
      cases made
      exact ⟨_,rfl,by rw [separates]; simpa using inside,depth⟩

theorem stepAlong (plain : s.mode = .plain) (noReturn : '\r' ∉ text)
    (read : Token.reads text = some tokens) : Step s text tokens := by
  -- the first character decides which lexeme begins, in the order in which the scanner asks
  cases text with
  | nil =>
      cases readsNil.symm.trans read
      exact .done
  | cons c rest =>
      by_cases space : isSpace c = true
      · exact stepSpace plain space read
      by_cases feed : c = '\n'
      · subst feed
        exact stepSeparator plain (.inl rfl) read
      by_cases semicolon : c = ';'
      · subst semicolon
        exact stepSeparator plain (.inr rfl) read
      by_cases comment : c = '#'
      · subst comment
        exact stepComment plain read
      by_cases slash : c = '\\'
      · subst slash
        obtain ⟨more,rfl⟩ : ∃ more, rest = '\n' :: more := by
          obtain ⟨_,_,made,_⟩ := readsFirst read
          change ofLexeme 0 _ (backslash rest).kind = _ at made
          unfold backslash at made
          split at made
          · exact ⟨_,rfl⟩
          · simp at noReturn
          · simp at noReturn
          · cases made
        exact stepJoined plain read
      by_cases quotes : IsQuote c
      · exact stepLiteral plain quotes read
      by_cases start : isNameStart c = true
      · exact stepName plain start read
      by_cases digit : Decimal.isDigit c = true
      · exact stepNumber plain digit read
      obtain ⟨double,single⟩ := not_or.mp quotes
      exact stepSymbol plain semicolon (fun rest => by
        simp [next, space, feed, comment, slash, double, single, start, digit]) read

structure Split (s : State) (text : List Char) (tokens : List Token) (front : List Char)
    (own : List Token) (later : List Statement) (parts : List (List Token)) : Prop where
  statements : splitFrom s text = ⟨s.seen.reverse ++ front,s.start⟩ :: later
  fronts : Fronts text front
  reads : Token.reads front = some own
  enclosed : Enclosed s.depth own
  others : List.Forall₂ (fun statement part =>
    scanFrom 0 statement.text = .ok part ∧ Enclosed 0 part) later parts
  separated : Separated (own :: parts) tokens

theorem splitAlong (text : List Char) (noReturn : '\r' ∉ text) (s : State) (plain : s.mode = .plain)
    (tokens : List Token) (read : Token.reads text = some tokens) :
    ∃ front own later parts, Split s text tokens front own later parts := by
  -- by length, as a step takes a character at least
  induction length : text.length using Nat.strongRecOn generalizing text s tokens with
  | ind n ih =>
      cases stepAlong plain noReturn read with
      | done =>
          refine ⟨[],[],[],[],?_,.done,readsNil,trivial,.nil,.last []⟩
          rw [splitFrom.eq_def, List.append_nil]
          rfl
      | @pass s' passed rest written given tokens passage filled more =>
          have less : rest.length < n := by
            have positive := List.length_pos_iff.mpr filled
            rw [← length, List.length_append]
            omega
          obtain ⟨front,own,later,parts,split⟩ := ih _ less rest
            (fun member => noReturn (List.mem_append_right _ member)) s' passage.plain tokens more rfl
          refine ⟨written ++ front,given ++ own,later,parts,?_,passage.fronts front split.fronts,?_,
            passage.enclosed own split.enclosed,split.others,separatedAppend given split.separated⟩
          · rw [passage.splits, split.statements, passage.seen, passage.start]
            simp
          · rw [passage.reads front split.fronts, split.reads]
            rfl
      | @cut s' c rest token tokens splits fresh separator separates more =>
          have less : rest.length < n := by
            rw [← length, List.length_cons]
            omega
          obtain ⟨seen,depth,plain'⟩ := fresh
          obtain ⟨front,own,later,parts,split⟩ := ih _ less rest
            (fun member => noReturn (List.mem_cons_of_mem c member)) s' plain' tokens more rfl
          have enclosed := split.enclosed
          rw [depth] at enclosed
          refine ⟨[],[],⟨front,s'.start⟩ :: later,own :: parts,?_,.cut separator,readsNil,trivial,
            .cons ⟨readsIff.mp split.reads,enclosed⟩ split.others,.next [] separates split.separated⟩
          rw [splits, split.statements, seen, List.append_nil]
          rfl

end DocBlocks.Statement

namespace DocBlocks.Text

theorem dedentMember {c : Char} {source : List Char} (member : c ∈ dedent source) :
    c = '\n' ∨ c ∈ source := by
  rcases joinedMember member with feed | ⟨line,found,inside⟩
  · exact .inl (List.mem_singleton.mp feed)
  · obtain ⟨whole,listed,rfl⟩ := List.mem_map.mp found
    obtain ⟨piece,cut,there⟩ := ofPiecesMember listed (List.mem_of_mem_drop inside)
    have joins : joined ['\n'] (pieces (· == '\n') source) = source :=
      joinedPieces (fun d same => beq_iff_eq.mp same) source
    exact .inr (joins ▸ memberJoined ['\n'] cut there)

end DocBlocks.Text

namespace DocBlocks.Statement
open Token

/- Where the tokens of a text can be read, every statement of it can be scanned, and the tokens of the
text are theirs, with one separator between each two statements. A separator among the tokens of a
statement stands inside brackets. -/
theorem splitScanned {source : String} {tokens : List Token} (noReturn : '\r' ∉ source.toList)
    (scanned : scanFrom 0 (Text.dedent source.toList) = .ok tokens) :
    ∃ parts, List.Forall₂ (fun statement part =>
        scanFrom 0 statement.text = .ok part ∧ Enclosed 0 part)
          (split (Text.dedent source.toList)) parts ∧
      Separated parts tokens := by
  have inside : '\r' ∉ Text.dedent source.toList := by
    intro member
    rcases Text.dedentMember member with same | there
    · cases same
    · exact noReturn there
  obtain ⟨front,own,later,parts,found⟩ := splitAlong _ inside .initial rfl tokens (readsIff.mpr scanned)
  refine ⟨own :: parts,?_,found.separated⟩
  rw [split, found.statements]
  exact .cons ⟨readsIff.mp found.reads,found.enclosed⟩ found.others

theorem bracketsScanned : '\r' ∉ "x = [1;\n2] # a; b\ny = ';'".toList ∧
    scanFrom 0 (Text.dedent "x = [1;\n2] # a; b\ny = ';'".toList) =
      .ok [.ident "x",.symbol .assign,.symbol .openBracket,.int 1,.symbol .semicolon,.newline,.int 2,
        .symbol .closeBracket,.newline,.ident "y",.symbol .assign,.string ";"] ∧
    ∃ parts, List.Forall₂ (fun statement part =>
        scanFrom 0 statement.text = .ok part ∧ Enclosed 0 part)
          (split (Text.dedent "x = [1;\n2] # a; b\ny = ';'".toList)) parts ∧
      Separated parts [.ident "x",.symbol .assign,.symbol .openBracket,.int 1,.symbol .semicolon,
        .newline,.int 2,.symbol .closeBracket,.newline,.ident "y",.symbol .assign,.string ";"] := by
  have noReturn : '\r' ∉ "x = [1;\n2] # a; b\ny = ';'".toList := by simp
  have scanned : scanFrom 0 (Text.dedent "x = [1;\n2] # a; b\ny = ';'".toList) =
      .ok [.ident "x",.symbol .assign,.symbol .openBracket,.int 1,.symbol .semicolon,.newline,.int 2,
        .symbol .closeBracket,.newline,.ident "y",.symbol .assign,.string ";"] := by cbv
  exact ⟨noReturn,scanned,splitScanned noReturn scanned⟩

end DocBlocks.Statement
