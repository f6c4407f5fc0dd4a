import Mathlib
import DocBlocks.Arguments.Binding
import DocBlocks.Proofs.Arguments.Splitting
import DocBlocks.Proofs.Expr.Keyed
import DocBlocks.Proofs.Literal.Evaluation
import DocBlocks.Proofs.Text.Lines

/-! Parsing what is written for arguments. Each line is one assignment, and evaluating it binds the
name to the value that was written. -/
namespace DocBlocks.Statement

def numbered : Nat → List (List Char) → List Statement
  | _, [] => []
  | n, line :: rest => ⟨line,n⟩ :: numbered (n + 1) rest

theorem splitLines (line : List Char) (ls : List (List Char)) (n : Nat)
    (each : ∀ text ∈ line :: ls, Inert text) :
    splitFrom ⟨[],n,n,0,.plain⟩ (Text.joined ['\n'] (line :: ls)) = numbered n (line :: ls) := by
  induction ls generalizing line n with
  | nil =>
      have one := (each line (by simp)).passes ⟨[],n,n,0,.plain⟩ [] rfl
      rw [List.append_nil] at one
      rw [Text.joined, List.intercalate_singleton, one, splitFrom.eq_def]
      simp [State.statement, State.pass, numbered]
  | cons next ls ih =>
      have others := ih next (n + 1) fun text member => each text (by simp [member])
      have first := (each line (by simp)).passes ⟨[],n,n,0,.plain⟩
        ('\n' :: Text.joined ['\n'] (next :: ls)) rfl
      rw [Text.joined, List.intercalate_cons_cons, List.append_assoc, List.singleton_append]
      rw [Text.joined] at first others
      rw [first, splitFeed _ rfl]
      simp only [State.statement, State.pass, State.newline, State.restart, List.append_nil,
        List.reverse_reverse]
      rw [others]
      rfl

theorem dedentLines {ls : List (List Char)} (each : ∀ text ∈ ls, Inert text)
    (flush : ∀ line, ls.find? (fun line => !Text.isBlankText line) = some line →
      Text.indentation line = 0) :
    Text.dedent (Text.unlines ls) = Text.joined ['\n'] ls := by
  have whole : Text.lines (Text.unlines ls) = ls :=
    Text.linesUnlines fun line member => (each line member).oneLine
  have none : Text.commonIndentation ls = 0 := by
    unfold Text.commonIndentation
    split
    · rename_i line found
      exact flush line found
    · rfl
  have same : ls.map (Text.unindent 0) = ls := by
    have kept : Text.unindent 0 = id := by
      funext line
      simp [Text.unindent]
    rw [kept, List.map_id]
  unfold Text.dedent
  dsimp only
  rw [whole, none, same]

end DocBlocks.Statement

namespace DocBlocks.Token

def IsName (name : String) : Prop :=
  ∃ c text, name.toList = c :: text ∧ Lexeme.isNameStart c = true ∧
    ∀ x ∈ text, Lexeme.isNamePart x = true

theorem yieldsAssign {text : List Char} {tokens : List Token} (value : Yields text tokens) :
    Yields (" = ".toList ++ text) (.symbol .assign :: tokens) := by
  have spaced : Yields (' ' :: text) tokens := yieldsSpace rfl value
  have assign : Yields ('=' :: ' ' :: text) (.symbol .assign :: tokens) := by
    intro seen offset rest follow
    have next : Lexeme.next '=' (' ' :: text ++ rest) = ⟨.symbol .assign,0⟩ := rfl
    rw [List.cons_append, scanToken seen offset (.symbol .assign)]
    · rw [next, List.drop_zero, spaced _ _ _ follow]
      simp [Nat.add_assoc]
    · rw [next]; rfl
  exact yieldsSpace rfl assign

theorem yieldsLine {name : String} (named : IsName name) (value : Value) :
    Yields (name ++ " = " ++ value.literal).toList
      (.ident name :: .symbol .assign :: value.tokens) := by
  obtain ⟨c,text,whole,start,parts⟩ := named
  have first := yieldsName text start parts
  rw [← whole, String.ofList_toList] at first
  have both := yieldsAppend first (yieldsAssign (Value.yieldsLiteral value))
    fun rest _ => endsCons (by decide)
  rw [String.toList_append, String.toList_append, List.append_assoc]
  exact both

end DocBlocks.Token

namespace DocBlocks.Value
open Token

theorem signedNoNewline (n : Int) : .newline ∉ signedTokens n := by
  cases n <;> simp [signedTokens]

mutual

theorem tokensNoNewline : ∀ value : Value, .newline ∉ value.tokens
  | .null | .bool _ | .string _ => by simp [Value.tokens]
  | .int n => by
      rw [Value.tokens, intTokens]
      split
      · simp [signedNoNewline]
      · exact signedNoNewline _
  | .float x => by
      rw [Value.tokens, floatTokens]
      cases x.isFinite <;> cases Decimal.isSigned x <;> simp
  | .list items => by
      have inside := itemsNoNewline items
      simp [Value.tokens, inside]
  | .map entries => by
      have inside := entriesNoNewline entries
      simp [Value.tokens, inside]

theorem itemsNoNewline : ∀ items : List Value, .newline ∉ itemTokens items
  | [] => by simp [itemTokens]
  | [item] => by simpa [itemTokens] using tokensNoNewline item
  | item :: next :: rest => by
      have first := tokensNoNewline item
      have others := itemsNoNewline (next :: rest)
      simp [itemTokens, first, others]

theorem entriesNoNewline : ∀ entries : List (String × Value), .newline ∉ entryTokens entries
  | [] => by simp [entryTokens]
  | [(key,value)] => by simpa [entryTokens] using tokensNoNewline value
  | (key,value) :: next :: rest => by
      have first := tokensNoNewline value
      have others := entriesNoNewline (next :: rest)
      simp [entryTokens, first, others]

end

end DocBlocks.Value

namespace DocBlocks.Arguments
open Token Value

def line (binding : String × Value) : List Char :=
  (binding.1 ++ " = " ++ binding.2.literal).toList

theorem toSourceLines (arguments : Arguments) :
    arguments.toSource.toList = Text.unlines (arguments.entries.map line) := by
  unfold toSource Text.unlines
  rw [String.toList_join, List.flatMap_map, List.flatMap_map]
  congr 1
  funext binding
  simp [line]

theorem nameAscii {c : Char} (part : Lexeme.isNamePart c = true) : c.toNat < 128 := by
  simp only [Lexeme.isNamePart, Char.isAlphanum, Char.isAlpha, Char.isUpper, Char.isLower,
    Char.isDigit, Bool.or_eq_true, Bool.and_eq_true, decide_eq_true_eq, beq_iff_eq, ge_iff_le,
    UInt32.le_iff_toNat_le, Char.toNat_val] at part
  rcases part with ((⟨_,upper⟩ | ⟨_,lower⟩) | ⟨_,digit⟩) | rfl
  · exact Nat.lt_of_le_of_lt upper (by decide)
  · exact Nat.lt_of_le_of_lt lower (by decide)
  · exact Nat.lt_of_le_of_lt digit (by decide)
  · decide

theorem nameCompact {c : Char} (part : Lexeme.isNamePart c = true) : Statement.IsCompact c := by
  have all : ∀ n < 128, Lexeme.isNamePart (Char.ofNat n) = true →
      Statement.isOrdinary (Char.ofNat n) = true ∧ Text.isBlank (Char.ofNat n) = false := by decide
  have this := all c.toNat (nameAscii part)
  rw [Char.ofNat_toNat] at this
  exact this part

theorem nameStartPart {c : Char} (start : Lexeme.isNameStart c = true) :
    Lexeme.isNamePart c = true := by
  simp only [Lexeme.isNameStart, Lexeme.isNamePart, Bool.or_eq_true, Char.isAlphanum] at start ⊢
  rcases start with alpha | line
  · exact .inl (.inl alpha)
  · exact .inr line

theorem nameParts {name : String} (named : IsName name) :
    ∀ c ∈ name.toList, Statement.IsCompact c := by
  obtain ⟨first,text,whole,start,parts⟩ := named
  intro c member
  rw [whole] at member
  rcases List.mem_cons.mp member with rfl | there
  · exact nameCompact (nameStartPart start)
  · exact nameCompact (parts c there)

theorem lineInert {binding : String × Value} (named : IsName binding.1) :
    Statement.Inert (line binding) := by
  have name := Statement.inertCompact (nameParts named)
  have equals := Statement.inertText " = ".toList (by decide)
  unfold line
  rw [String.toList_append, String.toList_append]
  exact Statement.inertAppend (Statement.inertAppend name equals)
    (Statement.inertLiteral binding.2)

theorem lineStart {binding : String × Value} (named : IsName binding.1) :
    ∃ c text, line binding = c :: text ∧ Text.isBlank c = false := by
  obtain ⟨c,text,whole,_⟩ := id named
  refine ⟨c,text ++ " = ".toList ++ binding.2.literal.toList,?_,
    (nameParts named c (by simp [whole])).2⟩
  unfold line
  rw [String.toList_append, String.toList_append, whole]
  rfl

theorem lineTrimmed {binding : String × Value} (named : IsName binding.1) :
    Text.trim (line binding) = line binding := by
  obtain ⟨c,text,whole,solid⟩ := lineStart named
  have ends : Statement.EndsSolid (line binding) := by
    unfold line
    rw [String.toList_append]
    exact Statement.endsAppend _ (Statement.literalEnds binding.2)
  rw [whole] at ends ⊢
  exact Text.trimNone solid ends

theorem bindLine {binding : String × Value} (named : IsName binding.1) (keyed : Keyed binding.2)
    (arguments : Arguments) (errors : List StatementError) (n : Nat) :
    bindStatement (arguments,errors) ⟨line binding,n⟩ =
      (arguments.insert binding.1 binding.2.reread,errors) := by
  have scanned := yieldsScan (yieldsLine named binding.2)
  have kept : (Token.ident binding.1 :: .symbol .assign :: binding.2.tokens).filter (· != .newline) =
      .ident binding.1 :: .symbol .assign :: binding.2.tokens := by
    refine List.filter_eq_self.mpr fun token member => ?_
    have none := tokensNoNewline binding.2
    simp only [List.mem_cons] at member
    rcases member with rfl | rfl | inside
    · rfl
    · rfl
    · have other : token ≠ .newline := by
        rintro rfl
        exact none inside
      simpa using other
  have value : evaluated arguments binding.2.tokens = .ok binding.2.reread := by
    unfold evaluated
    rw [literalParsed]
    exact evalLiteral binding.2 keyed
  obtain ⟨c,text,whole,_⟩ := lineStart named
  have filled : (line binding).isEmpty = false := by rw [whole]; rfl
  unfold bindStatement
  dsimp only
  rw [lineTrimmed named, filled]
  unfold effectOf
  rw [show line binding = (binding.1 ++ " = " ++ binding.2.literal).toList from rfl, scanned]
  dsimp only
  rw [kept]
  dsimp only
  rw [value]
  rfl

theorem bindBlank {text : List Char} (blank : Text.isBlankText text = true)
    (state : Arguments × List StatementError) (n : Nat) :
    bindStatement state ⟨text,n⟩ = state := by
  unfold bindStatement
  dsimp only
  rw [Text.trimBlank blank]
  rfl

structure Sourced (arguments : Arguments) : Prop where
  named : ∀ name value, (name,value) ∈ arguments.entries → IsName name
  distinct : (Entries.names arguments.entries).Nodup
  keyed : ∀ name value, (name,value) ∈ arguments.entries → Keyed value

def reread (arguments : Arguments) : Arguments := ⟨rereadEntries arguments.entries⟩

theorem bindLines (entries : List (String × Value)) (before : List (String × Value))
    (errors : List StatementError) (n : Nat)
    (named : ∀ name value, (name,value) ∈ entries → IsName name)
    (distinct : (Entries.names (before ++ entries)).Nodup)
    (keyed : ∀ name value, (name,value) ∈ entries → Keyed value) :
    (Statement.numbered n (entries.map line)).foldl bindStatement (⟨before⟩,errors) =
      (⟨before ++ rereadEntries entries⟩,errors) := by
  -- each line binds a name that none before it has, so its pair comes last
  induction entries generalizing before n with
  | nil => simp [Statement.numbered, rereadEntries]
  | cons binding rest ih =>
      obtain ⟨name,value⟩ := binding
      have fresh : name ∉ Entries.names before := by
        intro member
        simp only [Entries.names, List.map_append, List.map_cons] at distinct member
        exact (List.nodup_append.mp distinct).2.2 name member name (by simp) rfl
      have others := ih (before ++ [(name,value.reread)]) (n + 1)
        (fun name value member => named name value (by simp [member]))
        (by simpa [Entries.names] using distinct)
        (fun name value member => keyed name value (by simp [member]))
      rw [List.map_cons, Statement.numbered, List.foldl_cons,
        bindLine (named name value (by simp)) (keyed name value (by simp))]
      rw [insert, Entries.insertNew _ fresh, others, rereadEntries, List.append_assoc]
      rfl

theorem numberedAppend (n : Nat) (a b : List (List Char)) :
    Statement.numbered n (a ++ b) =
      Statement.numbered n a ++ Statement.numbered (n + a.length) b := by
  induction a generalizing n with
  | nil => rfl
  | cons line a ih =>
      rw [List.cons_append, Statement.numbered, ih, Statement.numbered, List.cons_append,
        List.length_cons, Nat.add_right_comm, Nat.add_assoc]

theorem bindBlanks {lead : List (List Char)} (blank : ∀ text ∈ lead, Text.isBlankText text = true)
    (state : Arguments × List StatementError) (n : Nat) :
    (Statement.numbered n lead).foldl bindStatement state = state := by
  induction lead generalizing n with
  | nil => rfl
  | cons line lead ih =>
      rw [Statement.numbered, List.foldl_cons, bindBlank (blank line (by simp))]
      exact ih (fun text member => blank text (by simp [member])) (n + 1)

theorem linesFlush {lead : List (List Char)} {entries : List (String × Value)}
    (blank : ∀ text ∈ lead, Text.isBlankText text = true)
    (named : ∀ name value, (name,value) ∈ entries → IsName name) (found : List Char)
    (first : (lead ++ entries.map line).find? (fun line => !Text.isBlankText line) = some found) :
    Text.indentation found = 0 := by
  have member := List.mem_of_find?_eq_some first
  have solid : Text.isBlankText found = false := by simpa using List.find?_some first
  rcases List.mem_append.mp member with inLead | inLines
  · rw [blank found inLead] at solid
    cases solid
  · obtain ⟨binding,inside,rfl⟩ := List.mem_map.mp inLines
    obtain ⟨c,text,whole,start⟩ := lineStart (named binding.1 binding.2 inside)
    have noIndent : Text.isIndent c = false := by
      cases indent : Text.isIndent c with
      | false => rfl
      | true =>
          simp only [Text.isIndent, Bool.or_eq_true, beq_iff_eq] at indent
          rcases indent with rfl | rfl <;> cases start
    rw [whole, Text.indentation, List.takeWhile_cons_of_neg (by simp [noIndent])]
    rfl

/- Lines of blanks may stand before the assignments, as they do inside a tag. -/
theorem parseAfter {lead : List (List Char)} {arguments : Arguments}
    (blank : ∀ text ∈ lead, Text.isBlankText text = true)
    (inert : ∀ text ∈ lead, Statement.Inert text) (sourced : Sourced arguments) :
    parseWithErrors (String.ofList (Text.unlines lead) ++ arguments.toSource) =
      (arguments.reread,[]) := by
  obtain ⟨entries⟩ := arguments
  obtain ⟨named,distinct,keyed⟩ := sourced
  dsimp only at named distinct keyed
  have each : ∀ text ∈ lead ++ entries.map line, Statement.Inert text := by
    intro text member
    rcases List.mem_append.mp member with front | back
    · exact inert text front
    · obtain ⟨binding,inside,rfl⟩ := List.mem_map.mp back
      exact lineInert (named binding.1 binding.2 inside)
  have source : (String.ofList (Text.unlines lead) ++ toSource ⟨entries⟩).toList =
      Text.unlines (lead ++ entries.map line) := by
    rw [String.toList_append, String.toList_ofList, toSourceLines, Text.unlines, Text.unlines,
      ← List.flatMap_append]
    rfl
  have bound : (Statement.numbered 1 (lead ++ entries.map line)).foldl bindStatement (empty,[]) =
      (⟨rereadEntries entries⟩,[]) := by
    rw [numberedAppend, List.foldl_append, bindBlanks blank]
    exact bindLines entries [] [] _ named distinct keyed
  unfold parseWithErrors reread
  rw [source, Statement.dedentLines each (linesFlush blank named)]
  cases whole : lead ++ entries.map line with
  | nil =>
      rw [whole] at bound
      rw [← bound]
      simp only [Statement.split, Text.joined, List.intercalate_nil]
      rw [Statement.splitFrom.eq_def]
      exact @bindBlank [] rfl (empty,[]) 1
  | cons first rest =>
      rw [whole] at each bound
      rw [← bound, Statement.split]
      exact congrArg (List.foldl _ _) (Statement.splitLines first rest 1 each)

theorem parseWritten {arguments : Arguments} (sourced : Sourced arguments) :
    parseWithErrors arguments.toSource = (arguments.reread,[]) := by
  have read := @parseAfter [] arguments (by simp) (by simp) sourced
  rwa [Text.unlines, List.flatMap_nil, String.ofList_nil, String.empty_append] at read

end DocBlocks.Arguments
