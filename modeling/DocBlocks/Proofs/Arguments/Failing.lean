import DocBlocks.Proofs.Arguments.Scanning
import DocBlocks.Proofs.Arguments.Written

/-! What a failing assignment does. Its name is known only when the whole statement can be scanned; then
the name is bound to null, in place if it was bound before. -/
namespace DocBlocks.Token
open Lexeme

theorem yieldsBlanks {blanks : List Char} (blank : ∀ c ∈ blanks, isSpace c = true) :
    Yields blanks [] := by
  induction blanks with
  | nil => exact yieldsNil
  | cons c blanks ih => exact yieldsSpace (blank c (by simp)) (ih fun d member => blank d (by simp [member]))

theorem readsAssignment {name : String} {blanks rhs : List Char} (named : IsName name)
    (blank : ∀ c ∈ blanks, isSpace c = true) (single : rhs.head? ≠ some '=') :
    reads (name.toList ++ blanks ++ '=' :: rhs) =
      (reads rhs).map ([.ident name,.symbol .assign] ++ ·) := by
  obtain ⟨c,text,whole,start,parts⟩ := named
  have first := yieldsName text start parts
  rw [← whole, String.ofList_toList] at first
  have target : Yields (name.toList ++ blanks) [.ident name] := by
    refine yieldsAppend first (yieldsBlanks blank) fun rest ends => ?_
    cases blanks with
    | nil => exact ends
    | cons d more =>
        refine endsCons ?_
        have space := blank d (by simp)
        simp only [isSpace, Bool.or_eq_true, beq_iff_eq] at space
        rcases space with (rfl | rfl) | rfl <;> decide
  have assign : next '=' rhs = ⟨.symbol .assign,0⟩ := by
    simp [next, isSpace, isNameStart, Decimal.isDigit, symbol?, single]
  have rest : reads ('=' :: rhs) = (reads rhs).map ([.symbol .assign] ++ ·) := by
    rw [readsLexeme, assign]
    rfl
  rw [readsYield target (endsCons (by decide)), rest, Option.map_map]
  rfl

end DocBlocks.Token

namespace DocBlocks.Entries

theorem insertOthers (name : String) (value : Value) (pairs : List (String × Value)) :
    (insert name value pairs).filter (·.1 != name) = pairs.filter (·.1 != name) := by
  induction pairs with
  | nil => simp [insert]
  | cons pair rest ih =>
      obtain ⟨key,old⟩ := pair
      rw [insert]
      split
      · rename_i same
        simp [same]
      · rw [List.filter_cons, List.filter_cons, ih]

end DocBlocks.Entries

namespace DocBlocks.Arguments
open Token

structure Assigns (statement : Statement) (name : String) (rhs : List Char) : Prop where
  named : IsName name
  single : rhs.head? ≠ some '='
  written : ∃ blanks, (∀ c ∈ blanks, Lexeme.isSpace c = true) ∧
    Text.trim statement.text = name.toList ++ blanks ++ '=' :: rhs

def valueOf (scope : Arguments) (rhs : List Char) : Except ExprError Value := do
  let tokens ← scanFrom 0 rhs
  evaluated scope (tokens.filter (· != .newline))

structure Nulled (before after : Arguments × List StatementError) (name : String)
    (failure : StatementError) : Prop where
  reported : after.2 = before.2 ++ [failure]
  carried : failure.name = some name
  bound : after.1.get? name = some .null
  placed : after.1.names =
    if name ∈ before.1.names then before.1.names else before.1.names ++ [name]
  others : after.1.entries.filter (·.1 != name) = before.1.entries.filter (·.1 != name)

variable {state : Arguments × List StatementError} {statement : Statement} {name : String}
  {rhs : List Char} {e : ExprError}

theorem nulledInsert (failure : StatementError) (carried : failure.name = some name) :
    Nulled state (state.1.insert name .null,state.2 ++ [failure]) name failure :=
  ⟨rfl,carried,get?_insert_self state.1 name .null,Entries.insertNames name .null state.1.entries,
    Entries.insertOthers name .null state.1.entries⟩

theorem bindFailed {target : Option String} (filled : (Text.trim statement.text).isEmpty = false)
    (failed : effectOf state.1 (Text.trim statement.text) = .failed target e) :
    bindStatement state statement = (target.elim state.1 (state.1.insert · .null),
      state.2 ++ [⟨String.ofList (Text.trim statement.text),statement.line,target,e⟩]) := by
  unfold bindStatement
  simp only [filled, failed, Bool.false_eq_true, if_false]
  cases target <;> rfl

theorem Assigns.filled (assigns : Assigns statement name rhs) :
    (Text.trim statement.text).isEmpty = false := by
  obtain ⟨blanks,_,whole⟩ := assigns.written
  rw [whole]
  cases name.toList ++ blanks <;> rfl

theorem Assigns.reads (assigns : Assigns statement name rhs) : reads (Text.trim statement.text) =
    (Token.reads rhs).map ([.ident name,.symbol .assign] ++ ·) := by
  obtain ⟨blanks,blank,whole⟩ := assigns.written
  rw [whole]
  exact readsAssignment assigns.named blank assigns.single

theorem effectFails {scope : Arguments} {text : List Char} {tokens right : List Token}
    (scanned : scanFrom 0 text = .ok tokens)
    (assigned : tokens.filter (· != .newline) = .ident name :: .symbol .assign :: right)
    (fails : evaluated scope right = .error e) : effectOf scope text = .failed (some name) e := by
  unfold effectOf
  rw [scanned]
  dsimp only
  rw [assigned]
  dsimp only
  rw [fails]

theorem failedAssigned {tokens : List Token} (assigns : Assigns statement name rhs)
    (scanned : scanFrom 0 rhs = .ok tokens) (fails : valueOf state.1 rhs = .error e) :
    effectOf state.1 (Text.trim statement.text) = .failed (some name) e := by
  have read := assigns.reads
  rw [readsIff.mpr scanned, Option.map_some, readsIff] at read
  have right : evaluated state.1 (tokens.filter (· != .newline)) = .error e := by
    rw [valueOf, scanned] at fails
    exact fails
  exact effectFails read rfl right

theorem failedScan (scope : Arguments) (assigns : Assigns statement name rhs)
    (failed : scanFrom 0 rhs = .error e) : ∃ e, effectOf scope (Text.trim statement.text) = .failed none e := by
  have read := assigns.reads
  unfold effectOf
  cases whole : scanFrom 0 (Text.trim statement.text) with
  | error e => exact ⟨e,rfl⟩
  | ok tokens =>
      rw [readsIff.mpr whole, Token.reads, failed] at read
      cases read

/- A right-hand side that scans but is no expression, or has no value, binds its name to null and is
reported under the name. One that does not scan is reported without a name, and binds nothing. -/
theorem failingBound (assigns : Assigns statement name rhs) (fails : valueOf state.1 rhs = .error e) :
    ((∃ failure, Nulled state (bindStatement state statement) name failure) ↔
        ∃ tokens, scanFrom 0 rhs = .ok tokens) ∧
      ((∃ tokens, scanFrom 0 rhs = .ok tokens) → Nulled state (bindStatement state statement) name
        ⟨String.ofList (Text.trim statement.text),statement.line,some name,e⟩) ∧
      ((∃ e, scanFrom 0 rhs = .error e) → ∃ e, bindStatement state statement =
        (state.1,state.2 ++ [⟨String.ofList (Text.trim statement.text),statement.line,none,e⟩])) := by
  have known : (∃ tokens, scanFrom 0 rhs = .ok tokens) → Nulled state (bindStatement state statement) name
      ⟨String.ofList (Text.trim statement.text),statement.line,some name,e⟩ := by
    rintro ⟨tokens,scanned⟩
    rw [bindFailed assigns.filled (failedAssigned assigns scanned fails)]
    exact nulledInsert _ rfl
  have unknown : (∃ e, scanFrom 0 rhs = .error e) → ∃ e, bindStatement state statement =
      (state.1,state.2 ++ [⟨String.ofList (Text.trim statement.text),statement.line,none,e⟩]) := by
    rintro ⟨error,failed⟩
    obtain ⟨e,effect⟩ := failedScan state.1 assigns failed
    exact ⟨e,bindFailed assigns.filled effect⟩
  refine ⟨⟨?_,fun scans => ⟨_,known scans⟩⟩,known,unknown⟩
  rintro ⟨failure,nulled⟩
  cases scanned : scanFrom 0 rhs with
  | ok tokens => exact ⟨tokens,rfl⟩
  | error error =>
      obtain ⟨e,same⟩ := unknown ⟨error,scanned⟩
      have reported := nulled.reported
      rw [same] at reported
      have only : failure = ⟨_,_,none,e⟩ := (List.singleton_inj.mp (List.append_cancel_left reported)).symm
      have carried := nulled.carried
      rw [only] at carried
      cases carried

theorem unknownNulled : Assigns ⟨"x = y".toList,2⟩ "x" " y".toList ∧
    valueOf ⟨[("x",.int 1)]⟩ " y".toList = .error (.unknownName "y") ∧
    Nulled (⟨[("x",.int 1)]⟩,[]) (bindStatement (⟨[("x",.int 1)]⟩,[]) ⟨"x = y".toList,2⟩) "x"
      ⟨"x = y",2,some "x",.unknownName "y"⟩ := by
  have assigns : Assigns ⟨"x = y".toList,2⟩ "x" " y".toList :=
    ⟨⟨'x',[],rfl,rfl,by simp⟩,by decide,[' '],by simp [Lexeme.isSpace],by cbv⟩
  have fails : valueOf ⟨[("x",.int 1)]⟩ " y".toList = .error (.unknownName "y") := by cbv
  have scans : ∃ tokens, scanFrom 0 " y".toList = .ok tokens := ⟨[.ident "y"],by cbv⟩
  have nulled := (@failingBound (⟨[("x",.int 1)]⟩,[]) ⟨"x = y".toList,2⟩ "x" " y".toList _
    assigns fails).2.1 scans
  exact ⟨assigns,fails,nulled⟩

theorem strayKept : ¬∀ (state : Arguments × List StatementError) (statement : Statement)
    (name : String) (rhs : List Char) (e : ExprError), Assigns statement name rhs →
      valueOf state.1 rhs = .error e →
        ∃ failure, Nulled state (bindStatement state statement) name failure := by
  intro always
  have fails : valueOf ⟨[("x",.int 1)]⟩ " @".toList = .error (.invalidToken 1 "@") := by cbv
  obtain ⟨failure,nulled⟩ := always (⟨[("x",.int 1)]⟩,[]) ⟨"x = @".toList,2⟩ "x" " @".toList _
    ⟨⟨'x',[],rfl,rfl,by simp⟩,by decide,[' '],by simp [Lexeme.isSpace],by cbv⟩ fails
  have kept : bindStatement (⟨[("x",.int 1)]⟩,[]) ⟨"x = @".toList,2⟩ =
      (⟨[("x",.int 1)]⟩,[⟨"x = @",2,none,.invalidToken 4 "@"⟩]) := by cbv
  have bound := nulled.bound
  rw [kept] at bound
  cases bound

end DocBlocks.Arguments
