import DocBlocks.Proofs.Arguments.Scanning
import DocBlocks.Proofs.Arguments.Written

/-! What a lexeme is made of, and which changes to the text after it leave it as it is. A text cut at a
separator, with its escaped line breaks written as blanks, begins with the same lexemes. -/
namespace DocBlocks

inductive Fronts : List Char → List Char → Prop where
  | done : Fronts [] []
  | cut {c : Char} {rest : List Char} (separator : c = '\n' ∨ c = ';') : Fronts (c :: rest) []
  | blank {rest front : List Char} (more : Fronts rest front) : Fronts ('\\' :: '\n' :: rest) (' ' :: front)
  | same {rest front : List Char} (c : Char) (more : Fronts rest front) : Fronts (c :: rest) (c :: front)

def LexemeKind.Word (kind : LexemeKind) : Prop :=
  kind ≠ .skipped ∧ kind ≠ .newline ∧ kind ≠ .invalid ∧ ∀ s, kind ≠ .symbol s

namespace Lexeme

variable {text rest front : List Char} {c quote : Char}

theorem frontsAppend (text : List Char) (fronts : Fronts rest front) :
    Fronts (text ++ rest) (text ++ front) := by
  induction text with
  | nil => exact fronts
  | cons c text ih => exact .same c ih

def Kept (c : Char) : Prop := c ≠ '\n' ∧ c ≠ ';' ∧ c ≠ '\\' ∧ c ≠ ' '

instance (c : Char) : Decidable (Kept c) := inferInstanceAs (Decidable (_ ∧ _))

theorem frontsHead (kept : Kept c) (fronts : Fronts text front) :
    front.head? = some c ↔ text.head? = some c := by
  obtain ⟨feed,semicolon,slash,space⟩ := kept
  cases fronts with
  | done => exact Iff.rfl
  | cut separator => rcases separator with rfl | rfl <;> simp [Ne.symm feed, Ne.symm semicolon]
  | blank more => simp [Ne.symm slash, Ne.symm space]
  | same d more => exact Iff.rfl

theorem frontsTail (kept : Kept c) (fronts : Fronts (c :: rest) front) :
    ∃ more, front = c :: more ∧ Fronts rest more := by
  obtain ⟨feed,semicolon,slash,_⟩ := kept
  cases fronts with
  | cut separator => rcases separator with rfl | rfl <;> contradiction
  | blank more => contradiction
  | same _ more => exact ⟨_,rfl,more⟩

theorem frontsRun {p : Char → Bool} (kept : ∀ c, p c = true → Kept c) (fronts : Fronts text front) :
    runLength p front = runLength p text ∧
      Fronts (text.drop (runLength p text)) (front.drop (runLength p text)) := by
  have other (c : Char) (changed : ¬ Kept c) : p c = false := by
    cases found : p c with
    | false => rfl
    | true => exact absurd (kept c found) changed
  -- a run ends before every character that is written differently, in both texts
  induction fronts with
  | done => exact ⟨rfl,.done⟩
  | @cut c rest separator =>
      have stops : p c = false := other c (by rcases separator with rfl | rfl <;> decide)
      simp only [runLength, List.takeWhile_cons, stops, Bool.false_eq_true, if_false]
      exact ⟨rfl,.cut separator⟩
  | @blank rest front more ih =>
      simp only [runLength, List.takeWhile_cons, other '\\' (by decide), other ' ' (by decide),
        Bool.false_eq_true, if_false]
      exact ⟨trivial,.blank more⟩
  | @same rest front c more ih =>
      cases found : p c with
      | false =>
          simp only [runLength, List.takeWhile_cons, found, Bool.false_eq_true, if_false]
          exact ⟨trivial,.same c more⟩
      | true =>
          simp only [runLength, List.takeWhile_cons, found, if_true, List.length_cons,
            List.drop_succ_cons]
          exact ⟨congrArg (· + 1) ih.1,ih.2⟩

theorem nameKept : ∀ c, isNamePart c = true → Kept c := by
  rintro c part
  refine ⟨?_,?_,?_,?_⟩ <;> rintro rfl <;> exact absurd part (by decide)

theorem digitKept : ∀ c, Decimal.isDigit c = true → Kept c := by
  rintro c digit
  refine ⟨?_,?_,?_,?_⟩ <;> rintro rfl <;> exact absurd digit (by decide)

theorem frontsExponent (fronts : Fronts text front) : exponentLength front = exponentLength text := by
  have digits {text front : List Char} (fronts : Fronts text front) :
      runLength Decimal.isDigit front = runLength Decimal.isDigit text := (frontsRun digitKept fronts).1
  cases fronts with
  | done => rfl
  | cut separator => rcases separator with rfl | rfl <;> rfl
  | blank more => rfl
  | same c more =>
      cases more with
      | done => rfl
      | cut separator =>
          rcases separator with rfl | rfl <;> simp [exponentLength, runLength, Decimal.isDigit]
      | blank more => simp [exponentLength, runLength, Decimal.isDigit]
      | @same rest front d more =>
          have ahead := digits (Fronts.same d more)
          have behind := digits more
          unfold exponentLength
          by_cases plus : d = '+'
          · subst plus; simp only [behind]
          · by_cases minus : d = '-'
            · subst minus; simp only [behind]
            · simp [plus, minus, ahead]

theorem numberPointed (point : text.drop (runLength Decimal.isDigit text) = '.' :: rest) :
    number text = ⟨.float,runLength Decimal.isDigit text + 1 + runLength Decimal.isDigit rest +
      exponentLength (rest.drop (runLength Decimal.isDigit rest))⟩ := by
  unfold number
  dsimp only
  rw [point]
  rfl

def scaledKind (exponent : Nat) : LexemeKind := if exponent = 0 then .int else .float

theorem numberScaled (other : (text.drop (runLength Decimal.isDigit text)).head? ≠ some '.') :
    number text = ⟨scaledKind (exponentLength (text.drop (runLength Decimal.isDigit text))),
      runLength Decimal.isDigit text +
        exponentLength (text.drop (runLength Decimal.isDigit text))⟩ := by
  unfold number
  dsimp only
  split
  · rename_i point
    rw [point] at other
    exact absurd rfl other
  · split
    · rename_i none
      rw [none]
      rfl
    · rename_i some
      rw [scaledKind, if_neg some]

theorem frontsNumber (fronts : Fronts text front) : number front = number text := by
  obtain ⟨whole,after⟩ := frontsRun digitKept fronts
  have head := frontsHead (c := '.') (by decide) after
  by_cases point : (text.drop (runLength Decimal.isDigit text)).head? = some '.'
  · obtain ⟨rest,found⟩ := List.head?_eq_some_iff.mp point
    rw [found] at after
    obtain ⟨front',found',more⟩ := frontsTail (by decide) after
    obtain ⟨digits,last⟩ := frontsRun digitKept more
    rw [← whole] at found'
    rw [numberPointed found, numberPointed found', whole, digits, frontsExponent last]
  · have point' := mt head.mp point
    rw [← whole] at point'
    rw [numberScaled point, numberScaled point', whole, frontsExponent after]

theorem frontsSymbol (fronts : Fronts text front) : symbol? c front = symbol? c text := by
  have equals : front.head? = some '=' ↔ text.head? = some '=' := frontsHead (by decide) fronts
  have star : front.head? = some '*' ↔ text.head? = some '*' := frontsHead (by decide) fronts
  have slash : front.head? = some '/' ↔ text.head? = some '/' := frontsHead (by decide) fronts
  unfold symbol?
  simp only [equals, star, slash]

structure Spans (n : Nat) (text : List Char) : Prop where
  fits : n ≤ text.length
  ordinary : (text.take n).all Statement.isOrdinary = true

theorem spansText {n : Nat} (spans : Spans n text) : ∃ front rest, text = front ++ rest ∧
    n = front.length ∧ front.all Statement.isOrdinary = true := by
  refine ⟨text.take n,text.drop n,(List.take_append_drop n text).symm,?_,spans.ordinary⟩
  rw [List.length_take, Nat.min_eq_left spans.fits]

theorem spansRun {p : Char → Bool} (text : List Char)
    (ordinary : ∀ c, p c = true → Statement.isOrdinary c = true) : Spans (runLength p text) text := by
  refine ⟨(List.takeWhile_prefix p).length_le,?_⟩
  have taken : text.take (runLength p text) = text.takeWhile p :=
    (List.prefix_iff_eq_take.mp (List.takeWhile_prefix _)).symm
  rw [taken, List.all_eq_true]
  exact fun c member => ordinary c (List.all_eq_true.mp List.all_takeWhile c member)

theorem spansAppend {m n : Nat} (first : Spans m text) (second : Spans n (text.drop m)) :
    Spans (m + n) text := by
  have left := first.fits
  have right := second.fits
  rw [List.length_drop] at right
  refine ⟨by omega,?_⟩
  rw [List.take_add, List.all_append, first.ordinary, second.ordinary]
  rfl

theorem spansCons {n : Nat} (ordinary : Statement.isOrdinary c = true) (more : Spans n text) :
    Spans (n + 1) (c :: text) := by
  refine ⟨Nat.succ_le_succ more.fits,?_⟩
  rw [List.take_succ_cons, List.all_cons, ordinary, more.ordinary]
  rfl

theorem spansDigits (text : List Char) : Spans (runLength Decimal.isDigit text) text :=
  spansRun text fun _ digit => (Statement.digitCompact digit).1

theorem spansExponent (text : List Char) : Spans (exponentLength text) text := by
  have none : Spans 0 text := ⟨Nat.zero_le _,by simp⟩
  unfold exponentLength
  split
  · exact none
  rename_i mark rest
  split
  · rename_i marked
    have ordinary : Statement.isOrdinary mark = true := by
      simp only [Bool.or_eq_true, beq_iff_eq] at marked
      rcases marked with rfl | rfl <;> decide
    have signed (sign : Char) (plain : Statement.isOrdinary sign = true) (digits : List Char) {n : Nat}
        (length : runLength Decimal.isDigit digits = n + 1) :
        Spans (n + 2 + 1) (mark :: sign :: digits) :=
      spansCons ordinary (spansCons plain (length ▸ spansDigits digits))
    dsimp only
    split
    · exact none
    · rename_i n length
      split at length
      · exact signed '+' (by decide) _ length
      · exact signed '-' (by decide) _ length
      · change runLength Decimal.isDigit rest = n + 1 at length
        exact spansCons ordinary (length ▸ spansDigits rest)
  · exact none

theorem spansNumber (text : List Char) : Spans (number text).more text := by
  have whole := spansDigits text
  by_cases point : (text.drop (runLength Decimal.isDigit text)).head? = some '.'
  · obtain ⟨rest,found⟩ := List.head?_eq_some_iff.mp point
    have fraction := spansAppend (spansDigits rest) (spansExponent _)
    rw [numberPointed found, Nat.add_assoc, Nat.add_assoc, Nat.add_comm 1]
    refine spansAppend whole ?_
    rw [found]
    exact spansCons (by decide) fraction
  · rw [numberScaled point]
    exact spansAppend whole (spansExponent _)

theorem spansName (text : List Char) : Spans (runLength isNamePart text) text :=
  spansRun text fun _ part => (Arguments.nameCompact part).1

inductive Closed (quote : Char) : List Char → Prop where
  | close : Closed quote [quote]
  | escape {c : Char} {text : List Char} (sameLine : c ≠ '\n') (more : Closed quote text) :
      Closed quote ('\\' :: c :: text)
  | plain {c : Char} {text : List Char} (other : c ≠ quote ∧ c ≠ '\n' ∧ c ≠ '\\')
      (more : Closed quote text) : Closed quote (c :: text)

theorem quotedStep (n : Nat) (single : ∀ d more, c = '\\' → rest = d :: more → False) :
    quotedLength?.go quote n (c :: rest) =
      if c == quote then some (n + 1)
      else if c == '\n' || c == '\\' then none
      else quotedLength?.go quote (n + 1) rest := by
  rw [quotedLength?.go.eq_def]
  split
  · contradiction
  · rename_i same
    cases same
    exact absurd rfl (single _ _ rfl)
  · rename_i same
    cases same
    rfl

theorem quotedClosed {n : Nat} (length : quotedLength? quote text = some n) :
    ∃ inside rest, text = inside ++ rest ∧ n = inside.length ∧ Closed quote inside := by
  have from' : ∀ k, quotedLength?.go quote k text = some n →
      ∃ inside rest, text = inside ++ rest ∧ n = k + inside.length ∧ Closed quote inside := by
    clear length
    intro k length
    induction k, text using quotedLength?.go.induct quote with
    | case1 k => cases length
    | case2 k c rest feed => simp [quotedLength?.go, feed] at length
    | case3 k c rest other ih =>
        rw [quotedLength?.go, if_neg other] at length
        obtain ⟨inside,later,rfl,size,closed⟩ := ih length
        refine ⟨'\\' :: c :: inside,later,rfl,?_,.escape (by simpa using other) closed⟩
        rw [size, List.length_cons, List.length_cons]
        omega
    | case4 k c rest single close =>
        rw [quotedStep k single, if_pos close] at length
        cases length
        obtain rfl := beq_iff_eq.mp close
        exact ⟨[c],rest,rfl,rfl,.close⟩
    | case5 k c rest single other ends =>
        rw [quotedStep k single, if_neg other, if_pos ends] at length
        cases length
    | case6 k c rest single other inside ih =>
        rw [quotedStep k single, if_neg other, if_neg inside] at length
        obtain ⟨inside,later,rfl,size,closed⟩ := ih length
        refine ⟨c :: inside,later,rfl,?_,.plain (by simp_all) closed⟩
        rw [size, List.length_cons]
        omega
  simpa using from' 0 length

theorem closedLength (mark : quote ≠ '\\') (closed : Closed quote text) (rest : List Char) :
    quotedLength? quote (text ++ rest) = some text.length := by
  have from' : ∀ k, quotedLength?.go quote k (text ++ rest) = some (k + text.length) := by
    induction closed with
    | close =>
        intro k
        have single : ∀ d more, quote = '\\' → rest = d :: more → False := fun _ _ same => absurd same mark
        rw [List.singleton_append, quotedStep k single, if_pos (beq_self_eq_true quote)]
        rfl
    | @escape c text sameLine more ih =>
        intro k
        rw [List.cons_append, List.cons_append, quotedLength?.go, if_neg (by simpa using sameLine), ih]
        simp [Nat.add_assoc, Nat.add_comm 2]
    | @plain c text other more ih =>
        intro k
        have single : ∀ d more, c = '\\' → text ++ rest = d :: more → False :=
          fun _ _ same => absurd same other.2.2
        rw [List.cons_append, quotedStep k single, if_neg (by simpa using other.1),
          if_neg (by simpa using other.2), ih]
        simp [Nat.add_assoc, Nat.add_comm 1]
  simpa [quotedLength?] using from' 0

def IsQuote (c : Char) : Prop := c = '"' ∨ c = '\x27'

theorem nextQuoted (mark : IsQuote quote) : ∃ kind : LexemeKind, kind.Word ∧
    ∀ rest, next quote rest = quoted kind quote rest := by
  rcases mark with rfl | rfl
  · exact ⟨.doubleQuoted,by simp [LexemeKind.Word],fun rest => rfl⟩
  · exact ⟨.singleQuoted,by simp [LexemeKind.Word],fun rest => rfl⟩

theorem nextName (start : isNameStart c = true) (rest : List Char) :
    next c rest = nameOrTemplate c rest := by
  have plain := Token.nameStartPlain start
  simp [next, plain, start]

theorem nextNumber (digit : Decimal.isDigit c = true) (rest : List Char) :
    next c rest = number rest := by
  have plain := Token.digitPlain digit
  simp [next, plain, digit]

def IsMark (c : Char) : Prop := c = 'f' ∨ c = 'F'

theorem nameTemplate (mark : IsMark c) (quotes : IsQuote quote) : ∃ kind : LexemeKind, kind.Word ∧
    ∀ rest, nameOrTemplate c (quote :: rest) =
      (quotedLength? quote rest).elim ⟨.ident,0⟩ fun n => ⟨kind,n + 1⟩ := by
  have marked : (c == 'f' || c == 'F') = true := by simpa [IsMark] using mark
  rcases quotes with rfl | rfl
  · refine ⟨.doubleQuotedTemplate,by simp [LexemeKind.Word],fun rest => ?_⟩
    rw [nameOrTemplate, if_pos marked]
    dsimp only
    cases quotedLength? '"' rest <;> rfl
  · refine ⟨.singleQuotedTemplate,by simp [LexemeKind.Word],fun rest => ?_⟩
    rw [nameOrTemplate, if_pos marked]
    dsimp only
    cases quotedLength? '\x27' rest <;> rfl

theorem namePlain (other : IsMark c → ∀ quote, IsQuote quote → text.head? ≠ some quote) :
    nameOrTemplate c text = ⟨.ident,runLength isNamePart text⟩ := by
  unfold nameOrTemplate
  dsimp only
  split
  · rename_i mark
    have marked : IsMark c := by simpa [IsMark] using mark
    split
    · exact absurd rfl (other marked '"' (.inl rfl))
    · exact absurd rfl (other marked '\x27' (.inr rfl))
    · rfl
  · rfl

end Lexeme

end DocBlocks
