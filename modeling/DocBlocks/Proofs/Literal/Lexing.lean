import DocBlocks.Proofs.Literal.Quoting

/-! Scanning what is written for a value. Each piece of a literal yields its tokens wherever it
stands, so long as what follows cannot make its last lexeme longer. -/
namespace DocBlocks.Token
open Lexeme

def Ends (rest : List Char) : Prop :=
  ∀ c, rest.head? = some c → isNamePart c = false ∧ c ≠ '.' ∧ c ≠ '"' ∧ c ≠ '\x27'

def Yields (text : List Char) (tokens : List Token) : Prop :=
  ∀ seen offset rest, Ends rest → scanFrom.go seen offset (text ++ rest) =
    scanFrom.go (tokens.reverse ++ seen) (offset + Text.size text) rest

theorem endsNil : Ends [] := by intro c h; cases h

theorem endsCons {c : Char} {rest : List Char}
    (other : isNamePart c = false ∧ c ≠ '.' ∧ c ≠ '"' ∧ c ≠ '\x27') : Ends (c :: rest) := by
  intro d h
  cases h
  exact other

theorem yieldsNil : Yields [] [] := by
  intro seen offset rest _
  rfl

theorem yieldsAppend {a b : List Char} {as bs : List Token} (left : Yields a as)
    (right : Yields b bs) (join : ∀ rest, Ends rest → Ends (b ++ rest)) :
    Yields (a ++ b) (as ++ bs) := by
  intro seen offset rest follow
  rw [List.append_assoc, left _ _ _ (join rest follow), right _ _ _ follow]
  simp [Nat.add_assoc]

theorem scanToken {c : Char} {rest : List Char} (seen : List Token) (offset : Nat) (token : Token)
    (read : ofLexeme offset (c :: rest.take (next c rest).more) (next c rest).kind =
      .ok (some token)) :
    scanFrom.go seen offset (c :: rest) = scanFrom.go (token :: seen)
      (offset + Text.size (c :: rest.take (next c rest).more)) (rest.drop (next c rest).more) := by
  rw [scanFrom.go]
  simp only [read]

theorem scanMember {seen tokens : List Token} {offset : Nat} {text : List Char} {token : Token}
    (scanned : scanFrom.go seen offset text = .ok tokens) (member : token ∈ tokens) :
    token ∈ seen ∨ ∃ offset c rest, c :: rest <:+ text ∧
      ofLexeme offset (c :: rest.take (next c rest).more) (next c rest).kind = .ok (some token) := by
  -- by length; a token was seen before or is read off the rest of the text
  induction length : text.length using Nat.strongRecOn generalizing seen offset text with
  | ind n ih =>
      cases text with
      | nil =>
          rw [scanFrom.go] at scanned
          cases scanned
          exact .inl (List.mem_reverse.mp member)
      | cons c rest =>
          have less : (rest.drop (next c rest).more).length < n := by
            rw [← length, List.length_drop, List.length_cons]
            omega
          have inside : rest.drop (next c rest).more <:+ c :: rest :=
            (List.drop_suffix _ rest).trans (List.suffix_cons c rest)
          rw [scanFrom.go] at scanned
          split at scanned
          · cases scanned
          · rcases ih _ less scanned rfl with old | ⟨place,d,later,suffix,read⟩
            · exact .inl old
            · exact .inr ⟨place,d,later,suffix.trans inside,read⟩
          · rename_i first read
            rcases ih _ less scanned rfl with old | ⟨place,d,later,suffix,read⟩
            · rcases List.mem_cons.mp old with rfl | old
              · exact .inr ⟨offset,c,rest,List.suffix_refl _,read⟩
              · exact .inl old
            · exact .inr ⟨place,d,later,suffix.trans inside,read⟩

theorem decodedMade {make : String → Token} {whole : List Char} {token : Token}
    (read : decoded make whole = .ok (some token)) : ∃ s, token = make s := by
  unfold decoded at read
  split at read
  · cases read
    exact ⟨_,rfl⟩
  · cases read

theorem yieldsLexeme {c : Char} {text : List Char} {token : Token} (kind : LexemeKind)
    (lexeme : ∀ rest, Ends rest → next c (text ++ rest) = ⟨kind,text.length⟩)
    (read : ∀ offset, ofLexeme offset (c :: text) kind = .ok (some token)) :
    Yields (c :: text) [token] := by
  intro seen offset rest follow
  have same := lexeme rest follow
  rw [List.cons_append, scanToken seen offset token]
  · simp [same]
  · simpa [same] using read offset

theorem yieldsSymbol {c : Char} {s : Symbol} {text : List Char} {tokens : List Token}
    (single : ∀ rest, next c rest = ⟨.symbol s,0⟩) (others : Yields text tokens) :
    Yields (c :: text) (.symbol s :: tokens) := by
  intro seen offset rest follow
  have same := single (text ++ rest)
  rw [List.cons_append, scanToken seen offset (.symbol s)]
  · rw [same, List.drop_zero, others _ _ _ follow]
    simp [Nat.add_assoc]
  · rw [same]; rfl

theorem skipOne (c : Char) (rest : List Char) (seen : List Token) (offset : Nat)
    (space : isSpace c = true) :
    scanFrom.go seen offset (c :: rest) =
      scanFrom.go seen (offset + c.utf8Size + Text.size (rest.takeWhile isSpace))
        (rest.dropWhile isSpace) := by
  have taken : rest.take (runLength isSpace rest) = rest.takeWhile isSpace :=
    (List.prefix_iff_eq_take.mp (List.takeWhile_prefix _)).symm
  have left : rest.drop (runLength isSpace rest) = rest.dropWhile isSpace := by
    have cut : (rest.takeWhile isSpace ++ rest.dropWhile isSpace).drop (rest.takeWhile isSpace).length =
        rest.dropWhile isSpace := List.drop_left
    rwa [List.takeWhile_append_dropWhile] at cut
  rw [scanFrom.go]
  simp only [next, space, if_true, ofLexeme, taken, left, Text.size_cons, Nat.add_assoc]

/- The scanner takes a run of blanks at once, but the outcome is as if it took one at a time. -/
theorem yieldsSpace {c : Char} {text : List Char} {tokens : List Token}
    (space : isSpace c = true) (others : Yields text tokens) : Yields (c :: text) tokens := by
  intro seen offset rest follow
  have oneByOne : scanFrom.go seen offset (c :: (text ++ rest)) =
      scanFrom.go seen (offset + c.utf8Size) (text ++ rest) := by
    rw [skipOne c _ seen offset space]
    cases whole : text ++ rest with
    | nil => simp
    | cons d more =>
        cases blank : isSpace d with
        | false => simp [blank]
        | true =>
            rw [skipOne d more seen _ blank]
            simp [blank, Nat.add_assoc]
  rw [List.cons_append, oneByOne, others _ _ _ follow]
  simp [Nat.add_assoc]

theorem yieldsScan {text : List Char} {tokens : List Token} (h : Yields text tokens) :
    scanFrom 0 text = .ok tokens := by
  have run := h [] 0 [] endsNil
  rw [List.append_nil] at run
  rw [scanFrom, run, scanFrom.go]
  simp

theorem runStops {p : Char → Bool} {text : List Char} (rest : List Char) (inside : ∀ c ∈ text, p c = true)
    (after : ∀ c, rest.head? = some c → p c = false) : runLength p (text ++ rest) = text.length := by
  rw [runLength, List.takeWhile_append_of_pos inside]
  cases rest with
  | nil => simp
  | cons c more => simp [after c rfl]

theorem nameStartPlain {c : Char} (h : isNameStart c = true) :
    isSpace c = false ∧ c ≠ '\n' ∧ c ≠ '#' ∧ c ≠ '\\' ∧ c ≠ '"' ∧ c ≠ '\x27' := by
  have other : ∀ d, isNameStart d = false → c ≠ d := by
    rintro d hd rfl
    simp [h] at hd
  refine ⟨?_,other _ rfl,other _ rfl,other _ rfl,other _ rfl,other _ rfl⟩
  have space := other ' ' rfl
  have tab := other '\t' rfl
  have back := other '\r' rfl
  simp [isSpace, space, tab, back]

section
open Text.Quoted (IsQuote quotedIn requoteQuoted decodeLiteral encodeDouble requote)

variable {quote mark : Char}

theorem decodedDouble (make : String → Token) (s : String) :
    decoded make (quotedIn '"' s.toList) = .ok (some (make s)) := by
  rw [quotedIn, encodeDouble]
  simp [decoded, decodeLiteral]

theorem decodedSingle (make : String → Token) (s : String) :
    decoded make (requote (quotedIn '\x27' s.toList)) = .ok (some (make s)) := by
  rw [requoteQuoted]
  simp [decoded, decodeLiteral]

theorem yieldsQuoted (isQuote : IsQuote quote) (s : String) :
    Yields (quotedIn quote s.toList) [.string s] := by
  have closed (rest : List Char) := lengthQuoted isQuote s.toList rest 0
  rcases isQuote with rfl | rfl
  · refine yieldsLexeme .doubleQuoted (fun rest _ => ?_) fun offset => decodedDouble _ s
    simp [next, isSpace, quoted, quotedLength?, closed]
  · refine yieldsLexeme .singleQuoted (fun rest _ => ?_) fun offset => decodedSingle _ s
    simp [next, isSpace, quoted, quotedLength?, closed]

theorem yieldsTemplate (isQuote : IsQuote quote) (isMark : mark = 'f' ∨ mark = 'F') (s : String) :
    Yields (mark :: quotedIn quote s.toList) [.template s] := by
  have closed (rest : List Char) := lengthQuoted isQuote s.toList rest 0
  have start : isNameStart mark = true ∧ (mark == 'f' || mark == 'F') = true := by
    rcases isMark with rfl | rfl <;> decide
  have plain := nameStartPlain start.1
  rcases isQuote with rfl | rfl
  · refine yieldsLexeme .doubleQuotedTemplate (fun rest _ => ?_) fun offset => decodedDouble _ s
    simp [next, plain, start, nameOrTemplate, quotedIn, quotedLength?, closed]
  · refine yieldsLexeme .singleQuotedTemplate (fun rest _ => ?_) fun offset => decodedSingle _ s
    simp [next, plain, start, nameOrTemplate, quotedIn, quotedLength?, closed]

end

theorem yieldsString (s : String) : Yields (Text.Quoted.literal s).toList [.string s] := by
  have same : (Text.Quoted.literal s).toList = Text.Quoted.quotedIn '"' s.toList := by
    rw [Text.Quoted.literal, String.toList_ofList, Text.Quoted.quotedIn, Text.Quoted.encodeDouble]
  rw [same]
  exact yieldsQuoted (.inl rfl) s

theorem nameAlone {c : Char} {text rest : List Char} (parts : ∀ x ∈ text, isNamePart x = true)
    (follow : Ends rest) : nameOrTemplate c (text ++ rest) = ⟨.ident,text.length⟩ := by
  have noQuote : ∀ q more, text ++ rest = q :: more → q ≠ '"' ∧ q ≠ '\x27' := by
    intro q more same
    cases text with
    | nil => exact (follow q (by simp_all)).2.2
    | cons d others =>
        obtain ⟨rfl,_⟩ := List.cons.inj same
        have part := parts d (by simp)
        constructor <;> rintro rfl <;> exact absurd part (by decide)
  have stop := runStops rest parts fun d hd => (follow d hd).1
  unfold nameOrTemplate
  rw [stop]
  dsimp only
  split
  · split
    · rename_i more same; exact absurd rfl (noQuote _ more same).1
    · rename_i more same; exact absurd rfl (noQuote _ more same).2
    · rfl
  · rfl

theorem yieldsName {c : Char} (text : List Char) (start : isNameStart c = true)
    (parts : ∀ x ∈ text, isNamePart x = true) :
    Yields (c :: text) [.ident (String.ofList (c :: text))] := by
  refine yieldsLexeme .ident ?_ (fun _ => rfl)
  intro rest follow
  have plain := nameStartPlain start
  simp [next, plain, start, nameAlone parts follow]

theorem digitPlain {c : Char} (h : Decimal.isDigit c = true) :
    isNameStart c = false ∧ isSpace c = false ∧ isNamePart c = true ∧
      c ≠ '\n' ∧ c ≠ '#' ∧ c ≠ '\\' ∧ c ≠ '"' ∧ c ≠ '\x27' := by
  have range : 48 ≤ c.toNat ∧ c.toNat ≤ 57 := by
    simpa [Decimal.isDigit, Char.le_def, UInt32.le_iff_toNat_le] using h
  have all : ∀ n < 58, 48 ≤ n → let d := Char.ofNat n
      isNameStart d = false ∧ isSpace d = false ∧ isNamePart d = true ∧
      d ≠ '\n' ∧ d ≠ '#' ∧ d ≠ '\\' ∧ d ≠ '"' ∧ d ≠ '\x27' := by decide
  have this := all c.toNat (by omega) range.1
  rwa [Char.ofNat_toNat] at this

theorem noExponent {rest : List Char} (follow : Ends rest) : exponentLength rest = 0 := by
  cases rest with
  | nil => rfl
  | cons c more =>
      have name := (follow c rfl).1
      have lower : c ≠ 'e' := by rintro rfl; exact absurd name (by decide)
      have upper : c ≠ 'E' := by rintro rfl; exact absurd name (by decide)
      simp [exponentLength, lower, upper]

theorem digitsStop {digits rest : List Char} (all : ∀ c ∈ digits, Decimal.isDigit c = true)
    (follow : Ends rest) : runLength Decimal.isDigit (digits ++ rest) = digits.length := by
  refine runStops rest all fun c hc => ?_
  cases digit : Decimal.isDigit c with
  | false => rfl
  | true => exact absurd (follow c hc).1 (by simp [(digitPlain digit).2.2.1])

theorem numberAlone {digits rest : List Char} (all : ∀ c ∈ digits, Decimal.isDigit c = true)
    (follow : Ends rest) : number (digits ++ rest) = ⟨.int,digits.length⟩ := by
  unfold number
  rw [digitsStop all follow]
  dsimp only
  rw [List.drop_left]
  split
  · exact absurd rfl (follow '.' rfl).2.1
  · rw [noExponent follow]
    rfl

theorem yieldsNumber (n : Nat) (small : n < 0x8000000000000000) :
    Yields (Nat.toDigits 10 n) [.int (Int64.ofNat n)] := by
  have digits := Decimal.digitsWritten n
  have value := Decimal.natOfDigits n
  cases whole : Nat.toDigits 10 n with
  | nil => exact absurd whole Nat.toDigits_ne_nil
  | cons c text =>
      rw [whole] at digits value
      refine yieldsLexeme .int ?_ ?_
      · intro rest follow
        have first := digitPlain (digits c (by simp))
        have others : ∀ x ∈ text, Decimal.isDigit x = true := fun x hx => digits x (by simp [hx])
        simp [next, first, digits c, numberAlone others follow]
      · intro offset
        unfold ofLexeme ofDigits
        rw [value, if_pos small]

end DocBlocks.Token
