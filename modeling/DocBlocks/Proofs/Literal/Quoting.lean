import DocBlocks.Expr.Lexeme
import DocBlocks.Proofs.Literal.Digits

/-! Quoted literals. What is written for a text between double quotes is one literal on one line, and its
escapes read back as the text; between single quotes it is a literal too, and is read by way of the other. -/
namespace DocBlocks.Text.Quoted

def IsPlain (c : Char) : Prop := c ≠ '"' ∧ c ≠ '\\' ∧ c ≠ '\n' ∧ c ≠ '\r'

/- Every character is written as itself or as an escape: a backslash, the character that the
backslash takes with it, and plain characters. The scanners look at nothing else. -/
inductive Written (c : Char) : List Char → Prop where
  | plain (self : IsPlain c) : Written c [c]
  | escape (e : Char) (more : List Char) (sameLine : e ≠ '\n' ∧ e ≠ '\r')
      (rest : ∀ x ∈ more, IsPlain x) : Written c ('\\' :: e :: more)

theorem hexIsPlain {n : Nat} {c : Char} (h : c ∈ hex n) : IsPlain c := by
  have digits : ∀ d < 16, IsPlain (Nat.digitChar d) := by unfold IsPlain; decide
  obtain ⟨d, small, rfl⟩ := hexDigitOf h
  exact digits d small

theorem codePointEscapeWritten (c : Char) : Written c (codePointEscape c) := by
  refine .escape 'u' ('{' :: (hex c.toNat ++ ['}'])) (by decide) ?_
  intro x hx
  simp only [List.mem_cons, List.mem_append, List.not_mem_nil, or_false] at hx
  rcases hx with rfl | digit | rfl
  · unfold IsPlain; decide
  · exact hexIsPlain digit
  · unfold IsPlain; decide

theorem encodeCharWritten (c : Char) : Written c (encodeChar c) := by
  unfold encodeChar
  split
  · rename_i special
    have line : c ≠ '\n' ∧ c ≠ '\r' := by
      simp only [Bool.or_eq_true, beq_iff_eq] at special
      rcases special with rfl | rfl <;> decide
    exact .escape c [] line (by simp)
  split
  · exact .escape 'n' [] (by decide) (by simp)
  split
  · exact .escape 'r' [] (by decide) (by simp)
  split
  · exact .escape 't' [] (by decide) (by simp)
  split
  · exact codePointEscapeWritten c
  · rename_i notQuote notFeed notReturn _ _
    simp only [Bool.or_eq_true, beq_iff_eq, not_or] at notQuote notFeed notReturn
    exact .plain ⟨notQuote.1, notQuote.2, notFeed, notReturn⟩

theorem writtenOnOneLine {c : Char} {text : List Char} (h : Written c text) :
    ∀ x ∈ text, x ≠ '\n' ∧ x ≠ '\r' := by
  intro x hx
  cases h with
  | plain self =>
      obtain rfl := List.mem_singleton.mp hx
      exact self.2.2
  | escape e more sameLine rest =>
      simp only [List.mem_cons] at hx
      rcases hx with rfl | rfl | member
      · decide
      · exact sameLine
      · exact (rest x member).2.2

theorem encodeOnOneLine (s : List Char) : ∀ x ∈ encode s, x ≠ '\n' ∧ x ≠ '\r' := by
  intro x hx
  obtain ⟨c, _, member⟩ := List.mem_flatMap.mp hx
  exact writtenOnOneLine (encodeCharWritten c) x member

theorem decodePlain {c : Char} (self : IsPlain c) (seen rest : List Char) (index : Nat) :
    decodeFrom.go seen index (c :: rest) = decodeFrom.go (c :: seen) (index + 1) rest := by
  rw [decodeFrom.go.eq_def]
  simp [self.1, self.2.1]

theorem decodeSimple {e value : Char} (meaning : simpleEscape? e = some value)
    (seen rest : List Char) (index : Nat) :
    decodeFrom.go seen index ('\\' :: e :: rest) =
      decodeFrom.go (value :: seen) (index + 2) rest := by
  have notCodePoint : e ≠ 'u' := by
    intro same
    rw [same, show simpleEscape? 'u' = none by decide] at meaning
    cases meaning
  rw [decodeFrom.go]
  · simp [meaning]
  · intro _ same
    exact absurd same notCodePoint
  · exact notCodePoint

theorem decodeCodePoint (c : Char) (seen rest : List Char) (index : Nat) :
    ∃ next, decodeFrom.go seen index (codePointEscape c ++ rest) =
      decodeFrom.go (c :: seen) next rest := by
  have inside : ∀ x ∈ hex c.toNat, (x != '}') = true := by
    intro x hx
    simpa using (hexPlain hx).2.1
  have cut : (hex c.toNat ++ '}' :: rest).takeWhile (· != '}') = hex c.toNat := by
    rw [List.takeWhile_append_of_pos inside]
    simp
  have left : (hex c.toNat ++ '}' :: rest).dropWhile (· != '}') = '}' :: rest := by
    rw [List.dropWhile_append_of_pos inside]
    simp
  refine ⟨index + 4 + (hex c.toNat).length, ?_⟩
  simp only [codePointEscape, List.cons_append, List.nil_append, List.append_assoc]
  rw [decodeFrom.go]
  simp [cut, left, codePointWritten]

theorem decodeEncodedChar (c : Char) (seen rest : List Char) (index : Nat) :
    ∃ next, decodeFrom.go seen index (encodeChar c ++ rest) =
      decodeFrom.go (c :: seen) next rest := by
  unfold encodeChar
  split
  · rename_i special
    have meaning : simpleEscape? c = some c := by
      simp only [Bool.or_eq_true, beq_iff_eq] at special
      rcases special with rfl | rfl <;> decide
    exact ⟨_, decodeSimple meaning seen rest index⟩
  split
  · rename_i same
    obtain rfl : c = '\n' := by simpa using same
    exact ⟨_, decodeSimple (by decide) seen rest index⟩
  split
  · rename_i same
    obtain rfl : c = '\r' := by simpa using same
    exact ⟨_, decodeSimple (by decide) seen rest index⟩
  split
  · rename_i same
    obtain rfl : c = '\t' := by simpa using same
    exact ⟨_, decodeSimple (by decide) seen rest index⟩
  split
  · exact decodeCodePoint c seen rest index
  · rename_i notQuote notFeed notReturn _ _
    simp only [Bool.or_eq_true, beq_iff_eq, not_or] at notQuote notFeed notReturn
    exact ⟨_, decodePlain ⟨notQuote.1, notQuote.2, notFeed, notReturn⟩ seen rest index⟩

theorem decodeEncoded (s seen rest : List Char) (index : Nat) :
    decodeFrom.go seen index (encode s ++ '"' :: rest) = .ok (seen.reverse ++ s) := by
  induction s generalizing seen index with
  | nil =>
      rw [encode, List.flatMap_nil, List.nil_append, decodeFrom.go.eq_def]
      simp
  | cons c s ih =>
      obtain ⟨next, step⟩ := decodeEncodedChar c seen (encode s ++ '"' :: rest) index
      rw [encode, List.flatMap_cons, List.append_assoc]
      rw [encode] at step ih
      rw [step, ih]
      simp

theorem decodeLiteral (s : List Char) : decode ('"' :: (encode s ++ ['"'])) = .ok s := by
  unfold decode decodeFrom
  simp [decodeEncoded]

/-! ### Either kind of quotes -/

def IsQuote (c : Char) : Prop := c = '"' ∨ c = '\x27'

def charIn (quote c : Char) : List Char :=
  if c = quote then ['\\',c] else if c = '"' then [c] else encodeChar c

def encodeIn (quote : Char) (s : List Char) : List Char := s.flatMap (charIn quote)

def quotedIn (quote : Char) (s : List Char) : List Char := quote :: (encodeIn quote s ++ [quote])

variable {quote c : Char}

theorem charDouble (c : Char) : charIn '"' c = encodeChar c := by
  unfold charIn
  split
  · rename_i same
    rw [same]
    rfl
  · rfl

theorem encodeDouble (s : List Char) : encodeIn '"' s = encode s :=
  congrArg s.flatMap (funext charDouble)

theorem quoteEncoded (other : c ≠ '\x27') : '\x27' ∉ encodeChar c := by
  have digits : ∀ d < 16, Nat.digitChar d ≠ '\x27' := by decide
  have noDigit : '\x27' ∉ hex c.toNat := by
    intro inside
    obtain ⟨d,small,same⟩ := hexDigitOf inside
    exact digits d small same.symm
  unfold encodeChar
  repeat' split
  all_goals simp [codePointEscape, noDigit, other.symm]

def IsInner (quote c : Char) : Prop := c ≠ quote ∧ c ≠ '\\' ∧ c ≠ '\n'

theorem charWritten (isQuote : IsQuote quote) (c : Char) :
    (charIn quote c = [c] ∧ IsInner quote c) ∨ ∃ e more, charIn quote c = '\\' :: e :: more ∧
      e ≠ '\n' ∧ ∀ x ∈ more, IsInner quote x := by
  by_cases own : c = quote
  · refine .inr ⟨c,[],if_pos own,?_,nofun⟩
    rw [own]
    rcases isQuote with rfl | rfl <;> decide
  have inside (x : Char) (member : x ∈ encodeChar c) (plain : IsPlain x) : IsInner quote x := by
    refine ⟨fun same => ?_,plain.2.1,plain.2.2.1⟩
    rcases isQuote with rfl | rfl
    · exact plain.1 same
    · subst same
      exact quoteEncoded own member
  unfold charIn
  rw [if_neg own]
  split
  · rename_i double
    exact .inl ⟨rfl,own,by rw [double]; decide,by rw [double]; decide⟩
  · have written := encodeCharWritten c
    generalize encodeChar c = text at written inside
    cases written with
    | plain self => exact .inl ⟨rfl,inside c List.mem_cons_self self⟩
    | escape e more sameLine rest =>
        exact .inr ⟨e,more,rfl,sameLine.1,fun x member =>
          inside x (List.mem_cons_of_mem _ (List.mem_cons_of_mem _ member)) (rest x member)⟩

theorem requotePlain (plain : c ≠ '\\') (other : c ≠ '"') (rest : List Char) :
    requoteInner (c :: rest) = c :: requoteInner rest := by
  rw [requoteInner]
  · exact if_neg (by simpa using other)
  · intro _ same
    exact absurd same plain
  · intro _ _ same
    exact absurd same plain
  · intro same
    exact absurd same plain

theorem requoteChar (c : Char) (rest : List Char) :
    requoteInner (charIn '\x27' c ++ rest) = encodeChar c ++ requoteInner rest := by
  unfold charIn
  split
  · rename_i same
    subst same
    rfl
  rename_i notSingle
  split
  · rename_i same
    subst same
    rfl
  have written := encodeCharWritten c
  have single := quoteEncoded notSingle
  generalize encodeChar c = text at written single
  -- a character that needs an escape has one that means the same between both kinds of quotes
  cases written with
  | plain self => exact requotePlain self.2.1 self.1 rest
  | escape e more sameLine plain =>
      have other : e ≠ '\x27' := fun same => single (same ▸ by simp)
      have later : requoteInner (more ++ rest) = more ++ requoteInner rest := by
        clear single
        induction more with
        | nil => rfl
        | cons x more ih =>
            have self := plain x List.mem_cons_self
            rw [List.cons_append, requotePlain self.2.1 self.1,
              ih fun y member => plain y (List.mem_cons_of_mem _ member)]
            rfl
      simp only [List.cons_append]
      rw [requoteInner, later]
      intro same
      exact absurd same other

theorem requoteQuoted (s : List Char) :
    requote (quotedIn '\x27' s) = '"' :: (encode s ++ ['"']) := by
  have inner : requoteInner (encodeIn '\x27' s) = encode s := by
    induction s with
    | nil => rfl
    | cons c s ih => exact (requoteChar c _).trans (congrArg _ ih)
  rw [requote, quotedIn, List.drop_one, List.tail_cons, List.dropLast_concat, inner]

end DocBlocks.Text.Quoted

namespace DocBlocks.Lexeme
open Text.Quoted

variable {quote : Char}

theorem lengthInner {text : List Char} (inner : ∀ x ∈ text, IsInner quote x) (n : Nat) (rest : List Char) :
    quotedLength?.go quote n (text ++ rest) = quotedLength?.go quote (n + text.length) rest := by
  induction text generalizing n with
  | nil => rfl
  | cons c text ih =>
      obtain ⟨self,others⟩ := List.forall_mem_cons.mp inner
      rw [List.cons_append, quotedLength?.go]
      · simp [self.1, self.2.1, self.2.2, ih others, Nat.add_assoc, Nat.add_comm 1]
      · intro c' rest' same
        exact absurd same self.2.1

theorem lengthQuoted (isQuote : IsQuote quote) (s rest : List Char) (n : Nat) :
    quotedLength?.go quote n (encodeIn quote s ++ quote :: rest) =
      some (n + (encodeIn quote s).length + 1) := by
  induction s generalizing n with
  | nil =>
      rcases isQuote with rfl | rfl <;> simp [encodeIn, quotedLength?.go]
  | cons c s ih =>
      have step (n : Nat) (rest : List Char) : quotedLength?.go quote n (charIn quote c ++ rest) =
          quotedLength?.go quote (n + (charIn quote c).length) rest := by
        rcases charWritten isQuote c with ⟨same,self⟩ | ⟨e,more,same,sameLine,inner⟩
        · rw [same]
          exact lengthInner (List.forall_mem_singleton.mpr self) n rest
        · rw [same, List.cons_append, List.cons_append, quotedLength?.go]
          simp [sameLine, lengthInner inner, Nat.add_assoc, Nat.add_comm 2]
      rw [encodeIn] at ih ⊢
      rw [List.flatMap_cons, List.append_assoc, step, ih, List.length_append]
      congr 1
      omega

end DocBlocks.Lexeme
