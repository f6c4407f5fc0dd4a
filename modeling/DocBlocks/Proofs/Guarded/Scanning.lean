import DocBlocks.Proofs.Arguments.Lexemes
import DocBlocks.Proofs.Guarded.Access
import DocBlocks.Proofs.Text.Indentation

/-! Removing indentation and scanning tokens, with every slice taken at byte offsets. Indentation is counted
in bytes, of which only spaces and tabs count; quotes and the letter of a template are taken off literals by
one byte. -/
namespace DocBlocks.Guarded

section
open Text

def isIndentByte (byte : UInt8) : Bool := byte == 0x20 || byte == 0x09

def indentation (line : List Char) : Nat := ((bytes line).takeWhile isIndentByte).length

def dedent (source : List Char) : Guarded (List Char) := do
  let all := lines source
  let width :=
    match all.find? (fun line => !isBlankText line) with
    | some line => indentation line
    | none => 0
  let kept ← all.mapM fun line => slice (min width (indentation line)) (size line) line
  return joined ['\n'] kept

theorem byteOther {c : Char} (other : isIndent c = false) :
    ∃ first more, String.utf8EncodeChar c = first :: more ∧ isIndentByte first = false := by
  have apart {n : Nat} (small : n < 256) (space : n ≠ 32) (tab : n ≠ 9) :
      isIndentByte (.ofNat n) = false := by
    have differs {byte : UInt8} (value : n ≠ byte.toNat) : UInt8.ofNat n ≠ byte := by
      rintro rfl
      exact value (UInt8.toNat_ofNat_of_lt' small).symm
    rw [isIndentByte, Bool.or_eq_false_iff]
    exact ⟨beq_eq_false_iff_ne.mpr (differs space),beq_eq_false_iff_ne.mpr (differs tab)⟩
  have value (d : Char) (indent : isIndent d = true) : c.val.toNat ≠ d.val.toNat := by
    intro same
    rw [Char.ext (UInt32.toNat_inj.mp same), indent] at other
    cases other
  have space : c.val.toNat ≠ 32 := value ' ' rfl
  have tab : c.val.toNat ≠ 9 := value '\t' rfl
  rw [String.utf8EncodeChar]
  split
  · exact ⟨_,_,rfl,apart (by omega) space tab⟩
  split
  · exact ⟨_,_,rfl,apart (by omega) (by omega) (by omega)⟩
  split <;> exact ⟨_,_,rfl,apart (by omega) (by omega) (by omega)⟩

theorem indentationBytes (line : List Char) : indentation line = Text.indentation line := by
  induction line with
  | nil => rfl
  | cons c line ih =>
      unfold indentation Text.indentation at ih ⊢
      rw [bytes, List.flatMap_cons, ← bytes]
      cases kind : isIndent c with
      | true =>
          have encoded : ∃ byte, String.utf8EncodeChar c = [byte] ∧ isIndentByte byte = true := by
            rcases indentIff.mp kind with rfl | rfl <;> exact ⟨_,rfl,rfl⟩
          obtain ⟨byte,single,indent⟩ := encoded
          rw [single, List.singleton_append, List.takeWhile_cons_of_pos indent,
            List.takeWhile_cons_of_pos kind, List.length_cons, ih, List.length_cons]
      | false =>
          obtain ⟨first,more,encoded,other⟩ := byteOther kind
          rw [encoded, List.cons_append, List.takeWhile_cons_of_neg (by simp [other]),
            List.takeWhile_cons_of_neg (by simp [kind])]
          rfl

theorem sizeIndent {line : List Char} {n : Nat} (within : n ≤ Text.indentation line) :
    size (line.take n) = n := by
  induction line generalizing n with
  | nil =>
      rw [Nat.le_zero.mp within]
      rfl
  | cons c line ih =>
      cases n with
      | zero => rfl
      | succ n =>
          cases kind : isIndent c with
          | true =>
              have one : c.utf8Size = 1 := by
                rcases indentIff.mp kind with rfl | rfl <;> rfl
              rw [Text.indentation, List.takeWhile_cons_of_pos kind, List.length_cons] at within
              rw [List.take_succ_cons, size_cons, one, ih (Nat.le_of_succ_le_succ within), Nat.add_comm]
          | false =>
              rw [Text.indentation, List.takeWhile_cons_of_neg (by simp [kind])] at within
              cases within

theorem dedentRuns (source : List Char) : dedent source = .ok (Text.dedent source) := by
  have kept (width : Nat) : (fun line => slice (min width (Text.indentation line)) (size line) line) =
      fun line => pure (unindent width line) := by
    funext line
    have cut := sliceEnd (line.take (min width (Text.indentation line)))
      (line.drop (min width (Text.indentation line)))
    rwa [List.take_append_drop, sizeIndent (Nat.min_le_right _ _)] at cut
  unfold dedent Text.dedent commonIndentation
  simp only [indentationBytes, kept, List.mapM_pure]
  rfl

end

def requote (whole : List Char) : Guarded (List Char) := do
  let last ← difference (Text.size whole) 1
  let inner ← slice 1 last whole
  return '"' :: (Text.Quoted.requoteInner inner ++ ['"'])

def tokenOf (offset : Nat) (text : List Char) : LexemeKind → Tried (Option Token)
  | .singleQuoted => do
      let whole ← requote text
      Tried.of (Token.decoded .string whole)
  | .doubleQuotedTemplate => do
      let literal ← slice 1 (Text.size text) text
      Tried.of (Token.decoded .template literal)
  | .singleQuotedTemplate => do
      let literal ← slice 1 (Text.size text) text
      let whole ← requote literal
      Tried.of (Token.decoded .template whole)
  | kind => Tried.of (Token.ofLexeme offset text kind)

def scan (whole : List Char) : Tried (List Token) := go [] 0 whole
where
  go (seen : List Token) (offset : Nat) : List Char → Tried (List Token)
    | [] => return seen.reverse
    | c :: rest => do
        let lexeme := Lexeme.next c rest
        let stop := offset + Text.size (c :: rest.take lexeme.more)
        let text ← slice offset stop whole
        let found ← tokenOf offset text lexeme.kind
        go (found.toList ++ seen) stop (rest.drop lexeme.more)
  termination_by text => text.length
  decreasing_by simp only [List.length_drop, List.length_cons]; omega

end DocBlocks.Guarded

namespace DocBlocks.LexemeKind
open Lexeme

def Fits (text : List Char) : LexemeKind → Prop
  | .singleQuoted => ∃ inner, text = '\x27' :: (inner ++ ['\x27'])
  | .doubleQuotedTemplate => ∃ mark literal, IsMark mark ∧ text = mark :: literal
  | .singleQuotedTemplate => ∃ mark inner, IsMark mark ∧ text = mark :: '\x27' :: (inner ++ ['\x27'])
  | _ => True

end DocBlocks.LexemeKind

namespace DocBlocks.Lexeme

variable {c quote : Char} {rest : List Char}

theorem closedEnds {text : List Char} (closed : Closed quote text) : ∃ inner, text = inner ++ [quote] := by
  induction closed with
  | close => exact ⟨[],rfl⟩
  | @escape c _ _ _ ih =>
      obtain ⟨inner,rfl⟩ := ih
      exact ⟨'\\' :: c :: inner,rfl⟩
  | @plain c _ _ _ ih =>
      obtain ⟨inner,rfl⟩ := ih
      exact ⟨c :: inner,rfl⟩

theorem quotedEnds {n : Nat} (length : quotedLength? quote rest = some n) :
    ∃ inner, rest.take n = inner ++ [quote] := by
  obtain ⟨inside,more,rfl,rfl,closed⟩ := quotedClosed length
  rw [List.take_left]
  exact closedEnds closed

theorem quotedFits : (quoted .singleQuoted '\x27' rest).kind.Fits
    ('\x27' :: rest.take (quoted .singleQuoted '\x27' rest).more) := by
  unfold quoted
  split
  · rename_i n length
    obtain ⟨inner,ends⟩ := quotedEnds length
    exact ⟨inner,congrArg _ ends⟩
  · trivial

theorem nameFits : (nameOrTemplate c rest).kind.Fits (c :: rest.take (nameOrTemplate c rest).more) := by
  unfold nameOrTemplate
  dsimp only
  split
  · rename_i mark
    have marked : IsMark c := by simpa [IsMark] using mark
    split
    · split
      · exact ⟨c,_,marked,rfl⟩
      · trivial
    · split
      · rename_i n length
        obtain ⟨inner,ends⟩ := quotedEnds length
        exact ⟨c,inner,marked,by rw [List.take_succ_cons, ends]⟩
      · trivial
    · trivial
  · trivial

theorem numberFits (text : List Char) : (number rest).kind.Fits text := by
  unfold number
  dsimp only
  split
  · trivial
  · split <;> trivial

theorem backslashFits (text : List Char) : (backslash rest).kind.Fits text := by
  unfold backslash
  split <;> trivial

theorem symbolFits (text : List Char) : ((symbol? c rest).getD ⟨.invalid,0⟩).kind.Fits text := by
  unfold symbol?
  dsimp only
  split <;> (try split) <;> trivial

theorem nextFits (c : Char) (rest : List Char) :
    (next c rest).kind.Fits (c :: rest.take (next c rest).more) := by
  unfold next
  split
  · trivial
  split
  · trivial
  split
  · trivial
  split
  · exact backslashFits _
  split
  · unfold quoted
    split <;> trivial
  split
  · rename_i single
    rw [beq_iff_eq.mp single]
    exact quotedFits
  split
  · exact nameFits
  split
  · exact numberFits _
  · exact symbolFits _

end DocBlocks.Lexeme

namespace DocBlocks.Guarded
open Token

theorem requoteRuns (inner : List Char) : requote ('\x27' :: (inner ++ ['\x27'])) =
    .ok (Text.Quoted.requote ('\x27' :: (inner ++ ['\x27']))) := by
  have whole : Text.size ('\x27' :: (inner ++ ['\x27'])) = 1 + Text.size inner + 1 := by
    rw [Text.size_cons, Text.size_append, ← Nat.add_assoc]
    rfl
  have cut : slice 1 (1 + Text.size inner) ('\x27' :: (inner ++ ['\x27'])) = .ok inner :=
    sliceMiddle ['\x27'] inner ['\x27']
  rw [requote, whole, difference, if_pos (Nat.le_add_left 1 _), Nat.add_sub_cancel]
  change (slice 1 (1 + Text.size inner) _ >>= fun inner => _) = _
  rw [cut, Text.Quoted.requote, List.drop_succ_cons, List.drop_zero, List.dropLast_concat]
  rfl

theorem markCut {mark : Char} (marks : Lexeme.IsMark mark) (literal : List Char) :
    slice 1 (Text.size (mark :: literal)) (mark :: literal) = .ok literal := by
  have one : Text.size [mark] = 1 := by rcases marks with rfl | rfl <;> rfl
  have cut := sliceEnd [mark] literal
  rwa [one] at cut

theorem tokenRuns {kind : LexemeKind} {text : List Char} (fits : kind.Fits text) (offset : Nat) :
    tokenOf offset text kind = .of (ofLexeme offset text kind) := by
  cases kind with
  | singleQuoted =>
      obtain ⟨inner,rfl⟩ := fits
      exact liftBind (requoteRuns inner)
  | doubleQuotedTemplate =>
      obtain ⟨mark,literal,marks,rfl⟩ := fits
      exact liftBind (markCut marks literal)
  | singleQuotedTemplate =>
      obtain ⟨mark,inner,marks,rfl⟩ := fits
      exact (liftBind (markCut marks _)).trans (liftBind (requoteRuns inner))
  | skipped | newline | symbol | ident | int | float | doubleQuoted | invalid => rfl

theorem scanStep (seen : List Token) (offset : Nat) (c : Char) (rest : List Char) :
    scanFrom.go seen offset (c :: rest) =
      ofLexeme offset (c :: rest.take (Lexeme.next c rest).more) (Lexeme.next c rest).kind >>= fun found =>
        scanFrom.go (found.toList ++ seen)
          (offset + Text.size (c :: rest.take (Lexeme.next c rest).more))
          (rest.drop (Lexeme.next c rest).more) := by
  rw [scanFrom.go]
  cases ofLexeme offset (c :: rest.take (Lexeme.next c rest).more) (Lexeme.next c rest).kind with
  | error e => rfl
  | ok found => cases found <;> rfl

theorem scanAheadRuns {whole before ahead : List Char} (place : whole = before ++ ahead)
    (seen : List Token) : scan.go whole seen (Text.size before) ahead =
      .of (scanFrom.go seen (Text.size before) ahead) := by
  induction length : ahead.length using Nat.strongRecOn generalizing before ahead seen with
  | ind n ih =>
      cases ahead with
      | nil =>
          rw [scan.go, scanFrom.go]
          rfl
      | cons c rest =>
          have split : c :: rest = (c :: rest.take (Lexeme.next c rest).more) ++
              rest.drop (Lexeme.next c rest).more := by simp
          have cut := sliceMiddle before (c :: rest.take (Lexeme.next c rest).more)
            (rest.drop (Lexeme.next c rest).more)
          rw [← split, ← place] at cut
          rw [scan.go, scanStep]
          refine (liftBind cut).trans (triedBind (tokenRuns (Lexeme.nextFits c rest) _) fun found => ?_)
          rw [← Text.size_append]
          refine ih _ ?_ ?_ _ rfl
          · rw [← length, List.length_drop, List.length_cons]
            omega
          · rw [List.append_assoc, ← split, place]

theorem scanRuns (text : List Char) : scan text = .of (scanFrom 0 text) :=
  @scanAheadRuns text [] text rfl []

end DocBlocks.Guarded
