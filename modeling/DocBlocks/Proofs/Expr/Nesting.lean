import DocBlocks.Proofs.Expr.Templates
import DocBlocks.Proofs.Literal.Lexing

/-! Templates nest in ever shorter sources: a template is no longer than the source it is read from, and
longer than the sources embedded in it. -/
namespace DocBlocks.Text.Quoted

def units : List Char → Nat
  | [] => 0
  | ['\\'] => 1
  | '\\' :: _ :: rest => units rest + 1
  | _ :: rest => units rest + 1

theorem unitsPlain {c : Char} (plain : c ≠ '\\') (rest : List Char) :
    units (c :: rest) = units rest + 1 := by
  rw [units]
  · rintro rfl
    exact absurd rfl plain
  · intro _ _ same
    exact absurd same plain

theorem unitsLength (text : List Char) : units text ≤ text.length := by
  fun_induction units text with
  | case1 | case2 => exact Nat.le_refl _
  | case3 c rest ih =>
      simp only [List.length_cons]
      omega
  | case4 c rest _ _ ih => exact Nat.succ_le_succ ih

theorem unitsTail (c : Char) (rest : List Char) : units rest ≤ units (c :: rest) := by
  induction length : rest.length using Nat.strongRecOn generalizing c rest with
  | ind n ih =>
      by_cases plain : c = '\\'
      · subst plain
        cases rest with
        | nil => simp [units]
        | cons d rest =>
            rw [units]
            by_cases plain' : d = '\\'
            · subst plain'
              cases rest with
              | nil => simp [units]
              | cons e rest =>
                  have := ih rest.length (by simp at length; omega) e rest rfl
                  rw [units]
                  omega
            · exact Nat.le_of_eq (unitsPlain plain' rest)
      · rw [unitsPlain plain]
        exact Nat.le_succ _

theorem unitsSuffix {a b : List Char} (suffix : a <:+ b) : units a ≤ units b := by
  obtain ⟨before,rfl⟩ := suffix
  induction before with
  | nil => exact Nat.le_refl _
  | cons c before ih => exact Nat.le_trans ih (unitsTail c _)

theorem decodeLength {text seen decoded : List Char} {index : Nat}
    (read : decodeFrom.go seen index text = .ok decoded) :
    decoded.length ≤ seen.length + units text := by
  -- along the decoder: no escape stands for more than the one unit it is counted as
  fun_induction decodeFrom.go seen index text with
  | case1 seen index =>
      cases read
      simp
  | case2 seen index c rest quote =>
      cases read
      simp
  | case3 | case4 | case6 | case7 => cases read
  | case5 seen index c notQuote escape rest digits made =>
      rename_i ih
      have left : units ((rest.dropWhile (· != '}')).drop 1) ≤ units rest :=
        unitsSuffix ((List.drop_suffix 1 _).trans (List.dropWhile_suffix _))
      have whole : units (c :: 'u' :: '{' :: rest) = units rest + 2 := by
        rw [beq_iff_eq.mp escape, units, unitsPlain (by decide)]
      have := ih read
      rw [List.length_cons] at this
      omega
  | case8 seen index c notQuote escape =>
      rename_i ih
      have := ih read
      rw [beq_iff_eq.mp escape, units]
      rw [List.length_cons] at this
      omega
  | case9 seen index c rest notQuote plain ih =>
      have := ih read
      rw [unitsPlain (by simpa using plain)]
      rw [List.length_cons] at this
      omega

theorem requoteUnits (text : List Char) :
    units (requoteInner text ++ ['"']) ≤ text.length + 1 := by
  fun_induction requoteInner text with
  | case1 => decide
  | case2 rest ih =>
      rw [List.cons_append, unitsPlain (by decide)]
      simp only [List.length_cons]
      omega
  | case3 c rest _ ih =>
      rw [List.cons_append, List.cons_append, units]
      simp only [List.length_cons]
      omega
  | case4 => decide
  | case5 c rest _ _ quote ih =>
      rw [List.cons_append, List.cons_append, units]
      simp only [List.length_cons]
      omega
  | case6 c rest _ notEscape notLast =>
      rename_i ih
      have plain : c ≠ '\\' := by
        intro escape
        cases rest with
        | nil => exact notLast escape rfl
        | cons d rest => exact notEscape d rest escape rfl
      rw [List.cons_append, unitsPlain plain]
      simp only [List.length_cons]
      omega

end DocBlocks.Text.Quoted

namespace DocBlocks.Token

theorem decodedLength {whole : List Char} {s : String}
    (read : decoded template whole = .ok (some (template s))) :
    s.length ≤ Text.Quoted.units (whole.drop 1) := by
  unfold decoded Text.Quoted.decode Text.Quoted.decodeFrom at read
  split at read
  · rename_i text made
    split at made
    · rename_i text' decodes
      cases made
      cases read
      have := Text.Quoted.decodeLength decodes
      simpa [← String.length_toList] using this
    · cases made
  · cases read

theorem lexemeLength {offset : Nat} {c : Char} {text : List Char} {kind : LexemeKind} {s : String}
    (read : ofLexeme offset (c :: text) kind = .ok (some (template s))) :
    s.length ≤ text.length + 1 := by
  cases kind with
  | skipped | newline | symbol | ident | invalid => simp [ofLexeme] at read
  | int =>
      simp only [ofLexeme, ofDigits] at read
      split at read <;> simp at read
  | float =>
      simp only [ofLexeme, ofFloatText] at read
      split at read <;> simp at read
  | doubleQuoted | singleQuoted =>
      obtain ⟨_,same⟩ := decodedMade read
      cases same
  | doubleQuotedTemplate =>
      have made := decodedLength read
      have short := Text.Quoted.unitsLength (text.drop 1)
      rw [List.length_drop] at short
      rw [List.drop_succ_cons, List.drop_zero] at made
      omega
  | singleQuotedTemplate =>
      have made := decodedLength read
      have short := Text.Quoted.requoteUnits (text.drop 1).dropLast
      rw [List.length_dropLast, List.length_drop] at short
      rw [List.drop_succ_cons, List.drop_zero, Text.Quoted.requote, List.drop_succ_cons,
        List.drop_zero] at made
      omega

theorem scanLength {text : List Char} {tokens : List Token} (scanned : scanFrom 0 text = .ok tokens)
    {s : String} (member : .template s ∈ tokens) : s.length ≤ text.length := by
  rcases scanMember scanned member with none | ⟨place,c,rest,inside,read⟩
  · cases none
  · have short := lexemeLength read
    have within := inside.length_le
    simp only [List.length_cons, List.length_take] at short within
    omega

end DocBlocks.Token

namespace DocBlocks.Template

theorem dividesShorter {raw : List Char} {parts : List (TemplatePart (List Char))}
    (divides : Divides raw parts) {source : List Char} (member : .embedded source ∈ parts) :
    source.length + 2 ≤ raw.length := by
  have plain : ∀ text, TemplatePart.embedded source ∉ plainPart text := by
    intro text inside
    unfold plainPart at inside
    split at inside <;> simp at inside
  induction divides with
  | last _ => exact absurd member (plain _)
  | embedded _ _ _ _ ih =>
      simp only [List.length_append, List.length_cons]
      rcases List.mem_append.mp member with inside | member
      · exact absurd inside (plain _)
      rcases List.mem_cons.mp member with same | member
      · cases same
        omega
      · have := ih member
        omega

end DocBlocks.Template
