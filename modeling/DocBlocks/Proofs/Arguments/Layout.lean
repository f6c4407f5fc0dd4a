import DocBlocks.Proofs.Arguments.Written
import DocBlocks.Proofs.Text.Indentation

/-! The layout of argument text. How far all of its lines are indented, and how they end, makes no
difference to what is bound, nor to the errors. -/
namespace DocBlocks.Statement

theorem blankMarks {c : Char} (blank : Text.isBlank c = true) :
    c ≠ '\\' ∧ c ≠ ';' ∧ Mode.after c = .plain ∧ ∀ depth, depthAfter depth c = depth := by
  have other (d : Char) (solid : Text.isBlank d = false) : c ≠ d := by
    rintro rfl
    exact absurd blank (by simp [solid])
  have marks := other '"' rfl
  have marks' := other '\x27' rfl
  have hash := other '#' rfl
  refine ⟨other '\\' rfl,other ';' rfl,by simp [Mode.after, marks, marks', hash],fun depth => ?_⟩
  simp [depthAfter, other '(' rfl, other '[' rfl, other '{' rfl, other ')' rfl, other ']' rfl,
    other '}' rfl]

/- White space begins no literal and no comment, so it stays in statements of its own kind. -/
theorem splitBlank {text : List Char} (blank : ∀ c ∈ text, Text.isBlank c = true) (s : State)
    (plain : s.mode = .plain) (seen : ∀ c ∈ s.seen, Text.isBlank c = true) :
    ∀ statement ∈ splitFrom s text, Text.isBlankText statement.text = true := by
  have whole {s : State} (seen : ∀ c ∈ s.seen, Text.isBlank c = true) :
      Text.isBlankText s.statement.text = true :=
    List.all_eq_true.mpr fun c member => seen c (List.mem_reverse.mp member)
  -- all that the splitter holds is white space, whether a line feed ends it or not
  induction text generalizing s with
  | nil =>
      intro statement member
      rw [splitFrom, List.mem_singleton] at member
      exact member ▸ whole seen
  | cons c text ih =>
      have later := fun d member => blank d (List.mem_cons_of_mem c member)
      have pushed : ∀ d ∈ c :: s.seen, Text.isBlank d = true :=
        List.forall_mem_cons.mpr ⟨blank c List.mem_cons_self,seen⟩
      by_cases feed : c = '\n'
      · subst feed
        by_cases outside : s.depth = 0
        · rw [splitFeed text outside]
          exact List.forall_mem_cons.mpr ⟨whole seen,ih later s.newline.restart rfl (List.forall_mem_nil _)⟩
        · rw [splitInside text outside]
          exact ih later (s.newline.push '\n') rfl pushed
      · obtain ⟨slash,semicolon,mode,depth⟩ := blankMarks (blank c List.mem_cons_self)
        rw [splitPlain text plain feed slash (.inl semicolon)]
        exact ih later (s.take c) mode pushed

end DocBlocks.Statement

namespace DocBlocks.Arguments

theorem parseBlank {source : String}
    (blank : ∀ line ∈ Text.lines source.toList, Text.isBlankText line = true) :
    parseWithErrors source = (empty,[]) := by
  have statements := Statement.splitBlank (List.all_eq_true.mp (Text.dedentBlank blank)) .initial rfl
    (List.forall_mem_nil _)
  unfold parseWithErrors Statement.split
  generalize Statement.splitFrom .initial (Text.dedent source.toList) = split at statements
  induction split with
  | nil => rfl
  | cons statement split ih =>
      rw [List.foldl_cons, bindBlank (statements statement List.mem_cons_self)]
      exact ih fun other member => statements other (List.mem_cons_of_mem _ member)

/- Spaces and tabs in front of every line change nothing, and neither does a carriage return at the end of
every line. -/
theorem layoutKept (source : String) {front : List Char} (blanks : ∀ c ∈ front, Text.isIndent c = true) :
    parseWithErrors (String.ofList (Text.indented front source.toList)) = parseWithErrors source ∧
      ('\r' ∉ source.toList →
        parseWithErrors (String.ofList (Text.returned source.toList)) = parseWithErrors source) := by
  refine ⟨?_,fun noReturn => ?_⟩
  · by_cases solid : ∃ line ∈ Text.lines source.toList, Text.isBlankText line = false
    · rw [parseWithErrors, String.toList_ofList, Text.dedentIndented blanks solid]
      rfl
    · have blank : ∀ line ∈ Text.lines source.toList, Text.isBlankText line = true := by simpa using solid
      rw [parseBlank blank]
      refine parseBlank fun line member => ?_
      rw [String.toList_ofList, Text.linesIndented (Text.indentOneLine blanks)] at member
      obtain ⟨inner,listed,rfl⟩ := List.mem_map.mp member
      rw [Text.isBlankText, List.all_append, ← Text.isBlankText, ← Text.isBlankText,
        Text.frontBlank blanks, blank inner listed]
      rfl
  · rw [parseWithErrors, parseWithErrors, String.toList_ofList, Text.dedent, Text.dedent,
      Text.linesReturned noReturn]

theorem raggedKept : (∀ c ∈ [' ','\t'], Text.isIndent c = true) ∧
    parseWithErrors (String.ofList (Text.indented [' ','\t'] "  x = [1,\n\n 2]; y = @\n".toList)) =
      parseWithErrors "  x = [1,\n\n 2]; y = @\n" ∧
    parseWithErrors (String.ofList (Text.returned "  x = [1,\n\n 2]; y = @\n".toList)) =
      parseWithErrors "  x = [1,\n\n 2]; y = @\n" := by
  have blanks : ∀ c ∈ [' ','\t'], Text.isIndent c = true := by simp [Text.isIndent]
  have noReturn : '\r' ∉ "  x = [1,\n\n 2]; y = @\n".toList := by simp
  have kept := layoutKept "  x = [1,\n\n 2]; y = @\n" blanks
  exact ⟨blanks,kept.1,kept.2 noReturn⟩

end DocBlocks.Arguments
