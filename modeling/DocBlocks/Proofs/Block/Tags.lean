import DocBlocks.Proofs.Block.Grammar

/-! The tags of markdown, by their parts. -/
namespace DocBlocks.Tag
open CommentGrammar (markdown)

abbrev opener : Delimiter := markdown.opener

abbrev closer : Delimiter := markdown.closer

def isCommandChar (c : Char) : Bool := !Text.isBlank c && c != '-'

theorem pairedMarkdown : markdown.Paired := CommentGrammar.paired (.inl rfl)

theorem stopsMarkdown (c : Char) (rest : List Char) :
    (Text.isBlank c = true ∨ c = '-' ∨ closer.chars <+: c :: rest) ↔ isCommandChar c = false := by
  have dash : closer.chars <+: c :: rest → c = '-' := fun leads => (List.cons_prefix_cons.mp leads).1.symm
  rw [or_congr_right (or_iff_left_of_imp dash), isCommandChar, Bool.and_eq_false_iff]
  simp

theorem endsCommandMarkdown (c : Char) (rest : List Char) :
    endsCommand markdown (c :: rest) = !isCommandChar c := by
  rw [Bool.eq_iff_iff, endsPaired pairedMarkdown, stopsMarkdown, Bool.not_eq_true']

theorem splitCommandMarkdown (text : List Char) :
    splitCommand markdown text = (text.takeWhile isCommandChar,text.dropWhile isCommandChar) := by
  have from' : ∀ seen : List Char, splitCommand.go markdown seen text =
      (seen.reverse ++ text.takeWhile isCommandChar,text.dropWhile isCommandChar) := by
    induction text with
    | nil => intro seen; simp [splitCommand.go]
    | cons c text ih =>
        intro seen
        rw [splitCommand.go, endsCommandMarkdown]
        cases part : isCommandChar c with
        | true => simp [ih, part]
        | false => simp [part]
  exact from' []

theorem oneBlank : ∀ c ∈ [' '], Text.isBlank c = true := List.all_eq_true.mp (by decide)

structure Open (blanks command arguments : List Char) : Prop where
  blank : ∀ c ∈ blanks, Text.isBlank c = true
  filled : command ≠ []
  chars : ∀ c ∈ command, isCommandChar c = true
  ends : ∀ c, (arguments ++ closer.chars).head? = some c → isCommandChar c = false
  first : closer.FirstAfter arguments

def openText (blanks command arguments : List Char) : List Char :=
  blanks ++ (openMark ++ (command ++ (arguments ++ closer.chars)))

theorem openingMarkdown {command arguments tag rest : List Char} :
    IsOpening markdown command arguments tag rest ↔ ∃ blanks, Open blanks command arguments ∧
      tag = opener.chars ++ openText blanks command arguments := by
  constructor
  · intro opening
    obtain ⟨blanks,blank,spelled⟩ := opening.spelled
    refine ⟨blanks,⟨blank,opening.filled,?_,?_,Delimiter.firstAfterIff.mpr opening.nearest⟩,spelled⟩
    · intro c member
      obtain ⟨p,q,whole⟩ := List.append_of_mem member
      obtain ⟨solid,other,_⟩ := opening.runs p c q whole
      simp [isCommandChar, solid, other]
    · intro c head
      obtain ⟨q,whole⟩ := List.head?_eq_some_iff.mp head
      exact (stopsMarkdown c _).mp
        (opening.longest c (q ++ rest) (by rw [← List.append_assoc, whole, List.cons_append]))
  · intro ⟨blanks,parts,spelled⟩
    refine ⟨⟨blanks,parts.blank,spelled⟩,parts.filled,?_,?_,Delimiter.firstAfterIff.mp parts.first⟩
    · intro p c q whole
      have goes := parts.chars c (by rw [whole]; simp)
      have goesOn := mt (stopsMarkdown c (q ++ (arguments ++ (closer.chars ++ rest)))).mp
        (by simp [goes])
      rw [not_or, not_or] at goesOn
      exact ⟨Bool.eq_false_iff.mpr goesOn.1,goesOn.2⟩
    · intro c q whole
      refine (stopsMarkdown c q).mpr (parts.ends c ?_)
      cases arguments with
      | nil => exact congrArg List.head? whole
      | cons a more => exact congrArg List.head? whole

theorem openingRead {blanks command arguments : List Char} (tag : Open blanks command arguments)
    (rest : List Char) :
    opening? markdown (openText blanks command arguments ++ rest) =
      some ⟨command,arguments,Text.size (openText blanks command arguments),rest⟩ :=
  (openingIff pairedMarkdown).mpr ⟨_,rfl,rfl,openingMarkdown.mpr ⟨blanks,tag,rfl⟩⟩

theorem openingParts {text : List Char} {tag : Opening} (read : opening? markdown text = some tag) :
    ∃ blanks, Open blanks tag.command tag.arguments ∧
      text = openText blanks tag.command tag.arguments ++ tag.rest ∧
      tag.size = Text.size (openText blanks tag.command tag.arguments) := by
  obtain ⟨head,whole,sized,opening⟩ := (openingIff pairedMarkdown).mp read
  obtain ⟨blanks,parts,spelled⟩ := openingMarkdown.mp opening
  obtain rfl := List.append_cancel_left spelled
  exact ⟨blanks,parts,whole,sized⟩

structure Close (blanks between : List Char) : Prop where
  blank : ∀ c ∈ blanks, Text.isBlank c = true
  ends : ∀ c ∈ between, Text.isBlank c = true

def closeText (blanks command between : List Char) : List Char :=
  blanks ++ (closeMark ++ (command ++ (between ++ closer.chars)))

theorem closingRead {blanks between : List Char} (tag : Close blanks between)
    (command rest : List Char) :
    closing? markdown command (closeText blanks command between ++ rest) =
      some (Text.size (closeText blanks command between),rest) := by
  refine (closingIff pairedMarkdown).mpr ⟨_,rfl,rfl,blanks,between,?_,rfl⟩
  intro c member
  exact (List.mem_append.mp member).elim (tag.blank c) (tag.ends c)

theorem closingParts {command text : List Char} {tag : Nat × List Char}
    (read : closing? markdown command text = some tag) :
    ∃ blanks between, Close blanks between ∧
      text = closeText blanks command between ++ tag.2 ∧
      tag.1 = Text.size (closeText blanks command between) := by
  obtain ⟨foot,whole,sized,blanks,between,blank,spelled⟩ := (closingIff pairedMarkdown).mp read
  obtain rfl := List.append_cancel_left spelled
  exact ⟨blanks,between,⟨fun c member => blank c (List.mem_append_left _ member),
    fun c member => blank c (List.mem_append_right _ member)⟩,whole,sized⟩

end DocBlocks.Tag
