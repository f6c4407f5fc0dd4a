import DocBlocks.Comment

/-!
The tags of blocks, in the text that follows the opening delimiter of a comment.

An opening tag is `MD+:`, a command, raw arguments and the nearest closing delimiter. A closing tag is
`MD+FIN:`, the command and a closing delimiter. White space may stand before either mark.
-/
namespace DocBlocks.Tag

def openMark : List Char := ['M', 'D', '+', ':']

def closeMark : List Char := ['M', 'D', '+', 'F', 'I', 'N', ':']

structure Opening where
  command : List Char
  arguments : List Char
  size : Nat
  rest : List Char
  deriving DecidableEq, Repr

def endsCommand (g : CommentGrammar) : List Char → Bool
  | [] => true
  | c :: rest => Text.isBlank c || c == '-' || (Delimiter.leading? g.closers (c :: rest)).isSome

def splitCommand (g : CommentGrammar) (text : List Char) : List Char × List Char := go [] text
where
  go (seen : List Char) : List Char → List Char × List Char
    | [] => (seen.reverse, [])
    | c :: rest =>
        if endsCommand g (c :: rest) then (seen.reverse, c :: rest) else go (c :: seen) rest

def opening? (g : CommentGrammar) (text : List Char) : Option Opening := do
  let marked := Text.trimStart text
  let named ← Text.after? openMark marked
  let (command, rest) := splitCommand g named
  if command.isEmpty then none
  else
    let closer ← Delimiter.find? g.closers rest
    let blanks := text.takeWhile Text.isBlank
    return {
      command
      arguments := closer.before
      size := Text.size blanks + Text.size openMark + Text.size command +
        Text.size closer.before + closer.delimiter.size
      rest := closer.rest }

def closing? (g : CommentGrammar) (command text : List Char) : Option (Nat × List Char) := do
  let named ← Text.after? closeMark (Text.trimStart text)
  let ended ← Text.after? command named
  let (delimiter, rest) ← Delimiter.leading? g.closers (Text.trimStart ended)
  let blanks := text.takeWhile Text.isBlank ++ ended.takeWhile Text.isBlank
  return (Text.size blanks + Text.size closeMark + Text.size command + delimiter.size, rest)

theorem length_trimStart_le (text : List Char) : (Text.trimStart text).length ≤ text.length :=
  (List.dropWhile_sublist _).length_le

theorem length_after?_le {p text rest : List Char} (h : Text.after? p text = some rest) :
    rest.length ≤ text.length := by
  simp [Text.eq_append_of_after? h]

theorem length_splitCommand_go_le (g : CommentGrammar) (seen text : List Char) :
    (splitCommand.go g seen text).2.length ≤ text.length := by
  induction text generalizing seen with
  | nil => simp [splitCommand.go]
  | cons c text ih =>
      rw [splitCommand.go]
      split
      · exact Nat.le_refl _
      · exact Nat.le_trans (ih _) (by simp)

theorem length_rest_of_opening? {g : CommentGrammar} {text : List Char} {tag : Opening}
    (h : opening? g text = some tag) : tag.rest.length < text.length := by
  unfold opening? at h
  obtain ⟨named, hn, h⟩ := Option.bind_eq_some_iff.1 h
  dsimp only at h
  split at h
  · cases h
  · obtain ⟨closer, hc, h⟩ := Option.bind_eq_some_iff.1 h
    cases h
    have h₁ := length_trimStart_le text
    have h₂ := length_after?_le hn
    have h₃ := length_splitCommand_go_le g [] named
    have h₄ := Delimiter.length_rest_of_find? hc
    have h₅ : (splitCommand g named).2.length ≤ named.length := h₃
    dsimp only
    omega

theorem length_rest_of_closing? {g : CommentGrammar} {command text rest : List Char} {size : Nat}
    (h : closing? g command text = some (size, rest)) : rest.length ≤ text.length := by
  unfold closing? at h
  obtain ⟨named, hn, h⟩ := Option.bind_eq_some_iff.1 h
  obtain ⟨ended, he, h⟩ := Option.bind_eq_some_iff.1 h
  obtain ⟨⟨delimiter, rest'⟩, hd, h⟩ := Option.bind_eq_some_iff.1 h
  cases h
  have h₁ := length_trimStart_le text
  have h₂ := length_after?_le hn
  have h₃ := length_after?_le he
  have h₄ := length_trimStart_le ended
  have h₅ := congrArg List.length (Delimiter.eq_append_of_leading? hd).2
  simp only [List.length_append] at h₅
  omega

end DocBlocks.Tag
