import DocBlocks.Text.Blank
import DocBlocks.Text.Offset

/-!
Comment grammars: the delimiters between which a kind of file holds its comments.
-/
namespace DocBlocks

structure Delimiter where
  first : Char
  more : List Char
  deriving DecidableEq, Repr

namespace Delimiter

def chars (d : Delimiter) : List Char := d.first :: d.more

def text (d : Delimiter) : String := String.ofList d.chars

def size (d : Delimiter) : Nat := Text.size d.chars

end Delimiter

namespace Text

def after? : List Char → List Char → Option (List Char)
  | [], text => some text
  | _ :: _, [] => none
  | p :: ps, c :: rest => if p = c then after? ps rest else none

theorem eq_append_of_after? {p text rest : List Char} (h : after? p text = some rest) :
    text = p ++ rest := by
  induction p generalizing text with
  | nil => simp only [after?, Option.some.injEq] at h; simp [h]
  | cons a p ih =>
      cases text with
      | nil => simp [after?] at h
      | cons c text =>
          simp only [after?] at h
          split at h
          · rename_i hac
            simp [hac, ih h]
          · cases h

@[simp] theorem after?_append (p rest : List Char) : after? p (p ++ rest) = some rest := by
  induction p with
  | nil => rfl
  | cons a p ih => simp [after?, ih]

end Text

namespace Delimiter

def leading? (delimiters : List Delimiter) (text : List Char) : Option (Delimiter × List Char) :=
  delimiters.findSome? fun d => (Text.after? d.chars text).map (d, ·)

structure Found where
  before : List Char
  delimiter : Delimiter
  rest : List Char
  deriving DecidableEq, Repr

def find? (delimiters : List Delimiter) (text : List Char) : Option Found := go [] text
where
  go (seen : List Char) : List Char → Option Found
    | [] => none
    | c :: rest =>
        match leading? delimiters (c :: rest) with
        | some (d, after) => some ⟨seen.reverse, d, after⟩
        | none => go (c :: seen) rest

theorem eq_append_of_leading? {delimiters : List Delimiter} {text rest : List Char}
    {d : Delimiter} (h : leading? delimiters text = some (d, rest)) :
    d ∈ delimiters ∧ text = d.chars ++ rest := by
  obtain ⟨e, he, heq⟩ := List.exists_of_findSome?_eq_some h
  obtain ⟨r, hr, heq⟩ := Option.map_eq_some_iff.1 heq
  obtain ⟨rfl, rfl⟩ := Prod.mk.inj heq
  exact ⟨he, Text.eq_append_of_after? hr⟩

theorem eq_append_of_go {delimiters : List Delimiter} {seen text : List Char} {f : Found}
    (h : find?.go delimiters seen text = some f) :
    seen.reverse ++ text = f.before ++ f.delimiter.chars ++ f.rest := by
  induction text generalizing seen with
  | nil => simp [find?.go] at h
  | cons c text ih =>
      rw [find?.go] at h
      split at h
      · rename_i d after hd
        cases h
        simp [(eq_append_of_leading? hd).2]
      · simpa using ih h

theorem eq_append_of_find? {delimiters : List Delimiter} {text : List Char} {f : Found}
    (h : find? delimiters text = some f) : text = f.before ++ f.delimiter.chars ++ f.rest := by
  simpa using eq_append_of_go h

theorem length_rest_of_find? {delimiters : List Delimiter} {text : List Char} {f : Found}
    (h : find? delimiters text = some f) : f.rest.length < text.length := by
  have := congrArg List.length (eq_append_of_find? h)
  simp only [List.length_append, chars, List.length_cons] at this
  omega

end Delimiter

inductive CommentStyle where
  | markdown | python | c
  deriving DecidableEq, Repr

def CommentStyle.text : CommentStyle → String
  | markdown => "markdown"
  | python => "python"
  | c => "c"

/-- The delimiters of a kind of file. The first of each list is the one used for writing. -/
structure CommentGrammar where
  style : CommentStyle
  opener : Delimiter
  otherOpeners : List Delimiter
  closer : Delimiter
  otherClosers : List Delimiter
  lineMark : Option String
  deriving DecidableEq, Repr

namespace CommentGrammar

def markdown : CommentGrammar where
  style := .markdown
  opener := ⟨'<', ['!', '-', '-']⟩
  otherOpeners := []
  closer := ⟨'-', ['-', '>']⟩
  otherClosers := []
  lineMark := none

def tripleDouble : Delimiter := ⟨'\x22', ['\x22', '\x22']⟩

def tripleSingle : Delimiter := ⟨'\x27', ['\x27', '\x27']⟩

def python : CommentGrammar where
  style := .python
  opener := tripleDouble
  otherOpeners := [tripleSingle]
  closer := tripleDouble
  otherClosers := [tripleSingle]
  lineMark := some "#"

def c : CommentGrammar where
  style := .c
  opener := ⟨'/', ['*']⟩
  otherOpeners := []
  closer := ⟨'*', ['/']⟩
  otherClosers := []
  lineMark := some "//"

def openers (g : CommentGrammar) : List Delimiter := g.opener :: g.otherOpeners

def closers (g : CommentGrammar) : List Delimiter := g.closer :: g.otherClosers

def lineOpener? (g : CommentGrammar) (line : List Char) : Option (Delimiter × List Char) :=
  Delimiter.leading? g.openers (Text.trimStart line)

def closesLine (g : CommentGrammar) (line : List Char) : Bool :=
  g.closers.any fun d => d.chars.isSuffixOf (Text.trimEnd line)

def forExtension (extension : String) : CommentGrammar :=
  let extension := extension.map Char.toLower
  if extension ∈ ["md", "mdx", "markdown"] then markdown
  else if extension = "py" then python
  else c

end CommentGrammar

end DocBlocks
