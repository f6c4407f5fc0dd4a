import DocBlocks.Expr.Basic
import DocBlocks.Expr.Error

/-!
Templates: text with expressions between braces. Doubled braces stand for themselves.

A template is cut into parts from left to right up to its end or to the first brace out of place. The
embedded sources before that brace still count, because an error in one of them comes first.
-/
namespace DocBlocks.Template

structure Cut where
  parts : List (TemplatePart (List Char))
  fault : Option ExprError
  deriving DecidableEq, Repr

def embeddedLength? (text : List Char) : Option Nat := go 0 0 text
where
  go (n depth : Nat) : List Char → Option Nat
    | [] => none
    | c :: rest =>
        if c == '{' || c == '[' || c == '(' then go (n + 1) (depth + 1) rest
        else if c == '}' && depth == 0 then some n
        else if c == '}' || c == ']' || c == ')' then go (n + 1) (depth - 1) rest
        else go (n + 1) depth rest

def unclosed : ExprError := .unexpectedEnd "\x60\x7d\x60 in f-string"

def loneBrace : ExprError := .unexpectedToken "\x7d" "\x60\x7d\x7d\x60 in f-string"

def textPart (seen : List Char) : List (TemplatePart (List Char)) :=
  if seen.isEmpty then [] else [.text (String.ofList seen.reverse)]

def cutAfter (seen : List Char) : List Char → Cut
  | [] => ⟨textPart seen, none⟩
  | '{' :: '{' :: rest => cutAfter ('{' :: seen) rest
  | '}' :: '}' :: rest => cutAfter ('}' :: seen) rest
  | '{' :: rest =>
      match embeddedLength? rest with
      | none => ⟨[], some unclosed⟩
      | some n =>
          let cut := cutAfter [] (rest.drop (n + 1))
          ⟨textPart seen ++ .embedded (rest.take n) :: cut.parts, cut.fault⟩
  | '}' :: _ => ⟨[], some loneBrace⟩
  | c :: rest => cutAfter (c :: seen) rest
termination_by text => text.length
decreasing_by all_goals simp only [List.length_drop, List.length_cons]; omega

def cut (template : String) : Cut := cutAfter [] template.toList

def parseParts (embedded : List Char → Except ExprError Expr) :
    List (TemplatePart (List Char)) → Except ExprError (List (TemplatePart Expr))
  | [] => .ok []
  | .text s :: rest => do
      let parts ← parseParts embedded rest
      return .text s :: parts
  | .embedded source :: rest => do
      let expr ← embedded source
      let parts ← parseParts embedded rest
      return .embedded expr :: parts

def parse (embedded : List Char → Except ExprError Expr) (template : String) :
    Except ExprError (List (TemplatePart Expr)) := do
  let cut := cut template
  let parts ← parseParts embedded cut.parts
  match cut.fault with
  | some fault => .error fault
  | none => return parts

end DocBlocks.Template
