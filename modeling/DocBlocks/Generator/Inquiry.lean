import DocBlocks.Arguments.Basic
import DocBlocks.Document.Basic

/-!
Computations that may ask for the leading arguments of documents. Who answers is left open: a table, or
files that are read once and remembered.
-/
namespace DocBlocks

inductive Inquiry (α : Type) where
  | done (result : α)
  | ask (document : Document) (next : Arguments → Inquiry α)

namespace Inquiry

variable {α β : Type}

def bind : Inquiry α → (α → Inquiry β) → Inquiry β
  | done result, f => f result
  | ask document next, f => ask document fun arguments => (next arguments).bind f

instance : Monad Inquiry where
  pure := done
  bind := bind

def leading (document : Document) : Inquiry Arguments := ask document done

def answered (table : Document → Arguments) : Inquiry α → α
  | done result => result
  | ask document next => (next (table document)).answered table

theorem answered_bind (table : Document → Arguments) (x : Inquiry α) (f : α → Inquiry β) :
    (x.bind f).answered table = (f (x.answered table)).answered table := by
  induction x with
  | done result => rfl
  | ask document next ih => exact ih (table document)

end Inquiry

end DocBlocks
