import DocBlocks.Generator.Inquiry
import DocBlocks.Error
import DocBlocks.Proofs.Outcome
import Mathlib.Data.List.Forall2

/-! Computations that ask for leading arguments and may fail, step by step: what they give when every
question is answered from a table. -/
namespace DocBlocks.Inquiry

variable {α β : Type} {table table' : Document → Arguments}

instance : LawfulMonad Inquiry := by
  refine .mk' Inquiry (fun x => ?_) (fun _ _ => rfl) fun x f g => ?_
  · induction x with
    | done result => rfl
    | ask document next ih => exact congrArg (ask document) (funext ih)
  · induction x with
    | done result => rfl
    | ask document next ih => exact congrArg (ask document) (funext ih)

theorem bindAnswered (table : Document → Arguments) (x : ExceptT Error Inquiry α)
    (f : α → ExceptT Error Inquiry β) : (x >>= f).run.answered table =
      x.run.answered table >>= fun a => (f a).run.answered table := by
  refine (answered_bind table x.run _).trans ?_
  cases x.run.answered table <;> rfl

theorem mapMAnswered {f : α → ExceptT Error Inquiry β} {items : List α} {results : List β}
    (all : (items.mapM f).run.answered table = .ok results) :
    List.Forall₂ (fun item result => (f item).run.answered table = .ok result) items results := by
  induction items generalizing results with
  | nil =>
      cases all
      exact .nil
  | cons item rest ih =>
      rw [List.mapM_cons, bindAnswered, okBind] at all
      obtain ⟨result,first,all⟩ := all
      rw [bindAnswered, okBind] at all
      obtain ⟨others,later,same⟩ := all
      cases same
      exact .cons first (ih later)

def Alike (table table' : Document → Arguments) (x x' : ExceptT Error Inquiry α) : Prop :=
  x'.run.answered table' = x.run.answered table

end DocBlocks.Inquiry
