/-! Computations that may fail. -/
namespace DocBlocks

theorem okBind {ε α β : Type} {first : Except ε α} {next : α → Except ε β} {b : β} :
    (first >>= next) = .ok b ↔ ∃ a, first = .ok a ∧ next a = .ok b := by
  cases first with
  | error e => simp [bind, Except.bind]
  | ok a => simp [bind, Except.bind]

theorem okSome {ε α : Type} {outcome : Except ε α} {a : α} (some : outcome.toOption = some a) :
    outcome = .ok a := by
  cases outcome with
  | error e => cases some
  | ok b => exact congrArg Except.ok (Option.some.inj some)

theorem foldFails {ε α β : Type} {step : β → α → Except ε β} {all : List α} {b : β} {e : ε}
    (failed : all.foldlM step b = .error e) : ∃ before a after c, all = before ++ a :: after ∧
      before.foldlM step b = .ok c ∧ step c a = .error e := by
  induction all generalizing b with
  | nil => cases failed
  | cons a rest ih =>
      rw [List.foldlM_cons] at failed
      cases first : step b a with
      | error e' =>
          rw [first] at failed
          cases failed
          exact ⟨[],a,rest,b,rfl,rfl,first⟩
      | ok c =>
          rw [first] at failed
          obtain ⟨before,x,after,d,rfl,taken,last⟩ := ih failed
          refine ⟨a :: before,x,after,d,rfl,?_,last⟩
          rw [List.foldlM_cons, first]
          exact taken

theorem foldThrough {ε α β : Type} {step : β → α → Except ε β} {before after : List α} {a : α} {b d : β}
    (taken : (before ++ a :: after).foldlM step b = .ok d) : ∃ c c', before.foldlM step b = .ok c ∧
      step c a = .ok c' ∧ after.foldlM step c' = .ok d := by
  rw [List.foldlM_append, okBind] at taken
  obtain ⟨c,first,taken⟩ := taken
  rw [List.foldlM_cons, okBind] at taken
  obtain ⟨c',here,last⟩ := taken
  exact ⟨c,c',first,here,last⟩

end DocBlocks
