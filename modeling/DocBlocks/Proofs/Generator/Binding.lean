import DocBlocks.Generator.Plugin
import DocBlocks.Proofs.Arguments.Sourced

/-! Plugins that read a fixed list of names. What they declare, supplied to them again, is declared
again and gives the same generator. -/
namespace DocBlocks
open Token (IsName)

def Generator.Placeless (g : Generator) : Prop := ∀ c block, g { c with block } = g c

inductive Reading.ReadsFixed : List String → Reading Generator → Prop where
  | done {g : Generator} (placeless : g.Placeless) : ReadsFixed [] (pure g)
  | fail (names : List String) (e : Error) : ReadsFixed names (throw e)
  | get {α : Type} [OfValue α] {name : String} {default : Value} {names : List String}
      {next : α → Reading Generator} (later : ∀ a, ReadsFixed names (next a)) :
      ReadsFixed (name :: names) (Reading.get name default >>= next)
  | optional {α : Type} [OfValue α] {name : String} {names : List String}
      {next : Option α → Reading Generator} (later : ∀ a, ReadsFixed names (next a)) :
      ReadsFixed (name :: names) (Reading.optional name >>= next)

structure Plugin.FixedNames (plugin : Plugin) (names : List String) : Prop where
  reads : Reading.ReadsFixed names plugin.bind
  distinct : names.Nodup
  named : ∀ name ∈ names, IsName name
  header : headerName ∈ names → names.head? = some headerName

def Plugin.Fixed (plugin : Plugin) : Prop := ∃ names, plugin.FixedNames names

namespace Reading

variable {α : Type} [OfValue α] {name : String} {default : Value} {b after : Binder} {g : Generator}

def used (name : String) (default : Value) (b : Binder) : Value := (b.supplied? name).getD default

theorem getRun {next : α → Reading Generator} :
    ((get name default : Reading α) >>= next).run b = .ok (g,after) ↔
      ∃ typed : α, OfValue.ofValue? (used name default b) = some typed ∧
        (next typed).run (b.declare name (used name default b)) = .ok (g,after) := by
  have here : ((get name default : Reading α) >>= next).run b =
      (get name default b : Except Error (α × Binder)) >>= fun p => (next p.1).run p.2 := rfl
  rw [here, get, used]
  cases (OfValue.ofValue? ((b.supplied? name).getD default) : Option α) with
  | none =>
      constructor
      · intro run
        cases run
      · rintro ⟨_,typed,_⟩
        cases typed
  | some typed =>
      constructor
      · exact fun run => ⟨typed,rfl,run⟩
      · rintro ⟨_,same,run⟩
        cases same
        exact run

theorem optionalAbsent {next : Option α → Reading Generator} (absent : b.supplied? name = none) :
    (optional name >>= next).run b = (next none).run b := by
  have here : (optional name >>= next).run b =
      (optional name b : Except Error (Option α × Binder)) >>= fun p => (next p.1).run p.2 := rfl
  rw [here, optional, absent]
  rfl

theorem optionalPresent {next : Option α → Reading Generator} {value : Value}
    (present : b.supplied? name = some value) :
    (optional name >>= next).run b = (get name .null >>= fun a => next (some a)).run b := by
  have here : (optional name >>= next).run b =
      (optional name b : Except Error (Option α × Binder)) >>= fun p => (next p.1).run p.2 := rfl
  rw [here, optional, present]
  change _ = (get name .null b : Except Error (α × Binder)) >>= fun p => (next (some p.1)).run p.2
  change ((some ·) <$> get name .null : Reading (Option α)) b >>= _ = _
  have mapped : ((some ·) <$> get name .null : Reading (Option α)) b =
      (get name .null b : Except Error (α × Binder)) >>= fun p => .ok (some p.1,p.2) := rfl
  rw [mapped]
  cases (get name .null b : Except Error (α × Binder)) <;> rfl

theorem runInvariant {names : List String} {reading : Reading Generator}
    (reads : ReadsFixed names reading) (holds : Arguments → Prop)
    (step : ∀ a, ∀ name ∈ names, ∀ value, holds a → holds (a.insert name value))
    (start : holds b.declared) (run : reading.run b = .ok (g,after)) : holds after.declared := by
  -- a read inserts one name or nothing
  induction reads generalizing b with
  | done =>
      cases run
      exact start
  | fail => cases run
  | @get α inst name default names next later ih =>
      obtain ⟨typed,_,run⟩ := getRun.mp run
      exact ih typed (fun a name member => step a name (List.mem_cons_of_mem _ member))
        (step _ name List.mem_cons_self _ start) run
  | @optional α inst name names next later ih =>
      have others := fun a name member => step a name (List.mem_cons_of_mem _ member)
      cases found : b.supplied? name with
      | none =>
          rw [optionalAbsent found] at run
          exact ih none others start run
      | some value =>
          rw [optionalPresent found] at run
          obtain ⟨typed,_,run⟩ := getRun.mp run
          exact ih (some typed) others (step _ name List.mem_cons_self _ start) run

theorem readPlaceless {names : List String} {reading : Reading Generator}
    (reads : ReadsFixed names reading) (run : reading.run b = .ok (g,after)) : g.Placeless := by
  induction reads generalizing b with
  | done placeless =>
      cases run
      exact placeless
  | fail => cases run
  | @get α inst name default names next later ih =>
      obtain ⟨typed,_,run⟩ := getRun.mp run
      exact ih typed run
  | @optional α inst name names next later ih =>
      cases found : b.supplied? name with
      | none =>
          rw [optionalAbsent found] at run
          exact ih none run
      | some value =>
          rw [optionalPresent found] at run
          obtain ⟨typed,_,run⟩ := getRun.mp run
          exact ih (some typed) run

theorem keptValue {names : List String} {reading : Reading Generator}
    (reads : ReadsFixed names reading) (other : name ∉ names)
    (run : reading.run b = .ok (g,after)) : after.declared.get? name = b.declared.get? name := by
  refine runInvariant reads (fun a => a.get? name = b.declared.get? name) ?_ rfl run
  intro a key member value same
  have apart : name ≠ key := by
    rintro rfl
    exact other member
  rw [Arguments.get?_insert_of_ne a value apart, same]

theorem usedAgain {b' : Binder} (again : b'.supplied.get? name = some (used name default b)) :
    used name default b' = used name default b := by
  have whole : used name default b' =
      ((some (used name default b)).filter fun value => !value.isNull).getD default := by
    rw [← again]
    rfl
  rw [whole]
  cases null : (used name default b).isNull with
  | false => simp [Option.filter, null]
  | true =>
      cases found : b.supplied? name with
      | none =>
          have same : used name default b = default := by rw [used, found]; rfl
          rw [same] at null ⊢
          simp [Option.filter, null]
      | some value =>
          have same : used name default b = value := by rw [used, found]; rfl
          have kept := (Option.filter_eq_some_iff.mp found).2
          rw [← same, null] at kept
          cases kept

/- The step of a second reading: a name that was read from one binder is read from another one that is
supplied with what was declared in the end. -/
theorem getAgain {names : List String} {next : α → Reading Generator} {b' : Binder}
    (fresh : name ∉ names) (later : ∀ a, ReadsFixed names (next a))
    (run : ((get name default : Reading α) >>= next).run b = .ok (g,after))
    (supplied : b'.supplied = after.declared) :
    ∃ typed, (next typed).run (b.declare name (used name default b)) = .ok (g,after) ∧
      after.declared.get? name = some (used name default b) ∧
      ∀ after', (next typed).run (b'.declare name (used name default b)) = .ok (g,after') →
        ((get name default : Reading α) >>= next).run b' = .ok (g,after') := by
  obtain ⟨typed,read,run⟩ := getRun.mp run
  have value : after.declared.get? name = some (used name default b) := by
    rw [keptValue (later typed) fresh run]
    exact Arguments.get?_insert_self _ _ _
  have again : used name default b' = used name default b := usedAgain (by rw [supplied, value])
  refine ⟨typed,run,value,fun after' run' => getRun.mpr ⟨typed,?_,?_⟩⟩
  · rw [again, read]
  · rw [again, run']

theorem usedPresent {value : Value} (present : b.supplied? name = some value) :
    used name default b = value := by
  rw [used, present]
  rfl

theorem presentAgain {b' : Binder} {value : Value} (present : b.supplied? name = some value)
    (again : b'.supplied.get? name = some value) : b'.supplied? name = some value := by
  have kept := (Option.filter_eq_some_iff.mp present).2
  exact Option.filter_eq_some_iff.mpr ⟨again,kept⟩

theorem absentAgain {b' : Binder} (again : b'.supplied.get? name = none) :
    b'.supplied? name = none := by
  rw [Binder.supplied?, again]
  rfl

theorem absentAfter {names : List String} (distinct : (name :: names).Nodup)
    (absent : ∀ key ∈ name :: names, b.declared.get? key = none) (value : Value) :
    ∀ key ∈ names, (b.declare name value).declared.get? key = none := by
  intro key member
  have apart : key ≠ name := by
    rintro rfl
    exact (List.nodup_cons.mp distinct).1 member
  exact (Arguments.get?_insert_of_ne _ _ apart).trans (absent key (List.mem_cons_of_mem _ member))

theorem readAgain {names : List String} {reading : Reading Generator}
    (reads : ReadsFixed names reading) (distinct : names.Nodup)
    (run : reading.run b = .ok (g,after)) {b' : Binder} (same : b'.declared = b.declared)
    (supplied : b'.supplied = after.declared)
    (absent : ∀ name ∈ names, b.declared.get? name = none) :
    ∃ after', reading.run b' = .ok (g,after') ∧ after'.declared = after.declared := by
  -- both readings have declared the same so far, and the second finds what the first declared later
  induction reads generalizing b b' with
  | done =>
      cases run
      exact ⟨b',rfl,same⟩
  | fail => cases run
  | @get α inst name default names next later ih =>
      obtain ⟨fresh,others⟩ := List.nodup_cons.mp distinct
      obtain ⟨typed,run,_,again⟩ := getAgain fresh later run supplied
      have declared : (b'.declare name (used name default b)).declared =
          (b.declare name (used name default b)).declared := by rw [Binder.declare, same]; rfl
      obtain ⟨after',run',same'⟩ := ih typed others run declared supplied
        (absentAfter distinct absent _)
      exact ⟨after',again after' run',same'⟩
  | @optional α inst name names next later ih =>
      obtain ⟨fresh,others⟩ := List.nodup_cons.mp distinct
      cases found : b.supplied? name with
      | none =>
          rw [optionalAbsent found] at run
          have missing : after.declared.get? name = none := by
            rw [keptValue (later none) fresh run, absent name List.mem_cons_self]
          have found' : b'.supplied? name = none := absentAgain (by rw [supplied, missing])
          obtain ⟨after',run',same'⟩ := ih none others run same supplied
            fun key member => absent key (List.mem_cons_of_mem _ member)
          exact ⟨after',by rw [optionalAbsent found', run'],same'⟩
      | some value =>
          rw [optionalPresent found] at run
          obtain ⟨typed,run,kept,again⟩ := getAgain fresh (fun a => later (some a)) run supplied
          rw [usedPresent found] at run kept again
          have found' : b'.supplied? name = some value := presentAgain found (by rw [supplied, kept])
          have declared : (b'.declare name value).declared = (b.declare name value).declared := by
            rw [Binder.declare, same]
            rfl
          obtain ⟨after',run',same'⟩ := ih (some typed) others run declared supplied
            (absentAfter distinct absent _)
          exact ⟨after',by rw [optionalPresent found', again after' run'],same'⟩

end Reading

namespace Binder

variable {name : String}

theorem startSupplied (command : String) (supplied : Arguments) :
    (ofArguments command supplied).supplied = supplied := by
  unfold ofArguments
  dsimp only
  split <;> rfl

theorem startAbsent {command : String} {supplied : Arguments}
    (absent : (ofArguments command supplied).supplied? headerName = none) :
    (ofArguments command supplied).declared = .empty := by
  rw [supplied?, startSupplied] at absent
  unfold ofArguments
  dsimp only [supplied?]
  rw [absent]

theorem startPresent {command : String} {supplied : Arguments} {value : Value}
    (present : (ofArguments command supplied).supplied? headerName = some value) :
    (ofArguments command supplied).declared = ⟨[(headerName,value)]⟩ := by
  rw [supplied?, startSupplied] at present
  unfold ofArguments
  dsimp only [supplied?]
  rw [present]
  rfl

theorem startDeclared (command : String) (supplied : Arguments) :
    (ofArguments command supplied).declared = .empty ∨
      ∃ value, (ofArguments command supplied).declared = ⟨[(headerName,value)]⟩ := by
  cases found : (ofArguments command supplied).supplied? headerName with
  | none => exact .inl (startAbsent found)
  | some value => exact .inr ⟨value,startPresent found⟩

theorem startDeclare (command : String) (supplied : Arguments) (value : Value) :
    ((ofArguments command supplied).declare headerName value).declared = ⟨[(headerName,value)]⟩ := by
  unfold declare
  dsimp only
  rcases startDeclared command supplied with empty | ⟨other,one⟩
  · rw [empty]
    rfl
  · rw [one]
    simp [Arguments.insert, Entries.insert]

theorem oneGet (value : Value) (other : name ≠ headerName) :
    Arguments.get? ⟨[(headerName,value)]⟩ name = none := by
  simp [Arguments.get?, Entries.get?, Ne.symm other]

theorem startGet (command : String) (supplied : Arguments) (other : name ≠ headerName) :
    (ofArguments command supplied).declared.get? name = none := by
  rcases startDeclared command supplied with empty | ⟨value,one⟩
  · rw [empty]
    rfl
  · rw [one]
    exact oneGet value other

theorem startSame {command : String} {supplied again : Arguments}
    (same : again.get? headerName = (ofArguments command supplied).declared.get? headerName) :
    (ofArguments command again).declared = (ofArguments command supplied).declared := by
  have known : (ofArguments command again).supplied.get? headerName = again.get? headerName := by
    rw [startSupplied]
  cases found : (ofArguments command supplied).supplied? headerName with
  | none =>
      rw [startAbsent found] at same ⊢
      exact startAbsent (Reading.absentAgain (known.trans same))
  | some value =>
      rw [startPresent found] at same ⊢
      have one : Arguments.get? ⟨[(headerName,value)]⟩ headerName = some value := by
        simp [Arguments.get?, Entries.get?]
      exact startPresent (Reading.presentAgain found (known.trans (same.trans one)))

end Binder

namespace Plugin
open Reading Binder

variable {plugin : Plugin} {names : List String} {command : String} {supplied : Arguments}
  {g : Generator} {after : Binder}

theorem headerFirst (fixed : plugin.FixedNames names) (member : headerName ∈ names) :
    ∃ others, names = headerName :: others := by
  have head := fixed.header member
  cases names with
  | nil => cases head
  | cons name others => exact ⟨others,by rw [Option.some.inj head]⟩

/- A reading that reads the header first. The header has its place in front from the start, so that the second
reading declares the same, whether it reads the header anew or finds it there. -/
theorem headerAgain {others : List String} {reading : Reading Generator}
    (reads : ReadsFixed (headerName :: others) reading) (distinct : (headerName :: others).Nodup)
    (run : reading.run (.ofArguments command supplied) = .ok (g,after)) :
    ∃ after', reading.run (.ofArguments command after.declared) = .ok (g,after') ∧
      after'.declared = after.declared := by
  have again : (ofArguments command after.declared).supplied = after.declared := startSupplied _ _
  obtain ⟨fresh,distinct⟩ := List.nodup_cons.mp distinct
  have apart : ∀ key ∈ others, key ≠ headerName := by
    rintro key inside rfl
    exact fresh inside
  have declared (value : Value) :
      ((ofArguments command after.declared).declare headerName value).declared =
        ((ofArguments command supplied).declare headerName value).declared := by
    rw [startDeclare, startDeclare]
  have absent (value : Value) : ∀ key ∈ others,
      ((ofArguments command supplied).declare headerName value).declared.get? key = none := by
    intro key inside
    rw [startDeclare]
    exact oneGet value (apart key inside)
  cases reads with
  | fail => cases run
  | @get α inst _ default _ next later =>
      obtain ⟨typed,run,_,repeats⟩ := getAgain fresh later run again
      obtain ⟨after',run',same⟩ := readAgain (later typed) distinct run (declared _) again (absent _)
      exact ⟨after',repeats after' run',same⟩
  | @optional α inst _ _ next later =>
      cases found : (ofArguments command supplied).supplied? headerName with
      | none =>
          rw [optionalAbsent found] at run
          have missing : after.declared.get? headerName = none := by
            rw [keptValue (later none) fresh run, startAbsent found]
            rfl
          have found' : (ofArguments command after.declared).supplied? headerName = none :=
            absentAgain (by rw [again, missing])
          obtain ⟨after',run',same⟩ := readAgain (later none) distinct run
            ((startAbsent found').trans (startAbsent found).symm) again
            fun key inside => startGet command supplied (apart key inside)
          exact ⟨after',by rw [optionalAbsent found', run'],same⟩
      | some value =>
          rw [optionalPresent found] at run
          obtain ⟨typed,run,kept,repeats⟩ := getAgain fresh (fun a => later (some a)) run again
          rw [usedPresent found] at run kept repeats
          have found' : (ofArguments command after.declared).supplied? headerName = some value :=
            presentAgain found (by rw [again, kept])
          obtain ⟨after',run',same⟩ := readAgain (later (some typed)) distinct run (declared value)
            again (absent value)
          exact ⟨after',by rw [optionalPresent found', repeats after' run'],same⟩

theorem bindAgain (fixed : plugin.FixedNames names)
    (run : plugin.bind.run (.ofArguments command supplied) = .ok (g,after)) :
    ∃ after', plugin.bind.run (.ofArguments command after.declared) = .ok (g,after') ∧
      after'.declared = after.declared := by
  by_cases member : headerName ∈ names
  · obtain ⟨others,rfl⟩ := headerFirst fixed member
    exact headerAgain fixed.reads fixed.distinct run
  · refine readAgain fixed.reads fixed.distinct run (startSame ?_) (startSupplied _ _)
      fun key inside => ?_
    · exact keptValue fixed.reads member run
    · refine startGet command supplied ?_
      rintro rfl
      exact member inside

theorem headerNamed : IsName headerName := ⟨'h',"eader".toList,rfl,by decide,List.all_eq_true.mp (by decide)⟩

theorem textNamed : IsName "text" := ⟨'t',"ext".toList,rfl,by decide,List.all_eq_true.mp (by decide)⟩

theorem boundNamed (fixed : plugin.FixedNames names)
    (run : plugin.bind.run (.ofArguments command supplied) = .ok (g,after)) :
    (∀ name ∈ after.declared.names, IsName name) ∧ after.declared.names.Nodup := by
  refine runInvariant fixed.reads (fun a => (∀ name ∈ a.names, IsName name) ∧ a.names.Nodup)
    ?_ ?_ run
  · rintro a name inside value ⟨named,distinct⟩
    refine ⟨?_,Entries.insertNodup distinct⟩
    intro key member
    have member' : key ∈ Entries.names (Entries.insert name value a.entries) := member
    rw [Entries.insertNames] at member'
    split at member'
    · exact named key member'
    · rcases List.mem_append.mp member' with old | new
      · exact named key old
      · rw [List.mem_singleton.mp new]
        exact fixed.named name inside
  · rcases startDeclared command supplied with empty | ⟨value,one⟩
    · rw [empty]
      exact ⟨by simp [Arguments.empty, Arguments.names],by simp [Arguments.empty, Arguments.names]⟩
    · rw [one]
      simp [Arguments.names, headerNamed]

def echo (command : String) : Plugin where
  info := ⟨command,"echo",[]⟩
  bind := do
    let text : String ← Reading.get "text" (.string "hello")
    return fun _ => return text

theorem echoFixed (command : String) : (echo command).FixedNames ["text"] where
  reads := .get fun _ => .done fun _ _ => rfl
  distinct := by simp
  named name member := by
    rw [List.mem_singleton.mp member]
    exact textNamed
  header member := by
    rw [List.mem_singleton] at member
    exact absurd member (by decide)

end Plugin

end DocBlocks
