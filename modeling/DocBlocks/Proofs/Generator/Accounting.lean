import DocBlocks.Proofs.Generator.Rereading

/-! Reads on one binder, which stays when a read fails and serves the next one. A failing read declares
nothing, and what was declared is accounted for by the supplied arguments and by the defaults of the
reads that went well. -/
namespace DocBlocks

def Reading.leaves {β : Type} (b : Binder) : Except Error (β × Binder) → Except Error β × Binder
  | .ok (result,after) => (.ok result,after)
  | .error e => (.error e,b)

abbrev Attempt := ExceptT Error (StateM Binder)

namespace Attempt

variable {α : Type} [OfValue α]

def get (name : String) (default : Value) : Attempt α := do
  let value := ((← getThe Binder).supplied? name).getD default
  match (OfValue.ofValue? value : Option α) with
  | none => throw (.argumentType name (OfValue.expected α) value.typeName)
  | some typed =>
      modify (·.declare name value)
      return typed

def optional (name : String) : Attempt (Option α) := do
  if ((← getThe Binder).supplied? name).isSome then return some (← get name .null)
  else return none

theorem bindTried {β γ : Type} (x : Attempt β) (f : β → Attempt γ) (b : Binder) :
    (x >>= f).run.run b = match x.run.run b with
      | (.ok a,after) => (f a).run.run after
      | (.error e,after) => (.error e,after) := by
  change (match x.run.run b with | (result,after) => ExceptT.bindCont f result after) = _
  rcases x.run.run b with ⟨result,after⟩
  cases result <;> rfl

theorem binderTried (b : Binder) : (getThe Binder : Attempt Binder).run.run b = (.ok b,b) := rfl

end Attempt

namespace Read

def attempt : (r : Read) → Attempt r.Result
  | get _ name default => Attempt.get name default
  | optional _ name => Attempt.optional name
  | header default => Attempt.get headerName (.string default)

def default? (name : String) : Read → Option Value
  | get _ key default => if key = name then some default else none
  | optional _ _ => none
  | header default => if headerName = name then some (.string default) else none

end Read

structure Attempted where
  read : Read
  before : Binder
  result : Except Error read.Result
  after : Binder

namespace Binder

def attempt (b : Binder) (r : Read) : Attempted :=
  ⟨r,b,(r.attempt.run.run b).1,(r.attempt.run.run b).2⟩

def attempts (b : Binder) : List Read → List Attempted
  | [] => []
  | r :: rest => b.attempt r :: (b.attempt r).after.attempts rest

def after (b : Binder) (reads : List Read) : Binder :=
  reads.foldl (fun b r => (b.attempt r).after) b

end Binder

namespace Attempted

def lastDefault (name : String) (steps : List Attempted) : Option Value :=
  (steps.filterMap fun step => if step.result.isOk then step.read.default? name else none).getLast?

/-- Holds of the value that a name is declared with after some reads: the supplied one, unless there is
none or a null one, and otherwise the default of the last read that went well. -/
def Accounts (supplied : Arguments) (steps : List Attempted) (name : String) (value : Value) : Prop :=
  supplied.filled? name = some value ∧
      (name = headerName ∨ ∃ step ∈ steps, step.read.name = name ∧ step.result.isOk = true) ∨
    supplied.filled? name = none ∧ lastDefault name steps = some value

structure Atomic (supplied : Arguments) (step : Attempted) : Prop where
  performed : (step.result,step.after) =
    Reading.leaves step.before (step.read.perform.run step.before)
  failed : ∀ e, step.result = .error e → step.after.declared = step.before.declared
  absent : ∀ (α : Type) [OfValue α] (name : String), step.read = .optional α name →
    supplied.filled? name = none →
    step.result.isOk = true ∧ step.after.declared = step.before.declared

structure Accounted (supplied : Arguments) (steps : List Attempted) (b : Binder) : Prop where
  distinct : b.declared.names.Nodup
  declared : ∀ name value,
    (name,value) ∈ b.declared.entries ↔ Accounts supplied steps name value
  unused : b.unused = supplied.names.filter fun name => name ∉ b.declared.names

end Attempted

namespace Read
open Attempted

variable {b : Binder} {r : Read} {α : Type} [OfValue α] {name : String} {default : Value}

theorem attemptGet : (Attempt.get name default : Attempt α).run.run b =
    Reading.leaves b ((Reading.get name default : Reading α).run b) := by
  change _ = Reading.leaves b (Reading.get name default b)
  rw [Attempt.get, Attempt.bindTried, Attempt.binderTried, Reading.get]
  dsimp only
  cases (OfValue.ofValue? ((b.supplied? name).getD default) : Option α) with
  | none => rfl
  | some typed => rfl

theorem attemptOptional : (Attempt.optional name : Attempt (Option α)).run.run b =
    Reading.leaves b ((Reading.optional name : Reading (Option α)).run b) := by
  change _ = Reading.leaves b (Reading.optional name b)
  rw [Attempt.optional, Attempt.bindTried, Attempt.binderTried, Reading.optional]
  dsimp only
  cases b.supplied? name with
  | none => rfl
  | some value =>
      have mapped : ((some ·) <$> Reading.get name .null : Reading (Option α)) b =
          ((Reading.get name .null : Reading α).run b >>= fun p => .ok (some p.1,p.2)) := rfl
      rw [Option.isSome_some, if_pos rfl, Attempt.bindTried, attemptGet]
      dsimp only
      rw [mapped]
      cases (Reading.get name .null : Reading α).run b with
      | error e => rfl
      | ok typed => rfl

theorem attemptPerform (r : Read) (b : Binder) :
    r.attempt.run.run b = Reading.leaves b (r.perform.run b) := by
  cases r with
  | get α name default => exact attemptGet
  | optional α name => exact attemptOptional
  | header default => exact attemptGet

theorem givesPairs {supplied : Arguments} {result : r.Result} {pairs : List (String × Value)}
    (given : r.Gives supplied result pairs) :
    pairs = [] ∧ supplied.filled? r.name = none ∧ r.default? r.name = none ∨
      ∃ value, pairs = [(r.name,value)] ∧ (supplied.filled? r.name = some value ∨
        supplied.filled? r.name = none ∧ r.default? r.name = some value) := by
  have typed {α : Type} [OfValue α] {name : String} {default : Value} {result : α}
      (given : Typed name ((supplied.filled? name).getD default) result pairs) :
      ∃ value, pairs = [(name,value)] ∧ (supplied.filled? name = some value ∨
        supplied.filled? name = none ∧ some default = some value) := by
    refine ⟨_,given.2,?_⟩
    cases supplied.filled? name with
    | none => exact .inr ⟨rfl,rfl⟩
    | some value => exact .inl rfl
  cases r with
  | get α name default =>
      rw [default?, Read.name, if_pos rfl]
      exact .inr (typed given)
  | header default =>
      rw [default?, Read.name, if_pos rfl]
      exact .inr (typed given)
  | optional α name =>
      rcases given with ⟨none,_,rfl⟩ | ⟨value,_,found,_,_,rfl⟩
      · exact .inl ⟨rfl,none,rfl⟩
      · exact .inr ⟨value,rfl,.inl found⟩

theorem defaultOther (other : r.name ≠ name) : r.default? name = none := by
  cases r with
  | get α key default => exact if_neg other
  | optional α key => rfl
  | header default => exact if_neg other

end Read

namespace Attempted
open Read (declareAll)

variable {b : Binder} {r : Read} {supplied : Arguments} {steps : List Attempted}

theorem attemptCases (b : Binder) (r : Read) :
    (∃ e, (b.attempt r).result = .error e ∧ (b.attempt r).after = b) ∨
      ∃ result pairs, (b.attempt r).result = .ok result ∧ r.Gives b.supplied result pairs ∧
        (b.attempt r).after = declareAll b pairs := by
  have tried := Read.attemptPerform r b
  cases performed : r.perform.run b with
  | error e =>
      rw [performed] at tried
      exact .inl ⟨e,congrArg Prod.fst tried,congrArg Prod.snd tried⟩
  | ok given =>
      obtain ⟨result,after⟩ := given
      rw [performed] at tried
      obtain ⟨pairs,gives,rfl⟩ := Read.performGives.mp performed
      exact .inr ⟨result,pairs,congrArg Prod.fst tried,gives,congrArg Prod.snd tried⟩

theorem attemptSupplied (b : Binder) (r : Read) : (b.attempt r).after.supplied = b.supplied := by
  rcases attemptCases b r with ⟨_,_,same⟩ | ⟨_,_,_,_,same⟩
  · rw [same]
  · rw [same]
    rfl

theorem attemptAtomic (b : Binder) (r : Read) : Atomic b.supplied (b.attempt r) := by
  refine ⟨Read.attemptPerform r b,?_,?_⟩
  · intro e failed
    rcases attemptCases b r with ⟨_,_,same⟩ | ⟨_,_,succeeded,_⟩
    · rw [same]
      rfl
    · cases succeeded.symm.trans failed
  · intro α _ name optional absent
    change r = _ at optional
    subst optional
    have read : (Read.optional α name).perform.run b = .ok (none,b) := by
      change Reading.optional name b = _
      rw [Reading.optional, show b.supplied? name = none from absent]
    have tried := Read.attemptPerform (.optional α name) b
    rw [read] at tried
    refine ⟨?_,congrArg (fun left => left.2.declared) tried⟩
    rw [show (b.attempt (.optional α name)).result = .ok none from congrArg Prod.fst tried]
    rfl

theorem lastStep (name : String) (steps : List Attempted) (step : Attempted) :
    lastDefault name (steps ++ [step]) =
      (if step.result.isOk then step.read.default? name else none).or (lastDefault name steps) := by
  rw [lastDefault, List.filterMap_append, List.getLast?_append, lastDefault]
  cases found : if step.result.isOk then step.read.default? name else none <;> simp [found]

theorem accountsKept {step : Attempted} {name : String} (value : Value)
    (unread : supplied.filled? name ≠ none → step.read.name = name → step.result.isOk = false)
    (plain : step.result.isOk = true → step.read.default? name = none) :
    Accounts supplied (steps ++ [step]) name value ↔ Accounts supplied steps name value := by
  have same : lastDefault name (steps ++ [step]) = lastDefault name steps := by
    rw [lastStep]
    split
    · rename_i succeeded
      rw [plain succeeded, Option.none_or]
    · rw [Option.none_or]
  unfold Accounts
  rw [same]
  refine or_congr_left (and_congr_right fun filled => or_congr_right ?_)
  constructor
  · rintro ⟨other,member,named,succeeded⟩
    rcases List.mem_append.mp member with early | last
    · exact ⟨other,early,named,succeeded⟩
    · cases List.mem_singleton.mp last
      rw [unread (by rw [filled]; nofun) named] at succeeded
      cases succeeded
  · rintro ⟨other,early,well⟩
    exact ⟨other,List.mem_append_left _ early,well⟩

theorem accountsOwn {step : Attempted} {declared : Value} (value : Value)
    (succeeded : step.result.isOk = true)
    (used : supplied.filled? step.read.name = some declared ∨
      supplied.filled? step.read.name = none ∧ step.read.default? step.read.name = some declared) :
    Accounts supplied (steps ++ [step]) step.read.name value ↔ value = declared := by
  rcases used with filled | ⟨none,default⟩
  · have read : ∃ other ∈ steps ++ [step], other.read.name = step.read.name ∧
        other.result.isOk = true :=
      ⟨step,List.mem_append_right _ (List.mem_singleton_self step),rfl,succeeded⟩
    constructor
    · rintro (⟨same,_⟩ | ⟨none,_⟩)
      · exact Option.some.inj (same.symm.trans filled)
      · cases none.symm.trans filled
    · rintro rfl
      exact .inl ⟨filled,.inr read⟩
  · have last : lastDefault step.read.name (steps ++ [step]) = some declared := by
      rw [lastStep, if_pos succeeded, default]
      rfl
    constructor
    · rintro (⟨filled,_⟩ | ⟨_,same⟩)
      · cases none.symm.trans filled
      · exact Option.some.inj (same.symm.trans last)
    · rintro rfl
      exact .inr ⟨none,last⟩

theorem memberGets {pairs : List (String × Value)} (distinct : (Entries.names pairs).Nodup)
    (name : String) (value : Value) :
    (name,value) ∈ pairs ↔ Entries.get? name pairs = some value :=
  ⟨Entries.memberGet distinct,Entries.getMember⟩

theorem unusedNames (b : Binder) :
    b.unused = b.supplied.names.filter fun name => name ∉ b.declared.names := by
  refine List.filter_congr fun name _ => ?_
  have listed : b.declared.contains name = true ↔ name ∈ b.declared.names := by
    rw [Arguments.contains, Option.isSome_iff_ne_none, ne_eq, Arguments.get?, Entries.getNone,
      not_not]
    rfl
  cases found : b.declared.contains name <;> simp_all

theorem accountedStep (accounted : Accounted supplied steps b) (same : b.supplied = supplied)
    (r : Read) : Accounted supplied (steps ++ [b.attempt r]) (b.attempt r).after := by
  have unused := unusedNames (b.attempt r).after
  rw [attemptSupplied, same] at unused
  -- what a failing read or an absent option leaves is accounted for as before
  rcases attemptCases b r with ⟨e,failed,stays⟩ | ⟨result,pairs,succeeded,given,after⟩
  · have silent : (b.attempt r).result.isOk = false := by rw [failed]; rfl
    refine ⟨?_,?_,unused⟩
    · rw [stays]
      exact accounted.distinct
    · intro name value
      rw [stays, accounted.declared,
        accountsKept value (fun _ _ => silent) (fun succeeded => by rw [silent] at succeeded; cases succeeded)]
  · have well : (b.attempt r).result.isOk = true := by rw [succeeded]; rfl
    rw [same] at given
    -- a read that goes well declares nothing, or one value under its own name
    rcases Read.givesPairs given with ⟨rfl,none,plain⟩ | ⟨declared,rfl,used⟩
    · refine ⟨?_,?_,unused⟩
      · rw [after]
        exact accounted.distinct
      · intro name value
        have unread : supplied.filled? name ≠ .none → r.name = name →
            (b.attempt r).result.isOk = false := by
          rintro filled rfl
          exact absurd none filled
        have quiet : r.default? name = .none := by
          by_cases own : r.name = name
          · rw [← own, plain]
          · exact Read.defaultOther own
        rw [accountsKept value unread fun _ => quiet, ← accounted.declared, after]
        rfl
    · have distinct : (Entries.names (Entries.insert r.name declared b.declared.entries)).Nodup :=
        Entries.insertNodup accounted.distinct
      have entries : (b.attempt r).after.declared.entries =
          Entries.insert r.name declared b.declared.entries := by
        rw [after]
        rfl
      refine ⟨?_,?_,unused⟩
      · rw [Arguments.names, entries]
        exact distinct
      · intro name value
        rw [entries, memberGets distinct]
        by_cases own : name = r.name
        · subst own
          rw [Entries.get?_insert_self, Option.some.injEq, eq_comm]
          exact (accountsOwn value well used).symm
        · rw [Entries.get?_insert_of_ne _ _ own, ← memberGets accounted.distinct,
            accounted.declared, accountsKept value fun _ named => absurd named.symm own]
          exact fun _ => Read.defaultOther (Ne.symm own)

theorem startAccounted (command : String) (supplied : Arguments) :
    Accounted supplied [] (.ofArguments command supplied) := by
  have unused := unusedNames (.ofArguments command supplied)
  rw [Binder.startSupplied] at unused
  have start := Binder.startFilled command supplied headerName
  refine ⟨?_,?_,unused⟩
  · rcases Binder.startDeclared command supplied with empty | ⟨value,one⟩
    · rw [empty]
      exact List.nodup_nil
    · rw [one]
      exact List.nodup_singleton headerName
  · intro name value
    have first : Accounts supplied [] name value ↔
        supplied.filled? headerName = some value ∧ name = headerName := by
      constructor
      · rintro (⟨filled,rfl | ⟨_,none,_⟩⟩ | ⟨_,none⟩)
        · exact ⟨filled,rfl⟩
        · cases none
        · cases none
      · rintro ⟨filled,rfl⟩
        exact .inl ⟨filled,.inl rfl⟩
    rw [first]
    cases found : supplied.filled? headerName with
    | none =>
        rw [Binder.startAbsent (start.trans found)]
        simp [Arguments.empty]
    | some header =>
        rw [Binder.startPresent (start.trans found)]
        simp [and_comm, eq_comm]

theorem attemptsAccounted (accounted : Accounted supplied steps b) (same : b.supplied = supplied)
    (reads : List Read) : (∀ step ∈ b.attempts reads, Atomic supplied step) ∧
      Accounted supplied (steps ++ b.attempts reads) (b.after reads) := by
  induction reads generalizing b steps with
  | nil =>
      rw [Binder.attempts, List.append_nil]
      exact ⟨nofun,accounted⟩
  | cons r rest ih =>
      obtain ⟨atomic,others⟩ :=
        ih (accountedStep accounted same r) ((attemptSupplied b r).trans same)
      refine ⟨List.forall_mem_cons.mpr ⟨same ▸ attemptAtomic b r,atomic⟩,?_⟩
      rwa [List.append_assoc] at others

/- Along any reads, failing ones included, a failing read declares nothing, and what is declared and
what is left unused account for every supplied argument. -/
theorem readsAccounted (command : String) (supplied : Arguments) (reads : List Read) :
    (∀ step ∈ (Binder.ofArguments command supplied).attempts reads, Atomic supplied step) ∧
      Accounted supplied ((Binder.ofArguments command supplied).attempts reads)
        ((Binder.ofArguments command supplied).after reads) :=
  attemptsAccounted (startAccounted command supplied) (Binder.startSupplied command supplied) reads

end Attempted

end DocBlocks
