import DocBlocks.Proofs.Generator.Binding

/-! Arguments read again from what was declared. A sequence of reads declares the pairs it used, behind
a header that was supplied; supplied with these it reads the same, and declares them again. Only a header
that was declared behind others comes to stand in front, and then stays there. -/
namespace DocBlocks

inductive Read : Type 1 where
  | get (α : Type) [OfValue α] (name : String) (default : Value)
  | optional (α : Type) [OfValue α] (name : String)
  | header (default : String)

namespace Read

def name : Read → String
  | get _ name _ => name
  | optional _ name => name
  | header _ => headerName

abbrev Result : Read → Type
  | get α _ _ => α
  | optional α _ => Option α
  | header _ => String

def perform : (r : Read) → Reading r.Result
  | get α name default => (Reading.get name default : Reading α)
  | optional α name => (Reading.optional name : Reading (Option α))
  | header default => Reading.header default

abbrev Results : List Read → Type
  | [] => Unit
  | r :: rest => r.Result × Results rest

def performAll : (reads : List Read) → Reading (Results reads)
  | [] => pure ()
  | r :: rest => do
      let result ← r.perform
      let later ← performAll rest
      return (result,later)

end Read

namespace Arguments

def filled? (arguments : Arguments) (name : String) : Option Value :=
  (arguments.get? name).filter fun value => !value.isNull

end Arguments

theorem Binder.startFilled (command : String) (supplied : Arguments) (name : String) :
    (ofArguments command supplied).supplied? name = supplied.filled? name := by
  rw [supplied?, startSupplied]
  rfl

namespace Entries

variable {name key : String} {value : Value} {pairs first rest : List (String × Value)}

def insertAll (pairs entries : List (String × Value)) : List (String × Value) :=
  pairs.foldl (fun entries pair => insert pair.1 pair.2 entries) entries

theorem getNone : get? name pairs = none ↔ name ∉ names pairs := by
  induction pairs with
  | nil => simp [get?, names]
  | cons pair rest ih =>
      obtain ⟨key,old⟩ := pair
      rw [get?, names, List.map_cons, List.mem_cons, not_or, ← names]
      split
      · rename_i same
        simp [same]
      · rename_i other
        rw [ih]
        simp [Ne.symm other]

theorem getAppend : get? name (first ++ rest) = (get? name first).or (get? name rest) := by
  induction first with
  | nil => rfl
  | cons pair first ih =>
      obtain ⟨key,old⟩ := pair
      rw [List.cons_append, get?, get?]
      split
      · rfl
      · exact ih

theorem getOthers (apart : name ≠ key) : get? name (pairs.filter (·.1 != key)) = get? name pairs := by
  induction pairs with
  | nil => rfl
  | cons pair rest ih =>
      obtain ⟨first,old⟩ := pair
      by_cases gone : first = key
      · subst gone
        rw [List.filter_cons_of_neg (by simp), ih, get?, if_neg (Ne.symm apart)]
      · rw [List.filter_cons_of_pos (by simp [gone]), get?, get?, ih]

theorem memberGet (distinct : (names pairs).Nodup) (member : (name,value) ∈ pairs) :
    get? name pairs = some value := by
  induction pairs with
  | nil => cases member
  | cons pair rest ih =>
      obtain ⟨key,old⟩ := pair
      obtain ⟨fresh,distinct⟩ := List.nodup_cons.mp distinct
      rw [get?]
      rcases List.mem_cons.mp member with here | later
      · cases here
        rw [if_pos rfl]
      · have inside : name ∈ names rest := List.mem_map_of_mem later
        rw [if_neg ?_, ih distinct later]
        rintro rfl
        exact fresh inside

theorem pairApart (distinct : (names (first ++ (key,value) :: rest)).Nodup) :
    (first ++ (key,value) :: rest).filter (·.1 == key) = [(key,value)] ∧
      (first ++ (key,value) :: rest).filter (·.1 != key) = first ++ rest := by
  rw [names, List.map_append, List.map_cons, List.nodup_middle] at distinct
  have fresh := (List.nodup_cons.mp distinct).1
  rw [← List.map_append] at fresh
  have others : ∀ pair ∈ first ++ rest, pair.1 ≠ key := by
    intro pair member same
    exact fresh (List.mem_map.mpr ⟨pair,member,same⟩)
  have none (part : List (String × Value)) (inside : ∀ pair ∈ part, pair ∈ first ++ rest) :
      part.filter (·.1 == key) = [] ∧ part.filter (·.1 != key) = part := by
    refine ⟨List.filter_eq_nil_iff.mpr fun pair member => ?_,List.filter_eq_self.mpr fun pair member => ?_⟩
    · simpa using others pair (inside pair member)
    · simpa using others pair (inside pair member)
  obtain ⟨before,before'⟩ := none first fun pair => List.mem_append_left _
  obtain ⟨later,later'⟩ := none rest fun pair => List.mem_append_right _
  constructor
  · rw [List.filter_append, before, List.filter_cons_of_pos (by simp), later, List.nil_append]
  · rw [List.filter_append, before', List.filter_cons_of_neg (by simp), later']

theorem insertAllNew {entries : List (String × Value)}
    (distinct : (names (entries ++ pairs)).Nodup) : insertAll pairs entries = entries ++ pairs := by
  induction pairs generalizing entries with
  | nil => exact (List.append_nil _).symm
  | cons pair rest ih =>
      obtain ⟨key,value⟩ := pair
      have fresh : key ∉ names entries := by
        intro member
        rw [names, List.map_append] at distinct
        exact (List.nodup_append.mp distinct).2.2 key member key List.mem_cons_self rfl
      change insertAll rest (insert key value entries) = _
      rw [insertNew value fresh, ih (by simpa using distinct), List.append_assoc]
      rfl

theorem insertAllFirst (same : ∀ other, (key,other) ∈ pairs → other = value)
    (entries : List (String × Value)) :
    insertAll pairs ((key,value) :: entries) =
      (key,value) :: insertAll (pairs.filter (·.1 != key)) entries := by
  induction pairs generalizing entries with
  | nil => rfl
  | cons pair rest ih =>
      obtain ⟨first,other⟩ := pair
      have later := ih fun other member => same other (List.mem_cons_of_mem _ member)
      change insertAll rest (insert first other ((key,value) :: entries)) = _
      by_cases here : key = first
      · subst here
        rw [insert, if_pos rfl, same other List.mem_cons_self, later,
          List.filter_cons_of_neg (by simp)]
      · rw [insert, if_neg here, later, List.filter_cons_of_pos (by simp [Ne.symm here])]
        rfl

end Entries

namespace Read
open Entries (names insertAll)

def Typed {α : Type} [OfValue α] (name : String) (value : Value) (result : α)
    (pairs : List (String × Value)) : Prop :=
  OfValue.ofValue? value = some result ∧ pairs = [(name,value)]

def Gives (supplied : Arguments) : (r : Read) → r.Result → List (String × Value) → Prop
  | get _ name default, result, pairs =>
      Typed name ((supplied.filled? name).getD default) result pairs
  | optional _ name, result, pairs =>
      supplied.filled? name = none ∧ result = none ∧ pairs = [] ∨
        ∃ value typed, supplied.filled? name = some value ∧ result = some typed ∧
          Typed name value typed pairs
  | header default, result, pairs =>
      Typed headerName ((supplied.filled? headerName).getD (.string default)) result pairs

inductive Given (supplied : Arguments) :
    (reads : List Read) → Results reads → List (String × Value) → Prop where
  | nil : Given supplied [] () []
  | cons {r : Read} {rest : List Read} {result : r.Result} {later : Results rest}
      {first others : List (String × Value)} (here : r.Gives supplied result first)
      (there : Given supplied rest later others) :
      Given supplied (r :: rest) (result,later) (first ++ others)

def declareAll (b : Binder) (pairs : List (String × Value)) : Binder :=
  { b with declared := ⟨insertAll pairs b.declared.entries⟩ }

variable {supplied : Arguments} {b after : Binder} {r : Read} {reads : List Read}
  {pairs : List (String × Value)}

theorem getGives {α : Type} [OfValue α] {name : String} {default : Value} {result : α} :
    (Reading.get name default : Reading α).run b = .ok (result,after) ↔ ∃ pairs,
      Typed name ((b.supplied.filled? name).getD default) result pairs ∧ after = declareAll b pairs := by
  have supplied : b.supplied? name = b.supplied.filled? name := rfl
  change Reading.get name default b = _ ↔ _
  rw [Reading.get, supplied]
  unfold Typed
  generalize (b.supplied.filled? name).getD default = value
  cases (OfValue.ofValue? value : Option α) with
  | none => simp
  | some typed =>
      constructor
      · intro run
        cases run
        exact ⟨_,⟨rfl,rfl⟩,rfl⟩
      · rintro ⟨_,⟨same,rfl⟩,rfl⟩
        cases same
        rfl

theorem optionalGives {α : Type} [OfValue α] {name : String} {result : Option α} :
    (Reading.optional name : Reading (Option α)).run b = .ok (result,after) ↔ ∃ pairs,
      Gives b.supplied (.optional α name) result pairs ∧ after = declareAll b pairs := by
  have supplied : b.supplied? name = b.supplied.filled? name := rfl
  change Reading.optional name b = _ ↔ _
  rw [Reading.optional, supplied]
  unfold Gives
  cases found : b.supplied.filled? name with
  | none =>
      constructor
      · intro run
        cases run
        exact ⟨[],.inl ⟨found,rfl,rfl⟩,rfl⟩
      · rintro ⟨_,⟨_,rfl,rfl⟩ | ⟨_,_,same,_⟩,rfl⟩
        · rfl
        · rw [found] at same
          cases same
  | some value =>
      change ((Reading.get name .null : Reading α).run b >>= fun p => .ok (some p.1,p.2)) = _ ↔ _
      rw [okBind]
      constructor
      · rintro ⟨⟨typed,_⟩,read,same⟩
        cases same
        obtain ⟨pairs,given,rfl⟩ := getGives.mp read
        rw [found] at given
        exact ⟨pairs,.inr ⟨value,typed,found,rfl,given⟩,rfl⟩
      · rintro ⟨pairs,⟨none,_⟩ | ⟨_,typed,same,rfl,given⟩,rfl⟩
        · rw [found] at none
          cases none
        · cases found.symm.trans same
          exact ⟨_,getGives.mpr ⟨pairs,by rw [found]; exact given,rfl⟩,rfl⟩

theorem performGives {result : r.Result} : r.perform.run b = .ok (result,after) ↔
    ∃ pairs, r.Gives b.supplied result pairs ∧ after = declareAll b pairs := by
  cases r with
  | get α name default => exact getGives
  | optional α name => exact optionalGives
  | header default => exact getGives

theorem declareBoth (b : Binder) (first others : List (String × Value)) :
    declareAll (declareAll b first) others = declareAll b (first ++ others) := by
  simp [declareAll, insertAll]

theorem performAllGiven {results : Results reads} : (performAll reads).run b = .ok (results,after) ↔
    ∃ pairs, Given b.supplied reads results pairs ∧ after = declareAll b pairs := by
  induction reads generalizing b after with
  | nil =>
      constructor
      · intro run
        cases run
        exact ⟨[],.nil,rfl⟩
      · rintro ⟨_,given,rfl⟩
        cases given
        rfl
  | cons r rest ih =>
      have whole : (performAll (r :: rest)).run b = r.perform.run b >>= fun p =>
        (performAll rest).run p.2 >>= fun q => .ok ((p.1,q.1),q.2) := rfl
      rw [whole, okBind]
      constructor
      · rintro ⟨⟨result,between⟩,ran,run⟩
        obtain ⟨⟨later,last⟩,ranLater,same⟩ := okBind.mp run
        cases same
        obtain ⟨first,here,rfl⟩ := performGives.mp ran
        obtain ⟨others,there,declared⟩ := ih.mp ranLater
        exact ⟨first ++ others,.cons here there,declared.trans (declareBoth b first others)⟩
      · rintro ⟨_,given,rfl⟩
        cases given with
        | @cons _ _ result later first others here there =>
            refine ⟨(result,declareAll b first),performGives.mpr ⟨first,here,rfl⟩,?_⟩
            refine okBind.mpr ⟨(later,_),ih.mpr ⟨others,there,rfl⟩,?_⟩
            rw [declareBoth]

theorem filledSome {name : String} {value : Value} : supplied.filled? name = some value ↔
    supplied.get? name = some value ∧ value.isNull = false := by
  rw [Arguments.filled?, Option.filter_eq_some_iff, Bool.not_eq_true']

theorem usedAgain {name : String} {default : Value} {declared : Arguments}
    (again : declared.get? name = some ((supplied.filled? name).getD default)) :
    (declared.filled? name).getD default = (supplied.filled? name).getD default :=
  @Reading.usedAgain name default ⟨name,supplied,.empty⟩ ⟨name,declared,.empty⟩ again

theorem ownGet (name : String) (value : Value) : Entries.get? name [(name,value)] = some value := by
  rw [Entries.get?, if_pos rfl]

theorem typedAgain {α : Type} [OfValue α] {name : String} {default : Value} {result : α}
    {declared : Arguments} (given : Typed name ((supplied.filled? name).getD default) result pairs)
    (again : declared.get? name = Entries.get? name pairs) :
    Typed name ((declared.filled? name).getD default) result pairs := by
  obtain ⟨read,rfl⟩ := given
  rw [ownGet] at again
  rw [Typed, usedAgain again]
  exact ⟨read,rfl⟩

theorem givesAgain {result : r.Result} {declared : Arguments} (given : r.Gives supplied result pairs)
    (again : declared.get? r.name = Entries.get? r.name pairs) : r.Gives declared result pairs := by
  cases r with
  | get α name default => exact typedAgain given again
  | header default => exact typedAgain given again
  | optional α name =>
      rcases given with ⟨_,rfl,rfl⟩ | ⟨value,typed,found,rfl,read,rfl⟩
      · refine .inl ⟨?_,rfl,rfl⟩
        rw [Arguments.filled?, show declared.get? name = none from again]
        rfl
      · have kept := again.trans (ownGet name value)
        exact .inr ⟨value,typed,filledSome.mpr ⟨kept,(filledSome.mp found).2⟩,rfl,read,rfl⟩

theorem givesNames {result : r.Result} (given : r.Gives supplied result pairs) :
    (names pairs).Sublist [r.name] := by
  cases r with
  | get α name default =>
      obtain ⟨_,rfl⟩ := given
      exact List.Sublist.refl _
  | header default =>
      obtain ⟨_,rfl⟩ := given
      exact List.Sublist.refl _
  | optional α name =>
      rcases given with ⟨_,_,rfl⟩ | ⟨_,_,_,_,_,rfl⟩
      · exact List.nil_sublist _
      · exact List.Sublist.refl _

theorem givesHeld {result : r.Result} {value : Value} (given : r.Gives supplied result pairs)
    (filled : supplied.filled? r.name = some value) : pairs = [(r.name,value)] := by
  cases r with
  | get α name default =>
      obtain ⟨_,rfl⟩ := given
      rw [show supplied.filled? name = some value from filled]
      rfl
  | header default =>
      obtain ⟨_,rfl⟩ := given
      rw [show supplied.filled? headerName = some value from filled]
      rfl
  | optional α name =>
      rcases given with ⟨none,_⟩ | ⟨_,_,found,_,_,rfl⟩
      · cases none.symm.trans filled
      · cases found.symm.trans filled
        rfl

variable {results : Results reads}

theorem givenNames (given : Given supplied reads results pairs) :
    (names pairs).Sublist (reads.map Read.name) := by
  induction given with
  | nil => exact List.Sublist.refl _
  | cons here there ih =>
      rw [names, List.map_append]
      exact (givesNames here).append ih

theorem givenHeld (given : Given supplied reads results pairs) {value : Value} (member : r ∈ reads)
    (filled : supplied.filled? r.name = some value) : (r.name,value) ∈ pairs := by
  induction given with
  | nil => cases member
  | cons here there ih =>
      rcases List.mem_cons.mp member with rfl | later
      · rw [givesHeld here filled]
        exact List.mem_append_left _ (List.mem_singleton_self _)
      · exact List.mem_append_right _ (ih later)

theorem givenAgain {declared : Arguments} (given : Given supplied reads results pairs)
    (distinct : (reads.map Read.name).Nodup)
    (again : ∀ r ∈ reads, declared.get? r.name = Entries.get? r.name pairs) :
    Given declared reads results pairs := by
  induction given with
  | nil => exact .nil
  | @cons r rest result later first others here there ih =>
      obtain ⟨fresh,distinct⟩ := List.nodup_cons.mp distinct
      refine .cons (givesAgain here ?_) (ih distinct fun other member => ?_)
      · have none : Entries.get? r.name others = none :=
          Entries.getNone.mpr fun inside => fresh ((givenNames there).subset inside)
        rw [again r List.mem_cons_self, Entries.getAppend, none, Option.or_none]
      · have none : Entries.get? other.name first = none := by
          refine Entries.getNone.mpr fun inside => fresh ?_
          rw [← List.mem_singleton.mp ((givesNames here).subset inside)]
          exact List.mem_map_of_mem member
        rw [again other (List.mem_cons_of_mem _ member), Entries.getAppend, none, Option.none_or]

def behindHeader (header : Option Value) (pairs : List (String × Value)) : Arguments :=
  match header with
  | some value => ⟨(headerName,value) :: pairs.filter (·.1 != headerName)⟩
  | none => ⟨pairs⟩

theorem declaredPairs (command : String) (given : Given supplied reads results pairs)
    (distinct : (reads.map Read.name).Nodup) :
    (declareAll (.ofArguments command supplied) pairs).declared =
      behindHeader (supplied.filled? headerName) pairs := by
  have distinct := (givenNames given).nodup distinct
  have start := Binder.startFilled command supplied headerName
  rw [declareAll]
  dsimp only
  cases filled : supplied.filled? headerName with
  | none =>
      rw [Binder.startAbsent (start.trans filled)]
      exact congrArg Arguments.mk (Entries.insertAllNew distinct)
  | some value =>
      have same : ∀ other, (headerName,other) ∈ pairs → other = value := by
        intro other member
        have named : headerName ∈ names pairs := List.mem_map_of_mem member
        obtain ⟨r,inside,header⟩ := List.mem_map.mp ((givenNames given).subset named)
        rw [← header] at filled
        have held := givenHeld given inside filled
        rw [header] at held
        exact Option.some.inj ((Entries.memberGet distinct member).symm.trans
          (Entries.memberGet distinct held))
      have others : (names ([] ++ pairs.filter (·.1 != headerName))).Nodup :=
        (List.filter_sublist.map _).nodup distinct
      rw [Binder.startPresent (start.trans filled), Entries.insertAllFirst same,
        Entries.insertAllNew others]
      rfl

theorem performPairs {command : String} (distinct : (reads.map Read.name).Nodup)
    (given : Given supplied reads results pairs) : ∃ after,
    (performAll reads).run (.ofArguments command supplied) = .ok (results,after) ∧
      after.declared = behindHeader (supplied.filled? headerName) pairs := by
  have start := Binder.startSupplied command supplied
  exact ⟨_,performAllGiven.mpr ⟨pairs,by rw [start]; exact given,rfl⟩,
    declaredPairs command given distinct⟩

theorem behindGet {header : Option Value} (distinct : (names pairs).Nodup)
    (held : ∀ value, header = some value → r.name = headerName → (headerName,value) ∈ pairs) :
    (behindHeader header pairs).get? r.name = Entries.get? r.name pairs := by
  cases header with
  | none => rfl
  | some value =>
      change Entries.get? r.name ((headerName,value) :: _) = _
      rw [Entries.get?]
      split
      · rename_i same
        rw [← same, Entries.memberGet distinct (held value rfl same.symm)]
      · rename_i other
        exact Entries.getOthers (Ne.symm other)

theorem behindFilled {value : Value} (filled : value.isNull = false) :
    (behindHeader (some value) pairs).filled? headerName = some value := by
  refine filledSome.mpr ⟨?_,filled⟩
  change Entries.get? headerName ((headerName,value) :: _) = _
  rw [Entries.get?, if_pos rfl]

def LateHeader (supplied declared : Arguments) : Prop :=
  supplied.filled? headerName = none ∧ ∃ value before later, value.isNull = false ∧ before ≠ [] ∧
    declared.entries = before ++ (headerName,value) :: later

def headerFirst (arguments : Arguments) : Arguments :=
  ⟨arguments.entries.filter (·.1 == headerName) ++ arguments.entries.filter (·.1 != headerName)⟩

theorem lateHeld {declared : Arguments} (distinct : (names declared.entries).Nodup)
    (late : LateHeader supplied declared) : declared.filled? headerName ≠ none := by
  obtain ⟨_,value,before,later,filled,_,whole⟩ := late
  have member : (headerName,value) ∈ declared.entries := by
    rw [whole]
    exact List.mem_append_right _ List.mem_cons_self
  rw [filledSome.mpr ⟨Entries.memberGet distinct member,filled⟩]
  nofun

theorem moveHeader {value : Value} (distinct : (names pairs).Nodup)
    (none : supplied.filled? headerName = none) (filled : value.isNull = false)
    (member : (headerName,value) ∈ pairs) :
    (behindHeader (some value) pairs).entries.Perm pairs ∧
      behindHeader (some value) pairs = headerFirst ⟨pairs⟩ ∧
      (¬ LateHeader supplied ⟨pairs⟩ → behindHeader (some value) pairs = ⟨pairs⟩) := by
  obtain ⟨before,later,rfl⟩ := List.append_of_mem member
  obtain ⟨own,others⟩ := Entries.pairApart distinct
  have moved : behindHeader (some value) (before ++ (headerName,value) :: later) =
      ⟨(headerName,value) :: (before ++ later)⟩ := by
    rw [behindHeader, others]
  rw [moved]
  refine ⟨List.perm_middle.symm,?_,fun early => ?_⟩
  · rw [headerFirst, own, others]
    rfl
  · cases before with
    | nil => rfl
    | cons pair before =>
        exact absurd ⟨none,value,pair :: before,later,filled,List.cons_ne_nil _ _,rfl⟩ early

theorem rereadPairs {header : Option Value} {command : String}
    (distinct : (reads.map Read.name).Nodup) (given : Given supplied reads results pairs)
    (held : ∀ value, header = some value → ∀ r ∈ reads, r.name = headerName →
      (headerName,value) ∈ pairs) :
    ∃ after, (performAll reads).run (.ofArguments command (behindHeader header pairs)) =
        .ok (results,after) ∧
      after.declared = behindHeader ((behindHeader header pairs).filled? headerName) pairs := by
  refine performPairs distinct (givenAgain given distinct fun r member => ?_)
  exact behindGet ((givenNames given).nodup distinct) fun value same => held value same r member

theorem rereadSame {header : Option Value} {command : String}
    (distinct : (reads.map Read.name).Nodup) (given : Given supplied reads results pairs)
    (held : ∀ value, header = some value → ∀ r ∈ reads, r.name = headerName →
      (headerName,value) ∈ pairs)
    (stays : (behindHeader header pairs).filled? headerName = header) :
    ∃ after, (performAll reads).run (.ofArguments command (behindHeader header pairs)) =
        .ok (results,after) ∧ after.declared = behindHeader header pairs := by
  obtain ⟨after,run,declared⟩ := rereadPairs distinct given held
  rw [stays] at declared
  exact ⟨after,run,declared⟩

/- Supplied with what it declared, a sequence of reads under distinct names gives the same results and
declares the same pairs, with a late header in front; from then on it declares the very same list. -/
theorem declaredFixpoint {command : String} {after : Binder} (distinct : (reads.map Read.name).Nodup)
    (run : (performAll reads).run (.ofArguments command supplied) = .ok (results,after)) :
    ∃ second third : Binder,
      (performAll reads).run (.ofArguments command after.declared) = .ok (results,second) ∧
      second.declared.entries.Perm after.declared.entries ∧
      (LateHeader supplied after.declared → second.declared = headerFirst after.declared) ∧
      (¬ LateHeader supplied after.declared → second.declared = after.declared) ∧
      (performAll reads).run (.ofArguments command second.declared) = .ok (results,third) ∧
      third.declared = second.declared := by
  obtain ⟨pairs,given,rfl⟩ := performAllGiven.mp run
  rw [Binder.startSupplied] at given
  rw [declaredPairs command given distinct]
  have single := (givenNames given).nodup distinct
  -- a supplied header stands in front already; one that was read later moves there, once
  cases supplies : supplied.filled? headerName with
  | some value =>
      have held : ∀ other, some value = some other → ∀ r ∈ reads, r.name = headerName →
          (headerName,other) ∈ pairs := by
        intro other same r member header
        rw [← header] at supplies ⊢
        exact givenHeld given member (supplies.trans same)
      obtain ⟨second,run',declared⟩ :=
        rereadSame distinct given held (behindFilled (filledSome.mp supplies).2)
      refine ⟨second,second,run',by rw [declared],?_,fun _ => declared,by rwa [declared],rfl⟩
      rintro ⟨none,_⟩
      cases supplies.symm.trans none
  | none =>
      cases moves : (behindHeader none pairs).filled? headerName with
      | none =>
          obtain ⟨second,run',declared⟩ := @rereadSame _ _ _ _ none command distinct given nofun moves
          refine ⟨second,second,run',by rw [declared],?_,fun _ => declared,by rwa [declared],rfl⟩
          intro late
          exact absurd moves (lateHeld single late)
      | some value =>
          obtain ⟨second,run',declared⟩ := @rereadPairs _ _ _ _ none command distinct given nofun
          rw [moves] at declared
          obtain ⟨found,filled⟩ := filledSome.mp moves
          have member := Entries.getMember found
          have held : ∀ other, some value = some other → ∀ r ∈ reads, r.name = headerName →
              (headerName,other) ∈ pairs := by
            rintro other same r _ _
            cases same
            exact member
          obtain ⟨third,run'',again⟩ :=
            @rereadSame _ _ _ _ _ command distinct given held (behindFilled filled)
          obtain ⟨same,front,early⟩ := moveHeader single supplies filled member
          rw [← declared] at same front early run'' again
          exact ⟨second,third,run',same,fun _ => front,early,run'',again⟩

/- A header that had its default behind another argument stands in front from the second time on. -/
theorem headerMovesOnce :
    let reads : List Read := [.get String "text" (.string "hello"),.optional Bool "flag",.header "# Top"]
    let supplied : Arguments := ⟨[("text",.string "hi"),("flag",.null)]⟩
    let declared : Arguments := ⟨[("text",.string "hi"),("header",.string "# Top")]⟩
    (reads.map Read.name).Nodup ∧
      (performAll reads).run (.ofArguments "test.typed" supplied) =
        .ok (("hi",none,"# Top",()),⟨"test.typed",supplied,declared⟩) ∧
      ∃ second third : Binder,
        (performAll reads).run (.ofArguments "test.typed" declared) =
          .ok (("hi",none,"# Top",()),second) ∧
        second.declared = ⟨[("header",.string "# Top"),("text",.string "hi")]⟩ ∧
        (performAll reads).run (.ofArguments "test.typed" second.declared) =
          .ok (("hi",none,"# Top",()),third) ∧
        third.declared = second.declared := by
  intro reads supplied declared
  have distinct : (reads.map Read.name).Nodup := by decide
  have run : (performAll reads).run (.ofArguments "test.typed" supplied) =
      .ok (("hi",none,"# Top",()),⟨"test.typed",supplied,declared⟩) := rfl
  have late : LateHeader supplied declared :=
    ⟨rfl,.string "# Top",[("text",.string "hi")],[],rfl,List.cons_ne_nil _ _,rfl⟩
  obtain ⟨second,third,again,_,moved,_,last,same⟩ := declaredFixpoint distinct run
  exact ⟨distinct,run,second,third,again,moved late,last,same⟩

end Read

end DocBlocks
