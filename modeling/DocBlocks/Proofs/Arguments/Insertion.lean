import DocBlocks.Proofs.Arguments.Sourced

/-! Arguments map every name to the last value that was inserted under it, and keep the names in the order in
which they first were. Statements insert one after another as callers do, and no value that they insert has
a mapping with a key twice. -/
namespace DocBlocks.Arguments
open Token Value

def Effect.insertion? : Effect → Option (String × Value)
  | .nothing => none
  | .assigned name value => some (name,value)
  | .failed target _ => target.map fun name => (name,.null)

def insertionsFrom (scope : Arguments) : List Statement → List (String × Value)
  | [] => []
  | statement :: rest =>
      match (effectOf scope (Text.trim statement.text)).insertion? with
      | none => insertionsFrom scope rest
      | some (name,value) => (name,value) :: insertionsFrom (scope.insert name value) rest

def insertions (source : String) : List (String × Value) :=
  insertionsFrom empty (Statement.split (Text.dedent source.toList))

inductive Comes : Arguments → List (String × Value) → Prop where
  | collected (pairs : List (String × Value)) : Comes (ofList pairs) pairs
  | parsed (source : String) : Comes (parse source) (insertions source)
  | inserted {arguments : Arguments} {before : List (String × Value)} (comes : Comes arguments before)
      (name : String) (value : Value) : Comes (arguments.insert name value) (before ++ [(name,value)])

/-- Holds of arguments that keep what was inserted: the names in the order of their first insertion, each
with the value of its last one. -/
structure Maps (arguments : Arguments) (inserted : List (String × Value)) : Prop where
  distinct : arguments.names.Nodup
  named : ∀ name, name ∈ arguments.names ↔ name ∈ Entries.names inserted
  ordered : arguments.names.Pairwise fun a b =>
    (Entries.names inserted).idxOf a < (Entries.names inserted).idxOf b
  last : ∀ name value, arguments.get? name = some value ↔ ∃ before behind,
    inserted = before ++ (name,value) :: behind ∧ name ∉ Entries.names behind
  others : ∀ name, name ∉ Entries.names inserted → arguments.get? name = none

variable {arguments : Arguments} {inserted : List (String × Value)}

theorem mapsEmpty : Maps empty [] := by
  refine ⟨.nil,fun name => Iff.rfl,.nil,fun name value => ⟨nofun,?_⟩,fun name _ => rfl⟩
  rintro ⟨before,behind,none,_⟩
  simp at none

theorem addedLast {before behind : List (String × Value)} {pair new : String × Value}
    (whole : inserted ++ [new] = before ++ pair :: behind) :
    pair = new ∧ behind = [] ∨ ∃ front, behind = front ++ [new] ∧ inserted = before ++ pair :: front := by
  rcases List.eq_nil_or_concat' behind with rfl | ⟨front,other,rfl⟩
  · cases List.append_inj_right' whole rfl
    exact .inl ⟨rfl,rfl⟩
  · rw [← List.cons_append, ← List.append_assoc] at whole
    obtain ⟨rest,last⟩ := List.append_inj' whole rfl
    cases last
    exact .inr ⟨front,rfl,rest⟩

theorem insertedNames (inserted : List (String × Value)) (name : String) (value : Value) :
    Entries.names (inserted ++ [(name,value)]) = Entries.names inserted ++ [name] := List.map_append

theorem namesInsert (arguments : Arguments) (name : String) (value : Value) :
    (arguments.insert name value).names =
      if name ∈ arguments.names then arguments.names else arguments.names ++ [name] :=
  Entries.insertNames name value arguments.entries

theorem namedInsert (maps : Maps arguments inserted) (name other : String) (value : Value) :
    other ∈ (arguments.insert name value).names ↔ other ∈ Entries.names (inserted ++ [(name,value)]) := by
  rw [namesInsert, insertedNames]
  by_cases old : name ∈ arguments.names
  · rw [if_pos old, List.mem_append, List.mem_singleton, ← maps.named]
    exact ⟨.inl,fun found => found.elim id fun same => same ▸ old⟩
  · rw [if_neg old, List.mem_append, List.mem_append, maps.named]

theorem orderedInsert (maps : Maps arguments inserted) (name : String) (value : Value) :
    (arguments.insert name value).names.Pairwise fun a b =>
      (Entries.names (inserted ++ [(name,value)])).idxOf a <
        (Entries.names (inserted ++ [(name,value)])).idxOf b := by
  rw [namesInsert, insertedNames]
  have kept (other : String) (member : other ∈ arguments.names) :
      (Entries.names inserted ++ [name]).idxOf other = (Entries.names inserted).idxOf other :=
    List.idxOf_append_of_mem ((maps.named other).mp member)
  have before : arguments.names.Pairwise fun a b =>
      (Entries.names inserted ++ [name]).idxOf a < (Entries.names inserted ++ [name]).idxOf b :=
    maps.ordered.imp_of_mem fun first second less => by rwa [kept _ first, kept _ second]
  split
  · exact before
  · rename_i fresh
    refine List.pairwise_append.mpr ⟨before,List.pairwise_singleton _ _,fun a member b single => ?_⟩
    obtain rfl := List.mem_singleton.mp single
    rw [kept a member, List.idxOf_append_of_notMem (mt (maps.named b).mpr fresh)]
    exact Nat.lt_add_right _ (List.idxOf_lt_length_of_mem ((maps.named a).mp member))

theorem lastInsert (maps : Maps arguments inserted) (name key : String) (value other : Value) :
    (arguments.insert key other).get? name = some value ↔ ∃ before behind,
      inserted ++ [(key,other)] = before ++ (name,value) :: behind ∧ name ∉ Entries.names behind := by
  by_cases same : name = key
  · subst same
    rw [get?_insert_self, Option.some_inj]
    constructor
    · rintro rfl
      exact ⟨inserted,[],rfl,List.not_mem_nil⟩
    · rintro ⟨before,behind,whole,fresh⟩
      rcases addedLast whole with ⟨pair,_⟩ | ⟨front,rfl,_⟩
      · exact (congrArg Prod.snd pair).symm
      · rw [insertedNames] at fresh
        exact absurd (List.mem_append_right _ List.mem_cons_self) fresh
  · rw [get?_insert_of_ne arguments other same, maps.last]
    constructor
    · rintro ⟨before,behind,rfl,fresh⟩
      refine ⟨before,behind ++ [(key,other)],List.append_assoc _ _ _,?_⟩
      rw [insertedNames, List.mem_append, List.mem_singleton]
      exact not_or.mpr ⟨fresh,same⟩
    · rintro ⟨before,behind,whole,fresh⟩
      rcases addedLast whole with ⟨pair,_⟩ | ⟨front,rfl,rest⟩
      · exact absurd (congrArg Prod.fst pair) same
      · rw [insertedNames] at fresh
        exact ⟨before,front,rest,fun member => fresh (List.mem_append_left _ member)⟩

theorem mapsInsert (maps : Maps arguments inserted) (name : String) (value : Value) :
    Maps (arguments.insert name value) (inserted ++ [(name,value)]) where
  distinct := Entries.insertNodup maps.distinct
  named other := namedInsert maps name other value
  ordered := orderedInsert maps name value
  last other found := lastInsert maps other name found value
  others other fresh := by
    rw [insertedNames, List.mem_append, not_or, List.mem_singleton] at fresh
    rw [get?_insert_of_ne arguments value fresh.2]
    exact maps.others other fresh.1

theorem mapsCollected (pairs : List (String × Value)) : Maps (ofList pairs) pairs := by
  induction pairs using List.reverseRecOn with
  | nil => exact mapsEmpty
  | append_singleton pairs pair ih =>
      rw [ofList, List.foldl_append]
      exact mapsInsert ih pair.1 pair.2

theorem bindInserts (state : Arguments × List StatementError) (statement : Statement) :
    (bindStatement state statement).1 =
      ((effectOf state.1 (Text.trim statement.text)).insertion?).elim state.1
        fun pair => state.1.insert pair.1 pair.2 := by
  unfold bindStatement
  dsimp only
  split
  · rename_i blank
    rw [List.isEmpty_iff.mp blank]
    simp [effectOf, Token.scanFrom, Token.scanFrom.go, Effect.insertion?]
  · cases effectOf state.1 (Text.trim statement.text) with
    | nothing => rfl
    | assigned name value => rfl
    | failed target e => cases target <;> rfl

theorem bindAll (statements : List Statement) (state : Arguments × List StatementError) :
    (statements.foldl bindStatement state).1 = (insertionsFrom state.1 statements).foldl
      (fun arguments pair => arguments.insert pair.1 pair.2) state.1 := by
  induction statements generalizing state with
  | nil => rfl
  | cons statement rest ih =>
      rw [List.foldl_cons, ih, bindInserts, insertionsFrom]
      cases (effectOf state.1 (Text.trim statement.text)).insertion? <;> rfl

theorem parseCollected (source : String) : parse source = ofList (insertions source) := bindAll _ _

theorem comesMapped (comes : Comes arguments inserted) : Maps arguments inserted := by
  induction comes with
  | collected pairs => exact mapsCollected pairs
  | parsed source =>
      rw [parseCollected]
      exact mapsCollected _
  | inserted _ name value ih => exact mapsInsert ih name value

theorem insertionSound (sourced : Sourced arguments) {text : List Char} {pair : String × Value}
    (inserts : (effectOf arguments text).insertion? = some pair) : IsName pair.1 ∧ Keyed pair.2 := by
  have sound := effectSound sourced text
  cases effect : effectOf arguments text with
  | nothing =>
      rw [effect] at inserts
      cases inserts
  | assigned name value =>
      rw [effect] at inserts sound
      cases inserts
      exact sound
  | failed target e =>
      rw [effect] at inserts sound
      obtain ⟨name,known,rfl⟩ := Option.map_eq_some_iff.mp inserts
      exact ⟨sound name known,keyedScalar trivial⟩

theorem insertionsKeyed (sourced : Sourced arguments) (statements : List Statement) :
    ∀ pair ∈ insertionsFrom arguments statements, Keyed pair.2 := by
  induction statements generalizing arguments with
  | nil => nofun
  | cons statement rest ih =>
      rw [insertionsFrom]
      split
      · exact ih sourced
      · rename_i name value inserts
        obtain ⟨named,keyed⟩ := insertionSound sourced inserts
        exact List.forall_mem_cons.mpr ⟨keyed,ih (insertSourced sourced named keyed)⟩

/- However arguments come about, they are a mapping in the order of first insertion. What parsing binds, now or
for a while, has distinct keys in its mappings. -/
theorem argumentsMapped :
    (∀ arguments inserted, Comes arguments inserted → Maps arguments inserted) ∧
      ∀ source, (∀ pair ∈ insertions source, Keyed pair.2) ∧
        ∀ pair ∈ (parse source).entries, Keyed pair.2 := by
  refine ⟨fun arguments inserted comes => comesMapped comes,fun source => ⟨?_,fun pair member => ?_⟩⟩
  · exact insertionsKeyed emptySourced _
  · exact (parseSourced source).keyed pair.1 pair.2 member

theorem replacedMapped :
    Comes ((parse "a=\x7b\"\":1,\"\":2\x7d;a=[a]").insert "b" .null)
      (insertions "a=\x7b\"\":1,\"\":2\x7d;a=[a]" ++ [("b",.null)]) ∧
    Maps ((parse "a=\x7b\"\":1,\"\":2\x7d;a=[a]").insert "b" .null)
      (insertions "a=\x7b\"\":1,\"\":2\x7d;a=[a]" ++ [("b",.null)]) ∧
    ("a",.map [("",.int 2)]) ∈ insertions "a=\x7b\"\":1,\"\":2\x7d;a=[a]" ∧ Keyed (.map [("",.int 2)]) ∧
    ("a",.list [.map [("",.int 2)]]) ∈ (parse "a=\x7b\"\":1,\"\":2\x7d;a=[a]").entries ∧
    Keyed (.list [.map [("",.int 2)]]) := by
  have comes := Comes.inserted (.parsed "a=\x7b\"\":1,\"\":2\x7d;a=[a]") "b" .null
  have inserts : insertions "a=\x7b\"\":1,\"\":2\x7d;a=[a]" =
      [("a",.map [("",.int 2)]),("a",.list [.map [("",.int 2)]])] := by cbv
  have replaced : ("a",.map [("",.int 2)]) ∈ insertions "a=\x7b\"\":1,\"\":2\x7d;a=[a]" :=
    inserts ▸ List.mem_cons_self
  have kept : ("a",.list [.map [("",.int 2)]]) ∈ (parse "a=\x7b\"\":1,\"\":2\x7d;a=[a]").entries := by
    rw [parseCollected, inserts]
    exact List.mem_cons_self
  exact ⟨comes,argumentsMapped.1 _ _ comes,replaced,(argumentsMapped.2 _).1 _ replaced,
    kept,(argumentsMapped.2 _).2 _ kept⟩

end DocBlocks.Arguments
