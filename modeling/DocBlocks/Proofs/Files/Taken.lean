import DocBlocks.Proofs.Files.Order
import DocBlocks.Proofs.Path

/-! What is taken of a tree when a test on names decides, for each entry from the top down, whether it
and all that is below it counts. -/
namespace DocBlocks.Node

abbrev Taking : Type := List String → Bool → Bool

mutual

def takenFrom (takes : Taking) (here : List String) : Node → List (List String × Node)
  | directory entries =>
      if takes here true then entryTakenFrom takes here entries ++ [(here,directory entries)] else []
  | file content mode => if takes here false then [(here,file content mode)] else []
  | link target => if takes here false then [(here,link target)] else []

def entryTakenFrom (takes : Taking) (here : List String) :
    List (String × Node) → List (List String × Node)
  | [] => []
  | (name,node) :: rest =>
      takenFrom takes (here ++ [name]) node ++ entryTakenFrom takes here rest

end

def Reaches (takes : Taking) : List String → List String → Node → Prop
  | here, [], node => takes here node.isDirectory = true
  | here, name :: rest, node => takes here true = true ∧ Reaches takes (here ++ [name]) rest node

variable {takes : Taking} {names : List String} {node : Node} {name : String}

theorem namesApart {first later : String} (before : compare first later = .lt) : first ≠ later := by
  rintro rfl
  have self : compare first first = .eq := Std.ReflCmp.compare_self
  rw [self] at before
  cases before

theorem namedEntry {entries : List (String × Node)} (ordered : InOrder entries) :
    named? name entries = some node ↔ (name,node) ∈ entries := by
  induction entries with
  | nil => simp [named?]
  | cons entry rest ih =>
      obtain ⟨other,below⟩ := entry
      obtain ⟨first,ordered⟩ := List.pairwise_cons.mp ordered
      rw [named?, List.mem_cons]
      split
      · rename_i same
        subst same
        refine ⟨fun found => .inl (by rw [Option.some.inj found]),fun member => ?_⟩
        rcases member with same | later
        · rw [(Prod.mk.inj same).2]
        · exact absurd rfl (namesApart (first other (List.mem_map_of_mem later)))
      · rename_i apart
        rw [ih ordered]
        refine ⟨.inr,fun member => member.resolve_left fun same => ?_⟩
        exact apart (Prod.mk.inj same).1.symm

def Named (n : Node) : Prop := ∀ place entries, n.at? place = some (directory entries) →
  ∀ name below, named? name entries = some below → Path.IsName name

theorem fileNamed (content : Content) (mode : Nat) : (file content mode).Named := by
  intro place entries found
  cases place <;> cases found

theorem linkNamed (target : String) : (link target).Named := by
  intro place entries found
  cases place <;> cases found

theorem directoryNamed {entries : List (String × Node)}
    (each : ∀ name below, named? name entries = some below → Path.IsName name ∧ below.Named) :
    (directory entries).Named := by
  intro place inner found
  cases place with
  | nil =>
      cases found
      exact fun name below there => (each name below there).1
  | cons name rest =>
      obtain ⟨below,there,found⟩ := Option.bind_eq_some_iff.mp found
      exact (each name below there).2 rest inner found

structure IsTree (n : Node) : Prop where
  ordered : n.Ordered
  named : n.Named
  linkless : ∀ place target, n.at? place ≠ some (link target)

theorem fileTree (content : Content) (mode : Nat) : (file content mode).IsTree := by
  refine ⟨fileOrdered content mode,fileNamed content mode,fun place target found => ?_⟩
  cases place <;> cases found

theorem directoryTree {entries : List (String × Node)} (order : InOrder entries)
    (each : ∀ name below, (name,below) ∈ entries → Path.IsName name ∧ below.IsTree) :
    (directory entries).IsTree := by
  have entry {name below} (found : named? name entries = some below) :=
    each name below ((namedEntry order).mp found)
  refine ⟨directoryOrdered order fun name below found => (entry found).2.ordered,
    directoryNamed fun name below found => ⟨(entry found).1,(entry found).2.named⟩,
    fun place target found => ?_⟩
  cases place with
  | nil => cases found
  | cons name rest =>
      obtain ⟨below,there,found⟩ := Option.bind_eq_some_iff.mp found
      exact (entry there).2.linkless rest target found

theorem reachedFrom {here : List String} {n : Node} :
    (∃ rest, names = here ++ rest ∧ n.at? rest = some node ∧ Reaches takes here rest node) ↔
      (takes here n.isDirectory = true ∧ (names,node) = (here,n)) ∨
        takes here true = true ∧ ∃ name below rest, named? name n.entries = some below ∧
          names = here ++ name :: rest ∧ below.at? rest = some node ∧
            Reaches takes (here ++ [name]) rest node := by
  constructor
  · rintro ⟨rest,rfl,found,taken⟩
    cases rest with
    | nil =>
        cases found
        exact .inl ⟨taken,by rw [List.append_nil]⟩
    | cons name rest =>
        obtain ⟨below,there,found⟩ := Option.bind_eq_some_iff.mp found
        exact .inr ⟨taken.1,name,below,rest,there,rfl,found,taken.2⟩
  · rintro (⟨taken,same⟩ | ⟨top,name,below,rest,there,rfl,found,taken⟩)
    · cases same
      exact ⟨[],(List.append_nil _).symm,rfl,taken⟩
    · refine ⟨name :: rest,rfl,?_,top,taken⟩
      rw [at?, there]
      exact found

mutual

theorem takenMember (here : List String) (n : Node) (ordered : n.Ordered) :
    (names,node) ∈ n.takenFrom takes here ↔
      ∃ rest, names = here ++ rest ∧ n.at? rest = some node ∧ Reaches takes here rest node := by
  rw [reachedFrom]
  cases n with
  | file content mode => simp [takenFrom, named?, isDirectory, entries]
  | link target => simp [takenFrom, named?, isDirectory, entries]
  | directory entries =>
      have order : InOrder entries := ordered [] _ rfl
      have inner := entryTakenMember here entries fun name below member =>
        orderedBelow ordered ((namedEntry order).mpr member)
      rw [takenFrom]
      simp only [isDirectory, Node.entries, namedEntry order]
      split
      · rename_i taken
        rw [List.mem_append, inner, List.mem_singleton, or_comm]
        simp only [taken, true_and]
      · rename_i refused
        simp [refused]

theorem entryTakenMember (here : List String) (entries : List (String × Node))
    (each : ∀ name below, (name,below) ∈ entries → below.Ordered) :
    (names,node) ∈ entryTakenFrom takes here entries ↔
      ∃ name below rest, (name,below) ∈ entries ∧ names = here ++ name :: rest ∧
        below.at? rest = some node ∧ Reaches takes (here ++ [name]) rest node := by
  cases entries with
  | nil => simp [entryTakenFrom]
  | cons entry later =>
      obtain ⟨first,below⟩ := entry
      have head := takenMember (here ++ [first]) below (each first below List.mem_cons_self)
      have tail := entryTakenMember here later fun name below member =>
        each name below (List.mem_cons_of_mem _ member)
      rw [entryTakenFrom, List.mem_append, head, tail]
      constructor
      · rintro (⟨rest,rfl,found,taken⟩ | ⟨name,inner,rest,member,found⟩)
        · exact ⟨first,below,rest,List.mem_cons_self,(List.append_cons _ _ _).symm,found,taken⟩
        · exact ⟨name,inner,rest,List.mem_cons_of_mem _ member,found⟩
      · rintro ⟨name,inner,rest,member,rfl,found,taken⟩
        rcases List.mem_cons.mp member with same | later
        · cases same
          exact .inl ⟨rest,List.append_cons _ _ _,found,taken⟩
        · exact .inr ⟨name,inner,rest,later,rfl,found,taken⟩

end

theorem reachesWhole (takes : Taking) (here rest : List String) (node : Node) :
    Reaches takes here rest node ↔ takes (here ++ rest) node.isDirectory = true ∧
      ∀ inner, inner <+: rest → inner ≠ rest → takes (here ++ inner) true = true := by
  -- each name on the way down asks for the directory that it leaves
  induction rest generalizing here with
  | nil =>
      rw [Reaches, List.append_nil, and_iff_left]
      intro inner ahead apart
      exact absurd (List.prefix_nil.mp ahead) apart
  | cons name rest ih =>
      rw [Reaches, ih (here ++ [name]), ← List.append_cons]
      constructor
      · rintro ⟨top,whole,each⟩
        refine ⟨whole,fun inner ahead apart => ?_⟩
        cases inner with
        | nil => rwa [List.append_nil]
        | cons other inner =>
            obtain ⟨rfl,later⟩ := List.cons_prefix_cons.mp ahead
            rw [List.append_cons]
            exact each inner later fun same => apart (congrArg (other :: ·) same)
      · rintro ⟨whole,each⟩
        have top := each [] List.nil_prefix (List.cons_ne_nil name rest).symm
        rw [List.append_nil] at top
        refine ⟨top,whole,fun inner ahead apart => ?_⟩
        rw [← List.append_cons]
        exact each (name :: inner) (List.cons_prefix_cons.mpr ⟨rfl,ahead⟩)
          fun same => apart (List.cons.inj same).2

mutual

theorem takenApart (takes : Taking) (here : List String) (n : Node) (ordered : n.Ordered) :
    (n.takenFrom takes here).Pairwise fun a b => a.1 ≠ b.1 := by
  cases n with
  | file content mode =>
      rw [takenFrom]
      split
      · exact List.pairwise_singleton _ _
      · exact .nil
  | link target =>
      rw [takenFrom]
      split
      · exact List.pairwise_singleton _ _
      · exact .nil
  | directory entries =>
      have order : InOrder entries := ordered [] _ rfl
      have each (name below) (member : (name,below) ∈ entries) : below.Ordered :=
        orderedBelow ordered ((namedEntry order).mpr member)
      rw [takenFrom]
      split
      · refine List.pairwise_append.mpr
          ⟨entryTakenApart takes here entries order each,List.pairwise_singleton _ _,?_⟩
        rintro ⟨names,node⟩ inside other self same
        cases List.mem_singleton.mp self
        obtain ⟨name,_,rest,_,deeper,_⟩ := (entryTakenMember here entries each).mp inside
        cases same
        exact nomatch List.self_eq_append_right.mp deeper
      · exact .nil

theorem entryTakenApart (takes : Taking) (here : List String) (entries : List (String × Node))
    (order : InOrder entries) (each : ∀ name below, (name,below) ∈ entries → below.Ordered) :
    (entryTakenFrom takes here entries).Pairwise fun a b => a.1 ≠ b.1 := by
  cases entries with
  | nil => exact .nil
  | cons entry later =>
      obtain ⟨first,below⟩ := entry
      obtain ⟨before,order⟩ := List.pairwise_cons.mp order
      have inside := each first below List.mem_cons_self
      have each (name below) (member : (name,below) ∈ later) : below.Ordered :=
        each name below (List.mem_cons_of_mem _ member)
      refine List.pairwise_append.mpr ⟨takenApart takes (here ++ [first]) below inside,
        entryTakenApart takes here later order each,?_⟩
      rintro ⟨names,node⟩ left ⟨names',node'⟩ right same
      obtain ⟨rest,rfl,_⟩ := (takenMember (here ++ [first]) below inside).mp left
      obtain ⟨name,_,rest',member,rfl,_⟩ := (entryTakenMember here later each).mp right
      rw [List.append_assoc] at same
      cases List.append_cancel_left same
      exact absurd rfl (namesApart (before first (List.mem_map_of_mem member)))

end

end DocBlocks.Node
