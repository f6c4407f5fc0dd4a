import DocBlocks.Proofs.Files.Descent
import DocBlocks.Proofs.Files.Taken
import DocBlocks.Proofs.Sorted
import DocBlocks.Workspace.Walk
import Mathlib.Data.List.Induction

/-! What a walk finds in a tree without links: all that the rules take, each directory listed with its own
entries. No place is met twice, so a walk always comes to an end. -/
namespace DocBlocks

theorem Node.directoriesNamed (here : Place) {name : String} {node : Node}
    {entries : List (String × Node)} (found : named? name entries = some node) :
    (node.directoriesFrom (here ++ [name])).length ≤ (entryDirectoriesFrom here entries).length := by
  induction entries with
  | nil => cases found
  | cons entry rest ih =>
      obtain ⟨other,below⟩ := entry
      rw [entryDirectoriesFrom, List.length_append]
      rw [named?] at found
      split at found
      · rename_i same
        subst same
        cases found
        exact Nat.le_add_right _ _
      · exact Nat.le_trans (ih found) (Nat.le_add_left _ _)

theorem Node.directoriesBelow (here : Place) (n : Node) (place : Place) {node : Node}
    (found : n.at? place = some node) :
    (node.directoriesFrom (here ++ place)).length ≤ (n.directoriesFrom here).length := by
  induction place generalizing here n with
  | nil =>
      cases found
      exact Nat.le_of_eq (by rw [List.append_nil])
  | cons name rest ih =>
      obtain ⟨below,there,deeper⟩ := Option.bind_eq_some_iff.mp found
      cases n with
      | directory entries =>
          rw [List.append_cons]
          exact Nat.le_trans (ih (here ++ [name]) below deeper)
            (Nat.le_succ_of_le (directoriesNamed here there))
      | file content mode => cases there
      | link target => cases there

structure Files.Stands (files : Files) (root : Path) (place : Place) (tree : Node) : Prop where
  resolved : files.resolve root = .ok place
  found : files.at? place = some tree
  isTree : tree.IsTree

namespace Files.Stands

variable {files : Files} {root : Path} {place : Place} {tree node : Node} {names : List String}
  {name : String} {entries : List (String × Node)}

theorem filled (stands : files.Stands root place tree) : root.text ≠ "" := by
  intro empty
  have resolved := stands.resolved
  rw [resolve, empty] at resolved
  cases resolved

theorem atBelow (stands : files.Stands root place tree) (names : List String) :
    files.at? (place ++ names) = tree.at? names := by
  rw [Files.at?, Node.atAppend]
  change (files.at? place).bind _ = _
  rw [stands.found]
  rfl

theorem plain (stands : files.Stands root place tree) (found : tree.at? names = some node) :
    ∀ name ∈ names, Path.IsName name := by
  induction names using List.reverseRecOn generalizing node with
  | nil => nofun
  | append_singleton names name ih =>
      obtain ⟨entries,there,found⟩ := Node.atLast.mp found
      intro other member
      rcases List.mem_append.mp member with before | last
      · exact ih there other before
      · cases List.mem_singleton.mp last
        exact stands.isTree.named names entries there name node found

theorem direct (stands : files.Stands root place tree)
    (found : tree.at? names = some (.directory entries)) (name target : String) :
    Node.named? name entries ≠ some (.link target) :=
  fun link => stands.isTree.linkless (names ++ [name]) target (Node.atLast.mpr ⟨entries,found,link⟩)

theorem resolveBelow (stands : files.Stands root place tree) (found : tree.at? names = some node) :
    files.resolve (root.under names) = .ok (place ++ names) := by
  induction names using List.reverseRecOn generalizing node with
  | nil => rw [List.append_nil]; exact stands.resolved
  | append_singleton names name ih =>
      have plain := stands.plain found name (List.mem_append_right _ List.mem_cons_self)
      obtain ⟨entries,there,found⟩ := Node.atLast.mp found
      rw [Path.underAppend, resolveChild (ih there) plain ((stands.atBelow names).trans there)
        (stands.direct there name), found, List.append_assoc]
      rfl

theorem nodeBelow (stands : files.Stands root place tree)
    (found : tree.at? names = some (.directory entries)) (plain : Path.IsName name) :
    files.node? ((root.under names).child name) = Node.named? name entries :=
  nodeChild (stands.resolveBelow found) plain ((stands.atBelow names).trans found)
    (stands.direct found name)

theorem directoryBelow (stands : files.Stands root place tree)
    (found : tree.at? names = some (.directory entries))
    (there : Node.named? name entries = some node) :
    files.isDirectory ((root.under names).child name) = node.isDirectory := by
  have plain := stands.isTree.named names entries found name node there
  rw [isDirectory, stands.nodeBelow found plain, there]
  cases node <;> rfl

end Files.Stands

namespace Walk
open Node (takenFrom entryTakenFrom)

section
variable (rules : WalkRules) (files : Files) (root : Path)

def takes (names : List String) (isDirectory : Bool) : Bool :=
  match names.getLast? with
  | none => true
  | some name =>
      !decide (name.toList.head? = some '.') && !rules.ignores (root.under names) isDirectory &&
        !(isDirectory && files.contains ((root.under names).child rules.marker))

def listEntry (names : List String) (d : Directory) (entry : String × Node) : Directory :=
  let path := root.under (names ++ [entry.1])
  if takes rules files root (names ++ [entry.1]) entry.2.isDirectory then
    if entry.2.isDirectory then d.addDirectory path else d.addDocument ⟨path⟩
  else d

def listing (names : List String) (entries : List (String × Node)) : Directory :=
  entries.foldl (listEntry rules files root names) (.unread (root.under names))

def listed (names : List String) (isDirectory : Bool) (entry : String × Node) : Option Path :=
  if entry.2.isDirectory = isDirectory ∧ takes rules files root (names ++ [entry.1]) isDirectory = true
  then some (root.under (names ++ [entry.1])) else none

def Described (d : Directory) : Prop := d.readme = d.documents.find? fun p => (Document.mk p).isReadme

structure Lists (names : List String) (d : Directory) (entries : List (String × Node))
    (e : Directory) : Prop where
  path : e.path = d.path
  documents : e.documents = d.documents ++ entries.filterMap (listed rules files root names false)
  directories : e.directories = d.directories ++ entries.filterMap (listed rules files root names true)
  readme : Described d → Described e

theorem documentDescribed {d : Directory} (described : Described d) (p : Path) :
    Described (d.addDocument ⟨p⟩) := by
  change (d.readme.orElse fun _ => if (Document.mk p).isReadme then some p else none) =
    (d.documents ++ [p]).find? fun q => (Document.mk q).isReadme
  rw [show d.readme = _ from described, List.find?_append, List.find?_singleton]
  cases d.documents.find? fun q => (Document.mk q).isReadme <;> rfl

theorem entryLists (names : List String) (d : Directory) (entry : String × Node) :
    Lists rules files root names d [entry] (listEntry rules files root names d entry) := by
  cases kind : entry.2.isDirectory <;>
    cases taken : takes rules files root (names ++ [entry.1]) entry.2.isDirectory <;>
    rw [kind] at taken
  · refine ⟨?_,?_,?_,?_⟩ <;> simp [listEntry, listed, kind, taken]
  · refine ⟨?_,?_,?_,fun described => ?_⟩
    · simp [listEntry, kind, taken, Directory.addDocument]
    · simp [listEntry, listed, kind, taken, Directory.addDocument]
    · simp [listEntry, listed, kind, taken, Directory.addDocument]
    · have made := documentDescribed described (root.under (names ++ [entry.1]))
      simpa [listEntry, kind, taken] using made
  · refine ⟨?_,?_,?_,?_⟩ <;> simp [listEntry, listed, kind, taken]
  · refine ⟨?_,?_,?_,?_⟩ <;> simp [listEntry, listed, kind, taken, Directory.addDirectory, Described]

theorem allListed (names : List String) (d : Directory) (entries : List (String × Node)) :
    Lists rules files root names d entries (entries.foldl (listEntry rules files root names) d) := by
  induction entries generalizing d with
  | nil => exact ⟨rfl,(List.append_nil _).symm,(List.append_nil _).symm,id⟩
  | cons entry rest ih =>
      have one := entryLists rules files root names d entry
      have all := ih (listEntry rules files root names d entry)
      refine ⟨all.path.trans one.path,?_,?_,fun described => all.readme (one.readme described)⟩
      · rw [List.foldl_cons, all.documents, one.documents, List.append_assoc, ← List.filterMap_append]
        rfl
      · rw [List.foldl_cons, all.directories, one.directories, List.append_assoc,
          ← List.filterMap_append]
        rfl

def directory? (entry : List String × Node) : Option Directory :=
  match entry.2 with
  | .directory entries => some (listing rules files root entry.1 entries)
  | _ => none

def document? (entry : List String × Node) : Option Document :=
  if entry.2.isDirectory then none else some ⟨root.under entry.1⟩

structure Gains (here : Place) (f : Found) (taken : List (List String × Node)) (g : Found) : Prop where
  directories : g.directories = Sorted.putAll (fun a b => a.path.order b.path)
    (taken.filterMap (directory? rules files root)) f.directories
  documents : g.documents = Sorted.putAll (fun a b => a.path.order b.path)
    (taken.filterMap (document? root)) f.documents
  entered : ∀ seen ∈ g.entered, seen ∈ f.entered ∨ here <+: seen

theorem kindTakes (names : List String) (name : String) :
    let isDirectory := files.isDirectory ((root.under names).child name)
    rules.kind files (root.under names) name =
      if takes rules files root (names ++ [name]) isDirectory then
        if isDirectory then .directory else .document
      else .skipped := by
  unfold WalkRules.kind takes
  rw [List.getLast?_concat, Path.underAppend]
  dsimp only
  generalize files.isDirectory ((root.under names).child name) = isDirectory
  by_cases hidden : name.toList.head? = some '.'
  · simp [hidden]
  · cases rules.ignores ((root.under names).child name) isDirectory with
    | true => simp [hidden]
    | false =>
        cases isDirectory with
        | false => simp [hidden]
        | true =>
            cases files.contains (((root.under names).child name).child rules.marker) <;>
              simp [hidden]

end

variable {rules : WalkRules} {files : Files} {root : Path} {place : Place} {tree : Node}
  {names : List String} {entries : List (String × Node)}

section
variable {here inner : Place} {f g h : Found} {xs ys : List (List String × Node)}

theorem Gains.nothing (here : Place) (f : Found) : Gains rules files root here f [] f :=
  ⟨rfl,rfl,fun _ => .inl⟩

theorem Gains.trans (first : Gains rules files root here f xs g)
    (second : Gains rules files root here g ys h) : Gains rules files root here f (xs ++ ys) h := by
  refine ⟨?_,?_,fun seen member => ?_⟩
  · rw [second.directories, first.directories, List.filterMap_append, Sorted.putAllAppend]
  · rw [second.documents, first.documents, List.filterMap_append, Sorted.putAllAppend]
  · rcases second.entered seen member with before | below
    · exact first.entered seen before
    · exact .inr below

theorem Gains.closed (gains : Gains rules files root here (f.enter here) xs g)
    (names : List String) (entries : List (String × Node)) :
    Gains rules files root here f (xs ++ [(names,.directory entries)])
      (g.addDirectory (listing rules files root names entries)) := by
  refine ⟨?_,?_,fun seen member => ?_⟩
  · rw [List.filterMap_append, Sorted.putAllAppend]
    exact congrArg _ gains.directories
  · rw [List.filterMap_append, Sorted.putAllAppend]
    exact gains.documents
  · rcases gains.entered seen member with entered | below
    · rcases List.mem_cons.mp entered with rfl | old
      · exact .inr (List.prefix_refl _)
      · exact .inl old
    · exact .inr below

theorem Gains.outer (gains : Gains rules files root inner f xs g) (ahead : here <+: inner) :
    Gains rules files root here f xs g :=
  ⟨gains.directories,gains.documents,fun seen member =>
    (gains.entered seen member).imp_right ahead.trans⟩

end

def Enters (rules : WalkRules) (files : Files) (root : Path) (place : Place) (tree : Node)
    (depth : Nat) : Prop :=
  ∀ names entries around f, tree.at? names = some (.directory entries) →
    ((Node.directory entries).directoriesFrom (place ++ names)).length ≤ depth →
    (∀ outer ∈ around, outer.length < (place ++ names).length) →
    (∀ seen ∈ f.entered, ¬ (place ++ names) <+: seen) →
    ∃ g, enter rules files depth around (root.under names) f = .ok g ∧
      Gains rules files root (place ++ names) f
        (entryTakenFrom (takes rules files root) names entries ++ [(names,.directory entries)]) g

theorem visitTakes (stands : files.Stands root place tree) {depth : Nat}
    (enters : Enters rules files root place tree depth) {around : List Place} {f : Found}
    {d : Directory} {name : String} {node : Node}
    (found : tree.at? names = some (.directory entries))
    (there : Node.named? name entries = some node)
    (deep : (node.directoriesFrom (place ++ names ++ [name])).length ≤ depth)
    (shorter : ∀ outer ∈ around, outer.length ≤ (place ++ names).length)
    (fresh : ∀ seen ∈ f.entered, ¬ (place ++ names ++ [name]) <+: seen)
    (path : d.path = root.under names) :
    ∃ g, visit rules files (enter rules files depth around) (d,f) name =
        .ok (listEntry rules files root names d (name,node),g) ∧
      Gains rules files root (place ++ names ++ [name]) f
        (takenFrom (takes rules files root) (names ++ [name]) node) g := by
  unfold visit listEntry
  dsimp only
  rw [path, kindTakes, stands.directoryBelow found there, ← Path.underAppend]
  cases node with
  | link target => exact absurd there (stands.direct found name target)
  | file content mode =>
      have kind : (Node.file content mode).isDirectory = false := rfl
      rw [kind, takenFrom]
      cases takes rules files root (names ++ [name]) false with
      | false => exact ⟨f,rfl,.nothing _ f⟩
      | true => exact ⟨f.addDocument ⟨root.under (names ++ [name])⟩,rfl,rfl,rfl,fun _ => .inl⟩
  | directory below =>
      have kind : (Node.directory below).isDirectory = true := rfl
      rw [kind, takenFrom]
      cases takes rules files root (names ++ [name]) true with
      | false => exact ⟨f,rfl,.nothing _ f⟩
      | true =>
          rw [List.append_assoc] at deep fresh ⊢
          obtain ⟨g,entered,gains⟩ := enters (names ++ [name]) below around f
            (Node.atLast.mpr ⟨entries,found,there⟩) deep
            (fun outer member => Nat.lt_of_le_of_lt (shorter outer member) (by simp)) fresh
          refine ⟨g,?_,gains⟩
          change (do .ok (d.addDirectory (root.under (names ++ [name])),
            ← enter rules files depth around (root.under (names ++ [name])) f)) = _
          rw [entered]
          rfl

/- Entries are visited one after another; each leaves the places below the others untouched. -/
theorem visitAll (stands : files.Stands root place tree) {depth : Nat}
    (enters : Enters rules files root place tree depth) {around : List Place}
    (found : tree.at? names = some (.directory entries))
    (shorter : ∀ outer ∈ around, outer.length ≤ (place ++ names).length)
    (rest : List (String × Node))
    (inside : ∀ entry ∈ rest, Node.named? entry.1 entries = some entry.2)
    (order : Node.InOrder rest)
    (deep : (Node.entryDirectoriesFrom (place ++ names) rest).length ≤ depth) (f : Found)
    (fresh : ∀ entry ∈ rest, ∀ seen ∈ f.entered, ¬ (place ++ names ++ [entry.1]) <+: seen)
    (d : Directory) (path : d.path = root.under names) :
    ∃ g, (rest.map (·.1)).foldlM (visit rules files (enter rules files depth around)) (d,f) =
        .ok (rest.foldl (listEntry rules files root names) d,g) ∧
      Gains rules files root (place ++ names) f
        (entryTakenFrom (takes rules files root) names rest) g := by
  induction rest generalizing d f with
  | nil => exact ⟨f,rfl,.nothing _ f⟩
  | cons entry later ih =>
      obtain ⟨name,node⟩ := entry
      obtain ⟨here,inside⟩ := List.forall_mem_cons.mp inside
      obtain ⟨first,fresh⟩ := List.forall_mem_cons.mp fresh
      obtain ⟨before,order⟩ := List.pairwise_cons.mp order
      rw [Node.entryDirectoriesFrom, List.length_append] at deep
      obtain ⟨g,visited,gains⟩ := visitTakes stands enters found here
        (Nat.le_trans (Nat.le_add_right _ _) deep) shorter first path
      have untouched : ∀ entry ∈ later, ∀ seen ∈ g.entered,
          ¬ (place ++ names ++ [entry.1]) <+: seen := by
        intro entry member seen entered below
        rcases gains.entered seen entered with old | new
        · exact fresh entry member seen old below
        · -- Two names at one place would have to be the same.
          have same := List.prefix_of_prefix_length_le below new (by simp)
          have last := List.append_cancel_left (same.eq_of_length (by simp))
          have equal : name = entry.1 := (List.singleton_inj.mp last).symm
          exact Node.namesApart (before entry.1 (List.mem_map_of_mem member)) equal
      obtain ⟨h,visitedAll,gainsAll⟩ := ih inside order
        (Nat.le_trans (Nat.le_add_left _ _) deep) g untouched
        (listEntry rules files root names d (name,node))
        ((entryLists rules files root names d (name,node)).path.trans path)
      refine ⟨h,?_,(gains.outer (List.prefix_append _ _)).trans gainsAll⟩
      rw [List.map_cons, List.foldlM_cons, visited]
      exact visitedAll

theorem enterNew {depth : Nat} {around : List Place} {f : Found} {path : Path} {here : Place}
    {found : List String} (resolved : files.resolve path = .ok here) (unmet : here ∉ around)
    (new : here ∉ f.entered) (listed : files.names path = .ok found) :
    enter rules files (depth + 1) around path f =
      found.foldlM (visit rules files (enter rules files depth (here :: around)))
          (.unread path,f.enter here) >>= fun (directory,found) =>
        .ok (found.addDirectory directory) := by
  unfold enter
  rw [resolved, listed]
  change (if _ then _ else if _ then _ else _) = _
  rw [if_neg unmet, if_neg new]
  rfl

theorem enterTakes (stands : files.Stands root place tree) (depth : Nat) :
    Enters rules files root place tree depth := by
  -- by depth; that the place is new follows from where earlier places stand in the tree
  induction depth with
  | zero =>
      intro names entries around f found deep
      exact absurd deep (Nat.not_succ_le_zero _)
  | succ depth ih =>
      intro names entries around f found deep shorter fresh
      have unmet : ¬ (place ++ names) ∈ around := fun member => Nat.lt_irrefl _ (shorter _ member)
      have new : ¬ (place ++ names) ∈ f.entered := fun member => fresh _ member (List.prefix_refl _)
      have order : Node.InOrder entries := stands.isTree.ordered names _ found
      have outside : ∀ outer ∈ (place ++ names) :: around, outer.length ≤ (place ++ names).length :=
        List.forall_mem_cons.mpr ⟨Nat.le_refl _,fun outer member => Nat.le_of_lt (shorter outer member)⟩
      have untouched : ∀ entry ∈ entries, ∀ seen ∈ (f.enter (place ++ names)).entered,
          ¬ (place ++ names ++ [entry.1]) <+: seen := by
        intro entry _ seen member below
        rcases List.mem_cons.mp member with rfl | old
        · have long := below.length_le
          rw [List.length_append] at long
          exact absurd long (Nat.not_succ_le_self _)
        · exact fresh seen old ((List.prefix_append _ _).trans below)
      obtain ⟨g,visited,gains⟩ := visitAll stands ih found outside entries
        (fun entry member => (Node.namedEntry order).mpr member) order
        (Nat.le_of_succ_le_succ deep) (f.enter (place ++ names)) untouched
        (.unread (root.under names)) rfl
      have resolved := stands.resolveBelow found
      refine ⟨g.addDirectory (listing rules files root names entries),?_,gains.closed names entries⟩
      rw [enterNew resolved unmet new (Files.namesFound resolved ((stands.atBelow names).trans found)),
        visited]
      rfl

theorem fromRootTakes (rules : WalkRules) (stands : files.Stands root place (.directory entries)) :
    ∃ found, fromRoot rules files root = .ok found ∧
      Gains rules files root place .empty
        (takenFrom (takes rules files root) [] (.directory entries)) found := by
  have start : (Node.directory entries).at? [] = some (.directory entries) := rfl
  have deep : ((Node.directory entries).directoriesFrom (place ++ [])).length ≤
      files.directories.length + 1 := by
    rw [List.append_nil]
    exact Nat.le_succ_of_le (Node.directoriesBelow [] files.root place stands.found)
  obtain ⟨found,walked,gains⟩ := enterTakes stands (files.directories.length + 1) [] entries [] .empty
    start deep nofun nofun
  rw [List.append_nil] at gains
  exact ⟨found,walked,gains⟩

end Walk

end DocBlocks
