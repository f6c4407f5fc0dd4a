import DocBlocks.Proofs.Files.Canonical
import DocBlocks.Proofs.Outcome
import DocBlocks.Proofs.Workspace.Walked
import DocBlocks.Workspace.Scan
import Mathlib.Data.List.Perm.Subperm

/-! A walk through a tree with links comes to an end: with an error where a directory leads back to one
above it, and else with every directory once. The depth that is given to it never decides. -/
namespace DocBlocks

namespace Node

theorem directoriesMember (here : Place) {name : String} {node : Node} {entries : List (String × Node)}
    {place : Place} (found : named? name entries = some node)
    (member : place ∈ node.directoriesFrom (here ++ [name])) :
    place ∈ entryDirectoriesFrom here entries := by
  induction entries with
  | nil => cases found
  | cons entry rest ih =>
      obtain ⟨other,below⟩ := entry
      rw [entryDirectoriesFrom]
      rw [named?] at found
      split at found
      · rename_i same
        subst same
        cases found
        exact List.mem_append_left _ member
      · exact List.mem_append_right _ (ih found)

theorem directoriesAt (here : Place) (n : Node) (place : Place) {entries : List (String × Node)}
    (found : n.at? place = some (.directory entries)) : here ++ place ∈ n.directoriesFrom here := by
  induction place generalizing here n with
  | nil =>
      cases found
      rw [List.append_nil, directoriesFrom]
      exact List.mem_cons_self
  | cons name rest ih =>
      obtain ⟨below,there,deeper⟩ := Option.bind_eq_some_iff.mp found
      cases n with
      | directory entries =>
          have inside := ih (here ++ [name]) below deeper
          rw [List.append_assoc] at inside
          exact List.mem_cons_of_mem _ (directoriesMember here there inside)
      | file content mode => cases there
      | link target => cases there

end Node

namespace Files

variable {files : Files} {path : Path} {place : Place}

theorem directoryPlace (stands : files.isDirectory path = true) : ∃ place entries,
    files.resolve path = .ok place ∧ files.at? place = some (.directory entries) := by
  unfold isDirectory node? at stands
  cases resolved : files.resolve path with
  | error e => simp [resolved] at stands
  | ok place =>
      rw [resolved] at stands
      dsimp only at stands
      split at stands
      · rename_i entries found
        exact ⟨place,entries,rfl,found⟩
      · cases stands

theorem namesDirectory {names : List String} (resolved : files.resolve path = .ok place)
    (listed : files.names path = .ok names) : place ∈ files.directories := by
  obtain ⟨there,entries,same,found,_⟩ := namesIff.mp listed
  cases resolved.symm.trans same
  exact Node.directoriesAt [] files.root place found

end Files

namespace Walk

structure Nested (files : Files) (around : List Place) : Prop where
  apart : around.Nodup
  stand : ∀ place ∈ around, place ∈ files.directories

def walk (rules : WalkRules) (files : Files) (around : List Place) (path : Path) (found : Found) :
    Except Error Found := enter rules files (files.directories.length + 1) around path found

variable {rules : WalkRules} {files : Files} {around : List Place} {path root : Path} {place : Place}
  {names listed : List String} {f g h : Found}

theorem Nested.fits (nested : Nested files around) : around.length ≤ files.directories.length :=
  (List.subperm_of_subset nested.apart nested.stand).length_le

theorem Nested.below (nested : Nested files around) (unmet : place ∉ around)
    (stands : place ∈ files.directories) : Nested files (place :: around) :=
  ⟨List.nodup_cons.mpr ⟨unmet,nested.apart⟩,List.forall_mem_cons.mpr ⟨stands,nested.stand⟩⟩

/- Depth that is enough makes no difference. -/
theorem enterDepth {depth depth' : Nat} (nested : Nested files around)
    (deep : files.directories.length < around.length + depth)
    (deep' : files.directories.length < around.length + depth') (path : Path) (f : Found) :
    enter rules files depth around path f = enter rules files depth' around path f := by
  -- nested places are different directories, so there are fewer of them than the depth allows
  induction depth generalizing depth' around path f with
  | zero => exact absurd nested.fits (Nat.not_le_of_lt deep)
  | succ depth ih =>
      cases depth' with
      | zero => exact absurd nested.fits (Nat.not_le_of_lt deep')
      | succ depth' =>
          rw [enter, enter]
          cases resolved : files.resolve path with
          | error e => rfl
          | ok place =>
              change (if _ then _ else _) = (if _ then _ else _)
              by_cases back : place ∈ around
              · rw [if_pos back, if_pos back]
              · rw [if_neg back, if_neg back]
                cases listed : files.names path with
                | error e => rfl
                | ok names =>
                    have inside := nested.below back (Files.namesDirectory resolved listed)
                    have same : enter rules files depth (place :: around) =
                        enter rules files depth' (place :: around) := by
                      funext path f
                      refine ih inside ?_ ?_ path f
                      · rw [List.length_cons]; omega
                      · rw [List.length_cons]; omega
                    rw [same]

theorem walkNew (nested : Nested files around) (resolved : files.resolve path = .ok place)
    (unmet : place ∉ around) (new : place ∉ f.entered) (found : files.names path = .ok listed) :
    walk rules files around path f =
      listed.foldlM (visit rules files (walk rules files (place :: around)))
          (.unread path,f.enter place) >>= fun (directory,found) => .ok (found.addDirectory directory) := by
  have inside := nested.below unmet (Files.namesDirectory resolved found)
  have same : enter rules files files.directories.length (place :: around) =
      walk rules files (place :: around) := by
    funext path f
    refine enterDepth inside ?_ ?_ path f
    · rw [List.length_cons]; omega
    · rw [List.length_cons]; omega
  rw [walk, enterNew resolved unmet new found, same]

theorem walkBack (resolved : files.resolve path = .ok place) (back : place ∈ around) (f : Found) :
    walk rules files around path f = .error (.symlinkCycle path.text) := by
  rw [walk, enter, resolved]
  exact if_pos back

theorem walkAgain (resolved : files.resolve path = .ok place) (unmet : place ∉ around)
    (again : place ∈ f.entered) : walk rules files around path f = .ok f := by
  rw [walk, enter, resolved]
  change (if _ then _ else if _ then _ else _) = _
  rw [if_neg unmet, if_pos again]

theorem kindDirectory {directory : Path} {name : String}
    (kind : rules.kind files directory name = .directory) :
    files.isDirectory (directory.child name) = true := by
  unfold WalkRules.kind at kind
  dsimp only at kind
  cases stands : files.isDirectory (directory.child name) with
  | true => rfl
  | false =>
      rw [stands] at kind
      split at kind
      · cases kind
      · split at kind
        · cases kind
        · cases kind

section
variable {go : Path → Found → Except Error Found} {d d' : Directory} {name : String}

theorem visitCases (visited : visit rules files go (d,f) name = .ok (d',g)) :
    (rules.kind files d.path name = .skipped ∧ d' = d ∧ g = f) ∨
      (rules.kind files d.path name = .document ∧ d' = d.addDocument ⟨d.path.child name⟩ ∧
        g = f.addDocument ⟨d.path.child name⟩) ∨
      (rules.kind files d.path name = .directory ∧ d' = d.addDirectory (d.path.child name) ∧
        go (d.path.child name) f = .ok g) := by
  unfold visit at visited
  dsimp only at visited
  cases kind : rules.kind files d.path name with
  | skipped =>
      rw [kind] at visited
      cases visited
      exact .inl ⟨rfl,rfl,rfl⟩
  | document =>
      rw [kind] at visited
      cases visited
      exact .inr (.inl ⟨rfl,rfl,rfl⟩)
  | directory =>
      rw [kind] at visited
      obtain ⟨found,entered,same⟩ := okBind.mp visited
      cases same
      exact .inr (.inr ⟨rfl,rfl,entered⟩)

theorem visitOk (visited : visit rules files go (d,f) name = .ok (d',g)) : d'.path = d.path ∧
    ((d'.directories = d.directories ∧ g.entered = f.entered ∧ g.directories = f.directories ∧
        rules.kind files d.path name ≠ .directory) ∨
      (d'.directories = d.directories ++ [d.path.child name] ∧
        rules.kind files d.path name = .directory ∧ go (d.path.child name) f = .ok g)) := by
  rcases visitCases visited with ⟨kind,rfl,rfl⟩ | ⟨kind,rfl,rfl⟩ | ⟨kind,rfl,entered⟩
  · exact ⟨rfl,.inl ⟨rfl,rfl,rfl,by rw [kind]; nofun⟩⟩
  · exact ⟨rfl,.inl ⟨rfl,rfl,rfl,by rw [kind]; nofun⟩⟩
  · exact ⟨rfl,.inr ⟨rfl,kind,entered⟩⟩

theorem visitFails {e : Error} (failed : visit rules files go (d,f) name = .error e) :
    rules.kind files d.path name = .directory ∧ go (d.path.child name) f = .error e := by
  unfold visit at failed
  dsimp only at failed
  cases kind : rules.kind files d.path name with
  | skipped => rw [kind] at failed; cases failed
  | document => rw [kind] at failed; cases failed
  | directory =>
      rw [kind] at failed
      cases entered : go (d.path.child name) f with
      | error e' =>
          simp only [entered] at failed
          cases failed
          exact ⟨rfl,rfl⟩
      | ok found =>
          simp only [entered] at failed
          cases failed

theorem unreadChild (root : Path) (names : List String) (name : String) :
    (Directory.unread (root.under names)).path.child name = root.under (names ++ [name]) :=
  (Path.underAppend root names name).symm

theorem visitPaths (visited : listed.foldlM (visit rules files go) (d,f) = .ok (d',g)) :
    d'.path = d.path := by
  induction listed generalizing d f with
  | nil => cases visited; rfl
  | cons name rest ih =>
      rw [List.foldlM_cons, okBind] at visited
      obtain ⟨⟨between,h⟩,first,later⟩ := visited
      exact (ih later).trans (visitOk first).1

end

/-- The directories that a walk reaches, each with the places of those above it and with what was found
before. A directory is reached when the one it stands in is entered and all entries before it are taken. -/
inductive Comes (rules : WalkRules) (files : Files) (root : Path) :
    List String → List Place → Found → Prop where
  | root : Comes rules files root [] [] .empty
  | child {names : List String} {around : List Place} {place : Place} {before found : Found}
      {earlier later : List String} {name : String} {directory : Directory}
      (comes : Comes rules files root names around before)
      (resolved : files.resolve (root.under names) = .ok place) (unmet : place ∉ around)
      (new : place ∉ before.entered)
      (listed : files.names (root.under names) = .ok (earlier ++ name :: later))
      (taken : earlier.foldlM (visit rules files (walk rules files (place :: around)))
        (.unread (root.under names),before.enter place) = .ok (directory,found))
      (kind : rules.kind files (root.under names) name = .directory) :
      Comes rules files root (names ++ [name]) (place :: around) found

def Reaches (rules : WalkRules) (files : Files) (root : Path) (names : List String) : Prop :=
  ∃ around before, Comes rules files root names around before

def LeadsBack (files : Files) (root : Path) (names : List String) : Prop :=
  ∃ inner place, inner <+: names ∧ inner ≠ names ∧ files.resolve (root.under inner) = .ok place ∧
    files.resolve (root.under names) = .ok place

structure Reached (files : Files) (root : Path) (names : List String) (around : List Place) : Prop where
  stands : files.isDirectory (root.under names) = true
  nested : Nested files around
  above : ∀ place, place ∈ around ↔
    ∃ inner, inner <+: names ∧ inner ≠ names ∧ files.resolve (root.under inner) = .ok place

theorem comesReached (stands : files.isDirectory root = true)
    (comes : Comes rules files root names around f) : Reached files root names around := by
  -- the places above a child are its parent and the places above that
  induction comes with
  | root =>
      refine ⟨stands,⟨List.nodup_nil,nofun⟩,fun place => ⟨nofun,fun ⟨inner,ahead,apart,_⟩ => ?_⟩⟩
      exact absurd (List.prefix_nil.mp ahead) apart
  | @child names around place before found earlier later name directory comes resolved unmet new listed
      taken kind ih =>
      refine ⟨?_,ih.nested.below unmet (Files.namesDirectory resolved listed),fun other => ?_⟩
      · rw [Path.underAppend]
        exact kindDirectory kind
      · rw [List.mem_cons, ih.above other]
        constructor
        · intro member
          rcases member with rfl | ⟨inner,ahead,apart,leads⟩
          · exact ⟨names,List.prefix_append _ _,by simp,resolved⟩
          · refine ⟨inner,ahead.trans (List.prefix_append _ _),?_,leads⟩
            intro same
            subst same
            exact absurd ahead.length_le (by simp)
        · intro found
          obtain ⟨inner,ahead,apart,leads⟩ := found
          rcases List.prefix_concat_iff.mp ahead with same | ahead
          · exact absurd same apart
          · by_cases same : inner = names
            · rw [same, resolved] at leads
              exact .inl (Except.ok.inj leads).symm
            · exact .inr ⟨inner,ahead,same,leads⟩

theorem Reached.backIff (reached : Reached files root names around)
    (resolved : files.resolve (root.under names) = .ok place) :
    LeadsBack files root names ↔ place ∈ around := by
  rw [reached.above place]
  constructor
  · intro back
    obtain ⟨inner,other,ahead,apart,leads,same⟩ := back
    cases resolved.symm.trans same
    exact ⟨inner,ahead,apart,leads⟩
  · intro above
    obtain ⟨inner,ahead,apart,leads⟩ := above
    exact ⟨inner,place,ahead,apart,leads,resolved⟩

theorem walkFails (stands : files.isDirectory root = true) {e : Error}
    (comes : Comes rules files root names around f)
    (failed : walk rules files around (root.under names) f = .error e) :
    ∃ inner, Reaches rules files root inner ∧ LeadsBack files root inner ∧
      e = .symlinkCycle (root.under inner).text := by
  -- by the directories that are not above: the walk fails here or at a child below
  induction left : files.directories.length - around.length using Nat.strongRecOn
    generalizing names around f with
  | ind n ih =>
      have reached := comesReached stands comes
      obtain ⟨place,entries,resolved,found⟩ := Files.directoryPlace reached.stands
      have listed := Files.namesFound resolved found
      by_cases back : place ∈ around
      · rw [walkBack resolved back] at failed
        cases failed
        exact ⟨names,⟨around,f,comes⟩,(reached.backIff resolved).mpr back,rfl⟩
      by_cases again : place ∈ f.entered
      · rw [walkAgain resolved back again] at failed
        cases failed
      · have inside := reached.nested.below back (Files.namesDirectory resolved listed)
        have fits := inside.fits
        rw [List.length_cons] at fits
        rw [walkNew reached.nested resolved back again listed] at failed
        have stopped : (entries.map (·.1)).foldlM (visit rules files (walk rules files (place :: around)))
            (.unread (root.under names),f.enter place) = .error e := by
          cases all : (entries.map (·.1)).foldlM (visit rules files (walk rules files (place :: around)))
              (.unread (root.under names),f.enter place) with
          | error e' => rw [all] at failed; cases failed; rfl
          | ok state => rw [all] at failed; cases failed
        obtain ⟨earlier,name,later,⟨directory,g⟩,same,taken,last⟩ := foldFails stopped
        have path := visitPaths taken
        obtain ⟨kind,entered⟩ := visitFails last
        rw [path] at kind entered
        rw [same] at listed
        have child := Comes.child comes resolved back again listed taken kind
        have deeper : files.directories.length - (place :: around).length < n := by
          rw [← left, List.length_cons]
          omega
        rw [unreadChild] at entered
        exact ih _ deeper child entered rfl

structure Distinct (files : Files) (f : Found) : Prop where
  placed : ∀ d ∈ f.directories, ∃ place ∈ f.entered, files.resolve d.path = .ok place
  apart : f.directories.Pairwise fun a b => files.resolve a.path ≠ files.resolve b.path

theorem distinctEmpty (files : Files) : Distinct files .empty := ⟨nofun,.nil⟩

theorem Distinct.enter (distinct : Distinct files f) (place : Place) : Distinct files (f.enter place) :=
  ⟨fun d member => (distinct.placed d member).imp fun _ found =>
    ⟨List.mem_cons_of_mem _ found.1,found.2⟩,distinct.apart⟩

structure Grows (files : Files) (f g : Found) : Prop where
  entered : ∀ place ∈ f.entered, place ∈ g.entered
  held : ∀ d ∈ f.directories, d ∈ g.directories
  listed : ∀ place ∈ g.entered, place ∈ f.entered ∨
    ∃ d ∈ g.directories, files.resolve d.path = .ok place
  fresh : ∀ d ∈ g.directories, d ∈ f.directories ∨
    ∃ place ∈ g.entered, place ∉ f.entered ∧ files.resolve d.path = .ok place
  distinct : Distinct files g

theorem Grows.nothing (distinct : Distinct files f) (entered : g.entered = f.entered)
    (directories : g.directories = f.directories) : Grows files f g := by
  refine ⟨fun _ => ?_,fun _ => ?_,fun _ => ?_,fun _ => ?_,⟨?_,?_⟩⟩
  · rw [entered]; exact id
  · rw [directories]; exact id
  · rw [entered]; exact .inl
  · rw [directories]; exact .inl
  · rw [entered, directories]; exact distinct.placed
  · rw [directories]; exact distinct.apart

theorem Grows.trans (first : Grows files f g) (second : Grows files g h) : Grows files f h := by
  refine ⟨fun place member => second.entered place (first.entered place member),
    fun d member => second.held d (first.held d member),fun place member => ?_,fun d member => ?_,
    second.distinct⟩
  · rcases second.listed place member with old | listed
    · exact (first.listed place old).imp_right fun ⟨d,inside,leads⟩ => ⟨d,second.held d inside,leads⟩
    · exact .inr listed
  · rcases second.fresh d member with old | ⟨place,there,new,leads⟩
    · exact (first.fresh d old).imp_right fun ⟨place,there,new,leads⟩ =>
        ⟨place,second.entered place there,new,leads⟩
    · exact .inr ⟨place,there,fun old => new (first.entered place old),leads⟩

theorem Grows.elsewhere (distinct : Distinct files f) (new : place ∉ f.entered)
    (grows : Grows files (f.enter place) g) : ∀ other ∈ g.directories, ∃ there ∈ g.entered, there ≠ place ∧
      files.resolve other.path = .ok there := by
  intro other member
  rcases grows.fresh other member with old | ⟨there,inside,unentered,found⟩
  · obtain ⟨there,inside,found⟩ := distinct.placed other old
    exact ⟨there,grows.entered there (List.mem_cons_of_mem _ inside),fun same => new (same ▸ inside),found⟩
  · exact ⟨there,inside,fun same => unentered (same ▸ List.mem_cons_self),found⟩

theorem Grows.kept (distinct : Distinct files f) (new : place ∉ f.entered)
    (grows : Grows files (f.enter place) g) {d : Directory} (leads : files.resolve d.path = .ok place) :
    ∀ other ∈ g.directories, other ∈ (g.addDirectory d).directories := by
  intro other member
  obtain ⟨there,_,apart,found⟩ := grows.elsewhere distinct new other member
  exact Sorted.putKept member fun equal => apart (Files.resolveEqual equal leads found).symm

theorem Grows.closed (distinct : Distinct files f) (new : place ∉ f.entered)
    (grows : Grows files (f.enter place) g) {d : Directory} (leads : files.resolve d.path = .ok place) :
    Grows files f (g.addDirectory d) := by
  have elsewhere := grows.elsewhere distinct new
  have kept := grows.kept distinct new leads
  have own : d ∈ (g.addDirectory d).directories := Sorted.putSelf _ d g.directories
  have here : place ∈ g.entered := grows.entered place List.mem_cons_self
  refine ⟨fun there member => grows.entered there (List.mem_cons_of_mem _ member),
    fun other member => kept other (grows.held other member),fun there member => ?_,
    fun other member => ?_,⟨fun other member => ?_,?_⟩⟩
  · rcases grows.listed there member with entered | ⟨other,inside,found⟩
    · rcases List.mem_cons.mp entered with rfl | old
      · exact .inr ⟨d,own,leads⟩
      · exact .inl old
    · exact .inr ⟨other,kept other inside,found⟩
  · rcases Sorted.putMember member with rfl | inside
    · exact .inr ⟨place,here,new,leads⟩
    · exact (grows.fresh other inside).imp_right fun ⟨there,entered,unentered,found⟩ =>
        ⟨there,entered,fun old => unentered (List.mem_cons_of_mem _ old),found⟩
  · rcases Sorted.putMember member with rfl | inside
    · exact ⟨place,here,leads⟩
    · exact grows.distinct.placed other inside
  · refine Sorted.putPairwise grows.distinct.apart fun other member => ?_
    obtain ⟨there,_,apart,found⟩ := elsewhere other member
    rw [leads, found]
    exact ⟨fun same => apart (Except.ok.inj same).symm,fun same => apart (Except.ok.inj same)⟩

theorem visitGrows {go : Path → Found → Except Error Found} {d d' : Directory}
    (grows : ∀ path f g, Distinct files f → go path f = .ok g → Grows files f g)
    (distinct : Distinct files f)
    (visited : listed.foldlM (visit rules files go) (d,f) = .ok (d',g)) : Grows files f g := by
  induction listed generalizing d f with
  | nil =>
      cases visited
      exact .nothing distinct rfl rfl
  | cons name rest ih =>
      rw [List.foldlM_cons, okBind] at visited
      obtain ⟨⟨between,h⟩,first,later⟩ := visited
      have one : Grows files f h := by
        rcases (visitOk first).2 with ⟨_,entered,directories,_⟩ | ⟨_,_,gone⟩
        · exact .nothing distinct entered directories
        · exact grows _ f h distinct gone
      exact one.trans (ih one.distinct later)

theorem enterOk {depth : Nat} (entered : enter rules files (depth + 1) around path f = .ok g) :
    ∃ place, files.resolve path = .ok place ∧ place ∉ around ∧ ((place ∈ f.entered ∧ g = f) ∨
      (place ∉ f.entered ∧ ∃ (listed : List String) (directory : Directory) (h : Found),
        files.names path = .ok listed ∧ directory.path = path ∧ g = h.addDirectory directory ∧
          listed.foldlM (visit rules files (enter rules files depth (place :: around)))
            (.unread path,f.enter place) = .ok (directory,h))) := by
  cases resolved : files.resolve path with
  | error e => rw [enter, resolved] at entered; cases entered
  | ok place =>
      rw [enter, resolved] at entered
      change (if _ then _ else if _ then _ else _) = _ at entered
      split at entered
      · cases entered
      rename_i unmet
      refine ⟨place,rfl,unmet,?_⟩
      split at entered
      · rename_i again
        cases entered
        exact .inl ⟨again,rfl⟩
      · rename_i new
        cases names : files.names path with
        | error e => rw [names] at entered; cases entered
        | ok listed =>
            rw [names] at entered
            obtain ⟨_,same,entered⟩ := okBind.mp entered
            cases same
            obtain ⟨⟨directory,h⟩,visited,same⟩ := okBind.mp entered
            cases same
            exact .inr ⟨new,listed,directory,h,rfl,visitPaths visited,rfl,visited⟩

theorem enterGrows (depth : Nat) (around : List Place) (path : Path) (f g : Found)
    (distinct : Distinct files f) (entered : enter rules files depth around path f = .ok g) :
    Grows files f g := by
  induction depth generalizing around path f g with
  | zero => cases entered
  | succ depth ih =>
      obtain ⟨place,resolved,_,⟨_,same⟩ | ⟨new,listed,directory,h,_,own,same,visited⟩⟩ := enterOk entered
      · rw [same]
        exact .nothing distinct rfl rfl
      · have grows := visitGrows (ih (place :: around)) (distinct.enter place) visited
        rw [← own] at resolved
        rw [same]
        exact Grows.closed distinct new grows resolved

theorem walkGrows (distinct : Distinct files f)
    (walked : walk rules files around path f = .ok g) : Grows files f g :=
  enterGrows _ around path f g distinct walked

theorem walkThrough (stands : files.isDirectory root = true) {found : Found}
    (walked : walk rules files [] root .empty = .ok found)
    (comes : Comes rules files root names around f) : Distinct files f ∧
      ∃ g, walk rules files around (root.under names) f = .ok g ∧
        ∀ place ∈ g.entered, place ∈ found.entered := by
  -- a walk that goes through has gone through every step that led to this directory
  induction comes with
  | root => exact ⟨distinctEmpty files,found,walked,fun _ => id⟩
  | @child names around place before after earlier later name directory comes resolved unmet new listed
      taken kind ih =>
      obtain ⟨distinct,g,gone,inside⟩ := ih
      have reached := comesReached stands comes
      have grows : ∀ path f g, Distinct files f → walk rules files (place :: around) path f = .ok g →
          Grows files f g := fun path f g distinct => walkGrows distinct
      rw [walkNew reached.nested resolved unmet new listed] at gone
      obtain ⟨⟨d,h⟩,visited,same⟩ := okBind.mp gone
      cases same
      obtain ⟨state,⟨d',h'⟩,first,here,last⟩ := foldThrough visited
      cases taken.symm.trans first
      have soFar := visitGrows grows (distinct.enter place) taken
      have path := visitPaths taken
      rcases (visitOk here).2 with ⟨_,_,_,other⟩ | ⟨_,_,entered⟩
      · rw [path] at other
        exact absurd kind other
      · rw [path] at entered
        have growth := walkGrows soFar.distinct entered
        rw [unreadChild] at entered
        exact ⟨soFar.distinct,h',entered,fun seen member =>
          inside seen ((visitGrows grows growth.distinct last).entered seen member)⟩

theorem enterEntered {depth : Nat} (distinct : Distinct files f)
    (entered : enter rules files depth around path f = .ok g) :
    ∃ place ∈ g.entered, place ∉ around ∧ files.resolve path = .ok place := by
  cases depth with
  | zero => cases entered
  | succ depth =>
      obtain ⟨place,resolved,unmet,⟨again,same⟩ | ⟨_,listed,directory,h,_,_,same,visited⟩⟩ :=
        enterOk entered
      · exact ⟨place,same ▸ again,unmet,resolved⟩
      · have grows := visitGrows (enterGrows depth (place :: around)) (distinct.enter place) visited
        exact ⟨place,same ▸ grows.entered place List.mem_cons_self,unmet,resolved⟩

inductive Ends (rules : WalkRules) (files : Files) (root : Path) : Except Error (List Directory) → Prop where
  | cycle {names : List String} (reached : Reaches rules files root names)
      (back : LeadsBack files root names) :
      Ends rules files root (.error (.symlinkCycle (root.under names).text))
  | whole {directories : List Directory}
      (forward : ∀ names, Reaches rules files root names → ¬ LeadsBack files root names)
      (apart : directories.Pairwise fun a b => files.resolve a.path ≠ files.resolve b.path)
      (placed : ∀ d ∈ directories, ∃ place, files.resolve d.path = .ok place)
      (covered : ∀ names, Reaches rules files root names →
        ∃ d ∈ directories, files.resolve d.path = files.resolve (root.under names)) :
      Ends rules files root (.ok directories)

theorem fromRootEnds (stands : files.isDirectory root = true) :
    Ends rules files root ((fromRoot rules files root).map (·.directories)) := by
  change Ends rules files root ((walk rules files [] root .empty).map (·.directories))
  cases walked : walk rules files [] root .empty with
  | error e =>
      obtain ⟨names,reached,back,rfl⟩ := walkFails stands .root walked
      exact .cycle reached back
  | ok found =>
      have grows := walkGrows (distinctEmpty files) walked
      refine .whole (fun names reached back => ?_) grows.distinct.apart
        (fun d member => (grows.distinct.placed d member).imp fun _ there => there.2) fun names reached => ?_
      · obtain ⟨around,before,comes⟩ := reached
        obtain ⟨_,g,gone,_⟩ := walkThrough stands walked comes
        obtain ⟨inner,place,ahead,apart,leads,resolved⟩ := back
        have above := ((comesReached stands comes).above place).mpr ⟨inner,ahead,apart,leads⟩
        rw [walkBack resolved above] at gone
        cases gone
      · obtain ⟨around,before,comes⟩ := reached
        obtain ⟨distinct,g,gone,inside⟩ := walkThrough stands walked comes
        obtain ⟨place,_,resolved,_⟩ := Files.directoryPlace (comesReached stands comes).stands
        obtain ⟨there,entered,_,same⟩ := enterEntered distinct gone
        cases resolved.symm.trans same
        rcases grows.listed place (inside place entered) with none | ⟨d,member,leads⟩
        · cases none
        · exact ⟨d,member,leads.trans resolved.symm⟩

end Walk

namespace Workspace

def scanRules (files : Files) (top : Path) (options : ScanOptions) (excluded : IgnoreRules) : WalkRules :=
  let ignored := if options.disableGitignore then IgnoreRules.none top else (gitignore files top).1
  ⟨fun path isDirectory => ignored.ignores path isDirectory || excluded.ignores path isDirectory,
    options.ignoreMarker⟩

theorem scanWalks {files : Files} {current root top : Path} {options : ScanOptions} {excluded : IgnoreRules}
    (rooted : rootAt files current root = .ok top)
    (read : IgnoreRules.ofPatterns top options.excludePatterns = .ok excluded) :
    (scanWith files current root options).1 =
      (Walk.fromRoot (scanRules files top options excluded) files top).map
        fun found => ⟨top,options,found.directories,found.documents⟩ := by
  unfold scanWith scanRules
  rw [rooted]
  dsimp only
  rw [read]
  cases options.disableGitignore <;> rfl

/- A scan of a directory comes to an end, however its links lead. Depth beyond the number of directories
makes no difference to it. -/
theorem scanEnds {files : Files} {current root top : Path} {options : ScanOptions} {excluded : IgnoreRules}
    (rooted : rootAt files current root = .ok top)
    (read : IgnoreRules.ofPatterns top options.excludePatterns = .ok excluded) :
    Walk.Ends (scanRules files top options excluded) files top
        ((scanWith files current root options).1.map (·.directories)) ∧
      ∀ depth, files.directories.length < depth →
        Walk.enter (scanRules files top options excluded) files depth [] top .empty =
          Walk.fromRoot (scanRules files top options excluded) files top := by
  have stands : files.isDirectory top = true := by
    unfold rootAt at rooted
    dsimp only at rooted
    split at rooted
    · rename_i stands
      cases rooted
      exact stands
    · cases rooted
  refine ⟨?_,fun depth deep => ?_⟩
  · have ends := @Walk.fromRootEnds (scanRules files top options excluded) files top stands
    rw [scanWalks rooted read]
    cases walked : Walk.fromRoot (scanRules files top options excluded) files top with
    | error e => rw [walked] at ends; exact ends
    | ok found => rw [walked] at ends; exact ends
  · have nested : Walk.Nested files [] := ⟨List.nodup_nil,nofun⟩
    exact Walk.enterDepth nested (by simpa using deep) (by simp) top .empty

theorem sharedEnds :
    let files : Files := ⟨[("a",.directory []),("b",.link "a")]⟩
    rootAt files ⟨"/"⟩ ⟨"/"⟩ = .ok ⟨"/"⟩ ∧
      IgnoreRules.ofPatterns ⟨"/"⟩ ({} : ScanOptions).excludePatterns = .ok (.none ⟨"/"⟩) ∧
      Walk.Ends (scanRules files ⟨"/"⟩ {} (.none ⟨"/"⟩)) files ⟨"/"⟩
        (.ok [⟨⟨"/"⟩,[],[⟨"/a"⟩,⟨"/b"⟩],none⟩,⟨⟨"/a"⟩,[],[],none⟩]) := by
  intro files
  have rooted : rootAt files ⟨"/"⟩ ⟨"/"⟩ = .ok ⟨"/"⟩ := rfl
  have read : IgnoreRules.ofPatterns ⟨"/"⟩ ({} : ScanOptions).excludePatterns = .ok (.none ⟨"/"⟩) := rfl
  have scanned : ((scanWith files ⟨"/"⟩ ⟨"/"⟩ {}).1.map (·.directories)).toOption =
      some [⟨⟨"/"⟩,[],[⟨"/a"⟩,⟨"/b"⟩],none⟩,⟨⟨"/a"⟩,[],[],none⟩] := by decide +kernel
  have ends := (@scanEnds files ⟨"/"⟩ ⟨"/"⟩ ⟨"/"⟩ {} (.none ⟨"/"⟩) rooted read).1
  cases whole : (scanWith files ⟨"/"⟩ ⟨"/"⟩ {}).1.map (·.directories) with
  | error e =>
      rw [whole] at scanned
      cases scanned
  | ok directories =>
      rw [whole] at scanned ends
      cases scanned
      exact ⟨rooted,read,ends⟩

example : (match (scanWith ⟨[("a",.directory [("up",.link "..")])]⟩ ⟨"/"⟩ ⟨"/"⟩ {}).1 with
    | .error e => some e
    | .ok _ => none) = some (.symlinkCycle "/a/up") := by decide +kernel

end Workspace

end DocBlocks
