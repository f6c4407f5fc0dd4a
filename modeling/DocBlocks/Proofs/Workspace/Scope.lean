import DocBlocks.Proofs.Workspace.Walked
import DocBlocks.Workspace.Scan
import Mathlib

/-! A scan finds what is in scope: the documents and directories below a root that are neither hidden nor
ignored, and have no directory on the way that is, or that has the marker. -/
namespace DocBlocks

/-- What decides which entries below a root are in scope. Entries are told by their names from the root
down. -/
structure Scope where
  root : Path
  tree : Node
  ignored : Path → Bool → Bool
  excluded : Path → Bool → Bool
  marked : List String → Prop

namespace Scope

def path (s : Scope) (names : List String) : Path := s.root.under names

structure Keeps (s : Scope) (names : List String) (isDirectory : Bool) : Prop where
  shown : ∀ name, names.getLast? = some name → name.toList.head? ≠ some '.'
  tracked : s.ignored (s.path names) isDirectory = false
  included : s.excluded (s.path names) isDirectory = false

structure Opens (s : Scope) (names : List String) : Prop where
  keeps : s.Keeps names true
  unmarked : ¬ s.marked names

structure HasDirectory (s : Scope) (names : List String) : Prop where
  stands : ∃ entries, s.tree.at? names = some (.directory entries)
  opens : ∀ inner, inner ≠ [] → inner <+: names → s.Opens inner

structure HasDocument (s : Scope) (names : List String) : Prop where
  stands : ∃ content mode, s.tree.at? names = some (.file content mode)
  keeps : s.Keeps names false
  opens : ∀ inner, inner ≠ [] → inner <+: names → inner ≠ names → s.Opens inner

/-- Holds of a directory that lists its own entries in scope, in order, and is described by the least of
its documents that is named for it. -/
structure Lists (s : Scope) (names : List String) (d : Directory) : Prop where
  path : d.path = s.path names
  documents : ∀ p, p ∈ d.documents ↔
    ∃ name, s.HasDocument (names ++ [name]) ∧ p = s.path (names ++ [name])
  documentsInOrder : d.documents.Pairwise fun p q => p.order q = .lt
  directories : ∀ p, p ∈ d.directories ↔
    ∃ name, s.HasDirectory (names ++ [name]) ∧ p = s.path (names ++ [name])
  directoriesInOrder : d.directories.Pairwise fun p q => p.order q = .lt
  readme : ∀ p, d.readme = some p ↔ p ∈ d.documents ∧ (Document.mk p).isReadme = true ∧
    ∀ q ∈ d.documents, (Document.mk q).isReadme = true → q = p ∨ p.order q = .lt
  noReadme : d.readme = none ↔ ∀ p ∈ d.documents, (Document.mk p).isReadme = false

structure Exact (s : Scope) (w : Workspace) : Prop where
  documents : ∀ d, d ∈ w.documents ↔ ∃ names, s.HasDocument names ∧ d.path = s.path names
  documentsInOrder : w.documents.Pairwise fun a b => a.path.order b.path = .lt
  generatable : w.generatable.Sublist w.documents
  markdown : ∀ d, d ∈ w.generatable ↔ d ∈ w.documents ∧ ∃ extension,
    d.path.extension? = some extension ∧ extension.map Char.toLower ∈ ["md","mdx","markdown"]
  directories : ∀ d ∈ w.directories, ∃ names, s.HasDirectory names ∧ s.Lists names d
  allDirectories : ∀ names, s.HasDirectory names → ∃ d ∈ w.directories, d.path = s.path names
  directoriesInOrder : w.directories.Pairwise fun a b => a.path.order b.path = .lt

def Marks (s : Scope) (files : Files) (marker : String) : Prop :=
  ∀ names entries, s.tree.at? names = some (.directory entries) →
    (s.marked names ↔ files.contains ((s.path names).child marker) = true)

def rules (s : Scope) (marker : String) : WalkRules :=
  ⟨fun path isDirectory => s.ignored path isDirectory || s.excluded path isDirectory,marker⟩

section
variable {s : Scope} {files : Files} {marker : String} {place : Place} {names : List String}
  {node : Node} {entries : List (String × Node)} {isDirectory : Bool}

theorem takenIff (filled : names ≠ []) :
    Walk.takes (s.rules marker) files s.root names isDirectory = true ↔
      s.Keeps names isDirectory ∧
        (isDirectory = true → files.contains ((s.path names).child marker) = false) := by
  obtain ⟨name,last⟩ : ∃ name, names.getLast? = some name :=
    ⟨_,List.getLast?_eq_some_getLast filled⟩
  simp only [Walk.takes, last, rules, Bool.and_eq_true, Bool.not_eq_true', decide_eq_false_iff_not,
    Bool.or_eq_false_iff, Bool.and_eq_false_imp]
  constructor
  · rintro ⟨⟨shown,tracked,included⟩,unmarked⟩
    refine ⟨⟨fun other same => ?_,tracked,included⟩,unmarked⟩
    cases last.symm.trans same
    exact shown
  · rintro ⟨⟨shown,tracked,included⟩,unmarked⟩
    exact ⟨⟨shown name last,tracked,included⟩,unmarked⟩

theorem directoryTaken (marks : s.Marks files marker) (filled : names ≠ [])
    (stands : s.tree.at? names = some (.directory entries)) :
    Walk.takes (s.rules marker) files s.root names true = true ↔ s.Opens names := by
  have marked := marks names entries stands
  rw [takenIff filled]
  constructor
  · rintro ⟨keeps,unmarked⟩
    refine ⟨keeps,fun found => ?_⟩
    exact Bool.false_ne_true ((unmarked rfl).symm.trans (marked.mp found))
  · rintro ⟨keeps,unmarked⟩
    exact ⟨keeps,fun _ => Bool.eq_false_iff.mpr fun found => unmarked (marked.mpr found)⟩

theorem standsAbove {inner : List String} (stands : s.tree.at? names = some node)
    (ahead : inner <+: names) (apart : inner ≠ names) :
    ∃ entries, s.tree.at? inner = some (.directory entries) := by
  obtain ⟨rest,rfl⟩ := ahead
  rw [Node.atAppend, Option.bind_eq_some_iff] at stands
  obtain ⟨above,there,below⟩ := stands
  cases rest with
  | nil => exact absurd (List.append_nil inner).symm apart
  | cons name rest =>
      obtain ⟨_,named,_⟩ := Option.bind_eq_some_iff.mp below
      cases above with
      | directory entries => exact ⟨entries,there⟩
      | file content mode => cases named
      | link target => cases named

theorem waysTaken (marks : s.Marks files marker) (stands : s.tree.at? names = some node) :
    (∀ inner, inner <+: names → inner ≠ names →
        Walk.takes (s.rules marker) files s.root inner true = true) ↔
      ∀ inner, inner ≠ [] → inner <+: names → inner ≠ names → s.Opens inner := by
  constructor
  · intro taken inner filled ahead apart
    obtain ⟨_,there⟩ := standsAbove stands ahead apart
    exact (directoryTaken marks filled there).mp (taken inner ahead apart)
  · intro opens inner ahead apart
    by_cases filled : inner = []
    · rw [filled]
      rfl
    · obtain ⟨_,there⟩ := standsAbove stands ahead apart
      exact (directoryTaken marks filled there).mpr (opens inner filled ahead apart)

theorem nodeTaken (marks : s.Marks files marker) (ordered : s.tree.Ordered) :
    (names,node) ∈ s.tree.takenFrom (Walk.takes (s.rules marker) files s.root) [] ↔
      s.tree.at? names = some node ∧
        Walk.takes (s.rules marker) files s.root names node.isDirectory = true ∧
        ∀ inner, inner ≠ [] → inner <+: names → inner ≠ names → s.Opens inner := by
  rw [Node.takenMember [] s.tree ordered]
  constructor
  · rintro ⟨rest,rfl,stands,reaches⟩
    obtain ⟨taken,way⟩ := (Node.reachesWhole _ _ _ _).mp reaches
    exact ⟨stands,taken,(waysTaken marks stands).mp way⟩
  · rintro ⟨stands,taken,opens⟩
    exact ⟨names,rfl,stands,
      (Node.reachesWhole _ _ _ _).mpr ⟨taken,(waysTaken marks stands).mpr opens⟩⟩

theorem takenDirectory (marks : s.Marks files marker) (ordered : s.tree.Ordered) :
    (∃ node, node.isDirectory = true ∧
        (names,node) ∈ s.tree.takenFrom (Walk.takes (s.rules marker) files s.root) []) ↔
      s.HasDirectory names := by
  simp only [nodeTaken marks ordered]
  constructor
  · rintro ⟨node,kind,stands,taken,opens⟩
    cases node with
    | directory entries =>
        refine ⟨⟨entries,stands⟩,fun inner filled ahead => ?_⟩
        by_cases same : inner = names
        · subst same
          exact (directoryTaken marks filled stands).mp taken
        · exact opens inner filled ahead same
    | file content mode => cases kind
    | link target => cases kind
  · rintro ⟨⟨entries,stands⟩,opens⟩
    refine ⟨.directory entries,rfl,stands,?_,fun inner filled ahead _ => opens inner filled ahead⟩
    by_cases top : names = []
    · rw [top]
      rfl
    · exact (directoryTaken marks top stands).mpr (opens names top (List.prefix_refl _))

theorem takenDocument (marks : s.Marks files marker) (isTree : s.tree.IsTree)
    (top : s.tree.isDirectory = true) :
    (∃ node, node.isDirectory = false ∧
        (names,node) ∈ s.tree.takenFrom (Walk.takes (s.rules marker) files s.root) []) ↔
      s.HasDocument names := by
  have filled {node} (stands : s.tree.at? names = some node) (leaf : node.isDirectory = false) :
      names ≠ [] := by
    rintro rfl
    cases stands
    exact Bool.false_ne_true (leaf.symm.trans top)
  simp only [nodeTaken marks isTree.ordered]
  constructor
  · rintro ⟨node,leaf,stands,taken,opens⟩
    rw [leaf, takenIff (filled stands leaf)] at taken
    cases node with
    | file content mode => exact ⟨⟨content,mode,stands⟩,taken.1,opens⟩
    | link target => exact absurd stands (isTree.linkless names target)
    | directory entries => cases leaf
  · rintro ⟨⟨content,mode,stands⟩,keeps,opens⟩
    exact ⟨.file content mode,rfl,stands,(takenIff (filled stands rfl)).mpr ⟨keeps,nofun⟩,opens⟩

theorem listedMember (marks : s.Marks files marker) (ordered : s.tree.Ordered)
    (stands : s.tree.at? names = some (.directory entries)) (has : s.HasDirectory names)
    (isDirectory : Bool) (p : Path) :
    p ∈ entries.filterMap (Walk.listed (s.rules marker) files s.root names isDirectory) ↔
      ∃ name, (∃ node, node.isDirectory = isDirectory ∧ (names ++ [name],node) ∈
          s.tree.takenFrom (Walk.takes (s.rules marker) files s.root) []) ∧
        p = s.path (names ++ [name]) := by
  have opens (name : String) : ∀ inner, inner ≠ [] → inner <+: names ++ [name] →
      inner ≠ names ++ [name] → s.Opens inner := fun inner filled ahead apart =>
    has.opens inner filled ((List.prefix_concat_iff.mp ahead).resolve_left apart)
  have there {name node} : s.tree.at? (names ++ [name]) = some node ↔ (name,node) ∈ entries := by
    have order : Node.InOrder entries := ordered names _ stands
    rw [← Node.namedEntry order, Node.atLast]
    constructor
    · rintro ⟨_,same,found⟩
      cases stands.symm.trans same
      exact found
    · exact fun found => ⟨entries,stands,found⟩
  simp only [List.mem_filterMap, nodeTaken marks ordered, there, Walk.listed]
  constructor
  · rintro ⟨⟨name,node⟩,member,same⟩
    split at same
    · rename_i counts
      obtain ⟨rfl,taken⟩ := counts
      exact ⟨name,⟨node,rfl,member,taken,opens name⟩,(Option.some.inj same).symm⟩
    · cases same
  · rintro ⟨name,⟨node,rfl,member,taken,_⟩,rfl⟩
    exact ⟨(name,node),member,if_pos ⟨rfl,taken⟩⟩

theorem listedInOrder (stands : files.Stands s.root place s.tree)
    (there : s.tree.at? names = some (.directory entries)) (isDirectory : Bool) :
    (entries.filterMap (Walk.listed (s.rules marker) files s.root names isDirectory)).Pairwise
      fun p q => p.order q = .lt := by
  have order : Node.InOrder entries := stands.isTree.ordered names _ there
  have filled := Path.underFilled stands.filled (stands.plain there)
  have plain {entry : String × Node} (member : entry ∈ entries) : Path.IsName entry.1 :=
    stands.isTree.named names entries there _ _ ((Node.namedEntry order).mpr member)
  have path {entry p} (found : Walk.listed (s.rules marker) files s.root names isDirectory entry =
      some p) : p = (s.root.under names).child entry.1 := by
    unfold Walk.listed at found
    split at found
    · rw [← Path.underAppend]
      exact (Option.some.inj found).symm
    · cases found
  rw [List.pairwise_filterMap]
  refine (List.pairwise_map.mp order).imp_of_mem fun first second before p found q found' => ?_
  rw [path found, path found', Path.childOrder filled (plain first) (plain second)]
  exact before

theorem listingLists (marks : s.Marks files marker) (stands : files.Stands s.root place s.tree)
    (top : s.tree.isDirectory = true) (there : s.tree.at? names = some (.directory entries))
    (has : s.HasDirectory names) :
    s.Lists names (Walk.listing (s.rules marker) files s.root names entries) := by
  have ordered := stands.isTree.ordered
  have lists : Walk.Lists (s.rules marker) files s.root names (.unread (s.path names)) entries
      (Walk.listing (s.rules marker) files s.root names entries) := Walk.allListed _ _ _ _ _ _
  have described : (Walk.listing (s.rules marker) files s.root names entries).readme = _ :=
    lists.readme rfl
  have inOrder : (Walk.listing (s.rules marker) files s.root names entries).documents.Pairwise
      fun p q => p.order q = .lt := by
    rw [lists.documents]
    exact listedInOrder stands there false
  refine ⟨lists.path,fun p => ?_,inOrder,fun p => ?_,?_,fun p => ?_,?_⟩
  · rw [lists.documents]
    refine (listedMember marks ordered there has false p).trans ?_
    simp only [takenDocument marks stands.isTree top]
  · rw [lists.directories]
    refine (listedMember marks ordered there has true p).trans ?_
    simp only [takenDirectory marks ordered]
  · rw [lists.directories]
    exact listedInOrder stands there true
  · rw [described]
    exact Sorted.findLeast inOrder _
  · rw [described, List.find?_eq_none]
    simp only [Bool.not_eq_true]

theorem takenPaths (marks : s.Marks files marker) (stands : files.Stands s.root place s.tree) :
    (s.tree.takenFrom (Walk.takes (s.rules marker) files s.root) []).Pairwise
      fun a b => (s.path b.1).order (s.path a.1) ≠ .eq := by
  have plain {entry : List String × Node} (member : entry ∈
      s.tree.takenFrom (Walk.takes (s.rules marker) files s.root) []) :
      ∀ name ∈ entry.1, Path.IsName name :=
    stands.plain ((nodeTaken marks stands.isTree.ordered).mp member).1
  refine (Node.takenApart _ [] s.tree stands.isTree.ordered).imp_of_mem
    fun first second apart equal => apart ?_
  exact (Path.underSame stands.filled (plain second) (plain first) equal).symm

theorem putTaken {α : Type} (path : α → Path) (made? : List String × Node → Option α)
    (own : ∀ entry a, made? entry = some a → path a = s.path entry.1)
    {taken : List (List String × Node)}
    (apart : taken.Pairwise fun a b => (s.path b.1).order (s.path a.1) ≠ .eq) (a : α) :
    a ∈ Sorted.putAll (fun a b => (path a).order (path b)) (taken.filterMap made?) [] ↔
      ∃ entry ∈ taken, made? entry = some a := by
  rw [← List.mem_filterMap]
  refine ⟨fun member => (Sorted.putAllFound member).resolve_right nofun,Sorted.putAllMember ?_⟩
  rw [List.pairwise_filterMap]
  refine apart.imp fun different a made b made' => ?_
  rw [own _ a made, own _ b made']
  exact different

theorem documentsFound (marks : s.Marks files marker) (stands : files.Stands s.root place s.tree)
    (top : s.tree.isDirectory = true) (d : Document) :
    d ∈ Sorted.putAll (fun a b => a.path.order b.path)
        ((s.tree.takenFrom (Walk.takes (s.rules marker) files s.root) []).filterMap
          (Walk.document? s.root)) [] ↔
      ∃ names, s.HasDocument names ∧ d.path = s.path names := by
  have made {entry d} : Walk.document? s.root entry = some d ↔
      entry.2.isDirectory = false ∧ d.path = s.path entry.1 := by
    unfold Walk.document?
    obtain ⟨p⟩ := d
    cases entry.2.isDirectory <;> simp [path, eq_comm]
  rw [putTaken Document.path _ (fun _ _ same => (made.mp same).2) (takenPaths marks stands)]
  simp only [made, ← takenDocument marks stands.isTree top]
  constructor
  · rintro ⟨⟨names,node⟩,member,leaf,path⟩
    exact ⟨names,⟨node,leaf,member⟩,path⟩
  · rintro ⟨names,⟨node,leaf,member⟩,path⟩
    exact ⟨(names,node),member,leaf,path⟩

theorem directoriesFound (marks : s.Marks files marker) (stands : files.Stands s.root place s.tree)
    (d : Directory) :
    d ∈ Sorted.putAll (fun a b => a.path.order b.path)
        ((s.tree.takenFrom (Walk.takes (s.rules marker) files s.root) []).filterMap
          (Walk.directory? (s.rules marker) files s.root)) [] ↔
      ∃ names entries, s.tree.at? names = some (.directory entries) ∧ s.HasDirectory names ∧
        d = Walk.listing (s.rules marker) files s.root names entries := by
  have ordered := stands.isTree.ordered
  have made {entry d} : Walk.directory? (s.rules marker) files s.root entry = some d ↔
      ∃ entries, entry.2 = .directory entries ∧
        d = Walk.listing (s.rules marker) files s.root entry.1 entries := by
    unfold Walk.directory?
    cases entry.2 <;> simp [eq_comm]
  rw [putTaken Directory.path _ ?_ (takenPaths marks stands)]
  · simp only [made]
    constructor
    · rintro ⟨⟨names,_⟩,member,entries,rfl,same⟩
      exact ⟨names,entries,((nodeTaken marks ordered).mp member).1,
        (takenDirectory marks ordered).mp ⟨_,rfl,member⟩,same⟩
    · rintro ⟨names,entries,there,has,same⟩
      obtain ⟨node,_,member⟩ := (takenDirectory marks ordered).mpr has
      cases there.symm.trans ((nodeTaken marks ordered).mp member).1
      exact ⟨(names,.directory entries),member,entries,rfl,same⟩
  · intro entry d same
    obtain ⟨entries,_,rfl⟩ := made.mp same
    exact (Walk.allListed _ _ _ _ _ _).path

theorem markdownIff (d : Document) : d.isGeneratable = true ↔ ∃ extension,
    d.path.extension? = some extension ∧ extension.map Char.toLower ∈ ["md","mdx","markdown"] := by
  unfold Document.isGeneratable Document.grammar CommentGrammar.forExtension
  cases d.path.extension? with
  | none =>
      have empty : (Option.none.getD "").map Char.toLower = "" := by cbv
      rw [empty]
      exact ⟨nofun,nofun⟩
  | some extension =>
      simp only [Option.getD_some, Option.some.injEq, exists_eq_left']
      split
      · rename_i listed
        exact ⟨fun _ => listed,fun _ => rfl⟩
      · rename_i other
        split <;> exact ⟨nofun,fun listed => absurd listed other⟩

theorem scanFinds (marks : s.Marks files marker) (stands : files.Stands s.root place s.tree)
    (top : s.tree.isDirectory = true) (options : ScanOptions) (same : options.ignoreMarker = marker) :
    ∃ w, Workspace.scanIgnoring files s.root options (s.rules marker).ignores = .ok w ∧
      s.Exact w := by
  have walked : ∃ found, Walk.fromRoot (s.rules marker) files s.root = .ok found ∧
      Walk.Gains (s.rules marker) files s.root place .empty
        (s.tree.takenFrom (Walk.takes (s.rules marker) files s.root) []) found := by
    revert stands top
    cases s.tree with
    | directory entries => exact fun stands _ => Walk.fromRootTakes _ stands
    | file content mode => exact fun _ top => nomatch top
    | link target => exact fun _ top => nomatch top
  obtain ⟨found,walked,gains⟩ := walked
  refine ⟨⟨s.root,options,found.directories,found.documents⟩,?_,?_⟩
  · rw [Workspace.scanIgnoring, same]
    change (Walk.fromRoot (s.rules marker) files s.root >>= _) = _
    rw [walked]
    rfl
  · have documents := documentsFound marks stands top
    have directories := directoriesFound marks stands
    have ordered : Sorted.Strict (fun a b => a.path.order b.path) found.documents := by
      rw [gains.documents]
      exact Sorted.putAllStrict _ .nil
    have orderedBelow : Sorted.Strict (fun a b => a.path.order b.path) found.directories := by
      rw [gains.directories]
      exact Sorted.putAllStrict _ .nil
    have documents' : found.documents = Sorted.putAll _ _ [] := gains.documents
    have directories' : found.directories = Sorted.putAll _ _ [] := gains.directories
    rw [← documents'] at documents
    rw [← directories'] at directories
    refine ⟨documents,ordered,List.filter_sublist,fun d => ?_,fun d member => ?_,fun names has => ?_,
      orderedBelow⟩
    · rw [Workspace.generatable, List.mem_filter, markdownIff]
    · obtain ⟨names,entries,there,has,rfl⟩ := (directories d).mp member
      exact ⟨names,has,listingLists marks stands top there has⟩
    · obtain ⟨entries,there⟩ := has.stands
      exact ⟨_,(directories _).mpr ⟨names,entries,there,has,rfl⟩,(Walk.allListed _ _ _ _ _ _).path⟩

end

/-- The scope below a root. A directory has the marker when an entry of that name stands in it; a marker
that no entry can be named is looked up from the directory as a path. -/
def below (files : Files) (root : Path) (tree : Node) (marker : String)
    (ignored excluded : Path → Bool → Bool) : Scope where
  root := root
  tree := tree
  ignored := ignored
  excluded := excluded
  marked names :=
    if Path.IsName marker then ∃ node, tree.at? (names ++ [marker]) = some node
    else files.contains ((root.under names).child marker) = true

section
variable {files : Files} {root : Path} {place : Place} {tree : Node} {entries : List (String × Node)}

theorem marksBelow (stands : files.Stands root place tree) (marker : String)
    (ignored excluded : Path → Bool → Bool) :
    (below files root tree marker ignored excluded).Marks files marker := by
  intro names entries there
  change (if Path.IsName marker then _ else _) ↔ _
  split
  · rename_i plain
    rw [Files.contains, path, below, stands.nodeBelow there plain, Option.isSome_iff_exists]
    have entry (node : Node) : tree.at? (names ++ [marker]) = some node ↔
        Node.named? marker entries = some node := by
      rw [Node.atLast]
      constructor
      · rintro ⟨_,same,found⟩
        cases there.symm.trans same
        exact found
      · exact fun found => ⟨entries,there,found⟩
    simp only [entry]
  · exact Iff.rfl

/- Whatever is ignored, a scan below a root with a tree of directories and files succeeds and finds what
is in scope; a scan with options is such a scan, with the rules of the ignore file and of the options. -/
theorem scanExact (options : ScanOptions) (stands : files.Stands root place (.directory entries)) :
    let scope := below files root (.directory entries) options.ignoreMarker
    (∀ ignored excluded, ∃ w, Workspace.scanIgnoring files root options
        (fun path isDirectory => ignored path isDirectory || excluded path isDirectory) = .ok w ∧
      (scope ignored excluded).Exact w) ∧
    ∀ current given w notices, Workspace.rootAt files current given = .ok root →
      Workspace.scanWith files current given options = (.ok w,notices) →
      ∃ excluded, IgnoreRules.ofPatterns root options.excludePatterns = .ok excluded ∧
        let ignored := if options.disableGitignore then IgnoreRules.none root
          else (Workspace.gitignore files root).1
        (scope ignored.ignores excluded.ignores).Exact w := by
  intro scope
  have all (ignored excluded) : ∃ w, Workspace.scanIgnoring files root options
        (fun path isDirectory => ignored path isDirectory || excluded path isDirectory) = .ok w ∧
      (scope ignored excluded).Exact w :=
    scanFinds (marksBelow stands options.ignoreMarker ignored excluded) stands rfl options rfl
  refine ⟨all,fun current given w notices start scanned => ?_⟩
  unfold Workspace.scanWith at scanned
  rw [start] at scanned
  dsimp only at scanned
  cases read : IgnoreRules.ofPatterns root options.excludePatterns with
  | error pattern =>
      rw [read] at scanned
      cases (Prod.mk.inj scanned).1
  | ok excluded =>
      rw [read] at scanned
      obtain ⟨w',found,whole⟩ := all (if options.disableGitignore then IgnoreRules.none root
        else (Workspace.gitignore files root).1).ignores excluded.ignores
      refine ⟨excluded,rfl,?_⟩
      have same : Except.ok w' = (Except.ok w : Except Error Workspace) := by
        rw [← found, ← (Prod.mk.inj scanned).1]
        cases options.disableGitignore <;> rfl
      cases same
      exact whole

end

def nested : List (String × Node) :=
  [("sub",.directory [("a.md",.file (.text "x") newFileMode)])]

theorem nestedTree : (Node.directory nested).IsTree := by
  refine Node.directoryTree (List.pairwise_singleton _ _) fun name below member => ?_
  cases List.mem_singleton.mp member
  refine ⟨by decide,Node.directoryTree (List.pairwise_singleton _ _) fun name below member => ?_⟩
  cases List.mem_singleton.mp member
  exact ⟨by decide,Node.fileTree _ _⟩

theorem nestedStands : Files.Stands ⟨nested⟩ ⟨"/"⟩ [] (.directory nested) := ⟨rfl,rfl,nestedTree⟩

theorem nestedScanned :
    let files : Files := ⟨nested⟩
    let w : Workspace := ⟨⟨"/"⟩,{},
      [⟨⟨"/"⟩,[],[⟨"/sub"⟩],none⟩,⟨⟨"/sub"⟩,[⟨"/sub/a.md"⟩],[],none⟩],[⟨⟨"/sub/a.md"⟩⟩]⟩
    let rules := IgnoreRules.none ⟨"/"⟩
    files.Stands ⟨"/"⟩ [] (.directory nested) ∧
      Workspace.rootAt files ⟨"/"⟩ ⟨"/"⟩ = .ok ⟨"/"⟩ ∧
      Workspace.scanWith files ⟨"/"⟩ ⟨"/"⟩ {} = (.ok w,[]) ∧
      (below files ⟨"/"⟩ (.directory nested) "MDP_IGNORE" rules.ignores rules.ignores).Exact w := by
  intro files w rules
  let document : Document := ⟨⟨"/sub/a.md"⟩⟩
  have plain : document.isReadme = false := by cbv
  have scanned : Workspace.scanWith files ⟨"/"⟩ ⟨"/"⟩ {} = (.ok ⟨⟨"/"⟩,{},
      [⟨⟨"/"⟩,[],[⟨"/sub"⟩],none⟩,
        ⟨⟨"/sub"⟩,[document.path],[],if document.isReadme then some document.path else none⟩],
      [document]⟩,[]) := rfl
  rw [plain] at scanned
  obtain ⟨_,read,found⟩ := (scanExact {} nestedStands).2 ⟨"/"⟩ ⟨"/"⟩ w [] rfl scanned
  cases read
  exact ⟨nestedStands,rfl,scanned,found⟩

/- With an empty marker every directory below the root is left out, though it has no entry of that
name. -/
theorem emptyMarkerSkips :
    ¬ ∀ (files : Files) (root : Path) (place : Place) (entries : List (String × Node))
        (options : ScanOptions) (ignored excluded : Path → Bool → Bool) (w : Workspace),
      files.Stands root place (.directory entries) →
      Workspace.scanIgnoring files root options
        (fun path isDirectory => ignored path isDirectory || excluded path isDirectory) = .ok w →
      Exact ⟨root,.directory entries,ignored,excluded,fun names => ∃ node,
        (Node.directory entries).at? (names ++ [options.ignoreMarker]) = some node⟩ w := by
  intro claim
  have found := (claim ⟨nested⟩ ⟨"/"⟩ [] nested { ignoreMarker := "" } (fun _ _ => false)
    (fun _ _ => false) _ nestedStands rfl).documents ⟨⟨"/sub/a.md"⟩⟩
  refine absurd (found.mpr ⟨["sub","a.md"],⟨⟨_,_,rfl⟩,⟨?_,rfl,rfl⟩,?_⟩,by decide⟩) nofun
  · intro name last
    cases last
    decide
  · intro inner filled ahead apart
    have only : inner = ["sub"] := by
      rcases inner with _ | ⟨first,_ | ⟨second,rest⟩⟩
      · exact absurd rfl filled
      · rw [(List.cons_prefix_cons.mp ahead).1]
      · obtain ⟨rfl,later⟩ := List.cons_prefix_cons.mp ahead
        obtain ⟨rfl,none⟩ := List.cons_prefix_cons.mp later
        rw [List.prefix_nil.mp none] at apart
        exact absurd rfl apart
    subst only
    refine ⟨⟨?_,rfl,rfl⟩,?_⟩
    · intro name last
      cases last
      decide
    · rintro ⟨node,marker⟩
      cases marker

end Scope

end DocBlocks
