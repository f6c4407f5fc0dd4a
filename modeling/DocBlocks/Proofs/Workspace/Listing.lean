import DocBlocks.Proofs.Files.Taken
import DocBlocks.Proofs.Path.Location
import DocBlocks.Proofs.Workspace.Cycles

/-! In a workspace that was scanned every directory lists the directories below it in the order of their
names, wherever links lead, and so they are found in the order of their paths. -/
namespace DocBlocks

namespace Path

variable {p : Path} {name other : String}

theorem childNormalized (filled : p.text ≠ "") (plain : IsName name) :
    (p.child name).normalize.components = p.normalize.components ++ [.name name] := by
  have trail : (p.child name).trail = ⟨p.trail.up,name :: p.trail.names⟩ := by
    rw [Path.trail, childComponents filled plain, List.foldl_append]
    rfl
  have head : (p.child name).head = p.head := by
    rw [Path.head, childAbsolute filled plain]
    rfl
  rw [normalizedTrail, normalizedTrail, trailRead, trailRead, trail, head]
  simp [Trail.write]

theorem childNormalizedOrder (filled : p.text ≠ "") (plain : IsName name) (plain' : IsName other) :
    (p.child name).normalize.order (p.child other).normalize = compare name other := by
  rw [order, childNormalized filled plain, childNormalized filled plain', orderGoSame]
  change (compare name other).then .eq = _
  cases compare name other <;> rfl

end Path

def Files.Named (files : Files) : Prop := files.root.Named

def Directory.Ranked (d : Directory) : Prop := ∃ names : List String, d.directories = names.map d.path.child ∧
  names.Pairwise (fun a b => compare a b = .lt) ∧ (∀ name ∈ names, Path.IsName name) ∧ d.path.text ≠ ""

def Directory.Filed (d : Directory) : Prop := ∃ names : List String, d.documents = names.map d.path.child ∧
  ∀ name ∈ names, Path.IsName name

theorem Files.namesOrdered {files : Files} {path : Path} {listed : List String}
    (ordered : files.Ordered) (named : files.Named) (found : files.names path = .ok listed) :
    listed.Pairwise (fun a b => compare a b = .lt) ∧ (∀ name ∈ listed, Path.IsName name) ∧
      path.text ≠ "" := by
  obtain ⟨place,entries,resolved,there,rfl⟩ := namesIff.mp found
  have order : Node.InOrder entries := ordered place _ there
  refine ⟨order,List.forall_mem_map.mpr fun entry member => ?_,fun empty => ?_⟩
  · exact named place entries there entry.1 entry.2 ((Node.namedEntry order).mpr member)
  · rw [Files.resolve, empty] at resolved
    cases resolved

namespace Walk

variable {rules : WalkRules} {files : Files} {go : Path → Found → Except Error Found}
  {d d' : Directory} {f g : Found} {listed : List String}

theorem visitListed (visited : listed.foldlM (visit rules files go) (d,f) = .ok (d',g)) :
    ∃ names pages : List String, names.Sublist listed ∧ pages.Sublist listed ∧
      d'.directories = d.directories ++ names.map d.path.child ∧
      d'.documents = d.documents ++ pages.map d.path.child := by
  induction listed generalizing d f with
  | nil =>
      cases visited
      exact ⟨[],[],.slnil,.slnil,(List.append_nil _).symm,(List.append_nil _).symm⟩
  | cons name rest ih =>
      rw [List.foldlM_cons, okBind] at visited
      obtain ⟨⟨between,h⟩,first,later⟩ := visited
      obtain ⟨names,pages,inside,within,all,documents⟩ := ih later
      obtain ⟨_,rfl,_⟩ | ⟨_,rfl,_⟩ | ⟨_,rfl,_⟩ := visitCases first
      · exact ⟨names,pages,inside.cons name,within.cons name,all,documents⟩
      · exact ⟨names,name :: pages,inside.cons name,within.cons_cons name,all,
          by simp [documents, Directory.addDocument]⟩
      · exact ⟨name :: names,pages,inside.cons_cons name,within.cons name,
          by simp [all, Directory.addDirectory],documents⟩

def ListedAll (f : Found) : Prop := ∀ d ∈ f.directories, d.Ranked ∧ d.Filed

theorem visitListedAll (each : ∀ path f g, ListedAll f → go path f = .ok g → ListedAll g)
    (before : ListedAll f) (visited : listed.foldlM (visit rules files go) (d,f) = .ok (d',g)) :
    ListedAll g := by
  induction listed generalizing d f with
  | nil =>
      cases visited
      exact before
  | cons name rest ih =>
      rw [List.foldlM_cons, okBind] at visited
      obtain ⟨⟨between,h⟩,first,later⟩ := visited
      refine ih ?_ later
      obtain ⟨_,⟨_,_,same,_⟩ | ⟨_,_,entered⟩⟩ := visitOk first
      · unfold ListedAll
        rwa [same]
      · exact each _ f h before entered

theorem enterListedAll (ordered : files.Ordered) (named : files.Named) (depth : Nat) (around : List Place)
    (path : Path) (f g : Found) (before : ListedAll f)
    (entered : enter rules files depth around path f = .ok g) : ListedAll g := by
  induction depth generalizing around path f g with
  | zero => cases entered
  | succ depth ih =>
      obtain ⟨place,_,_,⟨_,same⟩ | ⟨_,listed,directory,h,found,own,same,visited⟩⟩ := enterOk entered
      · rwa [same]
      · have start : ListedAll (f.enter place) := before
        have below := visitListedAll (ih (place :: around)) start visited
        obtain ⟨names,pages,inside,within,added,documents⟩ := visitListed visited
        obtain ⟨inOrder,plain,filled⟩ := Files.namesOrdered ordered named found
        intro d member
        rw [same] at member
        rcases Sorted.putMember member with rfl | old
        · rw [Directory.Ranked, Directory.Filed, added, documents, own]
          exact ⟨⟨names,rfl,inOrder.sublist inside,fun name there => plain name (inside.mem there),filled⟩,
            pages,rfl,fun name there => plain name (within.mem there)⟩
        · exact below d old

end Walk

namespace Workspace

def Scanned (files : Files) (w : Workspace) : Prop :=
  ∃ root options ignores, scanIgnoring files root options ignores = .ok w

theorem scanWithScanned {files : Files} {current root : Path} {options : ScanOptions} {w : Workspace}
    (scanned : (scanWith files current root options).1 = .ok w) : w.Scanned files := by
  unfold scanWith at scanned
  split at scanned
  · cases scanned
  · dsimp only at scanned
    split at scanned
    · cases scanned
    · exact ⟨_,_,_,scanned⟩

theorem scanScanned {files : Files} {current root : Path} {w : Workspace}
    (scanned : (scan files current root).1 = .ok w) : w.Scanned files := by
  unfold scan at scanned
  split at scanned
  · cases scanned
  · split at scanned
    · cases scanned
    · exact scanWithScanned scanned

variable {files : Files} {w : Workspace} {d : Directory}

theorem scannedListed (ordered : files.Ordered) (named : files.Named) (scanned : w.Scanned files)
    (member : d ∈ w.directories) : d.Ranked ∧ d.Filed := by
  obtain ⟨root,options,ignores,scanned⟩ := scanned
  obtain ⟨found,walked,same⟩ := okBind.mp scanned
  cases same
  exact Walk.enterListedAll ordered named _ [] root .empty found nofun walked d member

theorem directoryFound {path : Path} (found : w.directory? path = some d) :
    d ∈ w.directories ∧ d.path = path.normalize := by
  have same := @List.find?_some _ (fun d : Directory => d.path == path.normalize) _ _ found
  exact ⟨List.mem_of_find?_eq_some found,beq_iff_eq.mp same⟩

theorem scannedInOrder (ordered : files.Ordered) (named : files.Named) (scanned : w.Scanned files)
    (member : d ∈ w.directories) :
    (d.directories.filterMap w.directory?).Pairwise fun a b => a.path.order b.path = .lt := by
  obtain ⟨⟨names,same,inOrder,plain,filled⟩,_⟩ := scannedListed ordered named scanned member
  rw [same, List.filterMap_map, List.pairwise_filterMap]
  refine inOrder.imp_of_mem fun first second before a found b found' => ?_
  rw [(directoryFound found).2, (directoryFound found').2]
  exact (Path.childNormalizedOrder filled (plain _ first) (plain _ second)).trans before

end Workspace

end DocBlocks
