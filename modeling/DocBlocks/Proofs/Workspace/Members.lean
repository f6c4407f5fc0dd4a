import DocBlocks.Proofs.Workspace.Listing
import Mathlib.Data.List.Nodup
import Mathlib.Data.List.Pairwise

/-! Every directory below the root of a workspace and every document in it is listed in one directory.
A directory that is reached twice is listed twice and scanned once, so that not every list names keys. -/
namespace DocBlocks

namespace Path

variable {p q : Path} {name other : String}

theorem childSame (filled : p.text ≠ "") (filled' : q.text ≠ "") (plain : IsName name)
    (plain' : IsName other) (equal : (p.child name).order (q.child other) = .eq) :
    p.order q = .eq ∧ name = other := by
  have same := orderEqual.mp equal
  rw [childComponents filled plain, childComponents filled' plain'] at same
  obtain ⟨above,last⟩ := List.append_inj' same rfl
  exact ⟨orderEqual.mpr above,by simpa using last⟩

theorem childOther (filled : p.text ≠ "") (plain : IsName name) : p.child name ≠ p := by
  intro same
  have components := childComponents filled plain
  rw [same] at components
  simp at components

end Path

namespace Node

theorem directorySound {entries : List (String × Node)} (order : InOrder entries)
    (each : ∀ name below, (name,below) ∈ entries → Path.IsName name ∧ below.Ordered ∧ below.Named) :
    (directory entries).Ordered ∧ (directory entries).Named := by
  have entry {name below} (found : named? name entries = some below) :=
    each name below ((namedEntry order).mp found)
  exact ⟨directoryOrdered order fun name below found => (entry found).2.1,
    directoryNamed fun name below found => ⟨(entry found).1,(entry found).2.2⟩⟩

end Node

namespace Directory

variable {d : Directory} {p : Path}

theorem Ranked.filled (ranked : d.Ranked) : d.path.text ≠ "" := by
  obtain ⟨_,_,_,_,filled⟩ := ranked
  exact filled

theorem Ranked.child (ranked : d.Ranked) (member : p ∈ d.directories) :
    ∃ name, Path.IsName name ∧ p = d.path.child name := by
  obtain ⟨names,all,_,plain,_⟩ := ranked
  rw [all] at member
  obtain ⟨name,there,same⟩ := List.mem_map.mp member
  exact ⟨name,plain name there,same.symm⟩

theorem Ranked.nodup (ranked : d.Ranked) : d.directories.Nodup := by
  obtain ⟨names,all,inOrder,plain,filled⟩ := ranked
  rw [all]
  refine List.pairwise_map.mpr (inOrder.imp_of_mem fun {a b} first second before same => ?_)
  have equal : (d.path.child a).order (d.path.child b) = .eq := same ▸ Std.ReflCmp.compare_self
  obtain ⟨_,rfl⟩ := Path.childSame filled filled (plain a first) (plain b second) equal
  exact absurd before (by simp)

theorem Ranked.notItself (ranked : d.Ranked) : d.path ∉ d.directories := by
  intro listed
  obtain ⟨name,plain,same⟩ := ranked.child listed
  exact Path.childOther ranked.filled plain same.symm

theorem Filed.child (filed : d.Filed) (member : p ∈ d.documents) :
    ∃ name, Path.IsName name ∧ p = d.path.child name := by
  obtain ⟨names,all,plain⟩ := filed
  rw [all] at member
  obtain ⟨name,there,same⟩ := List.mem_map.mp member
  exact ⟨name,plain name there,same.symm⟩

end Directory

namespace Walk

variable {rules : WalkRules} {files : Files} {go : Path → Found → Except Error Found} {top place : Place}
  {d d' : Directory} {f g h : Found} {inner inner' pages pages' : List Path} {name : String}
  {listed : List String} {path : Path} {around : List Place}

def Leads (files : Files) (top : Place) (f : Found) (paths : List Path) : Prop :=
  ∀ p ∈ paths, ∃ place ∈ f.entered, place ≠ top ∧ files.resolve p = .ok place

theorem Leads.later (leads : Leads files top f inner) (entered : ∀ place ∈ f.entered, place ∈ g.entered) :
    Leads files top g inner := by
  intro p member
  obtain ⟨place,there,found⟩ := leads p member
  exact ⟨place,entered place there,found⟩

structure Joins (files : Files) (top : Place) (inner pages : List Path) (f g : Found) : Prop where
  grows : Grows files f g
  below : ∀ e ∈ g.directories, e ∈ f.directories ∨ Leads files top g e.directories
  directories : ∀ e ∈ g.directories, e ∈ f.directories ∨ e.path ∈ inner ∨
    ∃ d ∈ g.directories, e.path ∈ d.directories
  documents : ∀ e ∈ g.documents, e ∈ f.documents ∨ e.path ∈ pages ∨
    ∃ d ∈ g.directories, e.path ∈ d.documents

theorem Joins.nothing (distinct : Distinct files f) : Joins files top inner pages f f :=
  ⟨.nothing distinct rfl rfl,fun _ => .inl,fun _ => .inl,fun _ => .inl⟩

theorem Joins.document (distinct : Distinct files f) (page : Document) (member : page.path ∈ pages) :
    Joins files top inner pages f (f.addDocument page) := by
  have grows : Grows files f (f.addDocument page) := .nothing distinct rfl rfl
  refine ⟨grows,fun _ => .inl,fun _ => .inl,fun e found => ?_⟩
  rcases Sorted.putMember found with rfl | old
  · exact .inr (.inl member)
  · exact .inl old

theorem Joins.widen (joins : Joins files top inner pages f g) (inside : inner ⊆ inner')
    (within : pages ⊆ pages') : Joins files top inner' pages' f g :=
  ⟨joins.grows,joins.below,fun e member => (joins.directories e member).imp_right (.imp_left fun h => inside h),
    fun e member => (joins.documents e member).imp_right (.imp_left fun h => within h)⟩

theorem Joins.trans (first : Joins files top inner pages f g) (second : Joins files top inner pages g h) :
    Joins files top inner pages f h := by
  have held := second.grows.held
  refine ⟨first.grows.trans second.grows,fun e member => ?_,fun e member => ?_,fun e member => ?_⟩
  · rcases second.below e member with old | leads
    · exact (first.below e old).imp_right fun leads => leads.later second.grows.entered
    · exact .inr leads
  · rcases second.directories e member with old | listed
    · exact (first.directories e old).imp_right (.imp_right fun ⟨d,there,lists⟩ => ⟨d,held d there,lists⟩)
    · exact .inr listed
  · rcases second.documents e member with old | listed
    · exact (first.documents e old).imp_right (.imp_right fun ⟨d,there,lists⟩ => ⟨d,held d there,lists⟩)
    · exact .inr listed

theorem Joins.closed (distinct : Distinct files f) (new : place ∉ f.entered)
    (joins : Joins files top d.directories d.documents (f.enter place) g)
    (led : Leads files top g d.directories) (leads : files.resolve d.path = .ok place) :
    Joins files top [d.path] [] f (g.addDirectory d) := by
  have kept := joins.grows.kept distinct new leads
  have own : d ∈ (g.addDirectory d).directories := Sorted.putSelf _ d g.directories
  refine ⟨joins.grows.closed distinct new leads,fun e member => ?_,fun e member => ?_,fun e member => ?_⟩
  · rcases Sorted.putMember member with rfl | old
    · exact .inr led
    · exact joins.below e old
  · rcases Sorted.putMember member with rfl | old
    · exact .inr (.inl List.mem_cons_self)
    · rcases joins.directories e old with before | listed | ⟨above,there,listed⟩
      · exact .inl before
      · exact .inr (.inr ⟨d,own,listed⟩)
      · exact .inr (.inr ⟨above,kept above there,listed⟩)
  · rcases joins.documents e member with before | listed | ⟨above,there,listed⟩
    · exact .inl before
    · exact .inr (.inr ⟨d,own,listed⟩)
    · exact .inr (.inr ⟨above,kept above there,listed⟩)

section
variable (joins : ∀ path f g, Distinct files f → go path f = .ok g → Joins files top [path] [] f g)
  (leads : ∀ path f g, Distinct files f → go path f = .ok g → Leads files top g [path])
include joins leads

theorem visitJoins (distinct : Distinct files f) (led : Leads files top f d.directories)
    (visited : visit rules files go (d,f) name = .ok (d',g)) :
    Joins files top d'.directories d'.documents f g ∧ Leads files top g d'.directories := by
  obtain ⟨_,rfl,rfl⟩ | ⟨_,rfl,rfl⟩ | ⟨_,rfl,gone⟩ := visitCases visited
  · exact ⟨.nothing distinct,led⟩
  · exact ⟨.document distinct _ (List.mem_append_right _ List.mem_cons_self),led⟩
  · have one := joins _ f g distinct gone
    exact ⟨one.widen (List.subset_append_right _ _) (List.nil_subset _),fun p member =>
      (List.mem_append.mp member).elim (led.later one.grows.entered p) (leads _ f g distinct gone p)⟩

theorem visitsJoin (distinct : Distinct files f) (led : Leads files top f d.directories)
    (visited : listed.foldlM (visit rules files go) (d,f) = .ok (d',g)) :
    Joins files top d'.directories d'.documents f g ∧ Leads files top g d'.directories := by
  induction listed generalizing d f with
  | nil =>
      cases visited
      exact ⟨.nothing distinct,led⟩
  | cons name rest ih =>
      rw [List.foldlM_cons, okBind] at visited
      obtain ⟨⟨between,h⟩,first,later⟩ := visited
      obtain ⟨one,here⟩ := visitJoins joins leads distinct led first
      obtain ⟨others,there⟩ := ih one.grows.distinct here later
      obtain ⟨_,_,_,_,more,further⟩ := visitListed later
      have inside : between.directories ⊆ d'.directories := more ▸ List.subset_append_left _ _
      have within : between.documents ⊆ d'.documents := further ▸ List.subset_append_left _ _
      exact ⟨(one.widen inside within).trans others,there⟩

end

/- All that is found from a directory on is listed, save the directory itself. Nothing in it leads back to the
root, which is around it. -/
theorem enterJoins (depth : Nat) (around : List Place) (path : Path) (f g : Found)
    (inside : top ∈ around ∨ files.resolve path = .ok top) (distinct : Distinct files f)
    (entered : enter rules files depth around path f = .ok g) : Joins files top [path] [] f g := by
  -- what is below is in the lists of the directory, which is added behind it
  induction depth generalizing around path f g with
  | zero => cases entered
  | succ depth ih =>
      obtain ⟨place,resolved,_,⟨_,rfl⟩ | ⟨new,listed,directory,h,_,rfl,rfl,visited⟩⟩ := enterOk entered
      · exact .nothing distinct
      · have within : top ∈ place :: around := by
          rcases inside with before | own
          · exact List.mem_cons_of_mem _ before
          · cases resolved.symm.trans own
            exact List.mem_cons_self
        have leads (path : Path) (f g : Found) (distinct : Distinct files f)
            (gone : enter rules files depth (place :: around) path f = .ok g) : Leads files top g [path] := by
          obtain ⟨there,entered,apart,found⟩ := enterEntered distinct gone
          intro p member
          rw [List.mem_singleton.mp member]
          exact ⟨there,entered,fun same => apart (same ▸ within),found⟩
        obtain ⟨joins,led⟩ := visitsJoin (fun path f g => ih (place :: around) path f g (.inl within)) leads
          (distinct.enter place) (fun p none => absurd none List.not_mem_nil) visited
        exact .closed distinct new joins led resolved

end Walk

namespace Workspace

variable {files : Files} {w : Workspace} {d e : Directory} {p q : Path} {place : Place}

def HasKey (w : Workspace) (p : Path) : Prop := ∃ d ∈ w.directories, d.path.order p = .eq

theorem scannedJoins (scanned : w.Scanned files) : ∃ top found,
    files.resolve w.root = .ok top ∧ Walk.Joins files top [w.root] [] .empty found ∧
      found.directories = w.directories ∧ found.documents = w.documents := by
  obtain ⟨root,options,ignores,scanned⟩ := scanned
  obtain ⟨found,walked,same⟩ := okBind.mp scanned
  cases same
  obtain ⟨top,resolved,_⟩ := Walk.enterOk walked
  exact ⟨top,found,resolved,
    Walk.enterJoins _ [] root .empty found (.inr resolved) (Walk.distinctEmpty files) walked,rfl,rfl⟩

structure ListsAgree (files : Files) (w : Workspace) : Prop where
  led : ∀ d ∈ w.directories, ∀ p ∈ d.directories, ∃ e ∈ w.directories, e.path ≠ w.root ∧
    files.resolve e.path = files.resolve p
  keys : (∀ d ∈ w.directories, ∀ p ∈ d.directories, w.HasKey p) ↔
    (w.directories.flatMap (·.directories)).Pairwise fun p q => files.resolve p ≠ files.resolve q
  directories : ∀ e ∈ w.directories, e.path ≠ w.root → ∃ d ∈ w.directories, d ≠ e ∧
    e.path ∈ d.directories ∧
      ∀ other ∈ w.directories, ∀ p ∈ other.directories, p.order e.path = .eq → other = d
  documents : ∀ e ∈ w.documents, ∃ d ∈ w.directories, e.path ∈ d.documents ∧
    ∀ other ∈ w.directories, ∀ p ∈ other.documents, p.order e.path = .eq → other = d

structure Apart (files : Files) (w : Workspace) : Prop where
  listed : ∀ d ∈ w.directories, d.Ranked ∧ d.Filed
  placed : ∀ d ∈ w.directories, ∃ place, files.resolve d.path = .ok place
  apart : w.directories.Pairwise fun d e => files.resolve d.path ≠ files.resolve e.path

namespace Apart

theorem onePlace (apart : w.Apart files) (member : d ∈ w.directories) (member' : e ∈ w.directories)
    (same : files.resolve d.path = files.resolve e.path) : d = e := by
  have symmetric : Std.Symm fun d e : Directory => files.resolve d.path ≠ files.resolve e.path :=
    ⟨fun _ _ => Ne.symm⟩
  by_contra other
  exact apart.apart.forall member member' other same

theorem keyPlace (apart : w.Apart files) (member : d ∈ w.directories) (key : d.path.order p = .eq)
    (leads : files.resolve p = .ok place) : files.resolve d.path = .ok place := by
  obtain ⟨own,found⟩ := apart.placed d member
  rw [found, Files.resolveEqual key found leads]

theorem onePath (apart : w.Apart files) (member : d ∈ w.directories) (member' : e ∈ w.directories)
    (same : d.path.order e.path = .eq) : d = e := by
  obtain ⟨place,leads⟩ := apart.placed e member'
  exact apart.onePlace member member' ((apart.keyPlace member same leads).trans leads.symm)

theorem oneParent (apart : w.Apart files) (member : d ∈ w.directories) (member' : e ∈ w.directories)
    {name other : String} (plain : Path.IsName name) (plain' : Path.IsName other)
    (same : (d.path.child name).order (e.path.child other) = .eq) : d = e ∧ name = other := by
  have filled := (apart.listed d member).1.filled
  have filled' := (apart.listed e member').1.filled
  obtain ⟨paths,names⟩ := Path.childSame filled filled' plain plain' same
  exact ⟨apart.onePath member member' paths,names⟩

theorem listedOnce (apart : w.Apart files) (member : d ∈ w.directories) (member' : e ∈ w.directories)
    (listed : p ∈ d.directories) (listed' : q ∈ e.directories) (same : p.order q = .eq) :
    d = e ∧ p = q := by
  obtain ⟨name,plain,rfl⟩ := (apart.listed d member).1.child listed
  obtain ⟨other,plain',rfl⟩ := (apart.listed e member').1.child listed'
  obtain ⟨rfl,rfl⟩ := apart.oneParent member member' plain plain' same
  exact ⟨rfl,rfl⟩

theorem filedOnce (apart : w.Apart files) (member : d ∈ w.directories) (member' : e ∈ w.directories)
    (listed : p ∈ d.documents) (listed' : q ∈ e.documents) (same : p.order q = .eq) : d = e := by
  obtain ⟨name,plain,rfl⟩ := (apart.listed d member).2.child listed
  obtain ⟨other,plain',rfl⟩ := (apart.listed e member').2.child listed'
  exact (apart.oneParent member member' plain plain' same).1

theorem listsNodup (apart : w.Apart files) : (w.directories.flatMap (·.directories)).Nodup := by
  refine List.nodup_flatMap.mpr ⟨fun d member => (apart.listed d member).1.nodup,?_⟩
  refine apart.apart.imp_of_mem fun {d e} member member' other p listed listed' => ?_
  obtain ⟨rfl,_⟩ := apart.listedOnce member member' listed listed' Std.ReflCmp.compare_self
  exact other rfl

end Apart

theorem scannedApart (ordered : files.Ordered) (named : files.Named) (scanned : w.Scanned files) :
    w.Apart files := by
  obtain ⟨top,found,_,joins,same,_⟩ := scannedJoins scanned
  have distinct := joins.grows.distinct
  refine ⟨fun d => scannedListed ordered named scanned,fun d member => ?_,same ▸ distinct.apart⟩
  obtain ⟨place,_,leads⟩ := distinct.placed d (same ▸ member)
  exact ⟨place,leads⟩

theorem scannedLed (scanned : w.Scanned files) (member : d ∈ w.directories) (listed : p ∈ d.directories) :
    ∃ e ∈ w.directories, e.path ≠ w.root ∧ files.resolve e.path = files.resolve p := by
  obtain ⟨top,found,resolved,joins,same,_⟩ := scannedJoins scanned
  rw [← same] at member ⊢
  have leads := (joins.below d member).resolve_left List.not_mem_nil
  obtain ⟨place,entered,other,leads⟩ := leads p listed
  obtain ⟨e,there,found⟩ := (joins.grows.listed place entered).resolve_left List.not_mem_nil
  refine ⟨e,there,fun root => ?_,found.trans leads.symm⟩
  rw [root, resolved] at found
  exact other (Except.ok.inj found).symm

theorem scannedBelow (scanned : w.Scanned files) (member : e ∈ w.directories) (below : e.path ≠ w.root) :
    ∃ d ∈ w.directories, e.path ∈ d.directories := by
  obtain ⟨top,found,_,joins,same,_⟩ := scannedJoins scanned
  rw [← same] at member ⊢
  have listed := (joins.directories e member).resolve_left List.not_mem_nil
  exact listed.resolve_left fun root => below (List.mem_singleton.mp root)

theorem scannedPage {page : Document} (scanned : w.Scanned files) (member : page ∈ w.documents) :
    ∃ d ∈ w.directories, page.path ∈ d.documents := by
  obtain ⟨top,found,_,joins,same,pages⟩ := scannedJoins scanned
  rw [← pages] at member
  rw [← same]
  have listed := (joins.documents page member).resolve_left List.not_mem_nil
  exact listed.resolve_left List.not_mem_nil

theorem keysOnce (apart : w.Apart files) (scanned : w.Scanned files)
    (keys : ∀ d ∈ w.directories, ∀ p ∈ d.directories, w.HasKey p) :
    (w.directories.flatMap (·.directories)).Pairwise fun p q => files.resolve p ≠ files.resolve q := by
  refine apart.listsNodup.imp_of_mem fun {p q} first second other same => ?_
  obtain ⟨d,member,listed⟩ := List.mem_flatMap.mp first
  obtain ⟨d',member',listed'⟩ := List.mem_flatMap.mp second
  obtain ⟨e,there,key⟩ := keys d member p listed
  obtain ⟨e',there',key'⟩ := keys d' member' q listed'
  obtain ⟨held,among,_,leads⟩ := scannedLed scanned member listed
  obtain ⟨place,found⟩ := apart.placed held among
  rw [found] at leads
  have one := apart.keyPlace there key leads.symm
  have two := apart.keyPlace there' key' (same.symm.trans leads.symm)
  cases apart.onePlace there there' (one.trans two.symm)
  have equal := Std.TransCmp.eq_trans (Std.OrientedCmp.eq_symm key) key'
  exact other (apart.listedOnce member member' listed listed' equal).2

theorem onceKeys (scanned : w.Scanned files)
    (once : (w.directories.flatMap (·.directories)).Pairwise fun p q => files.resolve p ≠ files.resolve q)
    (member : d ∈ w.directories) (listed : p ∈ d.directories) : w.HasKey p := by
  obtain ⟨e,there,below,same⟩ := scannedLed scanned member listed
  obtain ⟨above,held,listed'⟩ := scannedBelow scanned there below
  have symmetric : Std.Symm fun p q : Path => files.resolve p ≠ files.resolve q := ⟨fun _ _ => Ne.symm⟩
  have path : e.path = p := by
    by_contra other
    exact once.forall (List.mem_flatMap.mpr ⟨above,held,listed'⟩)
      (List.mem_flatMap.mpr ⟨d,member,listed⟩) other same
  exact ⟨e,there,path ▸ Std.ReflCmp.compare_self⟩

/- The directories below the root and the documents are those that the lists hold, each of them held once. A
directory that is listed was scanned, but not always under the path that is listed: all lists name keys just
when no two paths in them lead to one place. -/
theorem listsAgree (ordered : files.Ordered) (named : files.Named) (scanned : w.Scanned files) :
    w.ListsAgree files := by
  have apart := scannedApart ordered named scanned
  refine ⟨fun d member p => scannedLed scanned member,
    ⟨keysOnce apart scanned,fun once d member p => onceKeys scanned once member⟩,
    fun e member below => ?_,fun page member => ?_⟩
  · obtain ⟨d,there,listed⟩ := scannedBelow scanned member below
    have other : d ≠ e := fun same => (apart.listed d there).1.notItself (same ▸ listed)
    exact ⟨d,there,other,listed,fun above member' p listed' equal =>
      (apart.listedOnce member' there listed' listed equal).1⟩
  · obtain ⟨d,there,listed⟩ := scannedPage scanned member
    exact ⟨d,there,listed,fun above member' p listed' equal =>
      apart.filedOnce member' there listed' listed equal⟩

def linked : Files :=
  ⟨[("a",.directory [("readme.md",.file (.text "# A\n") newFileMode)]),("b",.link "a")]⟩

def linkedWorkspace : Workspace :=
  ⟨⟨"/"⟩,{},[⟨⟨"/"⟩,[],[⟨"/a"⟩,⟨"/b"⟩],none⟩,⟨⟨"/a"⟩,[⟨"/a/readme.md"⟩],[],some ⟨"/a/readme.md"⟩⟩],
    [⟨⟨"/a/readme.md"⟩⟩]⟩

theorem linkedSound : linked.Ordered ∧ linked.Named := by
  refine Node.directorySound (by simp [Node.InOrder]; decide) fun name below member => ?_
  rcases List.mem_cons.mp member with same | member
  · cases same
    refine ⟨by decide,Node.directorySound (List.pairwise_singleton _ _) fun name below member => ?_⟩
    cases List.mem_singleton.mp member
    exact ⟨by decide,Node.fileOrdered _ _,Node.fileNamed _ _⟩
  · cases List.mem_singleton.mp member
    exact ⟨by decide,Node.linkOrdered _,Node.linkNamed _⟩

theorem linkedScanned : (scan linked ⟨"/"⟩ ⟨"/"⟩).1 = .ok linkedWorkspace := by
  have scanned : (scan linked ⟨"/"⟩ ⟨"/"⟩).1.toOption = some linkedWorkspace := by decide +kernel
  exact okSome scanned

theorem linkedAgree : linked.Ordered ∧ linked.Named ∧ linkedWorkspace.Scanned linked ∧
    linkedWorkspace.ListsAgree linked := by
  have scanned := scanScanned linkedScanned
  exact ⟨linkedSound.1,linkedSound.2,scanned,listsAgree linkedSound.1 linkedSound.2 scanned⟩

theorem linkedUnscanned : ¬∀ (files : Files) (current root : Path) (w : Workspace),
    files.Ordered → files.Named → (scan files current root).1 = .ok w →
      ∀ d ∈ w.directories, ∀ p ∈ d.directories, w.HasKey p := by
  intro claim
  have key := claim linked ⟨"/"⟩ ⟨"/"⟩ linkedWorkspace linkedSound.1 linkedSound.2 linkedScanned
    ⟨⟨"/"⟩,[],[⟨"/a"⟩,⟨"/b"⟩],none⟩ List.mem_cons_self ⟨"/b"⟩ (by decide)
  have none : ¬linkedWorkspace.HasKey ⟨"/b"⟩ := by
    unfold HasKey
    decide
  exact none key

end Workspace

end DocBlocks
