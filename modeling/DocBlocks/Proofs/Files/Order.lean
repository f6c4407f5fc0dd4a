import DocBlocks.Files.Update
import DocBlocks.Proofs.Outcome
import DocBlocks.Proofs.Sorted

/-! In a tree of files the entries of every directory are in order, each name once. The empty tree is
ordered, and every change of a tree keeps it so. -/
namespace DocBlocks.Node

section
variable {name other : String} {node : Node} {entries : List (String × Node)}

def InOrder (entries : List (String × Node)) : Prop :=
  (entries.map (·.1)).Pairwise fun a b => compare a b = .lt

theorem namedPut (name : String) (node : Node) (entries : List (String × Node)) :
    named? name (setEntry name node entries) = some node := by
  unfold setEntry
  induction entries with
  | nil => simp [Sorted.put, named?]
  | cons entry rest ih =>
      simp only [Sorted.put]
      cases order : Sorted.byKey compare (name,node) entry with
      | lt => simp [named?]
      | eq => simp [named?]
      | gt =>
          have apart : entry.1 ≠ name := by
            rintro rfl
            simp [Sorted.byKey] at order
          simp only [named?, if_neg apart]
          exact ih

theorem namedPutOther (apart : other ≠ name) (node : Node) (entries : List (String × Node)) :
    named? other (setEntry name node entries) = named? other entries := by
  unfold setEntry
  induction entries with
  | nil => simp [Sorted.put, named?, apart.symm]
  | cons entry rest ih =>
      simp only [Sorted.put]
      cases order : Sorted.byKey compare (name,node) entry with
      | lt => simp only [named?, if_neg apart.symm]
      | eq =>
          have same : name = entry.1 := Std.LawfulEqOrd.compare_eq_iff_eq.mp order
          simp only [named?, ← same, if_neg apart.symm]
      | gt => simp only [named?, ih]

theorem namedDropped (entries : List (String × Node)) :
    named? other (entries.filter (·.1 != name)) =
      if other = name then none else named? other entries := by
  induction entries with
  | nil => simp [named?]
  | cons entry rest ih =>
      obtain ⟨first,here⟩ := entry
      by_cases gone : first = name
      · subst gone
        rw [List.filter_cons_of_neg (by simp), ih]
        by_cases same : other = first
        · rw [if_pos same, if_pos same]
        · rw [if_neg same, if_neg same, named?, if_neg (Ne.symm same)]
      · rw [List.filter_cons_of_pos (by simp [gone]), named?, ih]
        by_cases same : first = other
        · subst same
          rw [if_pos rfl, if_neg gone, named?, if_pos rfl]
        · rw [if_neg same, named?, if_neg same]

theorem inOrderStrict : InOrder entries ↔ Sorted.Strict (Sorted.byKey compare) entries :=
  List.pairwise_map

theorem putInOrder (ordered : InOrder entries) (name : String) (node : Node) :
    InOrder (setEntry name node entries) :=
  inOrderStrict.mpr (Sorted.putStrict (inOrderStrict.mp ordered) (name,node))

theorem droppedInOrder (ordered : InOrder entries) (name : String) :
    InOrder (entries.filter (·.1 != name)) :=
  ordered.sublist (List.filter_sublist.map _)

end

def Ordered (n : Node) : Prop := ∀ place node, n.at? place = some node → InOrder node.entries

variable {n below new : Node} {name : String} {place : Place}

theorem orderedBelow (ordered : n.Ordered) (found : named? name n.entries = some below) :
    below.Ordered := by
  intro place node inside
  refine ordered (name :: place) node ?_
  rw [at?, found]
  exact inside

theorem directoryOrdered {entries : List (String × Node)} (order : InOrder entries)
    (each : ∀ name below, named? name entries = some below → below.Ordered) :
    (directory entries).Ordered := by
  intro place node inside
  cases place with
  | nil =>
      cases inside
      exact order
  | cons name rest =>
      obtain ⟨below,found,inside⟩ := Option.bind_eq_some_iff.mp inside
      exact each name below found rest node inside

theorem emptyOrdered : (directory []).Ordered :=
  directoryOrdered .nil fun _ _ found => nomatch found

theorem fileOrdered (content : Content) (mode : Nat) : (file content mode).Ordered := by
  intro place node inside
  cases place with
  | nil =>
      cases inside
      exact .nil
  | cons name rest => cases inside

theorem linkOrdered (target : String) : (link target).Ordered := by
  intro place node inside
  cases place with
  | nil =>
      cases inside
      exact .nil
  | cons name rest => cases inside

theorem putOrdered (ordered : n.Ordered) (place : Place) (here : new.Ordered) :
    (n.put place new).Ordered := by
  induction place generalizing n with
  | nil => exact here
  | cons name rest ih =>
      have order := ordered [] n rfl
      refine directoryOrdered (putInOrder order name _) fun other below found => ?_
      by_cases same : other = name
      · subst same
        rw [namedPut] at found
        cases found
        refine ih ?_
        cases child : named? other n.entries with
        | none => exact emptyOrdered
        | some below => exact orderedBelow ordered child
      · rw [namedPutOther same] at found
        exact orderedBelow ordered found

theorem eraseOrdered (ordered : n.Ordered) (place : Place) : (n.erase place).Ordered := by
  induction place generalizing n with
  | nil => exact ordered
  | cons name rest ih =>
      have order := ordered [] n rfl
      cases rest with
      | nil =>
          refine directoryOrdered (droppedInOrder order name) fun other below found => ?_
          rw [namedDropped] at found
          split at found
          · cases found
          · exact orderedBelow ordered found
      | cons next rest =>
          rw [erase]
          cases child : named? name n.entries with
          | none => exact ordered
          | some below =>
              refine directoryOrdered (putInOrder order name _) fun other inner found => ?_
              by_cases same : other = name
              · subst same
                rw [namedPut] at found
                cases found
                exact ih (orderedBelow ordered child)
              · rw [namedPutOther same] at found
                exact orderedBelow ordered found
          · simp

end DocBlocks.Node

namespace DocBlocks.Files
open Node (InOrder fileOrdered directoryOrdered)

variable {files files' : Files} {place : Place} {path : Path}

def Ordered (files : Files) : Prop := files.root.Ordered

theorem emptyOrdered : empty.Ordered := Node.emptyOrdered

theorem topOrdered {n : Node} (ordered : n.Ordered) : Ordered ⟨n.entries⟩ :=
  directoryOrdered (ordered [] n rfl) fun _ _ found => Node.orderedBelow ordered found

theorem putOrdered (ordered : files.Ordered) (place : Place) {node : Node} (here : node.Ordered) :
    (files.put place node).Ordered := topOrdered (Node.putOrdered ordered place here)

theorem eraseOrdered (ordered : files.Ordered) (place : Place) : (files.erase place).Ordered :=
  topOrdered (Node.eraseOrdered ordered place)

theorem replaceOrdered (ordered : files.Ordered) {text : String}
    (replaced : files.replaceText path text = .ok files') : files'.Ordered := by
  unfold replaceText at replaced
  split at replaced
  · split at replaced
    · cases replaced
      exact putOrdered ordered _ (fileOrdered _ _)
    · cases replaced
  · split at replaced
    · cases replaced
    · split at replaced
      · cases replaced
      · split at replaced
        · cases replaced
        · cases replaced
          exact putOrdered ordered _ (fileOrdered _ _)

theorem makeDirectoriesOrdered (ordered : files.Ordered) {here there : Place}
    {segments : List String} (made : files.makeDirectories here segments = .ok (files',there)) :
    files'.Ordered := by
  induction segments generalizing files here with
  | nil =>
      cases made
      exact ordered
  | cons segment rest ih =>
      rw [makeDirectories] at made
      split at made
      · exact ih ordered made
      · exact ih (putOrdered ordered _ Node.emptyOrdered) made
      · cases made

theorem makeParentOrdered (ordered : files.Ordered) (made : files.makeParent path = .ok files') :
    files'.Ordered := by
  obtain ⟨⟨_,there⟩,made,same⟩ := okBind.mp made
  cases same
  exact makeDirectoriesOrdered ordered made

theorem linkOrdered (ordered : files.Ordered) {target : String}
    (linked : files.link path target = .ok files') : files'.Ordered := by
  obtain ⟨between,made,linked⟩ := okBind.mp linked
  obtain ⟨place,_,same⟩ := okBind.mp linked
  cases same
  exact putOrdered (makeParentOrdered ordered made) _ (Node.linkOrdered _)

theorem storeOrdered (ordered : files.Ordered) {content : Content} {mode : Option Nat}
    (stored : files.store path content mode = .ok files') : files'.Ordered := by
  obtain ⟨between,made,stored⟩ := okBind.mp stored
  have between := makeParentOrdered ordered made
  dsimp only at stored
  split at stored <;> obtain ⟨place,_,same⟩ := okBind.mp stored
  all_goals
    cases same
    exact putOrdered between _ (fileOrdered _ _)

theorem removeOrdered (ordered : files.Ordered) (removed : files.remove path = .ok files') :
    files'.Ordered := by
  obtain ⟨place,_,removed⟩ := okBind.mp removed
  split at removed
  · cases removed
    exact eraseOrdered ordered _
  · cases removed

end DocBlocks.Files
