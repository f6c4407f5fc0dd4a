import DocBlocks.Proofs.Outcome
import DocBlocks.Proofs.Path

/-! Going down a path part by part: where a path leads to a directory, its child leads to the entry of
that name there, or nowhere. -/
namespace DocBlocks

theorem Node.atAppend (n : Node) (place rest : Place) :
    n.at? (place ++ rest) = (n.at? place).bind (at? · rest) := by
  induction place generalizing n with
  | nil => rfl
  | cons name place ih =>
      simp only [List.cons_append, at?]
      cases named? name n.entries with
      | none => rfl
      | some below => exact ih below

theorem Node.atLast {n node : Node} {names : Place} {name : String} :
    n.at? (names ++ [name]) = some node ↔
      ∃ entries, n.at? names = some (directory entries) ∧ named? name entries = some node := by
  rw [atAppend, Option.bind_eq_some_iff]
  constructor
  · rintro ⟨parent,there,found⟩
    obtain ⟨below,found,same⟩ := Option.bind_eq_some_iff.mp found
    cases same
    cases parent with
    | directory entries => exact ⟨entries,there,found⟩
    | file content mode => cases found
    | link target => cases found
  · rintro ⟨entries,there,found⟩
    exact ⟨directory entries,there,Option.bind_eq_some_iff.mpr ⟨node,found,rfl⟩⟩

namespace Files

variable {files : Files} {path : Path} {place : Place} {name : String}
  {entries : List (String × Node)} {node : Node}

theorem followEnd (files : Files) (links : Nat) (here : Place) :
    files.follow links here [] = .ok here := by
  cases links <;> rfl

theorem followNext (files : Files) (links : Nat) (here : Place) (segment : String)
    (rest : List String) : files.follow links here (segment :: rest) =
      match files.at? here with
      | some (.directory entries) =>
          if segment = "" ∨ segment = "." then files.follow links here rest
          else if segment = ".." then files.follow links here.dropLast rest
          else
            match Node.named? segment entries with
            | none => .error .notFound
            | some (.link target) =>
                match links with
                | 0 => .error .tooManyLinks
                | links + 1 => files.follow links (linkStart here target)
                    (Path.segments target ++ rest)
            | some _ => files.follow links (here ++ [segment]) rest
      | _ => .error .notADirectory := by
  cases links <;> rfl

theorem followParts (files : Files) (links : Nat) (here : Place) (parts : List String) :
    (∃ e, ∀ more, files.follow links here (parts ++ more) = .error e) ∨
      ∃ links' there, ∀ more,
        files.follow links here (parts ++ more) = files.follow links' there more := by
  -- a link takes one from the number that may be followed, and its target may have more parts
  induction links using Nat.strongRecOn generalizing here parts with
  | ind links ihLinks =>
      induction parts generalizing here with
      | nil => exact .inr ⟨links,here,fun _ => rfl⟩
      | cons part rest ih =>
          simp only [List.cons_append, followNext]
          split
          · split
            · exact ih here
            · split
              · exact ih here.dropLast
              · split
                · exact .inl ⟨_,fun _ => rfl⟩
                · rename_i target _
                  cases links with
                  | zero => exact .inl ⟨_,fun _ => rfl⟩
                  | succ links =>
                      simp only [← List.append_assoc]
                      exact ihLinks links (Nat.lt_succ_self links) _ _
                · exact ih (here ++ [part])
          · exact .inl ⟨_,fun _ => rfl⟩

theorem followName (plain : Path.IsName name) (stands : files.at? place = some (.directory entries))
    (links : Nat) (direct : ∀ target, Node.named? name entries ≠ some (.link target)) :
    files.follow links place [name] =
      if (Node.named? name entries).isSome then .ok (place ++ [name]) else .error .notFound := by
  obtain ⟨filled,current,parent,_⟩ := plain
  rw [followNext, stands]
  dsimp only
  rw [if_neg (not_or.mpr ⟨filled,current⟩), if_neg parent]
  cases found : Node.named? name entries with
  | none => rfl
  | some node =>
      cases node with
      | link target => exact absurd found (direct target)
      | file content mode => exact followEnd files links _
      | directory entries => exact followEnd files links _

theorem resolveChild (resolved : files.resolve path = .ok place) (plain : Path.IsName name)
    (stands : files.at? place = some (.directory entries))
    (direct : ∀ target, Node.named? name entries ≠ some (.link target)) :
    files.resolve (path.child name) =
      if (Node.named? name entries).isSome then .ok (place ++ [name]) else .error .notFound := by
  have filled : path.text ≠ "" := by
    intro empty
    rw [resolve, empty] at resolved
    cases resolved
  have there {q : Path} (filled : q.text ≠ "") :
      files.resolve q = files.follow linkLimit [] (Path.segments q.text) :=
    if_neg (by simpa using filled)
  rw [there filled] at resolved
  rw [there (Path.childFilled filled plain)]
  obtain ⟨parts,whole,same⟩ := Path.childSegments filled plain
  rw [whole]
  rcases followParts files linkLimit [] parts with ⟨e,fails⟩ | ⟨links,there,leads⟩
  · -- Then the directory is not found either.
    exfalso
    rcases same with same | same
    · have failed := fails []
      rw [List.append_nil, ← same, resolved] at failed
      cases failed
    · have failed := fails [""]
      rw [← same, resolved] at failed
      cases failed
  · have here : there = place := by
      rcases same with same | same
      · have led := leads []
        rw [List.append_nil, ← same, resolved, followEnd] at led
        exact (Except.ok.inj led).symm
      · have led := leads [""]
        rw [← same, resolved, followNext] at led
        split at led
        · rw [if_pos (.inl rfl), followEnd] at led
          exact (Except.ok.inj led).symm
        · cases led
    rw [leads, here]
    exact followName plain stands links direct

theorem nodeChild (resolved : files.resolve path = .ok place) (plain : Path.IsName name)
    (stands : files.at? place = some (.directory entries))
    (direct : ∀ target, Node.named? name entries ≠ some (.link target)) :
    files.node? (path.child name) = Node.named? name entries := by
  rw [node?, resolveChild resolved plain stands direct]
  cases found : Node.named? name entries with
  | none => rfl
  | some node =>
      change files.root.at? (place ++ [name]) = some node
      change files.root.at? place = some (.directory entries) at stands
      rw [Node.atAppend, stands]
      change (Node.named? name entries).bind _ = _
      rw [found]
      rfl

theorem namesIff {listed : List String} : files.names path = .ok listed ↔ ∃ place entries,
    files.resolve path = .ok place ∧ files.at? place = some (.directory entries) ∧
      listed = entries.map (·.1) := by
  unfold names
  rw [okBind]
  constructor
  · intro ⟨place,resolved,found⟩
    split at found
    · rename_i entries stands
      cases found
      exact ⟨place,entries,resolved,stands,rfl⟩
    · cases found
  · intro ⟨place,entries,resolved,stands,same⟩
    refine ⟨place,resolved,?_⟩
    rw [stands, same]

theorem namesFound (resolved : files.resolve path = .ok place)
    (stands : files.at? place = some (.directory entries)) :
    files.names path = .ok (entries.map (·.1)) :=
  namesIff.mpr ⟨place,entries,resolved,stands,rfl⟩

end Files

end DocBlocks
