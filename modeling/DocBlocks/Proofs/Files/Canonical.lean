import DocBlocks.Proofs.Files.Descent

/-! Paths with the same components lead to the same place: segments that are empty or `.` make no
difference where a path leads somewhere. -/
namespace DocBlocks

namespace Path

def counts (segment : String) : Bool := segment != "" && segment != "."

def Component.segment? : Component → Option String
  | root => none
  | current => none
  | parent => some ".."
  | name text => some text

theorem segmentCounts (isFirst : Bool) (segment : List Char) :
    (Component.ofSegment? isFirst segment).bind Component.segment? =
      if counts (String.ofList segment) then some (String.ofList segment) else none := by
  unfold Component.ofSegment?
  split
  · rfl
  · cases isFirst <;> rfl
  · rfl
  · rename_i filled current parent
    have some : counts (String.ofList segment) = true := by
      rw [counts, Bool.and_eq_true, bne_iff_ne, bne_iff_ne]
      constructor
      · intro same
        exact filled (String.ofList_eq_empty_iff.mp same)
      · intro same
        exact current (String.ofList_inj.mp same)
    rw [if_pos some]
    rfl

theorem segmentsCount (isFirst : Bool) (start : Nat) (parts : List (List Char)) :
    ((ofSegments isFirst start parts).map (·.1)).filterMap Component.segment? =
      (parts.map String.ofList).filter counts := by
  induction parts generalizing isFirst start with
  | nil => rfl
  | cons part rest ih =>
      have first := segmentCounts isFirst part
      have later := ih false (start + part.length + 1)
      rw [List.map_cons, List.filter_cons, ofSegments]
      cases component : Component.ofSegment? isFirst part with
      | none =>
          rw [component] at first
          cases count : counts (String.ofList part) with
          | false => exact later
          | true => simp [count] at first
      | some component =>
          rw [component, Option.bind_some] at first
          rw [List.map_cons, List.filterMap_cons, first, later]
          cases counts (String.ofList part) <;> rfl

theorem componentsCount (p : Path) :
    p.components.filterMap Component.segment? = (segments p.text).filter counts := by
  unfold components placed
  dsimp only
  split
  · exact segmentsCount false 0 _
  · exact segmentsCount true 0 _

end Path

namespace Files

variable {files : Files} {p q : Path} {place there : Place}

theorem followCounts {links : Nat} {here : Place} {parts : List String}
    (found : files.follow links here parts = .ok place) :
    files.follow links here (parts.filter Path.counts) = .ok place := by
  induction parts generalizing links here with
  | nil => exact found
  | cons part rest ih =>
      by_cases count : Path.counts part = true
      · rw [List.filter_cons_of_pos count]
        rcases followParts files links here [part] with ⟨e,fails⟩ | ⟨links',there,leads⟩
        · exact nomatch (fails rest).symm.trans found
        · exact (leads _).trans (ih ((leads rest).symm.trans found))
      · rw [List.filter_cons_of_neg count]
        have skipped : part = "" ∨ part = "." := by
          simpa [Path.counts, or_iff_not_imp_left] using count
        rw [followNext] at found
        split at found
        · rw [if_pos skipped] at found
          exact ih found
        · cases found

theorem resolveFollow (found : files.resolve p = .ok place) :
    files.follow linkLimit [] (Path.segments p.text) = .ok place := by
  unfold resolve at found
  split at found
  · cases found
  · exact found

theorem resolveEqual (equal : p.order q = .eq) (found : files.resolve p = .ok place)
    (found' : files.resolve q = .ok there) : place = there := by
  have one := followCounts (resolveFollow found)
  have other := followCounts (resolveFollow found')
  rw [← Path.componentsCount, Path.orderEqual.mp equal, Path.componentsCount] at one
  exact Except.ok.inj (one.symm.trans other)

end Files

end DocBlocks
