import DocBlocks.Proofs.Block.Locality
import DocBlocks.Proofs.Block.Restart

/-! Searches in a text and in a part of it that ends before a line feed. No delimiter and no tag that
is found in the part is lost when the text goes on behind it, and none comes to stand before it. -/
namespace DocBlocks

structure CommentGrammar.Solid (g : CommentGrammar) : Prop where
  openers : ∀ d ∈ g.openers, ∀ c ∈ d.chars, Text.isBlank c = false ∧ c ∉ Tag.openMark
  closers : ∀ d ∈ g.closers, ∀ c ∈ d.chars, Text.isBlank c = false

theorem CommentGrammar.solid {g : CommentGrammar} (kind : g ∈ [markdown,python,c]) : g.Solid := by
  simp only [List.mem_cons, List.not_mem_nil, or_false] at kind
  rcases kind with rfl | rfl | rfl
  all_goals
    constructor <;>
      simp [openers, closers, markdown, python, c, tripleDouble, tripleSingle, Delimiter.chars,
        Tag.openMark, Text.isBlank]

namespace Delimiter

variable {delimiters : List Delimiter} {text : List Char} {d : Delimiter}

theorem leadingStands (member : d ∈ delimiters) (rest : List Char) :
    (leading? delimiters (d.chars ++ rest)).isSome = true := by
  rw [leading?, List.findSome?_isSome_iff]
  exact ⟨d,member,by rw [Text.after?_append]; rfl⟩

theorem leadingStop {c : Char} (other : ∀ d ∈ delimiters, c ∉ d.chars) (text rest : List Char) :
    leading? delimiters (text ++ c :: rest) =
      (leading? delimiters text).map fun (d,after) => (d,after ++ c :: rest) := by
  unfold leading?
  induction delimiters with
  | nil => rfl
  | cons d more ih =>
      have later := ih fun e member => other e (List.mem_cons_of_mem _ member)
      rw [List.findSome?_cons, List.findSome?_cons, Text.afterStop (other d List.mem_cons_self)]
      cases Text.after? d.chars text with
      | none => exact later
      | some after => rfl

theorem goSeen (delimiters : List Delimiter) (seen text : List Char) :
    find?.go delimiters seen text =
      (find? delimiters text).map fun f => { f with before := seen.reverse ++ f.before } := by
  have both (seen' : List Char) : find?.go delimiters (seen' ++ seen) text =
      (find?.go delimiters seen' text).map
        fun f => { f with before := seen.reverse ++ f.before } := by
    induction text generalizing seen' with
    | nil => rfl
    | cons c text ih =>
        rw [find?.go, find?.go]
        cases leading? delimiters (c :: text) with
        | some outcome => simp
        | none => exact ih (c :: seen')
  exact both []

theorem findStep (delimiters : List Delimiter) (c : Char) (text : List Char) :
    find? delimiters (c :: text) =
      match leading? delimiters (c :: text) with
      | some (d,after) => some ⟨[],d,after⟩
      | none => (find? delimiters text).map fun f => { f with before := c :: f.before } := by
  rw [find?, find?.go]
  cases leading? delimiters (c :: text) with
  | some outcome => rfl
  | none => exact goSeen delimiters [c] text

theorem findMember {f : Found} (found : find? delimiters text = some f) :
    f.delimiter ∈ delimiters := by
  induction text generalizing f with
  | nil => cases found
  | cons c text ih =>
      rw [findStep] at found
      split at found
      · rename_i leads
        cases found
        exact (eq_append_of_leading? leads).1
      · obtain ⟨later,inside,rfl⟩ := Option.map_eq_some_iff.mp found
        exact @ih later inside

theorem findStands (member : d ∈ delimiters) (before rest : List Char) :
    find? delimiters (before ++ (d.chars ++ rest)) ≠ none := by
  have here := leadingStands member rest
  induction before with
  | nil =>
      rw [List.nil_append, chars, List.cons_append, findStep]
      rw [chars, List.cons_append] at here
      obtain ⟨outcome,leads⟩ := Option.isSome_iff_exists.mp here
      rw [leads]
      exact Option.some_ne_none _
  | cons c before ih =>
      rw [List.cons_append, findStep]
      cases leading? delimiters (c :: (before ++ (d.chars ++ rest))) with
      | some outcome => exact Option.some_ne_none _
      | none => simpa using ih

theorem findFeed {f : Found} {c : Char} (other : ∀ d ∈ delimiters, c ∉ d.chars)
    (found : find? delimiters text = some f) (rest : List Char) :
    find? delimiters (text ++ c :: rest) = some { f with rest := f.rest ++ c :: rest } := by
  induction text generalizing f with
  | nil => cases found
  | cons e text ih =>
      have leads := leadingStop other (e :: text) rest
      rw [List.cons_append] at leads
      rw [findStep] at found
      rw [List.cons_append, findStep, leads]
      cases here : leading? delimiters (e :: text) with
      | some outcome =>
          rw [here] at found
          cases found
          rfl
      | none =>
          rw [here] at found
          obtain ⟨later,inside,rfl⟩ := Option.map_eq_some_iff.mp found
          simp [ih inside]

theorem findBlanks (solid : ∀ d ∈ delimiters, ∀ c ∈ d.chars, Text.isBlank c = false)
    {blanks : List Char} (blank : ∀ c ∈ blanks, Text.isBlank c = true) (text : List Char) :
    find? delimiters (blanks ++ text) =
      (find? delimiters text).map fun f => { f with before := blanks ++ f.before } := by
  induction blanks with
  | nil => simp
  | cons c blanks ih =>
      have none : leading? delimiters (c :: (blanks ++ text)) = none := by
        cases leads : leading? delimiters (c :: (blanks ++ text)) with
        | none => rfl
        | some outcome =>
            obtain ⟨d,after⟩ := outcome
            obtain ⟨member,whole⟩ := eq_append_of_leading? leads
            obtain ⟨rfl,_⟩ := List.cons.inj whole
            have first := solid d member d.first List.mem_cons_self
            rw [blank _ List.mem_cons_self] at first
            cases first
      rw [List.cons_append, findStep, none, ih fun e member => blank e (List.mem_cons_of_mem _ member)]
      simp [Function.comp_def]

end Delimiter

namespace CommentGrammar.Solid

variable {g : CommentGrammar} (solid : g.Solid)

include solid

theorem openersFeed : ∀ d ∈ g.openers, '\n' ∉ d.chars :=
  fun d member feed => absurd (solid.openers d member _ feed).1 (by decide)

theorem closersFeed : ∀ d ∈ g.closers, '\n' ∉ d.chars :=
  fun d member feed => absurd (solid.closers d member _ feed) (by decide)

end CommentGrammar.Solid

namespace Tag

variable {g : CommentGrammar} {text : List Char}

theorem closerKept {e : Delimiter} (member : e ∈ g.closers) (before after : List Char) :
    Delimiter.find? g.closers (splitCommand g (before ++ (e.chars ++ after))).2 ≠ none := by
  have splits := splitParts g (before ++ (e.chars ++ after))
  have whole := splitCommandWhole g (before ++ (e.chars ++ after))
  generalize splitCommand g (before ++ (e.chars ++ after)) = split at splits whole ⊢
  rcases List.append_eq_append_iff.mp whole with ⟨gap,_,rest⟩ | ⟨gap,command,rest⟩
  · rw [rest]
    exact Delimiter.findStands member gap after
  · cases gap with
    | nil =>
        rw [List.nil_append] at rest
        rw [← rest]
        exact Delimiter.findStands member [] after
    | cons c gap =>
        obtain ⟨rfl,_⟩ := List.cons.inj rest
        have goes := splits.2 before e.first gap command
        have leads := Delimiter.leadingStands member after
        rw [rest, List.cons_append] at leads
        rw [endsCommand, leads, Bool.or_true] at goes
        cases goes

theorem openingCloses {tag : Opening} (read : opening? g text = some tag) :
    ∃ d ∈ g.closers, ∃ before after, text = before ++ (d.chars ++ after) := by
  obtain ⟨named,closer,marked,_,ends,_⟩ := openingTaken.mp read
  refine ⟨closer.delimiter,Delimiter.findMember ends,text.takeWhile Text.isBlank ++ (openMark ++
    ((splitCommand g named).1 ++ closer.before)),closer.rest,?_⟩
  refine (namedWhole g marked).trans ?_
  rw [Delimiter.eq_append_of_find? ends]
  simp only [List.append_assoc]

variable (solid : g.Solid)

include solid

theorem endsFeed (c : Char) (text rest : List Char) :
    endsCommand g (c :: (text ++ '\n' :: rest)) = endsCommand g (c :: text) := by
  rw [endsCommand, endsCommand, ← List.cons_append, Delimiter.leadingStop solid.closersFeed,
    Option.isSome_map]

theorem splitFeed (text rest : List Char) : splitCommand g (text ++ '\n' :: rest) =
    ((splitCommand g text).1,(splitCommand g text).2 ++ '\n' :: rest) := by
  obtain ⟨ends,inside⟩ := splitParts g text
  have whole := splitCommandWhole g text
  generalize splitCommand g text = split at ends inside whole ⊢
  subst whole
  rw [List.append_assoc]
  refine splitRead ⟨?_,?_⟩
  · cases after : split.2 with
    | nil => rfl
    | cons c more =>
        rw [after] at ends
        rw [List.cons_append, endsFeed solid]
        exact ends
  · intro p c q same
    rw [← List.append_assoc, endsFeed solid]
    exact inside p c q same

theorem openingFeed {tag : Opening} (read : opening? g text = some tag) (rest : List Char) :
    opening? g (text ++ '\n' :: rest) = some { tag with rest := tag.rest ++ '\n' :: rest } := by
  obtain ⟨named,closer,marked,filled,ends,rfl⟩ := openingTaken.mp read
  have starts : ∀ c, (openMark ++ (named ++ '\n' :: rest)).head? = some c →
      Text.isBlank c = false := by
    intro c head
    cases head
    rfl
  obtain ⟨took,left⟩ := takeStop (List.all_eq_true.mp (List.all_takeWhile (l := text))) starts
  have whole : text ++ '\n' :: rest =
      text.takeWhile Text.isBlank ++ (openMark ++ (named ++ '\n' :: rest)) :=
    calc text ++ '\n' :: rest =
          text.takeWhile Text.isBlank ++ Text.trimStart text ++ '\n' :: rest := by rw [blanksWhole]
      _ = _ := by rw [Text.eq_append_of_after? marked]; simp only [List.append_assoc]
  refine openingTaken.mpr
    ⟨named ++ '\n' :: rest,{ closer with rest := closer.rest ++ '\n' :: rest },?_,?_,?_,?_⟩
  · rw [whole, Text.trimStart, left, Text.after?_append]
  · rw [splitFeed solid]
    exact filled
  · rw [splitFeed solid]
    exact Delimiter.findFeed solid.closersFeed ends rest
  · rw [whole, took, splitFeed solid]

theorem openingRefused {gap inner : List Char} {d : Delimiter} {tag : Opening}
    (member : d ∈ g.openers) (read : opening? g inner = some tag)
    (rejected : opening? g (gap ++ (d.chars ++ inner)) = none) (rest : List Char) :
    opening? g (gap ++ (d.chars ++ inner) ++ '\n' :: rest) = none := by
  obtain ⟨blank,mark⟩ := solid.openers d member d.first List.mem_cons_self
  have stop (after : List Char) : Text.after? openMark (Text.trimStart (gap ++ (d.chars ++ after))) =
      (Text.after? openMark (Text.trimStart gap)).map (· ++ (d.chars ++ after)) := by
    rw [Delimiter.chars, List.cons_append, Text.trimStop blank, Text.afterStop mark]
  rw [openingAbsent, stop] at rejected
  rw [openingAbsent, List.append_assoc, List.append_assoc, stop]
  intro named marked
  obtain ⟨command,here,rfl⟩ := Option.map_eq_some_iff.mp marked
  rw [here] at rejected
  simp only [Option.map_some, Option.some.injEq, forall_eq'] at rejected
  rw [← List.append_assoc, ← List.append_assoc, List.append_assoc command, splitFeed solid]
  -- the tag behind the delimiter ends with a closing one, so it is the command that is missing
  refine .inl (rejected.resolve_right ?_)
  obtain ⟨closer,closes,before,after,rfl⟩ := openingCloses read
  rw [← List.append_assoc, ← List.append_assoc]
  exact closerKept closes _ after

end Tag

namespace Cursor

variable {g : CommentGrammar}

theorem nextOpeningStands {offset : Nat} {text : List Char} {found : OpeningMatch}
    (search : (nextOpening g offset text).2 = some found) :
    ∃ gap inner tag, ∃ d ∈ g.openers, text = gap ++ (d.chars ++ inner) ∧
      Tag.opening? g inner = some tag := by
  fun_induction nextOpening g offset text with
  | case1 => cases search
  | case2 offset text f here start inside tag read next =>
      exact ⟨f.before,f.rest,tag,f.delimiter,Delimiter.findMember here,
        by rw [Delimiter.eq_append_of_find? here, List.append_assoc],read⟩
  | case3 offset text f here start inside rejected ih =>
      obtain ⟨gap,inner,tag,d,member,whole,read⟩ := ih search
      refine ⟨f.before ++ (f.delimiter.chars ++ gap),inner,tag,d,member,?_,read⟩
      rw [Delimiter.eq_append_of_find? here, whole]
      simp

variable (solid : g.Solid)

include solid

theorem nextOpeningCut {offset : Nat} {text : List Char} {found : OpeningMatch}
    (search : (nextOpening g offset text).2 = some found) (rest : List Char) :
    (nextOpening g offset (text ++ '\n' :: rest)).2 =
      some { found with next := ⟨found.next.offset,found.next.rest ++ '\n' :: rest⟩ } := by
  fun_induction nextOpening g offset text with
  | case1 => cases search
  | case2 offset text f here start inside tag read next =>
      rw [nextOpeningStep (Delimiter.findFeed solid.openersFeed here rest),
        Tag.openingFeed solid read]
      cases search
      rfl
  | case3 offset text f here start inside rejected ih =>
      rw [nextOpeningStep (Delimiter.findFeed solid.openersFeed here rest)]
      obtain ⟨gap,inner,tag,d,member,whole,read⟩ := nextOpeningStands search
      rw [whole] at rejected
      dsimp only
      rw [whole, Tag.openingRefused solid member read rejected rest, ← whole]
      exact ih search

theorem nextOpeningBlanks {blanks : List Char} (blank : ∀ c ∈ blanks, Text.isBlank c = true)
    (offset : Nat) (text : List Char) : (nextOpening g offset (blanks ++ text)).2 =
      (nextOpening g (offset + Text.size blanks) text).2 := by
  have moved := Delimiter.findBlanks (fun d member c inside => (solid.openers d member c inside).1)
    blank text
  cases here : Delimiter.find? g.openers text with
  | none =>
      rw [here] at moved
      rw [nextOpeningStop here, nextOpeningStop moved]
  | some f =>
      rw [here] at moved
      rw [nextOpeningStep here, nextOpeningStep moved]
      dsimp only
      rw [Text.size_append, Nat.add_assoc offset (Text.size blanks) (Text.size f.before)]

end Cursor

end DocBlocks
