import DocBlocks.Proofs.Block.Extent
import DocBlocks.Proofs.Block.Search

/-! The grammar of tags, stated without the scanner, for the comment grammars with one delimiter on
either side. The scanner finds the first place at which a tag of this grammar stands, and nothing only
where there is none. -/
namespace DocBlocks.Tag

/-- An opening tag before the rest of a text: the command is the longest run of its characters, and the
first closing delimiter behind it ends the tag. -/
structure IsOpening (g : CommentGrammar) (command arguments tag rest : List Char) : Prop where
  spelled : ∃ blanks, (∀ c ∈ blanks, Text.isBlank c = true) ∧
    tag = g.opener.chars ++ (blanks ++ (openMark ++ (command ++ (arguments ++ g.closer.chars))))
  filled : command ≠ []
  runs : ∀ p c q, command = p ++ c :: q → Text.isBlank c = false ∧ c ≠ '-' ∧
    ¬ g.closer.chars <+: c :: (q ++ (arguments ++ (g.closer.chars ++ rest)))
  longest : ∀ c q, arguments ++ (g.closer.chars ++ rest) = c :: q →
    Text.isBlank c = true ∨ c = '-' ∨ g.closer.chars <+: c :: q
  nearest : ∀ p q, arguments ++ (g.closer.chars ++ rest) = p ++ (g.closer.chars ++ q) →
    Text.size arguments ≤ Text.size p

def IsClosing (g : CommentGrammar) (command tag : List Char) : Prop :=
  ∃ blanks between, (∀ c ∈ blanks ++ between, Text.isBlank c = true) ∧
    tag = g.opener.chars ++ (blanks ++ (closeMark ++ (command ++ (between ++ g.closer.chars))))

def Opens (g : CommentGrammar) (text : List Char) : Prop :=
  ∃ command arguments tag rest, text = tag ++ rest ∧ IsOpening g command arguments tag rest

def Closes (g : CommentGrammar) (command text : List Char) : Prop :=
  ∃ tag rest, text = tag ++ rest ∧ IsClosing g command tag

structure FirstOpening (g : CommentGrammar) (text gap command arguments tag rest : List Char) : Prop where
  whole : text = gap ++ (tag ++ rest)
  opening : IsOpening g command arguments tag rest
  least : ∀ p q, text = p ++ q → Opens g q → Text.size gap ≤ Text.size p

structure FirstClosing (g : CommentGrammar) (command text body tag rest : List Char) : Prop where
  whole : text = body ++ (tag ++ rest)
  closing : IsClosing g command tag
  least : ∀ p q, text = p ++ q → Closes g command q → Text.size body ≤ Text.size p

end DocBlocks.Tag

namespace DocBlocks

structure CommentGrammar.Paired (g : CommentGrammar) : Prop extends g.Single where
  ends : g.otherClosers = []
  solid : Text.isBlank g.closer.first = false

theorem CommentGrammar.paired {g : CommentGrammar} (kind : g = markdown ∨ g = c) : g.Paired := by
  rcases kind with rfl | rfl
  · exact ⟨singleMarkdown,rfl,rfl⟩
  · exact ⟨singleC,rfl,rfl⟩

theorem CommentGrammar.Paired.closers {g : CommentGrammar} (paired : g.Paired) :
    g.closers = [g.closer] := by
  rw [CommentGrammar.closers, paired.ends]

theorem Text.sizePrefix {text a b x y : List Char} (first : text = a ++ x) (second : text = b ++ y) :
    size a ≤ size b ↔ a.length ≤ b.length := by
  constructor
  · intro le
    rcases Nat.lt_or_ge b.length a.length with less | ge
    · obtain ⟨gap,rfl⟩ := List.prefix_of_prefix_length_le ⟨y,second.symm⟩ ⟨x,first.symm⟩
        (Nat.le_of_lt less)
      have none : gap = [] := sizeZero (by rw [size_append] at le; omega)
      rw [none, List.append_nil] at less
      omega
    · exact ge
  · intro le
    obtain ⟨gap,rfl⟩ := List.prefix_of_prefix_length_le ⟨x,first.symm⟩ ⟨y,second.symm⟩ le
    rw [size_append]
    omega

theorem Delimiter.leadingPrefix (d : Delimiter) (text : List Char) :
    (leading? [d] text).isSome = true ↔ d.chars <+: text := by
  rw [leadingOne, Option.isSome_map, Option.isSome_iff_exists]
  constructor
  · intro leads
    obtain ⟨rest,leads⟩ := leads
    exact ⟨rest,(Text.eq_append_of_after? leads).symm⟩
  · intro leads
    obtain ⟨rest,rfl⟩ := leads
    exact ⟨rest,Text.after?_append _ _⟩

theorem Delimiter.firstAfterIff {d : Delimiter} {a rest : List Char} : d.FirstAfter a ↔
    ∀ p q, a ++ (d.chars ++ rest) = p ++ (d.chars ++ q) → Text.size a ≤ Text.size p := by
  constructor
  · intro first p q same
    rw [Text.sizePrefix rfl same]
    rcases Nat.lt_or_ge p.length a.length with less | ge
    · have one : p ++ d.chars <+: a ++ (d.chars ++ rest) := ⟨q,by rw [same, List.append_assoc]⟩
      have two : a ++ d.chars <+: a ++ (d.chars ++ rest) := ⟨rest,List.append_assoc _ _ _⟩
      obtain ⟨between,inside⟩ := List.prefix_of_prefix_length_le one two (by simp; omega)
      exact first p between (by rw [← inside, List.append_assoc])
    · exact ge
  · intro least p q same
    rw [← Text.sizePrefix rfl same]
    exact least p (q ++ rest) (by rw [← List.append_assoc, same]; simp)

namespace Tag

variable {g : CommentGrammar} (paired : g.Paired)

include paired in
theorem endsPaired (c : Char) (more : List Char) : endsCommand g (c :: more) = true ↔
    Text.isBlank c = true ∨ c = '-' ∨ g.closer.chars <+: c :: more := by
  rw [endsCommand, paired.closers, Bool.or_eq_true, Bool.or_eq_true, Delimiter.leadingPrefix, beq_iff_eq,
    or_assoc]

def SplitsAt (g : CommentGrammar) (command rest : List Char) : Prop :=
  endsCommand g rest = true ∧
    ∀ p c q, command = p ++ c :: q → endsCommand g (c :: (q ++ rest)) = false

theorem splitParts (g : CommentGrammar) (text : List Char) :
    SplitsAt g (splitCommand g text).1 (splitCommand g text).2 := by
  have from' : ∀ seen : List Char, ∃ command,
      (splitCommand.go g seen text).1 = seen.reverse ++ command ∧
        text = command ++ (splitCommand.go g seen text).2 ∧
        SplitsAt g command (splitCommand.go g seen text).2 := by
    induction text with
    | nil => intro seen; exact ⟨[],by simp [splitCommand.go],rfl,rfl,by simp⟩
    | cons c text ih =>
        intro seen
        rw [splitCommand.go]
        split
        · rename_i ends
          exact ⟨[],by simp,rfl,ends,by simp⟩
        · rename_i goes
          obtain ⟨command,taken,whole,ends,inside⟩ := ih (c :: seen)
          refine ⟨c :: command,by simpa using taken,by rw [List.cons_append, ← whole],ends,?_⟩
          intro p d q same
          cases p with
          | nil =>
              obtain ⟨rfl,rfl⟩ := List.cons.inj same
              rw [← whole]
              exact Bool.eq_false_iff.mpr goes
          | cons e p => exact inside p d q (List.cons.inj same).2
  obtain ⟨command,taken,_,splits⟩ := from' []
  rw [show (splitCommand g text).1 = command from taken]
  exact splits

theorem splitRead {command rest : List Char} (splits : SplitsAt g command rest) :
    splitCommand g (command ++ rest) = (command,rest) := by
  have from' : ∀ seen : List Char,
      splitCommand.go g seen (command ++ rest) = (seen.reverse ++ command,rest) := by
    induction command with
    | nil =>
        intro seen
        have ends := splits.1
        cases rest with
        | nil => simp [splitCommand.go]
        | cons c rest => simp [splitCommand.go, ends]
    | cons c command ih =>
        intro seen
        have goes := splits.2 [] c command rfl
        have later := ih ⟨splits.1,fun p d q same => splits.2 (c :: p) d q (by rw [same]; rfl)⟩
        simp [splitCommand.go, goes, later]
  exact from' []

include paired in
theorem splitsPaired {command arguments rest : List Char} :
    SplitsAt g command (arguments ++ (g.closer.chars ++ rest)) ↔
      (∀ p c q, command = p ++ c :: q → Text.isBlank c = false ∧ c ≠ '-' ∧
        ¬ g.closer.chars <+: c :: (q ++ (arguments ++ (g.closer.chars ++ rest)))) ∧
      (∀ c q, arguments ++ (g.closer.chars ++ rest) = c :: q →
        Text.isBlank c = true ∨ c = '-' ∨ g.closer.chars <+: c :: q) := by
  unfold SplitsAt
  rw [and_comm]
  refine and_congr ?_ ?_
  · refine forall_congr' fun p => forall_congr' fun c => forall_congr' fun q => imp_congr_right
      fun _ => ?_
    rw [← Bool.not_eq_true, endsPaired paired]
    simp only [not_or, Bool.not_eq_true, ne_eq]
  · constructor
    · intro ends c q same
      rw [same, endsPaired paired] at ends
      exact ends
    · intro ends
      cases tail : arguments ++ (g.closer.chars ++ rest) with
      | nil => rfl
      | cons c q => exact (endsPaired paired c q).mpr (ends c q tail)

include paired in
theorem openingSound {inner : List Char} {tag : Opening} (read : opening? g inner = some tag) :
    ∃ head, inner = head ++ tag.rest ∧ tag.size = Text.size head ∧
      IsOpening g tag.command tag.arguments (g.opener.chars ++ head) tag.rest := by
  obtain ⟨head,whole,sized⟩ := openingExtent read
  refine ⟨head,whole,sized,?_⟩
  obtain ⟨named,found,marked,filled,ends,rfl⟩ := openingTaken.mp read
  rw [paired.closers] at ends
  obtain ⟨_,after,first⟩ := Delimiter.findSome.mp ends
  have parts := splitParts g named
  have cut := namedWhole g marked
  rw [after] at parts cut
  obtain ⟨runs,longest⟩ := (splitsPaired paired).mp parts
  refine ⟨⟨inner.takeWhile Text.isBlank,?_,?_⟩,filled,runs,longest,Delimiter.firstAfterIff.mp first⟩
  · exact fun c member => List.all_eq_true.mp List.all_takeWhile c member
  · refine congrArg (g.opener.chars ++ ·) (List.append_cancel_right (whole.symm.trans (cut.trans ?_)))
    simp only [List.append_assoc]

include paired in
theorem openingComplete {head : List Char} {tag : Opening} (sized : tag.size = Text.size head)
    (stands : IsOpening g tag.command tag.arguments (g.opener.chars ++ head) tag.rest) :
    opening? g (head ++ tag.rest) = some tag := by
  obtain ⟨command,arguments,size,rest⟩ := tag
  obtain ⟨⟨blanks,blank,spelled⟩,filled,runs,longest,nearest⟩ := stands
  dsimp only at sized spelled filled runs longest nearest ⊢
  subst sized
  obtain rfl := List.append_cancel_left spelled
  have split := splitRead ((splitsPaired paired).mpr ⟨runs,longest⟩)
  have ends : Delimiter.find? g.closers (arguments ++ (g.closer.chars ++ rest)) =
      some ⟨arguments,g.closer,rest⟩ := by
    rw [paired.closers]
    exact Delimiter.findSome.mpr ⟨rfl,rfl,Delimiter.firstAfterIff.mpr nearest⟩
  have solid : ∀ c, (openMark ++ (command ++ (arguments ++ (g.closer.chars ++ rest)))).head? =
      some c → Text.isBlank c = false := by
    intro c head
    cases head
    rfl
  have cut := takeStop blank solid
  refine openingTaken.mpr
    ⟨command ++ (arguments ++ (g.closer.chars ++ rest)),⟨arguments,g.closer,rest⟩,?_,?_,?_,?_⟩
  · simp only [List.append_assoc, Text.trimStart, cut, Text.after?_append]
  · rw [split]
    exact filled
  · rw [split]
    exact ends
  · simp only [split, List.append_assoc, cut]
    simp [Delimiter.size, Nat.add_assoc]

include paired in
theorem openingIff {inner : List Char} {tag : Opening} : opening? g inner = some tag ↔
    ∃ head, inner = head ++ tag.rest ∧ tag.size = Text.size head ∧
      IsOpening g tag.command tag.arguments (g.opener.chars ++ head) tag.rest := by
  refine ⟨openingSound paired,?_⟩
  rintro ⟨head,rfl,sized,stands⟩
  exact openingComplete paired sized stands

include paired in
theorem closingSound {command inner rest : List Char} {size : Nat}
    (read : closing? g command inner = some (size,rest)) :
    ∃ foot, inner = foot ++ rest ∧ size = Text.size foot ∧
      IsClosing g command (g.opener.chars ++ foot) := by
  obtain ⟨foot,whole,sized⟩ := closingExtent read
  refine ⟨foot,whole,sized,?_⟩
  obtain ⟨named,ended,delimiter,marked,spelled,leads,_⟩ := closingTaken.mp read
  have cut := closedWhole marked spelled leads
  rw [paired.closers] at leads
  obtain rfl := List.mem_singleton.mp (Delimiter.eq_append_of_leading? leads).1
  refine ⟨inner.takeWhile Text.isBlank,ended.takeWhile Text.isBlank,?_,?_⟩
  · intro c member
    rcases List.mem_append.mp member with first | second
    · exact List.all_eq_true.mp List.all_takeWhile c first
    · exact List.all_eq_true.mp List.all_takeWhile c second
  · refine congrArg (g.opener.chars ++ ·) (List.append_cancel_right (whole.symm.trans (cut.trans ?_)))
    simp only [List.append_assoc]

include paired in
theorem closingComplete {command foot : List Char}
    (stands : IsClosing g command (g.opener.chars ++ foot)) (rest : List Char) :
    closing? g command (foot ++ rest) = some (Text.size foot,rest) := by
  obtain ⟨blanks,between,blank,spelled⟩ := stands
  obtain rfl := List.append_cancel_left spelled
  have solid : ∀ c, (closeMark ++ (command ++ (between ++ (g.closer.chars ++ rest)))).head? =
      some c → Text.isBlank c = false := by
    intro c head
    cases head
    rfl
  have ends : ∀ c, (g.closer.chars ++ rest).head? = some c → Text.isBlank c = false := by
    intro c head
    cases head
    exact paired.solid
  have one := takeStop (fun c member => blank c (List.mem_append_left _ member)) solid
  have two := takeStop (fun c member => blank c (List.mem_append_right _ member)) ends
  refine closingTaken.mpr
    ⟨command ++ (between ++ (g.closer.chars ++ rest)),between ++ (g.closer.chars ++ rest),
      g.closer,?_,Text.after?_append _ _,?_,?_⟩
  · simp only [List.append_assoc, Text.trimStart, one, Text.after?_append]
  · rw [Text.trimStart, two.2, paired.closers, Delimiter.leadingHere]
  · simp only [List.append_assoc, one, two]
    simp [Delimiter.size, Nat.add_assoc, Nat.add_comm, Nat.add_left_comm]

include paired in
theorem closingIff {command inner rest : List Char} {size : Nat} :
    closing? g command inner = some (size,rest) ↔
      ∃ foot, inner = foot ++ rest ∧ size = Text.size foot ∧
        IsClosing g command (g.opener.chars ++ foot) := by
  refine ⟨closingSound paired,?_⟩
  rintro ⟨foot,rfl,rfl,stands⟩
  exact closingComplete paired stands rest

end Tag

open Delimiter (FirstAt Nowhere)

namespace Delimiter

variable {β : Type} {d : Delimiter} {accept : List Char → Option β} {Stands : List Char → Prop}
  (stands : ∀ text, Stands text ↔ ∃ inner, text = d.chars ++ inner ∧ accept inner ≠ none)
  {text : List Char}

include stands in
theorem nowhereIff : Nowhere d accept text ↔ ∀ p q, text = p ++ q → ¬ Stands q := by
  constructor
  · intro none p q whole here
    obtain ⟨inner,rfl,accepted⟩ := (stands q).mp here
    exact accepted (none p inner whole)
  · intro none p q whole
    by_cases rejected : accept q = .none
    · exact rejected
    · exact absurd ((stands _).mpr ⟨q,rfl,rejected⟩) (none p _ whole)

include stands in
theorem firstAtIff (sharp : d.Sharp) {gap inner : List Char} {result : β} :
    FirstAt d accept text gap inner result ↔
      text = gap ++ (d.chars ++ inner) ∧ accept inner = some result ∧
        ∀ p q, text = p ++ q → Stands q → Text.size gap ≤ Text.size p := by
  constructor
  · intro first
    refine ⟨first.whole,first.accepted,?_⟩
    intro p q whole here
    obtain ⟨inner',rfl,accepted⟩ := (stands q).mp here
    exact (Text.sizePrefix first.whole whole).mpr (firstLeast sharp first whole accepted)
  · intro ⟨whole,accepted,least⟩
    refine ⟨whole,accepted,?_⟩
    intro p q inside
    by_cases rejected : accept (q ++ (d.chars ++ inner)) = none
    · exact rejected
    · have le := least p _ (by rw [whole, inside]; simp) ((stands _).mpr ⟨_,rfl,rejected⟩)
      have positive := Text.sizeFilled (List.cons_ne_nil d.first d.more)
      change 0 < Text.size d.chars at positive
      rw [inside, Text.size_append, Text.size_append] at le
      omega

end Delimiter

namespace Tag

variable {g : CommentGrammar} (paired : g.Paired) {text command : List Char}

include paired in
theorem opensIff (text : List Char) :
    Opens g text ↔ ∃ inner, text = g.opener.chars ++ inner ∧ opening? g inner ≠ none := by
  constructor
  · intro ⟨command,arguments,tag,rest,whole,opening⟩
    obtain ⟨blanks,_,spelled⟩ := opening.spelled
    subst spelled
    have read : opening? g _ = some ⟨command,arguments,_,rest⟩ :=
      (openingIff paired).mpr ⟨_,rfl,rfl,opening⟩
    exact ⟨_,by rw [whole, List.append_assoc],by rw [read]; exact Option.some_ne_none _⟩
  · intro ⟨inner,whole,accepted⟩
    obtain ⟨tag,read⟩ := Option.ne_none_iff_exists'.mp accepted
    obtain ⟨head,rfl,_,opening⟩ := (openingIff paired).mp read
    exact ⟨_,_,_,_,by rw [whole, List.append_assoc],opening⟩

include paired in
theorem closesIff (command text : List Char) : Closes g command text ↔
    ∃ inner, text = g.opener.chars ++ inner ∧ closing? g command inner ≠ none := by
  constructor
  · intro ⟨tag,rest,whole,closing⟩
    obtain ⟨blanks,between,_,spelled⟩ := id closing
    subst spelled
    have read : closing? g command _ = some (_,rest) := (closingIff paired).mpr ⟨_,rfl,rfl,closing⟩
    exact ⟨_,by rw [whole, List.append_assoc],by rw [read]; exact Option.some_ne_none _⟩
  · intro ⟨inner,whole,accepted⟩
    obtain ⟨⟨size,rest⟩,read⟩ := Option.ne_none_iff_exists'.mp accepted
    obtain ⟨foot,rfl,_,closing⟩ := (closingIff paired).mp read
    exact ⟨_,_,by rw [whole, List.append_assoc],closing⟩

include paired in
theorem firstOpeningIff {gap arguments tag rest : List Char} :
    FirstOpening g text gap command arguments tag rest ↔ ∃ head, tag = g.opener.chars ++ head ∧
      FirstAt g.opener (opening? g) text gap (head ++ rest)
        ⟨command,arguments,Text.size head,rest⟩ := by
  have places := @Delimiter.firstAtIff _ _ _ _ (opensIff paired) text paired.sharp
  constructor
  · intro ⟨whole,opening,least⟩
    obtain ⟨blanks,_,spelled⟩ := opening.spelled
    rw [spelled, List.append_assoc] at whole
    rw [spelled] at opening
    exact ⟨_,spelled,places.mpr ⟨whole,(openingIff paired).mpr ⟨_,rfl,rfl,opening⟩,least⟩⟩
  · intro ⟨head,spelled,first⟩
    obtain ⟨whole,accepted,least⟩ := places.mp first
    obtain ⟨head',same,_,opening⟩ := (openingIff paired).mp accepted
    obtain rfl := List.append_cancel_right same
    rw [spelled]
    exact ⟨by rw [whole, List.append_assoc],opening,least⟩

include paired in
theorem firstClosingIff {body tag rest : List Char} :
    FirstClosing g command text body tag rest ↔ ∃ foot, tag = g.opener.chars ++ foot ∧
      FirstAt g.opener (closing? g command) text body (foot ++ rest) (Text.size foot,rest) := by
  have places := @Delimiter.firstAtIff _ _ _ _ (closesIff paired command) text paired.sharp
  constructor
  · intro ⟨whole,closing,least⟩
    obtain ⟨blanks,between,_,spelled⟩ := id closing
    rw [spelled, List.append_assoc] at whole
    rw [spelled] at closing
    exact ⟨_,spelled,places.mpr ⟨whole,(closingIff paired).mpr ⟨_,rfl,rfl,closing⟩,least⟩⟩
  · intro ⟨foot,spelled,first⟩
    obtain ⟨whole,accepted,least⟩ := places.mp first
    obtain ⟨foot',same,_,closing⟩ := (closingIff paired).mp accepted
    obtain rfl := List.append_cancel_right same
    rw [spelled]
    exact ⟨by rw [whole, List.append_assoc],closing,least⟩

include paired in
theorem firstOpeningUnique {gap gap' command' arguments arguments' tag tag' rest rest' : List Char}
    (first : FirstOpening g text gap command arguments tag rest)
    (second : FirstOpening g text gap' command' arguments' tag' rest') :
    gap = gap' ∧ command = command' ∧ arguments = arguments' ∧ tag = tag' ∧ rest = rest' := by
  obtain ⟨head,rfl,one⟩ := (firstOpeningIff paired).mp first
  obtain ⟨head',rfl,two⟩ := (firstOpeningIff paired).mp second
  obtain ⟨rfl,same,result⟩ := Delimiter.firstUnique paired.sharp one two
  obtain ⟨rfl,rfl,_,rfl⟩ := Tag.Opening.mk.inj result
  obtain rfl := List.append_cancel_right same
  exact ⟨rfl,rfl,rfl,rfl,rfl⟩

include paired in
theorem firstClosingUnique {body body' tag tag' rest rest' : List Char}
    (first : FirstClosing g command text body tag rest)
    (second : FirstClosing g command text body' tag' rest') :
    body = body' ∧ tag = tag' ∧ rest = rest' := by
  obtain ⟨foot,rfl,one⟩ := (firstClosingIff paired).mp first
  obtain ⟨foot',rfl,two⟩ := (firstClosingIff paired).mp second
  obtain ⟨rfl,same,result⟩ := Delimiter.firstUnique paired.sharp one two
  obtain ⟨_,rfl⟩ := Prod.mk.inj result
  obtain rfl := List.append_cancel_right same
  exact ⟨rfl,rfl,rfl⟩

theorem opensSomewhere {gap arguments tag rest : List Char}
    (first : FirstOpening g text gap command arguments tag rest) :
    ¬ ∀ p q, text = p ++ q → ¬ Opens g q :=
  fun nowhere => nowhere _ _ first.whole ⟨_,_,_,_,rfl,first.opening⟩

theorem closesSomewhere {body tag rest : List Char}
    (first : FirstClosing g command text body tag rest) :
    ¬ ∀ p q, text = p ++ q → ¬ Closes g command q :=
  fun nowhere => nowhere _ _ first.whole ⟨_,_,rfl,first.closing⟩

end Tag

section
open Tag

variable {g : CommentGrammar} (paired : g.Paired)

include paired in
theorem Cursor.nextOpeningGrammar (offset : Nat) (text : List Char) :
    ((∀ p q, text = p ++ q → ¬ Opens g q) ∧ (nextOpening g offset text).2 = none) ∨
    ∃ gap command arguments tag rest, FirstOpening g text gap command arguments tag rest ∧
      (nextOpening g offset text).2 = some ⟨command,arguments,offset + Text.size gap,
        ⟨offset + Text.size gap + Text.size tag,rest⟩⟩ := by
  rcases nextOpeningFirst paired.toSingle offset text with
    ⟨nowhere,missed⟩ | ⟨gap,inner,⟨command,arguments,size,rest⟩,first,search⟩
  · exact .inl ⟨(Delimiter.nowhereIff (opensIff paired)).mp nowhere,missed⟩
  · obtain ⟨head,rfl,rfl,_⟩ := (openingIff paired).mp first.accepted
    refine .inr ⟨gap,command,arguments,_,rest,(firstOpeningIff paired).mpr ⟨head,rfl,first⟩,?_⟩
    rw [search]
    simp [afterGap, Delimiter.size, Nat.add_assoc]

include paired in
theorem Cursor.closingGrammar (command : List Char) (offset : Nat) (text : List Char) :
    ((∀ p q, text = p ++ q → ¬ Closes g command q) ∧ closing? g command offset text = none) ∨
    ∃ body tag rest, FirstClosing g command text body tag rest ∧
      closing? g command offset text = some (offset + Text.size body,
        ⟨offset + Text.size body + Text.size tag,rest⟩) := by
  rcases closingFirst paired.toSingle command offset text with
    ⟨nowhere,missed⟩ | ⟨body,inner,⟨size,rest⟩,first,search⟩
  · exact .inl ⟨(Delimiter.nowhereIff (closesIff paired command)).mp nowhere,missed⟩
  · obtain ⟨foot,rfl,rfl,_⟩ := (closingIff paired).mp first.accepted
    refine .inr ⟨body,_,rest,(firstClosingIff paired).mpr ⟨foot,rfl,first⟩,?_⟩
    rw [search]
    simp [closedAfter, Delimiter.size, Nat.add_assoc]

include paired in
theorem Block.closingIff (lines : LineTable) (found : Cursor.OpeningMatch) :
    (∀ closing, (ofOpening g lines found).1.closing = some closing ↔
      ∃ body foot last, FirstClosing g found.command found.next.rest body foot last ∧
        closing = lines.position (found.next.offset + Text.size body)
          (found.next.offset + Text.size body + Text.size foot)) ∧
    ((ofOpening g lines found).1.closing = none ↔
      ∀ p q, found.next.rest = p ++ q → ¬ Closes g found.command q) := by
  rcases Cursor.closingGrammar paired found.command found.next.offset found.next.rest with
    ⟨nowhere,search⟩ | ⟨body,foot,last,first,search⟩
  · have none : (ofOpening g lines found).1.closing = none := by simp [ofOpening, search]
    rw [none]
    refine ⟨?_,iff_of_true rfl nowhere⟩
    intro closing
    refine iff_of_false (Option.some_ne_none _).symm ?_
    intro found
    obtain ⟨_,_,_,first,_⟩ := found
    exact closesSomewhere first nowhere
  · have here : (ofOpening g lines found).1.closing = some (lines.position
        (found.next.offset + Text.size body)
        (found.next.offset + Text.size body + Text.size foot)) := by
      simp [ofOpening, search]
    rw [here]
    refine ⟨?_,iff_of_false (Option.some_ne_none _) (closesSomewhere first)⟩
    intro closing
    constructor
    · intro same
      exact ⟨body,foot,last,first,(Option.some.inj same).symm⟩
    · intro found
      obtain ⟨_,_,_,other,same⟩ := found
      obtain ⟨rfl,rfl,rfl⟩ := firstClosingUnique paired first other
      rw [same]

end

namespace Scanner
open Tag

/-- Holds if the scanner that begins between two parts of a text finds the first opening tag of the
second part, and behind it the first closing tag of the same command. -/
structure Exact (g : CommentGrammar) (before text : List Char) : Prop where
  openings : ∀ opening,
    (startingAt g (before ++ text) (Text.size before)).nextOpening.1 = some opening ↔
      ∃ gap command arguments tag rest, FirstOpening g text gap command arguments tag rest ∧
        opening = ⟨String.ofList command,String.ofList arguments,
          (LineTable.ofText (before ++ text)).position (Text.size (before ++ gap))
            (Text.size (before ++ (gap ++ tag)))⟩
  missing : (startingAt g (before ++ text) (Text.size before)).nextOpening.1 = none ↔
    ∀ p q, text = p ++ q → ¬ Opens g q
  blocks : ∀ block, (startingAt g (before ++ text) (Text.size before)).nextBlock.1 = some block →
    ∃ gap command arguments tag rest, FirstOpening g text gap command arguments tag rest ∧
      block.command = String.ofList command ∧ block.arguments = String.ofList arguments ∧
      block.opening = (LineTable.ofText (before ++ text)).position (Text.size (before ++ gap))
        (Text.size (before ++ (gap ++ tag))) ∧
      (∀ closing, block.closing = some closing ↔
        ∃ body foot last, FirstClosing g command rest body foot last ∧
          closing = (LineTable.ofText (before ++ text)).position
            (Text.size (before ++ (gap ++ (tag ++ body))))
            (Text.size (before ++ (gap ++ (tag ++ (body ++ foot)))))) ∧
      (block.closing = none ↔ ∀ p q, rest = p ++ q → ¬ Closes g command q)
  blockless : (startingAt g (before ++ text) (Text.size before)).nextBlock.1 = none ↔
    (startingAt g (before ++ text) (Text.size before)).nextOpening.1 = none

theorem startingBetween (g : CommentGrammar) (before text : List Char) :
    startingAt g (before ++ text) (Text.size before) =
      ⟨g,.ofText (before ++ text),Text.size before,some text⟩ := by
  have short : min (Text.size before) (Text.size (before ++ text)) = Text.size before := by
    rw [Text.size_append]
    omega
  unfold startingAt
  simp only [short, Text.dropBytes?_append]

theorem startingOpening (g : CommentGrammar) (before text : List Char) :
    (startingAt g (before ++ text) (Text.size before)).nextOpening.1 =
      (Cursor.nextOpening g (Text.size before) text).2.map
        (Opening.ofMatch (.ofText (before ++ text))) := by
  rw [startingBetween, nextOpening]
  dsimp only
  split <;> (rename_i search; rw [search]; rfl)

theorem startingBlock (g : CommentGrammar) (before text : List Char) :
    (startingAt g (before ++ text) (Text.size before)).nextBlock.1 =
      (Cursor.nextOpening g (Text.size before) text).2.map
        (fun found => (Block.ofOpening g (.ofText (before ++ text)) found).1) := by
  rw [startingBetween, nextBlock]
  dsimp only
  split <;> (rename_i search; rw [search]; rfl)

/- The scanner recognises exactly the grammar, leftmost first. -/
theorem readsGrammar {g : CommentGrammar} (kind : g = .markdown ∨ g = .c) (before text : List Char) :
    Exact g before text := by
  have paired := CommentGrammar.paired kind
  -- one search settles all four: no tag stands anywhere, or the first one is found
  rcases Cursor.nextOpeningGrammar paired (Text.size before) text with
    ⟨nowhere,search⟩ | ⟨gap,command,arguments,tag,rest,first,search⟩
  · constructor
    · intro opening
      rw [startingOpening, search]
      refine ⟨nofun,?_⟩
      intro ⟨_,_,_,_,_,first,_⟩
      exact absurd nowhere (opensSomewhere first)
    · rw [startingOpening, search]
      exact iff_of_true rfl nowhere
    · intro block found
      rw [startingBlock, search] at found
      cases found
    · rw [startingBlock, startingOpening, search]
      exact iff_of_true rfl rfl
  · constructor
    · intro opening
      rw [startingOpening, search]
      simp only [Option.map_some, Option.some.injEq]
      constructor
      · intro same
        refine ⟨gap,command,arguments,tag,rest,first,?_⟩
        rw [← same]
        simp [Opening.ofMatch, Nat.add_assoc]
      · intro ⟨_,_,_,_,_,other,same⟩
        obtain ⟨rfl,rfl,rfl,rfl,rfl⟩ := firstOpeningUnique paired first other
        rw [same]
        simp [Opening.ofMatch, Nat.add_assoc]
    · rw [startingOpening, search]
      exact iff_of_false (Option.some_ne_none _) (opensSomewhere first)
    · intro block found
      rw [startingBlock, search] at found
      obtain rfl := Option.some.inj found
      obtain ⟨closed,unclosed⟩ := Block.closingIff paired (.ofText (before ++ text))
        ⟨command,arguments,_,⟨_,rest⟩⟩
      refine ⟨gap,command,arguments,tag,rest,first,rfl,rfl,?_,?_,unclosed⟩
      · simp [Block.ofOpening, Opening.ofMatch, Nat.add_assoc]
      · intro closing
        rw [closed]
        simp only [Text.size_append, Nat.add_assoc]
    · rw [startingBlock, startingOpening, search]
      exact iff_of_false (Option.some_ne_none _) (Option.some_ne_none _)

theorem nestedGrammar : (CommentGrammar.c = .markdown ∨ CommentGrammar.c = .c) ∧
    Exact .c "é /*".toList "*//* MD+:a-b*/ /* MD+: a*//*MD+:a*//* MD+FIN:ab */".toList :=
  ⟨.inr rfl,readsGrammar (.inr rfl) _ _⟩

end Scanner

end DocBlocks
