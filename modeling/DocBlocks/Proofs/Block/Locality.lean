import DocBlocks.Proofs.Block.Search
import DocBlocks.Proofs.Block.Tags

/-! How far the reading of a tag looks. A delimiter that does not begin an opening tag, or a closing
tag of a command, is rejected by what stands before the next opening delimiter, so text behind that
delimiter can change without the rejected one being accepted. -/
namespace DocBlocks.Text

theorem afterStop {p a rest : List Char} {c : Char} (other : c ∉ p) :
    after? p (a ++ c :: rest) = (after? p a).map (· ++ c :: rest) := by
  induction p generalizing a with
  | nil => simp [after?]
  | cons d p ih =>
      simp only [List.mem_cons, not_or] at other
      cases a with
      | nil => simp [after?, Ne.symm other.1]
      | cons e a =>
          rw [List.cons_append, after?, after?]
          split
          · exact ih other.2
          · rfl

theorem afterLonger {p a b rest : List Char} (spelled : after? p a = some rest) :
    after? p (a ++ b) = some (rest ++ b) := by
  rw [eq_append_of_after? spelled, List.append_assoc]
  exact after?_append p (rest ++ b)

theorem trimStop {a rest : List Char} {c : Char} (solid : isBlank c = false) :
    trimStart (a ++ c :: rest) = trimStart a ++ c :: rest := by
  induction a with
  | nil => simp [trimStart, solid]
  | cons d a ih =>
      unfold trimStart at ih ⊢
      cases blank : isBlank d with
      | true => simpa [blank] using ih
      | false => simp [blank]

end DocBlocks.Text

namespace DocBlocks.Tag
open CommentGrammar (markdown)
open Delimiter (FirstAt Nowhere Free)

theorem openingAbsent {g : CommentGrammar} {text : List Char} : opening? g text = none ↔
    ∀ named, Text.after? openMark (Text.trimStart text) = some named →
      (splitCommand g named).1 = [] ∨ Delimiter.find? g.closers (splitCommand g named).2 = none := by
  rw [Option.eq_none_iff_forall_ne_some]
  constructor
  · intro none named marked
    cases ends : Delimiter.find? g.closers (splitCommand g named).2 with
    | none => exact .inr rfl
    | some closer =>
        exact .inl (Decidable.byContradiction fun filled =>
          none _ (openingTaken.mpr ⟨named,closer,marked,filled,ends,rfl⟩))
  · intro absent tag read
    obtain ⟨named,closer,marked,filled,ends,_⟩ := openingTaken.mp read
    have missed := (absent named marked).resolve_left filled
    cases missed.symm.trans ends

theorem openingNone {text : List Char} : opening? markdown text = none ↔
    ∀ named, Text.after? openMark (Text.trimStart text) = some named →
      named.takeWhile isCommandChar = [] ∨ Free closer (named.dropWhile isCommandChar) := by
  have ends (rest : List Char) : Delimiter.find? markdown.closers rest = none ↔ Free closer rest :=
    Delimiter.findNone
  simp only [openingAbsent, splitCommandMarkdown, ends]

theorem closerBehind {text : List Char} (present : ¬ Free closer text) :
    ¬ Free closer (text.dropWhile isCommandChar) := by
  intro free
  apply present
  rintro p q rfl
  have stop : ∀ p : List Char, (p ++ (closer.chars ++ q)).dropWhile isCommandChar =
      p.dropWhile isCommandChar ++ (closer.chars ++ q) := by
    intro p
    induction p with
    | nil => rfl
    | cons c p ih =>
        cases part : isCommandChar c with
        | true => simpa [part] using ih
        | false => simp [part]
  exact free _ q (stop p)

theorem notFreeAppend {d : Delimiter} {b : List Char} (a : List Char) (present : ¬ Free d b) :
    ¬ Free d (a ++ b) :=
  fun free => present (Delimiter.freeAppend free).2

theorem openingRejected {q x : List Char} (rejected : opening? markdown (q ++ '<' :: x) = none)
    (closes : ¬ Free closer x) (y : List Char) : opening? markdown (q ++ '<' :: y) = none := by
  have stop (z : List Char) : Text.after? openMark (Text.trimStart (q ++ '<' :: z)) =
      (Text.after? openMark (Text.trimStart q)).map (· ++ '<' :: z) := by
    rw [Text.trimStop (by decide), Text.afterStop (by decide)]
  rw [openingNone, stop] at rejected ⊢
  cases named : Text.after? openMark (Text.trimStart q) with
  | none => simp
  | some m =>
      rw [named] at rejected
      simp only [Option.map_some, Option.some.injEq, forall_eq'] at rejected ⊢
      have found : ¬ Free closer ((m ++ '<' :: x).dropWhile isCommandChar) :=
        closerBehind (notFreeAppend m (notFreeAppend ['<'] closes))
      have none := rejected.resolve_right found
      refine .inl ?_
      cases m with
      | nil =>
          have part : isCommandChar '<' = true := by decide
          simp [part] at none
      | cons c m =>
          cases part : isCommandChar c with
          | true => simp [part] at none
          | false => simp [part]

theorem closingNone {command text : List Char} : closing? markdown command text = none ↔
    ∀ named, Text.after? closeMark (Text.trimStart text) = some named →
      ∀ ended, Text.after? command named = some ended →
        Text.after? closer.chars (Text.trimStart ended) = none := by
  have leads (rest : List Char) : Delimiter.leading? markdown.closers rest =
      (Text.after? closer.chars rest).map (closer,·) := Delimiter.leadingOne closer rest
  unfold closing?
  cases Text.after? closeMark (Text.trimStart text) with
  | none => simp
  | some named =>
      cases spelled : Text.after? command named with
      | none => simp [spelled]
      | some ended =>
          simp only [Option.bind_eq_bind, Option.bind_some, spelled, leads, Option.some.injEq,
            forall_eq']
          cases Text.after? closer.chars (Text.trimStart ended) <;> simp

theorem partRejected {part ended y : List Char} (filled : part ≠ []) (noDash : '-' ∉ part)
    (noCloser : y.head? ≠ some '>') (whole : opener.chars ++ y = part ++ ended) :
    Text.after? closer.chars (Text.trimStart ended) = none := by
  change '<' :: '!' :: '-' :: '-' :: y = part ++ ended at whole
  match part with
  | [] => exact absurd rfl filled
  | [_] =>
      obtain rfl := (List.cons.inj whole).2
      rfl
  | [_,_] =>
      obtain rfl := (List.cons.inj (List.cons.inj whole).2).2
      cases y with
      | nil => rfl
      | cons c y =>
          have other : ¬ '>' = c := by
            rintro rfl
            exact noCloser rfl
          change Text.after? ['-','-','>'] ('-' :: '-' :: c :: y) = none
          simp [Text.after?, other]
  | _ :: _ :: c :: _ =>
      obtain ⟨rfl,_⟩ := List.cons.inj (List.cons.inj (List.cons.inj whole).2).2
      simp at noDash

theorem closingRejected {command q y : List Char} (noDash : '-' ∉ command)
    (noCloser : y.head? ≠ some '>') :
    closing? markdown command (q ++ (opener.chars ++ y)) = none ↔
      closing? markdown command q = none := by
  have chars : opener.chars ++ y = '<' :: '!' :: '-' :: '-' :: y := rfl
  rw [closingNone, closingNone, chars, Text.trimStop (by decide), Text.afterStop (by decide)]
  cases marked : Text.after? closeMark (Text.trimStart q) with
  | none => simp
  | some named =>
      simp only [Option.map_some, Option.some.injEq, forall_eq']
      cases spelled : Text.after? command named with
      | some ended =>
          rw [Text.afterLonger spelled]
          simp only [Option.some.injEq, forall_eq']
          rw [Text.trimStop (by decide), Text.afterStop (by decide)]
          cases Text.after? closer.chars (Text.trimStart ended) <;> simp
      | none =>
          simp only [reduceCtorEq, false_imp_iff, implies_true, iff_true]
          intro ended across
          have whole := Text.eq_append_of_after? across
          -- the command ends before the delimiter, or runs on into it
          rcases List.append_eq_append_iff.mp whole with ⟨gap,rfl,after⟩ | ⟨gap,rfl,_⟩
          · have inside : '-' ∉ gap := fun member => noDash (by simp [member])
            refine partRejected ?_ inside noCloser after
            rintro rfl
            have here := Text.after?_append named []
            rw [List.append_nil] at spelled
            rw [List.append_nil, spelled] at here
            cases here
          · rw [Text.after?_append] at spelled
            cases spelled

/- A closing tag that stands nowhere in a text stands nowhere when the text is cut at an opening
delimiter, nor does it come from putting the parts together. -/
theorem nowhereJoined {command x y : List Char} (noDash : '-' ∉ command)
    (noCloser : y.head? ≠ some '>') :
    Nowhere opener (closing? markdown command) (x ++ (opener.chars ++ y)) ↔
      Nowhere opener (closing? markdown command) x ∧
      Nowhere opener (closing? markdown command) (opener.chars ++ y) := by
  constructor
  · intro none
    constructor
    · rintro p q rfl
      have rejected := none p (q ++ (opener.chars ++ y)) (by simp)
      exact (closingRejected noDash noCloser).mp rejected
    · intro p q same
      exact none (x ++ p) q (by rw [same]; simp)
  · rintro ⟨first,second⟩ p q same
    rcases Nat.le_total x.length p.length with le | ge
    · rcases Delimiter.occurrencesApart CommentGrammar.singleMarkdown.sharp same le with
        ⟨_,rfl⟩ | ⟨between,_,after⟩
      · exact second [] y rfl
      · exact second (opener.chars ++ between) q (by rw [after]; simp)
    · rcases Delimiter.occurrencesApart CommentGrammar.singleMarkdown.sharp same.symm ge with
        ⟨_,rfl⟩ | ⟨between,inside,after⟩
      · exact second [] _ rfl
      · rw [after, closingRejected noDash noCloser]
        exact first p between inside

theorem openingMoved {text gap inner inner' : List Char} {tag tag' : Opening}
    (first : FirstAt opener (opening? markdown) text gap inner tag)
    (read : opening? markdown inner' = some tag') :
    FirstAt opener (opening? markdown) (gap ++ (opener.chars ++ inner')) gap inner' tag' := by
  refine ⟨rfl,read,fun p q inside => ?_⟩
  have rejected := first.earlier p q inside
  obtain ⟨blanks,_,whole,_⟩ := openingParts first.accepted
  have closes : ¬ Free closer ('!' :: '-' :: '-' :: inner) := by
    intro free
    refine free ('!' :: '-' :: '-' :: (blanks ++ (openMark ++ (tag.command ++ tag.arguments)))) tag.rest ?_
    rw [whole, openText]
    simp
  exact openingRejected rejected closes _

theorem closingMoved {command text body inner rest : List Char} {size : Nat} (noDash : '-' ∉ command)
    (first : FirstAt opener (closing? markdown command) text body inner (size,rest)) :
    ∃ tag, inner = tag ++ rest ∧ size = Text.size tag ∧ ∀ rest',
      FirstAt opener (closing? markdown command) (body ++ (opener.chars ++ (tag ++ rest'))) body
        (tag ++ rest') (size,rest') := by
  obtain ⟨blanks,between,close,whole,sized⟩ := closingParts first.accepted
  have noCloser (rest : List Char) :
      (closeText blanks command between ++ rest).head? ≠ some '>' := by
    unfold closeText
    cases blanks with
    | nil => simp [closeMark]
    | cons b blanks =>
        have blank := close.blank b (by simp)
        intro head
        simp only [List.cons_append, List.head?_cons, Option.some.injEq] at head
        rw [head] at blank
        cases blank
  refine ⟨_,whole,sized,fun rest' => ⟨rfl,?_,fun p q inside => ?_⟩⟩
  · dsimp only at sized
    rw [sized]
    exact closingRead close command rest'
  · have rejected := first.earlier p q inside
    rw [whole, closingRejected noDash (noCloser _)] at rejected
    exact (closingRejected noDash (noCloser _)).mpr rejected

end DocBlocks.Tag
