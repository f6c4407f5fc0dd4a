import DocBlocks.Comment

/-! Where delimiters stand in a text, and the first place at which what follows a delimiter is
accepted. Two occurrences of a delimiter whose first character does not come again never overlap. -/
namespace DocBlocks.Delimiter

def Sharp (d : Delimiter) : Prop := d.first ∉ d.more

/- One occurrence comes wholly before the other, unless they are the same. -/
theorem occurrencesApart {d : Delimiter} (sharp : d.Sharp) {p x p' x' : List Char}
    (same : p ++ (d.chars ++ x) = p' ++ (d.chars ++ x')) (before : p.length ≤ p'.length) :
    p = p' ∧ x = x' ∨ ∃ between, p' = p ++ (d.chars ++ between) ∧
      x = between ++ (d.chars ++ x') := by
  rcases List.append_eq_append_iff.mp same with ⟨gap,rfl,rest⟩ | ⟨gap,rfl,_⟩
  · rcases List.append_eq_append_iff.mp rest with ⟨between,rfl,after⟩ | ⟨part,whole,after⟩
    · exact .inr ⟨between,rfl,after⟩
    · cases gap with
      | nil =>
          simp only [List.nil_append] at whole
          subst whole
          exact .inl ⟨by simp,(List.append_cancel_left after).symm⟩
      | cons first gap =>
          cases part with
          | nil =>
              rw [List.append_nil] at whole
              exact .inr ⟨[],by simp [whole],by simpa using after.symm⟩
          | cons c part =>
              obtain ⟨_,more⟩ := List.cons.inj whole
              obtain ⟨rfl,_⟩ := List.cons.inj after
              exact absurd (by rw [more]; simp) sharp
  · have none : gap = [] := by
      rw [List.length_append] at before
      exact List.length_eq_zero_iff.mp (by omega)
    subst none
    rw [List.append_nil] at same
    exact .inl ⟨by simp,by simpa using List.append_cancel_left same⟩

theorem leadingOne (d : Delimiter) (text : List Char) :
    leading? [d] text = (Text.after? d.chars text).map (d,·) := by
  unfold leading?
  simp only [List.findSome?_cons, List.findSome?_nil]
  cases (Text.after? d.chars text).map (d,·) <;> rfl

theorem leadingHere (d : Delimiter) (rest : List Char) :
    leading? [d] (d.chars ++ rest) = some (d,rest) := by
  rw [leadingOne, Text.after?_append]
  rfl

def Free (d : Delimiter) (text : List Char) : Prop := ∀ p q, text ≠ p ++ (d.chars ++ q)

theorem freeAppend {d : Delimiter} {a b : List Char} (free : d.Free (a ++ b)) :
    d.Free a ∧ d.Free b := by
  constructor
  · rintro p q rfl
    exact free p (q ++ b) (by simp)
  · rintro p q rfl
    exact free (a ++ p) q (by simp)

theorem freeCons {d : Delimiter} {c : Char} {text : List Char} (other : c ≠ d.first)
    (free : d.Free text) : d.Free (c :: text) := by
  intro p q same
  cases p with
  | nil => exact other (List.cons.inj same).1
  | cons e p => exact free p q (List.cons.inj same).2

theorem behindStop {d : Delimiter} {a b p q : List Char} {c : Char} (free : d.Free a)
    (other : c ∉ d.chars) (same : a ++ c :: b = p ++ (d.chars ++ q)) :
    ∃ between, p = a ++ c :: between := by
  rcases List.append_eq_append_iff.mp same with ⟨gap,rfl,rest⟩ | ⟨gap,rfl,rest⟩
  · cases gap with
    | nil => exact absurd (by rw [(List.cons.inj rest).1]; exact List.mem_cons_self) other
    | cons e gap =>
        obtain ⟨rfl,_⟩ := List.cons.inj rest
        exact ⟨gap,rfl⟩
  · exfalso
    rcases List.append_eq_append_iff.mp rest with ⟨more,whole,_⟩ | ⟨more,whole,last⟩
    · exact free p more (by rw [whole])
    · cases more with
      | nil => exact free p [] (by rw [whole]; simp)
      | cons e more =>
          obtain ⟨rfl,_⟩ := List.cons.inj last
          exact other (by rw [whole]; simp)

theorem goOne (d : Delimiter) (seen text : List Char) :
    match find?.go [d] seen text with
    | none => d.Free text
    | some f => f.delimiter = d ∧ ∃ before, f.before = seen.reverse ++ before ∧
        text = before ++ (d.chars ++ f.rest) ∧
        ∀ p q, text = p ++ (d.chars ++ q) → before.length ≤ p.length := by
  -- a delimiter does not begin here, or it would be taken; so it stands in the rest or nowhere
  induction text generalizing seen with
  | nil =>
      intro p q same
      have := congrArg List.length same
      simp [chars] at this
  | cons c text ih =>
      rw [find?.go]
      cases here : leading? [d] (c :: text) with
      | some outcome =>
          obtain ⟨d',after⟩ := outcome
          obtain ⟨member,whole⟩ := eq_append_of_leading? here
          obtain rfl := List.mem_singleton.mp member
          exact ⟨rfl,[],by simp,by simpa using whole,by simp⟩
      | none =>
          have notHere : ∀ q, c :: text ≠ d.chars ++ q := by
            intro q same
            rw [same, leadingHere] at here
            cases here
          have others := ih (c :: seen)
          dsimp only
          cases found : find?.go [d] (c :: seen) text with
          | none =>
              rw [found] at others
              intro p q same
              cases p with
              | nil => exact notHere q same
              | cons e p => exact others p q (List.cons.inj same).2
          | some f =>
              rw [found] at others
              obtain ⟨same,before,head,whole,first⟩ := others
              refine ⟨same,c :: before,by simpa using head,by rw [whole]; rfl,?_⟩
              intro p q occurs
              cases p with
              | nil => exact absurd occurs (notHere q)
              | cons e p =>
                  have := first p q (List.cons.inj occurs).2
                  simpa using this

theorem findNone {d : Delimiter} {text : List Char} : find? [d] text = none ↔ d.Free text := by
  have outcome := goOne d [] text
  unfold find?
  constructor
  · intro none
    rwa [none] at outcome
  · intro free
    cases found : find?.go [d] [] text with
    | none => rfl
    | some f =>
        rw [found] at outcome
        obtain ⟨_,before,_,whole,_⟩ := outcome
        exact absurd whole (free before _)

def FirstAfter (d : Delimiter) (before : List Char) : Prop :=
  ∀ p q, before ++ d.chars = p ++ (d.chars ++ q) → before.length ≤ p.length

theorem firstAfterStop {d : Delimiter} {a : List Char} {c : Char} (free : d.Free a)
    (other : c ∉ d.chars) : d.FirstAfter (a ++ [c]) := by
  intro p q same
  obtain ⟨between,rfl⟩ := behindStop free other (by simpa using same)
  simp

theorem firstAfterFree {d : Delimiter} {text : List Char} (first : d.FirstAfter text) :
    d.Free text := by
  rintro p q rfl
  have := first p (q ++ d.chars) (by simp)
  simp only [chars, List.length_append, List.length_cons] at this
  omega

theorem findSome {d : Delimiter} {text : List Char} {f : Found} :
    find? [d] text = some f ↔
      f.delimiter = d ∧ text = f.before ++ (d.chars ++ f.rest) ∧ d.FirstAfter f.before := by
  have outcome := goOne d [] text
  constructor
  · intro found
    unfold find? at found
    rw [found] at outcome
    obtain ⟨same,before,head,whole,first⟩ := outcome
    simp only [List.reverse_nil, List.nil_append] at head
    subst head
    refine ⟨same,whole,fun p q occurs => first p (q ++ f.rest) ?_⟩
    rw [whole, ← List.append_assoc, occurs]
    simp
  · rintro ⟨same,whole,first⟩
    unfold find?
    cases found : find?.go [d] [] text with
    | none =>
        rw [found] at outcome
        exact absurd whole (outcome _ _)
    | some g =>
        rw [found] at outcome
        obtain ⟨same',before,head,whole',first'⟩ := outcome
        simp only [List.reverse_nil, List.nil_append] at head
        subst head
        -- both are first places, so they are equally far and the text decides the rest
        have least := first' _ _ whole
        have one : f.before ++ d.chars <+: text := ⟨f.rest,by rw [whole]; simp⟩
        have two : g.before ++ d.chars <+: text := ⟨g.rest,by rw [whole']; simp⟩
        obtain ⟨q,inside⟩ := List.prefix_of_prefix_length_le two one (by simpa using least)
        have equal : f.before.length = g.before.length :=
          Nat.le_antisymm (first g.before q (by rw [← inside]; simp)) least
        rw [whole] at whole'
        obtain ⟨before,rest⟩ := List.append_inj whole' equal
        have after : f.rest = g.rest := List.append_cancel_left rest
        obtain ⟨a,b,c⟩ := f
        obtain ⟨a',b',c'⟩ := g
        dsimp only at before after same same'
        rw [before, after, same, same']

structure FirstAt {β : Type} (d : Delimiter) (accept : List Char → Option β) (text gap inner : List Char)
    (result : β) : Prop where
  whole : text = gap ++ (d.chars ++ inner)
  accepted : accept inner = some result
  earlier : ∀ p q, gap = p ++ (d.chars ++ q) → accept (q ++ (d.chars ++ inner)) = none

def Nowhere {β : Type} (d : Delimiter) (accept : List Char → Option β) (text : List Char) : Prop :=
  ∀ p q, text = p ++ (d.chars ++ q) → accept q = none

variable {β : Type} {d : Delimiter} {accept : List Char → Option β}
  {text gap inner gap' inner' : List Char} {result result' : β}

theorem firstNotNowhere (first : FirstAt d accept text gap inner result) :
    ¬ Nowhere d accept text := by
  intro rejected
  have := rejected gap inner first.whole
  rw [first.accepted] at this
  cases this

theorem firstLeast (sharp : d.Sharp) (first : FirstAt d accept text gap inner result)
    (other : text = gap' ++ (d.chars ++ inner')) (accepted : accept inner' ≠ none) :
    gap.length ≤ gap'.length := by
  rcases Nat.le_total gap.length gap'.length with le | ge
  · exact le
  have same := other.symm.trans first.whole
  rcases occurrencesApart sharp same ge with ⟨rfl,_⟩ | ⟨between,inside,after⟩
  · exact Nat.le_refl _
  · rw [after] at accepted
    exact absurd (first.earlier gap' between inside) accepted

theorem firstUnique (sharp : d.Sharp) (first : FirstAt d accept text gap inner result)
    (second : FirstAt d accept text gap' inner' result') :
    gap = gap' ∧ inner = inner' ∧ result = result' := by
  have a : accept inner ≠ none := by simp [first.accepted]
  have b : accept inner' ≠ none := by simp [second.accepted]
  have length := Nat.le_antisymm (firstLeast sharp first second.whole b)
    (firstLeast sharp second first.whole a)
  obtain ⟨rfl,rest⟩ := List.append_inj (first.whole.symm.trans second.whole) length
  obtain rfl := List.append_cancel_left rest
  exact ⟨rfl,rfl,Option.some.inj (first.accepted.symm.trans second.accepted)⟩

theorem firstHere {f : Found} (found : find? [d] text = some f) (accepted : accept f.rest = some result) :
    FirstAt d accept text f.before f.rest result := by
  obtain ⟨_,whole,first⟩ := findSome.mp found
  refine ⟨whole,accepted,?_⟩
  rintro p q inside
  have := first p (q ++ d.chars) (by rw [inside]; simp)
  rw [inside] at this
  simp only [chars, List.length_append, List.length_cons] at this
  omega

theorem rejectedEarlier (sharp : d.Sharp) {f : Found} (found : find? [d] text = some f)
    (rejected : accept f.rest = none) {p q : List Char} (occurs : text = p ++ (d.chars ++ q)) :
    accept q = none ∨ ∃ between, p = f.before ++ (d.chars ++ between) ∧
      f.rest = between ++ (d.chars ++ q) := by
  obtain ⟨_,whole,first⟩ := findSome.mp found
  have least : f.before.length ≤ p.length := by
    rcases Nat.le_total f.before.length p.length with le | ge
    · exact le
    rcases occurrencesApart sharp (occurs.symm.trans whole) ge with ⟨rfl,_⟩ | ⟨between,inside,_⟩
    · exact Nat.le_refl _
    · exact first p (between ++ d.chars) (by rw [inside]; simp)
  rcases occurrencesApart sharp (whole.symm.trans occurs) least with ⟨_,rfl⟩ | after
  · exact .inl rejected
  · exact .inr after

theorem firstLater (sharp : d.Sharp) {f : Found} (found : find? [d] text = some f)
    (rejected : accept f.rest = none) (later : FirstAt d accept f.rest gap inner result) :
    FirstAt d accept text (f.before ++ (d.chars ++ gap)) inner result := by
  obtain ⟨_,whole,_⟩ := findSome.mp found
  have text' : text = f.before ++ (d.chars ++ gap) ++ (d.chars ++ inner) := by
    rw [whole, later.whole]
    simp
  refine ⟨text',later.accepted,?_⟩
  intro p q inside
  have occurs : text = p ++ (d.chars ++ (q ++ (d.chars ++ inner))) := by
    rw [text', inside]
    simp
  rcases rejectedEarlier sharp found rejected occurs with none | ⟨between,rfl,_⟩
  · exact none
  · refine later.earlier between q ?_
    simp only [List.append_assoc] at inside
    exact List.append_cancel_left (List.append_cancel_left inside)

theorem nowhereLater (sharp : d.Sharp) {f : Found} (found : find? [d] text = some f)
    (rejected : accept f.rest = none) (later : Nowhere d accept f.rest) : Nowhere d accept text := by
  intro p q occurs
  rcases rejectedEarlier sharp found rejected occurs with none | ⟨between,_,after⟩
  · exact none
  · exact later between q after

theorem nowhereFree (free : d.Free text) : Nowhere d accept text :=
  fun p q occurs => absurd occurs (free p q)

end DocBlocks.Delimiter
