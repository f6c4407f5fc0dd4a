import DocBlocks.Proofs.Arguments.Splitting

/-! What the statements of a text are, told by the places of its characters alone. The texts of the
statements, with the separators between them, spell the text in which every escaped line break is a blank,
and each has the line of the place where it begins. No other list of statements does, so what is split
apart by a line feed is split on its own. -/
namespace DocBlocks.Statement

/-- What stands before a character of a text: the literal or comment that is still open, whether a
backslash takes the character along, and how many brackets are still open. -/
structure Context where
  mode : Mode
  slash : Bool
  depth : Nat
  deriving DecidableEq, Repr

namespace Context

def start : Context := ⟨.plain,false,0⟩

def next (context : Context) (c : Char) : Context :=
  if c = '\n' then ⟨.plain,false,context.depth⟩
  else
    match context.mode with
    | .plain => ⟨Mode.after c,c == '\\',depthAfter context.depth c⟩
    | .comment => context
    | .quoted quote =>
        if context.slash then { context with slash := false }
        else if c = '\\' then { context with slash := true }
        else if c = quote then { context with mode := .plain }
        else context

def after (context : Context) (text : List Char) : Context := text.foldl next context

def Escapes (context : Context) : Prop := context.mode = .plain ∧ context.slash = true

def Separates (context : Context) (c : Char) : Prop :=
  context.depth = 0 ∧ (c = '\n' ∧ ¬ context.Escapes ∨ c = ';' ∧ context.mode = .plain)

end Context

def unescaped (context : Context) : List Char → List Char
  | [] => []
  | '\\' :: '\n' :: rest =>
      (if context.mode = .plain then [' '] else ['\\','\n']) ++
        unescaped (context.after ['\\','\n']) rest
  | c :: rest => c :: unescaped (context.next c) rest

def Whole (context : Context) : List Char → Prop
  | [] => True
  | c :: rest => ¬ context.Separates c ∧ Whole (context.next c) rest

structure Sits (statement : Statement) (before own : List Char) : Prop where
  text : statement.text = unescaped (Context.start.after before) own
  line : statement.line = 1 + before.count '\n'
  whole : Whole (Context.start.after before) own

/-- Statements that stand for a text one after another, given what is before it, and what their texts
spell with the separators between them. -/
inductive Spells : List Char → List Statement → List Char → List Char → Prop where
  | last {before own : List Char} {statement : Statement} (sits : Sits statement before own) :
      Spells before [statement] own statement.text
  | next {before own rest spelled : List Char} {statement : Statement} {statements : List Statement}
      {separator : Char} (sits : Sits statement before own)
      (separates : (Context.start.after (before ++ own)).Separates separator)
      (more : Spells (before ++ (own ++ [separator])) statements rest spelled) :
      Spells before (statement :: statements) (own ++ separator :: rest)
        (statement.text ++ separator :: spelled)

def moved (lines : Nat) (statement : Statement) : Statement :=
  { statement with line := statement.line + lines }

variable {context : Context} {s s' : State} {c quote : Char}
  {before own text rest front : List Char} {statements others : List Statement}

namespace Context

theorem afterAppend (context : Context) (a b : List Char) :
    context.after (a ++ b) = (context.after a).after b := List.foldl_append

theorem nextEscapes : (context.next c).Escapes ↔ context.mode = .plain ∧ c = '\\' := by
  obtain ⟨mode,slash,depth⟩ := context
  unfold next Escapes
  by_cases feed : c = '\n'
  · subst feed
    simp
  · rw [if_neg feed]
    cases mode with
    | plain =>
        dsimp only
        constructor
        · rintro ⟨_,slash⟩
          exact ⟨rfl,beq_iff_eq.mp slash⟩
        · rintro ⟨_,rfl⟩
          exact ⟨rfl,rfl⟩
    | comment => simp
    | quoted quote =>
        dsimp only
        cases slash with
        | true => simp
        | false =>
            by_cases single : c = '\\'
            · simp [single]
            · by_cases close : c = quote
              · subst close
                simp [single]
              · simp [single, close]

theorem afterSeparator (separates : context.Separates c) : context.next c = start := by
  obtain ⟨mode,slash,depth⟩ := context
  obtain ⟨rfl,⟨rfl,_⟩ | ⟨rfl,rfl⟩⟩ := separates
  · rfl
  · rfl

end Context

theorem unescapedNext (apart : (context.next c).Escapes → rest.head? ≠ some '\n') :
    unescaped context (c :: rest) = c :: unescaped (context.next c) rest := by
  by_cases pair : c = '\\' ∧ rest.head? = some '\n'
  · obtain ⟨rfl,feed⟩ := pair
    obtain ⟨more,rfl⟩ := List.head?_eq_some_iff.mp feed
    have literal : context.mode ≠ .plain := fun plain => apart (Context.nextEscapes.mpr ⟨plain,rfl⟩) rfl
    rw [unescaped, if_neg literal, unescaped]
    · rfl
    · nofun
  · rw [unescaped]
    rintro more rfl rfl
    exact pair ⟨rfl,rfl⟩

theorem unescapedAppend (apart : (context.after own).Escapes → rest.head? ≠ some '\n') :
    unescaped context (own ++ rest) = unescaped context own ++ unescaped (context.after own) rest := by
  fun_induction unescaped context own with
  | case1 context => rfl
  | case2 context own ih =>
      rw [List.cons_append, List.cons_append, unescaped, ih apart, List.append_assoc]
      rfl
  | case3 context c own single ih =>
      have ahead : (context.next c).Escapes → (own ++ rest).head? ≠ some '\n' := by
        intro escapes
        cases own with
        | nil => exact apart escapes
        | cons d own =>
            rintro ⟨⟩
            exact single own (Context.nextEscapes.mp escapes).2 rfl
      rw [List.cons_append, unescapedNext ahead, ih apart]
      rfl

theorem wholeAppend :
    Whole context (own ++ rest) ↔ Whole context own ∧ Whole (context.after own) rest := by
  induction own generalizing context with
  | nil => exact (true_and _).symm ▸ Iff.rfl
  | cons c own ih =>
      rw [List.cons_append, Whole, Whole, ih, and_assoc]
      rfl

theorem unescapedCut (separates : (context.after own).Separates c) :
    unescaped context (own ++ c :: rest) = unescaped context own ++ c :: unescaped .start rest := by
  have fresh := Context.afterSeparator separates
  have apart : (context.after own).Escapes → (c :: rest).head? ≠ some '\n' := by
    rintro escapes ⟨⟩
    obtain ⟨_,⟨_,bare⟩ | ⟨other,_⟩⟩ := separates
    · exact bare escapes
    · cases other
  rw [unescapedAppend apart, unescapedNext (by rw [fresh]; nofun), fresh]

theorem afterCut (separates : (Context.start.after (before ++ own)).Separates c) :
    Context.start.after (before ++ (own ++ [c])) = .start := by
  rw [← List.append_assoc, Context.afterAppend]
  exact Context.afterSeparator separates

def Context.Ready (context : Context) (rest : List Char) : Prop :=
  context.slash = true → rest = [] ∨ (rest.head? = some '\n' ↔ context.mode ≠ .plain)

def Agrees (s : State) (context : Context) : Prop := s.mode = context.mode ∧ s.depth = context.depth

structure Passes (context : Context) (s s' : State) (part rest : List Char) : Prop where
  splits : splitFrom s (part ++ rest) = splitFrom s' rest
  agrees : Agrees s' (context.after part)
  ready : (context.after part).Ready rest
  seen : s'.seen = (unescaped context part).reverse ++ s.seen
  start : s'.start = s.start
  line : s'.line = s.line + part.count '\n'
  whole : Whole context part

inductive Onward (context : Context) (s : State) : List Char → Prop where
  | done : Onward context s []
  | pass {s' : State} {part rest : List Char} (passes : Passes context s s' part rest)
      (filled : part ≠ []) : Onward context s (part ++ rest)
  | cut {s' : State} {c : Char} {rest : List Char}
      (splits : splitFrom s (c :: rest) = s.statement :: splitFrom s' rest)
      (separates : context.Separates c) (agrees : Agrees s' .start)
      (fresh : s'.seen = [] ∧ s'.start = s'.line) (line : s'.line = s.line + [c].count '\n') :
      Onward context s (c :: rest)

theorem readyStart (text : List Char) : Context.start.Ready text := nofun

theorem readyEscapes (ready : context.Ready rest) (escapes : context.Escapes) :
    rest.head? ≠ some '\n' := by
  rcases ready escapes.2 with rfl | same
  · nofun
  · exact fun feed => same.mp feed escapes.1

theorem readyCalm (ready : context.Ready (c :: rest)) (literal : context.mode ≠ .plain)
    (sameLine : c ≠ '\n') : context.slash = false := by
  cases slash : context.slash with
  | false => rfl
  | true =>
      rcases ready slash with none | same
      · cases none
      · exact absurd (Option.some.inj (same.mpr literal)) sameLine

theorem onwardOne {after : Context} (next : context.next c = after)
    (splits : splitFrom s (c :: rest) = splitFrom s' rest)
    (agrees : Agrees s' after) (ready : after.Ready rest)
    (state : s'.seen = c :: s.seen ∧ s'.start = s.start ∧ s'.line = s.line + [c].count '\n')
    (inside : ¬ context.Separates c) : Onward context s (c :: rest) := by
  have alone : unescaped context [c] = [c] := unescapedNext fun _ => nofun
  subst next
  have passes : Passes context s s' [c] rest := by
    refine ⟨splits,agrees,ready,?_,state.2.1,state.2.2,inside,trivial⟩
    rw [alone]
    exact state.1
  exact Onward.pass passes (List.cons_ne_nil c [])

theorem onwardFeed (agrees : Agrees s context) (ready : context.Ready ('\n' :: rest)) :
    Onward context s ('\n' :: rest) := by
  by_cases outside : s.depth = 0
  · have bare : ¬ context.Escapes := fun escapes => readyEscapes ready escapes rfl
    exact .cut (splitFeed rest outside) ⟨agrees.2 ▸ outside,.inl ⟨rfl,bare⟩⟩ ⟨rfl,outside⟩ ⟨rfl,rfl⟩ rfl
  · refine onwardOne rfl (splitInside rest outside) ⟨rfl,agrees.2⟩ nofun ⟨rfl,rfl,rfl⟩ ?_
    exact fun separates => outside (agrees.2.trans separates.1)

theorem onwardComment {slash : Bool} {depth : Nat} (agrees : Agrees s ⟨.comment,slash,depth⟩)
    (ready : Context.Ready ⟨.comment,slash,depth⟩ (c :: rest)) (sameLine : c ≠ '\n') :
    Onward ⟨.comment,slash,depth⟩ s (c :: rest) := by
  cases readyCalm ready nofun sameLine
  have same : Context.next ⟨.comment,false,depth⟩ c = ⟨.comment,false,depth⟩ := by
    simp [Context.next, sameLine]
  refine onwardOne same (splitCommented rest agrees.1 sameLine) agrees nofun
    ⟨rfl,rfl,by simp [sameLine, State.push]⟩ ?_
  simp [Context.Separates, sameLine]

theorem onwardEscaped {depth : Nat} {e : Char} (agrees : Agrees s ⟨.quoted quote,false,depth⟩)
    (sameLine : e ≠ '\n') : Onward ⟨.quoted quote,false,depth⟩ s ('\\' :: e :: rest) := by
  have opens : Context.next ⟨.quoted quote,false,depth⟩ '\\' = ⟨.quoted quote,true,depth⟩ := rfl
  have closes : Context.next ⟨.quoted quote,true,depth⟩ e = ⟨.quoted quote,false,depth⟩ := by
    simp [Context.next, sameLine]
  have after : Context.after ⟨.quoted quote,false,depth⟩ ['\\',e] = ⟨.quoted quote,false,depth⟩ := by
    rw [Context.after, List.foldl_cons, List.foldl_cons, opens, closes]
    rfl
  have kept : unescaped ⟨.quoted quote,false,depth⟩ ['\\',e] = ['\\',e] := by
    rw [unescapedNext (by rw [opens]; nofun), opens, unescapedNext (by rw [closes]; nofun), closes]
    rfl
  have passes : Passes ⟨.quoted quote,false,depth⟩ s ((s.push '\\').push e) ['\\',e] rest := by
    refine ⟨splitEscaped rest agrees.1 sameLine,?_,?_,?_,rfl,?_,?_⟩
    · rw [after]
      exact agrees
    · rw [after]
      nofun
    · rw [kept]
      rfl
    · simp [sameLine, State.push]
    · simp [Whole, opens, Context.Separates, sameLine]
  exact Onward.pass passes (List.cons_ne_nil _ _)

theorem onwardQuoted {slash : Bool} {depth : Nat} (agrees : Agrees s ⟨.quoted quote,slash,depth⟩)
    (ready : Context.Ready ⟨.quoted quote,slash,depth⟩ (c :: rest)) (sameLine : c ≠ '\n') :
    Onward ⟨.quoted quote,slash,depth⟩ s (c :: rest) := by
  cases readyCalm ready nofun sameLine
  have inside : ¬ Context.Separates ⟨.quoted quote,false,depth⟩ c := by
    simp [Context.Separates, sameLine]
  have line : s.line = s.line + [c].count '\n' := by simp [sameLine]
  by_cases single : c = '\\'
  · subst single
    by_cases ends : rest = [] ∨ rest.head? = some '\n'
    · refine onwardOne rfl (splitDangling agrees.1 ends) agrees (fun _ => ?_) ⟨rfl,rfl,line⟩ inside
      exact ends.imp id fun feed => ⟨fun _ => nofun,fun _ => feed⟩
    · cases rest with
      | nil => exact absurd (.inl rfl) ends
      | cons e rest => exact onwardEscaped agrees fun same => ends (.inr (congrArg some same))
  · have splits := splitQuoted rest agrees.1 sameLine single
    by_cases close : c = quote
    · subst close
      have next : Context.next ⟨.quoted c,false,depth⟩ c = ⟨.plain,false,depth⟩ := by
        simp [Context.next, sameLine, single]
      rw [if_pos rfl] at splits
      exact onwardOne next splits ⟨rfl,agrees.2⟩ nofun ⟨rfl,rfl,line⟩ inside
    · have next : Context.next ⟨.quoted quote,false,depth⟩ c = ⟨.quoted quote,false,depth⟩ := by
        simp [Context.next, sameLine, single, close]
      rw [if_neg close] at splits
      exact onwardOne next splits agrees nofun ⟨rfl,rfl,line⟩ inside

theorem onwardEscapedBreak {slash : Bool} {depth : Nat} (agrees : Agrees s ⟨.plain,slash,depth⟩) :
    Onward ⟨.plain,slash,depth⟩ s ('\\' :: '\n' :: rest) := by
  have escapes : (Context.next ⟨.plain,slash,depth⟩ '\\').Escapes := ⟨rfl,rfl⟩
  have whole : Whole ⟨.plain,slash,depth⟩ ['\\','\n'] := by
    refine ⟨by simp [Context.Separates],?_,trivial⟩
    rintro ⟨_,⟨_,bare⟩ | ⟨other,_⟩⟩
    · exact bare escapes
    · cases other
  have passes : Passes ⟨.plain,slash,depth⟩ s (State.push { s with line := s.line + 1 } ' ')
      ['\\','\n'] rest :=
    ⟨splitJoined rest agrees.1,⟨agrees.1,agrees.2⟩,nofun,rfl,rfl,rfl,whole⟩
  exact Onward.pass passes (List.cons_ne_nil _ _)

theorem onwardPlain {slash : Bool} {depth : Nat} (agrees : Agrees s ⟨.plain,slash,depth⟩)
    (sameLine : c ≠ '\n') : Onward ⟨.plain,slash,depth⟩ s (c :: rest) := by
  by_cases escaped : c = '\\' ∧ rest.head? = some '\n'
  · obtain ⟨rfl,feed⟩ := escaped
    obtain ⟨more,rfl⟩ := List.head?_eq_some_iff.mp feed
    exact onwardEscapedBreak agrees
  by_cases ends : c = ';' ∧ s.depth = 0
  · obtain ⟨rfl,outside⟩ := ends
    exact .cut (splitSemicolon rest agrees.1 outside) ⟨agrees.2 ▸ outside,.inr ⟨rfl,rfl⟩⟩
      ⟨agrees.1,outside⟩ ⟨rfl,rfl⟩ rfl
  have next : Context.next ⟨.plain,slash,depth⟩ c = ⟨Mode.after c,c == '\\',depthAfter depth c⟩ := by
    simp [Context.next, sameLine]
  have splits : splitFrom s (c :: rest) = splitFrom (s.take c) rest :=
    splitTaken rest agrees.1 sameLine (fun single feed => escaped ⟨single,feed⟩)
      (Decidable.or_iff_not_imp_left.mpr fun same outside => ends ⟨Decidable.not_not.mp same,outside⟩)
  refine onwardOne next splits ⟨rfl,congrArg (depthAfter · c) agrees.2⟩ ?_
    ⟨rfl,rfl,by simp [sameLine, State.take]⟩ ?_
  · intro single
    obtain rfl := beq_iff_eq.mp single
    exact .inr ⟨fun feed => absurd ⟨rfl,feed⟩ escaped,fun literal => absurd rfl literal⟩
  · rintro ⟨outside,⟨feed,_⟩ | ⟨semicolon,_⟩⟩
    · exact sameLine feed
    · exact ends ⟨semicolon,agrees.2.trans outside⟩

theorem splitOnward (agrees : Agrees s context) (ready : context.Ready text) : Onward context s text := by
  cases text with
  | nil => exact .done
  | cons c rest =>
      by_cases feed : c = '\n'
      · subst feed
        exact onwardFeed agrees ready
      · obtain ⟨mode,slash,depth⟩ := context
        cases mode with
        | plain => exact onwardPlain agrees feed
        | quoted quote => exact onwardQuoted agrees ready feed
        | comment => exact onwardComment agrees ready feed

theorem sitsPass {part : List Char} (sits : Sits s.statement before own)
    (ready : (Context.start.after (before ++ own)).Ready (part ++ rest)) (filled : part ≠ [])
    (passes : Passes (Context.start.after (before ++ own)) s s' part rest) :
    Sits s'.statement before (own ++ part) := by
  have behind : Context.start.after (before ++ own) = (Context.start.after before).after own :=
    Context.afterAppend _ _ _
  refine ⟨?_,passes.start.trans sits.line,wholeAppend.mpr ⟨sits.whole,behind ▸ passes.whole⟩⟩
  have apart : ((Context.start.after before).after own).Escapes → part.head? ≠ some '\n' := by
    intro escapes
    have other := readyEscapes ready (behind ▸ escapes)
    rwa [List.head?_append_of_ne_nil _ filled] at other
  rw [unescapedAppend apart, ← sits.text, ← behind]
  simp [State.statement, passes.seen]

/- The induction is on the length of the text, since a part that is passed may have two characters. Where a
separator ends the statement, the next one begins with nothing in hand and in a context like that of a
whole text. -/
theorem splitSpelled (sits : Sits s.statement before own)
    (agrees : Agrees s (Context.start.after (before ++ own)))
    (ready : (Context.start.after (before ++ own)).Ready text)
    (line : s.line = 1 + (before ++ own).count '\n') :
    Spells before (splitFrom s text) (own ++ text)
      (unescaped (Context.start.after before) (own ++ text)) := by
  -- by length, with the statement at hand standing for the text that is its own so far
  induction length : text.length using Nat.strongRecOn generalizing s text before own with
  | ind n ih =>
      cases splitOnward agrees ready with
      | done =>
          rw [splitFrom, List.append_nil, ← sits.text]
          exact .last sits
      | @pass s' part rest passes filled =>
          have less : rest.length < n := by
            have positive := List.length_pos_iff.mpr filled
            rw [← length, List.length_append]
            omega
          have behind : Context.start.after (before ++ (own ++ part)) =
              (Context.start.after (before ++ own)).after part := by
            rw [← List.append_assoc, Context.afterAppend]
          have counted : s'.line = 1 + (before ++ (own ++ part)).count '\n' := by
            rw [← List.append_assoc, List.count_append, passes.line, line, Nat.add_assoc]
          have further := ih rest.length less (sitsPass sits ready filled passes)
            (behind ▸ passes.agrees) (behind ▸ passes.ready) counted rfl
          rw [passes.splits]
          simpa using further
      | @cut s' c rest splits separates agrees' fresh line' =>
          have counted : s'.line = 1 + (before ++ (own ++ [c])).count '\n' := by
            rw [← List.append_assoc, List.count_append, line', line, Nat.add_assoc]
          have empty : Sits s'.statement (before ++ (own ++ [c])) [] :=
            ⟨by simp [State.statement, fresh.1, unescaped],fresh.2.trans counted,trivial⟩
          have anew : Context.start.after (before ++ (own ++ [c])) = .start := afterCut separates
          have none : Context.start.after (before ++ (own ++ [c]) ++ []) = .start := by
            rw [List.append_nil, anew]
          have less : rest.length < n := length ▸ Nat.lt_succ_self _
          have further := ih rest.length less empty (by rwa [none]) (by rw [none]; exact readyStart rest)
            (by rwa [List.append_nil]) rfl
          have behind : ((Context.start.after before).after own).Separates c := by
            rwa [← Context.afterAppend]
          rw [anew] at further
          rw [splits, unescapedCut behind, ← sits.text]
          exact .next sits separates further

theorem partsUnique {own' rest' : List Char} {c' : Char} (whole : Whole context own)
    (whole' : Whole context own') (separates : (context.after own).Separates c)
    (separates' : (context.after own').Separates c') (same : own ++ c :: rest = own' ++ c' :: rest') :
    own = own' ∧ c = c' ∧ rest = rest' := by
  induction own generalizing context own' with
  | nil =>
      cases own' with
      | nil => exact ⟨rfl,List.cons.inj same⟩
      | cons d own' =>
          obtain ⟨rfl,_⟩ := List.cons.inj same
          exact absurd separates whole'.1
  | cons d own ih =>
      cases own' with
      | nil =>
          obtain ⟨rfl,_⟩ := List.cons.inj same
          exact absurd separates' whole.1
      | cons d' own' =>
          obtain ⟨rfl,behind⟩ := List.cons.inj same
          obtain ⟨rfl,others⟩ := ih whole.2 whole'.2 separates separates' behind
          exact ⟨rfl,others⟩

theorem sitsUnique {a b : Statement} (first : Sits a before own) (second : Sits b before own) : a = b := by
  obtain ⟨text,line⟩ := a
  obtain ⟨text',line'⟩ := b
  exact congrArg₂ Statement.mk (first.text.trans second.text.symm) (first.line.trans second.line.symm)

/- The text and what is before it tell which statements it has: no separator is left in a statement, so the
first one in the text is the one behind the first statement. -/
theorem spellsUnique {spelled spelled' : List Char} (first : Spells before statements text spelled)
    (second : Spells before others text spelled') : statements = others := by
  induction first generalizing others spelled' with
  | last sits =>
      cases second with
      | last sits' => rw [sitsUnique sits sits']
      | next sits' separates more =>
          rw [Context.afterAppend] at separates
          exact absurd separates (wholeAppend.mp sits.whole).2.1
  | @next before own rest _ statement later c sits separates more ih =>
      generalize same : own ++ c :: rest = text at second
      cases second with
      | last sits' =>
          have whole := sits'.whole
          rw [Context.afterAppend] at separates
          rw [← same, wholeAppend] at whole
          exact absurd separates whole.2.1
      | next sits' separates' more' =>
          rw [Context.afterAppend] at separates separates'
          obtain ⟨rfl,rfl,rfl⟩ := partsUnique sits.whole sits'.whole separates separates' same
          rw [sitsUnique sits sits', ih more']

theorem spellsJoined {spelled spelled' : List Char} (first : Spells before statements text spelled)
    (separates : (Context.start.after (before ++ text)).Separates c)
    (second : Spells (before ++ (text ++ [c])) others rest spelled') :
    Spells before (statements ++ others) (text ++ c :: rest) (spelled ++ c :: spelled') := by
  induction first with
  | last sits => exact .next sits separates second
  | next sits here more ih =>
      have further := ih (by simpa using separates) (by simpa using second)
      simpa using Spells.next sits here further

theorem spellsMoved {spelled : List Char} (fresh : Context.start.after front = .start)
    (spells : Spells before statements text spelled) :
    Spells (front ++ before) (statements.map (moved (front.count '\n'))) text spelled := by
  have behind (before : List Char) : Context.start.after (front ++ before) = Context.start.after before := by
    rw [Context.afterAppend, fresh]
  have sitsMoved {before own : List Char} {statement : Statement} (sits : Sits statement before own) :
      Sits (moved (front.count '\n') statement) (front ++ before) own := by
    refine ⟨behind before ▸ sits.text,?_,behind before ▸ sits.whole⟩
    rw [List.count_append, moved, sits.line, Nat.add_assoc, Nat.add_comm (before.count '\n')]
  induction spells with
  | last sits => exact .last (sitsMoved sits)
  | next sits separates more ih =>
      refine .next (sitsMoved sits) ?_ ?_
      · rw [List.append_assoc, behind]
        exact separates
      · rw [List.append_assoc]
        exact ih

theorem splitWhole (source : List Char) : Spells [] (split source) source (unescaped .start source) := by
  have sits : Sits State.initial.statement [] [] := ⟨rfl,rfl,trivial⟩
  exact splitSpelled sits ⟨rfl,rfl⟩ (readyStart source) rfl

/- The statements of a text, with the separators between them, spell it with its escaped line breaks as
blanks. A line feed behind a text that leaves no bracket open and ends in no backslash parts it from what
comes after. -/
theorem splitSpells (source : List Char) :
    Spells [] (split source) source (unescaped .start source) ∧
      ((Context.start.after source).depth = 0 → source.getLast? ≠ some '\\' → ∀ rest,
        split (source ++ '\n' :: rest) =
          split source ++ (split rest).map (moved (source.count '\n' + 1))) := by
  refine ⟨splitWhole source,fun outside last rest => ?_⟩
  have bare : ¬ (Context.start.after source).Escapes := by
    rcases List.eq_nil_or_concat' source with rfl | ⟨front,c,rfl⟩
    · nofun
    · rw [Context.afterAppend]
      intro escapes
      obtain ⟨_,rfl⟩ := Context.nextEscapes.mp escapes
      exact last (by simp)
  have separates : (Context.start.after source).Separates '\n' := ⟨outside,.inl ⟨rfl,bare⟩⟩
  have fresh : Context.start.after (source ++ ['\n']) = .start := by
    rw [Context.afterAppend]
    exact Context.afterSeparator separates
  have later := spellsMoved fresh (splitWhole rest)
  rw [List.append_nil, List.count_append] at later
  exact spellsUnique (splitWhole _) (spellsJoined (splitWhole source) separates later)

theorem bracketsSpell : (Context.start.after "a = [1;\n2] \\\n# (\nb = 'x".toList).depth = 0 ∧
    "a = [1;\n2] \\\n# (\nb = 'x".toList.getLast? ≠ some '\\' ∧
    Spells [] (split "a = [1;\n2] \\\n# (\nb = 'x".toList) "a = [1;\n2] \\\n# (\nb = 'x".toList
      (unescaped .start "a = [1;\n2] \\\n# (\nb = 'x".toList) ∧
    split ("a = [1;\n2] \\\n# (\nb = 'x".toList ++ '\n' :: "c = 1; d = 2".toList) =
      split "a = [1;\n2] \\\n# (\nb = 'x".toList ++ (split "c = 1; d = 2".toList).map (moved 4) := by
  have outside : (Context.start.after "a = [1;\n2] \\\n# (\nb = 'x".toList).depth = 0 := by decide
  have last : "a = [1;\n2] \\\n# (\nb = 'x".toList.getLast? ≠ some '\\' := by decide
  have spells := splitSpells "a = [1;\n2] \\\n# (\nb = 'x".toList
  exact ⟨outside,last,spells.1,spells.2 outside last _⟩

example : unescaped .start "a\\\n= '\\\n# \\\n".toList = "a = '\\\n# \\\n".toList := by decide

end DocBlocks.Statement
