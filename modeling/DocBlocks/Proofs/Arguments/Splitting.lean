import DocBlocks.Arguments.Statement
import DocBlocks.Proofs.Literal.Floats
import DocBlocks.Proofs.Text.Lines
import DocBlocks.Value.Literal

/-! Splitting what is written for arguments. Literals hold no separator outside quotes and close every
bracket they open, so each line is one statement. -/
namespace DocBlocks.Statement
open Text.Quoted

def State.pass (s : State) (text : List Char) : State := { s with seen := text.reverse ++ s.seen }

theorem passTwice (s : State) (a b : List Char) : (s.pass a).pass b = s.pass (a ++ b) := by
  simp [State.pass]

/-- A text on one line over which the splitter passes from plain text to plain text at the same
depth, with every `<` inside quotes. -/
structure Inert (text : List Char) : Prop where
  passes : ∀ s rest, s.mode = .plain → splitFrom s (text ++ rest) = splitFrom (s.pass text) rest
  oneLine : ∀ c ∈ text, c ≠ '\n' ∧ c ≠ '\r'
  fenced : Text.Fenced text

def isOrdinary (c : Char) : Bool :=
  !(c ∈ ['\n', '\r', ';', '\\', '"', '\x27', '#', '(', ')', '[', ']', '\x7b', '\x7d', '<'])

theorem inertNil : Inert [] := ⟨fun _ _ _ => rfl,by simp,Text.fencedPlain (by simp)⟩

theorem inertAppend {a b : List Char} (first : Inert a) (second : Inert b) : Inert (a ++ b) := by
  constructor
  · intro s rest plain
    rw [List.append_assoc, first.passes s _ plain, second.passes (s.pass a) _ plain, passTwice]
  · intro c member
    rcases List.mem_append.mp member with front | back
    · exact first.oneLine c front
    · exact second.oneLine c back
  · exact Text.fencedAppend first.fenced second.fenced

theorem splitFeed {s : State} (rest : List Char) (outside : s.depth = 0) :
    splitFrom s ('\n' :: rest) = s.statement :: splitFrom s.newline.restart rest := by
  rw [splitFrom.eq_def]
  exact if_pos outside

theorem splitInside {s : State} (rest : List Char) (inside : s.depth ≠ 0) :
    splitFrom s ('\n' :: rest) = splitFrom (s.newline.push '\n') rest := by
  rw [splitFrom.eq_def]
  exact if_neg inside

theorem splitTaken {s : State} {c : Char} (rest : List Char) (plain : s.mode = .plain)
    (sameLine : c ≠ '\n') (single : c = '\\' → rest.head? ≠ some '\n')
    (inside : c ≠ ';' ∨ s.depth ≠ 0) : splitFrom s (c :: rest) = splitFrom (s.take c) rest := by
  have noJoin : (c == '\\' && rest.head? == some '\n') = false := by simpa using single
  have noEnd : (c == ';' && s.depth == 0) = false := by
    rcases inside with other | deep
    · simp [other]
    · simp [deep]
  rw [splitFrom.eq_def]
  split
  · contradiction
  · rename_i same
    cases same
    exact absurd rfl sameLine
  · rename_i same
    cases same
    simp only [plain, noJoin, noEnd, Bool.false_eq_true, if_false]

theorem splitPlain {s : State} {c : Char} (rest : List Char) (plain : s.mode = .plain)
    (sameLine : c ≠ '\n') (single : c ≠ '\\') (inside : c ≠ ';' ∨ s.depth ≠ 0) :
    splitFrom s (c :: rest) = splitFrom (s.take c) rest :=
  splitTaken rest plain sameLine (fun same => absurd same single) inside

theorem splitSemicolon {s : State} (rest : List Char) (plain : s.mode = .plain)
    (outside : s.depth = 0) :
    splitFrom s (';' :: rest) = s.statement :: splitFrom s.restart rest := by
  rw [splitFrom.eq_def]
  simp [plain, outside]

theorem splitJoined {s : State} (rest : List Char) (plain : s.mode = .plain) :
    splitFrom s ('\\' :: '\n' :: rest) = splitFrom ({ s with line := s.line + 1 }.push ' ') rest := by
  rw [splitFrom.eq_def]
  simp only [plain]
  rfl

theorem splitCommented {s : State} {c : Char} (rest : List Char) (comment : s.mode = .comment)
    (sameLine : c ≠ '\n') : splitFrom s (c :: rest) = splitFrom (s.push c) rest := by
  rw [splitFrom.eq_def]
  split
  · contradiction
  · rename_i same
    cases same
    exact absurd rfl sameLine
  · rename_i same
    cases same
    simp only [comment]

theorem splitQuoted {s : State} {c quote : Char} (rest : List Char) (quoted : s.mode = .quoted quote)
    (sameLine : c ≠ '\n') (single : c ≠ '\\') :
    splitFrom s (c :: rest) =
      splitFrom (if c = quote then { s.push c with mode := .plain } else s.push c) rest := by
  rw [splitFrom.eq_def]
  split
  · contradiction
  · rename_i same
    cases same
    exact absurd rfl sameLine
  · rename_i other same
    cases same
    simp only [quoted, beq_iff_eq, single, if_false]
    split <;> rfl

theorem splitEscaped {s : State} {e quote : Char} (rest : List Char) (quoted : s.mode = .quoted quote)
    (sameLine : e ≠ '\n') :
    splitFrom s ('\\' :: e :: rest) = splitFrom ((s.push '\\').push e) rest := by
  rw [splitFrom.eq_def]
  simp [quoted, sameLine]

theorem splitDangling {s : State} {quote : Char} {rest : List Char} (quoted : s.mode = .quoted quote)
    (ends : rest = [] ∨ rest.head? = some '\n') :
    splitFrom s ('\\' :: rest) = splitFrom (s.push '\\') rest := by
  rcases ends with rfl | feed
  · rw [splitFrom.eq_def]
    simp only [quoted]
    rfl
  · obtain ⟨more,rfl⟩ := List.head?_eq_some_iff.mp feed
    rw [splitFrom.eq_def]
    simp only [quoted]
    rfl

theorem inertOrdinary {c : Char} (ordinary : isOrdinary c = true) : Inert [c] := by
  simp only [isOrdinary, List.mem_cons, List.not_mem_nil, or_false, not_or, Bool.not_eq_true',
    decide_eq_false_iff_not] at ordinary
  obtain ⟨feed,back,semicolon,slash,double,single,hash,p,p',b,b',c₁,c₂,angle⟩ := ordinary
  constructor
  · intro s rest plain
    rw [List.singleton_append, splitPlain rest plain feed slash (.inl semicolon)]
    have same : s.take c = s.pass [c] := by
      simp [State.take, State.pass, depthAfter, Mode.after, p, p', b, b', c₁, c₂, double, single,
        hash, plain]
    rw [same]
  · intro d member
    rw [List.mem_singleton.mp member]
    exact ⟨feed,back⟩
  · exact Text.fencedPlain (by simpa using Ne.symm angle)

theorem inertText (text : List Char) (ordinary : text.all isOrdinary = true) : Inert text := by
  induction text with
  | nil => exact inertNil
  | cons c text ih =>
      rw [List.all_cons, Bool.and_eq_true] at ordinary
      exact inertAppend (inertOrdinary ordinary.1) (ih ordinary.2)

theorem inertBracket {text : List Char} {a b : Char} (inside : Inert text)
    (brackets : (a,b) ∈ [('(',')'), ('[',']'), ('\x7b','\x7d')]) : Inert (a :: (text ++ [b])) := by
  have each : (a ≠ '\n' ∧ a ≠ '\\' ∧ a ≠ ';' ∧ b ≠ '\n' ∧ b ≠ '\\' ∧ b ≠ ';') ∧
      (a ≠ '\r' ∧ b ≠ '\r' ∧ a ≠ '<' ∧ b ≠ '<') ∧
      Mode.after a = .plain ∧ Mode.after b = .plain ∧
      ∀ depth, depthAfter depth a = depth + 1 ∧ depthAfter (depth + 1) b = depth := by
    simp only [List.mem_cons, Prod.mk.injEq, List.not_mem_nil, or_false] at brackets
    rcases brackets with ⟨rfl,rfl⟩ | ⟨rfl,rfl⟩ | ⟨rfl,rfl⟩ <;>
      exact ⟨by decide,by decide,by decide,by decide,fun depth => ⟨rfl,rfl⟩⟩
  obtain ⟨⟨feed,slash,semicolon,feed',slash',semicolon'⟩,back,open',close,depth⟩ := each
  constructor
  · intro s rest plain
    rw [List.cons_append, splitPlain _ plain feed slash (.inl semicolon), List.append_assoc,
      inside.passes _ _ open', List.singleton_append,
      splitPlain (s := (s.take a).pass text) _ open' feed' slash' (.inl semicolon')]
    congr 1
    simp [State.take, State.pass, (depth s.depth).1, (depth s.depth).2, close, plain]
  · intro c member
    simp only [List.mem_cons, List.mem_append, List.not_mem_nil, or_false] at member
    rcases member with rfl | within | rfl
    · exact ⟨feed,back.1⟩
    · exact inside.oneLine c within
    · exact ⟨feed',back.2.1⟩
  · have ends (c : Char) (other : c ≠ '<') : Text.Fenced [c] :=
      Text.fencedPlain (by simpa using Ne.symm other)
    exact Text.fencedAppend (ends a back.2.2.1)
      (Text.fencedAppend inside.fenced (ends b back.2.2.2))

theorem quotedPlain {text : List Char} (plain : ∀ x ∈ text, IsPlain x) {s : State}
    (rest : List Char) (quoted : s.mode = .quoted '"') :
    splitFrom s (text ++ rest) = splitFrom (s.pass text) rest := by
  induction text generalizing s with
  | nil => rfl
  | cons c text ih =>
      obtain ⟨quote,slash,feed,_⟩ := plain c (by simp)
      rw [List.cons_append, splitQuoted _ quoted feed slash, if_neg quote,
        ih (fun x member => plain x (by simp [member])) (s := s.push c) quoted]
      simp [State.push, State.pass]

theorem quotedWritten {c : Char} {text : List Char} (written : Written c text) {s : State}
    (rest : List Char) (quoted : s.mode = .quoted '"') :
    splitFrom s (text ++ rest) = splitFrom (s.pass text) rest := by
  cases written with
  | plain self => exact quotedPlain (by simpa using self) rest quoted
  | escape e more sameLine others =>
      rw [List.cons_append, List.cons_append, splitEscaped _ quoted sameLine.1,
        quotedPlain others (s := (s.push '\\').push e) rest quoted]
      simp [State.push, State.pass]

theorem quotedEncoded (text : List Char) {s : State} (rest : List Char)
    (quoted : s.mode = .quoted '"') :
    splitFrom s (encode text ++ rest) = splitFrom (s.pass (encode text)) rest := by
  induction text generalizing s with
  | nil => rfl
  | cons c text ih =>
      rw [encode, List.flatMap_cons, List.append_assoc,
        quotedWritten (encodeCharWritten c) _ quoted]
      rw [encode] at ih
      rw [ih (s := s.pass (encodeChar c)) quoted, passTwice]

theorem inertString (text : String) : Inert (literal text).toList := by
  unfold literal
  rw [String.toList_ofList]
  constructor
  · intro s rest plain
    have opened : (s.take '"').mode = .quoted '"' := rfl
    rw [List.cons_append, splitPlain _ plain (by decide) (by decide) (.inl (by decide)),
      List.append_assoc, quotedEncoded _ _ opened, List.singleton_append,
      splitQuoted (s := (s.take '"').pass (encode text.toList)) _ opened (by decide) (by decide),
      if_pos rfl]
    simp [State.push, State.pass, State.take, depthAfter, plain]
  · intro c member
    simp only [List.mem_cons, List.mem_append, List.not_mem_nil, or_false] at member
    rcases member with rfl | inside | rfl
    · decide
    · exact encodeOnOneLine _ c inside
    · decide
  · exact Text.fencedQuoted ('"' :: encode text.toList)

def IsCompact (c : Char) : Prop := isOrdinary c = true ∧ Text.isBlank c = false

theorem digitCompact {c : Char} (digit : Decimal.isDigit c = true) : IsCompact c := by
  have range : 48 ≤ c.toNat ∧ c.toNat ≤ 57 := by
    simpa [Decimal.isDigit, Char.le_def, UInt32.le_iff_toNat_le] using digit
  have all : ∀ n < 58, 48 ≤ n →
      isOrdinary (Char.ofNat n) = true ∧ Text.isBlank (Char.ofNat n) = false := by decide
  have this := all c.toNat (by omega) range.1
  rwa [Char.ofNat_toNat] at this

theorem signedCompact (n : Int) : ∀ c ∈ (toString n).toList, IsCompact c := by
  have digits (m : Nat) : ∀ c ∈ m.repr.toList, IsCompact c := by
    intro c member
    rw [Nat.toList_repr] at member
    exact digitCompact (Decimal.digitsWritten m c member)
  cases n with
  | ofNat m => exact digits m
  | negSucc m =>
      intro c member
      rw [show toString (Int.negSucc m) = "-" ++ (m + 1).repr from rfl, String.toList_append] at member
      rcases List.mem_append.mp member with sign | digit
      · rw [List.mem_singleton.mp sign]
        exact ⟨rfl,rfl⟩
      · exact digits (m + 1) c digit

theorem exponentCompact {text : List Char} (written : Decimal.ExponentText text) :
    ∀ c ∈ text, IsCompact c := by
  intro c member
  cases written with
  | absent => cases member
  | present sign power signed _ digits =>
      rcases List.mem_cons.mp member with rfl | member
      · exact ⟨rfl,rfl⟩
      rcases List.mem_append.mp member with first | digit
      · rcases signed with rfl | rfl
        · cases first
        · rw [List.mem_singleton.mp first]
          exact ⟨rfl,rfl⟩
      · exact digitCompact (digits c digit)

theorem floatCompact {text : List Char} (written : Decimal.FloatText text) :
    text ≠ [] ∧ ∀ c ∈ text, IsCompact c := by
  cases written with
  | pointed whole fraction exponent filled before after last =>
      refine ⟨by simp,fun c member => ?_⟩
      rcases List.mem_append.mp member with digit | member
      · exact digitCompact (before c digit)
      rcases List.mem_cons.mp member with rfl | member
      · exact ⟨rfl,rfl⟩
      rcases List.mem_append.mp member with digit | member
      · exact digitCompact (after c digit)
      · exact exponentCompact last c member
  | scaled whole exponent filled before _ last =>
      refine ⟨by simp [filled],fun c member => ?_⟩
      rcases List.mem_append.mp member with digit | member
      · exact digitCompact (before c digit)
      · exact exponentCompact last c member

theorem finiteCompact {x : Float} (finite : x.isFinite = true) :
    (Value.floatText x).toList ≠ [] ∧ ∀ c ∈ (Value.floatText x).toList, IsCompact c := by
  have number := floatCompact (Decimal.unsignedWritten x)
  unfold Value.floatText
  rw [Decimal.finiteText finite]
  refine ⟨by simp [number.1],fun c member => ?_⟩
  rcases List.mem_append.mp member with sign | member
  · split at sign
    · rw [List.mem_singleton.mp sign]
      exact ⟨rfl,rfl⟩
    · cases sign
  · exact number.2 c member

theorem inertCompact {text : List Char} (compact : ∀ c ∈ text, IsCompact c) : Inert text :=
  inertText text (List.all_eq_true.mpr fun c member => (compact c member).1)

theorem inertInt (n : Int64) : Inert (Value.intLiteral n).toList := by
  unfold Value.intLiteral
  split
  · have inside := inertAppend (inertCompact (signedCompact (n.toInt + 1)))
      (inertText " - 1".toList (by decide))
    have whole := inertBracket (a := '(') (b := ')') inside (by simp)
    rw [String.toList_append, String.toList_append]
    simpa using whole
  · exact inertCompact (signedCompact _)

mutual

theorem inertLiteral : ∀ value : Value, Inert value.literal.toList
  | .null => inertText _ (by decide)
  | .bool true => inertText _ (by decide)
  | .bool false => inertText _ (by decide)
  | .int n => inertInt n
  | .float x => by
      rw [Value.literal]
      split
      · rename_i finite
        exact inertCompact (finiteCompact finite).2
      · exact inertText _ (by decide)
  | .string s => inertString s
  | .list items => by
      have whole := inertBracket (a := '[') (b := ']') (inertItems items) (by simp)
      rw [Value.literal, String.toList_append, String.toList_append]
      simpa using whole
  | .map entries => by
      have whole := inertBracket (a := '\x7b') (b := '\x7d') (inertEntries entries) (by simp)
      rw [Value.literal, String.toList_append, String.toList_append]
      simpa using whole

theorem inertItems : ∀ items : List Value,
    Inert (", ".intercalate (Value.itemLiterals items)).toList
  | [] => inertNil
  | [item] => by simpa [Value.itemLiterals] using inertLiteral item
  | item :: next :: rest => by
      have both := inertAppend (inertLiteral item)
        (inertAppend (inertText ", ".toList (by decide)) (inertItems (next :: rest)))
      simpa [Value.itemLiterals, String.intercalate_cons_cons] using both

theorem inertEntries : ∀ entries : List (String × Value),
    Inert (", ".intercalate (Value.entryLiterals entries)).toList
  | [] => inertNil
  | [(key,value)] => by
      have entry := inertAppend (inertString key)
        (inertAppend (inertText ": ".toList (by decide)) (inertLiteral value))
      simpa [Value.entryLiterals] using entry
  | (key,value) :: next :: rest => by
      have entry := inertAppend (inertString key)
        (inertAppend (inertText ": ".toList (by decide)) (inertLiteral value))
      have both := inertAppend entry
        (inertAppend (inertText ", ".toList (by decide)) (inertEntries (next :: rest)))
      simpa [Value.entryLiterals, String.intercalate_cons_cons] using both

end

def EndsSolid (text : List Char) : Prop := ∃ c, text.getLast? = some c ∧ Text.isBlank c = false

theorem endsAppend (front : List Char) {text : List Char} (solid : EndsSolid text) :
    EndsSolid (front ++ text) := by
  obtain ⟨c,last,other⟩ := solid
  exact ⟨c,by simp [List.getLast?_append, last],other⟩

theorem endsCompact {text : List Char} (some : text ≠ []) (compact : ∀ c ∈ text, IsCompact c) :
    EndsSolid text :=
  ⟨text.getLast some,List.getLast?_eq_some_getLast some,
    (compact _ (List.getLast_mem some)).2⟩

theorem signedFilled (n : Int) : (toString n).toList ≠ [] := by
  cases n with
  | ofNat m =>
      rw [show (toString (Int.ofNat m)).toList = Nat.toDigits 10 m from Nat.toList_repr]
      exact Nat.toDigits_ne_nil
  | negSucc m =>
      rw [show toString (Int.negSucc m) = "-" ++ (m + 1).repr from rfl, String.toList_append]
      simp

theorem literalEnds (value : Value) : EndsSolid value.literal.toList := by
  have one (c : Char) (other : Text.isBlank c = false) : EndsSolid [c] := ⟨c,rfl,other⟩
  cases value with
  | null => exact ⟨'l',rfl,rfl⟩
  | bool b => cases b <;> exact ⟨'e',rfl,rfl⟩
  | int n =>
      rw [Value.literal, Value.intLiteral]
      split
      · rw [String.toList_append]
        exact endsAppend _ ⟨')',rfl,rfl⟩
      · exact endsCompact (signedFilled _) (signedCompact _)
  | float x =>
      rw [Value.literal]
      split
      · rename_i finite
        exact endsCompact (finiteCompact finite).1 (finiteCompact finite).2
      · exact ⟨'l',rfl,rfl⟩
  | string s =>
      rw [Value.literal, literal, String.toList_ofList]
      exact endsAppend ('"' :: encode s.toList) (one '"' rfl)
  | list items =>
      rw [Value.literal, String.toList_append]
      exact endsAppend _ (one ']' rfl)
  | map entries =>
      rw [Value.literal, String.toList_append]
      exact endsAppend _ (one '\x7d' rfl)

end DocBlocks.Statement
