import DocBlocks.Proofs.Arguments.Sourced

/-! What texts in the source of an expression evaluate to. Between either quotes a literal gives its text,
and an f-string gives its texts with the values of its names between them, whatever braces, quotes and
backslashes stand in them. -/
namespace DocBlocks.Template
open Text.Quoted (IsQuote charIn encodeIn quotedIn)

def double (s : List Char) : List Char := s.flatMap fun c => if c = '{' ∨ c = '}' then [c,c] else [c]

def spelled : TemplatePart String → List Char
  | .text s => double s.toList
  | .embedded name => '{' :: (name.toList ++ ['}'])

def partIn (quote : Char) : TemplatePart String → List Char
  | .text s => encodeIn quote (double s.toList)
  | .embedded name => '{' :: (name.toList ++ ['}'])

def source (mark quote : Char) (parts : List (TemplatePart String)) : String :=
  String.ofList (mark :: quote :: (parts.flatMap (partIn quote) ++ [quote]))

def shown (scope : Arguments) : TemplatePart String → String
  | .text s => s
  | .embedded name => ((scope.get? name).map Value.display).getD ""

theorem doubleSpells (s : List Char) : Spells (double s) s := by
  induction s with
  | nil => exact .nil
  | cons c s ih =>
      rw [double, List.flatMap_cons, ← double]
      split
      · rename_i brace
        rcases brace with rfl | rfl
        · exact .opening ih
        · exact .closing ih
      · rename_i plain
        obtain ⟨notOpen,notClose⟩ := not_or.mp plain
        exact .char notOpen notClose ih

def textPiece (text : List Char) : List (TemplatePart Expr.Embedded) :=
  if text = [] then [] else [.text (String.ofList text)]

theorem textSources (text : List Char) :
    (textPiece text).map (·.map Expr.Embedded.source) = plainPart text := by
  unfold textPiece plainPart
  split <;> rfl

def Gives (scope : Arguments) (raw : List Char) (result : String) : Prop :=
  ∃ pieces : List (TemplatePart Expr.Embedded),
    Divides raw (pieces.map (·.map Expr.Embedded.source)) ∧
      (∀ piece, .embedded piece ∈ pieces → Token.scanFrom 0 piece.source = .ok piece.tokens ∧
        Expr.Derives .disjunction piece.tokens piece.tree) ∧
      Expr.evalParts scope (pieces.map (·.map fun piece => piece.tree)) = .ok result

variable {scope : Arguments} {quote mark : Char} {raw text rest : List Char} {name result : String}
  {value : Value} {parts : List (TemplatePart String)}

theorem textEvaluates (text : List Char) {later : List (TemplatePart Expr)}
    (evaluates : Expr.evalParts scope later = .ok result) :
    Expr.evalParts scope ((textPiece text).map (·.map fun piece => piece.tree) ++ later) =
      .ok (String.ofList text ++ result) := by
  unfold textPiece
  split
  · rename_i none
    rw [none]
    simpa using evaluates
  · change (Expr.evalParts scope later >>= fun text' => _) = _
    rw [evaluates]
    rfl

theorem givesText (spells : Spells raw text) : Gives scope raw (String.ofList text) := by
  refine ⟨textPiece text,?_,fun piece member => ?_,?_⟩
  · rw [textSources]
    exact .last spells
  · unfold textPiece at member
    split at member
    · cases member
    · cases List.mem_singleton.mp member
  · have alone := @textEvaluates scope "" text [] rfl
    rwa [List.append_nil, String.append_empty] at alone

theorem nameNested (named : Token.IsName name) : name.toList.head? ≠ some '{' ∧ Nested 0 name.toList := by
  obtain ⟨c,text,whole,start,inside⟩ := named
  have brackets : ∀ x ∈ name.toList, x ∉ ['{','[','(','}',']',')'] := by
    rw [whole]
    refine List.forall_mem_cons.mpr ⟨fun member => ?_,fun x part member => ?_⟩
    · simp only [List.mem_cons, List.not_mem_nil, or_false] at member
      rcases member with rfl | rfl | rfl | rfl | rfl | rfl <;> exact absurd start (by decide)
    · have part := inside x part
      simp only [List.mem_cons, List.not_mem_nil, or_false] at member
      rcases member with rfl | rfl | rfl | rfl | rfl | rfl <;> exact absurd part (by decide)
  refine ⟨fun brace => brackets '{' (List.mem_of_head? brace) (by simp),?_⟩
  generalize name.toList = source at brackets
  induction source with
  | nil => exact .nil
  | cons x source ih =>
      obtain ⟨plain,others⟩ := List.forall_mem_cons.mp brackets
      exact .other plain (ih others)

theorem givesName (spells : Spells raw text) (named : Token.IsName name) (free : name ∉ Expr.reserved)
    (bound : scope.get? name = some value) (later : Gives scope rest result) :
    Gives scope (raw ++ '{' :: (name.toList ++ '}' :: rest))
      (String.ofList text ++ (value.display ++ result)) := by
  obtain ⟨pieces,divides,inside,evaluates⟩ := later
  obtain ⟨single,nested⟩ := nameNested named
  have scanned : Token.scanFrom 0 name.toList = .ok [.ident name] := by
    obtain ⟨c,text,whole,start,parts⟩ := named
    have alone := Token.yieldsScan (Token.yieldsName text start parts)
    rwa [← whole, String.ofList_toList] at alone
  let own : Expr.Embedded := ⟨⟨[.ident name],.name name⟩,name.toList⟩
  refine ⟨textPiece text ++ .embedded own :: pieces,?_,fun piece member => ?_,?_⟩
  · rw [List.map_append, textSources]
    exact .embedded spells single nested divides
  · rcases List.mem_append.mp member with before | member
    · unfold textPiece at before
      split at before
      · cases before
      · cases List.mem_singleton.mp before
    · rcases List.mem_cons.mp member with same | after
      · cases same
        exact ⟨scanned,Expr.derivesAtom (.name free)⟩
      · exact inside piece after
  · rw [List.map_append]
    refine textEvaluates text ?_
    change (Expr.eval scope (.name name) >>= fun value => _) = _
    rw [Expr.eval, bound]
    change (Expr.evalParts scope _ >>= fun text' => _) = _
    rw [evaluates]
    rfl

def Bound (scope : Arguments) (parts : List (TemplatePart String)) : Prop :=
  ∀ name, .embedded name ∈ parts →
    Token.IsName name ∧ name ∉ Expr.reserved ∧ ∃ value, scope.get? name = some value

theorem givesParts (bound : Bound scope parts) (spells : Spells raw text) :
    Gives scope (raw ++ parts.flatMap spelled)
      (String.ofList text ++ String.join (parts.map (shown scope))) := by
  induction parts generalizing raw text with
  | nil => simpa using givesText spells
  | cons part rest ih =>
      have others : Bound scope rest := fun name member => bound name (List.mem_cons_of_mem _ member)
      rw [List.flatMap_cons, List.map_cons, String.join_cons]
      cases part with
      | text s =>
          have both := ih others (spellsAppend spells (doubleSpells s.toList))
          rw [String.ofList_append, String.ofList_toList, String.append_assoc] at both
          rwa [List.append_assoc] at both
      | embedded name =>
          obtain ⟨named,free,value,found⟩ := bound name List.mem_cons_self
          have both := givesName spells named free found (ih others .nil)
          simpa [spelled, shown, found] using both

theorem nameCharIn (isQuote : IsQuote quote) {c : Char} (part : Lexeme.isNamePart c = true) :
    charIn quote c = [c] := by
  have plain : ∀ n < 128, Lexeme.isNamePart (Char.ofNat n) = true → Char.ofNat n ≠ '"' ∧
      Char.ofNat n ≠ '\x27' ∧ Text.Quoted.encodeChar (Char.ofNat n) = [Char.ofNat n] := by decide
  obtain ⟨double,single,self⟩ : c ≠ '"' ∧ c ≠ '\x27' ∧ Text.Quoted.encodeChar c = [c] := by
    have at' := plain c.toNat (Arguments.nameAscii part)
    rw [Char.ofNat_toNat] at at'
    exact at' part
  have own : c ≠ quote := by rcases isQuote with rfl | rfl <;> assumption
  rw [charIn, if_neg own, if_neg double, self]

theorem nameEncodeIn (isQuote : IsQuote quote) (named : Token.IsName name) :
    encodeIn quote name.toList = name.toList := by
  obtain ⟨c,text,whole,start,inside⟩ := named
  have plain : ∀ x ∈ name.toList, Lexeme.isNamePart x = true := by
    rw [whole]
    exact List.forall_mem_cons.mpr ⟨Arguments.nameStartPart start,inside⟩
  generalize name.toList = all at plain
  induction all with
  | nil => rfl
  | cons x all ih =>
      obtain ⟨first,others⟩ := List.forall_mem_cons.mp plain
      rw [encodeIn, List.flatMap_cons, nameCharIn isQuote first, ← encodeIn, ih others]
      rfl

theorem partQuoted (isQuote : IsQuote quote) (part : TemplatePart String)
    (named : ∀ name, part = .embedded name → Token.IsName name) :
    partIn quote part = encodeIn quote (spelled part) := by
  cases part with
  | text s => rfl
  | embedded name =>
      have brace (c : Char) (member : c ∈ ['{','}']) : charIn quote c = [c] := by
        simp only [List.mem_cons, List.not_mem_nil, or_false] at member
        rcases isQuote with rfl | rfl <;> rcases member with rfl | rfl <;> decide
      have same := nameEncodeIn isQuote (named name rfl)
      unfold encodeIn at same
      simp [partIn, spelled, encodeIn, brace, same]

theorem sourceQuoted (isQuote : IsQuote quote) (mark : Char)
    (named : ∀ name, .embedded name ∈ parts → Token.IsName name) :
    (source mark quote parts).toList = mark :: quotedIn quote (parts.flatMap spelled) := by
  have each (part : TemplatePart String) (member : part ∈ parts) :
      partIn quote part = encodeIn quote (spelled part) :=
    partQuoted isQuote part fun name same => named name (same ▸ member)
  rw [source, String.toList_ofList, quotedIn, encodeIn, List.flatMap_assoc]
  exact congrArg (fun inner => mark :: quote :: (inner ++ [quote])) (List.flatMap_congr each)

end DocBlocks.Template

namespace DocBlocks.Expr
open Text.Quoted (IsQuote quotedIn)
open Template (Bound)

def result (scope : Arguments) (source : String) : Except ExprError Value :=
  parse source >>= eval scope

variable {scope : Arguments} {quote mark : Char} {parts : List (TemplatePart String)}

theorem resultDerived {source : String} {tokens : List Token} {e : Expr}
    (yields : Token.Yields source.toList tokens) (derives : Derives .disjunction tokens e) :
    result scope source = e.eval scope := by
  rw [result, parse, Token.scan, Token.yieldsScan yields]
  change (ofTokens tokens >>= _) = _
  rw [ofTokensComplete derives]
  rfl

theorem quotedResult (isQuote : IsQuote quote) (s : String) :
    result scope (String.ofList (quotedIn quote s.toList)) = .ok (.string s) := by
  have yields := Token.yieldsQuoted isQuote s
  rw [← String.toList_ofList (l := quotedIn quote s.toList)] at yields
  exact resultDerived yields (Value.stringDerives s)

theorem templateResult (isQuote : IsQuote quote) (isMark : mark = 'f' ∨ mark = 'F')
    (bound : Bound scope parts) : result scope (Template.source mark quote parts) =
      .ok (.string (String.join (parts.map (Template.shown scope)))) := by
  obtain ⟨pieces,divides,inside,evaluates⟩ := Template.givesParts bound .nil
  rw [List.nil_append] at divides
  have yields := Token.yieldsTemplate isQuote isMark (String.ofList (parts.flatMap Template.spelled))
  rw [String.toList_ofList, ← Template.sourceQuoted isQuote mark fun name member =>
    (bound name member).1] at yields
  have derives := derivesAtom (Derives.template (by rwa [String.toList_ofList])
    (fun piece member => (inside piece member).1) fun piece member => (inside piece member).2)
  rw [resultDerived yields derives, eval, evaluates]
  rfl

/- Every literal of a text evaluates to that text, and every f-string of texts and bound names to the texts
and what the names show, one behind another. The arguments of a text bind only names that can be read. -/
theorem textsEvaluate (scope : Arguments)
    (named : ∀ name value, scope.get? name = some value → Token.IsName name) :
    (∀ s, result scope (Text.Quoted.literal s) = .ok (.string s) ∧
      result scope (String.ofList (quotedIn '\x27' s.toList)) = .ok (.string s)) ∧
    (∀ (quote mark : Char) (parts : List (TemplatePart String)),
      IsQuote quote → mark = 'f' ∨ mark = 'F' →
      (∀ name, .embedded name ∈ parts → name ∉ reserved ∧ ∃ value, scope.get? name = some value) →
      result scope (Template.source mark quote parts) =
        .ok (.string (String.join (parts.map (Template.shown scope))))) ∧
    ∀ source name value, (Arguments.parse source).get? name = some value → Token.IsName name := by
  refine ⟨fun s => ⟨?_,quotedResult (.inr rfl) s⟩,?_,fun source name value found => ?_⟩
  · exact resultDerived (Token.yieldsString s) (Value.stringDerives s)
  · intro quote mark parts isQuote isMark bound
    refine templateResult isQuote isMark fun name member => ?_
    obtain ⟨free,value,found⟩ := bound name member
    exact ⟨named name value found,free,value,found⟩
  · exact (Arguments.parseSourced source).named name value (Entries.getMember found)

theorem bracesEvaluate :
    let scope : Arguments := ⟨[("n",.list [.string "a"])]⟩
    let parts : List (TemplatePart String) := [.text "\x7b",.embedded "n",.text "\x7d'\"\\"]
    (∀ name value, scope.get? name = some value → Token.IsName name) ∧
      (∀ name, .embedded name ∈ parts → name ∉ reserved ∧ ∃ value, scope.get? name = some value) ∧
      Template.source 'f' '\x27' parts = "f'\x7b\x7b\x7bn\x7d\x7d\x7d\\'\"\\\\'" ∧
      result scope "f'\x7b\x7b\x7bn\x7d\x7d\x7d\\'\"\\\\'" = .ok (.string "\x7b[\"a\"]\x7d'\"\\") := by
  intro scope parts
  have named : ∀ name value, scope.get? name = some value → Token.IsName name := by
    intro name value found
    have member := Entries.getMember found
    cases List.mem_singleton.mp member
    exact ⟨'n',[],rfl,by decide,nofun⟩
  have bound : ∀ name, .embedded name ∈ parts → name ∉ reserved ∧ ∃ value, scope.get? name = some value := by
    intro name member
    have same : name = "n" := by simpa [parts] using member
    rw [same]
    exact ⟨by decide,_,rfl⟩
  have written : Template.source 'f' '\x27' parts = "f'\x7b\x7b\x7bn\x7d\x7d\x7d\\'\"\\\\'" := by cbv
  have shown : String.join (parts.map (Template.shown scope)) = "\x7b[\"a\"]\x7d'\"\\" := by cbv
  refine ⟨named,bound,written,?_⟩
  rw [← written, ← shown]
  exact (textsEvaluate scope named).2.1 '\x27' 'f' parts (.inr rfl) (.inl rfl) bound

end DocBlocks.Expr
