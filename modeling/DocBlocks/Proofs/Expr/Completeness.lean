import DocBlocks.Proofs.Expr.Nesting
import DocBlocks.Proofs.Expr.Soundness

/-! The parser is complete: it reads all that the grammar derives, as far as the derivation goes, when no
token follows that would go on with it. -/
namespace DocBlocks.Parse
open DocBlocks.Expr (Derives Level Link Phrase Entry Listed Embedded)

/-- The levels that can take a token, as what goes on with an expression, are those from this number on.
No level takes a token of strength eight. -/
def strength : Token → Nat
  | .string _ => 0
  | .symbol .openBracket | .symbol .openParen | .symbol .dot => 1
  | .symbol .doubleStar => 2
  | .symbol .star | .symbol .slash | .symbol .doubleSlash | .symbol .percent => 3
  | .symbol .plus | .symbol .minus => 4
  | .symbol .equal | .symbol .notEqual | .symbol .less | .symbol .lessEqual | .symbol .greater
  | .symbol .greaterEqual => 5
  | .ident "and" => 6
  | .ident "or" => 7
  | _ => 8

def Stops (n : Nat) (rest : List Token) : Prop :=
  ∀ token, rest.head? = some token → n < strength token

variable {template : String → Except ExprError (List (TemplatePart Expr))}
  {tokens ts rest : List Token} {e left : Expr} {n : Nat}

theorem stopsCons {token : Token} (above : n < strength token) : Stops n (token :: rest) := by
  intro other head
  cases head
  exact above

theorem stopsLess {m : Nat} (stops : Stops n rest) (le : m ≤ n) : Stops m rest :=
  fun token head => Nat.lt_of_le_of_lt le (stops token head)

theorem stopsOther {token : Token} (stops : Stops n rest) (weak : strength token ≤ n)
    (more : List Token) : rest ≠ token :: more := by
  intro same
  have := stops token (by rw [same]; rfl)
  omega

def reader (template : String → Except ExprError (List (TemplatePart Expr))) :
    Level → (tokens : List Token) → Parsed Expr tokens
  | .disjunction, tokens => disjunction template tokens
  | .conjunction, tokens => conjunction template tokens
  | .negation, tokens => negation template tokens
  | .comparison, tokens => comparison template tokens
  | .sum, tokens => sum template tokens
  | .product, tokens => product template tokens
  | .signed, tokens => signed template tokens
  | .power, tokens => power template tokens
  | .subscripted, tokens => subscripted template tokens
  | .atom, tokens => atom template tokens

def reach : Level → Nat
  | .disjunction => 7
  | .conjunction => 6
  | .negation | .comparison => 5
  | .sum => 4
  | .product => 3
  | .signed | .power => 2
  | .subscripted => 1
  | .atom => 0

def Accepts (template : String → Except ExprError (List (TemplatePart Expr))) (level : Level)
    (ts : List Token) (e : Expr) : Prop :=
  ∀ rest, Stops (reach level) rest → Reads (reader template level (ts ++ rest)) e rest

/- A level that groups to the left goes on with what it has read. So of the tokens it is claimed that it
reads them and goes on, before all that the next stronger level could not take. -/
def Continues (template : String → Except ExprError (List (TemplatePart Expr))) :
    Level → List Token → Expr → Prop
  | .disjunction, ts, e => ∀ rest e' rest', Stops 6 rest →
      Reads (disjunctionTail template e rest) e' rest' → Reads (disjunction template (ts ++ rest)) e' rest'
  | .conjunction, ts, e => ∀ rest e' rest', Stops 5 rest →
      Reads (conjunctionTail template e rest) e' rest' → Reads (conjunction template (ts ++ rest)) e' rest'
  | .sum, ts, e => ∀ rest e' rest', Stops 3 rest →
      Reads (sumTail template e rest) e' rest' → Reads (sum template (ts ++ rest)) e' rest'
  | .product, ts, e => ∀ rest e' rest', Stops 2 rest →
      Reads (productTail template e rest) e' rest' → Reads (product template (ts ++ rest)) e' rest'
  | .subscripted, ts, e => ∀ rest e' rest', Stops 0 rest →
      Reads (subscripts template e rest) e' rest' → Reads (subscripted template (ts ++ rest)) e' rest'
  | level, ts, e => Accepts template level ts e

theorem compareStrength (op : CompareOp) : strength (.symbol op.symbol) = 5 := by cases op <;> rfl

theorem additiveStrength {op : BinaryOp} (isOp : op = .add ∨ op = .sub) :
    strength (.symbol op.symbol) = 4 := by
  rcases isOp with rfl | rfl <;> rfl

theorem multiplicativeStrength {op : BinaryOp}
    (isOp : op = .mul ∨ op = .div ∨ op = .floorDiv ∨ op = .mod) :
    strength (.symbol op.symbol) = 3 := by
  rcases isOp with rfl | rfl | rfl | rfl <;> rfl

theorem compareStops (stops : Stops 5 rest) (token : Token) (head : rest.head? = some token) :
    compareOp? token = none := by
  cases isOp : compareOp? token with
  | none => rfl
  | some op =>
      obtain rfl := compareSymbol.mp isOp
      have above := stops _ head
      rw [compareStrength] at above
      exact absurd above (Nat.lt_irrefl 5)

theorem sumStops (stops : Stops 4 rest) (token : Token) (head : rest.head? = some token) :
    sumOp? token = none := by
  cases isOp : sumOp? token with
  | none => rfl
  | some op =>
      obtain ⟨kind,rfl⟩ := sumSymbol.mp isOp
      have above := stops _ head
      rw [additiveStrength kind] at above
      exact absurd above (Nat.lt_irrefl 4)

theorem productStops (stops : Stops 3 rest) (token : Token) (head : rest.head? = some token) :
    productOp? token = none := by
  cases isOp : productOp? token with
  | none => rfl
  | some op =>
      obtain ⟨kind,rfl⟩ := productSymbol.mp isOp
      have above := stops _ head
      rw [multiplicativeStrength kind] at above
      exact absurd above (Nat.lt_irrefl 3)

theorem subscriptsStopped (stops : Stops 1 rest) (s : Symbol) (more : List Token)
    (same : rest = .symbol s :: more) : s ≠ .openBracket ∧ s ≠ .openParen ∧ s ≠ .dot := by
  have above := stops _ (by rw [same]; rfl)
  refine ⟨?_,?_,?_⟩
  all_goals
    rintro rfl
    simp [strength] at above

theorem continuesAccepts {level : Level} (continues : Continues template level ts e) :
    Accepts template level ts e := by
  intro rest stops
  cases level with
  | disjunction =>
      exact continues rest e rest (stopsLess stops (by decide))
        ((disjunctionTailStop (stopsOther stops (by decide))).mpr ⟨rfl,rfl⟩)
  | conjunction =>
      exact continues rest e rest (stopsLess stops (by decide))
        ((conjunctionTailStop (stopsOther stops (by decide))).mpr ⟨rfl,rfl⟩)
  | sum =>
      exact continues rest e rest (stopsLess stops (by decide))
        ((sumTailStop (sumStops stops)).mpr ⟨rfl,rfl⟩)
  | product =>
      exact continues rest e rest (stopsLess stops (by decide))
        ((productTailStop (productStops stops)).mpr ⟨rfl,rfl⟩)
  | subscripted =>
      exact continues rest e rest (stopsLess stops (by decide))
        ((subscriptsStop (subscriptsStopped stops)).mpr ⟨rfl,rfl⟩)
  | negation | comparison | signed | power | atom => exact continues rest stops

def Begins (level : Level) (token : Token) : Prop :=
  token ≠ .symbol .closeBracket ∧ token ≠ .symbol .closeBrace ∧
    (reach level ≤ 5 → level ≠ .negation → token ≠ .ident "not") ∧
    (reach level ≤ 2 → level ≠ .signed → token ≠ .symbol .minus ∧ token ≠ .symbol .plus)

theorem derivesHead {level : Level} (derives : Derives level ts e) :
    ∃ token more, ts = token :: more ∧ Begins level token := by
  induction derives with
  | conjunction _ ih | negation _ ih | comparison _ ih | sum _ ih | product _ ih | signed _ ih
  | power _ ih | subscripted _ ih | atom _ ih =>
      obtain ⟨token,more,rfl,begins⟩ := ih
      exact ⟨token,more,rfl,by simp_all [Begins, reach]⟩
  | or _ _ ih _ | and _ _ ih _ | additive _ _ _ ih _ | multiplicative _ _ _ ih _ | pow _ _ ih _
  | index _ _ ih _ | compare _ _ _ ih _ =>
      obtain ⟨token,more,rfl,begins⟩ := ih
      exact ⟨token,_,rfl,by simp_all [Begins, reach]⟩
  | not | minus | plus | int | float | strings | template | paren | list | map =>
      exact ⟨_,_,rfl,by simp [Begins, reach]⟩
  | @true word spelled | @false word spelled | @null word spelled =>
      have other : word ≠ "not" := by
        rintro rfl
        simp at spelled
      exact ⟨_,_,rfl,by simp [Begins, other]⟩
  | @name id free =>
      have other : id ≠ "not" := by
        rintro rfl
        simp [Expr.reserved] at free
      exact ⟨_,_,rfl,by simp [Begins, other]⟩

section
variable {us : List Token} {right : Expr} {inner : Level}

theorem disjunctionContinues (whole : Continues template .conjunction ts e) :
    Continues template .disjunction ts e := by
  intro rest e' rest' stops reads
  exact disjunctionReads.mpr ⟨e,rest,continuesAccepts whole rest stops,reads⟩

theorem orContinues (first : Continues template .disjunction ts left)
    (second : Continues template .conjunction us right) :
    Continues template .disjunction (ts ++ .ident "or" :: us) (.or left right) := by
  intro rest e' rest' stops reads
  rw [List.append_assoc]
  exact first _ e' rest' (stopsCons (by decide))
    (disjunctionTailOr.mpr ⟨right,rest,continuesAccepts second rest stops,reads⟩)

theorem conjunctionContinues (whole : Continues template .negation ts e) :
    Continues template .conjunction ts e := by
  intro rest e' rest' stops reads
  exact conjunctionReads.mpr ⟨e,rest,whole rest stops,reads⟩

theorem andContinues (first : Continues template .conjunction ts left)
    (second : Continues template .negation us right) :
    Continues template .conjunction (ts ++ .ident "and" :: us) (.and left right) := by
  intro rest e' rest' stops reads
  rw [List.append_assoc]
  exact first _ e' rest' (stopsCons (by decide))
    (conjunctionTailAnd.mpr ⟨right,rest,second rest stops,reads⟩)

theorem negationContinues (derives : Derives .comparison ts e)
    (whole : Continues template .comparison ts e) : Continues template .negation ts e := by
  intro rest stops
  obtain ⟨token,more,rfl,_,_,noNot,_⟩ := derivesHead derives
  refine (negationOther ?_).mpr (whole rest stops)
  intro others same
  exact noNot (by decide) (by decide) (List.cons.inj same).1

theorem notContinues (operand : Continues template .negation ts e) :
    Continues template .negation (.ident "not" :: ts) (.unary .not e) :=
  fun rest stops => negationNot.mpr ⟨e,operand rest stops,rfl⟩

theorem comparisonContinues (whole : Continues template .sum ts e) :
    Continues template .comparison ts e := by
  intro rest stops
  exact comparisonReads.mpr ⟨e,rest,continuesAccepts whole rest (stopsLess stops (by decide)),[],
    (comparisonLinksStop (compareStops stops)).mpr ⟨rfl,rfl⟩,rfl⟩

theorem linksStop (stops : Stops 5 rest) (links : List Link) :
    Stops 4 (links.flatMap Link.words ++ rest) := by
  cases links with
  | nil => exact stopsLess stops (by decide)
  | cons link links => exact stopsCons (by rw [compareStrength]; decide)

theorem linksRead (stops : Stops 5 rest) (links : List Link)
    (inside : ∀ link ∈ links, Continues template .sum link.tokens link.tree) :
    Reads (comparisonLinks template (links.flatMap Link.words ++ rest))
      (links.map fun link => (link.op,link.tree)) rest := by
  induction links with
  | nil => exact (comparisonLinksStop (compareStops stops)).mpr ⟨rfl,rfl⟩
  | cons link links ih =>
      have first := continuesAccepts (inside link List.mem_cons_self) _ (linksStop stops links)
      have others := ih fun other member => inside other (List.mem_cons_of_mem _ member)
      rw [List.flatMap_cons, Link.words, List.cons_append, List.cons_append, List.append_assoc]
      exact (comparisonLinksOp (compareSymbol.mpr rfl)).mpr ⟨_,_,first,_,others,rfl⟩

theorem compareContinues {links : List Link} (head : Continues template .sum ts e) (filled : links ≠ [])
    (inside : ∀ link ∈ links, Continues template .sum link.tokens link.tree) :
    Continues template .comparison (ts ++ links.flatMap Link.words)
      (.compare e (links.map fun link => (link.op,link.tree))) := by
  intro rest stops
  have some : (links.map fun link => (link.op,link.tree)).isEmpty = false := by simpa using filled
  refine comparisonReads.mpr ⟨e,links.flatMap Link.words ++ rest,?_,_,linksRead stops links inside,?_⟩
  · rw [List.append_assoc]
    exact continuesAccepts head _ (linksStop stops links)
  · rw [some]
    rfl

theorem sumContinues (whole : Continues template .product ts e) : Continues template .sum ts e := by
  intro rest e' rest' stops reads
  exact sumReads.mpr ⟨e,rest,continuesAccepts whole rest stops,reads⟩

theorem additiveContinues {op : BinaryOp} (isOp : op = .add ∨ op = .sub)
    (first : Continues template .sum ts left) (second : Continues template .product us right) :
    Continues template .sum (ts ++ .symbol op.symbol :: us) (.binary op left right) := by
  intro rest e' rest' stops reads
  rw [List.append_assoc]
  refine first _ e' rest' (stopsCons (by rw [additiveStrength isOp]; decide)) ?_
  exact (sumTailOp (sumSymbol.mpr ⟨isOp,rfl⟩)).mpr
    ⟨right,rest,continuesAccepts second rest stops,reads⟩

theorem productContinues (whole : Continues template .signed ts e) :
    Continues template .product ts e := by
  intro rest e' rest' stops reads
  exact productReads.mpr ⟨e,rest,whole rest stops,reads⟩

theorem multiplicativeContinues {op : BinaryOp}
    (isOp : op = .mul ∨ op = .div ∨ op = .floorDiv ∨ op = .mod)
    (first : Continues template .product ts left) (second : Continues template .signed us right) :
    Continues template .product (ts ++ .symbol op.symbol :: us) (.binary op left right) := by
  intro rest e' rest' stops reads
  rw [List.append_assoc]
  refine first _ e' rest' (stopsCons (by rw [multiplicativeStrength isOp]; decide)) ?_
  exact (productTailOp (productSymbol.mpr ⟨isOp,rfl⟩)).mpr ⟨right,rest,second rest stops,reads⟩

theorem signedContinues (derives : Derives .power ts e) (whole : Continues template .power ts e) :
    Continues template .signed ts e := by
  intro rest stops
  obtain ⟨token,more,rfl,_,_,_,noSign⟩ := derivesHead derives
  obtain ⟨noMinus,noPlus⟩ := noSign (by decide) (by decide)
  refine (signedOther ?_ ?_).mpr (whole rest stops)
  · intro others same
    exact noMinus (List.cons.inj same).1
  · intro others same
    exact noPlus (List.cons.inj same).1

theorem minusContinues (operand : Continues template .signed ts e) :
    Continues template .signed (.symbol .minus :: ts) (.unary .neg e) :=
  fun rest stops => signedMinus.mpr ⟨e,operand rest stops,rfl⟩

theorem plusContinues (operand : Continues template .signed ts e) :
    Continues template .signed (.symbol .plus :: ts) (.unary .pos e) :=
  fun rest stops => signedPlus.mpr ⟨e,operand rest stops,rfl⟩

theorem powerContinues (whole : Continues template .subscripted ts e) :
    Continues template .power ts e := by
  intro rest stops
  have first := continuesAccepts whole rest (stopsLess stops (by decide))
  exact powerReads.mpr ⟨e,rest,first,.inr ⟨stopsOther stops (by decide),rfl,rfl⟩⟩

theorem powContinues (first : Continues template .subscripted ts left)
    (second : Continues template .signed us right) :
    Continues template .power (ts ++ .symbol .doubleStar :: us) (.binary .pow left right) := by
  intro rest stops
  rw [List.append_assoc]
  exact powerReads.mpr ⟨left,_,continuesAccepts first _ (stopsCons (by decide)),
    .inl ⟨us ++ rest,right,rfl,second rest stops,rfl⟩⟩

theorem subscriptedContinues (whole : Continues template .atom ts e) :
    Continues template .subscripted ts e := by
  intro rest e' rest' stops reads
  exact subscriptedReads.mpr ⟨e,rest,whole rest stops,reads⟩

theorem closeStops (s : Symbol) (closes : strength (.symbol s) = 8) (rest : List Token) :
    Stops (reach .disjunction) (.symbol s :: rest) := stopsCons (by rw [closes]; decide)

theorem indexContinues (first : Continues template .subscripted ts left)
    (second : Continues template .disjunction us right) :
    Continues template .subscripted (ts ++ .symbol .openBracket :: (us ++ [.symbol .closeBracket]))
      (.index left right) := by
  intro rest e' rest' stops reads
  have inside := continuesAccepts second _ (closeStops .closeBracket rfl rest)
  rw [List.append_assoc]
  refine first _ e' rest' (stopsCons (by decide)) ?_
  rw [List.cons_append, List.append_assoc]
  exact subscriptsOpen.mpr ⟨right,rest,inside,reads⟩

theorem adjacentRead (stops : Stops 0 rest) (s : String) (more : List String) :
    (adjacent s (more.map .string ++ rest)).1 = String.join (s :: more) ∧
      (adjacent s (more.map .string ++ rest)).2.1 = rest := by
  induction more generalizing s with
  | nil =>
      rw [List.map_nil, List.nil_append, adjacent]
      · exact ⟨by simp [String.join],rfl⟩
      · intro next others same
        exact stopsOther stops (by simp [strength]) others same
  | cons next more ih =>
      obtain ⟨joined,left⟩ := ih (s ++ next)
      rw [List.map_cons, List.cons_append, adjacent]
      exact ⟨by rw [joined]; simp [String.join],left⟩

theorem stringsContinues (s : String) (more : List String) : Continues template .atom
    (.string s :: more.map .string) (.literal (.string (String.join (s :: more)))) := by
  intro rest stops
  obtain ⟨joined,left⟩ := adjacentRead stops s more
  exact atomString.mpr ⟨congrArg (fun text => Expr.literal (.string text)) joined.symm,left.symm⟩

theorem parenContinues (inside : Continues template .disjunction ts e) :
    Continues template .atom (.symbol .openParen :: (ts ++ [.symbol .closeParen])) e := by
  intro rest _
  rw [List.cons_append, List.append_assoc]
  exact atomParen.mpr (continuesAccepts inside _ (closeStops .closeParen rfl rest))

theorem itemsRead {words : List (List Token)} (listed : Listed words ts) {items : List Phrase}
    (same : items.map Phrase.tokens = words)
    (derives : ∀ item ∈ items, Derives .disjunction item.tokens item.tree)
    (inside : ∀ item ∈ items, Continues template .disjunction item.tokens item.tree)
    (rest : List Token) : Reads (Parse.items template (ts ++ .symbol .closeBracket :: rest))
      (items.map Phrase.tree) rest := by
  have open' : ∀ item ∈ items, ∀ after more, item.tokens ++ after ≠ .symbol .closeBracket :: more := by
    intro item member after more begins
    obtain ⟨token,others,whole,other,_⟩ := derivesHead (derives item member)
    rw [whole] at begins
    exact other (List.cons.inj begins).1
  induction listed generalizing items with
  | nil =>
      obtain rfl := List.map_eq_nil_iff.mp same
      exact itemsClose.mpr ⟨rfl,rfl⟩
  | last words =>
      obtain ⟨item,rfl,rfl⟩ := List.map_eq_singleton_iff.mp same
      have here := List.mem_singleton_self item
      exact (itemsReads (open' item here _)).mpr ⟨item.tree,_,
        continuesAccepts (inside item here) _ (closeStops .closeBracket rfl rest),.inr ⟨rfl,rfl⟩⟩
  | comma words more ih =>
      obtain ⟨item,items,rfl,rfl,others⟩ := List.map_eq_cons_iff.mp same
      have here : item ∈ item :: items := List.mem_cons_self
      have after := ih others (fun other member => derives other (List.mem_cons_of_mem _ member))
        (fun other member => inside other (List.mem_cons_of_mem _ member))
        (fun other member => open' other (List.mem_cons_of_mem _ member))
      rw [List.append_assoc]
      exact (itemsReads (open' item here _)).mpr ⟨item.tree,_,
        continuesAccepts (inside item here) _ (closeStops .comma rfl _),.inl ⟨_,_,rfl,after,rfl⟩⟩

theorem entriesRead {words : List (List Token)} (listed : Listed words ts) {entries : List Entry}
    (same : entries.map Entry.words = words)
    (derives : ∀ entry ∈ entries, Derives .disjunction entry.key.tokens entry.key.tree)
    (keys : ∀ entry ∈ entries, Continues template .disjunction entry.key.tokens entry.key.tree)
    (values : ∀ entry ∈ entries, Continues template .disjunction entry.value.tokens entry.value.tree)
    (rest : List Token) : Reads (Parse.entries template (ts ++ .symbol .closeBrace :: rest))
      (entries.map fun entry => (entry.key.tree,entry.value.tree)) rest := by
  have open' : ∀ entry ∈ entries, ∀ after more,
      entry.words ++ after ≠ .symbol .closeBrace :: more := by
    intro entry member after more begins
    obtain ⟨token,others,whole,_,other,_⟩ := derivesHead (derives entry member)
    rw [Entry.words, whole] at begins
    exact other (List.cons.inj begins).1
  have key : ∀ entry ∈ entries, ∀ after, Reads (disjunction template (entry.words ++ after))
      entry.key.tree (.symbol .colon :: (entry.value.tokens ++ after)) := by
    intro entry member after
    rw [Entry.words, List.append_assoc]
    exact continuesAccepts (keys entry member) _ (closeStops .colon rfl _)
  -- on the list, whose words begin with no closing brace, so that the reader goes on
  induction listed generalizing entries with
  | nil =>
      obtain rfl := List.map_eq_nil_iff.mp same
      exact entriesClose.mpr ⟨rfl,rfl⟩
  | last words =>
      obtain ⟨entry,rfl,rfl⟩ := List.map_eq_singleton_iff.mp same
      have here := List.mem_singleton_self entry
      exact (entriesReads (open' entry here _)).mpr ⟨_,_,_,_,key entry here _,
        continuesAccepts (values entry here) _ (closeStops .closeBrace rfl rest),.inr ⟨rfl,rfl⟩⟩
  | comma words more ih =>
      obtain ⟨entry,entries,rfl,rfl,others⟩ := List.map_eq_cons_iff.mp same
      have here : entry ∈ entry :: entries := List.mem_cons_self
      have after := ih others (fun other member => derives other (List.mem_cons_of_mem _ member))
        (fun other member => keys other (List.mem_cons_of_mem _ member))
        (fun other member => values other (List.mem_cons_of_mem _ member))
        (fun other member => open' other (List.mem_cons_of_mem _ member))
        (fun other member => key other (List.mem_cons_of_mem _ member))
      rw [List.append_assoc]
      exact (entriesReads (open' entry here _)).mpr ⟨_,_,_,_,key entry here _,
        continuesAccepts (values entry here) _ (closeStops .comma rfl _),
        .inl ⟨_,_,rfl,after,rfl⟩⟩

end

theorem wordTrue {name : String} (spelled : name ∈ ["true","True"]) :
    word name = .ok (.literal (.bool true)) := if_pos spelled

theorem wordFalse {name : String} (spelled : name ∈ ["false","False"]) :
    word name = .ok (.literal (.bool false)) := by
  simp only [List.mem_cons, List.not_mem_nil, or_false] at spelled
  rcases spelled with rfl | rfl <;> simp [word]

theorem wordNull {name : String} (spelled : name ∈ ["null","None"]) :
    word name = .ok (.literal .null) := by
  simp only [List.mem_cons, List.not_mem_nil, or_false] at spelled
  rcases spelled with rfl | rfl <;> simp [word]

theorem wordName {name : String} (free : name ∉ Expr.reserved) : word name = .ok (.name name) := by
  simp only [Expr.reserved, List.mem_cons, not_or] at free
  simp [word, free]

def Fits (depth : Nat) (ts : List Token) : Prop := ∀ s, .template s ∈ ts → s.length ≤ depth

theorem fitsWithin {depth : Nat} {us : List Token} (fits : Fits depth ts) (inside : us ⊆ ts) :
    Fits depth us := fun s member => fits s (inside member)

theorem fitsBoth {depth : Nat} {us : List Token} {token : Token}
    (fits : Fits depth (ts ++ token :: us)) : Fits depth ts ∧ Fits depth us :=
  ⟨fitsWithin fits (List.subset_append_left _ _),
    fitsWithin fits (List.Subset.trans (List.subset_cons_self _ _) (List.subset_append_right _ _))⟩

theorem fitsRest {depth : Nat} {token : Token} (fits : Fits depth (token :: ts)) : Fits depth ts :=
  fitsWithin fits (List.subset_cons_self _ _)

theorem fitsInner {depth : Nat} {first last : Token} (fits : Fits depth (first :: (ts ++ [last]))) :
    Fits depth ts :=
  fitsWithin (fitsRest fits) (List.subset_append_left _ _)

theorem listedInside {words : List (List Token)} (listed : Listed words ts) : ∀ w ∈ words, w ⊆ ts := by
  induction listed with
  | nil => simp
  | last words => simp
  | @comma others rest words more ih =>
      intro w member
      rcases List.mem_cons.mp member with rfl | member
      · exact List.subset_append_left _ _
      · exact List.Subset.trans (ih w member)
          (List.Subset.trans (List.subset_cons_self _ _) (List.subset_append_right _ _))

theorem partsRead {embedded : List Char → Except ExprError Expr} (pieces : List (TemplatePart Embedded))
    (parsed : ∀ piece, .embedded piece ∈ pieces → embedded piece.source = .ok piece.tree) :
    Template.parseParts embedded (pieces.map (·.map Embedded.source)) =
      .ok (pieces.map (·.map fun piece => piece.tree)) := by
  induction pieces with
  | nil => rfl
  | cons piece pieces ih =>
      have others := ih fun other member => parsed other (List.mem_cons_of_mem _ member)
      cases piece with
      | text s => exact okBind.mpr ⟨_,others,rfl⟩
      | embedded piece =>
          exact okBind.mpr ⟨_,parsed piece List.mem_cons_self,okBind.mpr ⟨_,others,rfl⟩⟩

/- Every level deeper the sources are shorter, so one level less suffices for them. -/
theorem templateContinues {s : String} {pieces : List (TemplatePart Embedded)} {depth : Nat}
    (fits : s.length ≤ depth) (divides : Template.Divides s.toList (pieces.map (·.map Embedded.source)))
    (scans : ∀ piece, .embedded piece ∈ pieces →
      Token.scanFrom 0 piece.source = .ok piece.tokens)
    (inside : ∀ piece, .embedded piece ∈ pieces → ∀ depth, Fits depth piece.tokens →
      Continues (Template.parse (source depth)) .disjunction piece.tokens piece.tree) :
    Continues (Template.parse (source depth)) .atom [.template s]
      (.template (pieces.map (·.map fun piece => piece.tree))) := by
  have parsed : ∀ piece, .embedded piece ∈ pieces → source depth piece.source = .ok piece.tree := by
    intro piece member
    have short := Template.dividesShorter divides
      (List.mem_map.mpr ⟨_,member,rfl⟩ : TemplatePart.embedded piece.source ∈ _)
    rw [String.length_toList] at short
    cases depth with
    | zero => omega
    | succ depth =>
        have fits' : Fits depth piece.tokens := by
          intro t placed
          have := Token.scanLength (scans piece member) placed
          omega
        have reads := continuesAccepts (inside piece member depth fits') [] (by intro t head; cases head)
        rw [List.append_nil] at reads
        exact okBind.mpr ⟨_,scans piece member,wholeReads.mpr reads⟩
  have made : Template.parse (source depth) s = .ok (pieces.map (·.map fun piece => piece.tree)) := by
    unfold Template.parse Template.cut
    rw [Template.cutDivided divides]
    exact okBind.mpr ⟨_,partsRead pieces parsed,rfl⟩
  intro rest _
  exact atomTemplate.mpr ⟨_,made,rfl,rfl⟩

theorem derivesContinues {level : Level} (derives : Derives level ts e) : ∀ depth, Fits depth ts →
    Continues (Template.parse (source depth)) level ts e := by
  -- on the derivation: every rule has its lemma about the level that reads it
  induction derives with
  | conjunction _ ih => exact fun depth fits => disjunctionContinues (ih depth fits)
  | negation _ ih => exact fun depth fits => conjunctionContinues (ih depth fits)
  | comparison whole ih => exact fun depth fits => negationContinues whole (ih depth fits)
  | sum _ ih => exact fun depth fits => comparisonContinues (ih depth fits)
  | product _ ih => exact fun depth fits => sumContinues (ih depth fits)
  | signed _ ih => exact fun depth fits => productContinues (ih depth fits)
  | power whole ih => exact fun depth fits => signedContinues whole (ih depth fits)
  | subscripted _ ih => exact fun depth fits => powerContinues (ih depth fits)
  | atom _ ih => exact fun depth fits => subscriptedContinues (ih depth fits)
  | or _ _ first second =>
      intro depth fits
      obtain ⟨one,two⟩ := fitsBoth fits
      exact orContinues (first depth one) (second depth two)
  | and _ _ first second =>
      intro depth fits
      obtain ⟨one,two⟩ := fitsBoth fits
      exact andContinues (first depth one) (second depth two)
  | not _ ih => exact fun depth fits => notContinues (ih depth (fitsRest fits))
  | @compare ts e links _ filled _ head inside =>
      intro depth fits
      refine compareContinues (head depth (fitsWithin fits (List.subset_append_left _ _))) filled ?_
      intro link member
      refine inside link member depth (fitsWithin fits ?_)
      intro token placed
      exact List.mem_append_right _ (List.mem_flatMap.mpr ⟨link,member,List.mem_cons_of_mem _ placed⟩)
  | additive isOp _ _ first second =>
      intro depth fits
      obtain ⟨one,two⟩ := fitsBoth fits
      exact additiveContinues isOp (first depth one) (second depth two)
  | multiplicative isOp _ _ first second =>
      intro depth fits
      obtain ⟨one,two⟩ := fitsBoth fits
      exact multiplicativeContinues isOp (first depth one) (second depth two)
  | minus _ ih => exact fun depth fits => minusContinues (ih depth (fitsRest fits))
  | plus _ ih => exact fun depth fits => plusContinues (ih depth (fitsRest fits))
  | pow _ _ first second =>
      intro depth fits
      obtain ⟨one,two⟩ := fitsBoth fits
      exact powContinues (first depth one) (second depth two)
  | index _ _ first second =>
      intro depth fits
      obtain ⟨one,two⟩ := fitsBoth fits
      exact indexContinues (first depth one)
        (second depth (fitsWithin two (List.subset_append_left _ _)))
  | int n => exact fun depth fits rest _ => atomInt.mpr ⟨rfl,rfl⟩
  | float x => exact fun depth fits rest _ => atomFloat.mpr ⟨rfl,rfl⟩
  | strings s more => exact fun depth fits => stringsContinues s more
  | template divides scans _ inside =>
      intro depth fits
      exact templateContinues (fits _ List.mem_cons_self) divides scans inside
  | true spelled => exact fun depth fits rest _ => atomIdent.mpr ⟨wordTrue spelled,rfl⟩
  | false spelled => exact fun depth fits rest _ => atomIdent.mpr ⟨wordFalse spelled,rfl⟩
  | null spelled => exact fun depth fits rest _ => atomIdent.mpr ⟨wordNull spelled,rfl⟩
  | name free => exact fun depth fits rest _ => atomIdent.mpr ⟨wordName free,rfl⟩
  | paren _ ih => exact fun depth fits => parenContinues (ih depth (fitsInner fits))
  | @list items ts listed derives inside =>
      intro depth fits rest _
      have within : ∀ item ∈ items, Fits depth item.tokens := fun item member =>
        fitsWithin (fitsInner fits) (listedInside listed _ (List.mem_map_of_mem member))
      rw [List.cons_append, List.append_assoc]
      exact atomBracket.mpr ⟨_,itemsRead listed rfl derives
        (fun item member => inside item member depth (within item member)) rest,rfl⟩
  | @map entries ts listed derives _ keys values =>
      intro depth fits rest _
      have within : ∀ entry ∈ entries, Fits depth entry.key.tokens ∧ Fits depth entry.value.tokens :=
        fun entry member => fitsBoth
          (fitsWithin (fitsInner fits) (listedInside listed _ (List.mem_map_of_mem member)))
      rw [List.cons_append, List.append_assoc]
      exact atomBrace.mpr ⟨_,entriesRead listed rfl derives
        (fun entry member => keys entry member depth (within entry member).1)
        (fun entry member => values entry member depth (within entry member).2) rest,rfl⟩

theorem longestFits (tokens : List Token) : Fits (longestTemplate tokens) tokens := by
  have from' : ∀ n, n ≤ tokens.foldl longestTemplate.longer n ∧
      Fits (tokens.foldl longestTemplate.longer n) tokens := by
    induction tokens with
    | nil => exact fun n => ⟨Nat.le_refl n,by intro s member; cases member⟩
    | cons token tokens ih =>
        intro n
        obtain ⟨above,others⟩ := ih (longestTemplate.longer n token)
        have kept : n ≤ longestTemplate.longer n token := by
          cases token with
          | template s => exact Nat.le_max_left n s.length
          | _ => exact Nat.le_refl n
        refine ⟨Nat.le_trans kept above,?_⟩
        intro s member
        rcases List.mem_cons.mp member with rfl | member
        · exact Nat.le_trans (Nat.le_max_right n s.length) above
        · exact others s member
  exact (from' 0).2

end DocBlocks.Parse

theorem DocBlocks.Expr.ofTokensComplete {tokens : List Token} {e : Expr}
    (derives : Derives .disjunction tokens e) : ofTokens tokens = .ok e := by
  have reads := Parse.continuesAccepts
    (Parse.derivesContinues derives _ (Parse.longestFits tokens)) [] (by intro token head; cases head)
  rw [List.append_nil] at reads
  exact Parse.wholeReads.mpr reads

/- The parser accepts exactly what the grammar derives, and makes the tree that it derives. -/
theorem DocBlocks.Expr.ofTokensDerives (tokens : List Token) (e : Expr) :
    ofTokens tokens = .ok e ↔ Derives .disjunction tokens e :=
  ⟨ofTokensSound,ofTokensComplete⟩
