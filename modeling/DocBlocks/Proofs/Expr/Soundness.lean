import DocBlocks.Proofs.Expr.Grammar
import DocBlocks.Proofs.Expr.Reading

/-! The parser is sound: what each of its levels reads from a list of tokens, the same level of the
grammar derives. -/
namespace DocBlocks.Parse
open DocBlocks.Expr (Derives Level Link Phrase Entry Listed)

def Derived (level : Level) (tokens : List Token) (e : Expr) (rest : List Token) : Prop :=
  ∃ used, tokens = used ++ rest ∧ Derives level used e

def Extended (level : Level) (left : Expr) (tokens : List Token) (e : Expr) (rest : List Token) : Prop :=
  ∃ used, tokens = used ++ rest ∧ ∀ before, Derives level before left → Derives level (before ++ used) e

section
variable {level inner : Level} {tokens mid rest : List Token} {left right e : Expr}

theorem derivedWhole (derived : Derived inner tokens e rest)
    (rule : ∀ ts, Derives inner ts e → Derives level ts e) : Derived level tokens e rest := by
  obtain ⟨used,rfl,derives⟩ := derived
  exact ⟨used,rfl,rule used derives⟩

theorem derivedOperator {token : Token} {result : Expr} (derived : Derived inner tokens e rest)
    (rule : ∀ ts, Derives inner ts e → Derives level (token :: ts) result) :
    Derived level (token :: tokens) result rest := by
  obtain ⟨used,rfl,derives⟩ := derived
  exact ⟨token :: used,rfl,rule used derives⟩

theorem derivedExtended (derived : Derived level tokens left mid)
    (extended : Extended level left mid e rest) : Derived level tokens e rest := by
  obtain ⟨used,rfl,derives⟩ := derived
  obtain ⟨more,rfl,continues⟩ := extended
  exact ⟨used ++ more,(List.append_assoc _ _ _).symm,continues used derives⟩

theorem extendedStop : Extended level left tokens left tokens :=
  ⟨[],rfl,fun before derives => by rwa [List.append_nil]⟩

theorem extendedOperator {token : Token} {result : Expr} (derived : Derived inner tokens right mid)
    (rule : ∀ ts us, Derives level ts left → Derives inner us right →
      Derives level (ts ++ token :: us) result)
    (extended : Extended level result mid e rest) : Extended level left (token :: tokens) e rest := by
  obtain ⟨used,rfl,derives⟩ := derived
  obtain ⟨more,rfl,continues⟩ := extended
  refine ⟨token :: (used ++ more),by simp,?_⟩
  intro before first
  have whole := continues _ (rule before used first derives)
  rwa [List.append_assoc, List.cons_append] at whole

end

theorem compareSymbol {token : Token} {op : CompareOp} :
    compareOp? token = some op ↔ token = .symbol op.symbol := by
  constructor
  · intro read
    unfold compareOp? at read
    split at read <;> cases read <;> rfl
  · rintro rfl
    cases op <;> rfl

theorem sumSymbol {token : Token} {op : BinaryOp} :
    sumOp? token = some op ↔ (op = .add ∨ op = .sub) ∧ token = .symbol op.symbol := by
  constructor
  · intro read
    unfold sumOp? at read
    split at read <;> cases read <;> exact ⟨by simp,rfl⟩
  · rintro ⟨rfl | rfl,rfl⟩ <;> rfl

theorem productSymbol {token : Token} {op : BinaryOp} : productOp? token = some op ↔
    (op = .mul ∨ op = .div ∨ op = .floorDiv ∨ op = .mod) ∧ token = .symbol op.symbol := by
  constructor
  · intro read
    unfold productOp? at read
    split at read <;> cases read <;> exact ⟨by simp,rfl⟩
  · rintro ⟨rfl | rfl | rfl | rfl,rfl⟩ <;> rfl

variable {template : String → Except ExprError (List (TemplatePart Expr))}

/- What is claimed of every level of the parser on one token list. The levels call each other on
shorter lists, so the induction is on the length and carries all of them. -/
structure SoundFrom (template : String → Except ExprError (List (TemplatePart Expr)))
    (tokens : List Token) : Prop where
  disjunction : ∀ {e rest}, Reads (disjunction template tokens) e rest →
    Derived .disjunction tokens e rest
  disjunctionTail : ∀ {left e rest}, Reads (disjunctionTail template left tokens) e rest →
    Extended .disjunction left tokens e rest
  conjunction : ∀ {e rest}, Reads (conjunction template tokens) e rest →
    Derived .conjunction tokens e rest
  conjunctionTail : ∀ {left e rest}, Reads (conjunctionTail template left tokens) e rest →
    Extended .conjunction left tokens e rest
  negation : ∀ {e rest}, Reads (negation template tokens) e rest → Derived .negation tokens e rest
  links : ∀ {made rest}, Reads (comparisonLinks template tokens) made rest →
    ∃ links : List Link, tokens = links.flatMap Link.words ++ rest ∧
      made = links.map (fun link => (link.op,link.tree)) ∧
      ∀ link ∈ links, Derives .sum link.tokens link.tree
  sum : ∀ {e rest}, Reads (sum template tokens) e rest → Derived .sum tokens e rest
  sumTail : ∀ {left e rest}, Reads (sumTail template left tokens) e rest →
    Extended .sum left tokens e rest
  product : ∀ {e rest}, Reads (product template tokens) e rest → Derived .product tokens e rest
  productTail : ∀ {left e rest}, Reads (productTail template left tokens) e rest →
    Extended .product left tokens e rest
  signed : ∀ {e rest}, Reads (signed template tokens) e rest → Derived .signed tokens e rest
  subscripts : ∀ {target e rest}, Reads (subscripts template target tokens) e rest →
    Extended .subscripted target tokens e rest
  items : ∀ {content rest}, Reads (items template tokens) content rest →
    ∃ (items : List Phrase) (ts : List Token), tokens = ts ++ .symbol .closeBracket :: rest ∧
      Listed (items.map Phrase.tokens) ts ∧ content = items.map Phrase.tree ∧
      ∀ item ∈ items, Derives .disjunction item.tokens item.tree
  entries : ∀ {content rest}, Reads (entries template tokens) content rest →
    ∃ (entries : List Entry) (ts : List Token), tokens = ts ++ .symbol .closeBrace :: rest ∧
      Listed (entries.map Entry.words) ts ∧
      content = entries.map (fun entry => (entry.key.tree,entry.value.tree)) ∧
      ∀ entry ∈ entries, Derives .disjunction entry.key.tokens entry.key.tree ∧
        Derives .disjunction entry.value.tokens entry.value.tree

variable {tokens rest : List Token} {e left : Expr}
  (embedded : ∀ s parts, template s = .ok parts → Derives .atom [.template s] (.template parts))
  (shorter : ∀ other : List Token, other.length < tokens.length → SoundFrom template other)

theorem wordSound {name : String} (read : word name = .ok e) : Derives .atom [.ident name] e := by
  unfold word at read
  split at read
  · rename_i spelled
    cases read
    exact .true spelled
  split at read
  · rename_i spelled
    cases read
    exact .false spelled
  split at read
  · rename_i spelled
    cases read
    exact .null spelled
  split at read
  · cases read
  · cases read
    exact .name (by simp_all [Expr.reserved])

theorem adjacentSound (s : String) (tokens : List Token) : ∃ more : List String,
    tokens = more.map .string ++ (adjacent s tokens).2.1 ∧
      (adjacent s tokens).1 = String.join (s :: more) := by
  fun_induction adjacent s tokens with
  | case1 s next rest text left shorter read ih =>
      rw [read] at ih
      obtain ⟨more,whole,joined⟩ := ih
      exact ⟨next :: more,congrArg (Token.string next :: ·) whole,by simpa [String.join] using joined⟩
  | case2 => exact ⟨[],rfl,by simp [String.join]⟩

include embedded shorter in
theorem atomSound (reads : Reads (atom template tokens) e rest) : Derived .atom tokens e rest := by
  -- the first token decides; what stands in brackets is read from fewer tokens
  cases tokens with
  | nil => exact absurd reads (atomNone (.inl rfl))
  | cons token more =>
      have below := shorter more (by simp)
      cases token with
      | newline => exact absurd reads (atomNone (.inr ⟨more,rfl⟩))
      | int n => obtain ⟨rfl,rfl⟩ := atomInt.mp reads; exact ⟨[_],rfl,.int n⟩
      | float x => obtain ⟨rfl,rfl⟩ := atomFloat.mp reads; exact ⟨[_],rfl,.float x⟩
      | string s =>
          obtain ⟨rfl,rfl⟩ := atomString.mp reads
          obtain ⟨others,whole,joined⟩ := adjacentSound s more
          rw [joined]
          exact ⟨_,congrArg (Token.string s :: ·) whole,.strings s others⟩
      | ident name =>
          obtain ⟨read,rfl⟩ := atomIdent.mp reads
          exact ⟨[_],rfl,wordSound read⟩
      | template s =>
          obtain ⟨parts,made,rfl,rfl⟩ := atomTemplate.mp reads
          exact ⟨[_],rfl,embedded s parts made⟩
      | symbol s =>
          by_cases paren : s = .openParen
          · subst paren
            obtain ⟨used,rfl,derives⟩ := below.disjunction (atomParen.mp reads)
            exact ⟨.symbol .openParen :: (used ++ [.symbol .closeParen]),by simp,.paren derives⟩
          by_cases bracket : s = .openBracket
          · subst bracket
            obtain ⟨content,inside,rfl⟩ := atomBracket.mp reads
            obtain ⟨items,ts,rfl,listed,rfl,each⟩ := below.items inside
            exact ⟨.symbol .openBracket :: (ts ++ [.symbol .closeBracket]),by simp,.list listed each⟩
          by_cases brace : s = .openBrace
          · subst brace
            obtain ⟨content,inside,rfl⟩ := atomBrace.mp reads
            obtain ⟨entries,ts,rfl,listed,rfl,each⟩ := below.entries inside
            exact ⟨.symbol .openBrace :: (ts ++ [.symbol .closeBrace]),by simp,
              .map listed (fun entry member => (each entry member).1)
                (fun entry member => (each entry member).2)⟩
          · exact absurd reads (atomSymbol ⟨paren,bracket,brace⟩)

include shorter in
theorem subscriptsSound {target : Expr} (reads : Reads (subscripts template target tokens) e rest) :
    Extended .subscripted target tokens e rest := by
  have stop : (∀ s more, tokens = .symbol s :: more → s ≠ .openBracket ∧ s ≠ .openParen ∧ s ≠ .dot) →
      Extended .subscripted target tokens e rest := by
    intro other
    obtain ⟨rfl,rfl⟩ := (subscriptsStop other).mp reads
    exact extendedStop
  cases tokens with
  | nil => exact stop (by intro s more same; cases same)
  | cons token more =>
      cases token with
      | symbol s =>
          by_cases bracket : s = .openBracket
          · subst bracket
            obtain ⟨place,next,inside,others⟩ := subscriptsOpen.mp reads
            have left : next.length < more.length := Nat.lt_of_succ_lt (readsLeft inside)
            have below := shorter next (by rw [List.length_cons]; omega)
            obtain ⟨used,rfl,derives⟩ := (shorter more (by simp)).disjunction inside
            obtain ⟨after,rfl,continues⟩ := below.subscripts others
            refine ⟨.symbol .openBracket :: (used ++ .symbol .closeBracket :: after),by simp,?_⟩
            intro before first
            have whole := continues _ (.index first derives)
            simpa using whole
          by_cases paren : s = .openParen
          · subst paren
            rw [subscripts] at reads
            exact (readsError.mp reads).elim
          by_cases dot : s = .dot
          · subst dot
            rw [subscripts] at reads
            exact (readsError.mp reads).elim
          · exact stop (by intro s more same; cases same; exact ⟨bracket,paren,dot⟩)
      | newline | ident | int | float | string | template =>
          exact stop (by intro s more same; cases same)

include embedded shorter in
theorem subscriptedSound (reads : Reads (subscripted template tokens) e rest) :
    Derived .subscripted tokens e rest := by
  obtain ⟨target,mid,first,others⟩ := subscriptedReads.mp reads
  exact derivedExtended (derivedWhole (atomSound embedded shorter first) fun _ => .atom)
    ((shorter mid (readsLeft first)).subscripts others)

include embedded shorter in
theorem powerSound (reads : Reads (power template tokens) e rest) : Derived .power tokens e rest := by
  obtain ⟨base,mid,first,⟨more,exponent,rfl,second,rfl⟩ | ⟨_,rfl,rfl⟩⟩ := powerReads.mp reads
  · have left : (Token.symbol .doubleStar :: more).length < tokens.length := readsLeft first
    obtain ⟨used,rfl,derives⟩ := subscriptedSound embedded shorter first
    obtain ⟨more,rfl,derives'⟩ := (shorter more (Nat.lt_of_succ_lt left)).signed second
    exact ⟨used ++ .symbol .doubleStar :: more,by simp,.pow derives derives'⟩
  · exact derivedWhole (subscriptedSound embedded shorter first) fun _ => .subscripted

include embedded shorter in
theorem signedSound (reads : Reads (signed template tokens) e rest) : Derived .signed tokens e rest := by
  by_cases minus : ∃ more, tokens = .symbol .minus :: more
  · obtain ⟨more,rfl⟩ := minus
    obtain ⟨operand,inside,rfl⟩ := signedMinus.mp reads
    exact derivedOperator ((shorter more (by simp)).signed inside) fun _ => .minus
  by_cases plus : ∃ more, tokens = .symbol .plus :: more
  · obtain ⟨more,rfl⟩ := plus
    obtain ⟨operand,inside,rfl⟩ := signedPlus.mp reads
    exact derivedOperator ((shorter more (by simp)).signed inside) fun _ => .plus
  · rw [signedOther (fun more same => minus ⟨more,same⟩) (fun more same => plus ⟨more,same⟩)] at reads
    exact derivedWhole (powerSound embedded shorter reads) fun _ => .power

include shorter in
theorem productTailSound (reads : Reads (productTail template left tokens) e rest) :
    Extended .product left tokens e rest := by
  cases tokens with
  | nil =>
      obtain ⟨rfl,rfl⟩ := (productTailStop (by intro token head; cases head)).mp reads
      exact extendedStop
  | cons token more =>
      cases isOp : productOp? token with
      | none =>
          obtain ⟨rfl,rfl⟩ := (productTailStop (by intro token head; cases head; exact isOp)).mp reads
          exact extendedStop
      | some op =>
          obtain ⟨right,mid,second,others⟩ := (productTailOp isOp).mp reads
          have left : mid.length < more.length := readsLeft second
          obtain ⟨kind,rfl⟩ := productSymbol.mp isOp
          exact extendedOperator ((shorter more (by simp)).signed second)
            (fun _ _ => .multiplicative kind) ((shorter mid (by rw [List.length_cons]; omega)).productTail others)

include embedded shorter in
theorem productSound (reads : Reads (product template tokens) e rest) :
    Derived .product tokens e rest := by
  obtain ⟨left,mid,first,others⟩ := productReads.mp reads
  exact derivedExtended (derivedWhole (signedSound embedded shorter first) fun _ => .signed)
    ((shorter mid (readsLeft first)).productTail others)

include shorter in
theorem sumTailSound (reads : Reads (sumTail template left tokens) e rest) :
    Extended .sum left tokens e rest := by
  cases tokens with
  | nil =>
      obtain ⟨rfl,rfl⟩ := (sumTailStop (by intro token head; cases head)).mp reads
      exact extendedStop
  | cons token more =>
      cases isOp : sumOp? token with
      | none =>
          obtain ⟨rfl,rfl⟩ := (sumTailStop (by intro token head; cases head; exact isOp)).mp reads
          exact extendedStop
      | some op =>
          obtain ⟨right,mid,second,others⟩ := (sumTailOp isOp).mp reads
          have left : mid.length < more.length := readsLeft second
          obtain ⟨kind,rfl⟩ := sumSymbol.mp isOp
          exact extendedOperator ((shorter more (by simp)).product second)
            (fun _ _ => .additive kind) ((shorter mid (by rw [List.length_cons]; omega)).sumTail others)

include embedded shorter in
theorem sumSound (reads : Reads (sum template tokens) e rest) : Derived .sum tokens e rest := by
  obtain ⟨left,mid,first,others⟩ := sumReads.mp reads
  exact derivedExtended (derivedWhole (productSound embedded shorter first) fun _ => .product)
    ((shorter mid (readsLeft first)).sumTail others)

include shorter in
theorem linksSound {made : List (CompareOp × Expr)}
    (reads : Reads (comparisonLinks template tokens) made rest) :
    ∃ links : List Link, tokens = links.flatMap Link.words ++ rest ∧
      made = links.map (fun link => (link.op,link.tree)) ∧
      ∀ link ∈ links, Derives .sum link.tokens link.tree := by
  cases tokens with
  | nil =>
      obtain ⟨rfl,rfl⟩ := (comparisonLinksStop (by intro token head; cases head)).mp reads
      exact ⟨[],rfl,rfl,by simp⟩
  | cons token more =>
      cases isOp : compareOp? token with
      | none =>
          obtain ⟨rfl,rfl⟩ := (comparisonLinksStop
            (by intro token head; cases head; exact isOp)).mp reads
          exact ⟨[],rfl,rfl,by simp⟩
      | some op =>
          obtain ⟨right,mid,second,others,after,rfl⟩ := (comparisonLinksOp isOp).mp reads
          have left : mid.length < more.length := readsLeft second
          have below := shorter mid (by rw [List.length_cons]; omega)
          obtain rfl := compareSymbol.mp isOp
          obtain ⟨used,rfl,derives⟩ := (shorter more (by simp)).sum second
          obtain ⟨links,rfl,rfl,each⟩ := below.links after
          refine ⟨⟨⟨used,right⟩,op⟩ :: links,by simp [Link.words],rfl,?_⟩
          intro link member
          rcases List.mem_cons.mp member with rfl | member
          · exact derives
          · exact each link member

include embedded shorter in
theorem comparisonSound (reads : Reads (comparison template tokens) e rest) :
    Derived .comparison tokens e rest := by
  obtain ⟨first,mid,head,made,inside,rfl⟩ := comparisonReads.mp reads
  obtain ⟨links,rfl,rfl,each⟩ := (shorter mid (readsLeft head)).links inside
  obtain ⟨used,rfl,derives⟩ := sumSound embedded shorter head
  by_cases filled : links = []
  · subst filled
    exact ⟨used,rfl,.sum derives⟩
  · have some : (links.map fun link => (link.op,link.tree)).isEmpty = false := by simpa using filled
    rw [some]
    exact ⟨used ++ links.flatMap Link.words,by simp,.compare derives filled each⟩

include embedded shorter in
theorem negationSound (reads : Reads (negation template tokens) e rest) :
    Derived .negation tokens e rest := by
  by_cases negated : ∃ more, tokens = .ident "not" :: more
  · obtain ⟨more,rfl⟩ := negated
    obtain ⟨operand,inside,rfl⟩ := negationNot.mp reads
    exact derivedOperator ((shorter more (by simp)).negation inside) fun _ => .not
  · rw [negationOther fun more same => negated ⟨more,same⟩] at reads
    exact derivedWhole (comparisonSound embedded shorter reads) fun _ => .comparison

include shorter in
theorem conjunctionTailSound (reads : Reads (conjunctionTail template left tokens) e rest) :
    Extended .conjunction left tokens e rest := by
  by_cases more : ∃ more, tokens = .ident "and" :: more
  · obtain ⟨more,rfl⟩ := more
    obtain ⟨right,mid,second,others⟩ := conjunctionTailAnd.mp reads
    have left : mid.length < more.length := readsLeft second
    exact extendedOperator ((shorter more (by simp)).negation second) (fun _ _ => .and)
      ((shorter mid (by rw [List.length_cons]; omega)).conjunctionTail others)
  · obtain ⟨rfl,rfl⟩ := (conjunctionTailStop fun others same => more ⟨others,same⟩).mp reads
    exact extendedStop

include embedded shorter in
theorem conjunctionSound (reads : Reads (conjunction template tokens) e rest) :
    Derived .conjunction tokens e rest := by
  obtain ⟨left,mid,first,others⟩ := conjunctionReads.mp reads
  exact derivedExtended (derivedWhole (negationSound embedded shorter first) fun _ => .negation)
    ((shorter mid (readsLeft first)).conjunctionTail others)

include shorter in
theorem disjunctionTailSound (reads : Reads (disjunctionTail template left tokens) e rest) :
    Extended .disjunction left tokens e rest := by
  by_cases more : ∃ more, tokens = .ident "or" :: more
  · obtain ⟨more,rfl⟩ := more
    obtain ⟨right,mid,second,others⟩ := disjunctionTailOr.mp reads
    have left : mid.length < more.length := readsLeft second
    exact extendedOperator ((shorter more (by simp)).conjunction second) (fun _ _ => .or)
      ((shorter mid (by rw [List.length_cons]; omega)).disjunctionTail others)
  · obtain ⟨rfl,rfl⟩ := (disjunctionTailStop fun others same => more ⟨others,same⟩).mp reads
    exact extendedStop

include embedded shorter in
theorem disjunctionSound (reads : Reads (disjunction template tokens) e rest) :
    Derived .disjunction tokens e rest := by
  obtain ⟨left,mid,first,others⟩ := disjunctionReads.mp reads
  exact derivedExtended (derivedWhole (conjunctionSound embedded shorter first) fun _ => .conjunction)
    ((shorter mid (readsLeft first)).disjunctionTail others)

include embedded shorter in
theorem itemsSound {content : List Expr} (reads : Reads (items template tokens) content rest) :
    ∃ (items : List Phrase) (ts : List Token), tokens = ts ++ .symbol .closeBracket :: rest ∧
      Listed (items.map Phrase.tokens) ts ∧ content = items.map Phrase.tree ∧
      ∀ item ∈ items, Derives .disjunction item.tokens item.tree := by
  by_cases close : ∃ more, tokens = .symbol .closeBracket :: more
  · obtain ⟨more,rfl⟩ := close
    obtain ⟨rfl,rfl⟩ := itemsClose.mp reads
    exact ⟨[],[],rfl,.nil,rfl,by simp⟩
  · obtain ⟨item,mid,first,last⟩ := (itemsReads fun more same => close ⟨more,same⟩).mp reads
    have left : mid.length < tokens.length := readsLeft first
    obtain ⟨used,rfl,derives⟩ := disjunctionSound embedded shorter first
    rcases last with ⟨more,others,rfl,after,rfl⟩ | ⟨rfl,rfl⟩
    · obtain ⟨items,ts,rfl,listed,rfl,each⟩ := (shorter more (Nat.lt_of_succ_lt left)).items after
      refine ⟨⟨used,item⟩ :: items,used ++ .symbol .comma :: ts,by simp,.comma used listed,rfl,?_⟩
      intro phrase member
      rcases List.mem_cons.mp member with rfl | member
      · exact derives
      · exact each phrase member
    · refine ⟨[⟨used,item⟩],used,rfl,.last used,rfl,?_⟩
      intro phrase member
      obtain rfl := List.mem_singleton.mp member
      exact derives

include embedded shorter in
theorem entriesSound {content : List (Expr × Expr)}
    (reads : Reads (entries template tokens) content rest) :
    ∃ (entries : List Entry) (ts : List Token), tokens = ts ++ .symbol .closeBrace :: rest ∧
      Listed (entries.map Entry.words) ts ∧
      content = entries.map (fun entry => (entry.key.tree,entry.value.tree)) ∧
      ∀ entry ∈ entries, Derives .disjunction entry.key.tokens entry.key.tree ∧
        Derives .disjunction entry.value.tokens entry.value.tree := by
  by_cases close : ∃ more, tokens = .symbol .closeBrace :: more
  · obtain ⟨more,rfl⟩ := close
    obtain ⟨rfl,rfl⟩ := entriesClose.mp reads
    exact ⟨[],[],rfl,.nil,rfl,by simp⟩
  · obtain ⟨key,after,value,mid,first,second,last⟩ :=
      (entriesReads fun more same => close ⟨more,same⟩).mp reads
    have left : after.length < tokens.length := Nat.lt_of_succ_lt (readsLeft first)
    have less : mid.length < tokens.length := Nat.lt_trans (readsLeft second) left
    have below : ∀ more, mid = .symbol .comma :: more → SoundFrom template more := by
      intro more same
      rw [same, List.length_cons] at less
      exact shorter more (Nat.lt_of_succ_lt less)
    obtain ⟨used,rfl,derives⟩ := disjunctionSound embedded shorter first
    obtain ⟨used',rfl,derives'⟩ := (shorter after left).disjunction second
    rcases last with ⟨more,others,rfl,third,rfl⟩ | ⟨rfl,rfl⟩
    · obtain ⟨entries,ts,rfl,listed,rfl,each⟩ := (below more rfl).entries third
      refine ⟨⟨⟨used,key⟩,⟨used',value⟩⟩ :: entries,
        (used ++ .symbol .colon :: used') ++ .symbol .comma :: ts,by simp,.comma _ listed,rfl,?_⟩
      intro entry member
      rcases List.mem_cons.mp member with rfl | member
      · exact ⟨derives,derives'⟩
      · exact each entry member
    · refine ⟨[⟨⟨used,key⟩,⟨used',value⟩⟩],used ++ .symbol .colon :: used',by simp,.last _,rfl,?_⟩
      intro entry member
      obtain rfl := List.mem_singleton.mp member
      exact ⟨derives,derives'⟩

include embedded in
theorem soundFrom (tokens : List Token) : SoundFrom template tokens := by
  -- the readers call one another, each on fewer tokens or on a stronger level
  induction length : tokens.length using Nat.strongRecOn generalizing tokens with
  | ind n ih =>
      subst length
      have shorter : ∀ other : List Token, other.length < tokens.length →
          SoundFrom template other := fun other less => ih _ less other rfl
      exact {
        disjunction := disjunctionSound embedded shorter
        disjunctionTail := disjunctionTailSound shorter
        conjunction := conjunctionSound embedded shorter
        conjunctionTail := conjunctionTailSound shorter
        negation := negationSound embedded shorter
        links := linksSound shorter
        sum := sumSound embedded shorter
        sumTail := sumTailSound shorter
        product := productSound embedded shorter
        productTail := productTailSound shorter
        signed := signedSound embedded shorter
        subscripts := subscriptsSound shorter
        items := itemsSound embedded shorter
        entries := entriesSound embedded shorter }

include embedded in
theorem wholeSound (read : whole template tokens = .ok e) : Derives .disjunction tokens e := by
  obtain ⟨used,rfl,derives⟩ := (soundFrom embedded tokens).disjunction (wholeReads.mp read)
  rwa [List.append_nil]

end DocBlocks.Parse

namespace DocBlocks.Template
open DocBlocks.Expr (Derives Embedded)

variable {embedded : List Char → Except ExprError Expr}
  (sound : ∀ source e, embedded source = .ok e →
    ∃ ts, Token.scanFrom 0 source = .ok ts ∧ Derives .disjunction ts e)

include sound in
theorem partsSound {cut : List (TemplatePart (List Char))} {parts : List (TemplatePart Expr)}
    (read : parseParts embedded cut = .ok parts) : ∃ pieces : List (TemplatePart Embedded),
      cut = pieces.map (·.map Embedded.source) ∧ parts = pieces.map (·.map fun piece => piece.tree) ∧
      ∀ piece, .embedded piece ∈ pieces →
        Token.scanFrom 0 piece.source = .ok piece.tokens ∧
          Derives .disjunction piece.tokens piece.tree := by
  induction cut generalizing parts with
  | nil =>
      cases read
      exact ⟨[],rfl,rfl,by simp⟩
  | cons part rest ih =>
      cases part with
      | text s =>
          obtain ⟨more,others,made⟩ := okBind.mp read
          cases made
          obtain ⟨pieces,rfl,rfl,each⟩ := ih others
          exact ⟨.text s :: pieces,rfl,rfl,fun piece member => each piece (by simpa using member)⟩
      | embedded source =>
          obtain ⟨inner,first,made⟩ := okBind.mp read
          obtain ⟨more,others,made⟩ := okBind.mp made
          cases made
          obtain ⟨pieces,rfl,rfl,each⟩ := ih others
          obtain ⟨ts,scanned,derives⟩ := sound source inner first
          refine ⟨.embedded ⟨⟨ts,inner⟩,source⟩ :: pieces,rfl,rfl,?_⟩
          intro piece member
          rcases List.mem_cons.mp member with same | member
          · cases same
            exact ⟨scanned,derives⟩
          · exact each piece member

include sound in
theorem parseSound (s : String) (parts : List (TemplatePart Expr))
    (read : parse embedded s = .ok parts) : Derives .atom [.template s] (.template parts) := by
  obtain ⟨made,inside,last⟩ := okBind.mp read
  split at last
  · cases last
  · rename_i faultless
    cases last
    obtain ⟨pieces,whole,rfl,each⟩ := partsSound sound inside
    have divides := @cutParts [] [] s.toList .nil faultless
    rw [List.nil_append] at divides
    exact .template (whole ▸ divides) (fun piece member => (each piece member).1)
      (fun piece member => (each piece member).2)

end DocBlocks.Template

namespace DocBlocks

theorem Parse.sourceSound (depth : Nat) (text : List Char) (e : Expr)
    (read : source depth text = .ok e) :
    ∃ ts, Token.scanFrom 0 text = .ok ts ∧ Expr.Derives .disjunction ts e := by
  induction depth generalizing text e with
  | zero => cases read
  | succ depth ih =>
      obtain ⟨tokens,scanned,parsed⟩ := okBind.mp read
      exact ⟨tokens,scanned,wholeSound (Template.parseSound ih) parsed⟩

theorem Expr.ofTokensSound {tokens : List Token} {e : Expr} (read : ofTokens tokens = .ok e) :
    Derives .disjunction tokens e :=
  Parse.wholeSound (Template.parseSound (Parse.sourceSound _)) read

end DocBlocks
