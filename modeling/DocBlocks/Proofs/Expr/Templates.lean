import DocBlocks.Expr.Template
import DocBlocks.Proofs.Outcome

/-! The grammar of templates: plain text with doubled braces, and sources between braces, in which
brackets nest. A template is cut without a fault into just the parts that it has in this grammar. -/
namespace DocBlocks.Template

inductive Spells : List Char → List Char → Prop where
  | nil : Spells [] []
  | char {c raw text} (notOpen : c ≠ '{') (notClose : c ≠ '}') (rest : Spells raw text) :
      Spells (c :: raw) (c :: text)
  | opening {raw text} (rest : Spells raw text) : Spells ('{' :: '{' :: raw) ('{' :: text)
  | closing {raw text} (rest : Spells raw text) : Spells ('}' :: '}' :: raw) ('}' :: text)

/-- Holds of a source that closes the brackets it is in, so many levels deep, and no brace more. A closing
bracket that is no brace may also stand outside of all brackets. -/
inductive Nested : Nat → List Char → Prop where
  | nil : Nested 0 []
  | opening {c depth source} (bracket : c ∈ ['{','[','(']) (rest : Nested (depth + 1) source) :
      Nested depth (c :: source)
  | closing {c depth source} (bracket : c ∈ ['}',']',')']) (rest : Nested depth source) :
      Nested (depth + 1) (c :: source)
  | stray {c source} (bracket : c ∈ [']',')']) (rest : Nested 0 source) : Nested 0 (c :: source)
  | other {c depth source} (plain : c ∉ ['{','[','(','}',']',')']) (rest : Nested depth source) :
      Nested depth (c :: source)

def plainPart (text : List Char) : List (TemplatePart (List Char)) :=
  if text = [] then [] else [.text (String.ofList text)]

inductive Divides : List Char → List (TemplatePart (List Char)) → Prop where
  | last {raw text} (spells : Spells raw text) : Divides raw (plainPart text)
  | embedded {raw text source rest parts} (spells : Spells raw text)
      (single : source.head? ≠ some '{') (nested : Nested 0 source) (others : Divides rest parts) :
      Divides (raw ++ '{' :: (source ++ '}' :: rest)) (plainPart text ++ .embedded source :: parts)

theorem lengthRead {depth : Nat} {source : List Char} (nested : Nested depth source) (n : Nat)
    (rest : List Char) :
    embeddedLength?.go n depth (source ++ '}' :: rest) = some (n + source.length) := by
  induction nested generalizing n with
  | nil => rfl
  | @opening c depth source bracket nested ih =>
      have opens : (c == '{' || c == '[' || c == '(') = true := by simpa [or_assoc] using bracket
      rw [List.cons_append, embeddedLength?.go, if_pos opens, ih, List.length_cons]
      congr 1
      omega
  | @closing c depth source bracket nested ih =>
      rw [List.cons_append, embeddedLength?.go]
      simp at bracket
      rcases bracket with rfl | rfl | rfl <;> simp [ih] <;> omega
  | @stray c source bracket nested ih =>
      rw [List.cons_append, embeddedLength?.go]
      simp at bracket
      rcases bracket with rfl | rfl <;> simp [ih] <;> omega
  | @other c depth source plain nested ih =>
      rw [List.cons_append, embeddedLength?.go]
      simp at plain
      simp [plain, ih]
      omega

theorem lengthParts {text : List Char} {n depth m : Nat}
    (found : embeddedLength?.go n depth text = some m) :
    ∃ source rest, text = source ++ '}' :: rest ∧ Nested depth source ∧ m = n + source.length := by
  -- every bracket that opens has to close before the brace that ends the source
  induction text generalizing n depth with
  | nil => cases found
  | cons c text ih =>
      rw [embeddedLength?.go] at found
      split at found
      · rename_i opens
        obtain ⟨source,rest,rfl,nested,rfl⟩ := ih found
        exact ⟨c :: source,rest,rfl,.opening (by simpa [or_assoc] using opens) nested,
          by rw [List.length_cons]; omega⟩
      split at found
      · rename_i ends
        obtain ⟨rfl,rfl⟩ : c = '}' ∧ depth = 0 := by simpa using ends
        exact ⟨[],text,rfl,.nil,(Option.some.inj found).symm⟩
      rename_i notOpen notEnd
      split at found
      · rename_i closes
        obtain ⟨source,rest,rfl,nested,rfl⟩ := ih found
        refine ⟨c :: source,rest,rfl,?_,by rw [List.length_cons]; omega⟩
        cases depth with
        | zero =>
            have noBrace : c ≠ '}' := by simpa using notEnd
            exact .stray (by simpa [noBrace] using closes) nested
        | succ depth => exact .closing (by simpa [or_assoc] using closes) nested
      · rename_i notClose
        obtain ⟨source,rest,rfl,nested,rfl⟩ := ih found
        exact ⟨c :: source,rest,rfl,.other (by simp_all) nested,by rw [List.length_cons]; omega⟩

theorem textPartPlain (seen : List Char) : textPart seen = plainPart seen.reverse := by
  unfold textPart plainPart
  cases seen <;> simp

theorem spellsAppend {raw text raw' text' : List Char} (first : Spells raw text)
    (second : Spells raw' text') : Spells (raw ++ raw') (text ++ text') := by
  induction first with
  | nil => exact second
  | char notOpen notClose _ ih => exact .char notOpen notClose ih
  | opening _ ih => exact .opening ih
  | closing _ ih => exact .closing ih

theorem cutSpelled {raw text : List Char} (spells : Spells raw text) (seen tail : List Char) :
    cutAfter seen (raw ++ tail) = cutAfter (text.reverse ++ seen) tail := by
  induction spells generalizing seen with
  | nil => rfl
  | @char c raw text notOpen notClose _ ih =>
      rw [List.cons_append, cutAfter, ih]
      · simp
      all_goals simp_all
  | opening _ ih =>
      simp only [List.cons_append]
      rw [cutAfter, ih]
      simp
  | closing _ ih =>
      simp only [List.cons_append]
      rw [cutAfter, ih]
      simp

theorem embeddedLeft (source rest : List Char) :
    (source ++ '}' :: rest).drop (source.length + 1) = rest := by
  rw [← List.drop_drop, List.drop_left]
  rfl

theorem cutDivided {raw : List Char} {parts : List (TemplatePart (List Char))}
    (divides : Divides raw parts) : cutAfter [] raw = ⟨parts,none⟩ := by
  induction divides with
  | @last raw text spells =>
      have cut := cutSpelled spells [] []
      rw [List.append_nil, List.append_nil] at cut
      rw [cut, cutAfter, textPartPlain, List.reverse_reverse]
  | @embedded raw text source rest parts spells single nested others ih =>
      have found : embeddedLength? (source ++ '}' :: rest) = some source.length := by
        have := lengthRead nested 0 rest
        rwa [Nat.zero_add] at this
      rw [cutSpelled spells, cutAfter]
      · simp [found, ih, textPartPlain]
      · intro more same
        cases source with
        | nil => cases same
        | cons c source => exact single (congrArg some (List.cons.inj same).1)

theorem spellsMore {before seen raw : List Char} (spells : Spells before seen.reverse) (c : Char)
    (more : Spells raw [c]) : Spells (before ++ raw) (c :: seen).reverse := by
  rw [List.reverse_cons]
  exact spellsAppend spells more

/- What was seen is spelled by the text before, so the parts of the rest are those of the whole. -/
theorem cutParts {before seen raw : List Char} (spells : Spells before seen.reverse)
    (faultless : (cutAfter seen raw).fault = none) :
    Divides (before ++ raw) (cutAfter seen raw).parts := by
  -- along the cuts: the text that no part holds yet is what `before` spells
  fun_induction cutAfter seen raw generalizing before with
  | case1 seen =>
      rw [List.append_nil, textPartPlain]
      exact .last spells
  | case2 seen rest ih =>
      have more := ih (spellsMore spells '{' (.opening .nil)) faultless
      rwa [List.append_assoc] at more
  | case3 seen rest ih =>
      have more := ih (spellsMore spells '}' (.closing .nil)) faultless
      rwa [List.append_assoc] at more
  | case4 => cases faultless
  | case5 seen rest single n found cut =>
      rename_i ih
      obtain ⟨source,rest,rfl,nested,same⟩ := lengthParts found
      rw [Nat.zero_add] at same
      subst same
      simp only [cut, embeddedLeft, List.take_left, textPartPlain] at ih faultless ⊢
      refine .embedded spells ?_ nested (ih .nil faultless)
      intro brace
      cases source with
      | nil => cases brace
      | cons c source =>
          cases brace
          exact single _ rfl
  | case6 => cases faultless
  | case7 seen c rest _ _ notOpen notClose ih =>
      have more := ih (spellsMore spells c (.char notOpen notClose .nil)) faultless
      rwa [List.append_assoc] at more

end DocBlocks.Template
