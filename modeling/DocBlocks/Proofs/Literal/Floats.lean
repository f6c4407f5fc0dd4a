import DocBlocks.Proofs.Literal.Lexing

/-! The text of a finite double is a sign and a number with a point or an exponent, so it is scanned
as one token. Which double the token holds is left to the reader of decimals. -/
namespace DocBlocks.Decimal

inductive ExponentText : List Char → Prop where
  | absent : ExponentText []
  | present (sign power : List Char) (signed : sign = [] ∨ sign = ['-']) (some : power ≠ [])
      (digits : ∀ c ∈ power, isDigit c = true) : ExponentText ('e' :: (sign ++ power))

inductive FloatText : List Char → Prop where
  | pointed (whole fraction exponent : List Char) (some : whole ≠ [])
      (digits : ∀ c ∈ whole, isDigit c = true) (more : ∀ c ∈ fraction, isDigit c = true)
      (last : ExponentText exponent) : FloatText (whole ++ '.' :: (fraction ++ exponent))
  | scaled (whole exponent : List Char) (some : whole ≠ [])
      (digits : ∀ c ∈ whole, isDigit c = true) (present : exponent ≠ [])
      (last : ExponentText exponent) : FloatText (whole ++ exponent)

theorem takeDigits {digits : List Char} (rest : List Char) (all : ∀ c ∈ digits, isDigit c = true)
    (after : ∀ c, rest.head? = some c → isDigit c = false) :
    (digits ++ rest).takeWhile isDigit = digits ∧ (digits ++ rest).dropWhile isDigit = rest := by
  rw [List.takeWhile_append_of_pos all, List.dropWhile_append_of_pos all]
  cases rest with
  | nil => simp
  | cons c more => simp [after c rfl]

theorem exponentHead {exponent : List Char} (h : ExponentText exponent) :
    ∀ c, exponent.head? = some c → c = 'e' := by
  intro c hc
  cases h with
  | absent => cases hc
  | present => cases hc; rfl

theorem exponentRead {exponent : List Char} (h : ExponentText exponent) :
    ∃ power, exponent? exponent = some power := by
  cases h with
  | absent => exact ⟨0,rfl⟩
  | present sign power signed some digits =>
      have filled : power.isEmpty = false := by simpa using some
      have all : power.all isDigit = true := List.all_eq_true.mpr digits
      have bare : takeSign power = (false,power) := by
        cases power with
        | nil => exact absurd rfl some
        | cons d more =>
            have digit := digits d (by simp)
            unfold takeSign
            split
            · rename_i same; cases same; exact absurd digit (by decide)
            · rename_i same; cases same; exact absurd digit (by decide)
            · rfl
      rcases signed with rfl | rfl
      · exact ⟨_,by simp [exponent?, bare, filled, all]; rfl⟩
      · exact ⟨_,by simp [exponent?, takeSign, filled, all]; rfl⟩

theorem literalRead {text : List Char} (h : FloatText text) :
    ∃ number, Literal.ofText? text = some number := by
  have bare : ∀ {whole rest : List Char}, whole ≠ [] → (∀ c ∈ whole, isDigit c = true) →
      takeSign (whole ++ rest) = (false,whole ++ rest) := by
    intro whole rest some digits
    cases whole with
    | nil => exact absurd rfl some
    | cons d more =>
        have digit := digits d (by simp)
        rw [List.cons_append]
        unfold takeSign
        split
        · rename_i same; cases same; exact absurd digit (by decide)
        · rename_i same; cases same; exact absurd digit (by decide)
        · rfl
  cases h with
  | pointed whole fraction exponent some digits more last =>
      obtain ⟨power,read⟩ := exponentRead last
      have point := takeDigits ('.' :: (fraction ++ exponent)) digits (by
        intro c hc; cases hc; rfl)
      have after := takeDigits exponent more (by
        intro c hc; rw [exponentHead last c hc]; rfl)
      have filled : whole.isEmpty = false := by simpa using some
      exact ⟨_,by simp [Literal.ofText?, bare some digits, point, after, filled, read]; rfl⟩
  | scaled whole exponent some digits present last =>
      obtain ⟨power,read⟩ := exponentRead last
      have after := takeDigits exponent digits (by
        intro c hc; rw [exponentHead last c hc]; rfl)
      have filled : whole.isEmpty = false := by simpa using some
      cases last with
      | absent => exact absurd rfl present
      | present sign power' signed some' digits' =>
          exact ⟨_,by simp [Literal.ofText?, bare some digits, after, filled, read]; rfl⟩

theorem zeroPlain : ∀ c ∈ ['0'], isDigit c = true := List.all_eq_true.mp (by decide)

theorem digitCharPlain : ∀ d < 10, isDigit (digitChar d) = true := by decide

theorem digitCharsPlain {digits : List Nat} (small : ∀ d ∈ digits, d < 10) :
    ∀ c ∈ digits.map digitChar, isDigit c = true := by
  intro c hc
  obtain ⟨d,hd,rfl⟩ := List.mem_map.mp hc
  exact digitCharPlain d (small d hd)

theorem zerosPlain (n : Nat) : ∀ c ∈ List.replicate n '0', isDigit c = true := by
  intro c hc
  rw [(List.mem_replicate.mp hc).2]
  rfl

theorem exponentWritten (n : Int) : ExponentText ('e' :: (toString n).toList) := by
  have digits (m : Nat) : Nat.toDigits 10 m ≠ [] ∧ ∀ c ∈ Nat.toDigits 10 m, isDigit c = true :=
    ⟨Nat.toDigits_ne_nil,digitsWritten m⟩
  cases n with
  | ofNat m =>
      have text : (toString (Int.ofNat m)).toList = [] ++ Nat.toDigits 10 m := Nat.toList_repr
      rw [text]
      exact .present [] _ (.inl rfl) (digits m).1 (digits m).2
  | negSucc m =>
      have text : (toString (Int.negSucc m)).toList = ['-'] ++ Nat.toDigits 10 (m + 1) := by
        rw [show toString (Int.negSucc m) = "-" ++ (m + 1).repr from rfl, String.toList_append,
          Nat.toList_repr]
        rfl
      rw [text]
      exact .present ['-'] _ (.inr rfl) (digits (m + 1)).1 (digits (m + 1)).2

theorem positionalWritten (d : Digits) (small : ∀ x ∈ d.digits, x < 10) :
    FloatText d.positional := by
  have chars := digitCharsPlain small
  have pad := zerosPlain
  unfold Digits.positional
  dsimp only
  split
  · have fraction : ∀ c ∈ List.replicate (-d.exponent - 1).toNat '0' ++ d.digits.map digitChar,
        isDigit c = true := by
      intro c hc
      rcases List.mem_append.mp hc with zero | digit
      · exact pad _ c zero
      · exact chars c digit
    have text := FloatText.pointed ['0'] _ [] (by simp) zeroPlain fraction .absent
    simpa only [List.append_nil, List.cons_append, List.nil_append] using text
  · generalize d.digits.map digitChar = chars' at chars
    generalize d.exponent.toNat = size
    have before : ∀ c ∈ chars'.take (size + 1) ++ List.replicate (size + 1 - chars'.length) '0',
        isDigit c = true := by
      intro c hc
      rcases List.mem_append.mp hc with digit | zero
      · exact chars c (List.mem_of_mem_take digit)
      · exact pad _ c zero
    have after : ∀ c ∈ (if (chars'.drop (size + 1)).isEmpty then ['0'] else chars'.drop (size + 1)),
        isDigit c = true := by
      intro c hc
      split at hc
      · rw [List.mem_singleton.mp hc]; rfl
      · exact chars c (List.mem_of_mem_drop hc)
    have filled : chars'.take (size + 1) ++ List.replicate (size + 1 - chars'.length) '0' ≠ [] := by
      intro none
      have length := congrArg List.length none
      simp only [List.length_append, List.length_take, List.length_replicate,
        List.length_nil] at length
      omega
    have text := FloatText.pointed _ _ [] filled before after .absent
    simpa only [List.append_nil] using text

theorem scientificWritten (d : Digits) (small : ∀ x ∈ d.digits, x < 10) :
    FloatText (d.scientific plainLayout) := by
  have chars := digitCharsPlain small
  have last := exponentWritten d.exponent
  unfold Digits.scientific
  dsimp only [plainLayout]
  split
  · exact .scaled ['0'] _ (by simp) zeroPlain (by simp) last
  · rename_i first same
    rw [same] at chars
    exact .scaled [first] _ (by simp) chars (by simp) last
  · rename_i first rest _ same
    rw [same] at chars
    have text := FloatText.pointed [first] rest _ (by simp) (by simpa using chars first (by simp))
      (fun c hc => chars c (by simp [hc])) last
    simpa only [List.cons_append, List.nil_append] using text

theorem layOutWritten (d : Digits) (small : ∀ x ∈ d.digits, x < 10) :
    FloatText (d.layOut plainLayout) := by
  unfold Digits.layOut
  split
  · exact positionalWritten d small
  · exact scientificWritten d small

theorem ofCountSmall (count : Nat) (power : Int) :
    ∀ d ∈ (Digits.ofCount count power).digits, d < 10 := by
  intro d hd
  have member : d ∈ (Nat.toDigits 10 count).map fun c => c.toNat - '0'.toNat := by
    have kept := (List.dropWhile_sublist (· == 0)).subset (List.mem_reverse.mp hd)
    exact List.mem_reverse.mp kept
  obtain ⟨c,hc,rfl⟩ := List.mem_map.mp member
  have range := digitsWritten count c hc
  simp only [isDigit, Bool.and_eq_true, decide_eq_true_eq, Char.le_def,
    UInt32.le_iff_toNat_le] at range
  have upper : c.toNat ≤ 57 := range.2
  have zero : '0'.toNat = 48 := rfl
  omega

theorem shortestSmall (b : Binary) : ∀ d ∈ b.shortest.digits, d < 10 := by
  unfold Binary.shortest
  dsimp only
  cases found : (List.range 17).findSome? _ with
  | none => decide
  | some digits =>
      obtain ⟨n,_,made⟩ := List.exists_of_findSome?_eq_some found
      obtain ⟨count,_,rfl⟩ := Option.map_eq_some_iff.mp made
      exact ofCountSmall count _

def unsignedText (x : Float) : List Char :=
  let magnitude := x.toBits.toNat % Nat.pow 2 63
  if magnitude = 0 then "0.0".toList
  else (Binary.ofBits magnitude).shortest.layOut plainLayout

def isSigned (x : Float) : Bool := x.toBits.toNat ≥ Nat.pow 2 63

theorem unsignedWritten (x : Float) : FloatText (unsignedText x) := by
  unfold unsignedText
  dsimp only
  split
  · exact .pointed ['0'] ['0'] [] (by simp) zeroPlain zeroPlain .absent
  · exact layOutWritten _ (shortestSmall _)

theorem finiteText {x : Float} (finite : x.isFinite = true) :
    (textOf plainLayout x).toList = (if isSigned x then ['-'] else []) ++ unsignedText x := by
  have number : x.isNaN = false ∧ x.isInf = false := by
    unfold Float.isFinite Float.Model.isFinite at finite
    unfold Float.isNaN Float.isInf Float.Model.isNaN Float.Model.isInf
    cases kind : x.toModel.unpack with
    | infinity | notANumber => rw [kind] at finite; cases finite
    | zero | finite => exact ⟨rfl,rfl⟩
  unfold textOf unsignedText isSigned
  rw [number.1, number.2]
  simp only [Bool.false_eq_true, if_false, String.toList_ofList, decide_eq_true_eq]

end DocBlocks.Decimal

namespace DocBlocks.Token
open Lexeme Decimal

theorem nonDigit {rest : List Char} (follow : Ends rest) :
    ∀ c, rest.head? = some c → isDigit c = false := by
  intro c hc
  cases digit : isDigit c with
  | false => rfl
  | true => exact absurd (follow c hc).1 (by simp [(digitPlain digit).2.2.1])

theorem exponentStop {exponent rest : List Char} (h : ExponentText exponent) (follow : Ends rest) :
    ∀ c, (exponent ++ rest).head? = some c → isDigit c = false := by
  intro c hc
  cases h with
  | absent => exact nonDigit follow c hc
  | present => cases hc; rfl

theorem exponentAlone {exponent rest : List Char} (h : ExponentText exponent)
    (follow : Ends rest) : exponentLength (exponent ++ rest) = exponent.length := by
  cases h with
  | absent => exact noExponent follow
  | present sign power signed filled digits =>
      have run := digitsStop digits follow
      cases power with
      | nil => exact absurd rfl filled
      | cons d more =>
          rcases signed with rfl | rfl
          · have digit := digits d (by simp)
            have notPlus : d ≠ '+' := by rintro rfl; exact absurd digit (by decide)
            have notMinus : d ≠ '-' := by rintro rfl; exact absurd digit (by decide)
            simp only [List.nil_append, List.cons_append] at run ⊢
            simp [exponentLength, run, notPlus, notMinus]
          · simp only [List.cons_append, List.nil_append] at run ⊢
            simp [exponentLength, run]

theorem floatAlone {c : Char} {text rest : List Char} (h : FloatText (c :: text))
    (follow : Ends rest) : number (text ++ rest) = ⟨.float,text.length⟩ := by
  generalize whole : c :: text = all at h
  cases h with
  | pointed digits fraction exponent filled before after last =>
      cases digits with
      | nil => exact absurd rfl filled
      | cons d digits =>
          rw [List.cons_append] at whole
          obtain ⟨rfl,rfl⟩ := List.cons.inj whole
          have others : ∀ x ∈ digits, isDigit x = true := fun x hx => before x (by simp [hx])
          have first := runStops ('.' :: (fraction ++ exponent ++ rest)) others
            (by intro x hx; cases hx; rfl)
          have second := runStops _ after (exponentStop last follow)
          have third := exponentAlone last follow
          unfold number
          simp only [List.append_assoc, List.cons_append] at first second ⊢
          rw [first, List.drop_left]
          simp only [second, List.drop_left, third, List.length_append, List.length_cons]
          congr 1
          omega
  | scaled digits exponent filled before present last =>
      cases digits with
      | nil => exact absurd rfl filled
      | cons d digits =>
          rw [List.cons_append] at whole
          obtain ⟨rfl,rfl⟩ := List.cons.inj whole
          have others : ∀ x ∈ digits, isDigit x = true := fun x hx => before x (by simp [hx])
          have first := runStops (exponent ++ rest) others (exponentStop last follow)
          have second := exponentAlone last follow
          cases last with
          | absent => exact absurd rfl present
          | present sign power signed some digits' =>
              unfold number
              rw [List.append_assoc, first]
              dsimp only
              rw [List.drop_left, List.length_append]
              split
              · rename_i same; cases same
              · rw [second]
                rfl

def doubleOf (text : List Char) : Float :=
  ((Literal.ofText? text).map Literal.toFloat).getD 0

theorem floatStart {c : Char} {text : List Char} (h : FloatText (c :: text)) :
    isDigit c = true := by
  generalize whole : c :: text = all at h
  cases h with
  | pointed digits _ _ filled before _ _ | scaled digits _ filled before _ _ =>
      cases digits with
      | nil => exact absurd rfl filled
      | cons d digits =>
          obtain ⟨rfl,_⟩ := List.cons.inj whole
          exact before c (by simp)

theorem yieldsFloat {text : List Char} (h : FloatText text) :
    Yields text [.float (doubleOf text)] := by
  obtain ⟨number,read⟩ := literalRead h
  cases text with
  | nil => cases read
  | cons c text =>
      refine yieldsLexeme .float ?_ ?_
      · intro rest follow
        have first := digitPlain (floatStart h)
        simp [next, first, floatStart h, floatAlone h follow]
      · intro offset
        simp [ofLexeme, ofFloatText, doubleOf, read]

end DocBlocks.Token
