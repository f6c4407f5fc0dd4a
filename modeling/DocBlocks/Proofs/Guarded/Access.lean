import DocBlocks.Expr.Operation
import DocBlocks.Proofs.Text.Slices

/-! Accesses as a machine makes them. A slice of a text is taken at two byte offsets, which have to fall
between characters; a place has to lie in its sequence; a sum has to have 64 bits. An access that does not
is a fault, which ends the whole run: it is no error of the argument language, and nothing handles it. -/
namespace DocBlocks

inductive Fault where
  | slice (start stop : Nat)
  | place (place length : Nat)
  | divisor
  | overflow
  deriving DecidableEq, Repr

/-- Why a run ends before its result: a fault, or a sequence of so many items that its length is no signed
word, which no memory holds. -/
inductive Stop where
  | fault (fault : Fault)
  | exhausted (length : Nat)
  deriving DecidableEq, Repr

abbrev Guarded (α : Type) := Except Stop α

abbrev Tried (α : Type) := ExceptT ExprError Guarded α

def Tried.of {α : Type} (outcome : Except ExprError α) : Tried α := ExceptT.mk (.ok outcome)

namespace Guarded

def fault {α : Type} (fault : Fault) : Guarded α := .error (.fault fault)

def bytes (text : List Char) : List UInt8 := text.flatMap String.utf8EncodeChar

def slice (start stop : Nat) (text : List Char) : Guarded (List Char) :=
  if start ≤ stop && (Text.dropBytes? start text).isSome && (Text.dropBytes? stop text).isSome then
    .ok (Text.slice start stop text)
  else fault (.slice start stop)

def item {α : Type} (items : List α) (place : Nat) : Guarded α :=
  match items[place]? with
  | some item => .ok item
  | none => fault (.place place items.length)

def after {α : Type} (count : Nat) (items : List α) : Guarded (List α) :=
  if count ≤ items.length then .ok (items.drop count) else fault (.place count items.length)

def word (n : Int) : Guarded Int := if Operation.fits n then .ok n else fault .overflow

def difference (m n : Nat) : Guarded Nat := if n ≤ m then .ok (m - n) else fault .overflow

def product (m n : Nat) : Guarded Nat :=
  if m * n < 0x10000000000000000 then .ok (m * n) else fault .overflow

def length (n : Nat) : Guarded Int := if n < 0x8000000000000000 then .ok n else .error (.exhausted n)

def remainder (a b : Int) : Guarded Int :=
  if b = 0 then fault .divisor
  else if Operation.fits (Int.tdiv a b) then .ok (Int.tmod a b)
  else fault .overflow

theorem sliceMiddle (a b rest : List Char) :
    slice (Text.size a) (Text.size a + Text.size b) (a ++ (b ++ rest)) = .ok b := by
  have starts := Text.dropBytes?_append a (b ++ rest)
  have stops := Text.dropBytes?_append (a ++ b) rest
  rw [Text.size_append, List.append_assoc] at stops
  rw [slice, starts, stops, Text.sliceMiddle]
  simp

theorem sliceEnd (a b : List Char) :
    slice (Text.size a) (Text.size (a ++ b)) (a ++ b) = .ok b := by
  have middle := sliceMiddle a b []
  rwa [List.append_nil, ← Text.size_append] at middle

example : slice 1 3 ['a','é','b'] = .ok ['é'] ∧ slice 1 2 ['a','é','b'] = fault (.slice 1 2) :=
  ⟨rfl,rfl⟩

end Guarded

section

variable {α β : Type}

theorem liftBind {first : Guarded α} {next : α → Tried β} {a : α} (found : first = .ok a) :
    (liftM first >>= next : Tried β) = next a := by
  rw [found]
  rfl

theorem triedBind {first : Tried α} {next : α → Tried β} {outcome : Except ExprError α}
    {last : α → Except ExprError β} (before : first = .of outcome)
    (later : ∀ a, next a = .of (last a)) : (first >>= next) = .of (outcome >>= last) := by
  rw [before]
  cases outcome with
  | error e => rfl
  | ok a => exact later a

/-- Holds of a guarded computation that comes to a given result, unless memory does not suffice for it. In
no case does it end in a fault. -/
def Follows (guarded : Guarded α) (result : α) : Prop :=
  guarded = .ok result ∨ ∃ length, 0x8000000000000000 ≤ length ∧ guarded = .error (.exhausted length)

theorem followsBind {first : Guarded α} {next : α → Guarded β} {a : α} {b : β} (before : Follows first a)
    (later : Follows (next a) b) : Follows (first >>= next) b := by
  rcases before with rfl | ⟨length,long,rfl⟩
  · exact later
  · exact .inr ⟨length,long,rfl⟩

theorem followsFold {γ : Type} {step : β → γ → Guarded β} {plain : β → γ → β}
    (each : ∀ b c, Follows (step b c) (plain b c)) (items : List γ) (b : β) :
    Follows (items.foldlM step b) (items.foldl plain b) := by
  induction items generalizing b with
  | nil => exact .inl rfl
  | cons c items ih =>
      rw [List.foldlM_cons]
      exact followsBind (each b c) (ih (plain b c))

theorem followsTry {first : Tried α} {next : α → Tried β} {outcome : Except ExprError α}
    {last : α → Except ExprError β} (before : Follows first outcome)
    (later : ∀ a, outcome = .ok a → Follows (next a) (last a)) :
    Follows (first >>= next : Tried β) (outcome >>= last) := by
  refine followsBind before ?_
  cases outcome with
  | error e => exact .inl rfl
  | ok a => exact later a rfl

end

end DocBlocks
