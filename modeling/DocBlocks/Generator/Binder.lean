import DocBlocks.Arguments.Basic
import DocBlocks.Error
import DocBlocks.Value.Conversion

/-!
Reading the arguments of a block. Every argument that is read is declared with the value that was used,
and the declared arguments are what is written back into the opening tag.
-/
namespace DocBlocks

def headerName : String := "header"

structure Binder where
  command : String
  supplied : Arguments
  declared : Arguments

/-- A reading of arguments. One that fails leaves no binder. -/
abbrev Reading := StateT Binder (Except Error)

namespace Binder

def supplied? (b : Binder) (name : String) : Option Value :=
  (b.supplied.get? name).filter fun value => !value.isNull

def declare (b : Binder) (name : String) (value : Value) : Binder :=
  { b with declared := b.declared.insert name value }

def ofArguments (command : String) (supplied : Arguments) : Binder :=
  let b : Binder := ⟨command, supplied, .empty⟩
  match b.supplied? headerName with
  | some header => b.declare headerName header
  | none => b

def unused (b : Binder) : List String := b.supplied.names.filter fun name => !b.declared.contains name

end Binder

namespace Reading

def get {α : Type} [OfValue α] (name : String) (default : Value) : Reading α := fun b =>
  let value := (b.supplied? name).getD default
  match (OfValue.ofValue? value : Option α) with
  | some typed => .ok (typed, b.declare name value)
  | none => .error (.argumentType name (OfValue.expected α) value.typeName)

def optional {α : Type} [OfValue α] (name : String) : Reading (Option α) := fun b =>
  match b.supplied? name with
  | none => .ok (none, b)
  | some _ => ((some ·) <$> get name .null : Reading (Option α)) b

def header (default : String) : Reading String := get headerName (.string default)

end Reading

end DocBlocks
