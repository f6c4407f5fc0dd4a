import DocBlocks.Value.Basic

/-!
Reading a value as a typed parameter.
-/
namespace DocBlocks

class OfValue (α : Type) where
  expected : String
  ofValue? : Value → Option α

instance : OfValue Value := ⟨"any value", some⟩

instance : OfValue Bool where
  expected := "a boolean"
  ofValue?
    | .bool b => some b
    | _ => none

instance : OfValue Int64 where
  expected := "an integer"
  ofValue?
    | .int n => some n
    | _ => none

instance : OfValue Float := ⟨"a number", Value.asFloat?⟩

instance : OfValue String := ⟨"a string", Value.asString?⟩

instance {α : Type} [OfValue α] : OfValue (List α) where
  expected := "a list"
  ofValue?
    | .list items => items.mapM OfValue.ofValue?
    | _ => none

end DocBlocks
