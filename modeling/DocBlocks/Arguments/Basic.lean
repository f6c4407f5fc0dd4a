import DocBlocks.Value.Literal
import DocBlocks.Value.Approx

/-!
Arguments: a mapping from names to values that keeps the order in which the names were first bound.
-/
namespace DocBlocks

structure Arguments where
  entries : List (String × Value)
  deriving Repr, Inhabited

namespace Arguments

def empty : Arguments := ⟨[]⟩

def get? (arguments : Arguments) (name : String) : Option Value :=
  Entries.get? name arguments.entries

def contains (arguments : Arguments) (name : String) : Bool := (arguments.get? name).isSome

def insert (arguments : Arguments) (name : String) (value : Value) : Arguments :=
  ⟨Entries.insert name value arguments.entries⟩

def names (arguments : Arguments) : List String := arguments.entries.map (·.1)

def isEmpty (arguments : Arguments) : Bool := arguments.entries.isEmpty

def size (arguments : Arguments) : Nat := arguments.entries.length

def ofList (pairs : List (String × Value)) : Arguments :=
  pairs.foldl (fun arguments pair => arguments.insert pair.1 pair.2) empty

def toSource (arguments : Arguments) : String :=
  String.join (arguments.entries.map fun (name, value) => name ++ " = " ++ value.literal ++ "\n")

def approx (a b : Arguments) : Bool := Value.approxEntries a.entries b.entries

theorem get?_insert_self (arguments : Arguments) (name : String) (value : Value) :
    (arguments.insert name value).get? name = some value :=
  Entries.get?_insert_self name value arguments.entries

theorem get?_insert_of_ne (arguments : Arguments) {name other : String} (value : Value)
    (h : other ≠ name) : (arguments.insert name value).get? other = arguments.get? other :=
  Entries.get?_insert_of_ne value arguments.entries h

end Arguments

end DocBlocks
