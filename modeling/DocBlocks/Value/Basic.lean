/-!
The values of arguments: null, truth values, 64-bit integers, doubles, texts, lists and mappings. A
mapping keeps its entries in the order in which their keys were first given.
-/
namespace DocBlocks

inductive Value where
  | null
  | bool (b : Bool)
  | int (n : Int64)
  | float (x : Float)
  | string (s : String)
  | list (items : List Value)
  | map (entries : List (String × Value))
  deriving Repr, Inhabited

namespace Entries

def get? (name : String) : List (String × Value) → Option Value
  | [] => none
  | (key, value) :: rest => if key = name then some value else get? name rest

def insert (name : String) (value : Value) : List (String × Value) → List (String × Value)
  | [] => [(name, value)]
  | (key, old) :: rest =>
      if key = name then (key, value) :: rest else (key, old) :: insert name value rest

@[simp] theorem get?_insert_self (name : String) (value : Value)
    (pairs : List (String × Value)) : get? name (insert name value pairs) = some value := by
  induction pairs with
  | nil => simp [insert, get?]
  | cons pair rest ih =>
      by_cases h : pair.1 = name <;> simp [insert, get?, h, ih]

theorem get?_insert_of_ne {name other : String} (value : Value) (pairs : List (String × Value))
    (h : other ≠ name) : get? other (insert name value pairs) = get? other pairs := by
  induction pairs with
  | nil => simp [insert, get?, Ne.symm h]
  | cons pair rest ih =>
      obtain ⟨key, old⟩ := pair
      by_cases hk : key = name
      · subst hk
        simp [insert, get?, Ne.symm h]
      · by_cases ho : key = other
        · subst ho
          simp [insert, get?, h]
        · simp [insert, get?, hk, ho, ih]

end Entries

namespace Value

def typeName : Value → String
  | null => "null"
  | bool _ => "boolean"
  | int _ => "integer"
  | float _ => "float"
  | string _ => "string"
  | list _ => "list"
  | map _ => "mapping"

def isNull : Value → Bool
  | null => true
  | _ => false

def isTruthy : Value → Bool
  | null => false
  | bool b => b
  | int n => n != 0
  | float x => x != 0.0
  | string s => !s.isEmpty
  | list items => !items.isEmpty
  | map entries => !entries.isEmpty

def asString? : Value → Option String
  | string s => some s
  | _ => none

def get? (key : String) : Value → Option Value
  | map entries => Entries.get? key entries
  | _ => none

def asFloat? : Value → Option Float
  | int n => some (Float.ofInt n.toInt)
  | float x => some x
  | _ => none

end Value

end DocBlocks
