/-!
TOML values and tables, and the rules by which statements define tables. A table has one definition: a
header defines it, dotted keys may extend only tables that dotted keys made, and an inline table is
complete.
-/
namespace DocBlocks

inductive TableKind where
  | defined
  | implied
  | dotted
  | inline
  deriving DecidableEq, Repr

inductive Toml where
  | string (text : String)
  | integer (n : Int)
  | float (x : Float)
  | boolean (b : Bool)
  /-- A date, a time or both; nothing asks which. -/
  | date
  | array (items : List Toml)
  | table (kind : TableKind) (entries : List (String × Toml))
  | tables (items : List (List (String × Toml)))

namespace Toml

abbrev Entries := List (String × Toml)

def get? (key : String) : Entries → Option Toml
  | [] => none
  | (other, value) :: rest => if other = key then some value else get? key rest

def setEntry (key : String) (value : Toml) : Entries → Entries
  | [] => [(key, value)]
  | (other, old) :: rest =>
      if other = key then (key, value) :: rest else (other, old) :: setEntry key value rest

/-- Whether a table may be entered on the way to a definition. Dotted keys end in a table that dotted
keys made, and pass only through tables without a header. -/
def mayEnter (made kind : TableKind) (isLast : Bool) : Bool :=
  match made, kind with
  | _, .inline => false
  | .dotted, .defined => false
  | .dotted, .implied => !isLast
  | _, _ => true

def within (made : TableKind) (change : Entries → Option Entries) :
    List String → Entries → Option Entries
  | [], entries => change entries
  | key :: rest, entries =>
      match get? key entries with
      | none => do
          let below ← within made change rest []
          some (setEntry key (table made below) entries)
      | some (table kind below) =>
          if mayEnter made kind rest.isEmpty then do
            let below ← within made change rest below
            some (setEntry key (table kind below) entries)
          else none
      | some (tables (last :: before)) =>
          if made = .dotted ∧ rest.isEmpty then none
          else do
            let last ← within made change rest last
            some (setEntry key (tables (last :: before)) entries)
      | some _ => none

structure Key where
  before : List String
  last : String
  deriving DecidableEq, Repr

def define (key : Key) (value : Toml) (entries : Entries) : Option Entries :=
  within .dotted (fun entries =>
    match get? key.last entries with
    | none => some (entries ++ [(key.last, value)])
    | some _ => none) key.before entries

def openTable (key : Key) (entries : Entries) : Option Entries :=
  within .implied (fun entries =>
    match get? key.last entries with
    | none => some (entries ++ [(key.last, table .defined [])])
    | some (table .implied below) => some (setEntry key.last (table .defined below) entries)
    | some _ => none) key.before entries

def openItem (key : Key) (entries : Entries) : Option Entries :=
  within .implied (fun entries =>
    match get? key.last entries with
    | none => some (entries ++ [(key.last, tables [[]])])
    | some (tables items) => some (setEntry key.last (tables ([] :: items)) entries)
    | some _ => none) key.before entries

inductive Statement where
  | header (key : Key)
  | item (key : Key)
  | pair (key : Key) (value : Toml)

structure Document where
  entries : Entries
  current : List String

namespace Document

def add (d : Document) : Statement → Option Document
  | .header key => (openTable key d.entries).map (⟨·, key.before ++ [key.last]⟩)
  | .item key => (openItem key d.entries).map (⟨·, key.before ++ [key.last]⟩)
  | .pair key value =>
      (within .implied (define key value) d.current d.entries).map (⟨·, d.current⟩)

def ofStatements (statements : List Statement) : Option Entries :=
  (statements.foldlM add ⟨[], []⟩).map (·.entries)

end Document

end Toml

end DocBlocks
