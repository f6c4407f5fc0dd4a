import DocBlocks.Proofs.Value.Entries

/-! The values inside a value. A value is free of floats, or a mapping at every depth has distinct
keys, when that holds of every value inside it. -/
namespace DocBlocks.Value

inductive Within (part : Value) : Value → Prop where
  | self : Within part part
  | item {value : Value} {items : List Value} (member : value ∈ items)
      (inside : Within part value) : Within part (.list items)
  | entry {key : String} {value : Value} {entries : List (String × Value)}
      (member : (key,value) ∈ entries) (inside : Within part value) : Within part (.map entries)

def FloatFree (value : Value) : Prop := ∀ x, ¬ Within (.float x) value

def Keyed (value : Value) : Prop :=
  ∀ entries, Within (.map entries) value → (Entries.names entries).Nodup

def IsScalar : Value → Prop
  | .list _ | .map _ => False
  | _ => True

theorem floatFreeList {items : List Value} :
    FloatFree (.list items) ↔ ∀ value ∈ items, FloatFree value := by
  constructor
  · intro free value member x inside
    exact free x (.item member inside)
  · intro free x inside
    cases inside with
    | item member inside => exact free _ member x inside

theorem floatFreeMap {entries : List (String × Value)} :
    FloatFree (.map entries) ↔ ∀ key value, (key,value) ∈ entries → FloatFree value := by
  constructor
  · intro free key value member x inside
    exact free x (.entry member inside)
  · intro free x inside
    cases inside with
    | entry member inside => exact free _ _ member x inside

theorem keyedList {items : List Value} : Keyed (.list items) ↔ ∀ value ∈ items, Keyed value := by
  constructor
  · intro keyed value member entries inside
    exact keyed entries (.item member inside)
  · intro keyed entries inside
    cases inside with
    | item member inside => exact keyed _ member entries inside

theorem keyedMap {entries : List (String × Value)} :
    Keyed (.map entries) ↔
      (Entries.names entries).Nodup ∧ ∀ key value, (key,value) ∈ entries → Keyed value := by
  constructor
  · intro keyed
    exact ⟨keyed entries .self,fun key value member within inside =>
      keyed within (.entry member inside)⟩
  · rintro ⟨distinct,keyed⟩ within inside
    cases inside with
    | self => exact distinct
    | entry member inside => exact keyed _ _ member within inside

theorem keyedScalar {value : Value} (scalar : value.IsScalar) : Keyed value := by
  intro entries inside
  cases inside with
  | self | item | entry => cases scalar

end DocBlocks.Value
