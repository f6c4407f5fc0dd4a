import DocBlocks.Text.Offset

/-! What stands between two offsets of a text that is put together from parts, and which offsets fall
between two of its characters. -/
namespace DocBlocks.Text

theorem takeBytesAppend (a b : List Char) : takeBytes (size a) (a ++ b) = a := by
  have from' : ∀ seen : List Char, takeBytes.go seen (size a) (a ++ b) = seen.reverse ++ a := by
    induction a with
    | nil => intro seen; simp [takeBytes.go]
    | cons c a ih =>
        intro seen
        have positive := c.utf8Size_pos
        obtain ⟨n,whole⟩ : ∃ n, c.utf8Size + size a = n + 1 := ⟨c.utf8Size + size a - 1,by omega⟩
        rw [size_cons, whole, List.cons_append, takeBytes.go, ← whole]
        simp [ih]
  exact from' []

theorem sliceMiddle (a b rest : List Char) :
    slice (size a) (size a + size b) (a ++ (b ++ rest)) = b := by
  rw [slice, dropBytes?_append, Nat.add_sub_cancel_left]
  exact takeBytesAppend b rest

theorem sizeZero {text : List Char} (zero : size text = 0) : text = [] := by
  cases text with
  | nil => rfl
  | cons c text =>
      have positive := c.utf8Size_pos
      rw [size_cons] at zero
      omega

def Boundary (text : List Char) (offset : Nat) : Prop :=
  ∃ before rest, text = before ++ rest ∧ offset = size before

theorem dropBytesSome {offset : Nat} {text rest : List Char} :
    dropBytes? offset text = some rest ↔ ∃ before, text = before ++ rest ∧ offset = size before := by
  constructor
  · intro dropped
    induction text generalizing offset with
    | nil =>
        cases offset with
        | zero => exact ⟨[],by simpa [dropBytes?] using dropped,rfl⟩
        | succ n => cases dropped
    | cons c text ih =>
        cases offset with
        | zero => exact ⟨[],by simpa [dropBytes?] using dropped,rfl⟩
        | succ n =>
            rw [dropBytes?] at dropped
            split at dropped
            · rename_i fits
              obtain ⟨before,rfl,left⟩ := ih dropped
              refine ⟨c :: before,rfl,?_⟩
              rw [size_cons]
              omega
            · cases dropped
  · intro found
    obtain ⟨before,rfl,rfl⟩ := found
    exact dropBytes?_append before rest

theorem dropBytesNone {offset : Nat} {text : List Char} :
    dropBytes? offset text = none ↔ ¬ Boundary text offset := by
  constructor
  · intro none between
    obtain ⟨before,rest,whole,same⟩ := between
    rw [dropBytesSome.mpr ⟨before,whole,same⟩] at none
    cases none
  · intro inside
    cases dropped : dropBytes? offset text with
    | none => rfl
    | some rest =>
        obtain ⟨before,whole,same⟩ := dropBytesSome.mp dropped
        exact absurd ⟨before,rest,whole,same⟩ inside

theorem sizeFilled {text : List Char} (filled : text ≠ []) : 0 < size text := by
  cases text with
  | nil => exact absurd rfl filled
  | cons c text =>
      have positive := c.utf8Size_pos
      rw [size_cons]
      omega

end DocBlocks.Text
