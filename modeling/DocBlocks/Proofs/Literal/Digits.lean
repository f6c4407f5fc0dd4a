import DocBlocks.Decimal.Reading
import DocBlocks.Text.Quoted

/-! Digits read back as the number for which they were written, in base ten and in base sixteen. -/
namespace DocBlocks.Decimal

theorem digitOfCore {c : Char} (h : c.isDigit = true) : isDigit c = true := by
  simpa [Char.isDigit, isDigit, Char.le_def] using h

theorem digitsWritten (n : Nat) : ∀ c ∈ Nat.toDigits 10 n, isDigit c = true := by
  intro c hc
  exact digitOfCore (Nat.isDigit_of_mem_toDigits (by decide) (by decide) hc)

theorem natOfDigits (n : Nat) : natOf (Nat.toDigits 10 n) = n := by
  have read := Nat.ofDigitChars_ten_toDigits (n := n)
  rw [Nat.ofDigitChars_eq_foldl] at read
  exact read

end DocBlocks.Decimal

namespace DocBlocks.Text.Quoted

theorem hexValueWritten : ∀ d < 16, hexValue? (Nat.digitChar d) = some d := by decide

theorem hexOntoAppend (n : Nat) (a b : List Char) :
    hexOnto n (a ++ b) = (hexOnto n a).bind (hexOnto · b) := by
  induction a generalizing n with
  | nil => rfl
  | cons c a ih =>
      simp only [List.cons_append, hexOnto]
      cases hexValue? c with
      | none => rfl
      | some d =>
          dsimp only
          split
          · exact ih _
          · rfl

theorem hexOntoDigit {n d : Nat} (digit : d < 16) (small : 16 * n + d < 0x100000000) :
    hexOnto n [Nat.digitChar d] = .ok (16 * n + d) := by
  rw [hexOnto, hexValueWritten d digit]
  dsimp only
  rw [if_pos small, hexOnto]

theorem hexOntoWritten (n : Nat) (small : n < 0x100000000) : hexOnto 0 (hex n) = .ok n := by
  induction n using Nat.strongRecOn with
  | ind n ih =>
      unfold hex at ih ⊢
      by_cases single : n < 16
      · rw [Nat.toDigits_of_lt_base single]
        simpa using hexOntoDigit single (n := 0) (by omega)
      · have front := ih (n / 16) (by omega) (by omega)
        rw [Nat.toDigits_of_base_le (by decide) (by omega), hexOntoAppend, front]
        have last := hexOntoDigit (n := n / 16) (d := n % 16) (by omega) (by omega)
        simpa only [Except.bind, Nat.div_add_mod] using last

theorem hexDigitOf {n : Nat} {c : Char} (h : c ∈ hex n) : ∃ d < 16, c = Nat.digitChar d := by
  induction n using Nat.strongRecOn with
  | ind n ih =>
      unfold hex at ih h
      by_cases single : n < 16
      · rw [Nat.toDigits_of_lt_base single] at h
        exact ⟨n, single, by simpa using h⟩
      · rw [Nat.toDigits_of_base_le (by decide) (by omega)] at h
        rcases List.mem_append.mp h with front | last
        · exact ih (n / 16) (by omega) front
        · exact ⟨n % 16, by omega, by simpa using last⟩

theorem hexPlain {n : Nat} {c : Char} (h : c ∈ hex n) :
    c ≠ '+' ∧ c ≠ '}' ∧ c ≠ '"' ∧ c ≠ '\\' ∧ c ≠ '\n' := by
  have plain : ∀ d < 16, Nat.digitChar d ≠ '+' ∧ Nat.digitChar d ≠ '}' ∧
      Nat.digitChar d ≠ '"' ∧ Nat.digitChar d ≠ '\\' ∧ Nat.digitChar d ≠ '\n' := by decide
  obtain ⟨d, small, rfl⟩ := hexDigitOf h
  exact plain d small

theorem hexNumberWritten (n : Nat) (small : n < 0x100000000) : hexNumber (hex n) = .ok n := by
  have read := hexOntoWritten n small
  cases digits : hex n with
  | nil => exact absurd digits Nat.toDigits_ne_nil
  | cons c rest =>
      have plain := hexPlain (n := n) (c := c) (by simp [digits])
      rw [digits] at read
      unfold hexNumber
      split
      · contradiction
      · rename_i same; cases same; exact absurd rfl plain.1
      · rename_i same; cases same; exact absurd rfl plain.1
      · exact read

theorem codePointWritten (c : Char) : codePoint (hex c.toNat) = .ok c := by
  have small : c.toNat < 0x100000000 := c.val.toNat_lt
  have valid : c.toNat.isValidChar := c.valid
  unfold codePoint
  rw [hexNumberWritten c.toNat small]
  exact dif_pos valid

end DocBlocks.Text.Quoted
