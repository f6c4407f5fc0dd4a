/-!
Byte offsets in a text. A text is its list of characters; an offset counts the bytes of their UTF-8
form, so it falls either between two characters or inside one.
-/
namespace DocBlocks.Text

def size (s : List Char) : Nat := s.foldl (fun n c => n + c.utf8Size) 0

def dropBytes? : Nat → List Char → Option (List Char)
  | 0, s => some s
  | _ + 1, [] => none
  | n + 1, c :: rest =>
      if c.utf8Size ≤ n + 1 then dropBytes? (n + 1 - c.utf8Size) rest else none

def takeBytes : Nat → List Char → List Char := go []
where
  go (seen : List Char) : Nat → List Char → List Char
    | 0, _ => seen.reverse
    | _ + 1, [] => seen.reverse
    | n + 1, c :: rest =>
        if c.utf8Size ≤ n + 1 then go (c :: seen) (n + 1 - c.utf8Size) rest else seen.reverse

def slice (start stop : Nat) (s : List Char) : List Char :=
  takeBytes (stop - start) ((dropBytes? start s).getD [])

theorem foldl_size (s : List Char) (n : Nat) :
    s.foldl (fun n c => n + c.utf8Size) n = n + size s := by
  induction s generalizing n with
  | nil => rfl
  | cons c s ih =>
      simp only [size, List.foldl_cons, Nat.zero_add]
      rw [ih, ih c.utf8Size]
      omega

@[simp] theorem size_nil : size [] = 0 := rfl

@[simp] theorem size_cons (c : Char) (s : List Char) : size (c :: s) = c.utf8Size + size s := by
  simp [size, foldl_size s c.utf8Size]

@[simp] theorem size_append (s t : List Char) : size (s ++ t) = size s + size t := by
  induction s with
  | nil => simp
  | cons c s ih => simp [ih, Nat.add_assoc]

theorem dropBytes?_append (s t : List Char) : dropBytes? (size s) (s ++ t) = some t := by
  induction s with
  | nil => simp [dropBytes?]
  | cons c s ih =>
      have positive := c.utf8Size_pos
      obtain ⟨n, hn⟩ : ∃ n, c.utf8Size + size s = n + 1 := ⟨c.utf8Size + size s - 1, by omega⟩
      rw [size_cons, hn, List.cons_append, dropBytes?, ← hn]
      simp [ih]

end DocBlocks.Text
