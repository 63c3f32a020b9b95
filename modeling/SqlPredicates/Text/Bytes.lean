/-!
# Characters and their UTF-8 bytes

Positions in a text are byte offsets into its UTF-8 form, while the readers work on lists of
characters. This module relates the two: how many bytes a list of characters takes, and where a byte
offset cuts it. An offset inside a character cuts before that character, and an offset past the end
cuts at the end.

## Main definitions

* `Text.bytes` — the UTF-8 length of a list of characters
* `Text.takeBytes`, `Text.dropBytes` — the two sides of a cut at a byte offset
-/

namespace SqlPredicates

namespace Text

/-- The number of bytes of the UTF-8 form of a list of characters. -/
def bytes : List Char → Nat
  | [] => 0
  | c :: cs => c.utf8Size + bytes cs

/-- The characters that end at or before byte offset `n`. -/
def takeBytes : Nat → List Char → List Char
  | _, [] => []
  | n, c :: cs => if c.utf8Size ≤ n then c :: takeBytes (n - c.utf8Size) cs else []

/-- The characters that do not end at or before byte offset `n`. -/
def dropBytes : Nat → List Char → List Char
  | _, [] => []
  | n, c :: cs => if c.utf8Size ≤ n then dropBytes (n - c.utf8Size) cs else c :: cs

@[simp] theorem bytes_nil : bytes [] = 0 := rfl

@[simp] theorem bytes_cons (c : Char) (cs : List Char) :
    bytes (c :: cs) = c.utf8Size + bytes cs := rfl

@[simp] theorem bytes_append (xs ys : List Char) : bytes (xs ++ ys) = bytes xs + bytes ys := by
  induction xs with
  | nil => simp
  | cons c cs ih => simp [ih, Nat.add_assoc]

/-- A cut loses nothing. -/
theorem takeBytes_append_dropBytes (n : Nat) (cs : List Char) :
    takeBytes n cs ++ dropBytes n cs = cs := by
  induction cs generalizing n with
  | nil => rfl
  | cons c cs ih => by_cases h : c.utf8Size ≤ n <;> simp [takeBytes, dropBytes, h, ih]

end Text

end SqlPredicates
