import Tess.Formats.Text

/-!
# Lossy decoding

Text from bytes that need not be text: what is not the start of a character is replaced. The bytes
that one replacement stands for are the longest start of a character, or a single byte.
-/

namespace Text

/-- U+FFFD. -/
def replacement : Char := Char.ofNat 0xFFFD

def isContinuation (b : UInt8) : Bool := 0x80 ≤ b ∧ b ≤ 0xBF

/-- The second byte of a character of three or four bytes, by the first. -/
def isSecond (first b : UInt8) : Bool :=
  if first = 0xE0 then 0xA0 ≤ b ∧ b ≤ 0xBF
  else if first = 0xED then 0x80 ≤ b ∧ b ≤ 0x9F
  else if first = 0xF0 then 0x90 ≤ b ∧ b ≤ 0xBF
  else if first = 0xF4 then 0x80 ≤ b ∧ b ≤ 0x8F
  else (0xE1 ≤ first ∧ first ≤ 0xF3) ∧ isContinuation b

/-- How many bytes are replaced, where no character starts. -/
def brokenLen : List UInt8 → ℕ
  | a :: b :: bytes =>
    if isSecond a b then if 0xF0 ≤ a ∧ bytes.head?.any isContinuation then 3 else 2 else 1
  | _ => 1

/-- The characters of so many steps. -/
def lossySteps : ℕ → List UInt8 → Text
  | 0, _ | _, [] => []
  | n + 1, bytes =>
    match bytes.toByteArray.utf8DecodeChar? 0 with
    | some c => c :: lossySteps n (bytes.drop c.utf8Size)
    | none => replacement :: lossySteps n (bytes.drop (brokenLen bytes))

def fromUtf8Lossy (bytes : List UInt8) : Text := lossySteps bytes.length bytes

theorem lossySteps_utf8 {n : ℕ} {s : Text} (hn : s.length ≤ n) : lossySteps n (utf8 s) = s := by
  induction s generalizing n with
  | nil => cases n <;> rfl
  | cons c s ih =>
    obtain _ | n := n
    · simp at hn
    have hsplit : utf8 (c :: s) = String.utf8EncodeChar c ++ utf8 s := rfl
    have hdecode : (utf8 (c :: s)).toByteArray.utf8DecodeChar? 0 = some c := by
      rw [hsplit, List.toByteArray_append]
      exact ByteArray.utf8DecodeChar?_utf8EncodeChar_append
    have hrest : (utf8 (c :: s)).drop c.utf8Size = utf8 s := by
      rw [hsplit, ← String.length_utf8EncodeChar, List.drop_left]
    have hne : utf8 (c :: s) ≠ [] := by
      intro h
      have := congrArg List.length h
      have := c.utf8Size_pos
      simp [length_utf8] at *
      omega
    rw [lossySteps, hdecode]
    · simp only [hrest, ih (Nat.le_of_succ_le_succ hn)]
    · exact hne

/-- Text is decoded to itself. -/
@[simp] theorem fromUtf8Lossy_utf8 (s : Text) : fromUtf8Lossy (utf8 s) = s := by
  apply lossySteps_utf8
  induction s with
  | nil => exact Nat.zero_le _
  | cons c s ih =>
    have := c.utf8Size_pos
    rw [length_utf8] at ih ⊢
    simp only [List.length_cons, byteLen_cons]
    omega

end Text
