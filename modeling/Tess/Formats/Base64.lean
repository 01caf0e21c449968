import Mathlib.Data.Nat.Notation
import Mathlib.Data.Option.Basic

/-!
# Standard base64, with padding

Three bytes are written as four characters of the standard alphabet, and a last group of one or two
bytes is padded with `=`. The decoder is strict: it accepts only whole groups of four, padding
only at the end, and only zero bits under the padding. `decode_encode` is the round trip, and
`length_encode` the size of the encoded form.
-/

namespace Base64

/-- The padding character. -/
def pad : UInt8 := 61

/-- The character of a six-bit value: `A`–`Z`, `a`–`z`, `0`–`9`, `+`, `/`. -/
def character (v : ℕ) : UInt8 :=
  if v < 26 then UInt8.ofNat (v + 65)
  else if v < 52 then UInt8.ofNat (v + 71)
  else if v < 62 then UInt8.ofNat (v - 4)
  else if v = 62 then 43
  else 47

/-- The six-bit value of a character of the alphabet. -/
def value (c : UInt8) : Option ℕ :=
  if 65 ≤ c.toNat ∧ c.toNat < 91 then some (c.toNat - 65)
  else if 97 ≤ c.toNat ∧ c.toNat < 123 then some (c.toNat - 71)
  else if 48 ≤ c.toNat ∧ c.toNat < 58 then some (c.toNat + 4)
  else if c = 43 then some 62
  else if c = 47 then some 63
  else none

theorem value_character {v : ℕ} (h : v < 64) : value (character v) = some v := by
  have : ∀ v < 64, value (character v) = some v := by decide
  exact this v h

theorem character_ne_pad {v : ℕ} (h : v < 64) : character v ≠ pad := by
  have : ∀ v < 64, character v ≠ pad := by decide
  exact this v h

def encode : List UInt8 → List UInt8
  | [] => []
  | [a] => [character (a.toNat / 4), character (a.toNat % 4 * 16), pad, pad]
  | [a, b] =>
    [character (a.toNat / 4), character (a.toNat % 4 * 16 + b.toNat / 16),
      character (b.toNat % 16 * 4), pad]
  | a :: b :: c :: rest =>
    character (a.toNat / 4) :: character (a.toNat % 4 * 16 + b.toNat / 16) ::
      character (b.toNat % 16 * 4 + c.toNat / 64) :: character (c.toNat % 64) :: encode rest

/-- The bytes of a group, from the six-bit values that share them. -/
def firstByte (w x : ℕ) : UInt8 := UInt8.ofNat (w * 4 + x / 16)

def secondByte (x y : ℕ) : UInt8 := UInt8.ofNat (x % 16 * 16 + y / 4)

def thirdByte (y z : ℕ) : UInt8 := UInt8.ofNat (y % 4 * 64 + z)

/-- The bytes of a last group, which may be padded. -/
def decodeLast (w x y z : UInt8) : Option (List UInt8) := do
  let w ← value w
  let x ← value x
  if y = pad ∧ z = pad then
    if x % 16 = 0 then some [firstByte w x] else none
  else
    let y ← value y
    if z = pad then
      if y % 4 = 0 then some [firstByte w x, secondByte x y] else none
    else
      let z ← value z
      some [firstByte w x, secondByte x y, thirdByte y z]

def decode : List UInt8 → Option (List UInt8)
  | [] => some []
  | [w, x, y, z] => decodeLast w x y z
  | w :: x :: y :: z :: rest => do
    let w ← value w
    let x ← value x
    let y ← value y
    let z ← value z
    let bytes ← decode rest
    some (firstByte w x :: secondByte x y :: thirdByte y z :: bytes)
  | _ => none

theorem length_encode (bytes : List UInt8) :
    (encode bytes).length = (bytes.length + 2) / 3 * 4 := by
  induction bytes using encode.induct with
  | case1 => rfl
  | case2 a => simp [encode]
  | case3 a b => simp [encode]
  | case4 a b c rest ih =>
    simp only [encode, List.length_cons, ih]
    omega

theorem encode_eq_nil {bytes : List UInt8} (h : encode bytes = []) : bytes = [] := by
  have := length_encode bytes
  rw [h, List.length_nil] at this
  exact List.length_eq_zero_iff.mp (by omega)

section Group

variable (a b c : UInt8)

theorem firstByte_encoded (r : ℕ) (hr : r < 16) :
    firstByte (a.toNat / 4) (a.toNat % 4 * 16 + r) = a := by
  have : a.toNat / 4 * 4 + (a.toNat % 4 * 16 + r) / 16 = a.toNat := by omega
  rw [firstByte, this, UInt8.ofNat_toNat]

theorem secondByte_encoded (r s : ℕ) (hs : s < 4) :
    secondByte (r * 16 + b.toNat / 16) (b.toNat % 16 * 4 + s) = b := by
  have hb := b.toNat_lt
  have : (r * 16 + b.toNat / 16) % 16 * 16 + (b.toNat % 16 * 4 + s) / 4 = b.toNat := by omega
  rw [secondByte, this, UInt8.ofNat_toNat]

theorem thirdByte_encoded (r : ℕ) : thirdByte (r * 4 + c.toNat / 64) (c.toNat % 64) = c := by
  have hc := c.toNat_lt
  have : (r * 4 + c.toNat / 64) % 4 * 64 + c.toNat % 64 = c.toNat := by omega
  rw [thirdByte, this, UInt8.ofNat_toNat]

/-- The four six-bit values of a group. -/
theorem group_lt (a b c : UInt8) :
    a.toNat / 4 < 64 ∧ a.toNat % 4 * 16 + b.toNat / 16 < 64 ∧
      b.toNat % 16 * 4 + c.toNat / 64 < 64 ∧ c.toNat % 64 < 64 := by
  have ha := a.toNat_lt
  have hb := b.toNat_lt
  have hc := c.toNat_lt
  omega

end Group

/-- **Decoding undoes encoding.** -/
theorem decode_encode (bytes : List UInt8) : decode (encode bytes) = some bytes := by
  induction bytes using encode.induct with
  | case1 => rfl
  | case2 a =>
    obtain ⟨h₁, h₂, -, -⟩ := group_lt a 0 0
    have hx : a.toNat % 4 * 16 < 64 := by omega
    have h := firstByte_encoded a 0 (by omega)
    simp only [Nat.add_zero] at h
    simp [encode, decode, decodeLast, value_character h₁, value_character hx, h]
  | case3 a b =>
    obtain ⟨h₁, h₂, h₃, -⟩ := group_lt a b 0
    have hy : b.toNat % 16 * 4 < 64 := by omega
    have h := secondByte_encoded b (a.toNat % 4) 0 (by omega)
    simp only [Nat.add_zero] at h
    have ha := firstByte_encoded a (b.toNat / 16) (by have := b.toNat_lt; omega)
    simp [encode, decode, decodeLast, value_character h₁, value_character h₂, value_character hy,
      character_ne_pad hy, ha, h]
  | case4 a b c rest ih =>
    obtain ⟨h₁, h₂, h₃, h₄⟩ := group_lt a b c
    have ha := firstByte_encoded a (b.toNat / 16) (by have := b.toNat_lt; omega)
    have hb := secondByte_encoded b (a.toNat % 4) (c.toNat / 64) (by have := c.toNat_lt; omega)
    have hc := thirdByte_encoded c (b.toNat % 16)
    cases hr : encode rest with
    | nil =>
      -- the group is the last one, but a full one
      obtain rfl := encode_eq_nil hr
      simp [encode, decode, decodeLast, value_character h₁, value_character h₂,
        value_character h₃, value_character h₄, character_ne_pad h₃, character_ne_pad h₄,
        ha, hb, hc]
    | cons r rs =>
      rw [hr] at ih
      simp [encode, decode, hr, value_character h₁, value_character h₂, value_character h₃,
        value_character h₄, ih, ha, hb, hc]

example : decode (encode [102, 111, 111, 98]) = some [102, 111, 111, 98] := by decide

end Base64
