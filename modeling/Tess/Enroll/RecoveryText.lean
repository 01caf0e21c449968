import Tess.Enroll.Recovery
import Tess.Formats.Hex
import Tess.Formats.Text

/-!
# The recovery secret as text

`decode` reads back what `encode` shows to the user. It drops white space and hyphens by character,
and then takes the bytes of what is left in pairs, so that it may read past the end of the last
pair; an index out of range is a panic, and is `none` here.

`decode_spec` says which texts it accepts, and that none makes it panic.
-/

namespace Tess

open Files Text Hex

namespace Recovery

/-- A computation that may fail, and that may panic. -/
abbrev Checked := ExceptT Error Option

def recoverySecretLen : ℕ := 32

/-- `xs[i]` panics when the index is out of range. -/
def index (xs : Bytes) (i : ℕ) : Checked Byte :=
  match xs[i]? with
  | some b => pure b
  | none => ExceptT.mk none

def hexNibble (c : Byte) : Checked Byte :=
  if 48 ≤ c ∧ c ≤ 57 then pure (c - 48)
  else if 97 ≤ c ∧ c ≤ 102 then pure (c - 97 + 10)
  else if 65 ≤ c ∧ c ≤ 70 then pure (c - 65 + 10)
  else throw ["invalid character '" ++ String.singleton (Char.ofNat c.toNat) ++
    "' in recovery secret"]

/-- The loop of `decode`. -/
def decodePairs : List Bytes → Checked Bytes
  | [] => pure []
  | pair :: rest => do
    let hi ← hexNibble (← index pair 0)
    let lo ← hexNibble (← index pair 1)
    let bytes ← decodePairs rest
    pure (((hi <<< 4) ||| lo) :: bytes)

/-- The characters that are read. -/
def significant (display : Text) : Text := display.filter fun c => !isWhitespace c && c != '-'

/-- Read a secret back, ignoring hyphens, white space and case. -/
def decode (display : String) : Checked SecretBytes := do
  let hex := significant display.toList
  if byteLen hex ≠ recoverySecretLen * 2 then
    throw ["recovery secret must be " ++ toString (recoverySecretLen * 2) ++ " hex digits, got " ++
      toString (byteLen hex)]
  decodePairs (chunks 2 (utf8 hex))

/-! ## Bytes -/

/-- A digit is read as its value. -/
theorem hexNibble_digit {c : Byte} {v : ℕ} (h : ofCode c.toNat = some v) :
    hexNibble c = pure (UInt8.ofNat v) := by
  have hdecimal : ∀ v < 10,
      (hexNibble (UInt8.ofNat (v + 48))).run = some (.ok (UInt8.ofNat v)) := by decide
  have hletter : ∀ v < 16, 10 ≤ v →
      (hexNibble (UInt8.ofNat (v + 87))).run = some (.ok (UInt8.ofNat v)) ∧
        (hexNibble (UInt8.ofNat (v + 55))).run = some (.ok (UInt8.ofNat v)) := by decide
  obtain ⟨hv, hcases⟩ := ofCode_eq_some.1 h
  rw [← UInt8.ofNat_toNat (x := c)]
  rcases hcases with ⟨hlt, hc⟩ | ⟨hge, hc | hc⟩
  · rw [hc]
    exact hdecimal v hlt
  · rw [hc]
    exact (hletter v hv hge).1
  · rw [hc]
    exact (hletter v hv hge).2

theorem hexNibble_other {c : Byte} (h : ofCode c.toNat = none) :
    ∃ e, hexNibble c = throw e := by
  have hrange : ¬ (48 ≤ c ∧ c ≤ 57) ∧ ¬ (97 ≤ c ∧ c ≤ 102) ∧ ¬ (65 ≤ c ∧ c ≤ 70) := by
    rw [ofCode] at h
    split_ifs at h with h₁ h₂ h₃
    simp only [UInt8.le_iff_toNat_le]
    exact ⟨h₁, h₂, h₃⟩
  rw [hexNibble, if_neg hrange.1, if_neg hrange.2.1, if_neg hrange.2.2]
  exact ⟨_, rfl⟩

/-- The codes spell the bytes. -/
abbrev Spells (raw bytes : Bytes) : Prop :=
  Denotes (fun b : Byte => ofCode b.toNat) raw bytes

/-- The computation does not panic, and returns what the codes spell. -/
def Reads (raw : Bytes) (x : Checked Bytes) : Prop :=
  ∃ r, x.run = some r ∧ ∀ bytes, r = .ok bytes ↔ Spells raw bytes

theorem reads_throw {raw : Bytes} {e : Error} (h : ∀ bytes, ¬ Spells raw bytes) :
    Reads raw (throw e) := by
  refine ⟨.error e, rfl, fun bytes => ⟨fun heq => ?_, fun hs => absurd hs (h bytes)⟩⟩
  cases heq

/-- The byte that two digits are put together to. -/
theorem toNat_pair {hi lo : ℕ} (hhi : hi < 16) (hlo : lo < 16) :
    ((UInt8.ofNat hi <<< 4) ||| UInt8.ofNat lo).toNat = 16 * hi + lo := by
  have hall : ∀ hi < 16, ∀ lo < 16,
      ((UInt8.ofNat hi <<< 4) ||| UInt8.ofNat lo).toNat = 16 * hi + lo := by decide
  exact hall hi hhi lo hlo

/-- **Pairs of bytes**: of an even number of bytes every pair is full, and they are read as the
bytes that they spell. -/
theorem reads_decodePairs {raw : Bytes} {n : ℕ} (hlen : raw.length = 2 * n) :
    Reads raw (decodePairs (chunks 2 raw)) := by
  induction n generalizing raw with
  | zero =>
    obtain rfl : raw = [] := List.length_eq_zero_iff.1 (by omega)
    refine ⟨.ok [], rfl, fun bytes => ⟨fun h => ?_, fun h => ?_⟩⟩
    · cases h
      exact .nil
    · cases h
      rfl
  | succ n ih =>
    obtain ⟨c, d, rest, rfl, hrest⟩ := exists_pair hlen
    obtain ⟨r, hr, hspec⟩ := ih hrest
    have hpair : [c, d].length = 2 := rfl
    have hchunks : chunks 2 (c :: d :: rest) = [c, d] :: chunks 2 rest :=
      chunks_append Nat.zero_lt_two hpair rest
    have hr' : decodePairs (chunks 2 rest) = ExceptT.mk (some r) := hr
    have h₀ : index [c, d] 0 = pure c := rfl
    have h₁ : index [c, d] 1 = pure d := rfl
    rw [hchunks, decodePairs, hr', h₀, h₁]
    simp only [pure_bind]
    cases hc : ofCode c.toNat with
    | none =>
      obtain ⟨e, he⟩ := hexNibble_other hc
      rw [he]
      refine reads_throw fun bytes h => ?_
      cases h with
      | cons hc' => simp [hc] at hc'
    | some hi =>
      rw [hexNibble_digit hc, pure_bind]
      cases hd : ofCode d.toNat with
      | none =>
        obtain ⟨e, he⟩ := hexNibble_other hd
        rw [he]
        refine reads_throw fun bytes h => ?_
        cases h with
        | cons _ hd' => simp [hd] at hd'
      | some lo =>
        rw [hexNibble_digit hd, pure_bind]
        cases r with
        | error e =>
          refine reads_throw (e := e) fun bytes h => ?_
          cases h with
          | cons _ _ _ h => cases (hspec _).2 h
        | ok bytes =>
          have hb := toNat_pair (ofCode_eq_some.1 hc).1 (ofCode_eq_some.1 hd).1
          have hrest := (hspec bytes).1 rfl
          refine ⟨_, rfl, fun bytes' => ⟨fun h => ?_, fun h => ?_⟩⟩
          · cases h
            exact .cons hc hd hb hrest
          · rw [h.unique (.cons hc hd hb hrest)]

/-! ## Characters -/

theorem toNat_lt_of_ofCode {n : ℕ} (h : (ofCode n).isSome = true) : n < 128 := by
  obtain ⟨v, hv⟩ := Option.isSome_iff_exists.1 h
  have := ofCode_eq_some.1 hv
  omega

/-- The bytes of hex digits are their codes. -/
theorem ofCode_ascii {c : Char} (h : c.toNat < 128) :
    ofCode (UInt8.ofNat c.toNat).toNat = value c := by
  have hcode : (UInt8.ofNat c.toNat).toNat = c.toNat := by
    rw [UInt8.toNat_ofNat']
    omega
  rw [hcode, value]

/-- The bytes of a text spell what its characters denote. -/
theorem spells_utf8 {hex : Text} {bytes : Bytes} :
    Spells (utf8 hex) bytes ↔ Denotes value hex bytes := by
  constructor
  · intro h
    have hascii := ascii_of_utf8 fun b hb => toNat_lt_of_ofCode (h.digits b hb)
    rw [utf8_ascii hascii, Spells, denotes_map] at h
    exact h.congr fun c hc => ofCode_ascii (hascii c hc)
  · intro h
    have hascii : ∀ c ∈ hex, c.toNat < 128 := fun c hc => toNat_lt_of_ofCode (h.digits c hc)
    rw [utf8_ascii hascii, Spells, denotes_map]
    exact h.congr fun c hc => (ofCode_ascii (hascii c hc)).symm

/-- **What `decode` reads**: it never panics, and it returns the 32 bytes that 64 digits denote. -/
theorem decode_reads (display : String) :
    ∃ r, (decode display).run = some r ∧ ∀ secret, r = .ok secret ↔
      (significant display.toList).length = 64 ∧
        Denotes value (significant display.toList) secret := by
  have hlength : ∀ secret, Denotes value (significant display.toList) secret →
      byteLen (significant display.toList) = (significant display.toList).length := by
    intro secret h
    have hascii := utf8_ascii fun c hc => toNat_lt_of_ofCode (h.digits c hc)
    rw [← length_utf8, hascii, List.length_map]
  by_cases hlen : byteLen (significant display.toList) = recoverySecretLen * 2
  · have heven := (length_utf8 _).trans (hlen.trans (Nat.mul_comm recoverySecretLen 2))
    obtain ⟨r, hr, hspec⟩ := reads_decodePairs heven
    refine ⟨r, ?_, fun secret => ?_⟩
    · rw [decode, if_neg (not_not_intro hlen)]
      exact hr
    · rw [hspec secret, spells_utf8]
      constructor
      · intro h
        exact ⟨(hlength secret h).symm.trans hlen, h⟩
      · exact And.right
  · refine ⟨_, by rw [decode, if_pos hlen]; rfl, fun secret => ⟨fun h => ?_, fun ⟨h, hd⟩ => ?_⟩⟩
    · cases h
    · exact absurd ((hlength secret hd).trans h) hlen

/-! ## The canonical form -/

/-- Lowercase digits in groups of eight. -/
def canonical (display : String) : String :=
  String.ofList (['-'].intercalate (chunks 8 ((significant display.toList).map Char.toLower)))

/-- `encode` is the loop over groups of four bytes, joined by hyphens. -/
theorem encodeChars_eq (bytes : Bytes) :
    encodeChars bytes = ['-'].intercalate ((chunks 4 bytes).map fun c => c.flatMap hexByte) := by
  induction bytes using encodeChars.induct with
  | case1 a b c d e rest ih =>
    have hgroup : [a, b, c, d].length = 4 := rfl
    have hchunks : chunks 4 (a :: b :: c :: d :: e :: rest) =
        [a, b, c, d] :: chunks 4 (e :: rest) :=
      chunks_append (by omega) hgroup (e :: rest)
    have hne : (chunks 4 (e :: rest)).map (fun c => c.flatMap hexByte) ≠ [] := by
      rw [chunks, List.length_cons, chunksFrom, if_neg (by simp)]
      simp
    rw [encodeChars, ih, hchunks, List.map_cons, List.intercalate_cons_of_ne_nil hne]
    simp
  | case2 bytes h =>
    -- At most four bytes are left, which are one group.
    rcases bytes with _ | ⟨a, _ | ⟨b, _ | ⟨c, _ | ⟨d, _ | ⟨e, rest⟩⟩⟩⟩⟩
    on_goal 6 => exact absurd rfl (h a b c d e rest)
    all_goals simp [encodeChars, chunks, chunksFrom]

theorem value_hexDigit {v : ℕ} (h : v < 16) : value (hexDigit v) = some v := by
  have hall : ∀ v < 16, value (hexDigit v) = some v := by decide
  exact hall v h

theorem hexDigit_of_value {c : Char} {v : ℕ} (h : value c = some v) : hexDigit v = c.toLower := by
  have hall : ∀ n < 128, (ofCode n).all fun v => hexDigit v = (Char.ofNat n).toLower := by decide
  have := hall c.toNat (toNat_lt_of_ofCode (by rw [← value, h]; rfl))
  rw [← value, h, Char.ofNat_toNat] at this
  simpa using this

/-- Two lowercase digits of every byte denote the bytes. -/
theorem denotes_hexByte (bytes : Bytes) : Denotes value (bytes.flatMap hexByte) bytes := by
  induction bytes with
  | nil => exact .nil
  | cons b bytes ih =>
    have hb : b.toNat < 256 := UInt8.toNat_lt b
    exact .cons (value_hexDigit (by omega)) (value_hexDigit (by omega)) (by omega) ih

/-- The digits of the bytes that digits denote are the digits in lowercase. -/
theorem flatMap_hexByte {hex : Text} {bytes : Bytes} (h : Denotes value hex bytes) :
    bytes.flatMap hexByte = hex.map Char.toLower := by
  induction h with
  | nil => rfl
  | @cons c d hi lo b hex bytes hc hd hb h ih =>
    obtain ⟨hhi, -⟩ := ofCode_eq_some.1 hc
    obtain ⟨hlo, -⟩ := ofCode_eq_some.1 hd
    have hdiv : b.toNat / 16 = hi := by omega
    have hmod : b.toNat % 16 = lo := by omega
    rw [List.flatMap_cons, ih, hexByte, hdiv, hmod, hexDigit_of_value hc, hexDigit_of_value hd]
    rfl

theorem significant_append (s t : Text) : significant (s ++ t) = significant s ++ significant t :=
  List.filter_append s t

theorem significant_hyphen (s : Text) : significant ('-' :: s) = significant s :=
  List.filter_cons_of_neg (by decide)

theorem significant_hexByte (b : Byte) : significant (hexByte b) = hexByte b := by
  have hdigit : ∀ v < 16, (!isWhitespace (hexDigit v) && hexDigit v != '-') = true := by decide
  have hb : b.toNat < 256 := UInt8.toNat_lt b
  refine List.filter_eq_self.2 fun c hc => ?_
  simp only [hexByte, List.mem_cons, List.not_mem_nil, or_false] at hc
  rcases hc with rfl | rfl
  · exact hdigit _ (by omega)
  · exact hdigit _ (by omega)

/-- What is read of an encoded secret is its digits. -/
theorem significant_encodeChars (bytes : Bytes) :
    significant (encodeChars bytes) = bytes.flatMap hexByte := by
  have hbytes : ∀ bytes : Bytes, significant (bytes.flatMap hexByte) = bytes.flatMap hexByte := by
    intro bytes
    induction bytes with
    | nil => rfl
    | cons b bytes ih => rw [List.flatMap_cons, significant_append, significant_hexByte, ih]
  induction bytes using encodeChars.induct with
  | case1 a b c d e rest ih =>
    simp only [encodeChars, significant_append, significant_hyphen, significant_hexByte, ih,
      List.flatMap_cons, List.append_assoc]
  | case2 bytes h =>
    rw [encodeChars, hbytes]
    exact h

/-- **The recovery secret as text**: every secret of 32 bytes is read back from its encoding. On
every text `decode` does not panic; it succeeds exactly when what is left without white space and
hyphens is 64 hex digits, and then returns the 32 bytes that they denote, whose encoding is the
canonical form of the text. -/
theorem decode_spec :
    (∀ secret : SecretBytes, secret.length = 32 →
        (decode (encode secret)).run = some (.ok secret)) ∧
      ∀ display : String, (decode display).run ≠ none ∧
        ((∃ secret, (decode display).run = some (.ok secret)) ↔
          (significant display.toList).length = 64 ∧
            ∀ c ∈ significant display.toList, (value c).isSome = true) ∧
        ∀ secret, (decode display).run = some (.ok secret) →
          secret.length = 32 ∧ Denotes value (significant display.toList) secret ∧
            encode secret = canonical display := by
  refine ⟨fun secret hlen => ?_, fun display => ?_⟩
  · obtain ⟨r, hr, hspec⟩ := decode_reads (encode secret)
    have hd := denotes_hexByte secret
    have hdigits : significant (encode secret).toList = secret.flatMap hexByte := by
      rw [encode, String.toList_ofList, significant_encodeChars]
    rw [hr, (hspec secret).2]
    rw [hdigits]
    exact ⟨by rw [hd.length, hlen], hd⟩
  · obtain ⟨r, hr, hspec⟩ := decode_reads display
    have hok : ∀ secret, (decode display).run = some (.ok secret) ↔ r = .ok secret := by
      intro secret
      rw [hr, Option.some_inj]
    simp only [hok, hspec]
    refine ⟨by rw [hr]; exact Option.some_ne_none r, ⟨?_, ?_⟩, ?_⟩
    · rintro ⟨secret, hlen, h⟩
      exact ⟨hlen, h.digits⟩
    · intro ⟨hlen, hdigits⟩
      obtain ⟨secret, h⟩ := exists_denotes (hlen.trans rfl : _ = 2 * 32) fun c hc => by
        obtain ⟨v, hv⟩ := Option.isSome_iff_exists.1 (hdigits c hc)
        exact ⟨v, (ofCode_eq_some.1 hv).1, hv⟩
      exact ⟨secret, hlen, h⟩
    · intro secret ⟨hlen, h⟩
      have hlen' := h.length
      refine ⟨by omega, h, ?_⟩
      rw [encode, canonical, encodeChars_eq, ← flatMap_hexByte h]
      have hgroups := chunks_flatMap (n := 4) (k := 2) (by omega) (by omega)
        (fun b : Byte => (rfl : (hexByte b).length = 2)) secret
      rw [hgroups]

theorem decode_spec_sevens :
    (decode (encode (List.replicate 32 7))).run = some (.ok (List.replicate 32 7)) :=
  decode_spec.1 _ rfl

end Recovery

end Tess
