import Tess.Files.Disk
import Mathlib.Data.Nat.Notation

/-!
# What tess takes from elsewhere

The persisted records, and the functions of other packages that the program calls: HKDF, the AEAD
cipher, the JSON serializer, the TPM structure marshaller and the TPM's own sealing. They are the
fields of `Primitives`, each with what its documentation promises; nothing is assumed of the
bytes they produce beyond that.

A Rust `String` that is stored or measured is its UTF-8 bytes; a message is a `String`. An
`anyhow` error is its chain of messages, outermost context first.
-/

namespace Tess

open Files

abbrev SecretBytes := Bytes

abbrev Utf8 := Bytes

abbrev Error := List String

/-- How `{e:#}` renders an error: the whole chain, separated by colons. -/
def Error.render (e : Error) : String := ": ".intercalate e

/-- How `{e}` renders an error: the outermost message only. -/
def Error.outer (e : Error) : String := e.headD ""

/-! ## Records -/

/-- A `TPMT_PUBLIC` area, as its contents. -/
structure Public where
  contents : Bytes
  deriving DecidableEq

structure SealedObject where
  pub : Public
  priv : Bytes
  primaryName : Bytes
  deriving DecidableEq

inductive Policy where
  | pinAuthValue
  deriving DecidableEq

structure Metadata where
  version : ℕ
  policy : Policy
  sealedPublic : Utf8
  sealedPrivate : Utf8
  primaryName : Utf8
  deriving DecidableEq

structure RecoveryBlob where
  version : ℕ
  salt : Utf8
  nonce : Utf8
  ciphertext : Utf8
  deriving DecidableEq

/-- A face template: its schema version, and the embedding, thresholds, calibration and date, which
the store only carries. -/
structure FaceEnrollment where
  version : ℕ
  contents : Bytes
  deriving DecidableEq

/-! ## Primitives -/

/-- A JSON serializer and parser for one record type. -/
structure Json (α : Type) where
  toVecPretty : α → Except String Bytes
  fromSlice : Bytes → Except String α
  fromSlice_toVecPretty {a : α} {bytes : Bytes} (h : toVecPretty a = .ok bytes) :
    fromSlice bytes = .ok a

/-- The longest output HKDF-SHA256 expands to. -/
def hkdfMax : ℕ := 255 * 32

/-- The functions of other packages, with what they promise. -/
structure Primitives where
  /-- HKDF-SHA256: salt, input key material, info, output length. -/
  hkdf : Option Bytes → Bytes → Bytes → ℕ → Except String Bytes
  hkdf_ok (salt : Option Bytes) (ikm info : Bytes) {len : ℕ} (h : len ≤ hkdfMax) :
    ∃ okm, hkdf salt ikm info len = .ok okm ∧ okm.length = len
  /-- XChaCha20-Poly1305: key, nonce, plaintext. -/
  encrypt : Bytes → Bytes → Bytes → Except String Bytes
  decrypt : Bytes → Bytes → Bytes → Option Bytes
  encrypt_length {key nonce plaintext ciphertext : Bytes}
    (h : encrypt key nonce plaintext = .ok ciphertext) :
    ciphertext.length = plaintext.length + 16
  decrypt_encrypt {key nonce plaintext ciphertext : Bytes}
    (h : encrypt key nonce plaintext = .ok ciphertext) :
    decrypt key nonce ciphertext = some plaintext
  /-- A ciphertext that decrypts, decrypts to what was encrypted. -/
  decrypt_correct {key key' nonce plaintext plaintext' ciphertext : Bytes}
    (h : encrypt key nonce plaintext = .ok ciphertext)
    (h' : decrypt key' nonce ciphertext = some plaintext') : plaintext' = plaintext
  blobJson : Json RecoveryBlob
  metadataJson : Json Metadata
  enrollmentJson : FaceEnrollment → Except String Bytes
  /-- How `{:?}` writes a text. -/
  debug : String → String
  /-- The wire form of a `TPMT_PUBLIC`. -/
  marshall : Public → Except String Bytes
  unmarshall : Bytes → Except String Public
  unmarshall_marshall {p : Public} {bytes : Bytes} (h : marshall p = .ok bytes) :
    unmarshall bytes = .ok p
  /-- The check `Private::try_from` makes on a buffer. -/
  privateTryFrom : Bytes → Except String Bytes
  /-- The Name of the storage primary of a TPM with a given seed. -/
  primaryName : ℕ → Bytes
  primaryName_ne_nil (seed : ℕ) : primaryName seed ≠ []
  /-- `TPM2_Create` under the storage primary: seed, the TPM's own randomness, authValue, data. -/
  create : ℕ → Bytes → Bytes → Bytes → Public × Bytes
  /-- `TPM2_Load` and `TPM2_Unseal`. -/
  unsealData : ℕ → Public → Bytes → Bytes → Option Bytes
  privateTryFrom_create (seed : ℕ) (entropy auth data : Bytes) :
    privateTryFrom (create seed entropy auth data).2 = .ok (create seed entropy auth data).2
  unsealData_create (seed : ℕ) (entropy auth data : Bytes) :
    unsealData seed (create seed entropy auth data).1 (create seed entropy auth data).2 auth =
      some data
  /-- An object that unseals, unseals to what was sealed, and only on the TPM it was sealed on. -/
  unsealData_correct {seed seed' : ℕ} {entropy auth auth' data data' : Bytes}
    (h : unsealData seed' (create seed entropy auth data).1 (create seed entropy auth data).2 auth' =
      some data') : seed' = seed ∧ data' = data

end Tess
