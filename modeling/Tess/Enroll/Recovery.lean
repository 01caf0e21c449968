import Tess.Enroll.Calls
import Tess.Formats.Base64

/-!
# The recovery backup

The keyring key is sealed under a key derived from the recovery secret, and the result is written
to `recovery.json`. The recovery secret also determines the authValue of the TPM's lockout
hierarchy. This module follows `enroll/recovery.rs`: derivations, wrapping and unwrapping, the
secret as the user sees it, and the writers of private files.
-/

namespace Tess

open Files Effects

/-- What an enrollment draws at random: by the process, and by the TPM when it seals. -/
structure Draws where
  key : SecretBytes
  key_length : key.length = 32
  recoverySecret : SecretBytes
  recoverySecret_length : recoverySecret.length = 32
  salt : Bytes
  salt_length : salt.length = 16
  nonce : Bytes
  nonce_length : nonce.length = 24
  aFace : SecretBytes
  aFace_length : aFace.length = 32
  pinEntropy : Bytes
  faceEntropy : Bytes

namespace Recovery

def saltLen : ℕ := 16

def nonceLen : ℕ := 24

def kekLen : ℕ := 32

def wrappedKeyLen : ℕ := 32

def wrappedCiphertextLen : ℕ := wrappedKeyLen + 16

def lockoutAuthLen : ℕ := 32

def blobVersion : ℕ := 1

/-- The bytes of an ASCII string. -/
def ascii (s : String) : Bytes := s.toList.map fun c => UInt8.ofNat c.toNat

def hkdfInfo : Bytes := ascii "tess recovery key-encryption key v1"

def lockoutAuthInfo : Bytes := ascii "tess-lockout-auth-v1"

/-! ## The secret as text -/

def hexDigit (n : ℕ) : Char :=
  if n < 10 then Char.ofNat (n + 48) else Char.ofNat (n + 87)

/-- `{b:02x}`. -/
def hexByte (b : Byte) : List Char := [hexDigit (b.toNat / 16), hexDigit (b.toNat % 16)]

/-- Groups of four bytes in lowercase hex, separated by hyphens. -/
def encodeChars : Bytes → List Char
  | a :: b :: c :: d :: e :: rest =>
    hexByte a ++ hexByte b ++ hexByte c ++ hexByte d ++ '-' :: encodeChars (e :: rest)
  | bytes => bytes.flatMap hexByte

def encode (secret : SecretBytes) : String := String.ofList (encodeChars secret)

/-! ## Derivation and wrapping -/

variable (E : Primitives)

def generateRecoverySecret (draws : Draws) : Io SecretBytes :=
  getrandom draws.recoverySecret fun e => ["draw recovery secret from CSPRNG: " ++ e]

def deriveKek (recovery : SecretBytes) (salt : Bytes) : Except Error Bytes :=
  (E.hkdf (some salt) recovery hkdfInfo kekLen).mapError fun e =>
    ["derive recovery key-encryption key: " ++ e]

def deriveLockoutAuth (recovery : SecretBytes) : Except Error SecretBytes :=
  (E.hkdf none recovery lockoutAuthInfo lockoutAuthLen).mapError fun e =>
    ["derive lockout authValue: " ++ e]

/-- The blob that wraps `key` under `recovery` with a given salt and nonce. -/
def wrapWith (key recovery : SecretBytes) (salt nonce : Bytes) : Except Error RecoveryBlob := do
  let kek ← deriveKek E recovery salt
  let ciphertext ← (E.encrypt kek nonce key).mapError fun e =>
    ["seal keyring key under recovery secret: " ++ e]
  pure { version := blobVersion, salt := Base64.encode salt, nonce := Base64.encode nonce,
         ciphertext := Base64.encode ciphertext }

def wrapKey (draws : Draws) (key recovery : SecretBytes) : Io RecoveryBlob := do
  ensure (key.length = wrappedKeyLen) ["recovery wrap expects a " ++ toString wrappedKeyLen ++
    "-byte key, got " ++ toString key.length]
  let salt ← getrandom draws.salt fun e => ["draw recovery salt: " ++ e]
  let nonce ← getrandom draws.nonce fun e => ["draw recovery nonce: " ++ e]
  ofExcept (wrapWith E key recovery salt nonce)

/-- Decode a field of a fixed size, bounding the encoded length first. -/
def decodeExact (encoded : Utf8) (expected : ℕ) (field : String) : Except Error Bytes := do
  let maxEncoded := (expected + 2) / 3 * 4 + 4
  if encoded.length > maxEncoded then
    throw ["recovery " ++ field ++ " is too long (" ++ toString encoded.length ++
      " chars; expected <= " ++ toString maxEncoded ++ ")"]
  match Base64.decode encoded with
  | none => throw ["decode recovery " ++ field ++ ": invalid base64"]
  | some bytes =>
    if bytes.length = expected then pure bytes
    else throw ["recovery " ++ field ++ " must be " ++ toString expected ++ " bytes, got " ++
      toString bytes.length]

def unwrapKey (blob : RecoveryBlob) (recovery : SecretBytes) : Except Error SecretBytes := do
  if blob.version ≠ blobVersion then
    throw ["unsupported recovery blob version " ++ toString blob.version ++ " (expected " ++
      toString blobVersion ++ ")"]
  let salt ← decodeExact blob.salt saltLen "salt"
  let nonce ← decodeExact blob.nonce nonceLen "nonce"
  let ciphertext ← decodeExact blob.ciphertext wrappedCiphertextLen "ciphertext"
  let kek ← deriveKek E recovery salt
  match E.decrypt kek nonce ciphertext with
  | some key => pure key
  | none => throw ["recovery secret did not match (or the recovery blob is corrupt)"]

/-! ## Files -/

variable (proc : Process)

/-- Replace a private file: a new sibling, written and synced, then renamed. -/
def replaceFile (a : Artifact) (bytes : Bytes) : Io Unit := do
  let dir := Path.parent (.main a)
  ioContext ("create " ++ proc.display dir) (createDirAll dir)
  let tmp ← tempSibling proc a
  ioContext ("write " ++ proc.display tmp) (writePrivate tmp bytes)
  publish tmp a
    (fun e => ["rename " ++ proc.display tmp ++ " -> " ++ proc.display (.main a) ++ ": " ++
      e.display])
    (fun e => ["sync parent dir of " ++ proc.display (.main a), e.display])

def saveBlob (blob : RecoveryBlob) : Io Unit := do
  let json ← ofExcept ((E.blobJson.toVecPretty blob).mapError fun e =>
    ["serialize recovery blob", e])
  replaceFile proc .recovery json

def writeDurableMarker : Io Unit := replaceFile proc .lockoutOwned []

def writeSecretFile (a : Artifact) (secret : SecretBytes) : Io Unit := replaceFile proc a secret

/-- `{:#o}`. -/
def octal (n : ℕ) : String := "0o" ++ String.ofList (Nat.toDigits 8 n)

/-- Read a secret file, refusing one that others may access. -/
def readSecretFile (a : Artifact) : Io SecretBytes := do
  let path := proc.display (.main a)
  let found ← ioContext ("stat " ++ path) (metadata (.main a))
  let mode := found.mode &&& 0o777
  ensure (mode &&& 0o077 = 0) [path ++ " has insecure permissions " ++ octal mode ++
    "; expected no group/other access (e.g. 0600). Fix with: chmod 600 " ++ path]
  ioContext ("read " ++ path) (read (.main a))

def loadBlob : Io RecoveryBlob := do
  let path := proc.display (.main .recovery)
  let bytes ← ioContext ("read " ++ path) (read (.main .recovery))
  let blob ← ofExcept ((E.blobJson.fromSlice bytes).mapError fun e => ["parse " ++ path, e])
  ensure (blob.version = blobVersion) ["unsupported recovery blob version " ++
    toString blob.version ++ " in " ++ path]
  pure blob

end Recovery

end Tess
