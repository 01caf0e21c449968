import Tess.Enroll.Transaction

/-!
# A model of the primitives

`Primitives` can be satisfied: a key derivation that pads or cuts its input, a cipher that appends
the first bytes of the key as a tag, records written as escaped byte strings, and a TPM that stores
an object next to its authValue and seed. They are as good as the real ones wherever a run uses one
secret for one purpose, and they compute, so that single runs can be followed to their end.
-/

namespace Tess

open Files Effects

/-! ## Escaped byte strings -/

/-- A byte string that says where it ends. -/
def escape : Bytes → Bytes
  | [] => [0]
  | b :: bytes => 1 :: b :: escape bytes

/-- The byte string at the front, and what follows it. -/
def unescape : Bytes → Option (Bytes × Bytes)
  | 0 :: rest => some ([], rest)
  | 1 :: b :: rest => (unescape rest).map fun r => (b :: r.1, r.2)
  | _ => none

theorem unescape_escape (bytes rest : Bytes) :
    unescape (escape bytes ++ rest) = some (bytes, rest) := by
  induction bytes with
  | nil => rfl
  | cons b bytes ih => simp [escape, unescape, ih]

/-- Several byte strings, one after another. -/
def escapeAll (fields : List Bytes) : Bytes := fields.flatMap escape

def unescapeAll : ℕ → Bytes → Option (List Bytes)
  | 0, _ => some []
  | n + 1, bytes => do
    let (field, rest) ← unescape bytes
    let fields ← unescapeAll n rest
    some (field :: fields)

theorem unescapeAll_escapeAll (fields : List Bytes) :
    unescapeAll fields.length (escapeAll fields) = some fields := by
  induction fields with
  | nil => rfl
  | cons field fields ih =>
    have ih : unescapeAll fields.length (fields.flatMap escape) = some fields := ih
    simp [escapeAll, unescapeAll, unescape_escape, ih]

/-- A number, in unary. -/
def unary (n : ℕ) : Bytes := List.replicate n 1

@[simp] theorem length_unary (n : ℕ) : (unary n).length = n := List.length_replicate

/-! ## The functions -/

namespace Sample

def hkdf (_ : Option Bytes) (ikm _ : Bytes) (len : ℕ) : Except String Bytes :=
  .ok ((ikm ++ List.replicate len 0).take len)

/-- The bytes of a key that a ciphertext ends with. -/
def tag (key : Bytes) : Bytes := (key ++ List.replicate 16 0).take 16

theorem length_tag (key : Bytes) : (tag key).length = 16 := by simp [tag]

def encrypt (key _ plaintext : Bytes) : Except String Bytes := .ok (plaintext ++ tag key)

def decrypt (key _ ciphertext : Bytes) : Option Bytes :=
  if ciphertext.drop (ciphertext.length - 16) = tag key then
    some (ciphertext.take (ciphertext.length - 16))
  else none

theorem decrypt_append (key nonce plaintext tagged : Bytes) (h : tagged.length = 16) :
    decrypt key nonce (plaintext ++ tagged) =
      if tagged = tag key then some plaintext else none := by
  simp [decrypt, h]

def blobJson : Json RecoveryBlob where
  toVecPretty b := .ok (escapeAll [unary b.version, b.salt, b.nonce, b.ciphertext])
  fromSlice bytes :=
    match unescapeAll 4 bytes with
    | some [version, salt, nonce, ciphertext] => .ok ⟨version.length, salt, nonce, ciphertext⟩
    | _ => .error "expected value"
  fromSlice_toVecPretty {b bytes} h := by
    obtain rfl := Except.ok.inj h
    have := unescapeAll_escapeAll [unary b.version, b.salt, b.nonce, b.ciphertext]
    simp only [List.length_cons, List.length_nil] at this
    simp [this]

def metadataJson : Json Metadata where
  toVecPretty m := .ok (escapeAll [unary m.version, m.sealedPublic, m.sealedPrivate, m.primaryName])
  fromSlice bytes :=
    match unescapeAll 4 bytes with
    | some [version, pub, priv, name] => .ok ⟨version.length, .pinAuthValue, pub, priv, name⟩
    | _ => .error "expected value"
  fromSlice_toVecPretty {m bytes} h := by
    obtain rfl := Except.ok.inj h
    have := unescapeAll_escapeAll [unary m.version, m.sealedPublic, m.sealedPrivate, m.primaryName]
    simp only [List.length_cons, List.length_nil] at this
    cases m with
    | mk version policy => cases policy; simp [this]

def create (seed : ℕ) (entropy auth data : Bytes) : Public × Bytes :=
  (⟨entropy⟩, escapeAll [unary seed, auth, data])

def unsealData (seed : ℕ) (_ : Public) (priv auth : Bytes) : Option Bytes :=
  match unescapeAll 3 priv with
  | some [s, a, data] => if s.length = seed ∧ a = auth then some data else none
  | _ => none

theorem unsealData_create (seed seed' : ℕ) (entropy auth auth' data : Bytes) :
    unsealData seed' (create seed entropy auth data).1 (create seed entropy auth data).2 auth' =
      if seed = seed' ∧ auth = auth' then some data else none := by
  have := unescapeAll_escapeAll [unary seed, auth, data]
  simp only [List.length_cons, List.length_nil] at this
  simp [unsealData, create, this]

end Sample

open Sample in
/-- The model. -/
def sample : Primitives where
  hkdf := hkdf
  hkdf_ok salt ikm info len _ := ⟨_, rfl, by simp⟩
  encrypt := encrypt
  decrypt := decrypt
  encrypt_length h := by
    obtain rfl := Except.ok.inj h
    simp [length_tag]
  decrypt_encrypt h := by
    obtain rfl := Except.ok.inj h
    simp [decrypt_append _ _ _ _ (length_tag _)]
  decrypt_correct h h' := by
    obtain rfl := Except.ok.inj h
    rw [decrypt_append _ _ _ _ (length_tag _)] at h'
    split at h' <;> simp_all
  blobJson := blobJson
  metadataJson := metadataJson
  enrollmentJson t := .ok (escapeAll [unary t.version, t.contents])
  debug := String.quote
  marshall p := .ok p.contents
  unmarshall bytes := .ok ⟨bytes⟩
  unmarshall_marshall h := by
    obtain rfl := Except.ok.inj h
    rfl
  privateTryFrom := .ok
  primaryName seed := 0 :: unary seed
  primaryName_ne_nil _ := by simp
  create := create
  unsealData := unsealData
  privateTryFrom_create _ _ _ _ := rfl
  unsealData_create seed entropy auth data := by simp [unsealData_create]
  unsealData_correct h := by
    rw [unsealData_create] at h
    split at h
    · exact ⟨(by simp_all), (by simp_all)⟩
    · cases h

/-! ## A user -/

namespace Sample

/-- What an enrollment draws, each secret a repeated byte. -/
def draws (key recovery : Byte) : Draws where
  key := List.replicate 32 key
  key_length := by simp
  recoverySecret := List.replicate 32 recovery
  recoverySecret_length := by simp
  salt := List.replicate 16 0
  salt_length := by simp
  nonce := List.replicate 24 0
  nonce_length := by simp
  aFace := List.replicate 32 0
  aFace_length := by simp
  pinEntropy := []
  faceEntropy := []

def proc (pid : ℕ) : Process := ⟨⟨"/home/user/.local/share/tess", "/var/lib/mug"⟩, pid⟩

def password : SecretBytes := Recovery.ascii "password"

def pin : SecretBytes := Recovery.ascii "1234"

/-- An enrollment from a given credential. -/
def enrollArgs (old : SecretBytes) (key recovery : Byte) : EnrollArgs :=
  ⟨old, pin, none, draws key recovery⟩

/-- A host on which tess has never run, with a password. -/
def fresh : Host where
  keyring := ⟨password, false, true⟩
  tpm := ⟨0, [], ⟨0, 32, 7200⟩⟩
  disk := ⟨fun _ => none, 0⟩
  printed := []
  attempts := []
  events := []

/-- Every operation succeeds but the one numbered `n`. -/
def failing (n : ℕ) (f : Fault) : List Fault := List.replicate n .ok ++ f :: List.replicate 60 .ok

/-- An enrollment on a fresh host, under given faults. -/
def enrollRun (args : EnrollArgs) (faults : List Fault) :
    Prog Op.Res (Except Error String) × Host :=
  run (machine sample anyFault) faults (enroll sample (proc 1) args).run fresh

theorem enrollRun_returns {args : EnrollArgs} {faults : List Fault} {r : Except Error String}
    (h : (enrollRun args faults).1.returned = some r) :
    Returns (machine sample anyFault) (enroll sample (proc 1) args).run fresh r
      (enrollRun args faults).2 :=
  returns_run (admits_of_may (fun _ _ _ => trivial) _ _ _) h

/-- Whether an enrollment has failed with a given first message. -/
def failedWith (text : String) (p : Prog Op.Res (Except Error String)) : Bool :=
  p.returned.any fun r => match r with
    | .error e => e.head? = some text
    | .ok _ => false

theorem failedWith_iff {text : String} {p : Prog Op.Res (Except Error String)} :
    failedWith text p = true ↔ ∃ e, p.returned = some (.error e) ∧ e.head? = some text := by
  unfold failedWith
  rcases p.returned with _ | _ | _ <;> simp

end Sample

end Tess
