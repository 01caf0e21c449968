import Tess.Enroll.Transaction

/-!
# What is in the files

The bytes of a recovery blob and of sealed metadata as ways to the keyring key: `unwrapBytes` and
`unsealBytes` are what a reader gets out of them, `blobBytes` and `sealedBytes` what the
transaction puts in. `Wraps` and `Seals` say that a file opens with a given secret to a given
key, and to no other key with any secret.
-/

namespace Tess

open Files Effects Recovery

variable (E : Primitives)

/-! ## Reading -/

/-- The key in a recovery file. -/
def unwrapBytes (bytes : Bytes) (recovery : SecretBytes) : Option SecretBytes := do
  let blob ← (E.blobJson.fromSlice bytes).toOption
  (unwrapKey E blob recovery).toOption

/-- The key in a sealed object, on a TPM with a given seed that is not locked out. -/
def unsealObject (seed : ℕ) (sealed : SealedObject) (pin : SecretBytes) : Option SecretBytes := do
  let auth ← (pinToAuth pin).toOption
  if sealed.primaryName = [] ∨ E.primaryName seed ≠ sealed.primaryName then none
  else E.unsealData seed sealed.pub sealed.priv auth

/-- The key in a file of sealed metadata. -/
def unsealBytes (seed : ℕ) (bytes : Bytes) (pin : SecretBytes) : Option SecretBytes := do
  let m ← (E.metadataJson.fromSlice bytes).toOption
  let sealed ← (Persist.fromMetadata E m).toOption
  unsealObject E seed sealed pin

/-- The file opens with `recovery` to `key`, and with nothing to another key. -/
structure Wraps (bytes : Bytes) (key recovery : SecretBytes) : Prop where
  opens : unwrapBytes E bytes recovery = some key
  only : ∀ r k, unwrapBytes E bytes r = some k → k = key

/-- On its TPM the file opens with `pin` to `key`; with another PIN or TPM, to no other key. -/
structure Seals (seed : ℕ) (bytes : Bytes) (key pin : SecretBytes) : Prop where
  opens : unsealBytes E seed bytes pin = some key
  only : ∀ s p k, unsealBytes E s bytes p = some k → s = seed ∧ k = key

/-! ## Writing -/

/-- What the transaction saves as the recovery blob. -/
def blobBytes (draws : Draws) : Option Bytes := do
  let blob ← (wrapWith E draws.key draws.recoverySecret draws.salt draws.nonce).toOption
  (E.blobJson.toVecPretty blob).toOption

/-- What sealing makes, on a TPM with a given seed. -/
def sealObject (seed : ℕ) (entropy : Bytes) (pin key : SecretBytes) : Option SealedObject :=
  (Tpm.sealKey E ⟨seed, [], ⟨0, 0, 0⟩⟩ entropy pin key).toOption

/-- What is saved of a sealed object. -/
def sealedBytes (seed : ℕ) (entropy : Bytes) (pin key : SecretBytes) : Option Bytes := do
  let sealed ← sealObject E seed entropy pin key
  let m ← (Persist.toMetadata E sealed).toOption
  (E.metadataJson.toVecPretty m).toOption

/-! ## Round trips -/

theorem decodeExact_encode {bytes : Bytes} {n : ℕ} (hn : bytes.length = n) (field : String) :
    decodeExact (Base64.encode bytes) n field = .ok bytes := by
  subst hn
  have h : ¬ (Base64.encode bytes).length > (bytes.length + 2) / 3 * 4 + 4 := by
    rw [Base64.length_encode]
    omega
  simp only [decodeExact, if_neg h, Base64.decode_encode]
  rfl

theorem decodeExact_ok {encoded : Utf8} {expected : ℕ} {field : String} {bytes : Bytes}
    (h : decodeExact encoded expected field = .ok bytes) :
    Base64.decode encoded = some bytes ∧ bytes.length = expected := by
  simp only [decodeExact] at h
  split at h
  · simp at h
  · cases hdecode : Base64.decode encoded with
    | none => simp [hdecode] at h
    | some decoded =>
      simp only [hdecode] at h
      split at h
      · obtain rfl := pure_eq_ok.1 h
        exact ⟨rfl, ‹_›⟩
      · simp at h

section Wrap

variable {E} {key recovery : SecretBytes} {salt nonce : Bytes} {blob : RecoveryBlob}

/-- What a blob that opens is made of. -/
theorem unwrapKey_ok (h : unwrapKey E blob recovery = .ok key) :
    blob.version = blobVersion ∧ ∃ salt nonce ciphertext kek,
      decodeExact blob.salt saltLen "salt" = .ok salt ∧
      decodeExact blob.nonce nonceLen "nonce" = .ok nonce ∧
      decodeExact blob.ciphertext wrappedCiphertextLen "ciphertext" = .ok ciphertext ∧
      deriveKek E recovery salt = .ok kek ∧ E.decrypt kek nonce ciphertext = some key := by
  rw [unwrapKey] at h
  split at h
  · simp at h
  · rename_i hversion
    obtain ⟨salt, hsalt, h⟩ := bind_eq_ok.1 h
    obtain ⟨nonce, hnonce, h⟩ := bind_eq_ok.1 h
    obtain ⟨ciphertext, hciphertext, h⟩ := bind_eq_ok.1 h
    obtain ⟨kek, hkek, h⟩ := bind_eq_ok.1 h
    refine ⟨not_not.1 hversion, salt, nonce, ciphertext, kek, hsalt, hnonce, hciphertext, hkek, ?_⟩
    cases hdecrypt : E.decrypt kek nonce ciphertext with
    | none => simp [hdecrypt] at h
    | some key' =>
      simp only [hdecrypt] at h
      rw [pure_eq_ok.1 h]

/-- What a blob is made of. -/
theorem wrapWith_ok (h : wrapWith E key recovery salt nonce = .ok blob) :
    ∃ kek ciphertext, deriveKek E recovery salt = .ok kek ∧
      E.encrypt kek nonce key = .ok ciphertext ∧
      blob = ⟨blobVersion, Base64.encode salt, Base64.encode nonce, Base64.encode ciphertext⟩ := by
  unfold wrapWith at h
  obtain ⟨kek, hkek, h⟩ := bind_eq_ok.1 h
  obtain ⟨ciphertext, hc, h⟩ := bind_eq_ok.1 h
  exact ⟨kek, ciphertext, hkek, mapError_eq_ok.1 hc, (pure_eq_ok.1 h).symm⟩

/-- Unwrapping a blob that was just wrapped comes down to the decryption. -/
theorem unwrapKey_wrapWith (hkey : key.length = 32) (hsalt : salt.length = 16)
    (hnonce : nonce.length = 24) {kek ciphertext : Bytes}
    (hc : E.encrypt kek nonce key = .ok ciphertext) (r : SecretBytes) :
    unwrapKey E ⟨blobVersion, Base64.encode salt, Base64.encode nonce, Base64.encode ciphertext⟩ r =
      (deriveKek E r salt).bind fun kek' =>
        match E.decrypt kek' nonce ciphertext with
        | some k => .ok k
        | none => .error ["recovery secret did not match (or the recovery blob is corrupt)"] := by
  have h₁ := decodeExact_encode (n := saltLen) hsalt "salt"
  have h₂ := decodeExact_encode (n := nonceLen) hnonce "nonce"
  have hl : ciphertext.length = wrappedCiphertextLen := by
    rw [E.encrypt_length hc, hkey]
    rfl
  have h₃ := decodeExact_encode hl "ciphertext"
  simp only [unwrapKey, h₁, h₂, h₃, bind, Except.bind, ne_eq, not_true_eq_false, if_false]
  cases deriveKek E r salt with
  | error e => rfl
  | ok kek' => cases E.decrypt kek' nonce ciphertext <;> rfl

theorem wraps_of_wrapWith (hkey : key.length = 32) (hsalt : salt.length = 16)
    (hnonce : nonce.length = 24) (h : wrapWith E key recovery salt nonce = .ok blob)
    {bytes : Bytes} (hj : E.blobJson.toVecPretty blob = .ok bytes) :
    Wraps E bytes key recovery := by
  obtain ⟨kek, ciphertext, hk, hc, rfl⟩ := wrapWith_ok h
  have hread : ∀ r, unwrapBytes E bytes r = (unwrapKey E _ r).toOption := fun r => by
    simp only [unwrapBytes, E.blobJson.fromSlice_toVecPretty hj]
    rfl
  constructor
  · rw [hread, unwrapKey_wrapWith hkey hsalt hnonce hc, hk]
    simp [Except.bind, E.decrypt_encrypt hc, Except.toOption]
  · intro r k hr
    rw [hread, unwrapKey_wrapWith hkey hsalt hnonce hc] at hr
    cases hk' : deriveKek E r salt with
    | error e => simp [hk', Except.bind, Except.toOption] at hr
    | ok kek' =>
      cases hd : E.decrypt kek' nonce ciphertext with
      | none => simp [hk', hd, Except.bind, Except.toOption] at hr
      | some k' =>
        simp only [hk', hd, Except.bind, Except.toOption, Option.some.injEq] at hr
        exact hr ▸ E.decrypt_correct hc hd

/-- The recovery blob of an enrollment opens with its recovery secret to its key. -/
theorem wraps_blobBytes {draws : Draws} {bytes : Bytes} (h : blobBytes E draws = some bytes) :
    Wraps E bytes draws.key draws.recoverySecret := by
  unfold blobBytes at h
  cases hw : wrapWith E draws.key draws.recoverySecret draws.salt draws.nonce with
  | error e => simp [hw, Except.toOption] at h
  | ok blob =>
    cases hj : E.blobJson.toVecPretty blob with
    | error e => simp [hw, hj, Except.toOption] at h
    | ok json =>
      simp only [hw, hj, Except.toOption, Option.bind_eq_bind, Option.bind_some,
        Option.some.injEq] at h
      exact wraps_of_wrapWith draws.key_length draws.salt_length draws.nonce_length hw (h ▸ hj)

end Wrap

section Seal

variable {E} {seed : ℕ} {entropy : Bytes} {pin key : SecretBytes}

/-- A TPM seals the same whatever else its state is. -/
theorem sealKey_eq (t : Tpm) (hs : t.seed = seed) :
    (t.sealKey E entropy pin key).toOption = sealObject E seed entropy pin key := by
  subst hs
  rfl

/-- What a sealed object is made of. -/
theorem sealObject_some {sealed : SealedObject}
    (h : sealObject E seed entropy pin key = some sealed) :
    pinToAuth pin = .ok pin ∧ sealed = ⟨(E.create seed entropy pin key).1,
      (E.create seed entropy pin key).2, E.primaryName seed⟩ := by
  unfold sealObject Tpm.sealKey pinToAuth at h
  unfold pinToAuth
  split_ifs at h ⊢ with h₁ h₂
  · simp [Except.toOption] at h
  · simp [Except.toOption] at h
  · simp only [Except.toOption, Option.some.injEq] at h
    exact ⟨rfl, h.symm⟩

theorem unsealObject_sealObject {sealed : SealedObject}
    (h : sealObject E seed entropy pin key = some sealed) :
    unsealObject E seed sealed pin = some key ∧
      ∀ s p k, unsealObject E s sealed p = some k → s = seed ∧ k = key := by
  obtain ⟨hp, rfl⟩ := sealObject_some h
  constructor
  · simp [unsealObject, hp, Except.toOption, E.primaryName_ne_nil, E.unsealData_create]
  · intro s p k hk
    unfold unsealObject at hk
    cases ha : pinToAuth p with
    | error e => simp [ha, Except.toOption] at hk
    | ok auth =>
      simp only [ha, Except.toOption, Option.bind_eq_bind, Option.bind_some] at hk
      split_ifs at hk
      obtain ⟨hs, hd⟩ := E.unsealData_correct hk
      exact ⟨hs, hd⟩

/-- A sealed object as sealing makes it: with a pinned Name, and a private blob that is one. -/
structure Reloadable (E : Primitives) (sealed : SealedObject) : Prop where
  primaryName : sealed.primaryName ≠ []
  priv : E.privateTryFrom sealed.priv = .ok sealed.priv

theorem reloadable_sealObject {sealed : SealedObject}
    (hs : sealObject E seed entropy pin key = some sealed) : Reloadable E sealed := by
  obtain ⟨-, rfl⟩ := sealObject_some hs
  exact ⟨E.primaryName_ne_nil seed, E.privateTryFrom_create ..⟩

/-- A sealed object is reloaded as it was saved. -/
theorem fromMetadata_toMetadata {sealed : SealedObject} {m : Metadata} (hs : Reloadable E sealed)
    (hm : Persist.toMetadata E sealed = .ok m) : Persist.fromMetadata E m = .ok sealed := by
  obtain ⟨pub, hmar, hm⟩ := bind_eq_ok.1 hm
  obtain rfl := pure_eq_ok.1 hm
  have hunmar : E.unmarshall pub = .ok sealed.pub := E.unmarshall_marshall (mapError_eq_ok.1 hmar)
  simp [Persist.fromMetadata, Metadata.new, Metadata.validateVersion, Persist.decode,
    Base64.decode_encode, hunmar, hs.primaryName, hs.priv, bind, Except.bind, Except.mapError,
    pure, Except.pure]

/-- What the metadata of a sealed object say. -/
theorem fromMetadata_ok {sealed : SealedObject} {m : Metadata}
    (h : Persist.fromMetadata E m = .ok sealed) :
    m.validateVersion = .ok () ∧ m.policy = .pinAuthValue ∧
      Base64.decode m.primaryName = some sealed.primaryName ∧ sealed.primaryName ≠ [] := by
  obtain ⟨_, hversion, h⟩ := bind_eq_ok.1 h
  split at h
  · exact absurd h (throw_bind_ne_ok _ _ _)
  rename_i hpolicy
  obtain ⟨pub, -, h⟩ := bind_eq_ok.1 h
  obtain ⟨priv, -, h⟩ := bind_eq_ok.1 h
  obtain ⟨name, hname, h⟩ := bind_eq_ok.1 h
  split at h
  · exact absurd h (throw_bind_ne_ok _ _ _)
  rename_i hne
  obtain ⟨pub', -, h⟩ := bind_eq_ok.1 h
  obtain ⟨priv', -, h⟩ := bind_eq_ok.1 h
  obtain rfl := pure_eq_ok.1 h
  refine ⟨hversion, not_not.1 hpolicy, ?_, hne⟩
  unfold Persist.decode at hname
  cases hdecode : Base64.decode m.primaryName with
  | none => simp [hdecode] at hname
  | some bytes => simpa [hdecode] using hname

/-- Saved sealed metadata opens with its PIN to the key that was sealed. -/
theorem seals_sealedBytes {bytes : Bytes} (h : sealedBytes E seed entropy pin key = some bytes) :
    Seals E seed bytes key pin := by
  unfold sealedBytes at h
  cases hs : sealObject E seed entropy pin key with
  | none => simp [hs] at h
  | some sealed =>
    cases hm : Persist.toMetadata E sealed with
    | error e => simp [hs, hm, Except.toOption] at h
    | ok m =>
      cases hj : E.metadataJson.toVecPretty m with
      | error e => simp [hs, hm, hj, Except.toOption] at h
      | ok json =>
        simp only [hs, hm, hj, Except.toOption, Option.bind_eq_bind, Option.bind_some,
          Option.some.injEq] at h
        subst h
        have hread : ∀ s p, unsealBytes E s json p = unsealObject E s sealed p := fun s p => by
          simp [unsealBytes, E.metadataJson.fromSlice_toVecPretty hj,
            fromMetadata_toMetadata (reloadable_sealObject hs) hm, Except.toOption]
        obtain ⟨hopen, honly⟩ := unsealObject_sealObject hs
        exact ⟨(hread _ _).trans hopen, fun s p k hk => honly s p k ((hread _ _) ▸ hk)⟩

end Seal

end Tess
