import Tess.Lifecycle.Reseal

/-!
# The recovery blob, end to end

What `wrap_key` seals and `save_blob` writes, `load_blob` reads and `unwrap_key` opens, for every
key, secret, salt and nonce; and a blob from anywhere opens only when it is made the same way.
-/

namespace Tess

open Files Effects Recovery

/-- A cipher that opens nothing but what it has sealed, under the same key and nonce. -/
def Authenticates (E : Primitives) : Prop :=
  ∀ key nonce ciphertext plaintext, E.decrypt key nonce ciphertext = some plaintext →
    E.encrypt key nonce plaintext = .ok ciphertext

section Blob

variable {E : Primitives} {may : Host → Op → Fault → Prop} {proc : Process} {h : Host}
  {key recovery : SecretBytes} {blob : RecoveryBlob}

/-! ## What is saved -/

/-- A blob that is saved is in the file. -/
theorem saveBlob_saves :
    wpe (machine E may) Eq (fun _ _ => True) (saveBlob E proc blob)
      (fun _ h' => ∃ json, E.blobJson.toVecPretty blob = .ok json ∧
        h'.files .recovery = some (.file json 0o600)) (fun _ _ => True) h := by
  refine wpe_seq (P := fun json _ => E.blobJson.toVecPretty blob = .ok json)
    (ofExcept_spec (fun _ hj => mapError_eq_ok.1 hj) fun _ => trivial) fun json h₁ hj => ?_
  refine wpe_mono (replaceFile_spec (fileRule proc.pid .recovery json) rfl trivial) ?_
    fun _ _ _ => trivial
  intro _ h₂ hfile
  exact ⟨json, hj, hfile⟩

/-- Wrapping a key and saving the blob puts a file in place that opens to the key. -/
theorem wrapAndSave_opens {draws : Draws} (hkey : key.length = 32) :
    wpe (machine E may) Eq (fun _ _ => True)
      (wrapKey E draws key recovery >>= saveBlob E proc)
      (fun _ h' => ∃ bytes, h'.files .recovery = some (.file bytes 0o600) ∧
        unwrapBytes E bytes recovery = some key) (fun _ _ => True) h := by
  have hstable : Stable proc.pid Eq (fun _ _ => True) fun h' => h'.view = h.view :=
    stable_view _ fun _ _ _ => trivial
  refine wpe_step (wrapKey_spec hstable rfl) (fun _ _ _ => trivial) ?_
  intro blob h₁ ⟨hwrap, _⟩
  refine wpe_mono saveBlob_saves ?_ fun _ _ => id
  intro _ h₂ ⟨json, hjson, hfile⟩
  have hwraps : Wraps E json key recovery :=
    wraps_of_wrapWith hkey draws.salt_length draws.nonce_length hwrap hjson
  exact ⟨json, hfile, hwraps.opens⟩

/-! ## What is loaded -/

/-- Loading and unwrapping get the key in the file. -/
theorem obtains_loadAndUnwrap {bytes : Bytes} {mode : ℕ}
    (hstat : h.disk.stat (.main .recovery) = some (.file bytes mode))
    (hk : unwrapBytes E bytes recovery = some key) :
    Obtains E (loadBlob E proc >>= fun blob => ofExcept (unwrapKey E blob recovery)) h key := by
  obtain ⟨blob, hparse, hunwrap⟩ := Option.bind_eq_some_iff.1 hk
  rw [toOption_eq_some] at hparse hunwrap
  have hload : Finishes E (loadBlob E proc) h blob h :=
    finishes_loadBlob hstat hparse (unwrapKey_ok hunwrap).1
  have hopen : Finishes E (ofExcept (unwrapKey E blob recovery)) h key h :=
    finishes_ofExcept hunwrap
  refine ⟨congrArg Prod.fst (faultless_of_finishes (hload.bind hopen)), ?_⟩
  intro may k h' hr
  have hreads : wpe (machine E may) Eq (fun _ _ => True)
      (loadBlob E proc >>= fun blob => ofExcept (unwrapKey E blob recovery))
      (fun k _ => k = key) (fun _ _ => True) h := by
    refine wpe_seq loadBlob_reads ?_
    intro blob' _ ⟨bytes', mode', hstat', hparse'⟩
    obtain ⟨rfl, -⟩ := Node.file.inj (Option.some.inj (hstat'.symm.trans hstat))
    obtain rfl := Except.ok.inj (hparse'.symm.trans hparse)
    exact ofExcept_spec (fun k hk => Except.ok.inj (hk.symm.trans hunwrap)) fun _ => trivial
  exact returns_ok (Q := fun k _ => k = key) hreads hr

end Blob

/-- **The recovery blob**, for a cipher that authenticates. A key of 32 bytes that was wrapped and
saved, with any draws and under any faults, is what loading and unwrapping the file gets back. A
blob from anywhere opens only to what was encrypted, under the key derived from the secret and its
salt, into its ciphertext; and no field is refused for its length when it encodes as many bytes as
it should. -/
theorem recoveryBlob_endToEnd {E : Primitives} (hauth : Authenticates E) :
    (∀ may proc draws key recovery h h', key.length = 32 →
      Returns (machine E may) (wrapKey E draws key recovery >>= saveBlob E proc).run h (.ok ()) h' →
      Obtains E (loadBlob E proc >>= fun blob => ofExcept (unwrapKey E blob recovery)) h' key) ∧
    (∀ blob recovery key, unwrapKey E blob recovery = .ok key →
      blob.version = 1 ∧ ∃ salt nonce ciphertext kek,
        Base64.decode blob.salt = some salt ∧ salt.length = 16 ∧
        Base64.decode blob.nonce = some nonce ∧ nonce.length = 24 ∧
        Base64.decode blob.ciphertext = some ciphertext ∧ ciphertext.length = 48 ∧
        deriveKek E recovery salt = .ok kek ∧ E.encrypt kek nonce key = .ok ciphertext) ∧
    ∀ bytes field, decodeExact (Base64.encode bytes) bytes.length field = .ok bytes := by
  refine ⟨?_, ?_, fun bytes field => decodeExact_encode rfl field⟩
  · intro may proc draws key recovery h h' hkey hr
    obtain ⟨bytes, hfile, hk⟩ := returns_ok (wrapAndSave_opens hkey) hr
    exact obtains_loadAndUnwrap (Disk.stat_of_file (Host.at_eq_file.1 hfile)) hk
  · intro blob recovery key h
    obtain ⟨hversion, salt, nonce, ciphertext, kek, hsalt, hnonce, hciphertext, hkek, hdecrypt⟩ :=
      unwrapKey_ok h
    obtain ⟨hsalt, hsaltLen⟩ := decodeExact_ok hsalt
    obtain ⟨hnonce, hnonceLen⟩ := decodeExact_ok hnonce
    obtain ⟨hciphertext, hlen⟩ := decodeExact_ok hciphertext
    exact ⟨hversion, salt, nonce, ciphertext, kek, hsalt, hsaltLen, hnonce, hnonceLen, hciphertext,
      hlen, hkek, hauth _ _ _ _ hdecrypt⟩

namespace Sample

theorem authenticates_sample : Authenticates sample := by
  intro key nonce ciphertext plaintext h
  have h : Sample.decrypt key nonce ciphertext = some plaintext := h
  rw [Sample.decrypt] at h
  split at h
  · rename_i htag
    obtain rfl := Option.some.inj h
    have hsplit := List.take_append_drop (ciphertext.length - 16) ciphertext
    rw [htag] at hsplit
    exact congrArg Except.ok hsplit
  · cases h

/-- The host after a key was wrapped and saved without faults. -/
def savedBlob : Prog Op.Res (Except Error Unit) × Host :=
  run (machine sample anyFault) (failing 60 .ok)
    (wrapKey sample (draws 1 2) (List.replicate 32 1) (List.replicate 32 2) >>=
      saveBlob sample (proc 1)).run fresh

end Sample

open Sample in
theorem recoveryBlob_endToEnd_sample :
    Obtains sample (loadBlob sample (proc 1) >>= fun blob =>
      ofExcept (unwrapKey sample blob (List.replicate 32 2))) savedBlob.2 (List.replicate 32 1) :=
  (recoveryBlob_endToEnd authenticates_sample).1 anyFault (proc 1) (draws 1 2) _ _ fresh _ rfl
    (returns_run (admits_of_may (fun _ _ _ => trivial) _ _ _) rfl)

end Tess
