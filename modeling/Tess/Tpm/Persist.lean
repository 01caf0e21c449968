import Tess.Enroll.Calls
import Tess.Formats.Base64

/-!
# Sealed objects on disk

A sealed object is stored as versioned metadata: the wire form of its public area, its private
blob and the Name of the primary it was sealed under, each in base64. This module follows
`tess-tpm/src/persist.rs` and the `Metadata` schema of `tess-core`.
-/

namespace Tess

open Files Effects

def metadataVersion : ℕ := 2

namespace Metadata

def new (policy : Policy) (sealedPublic sealedPrivate primaryName : Utf8) : Metadata where
  version := metadataVersion
  policy := policy
  sealedPublic := sealedPublic
  sealedPrivate := sealedPrivate
  primaryName := primaryName

def validateVersion (m : Metadata) : Except Error Unit :=
  if m.version ≠ metadataVersion then
    .error ["unsupported metadata version " ++ toString m.version ++ " (expected " ++
      toString metadataVersion ++ ")"]
  else .ok ()

end Metadata

namespace Persist

variable (E : Primitives)

def toMetadata (sealed : SealedObject) : Except Error Metadata := do
  let pub ← (E.marshall sealed.pub).mapError fun e =>
    ["TPM error: marshalling sealed public area: " ++ e]
  pure (Metadata.new .pinAuthValue (Base64.encode pub) (Base64.encode sealed.priv)
    (Base64.encode sealed.primaryName))

def decode (encoded : Utf8) (field : String) : Except Error Bytes :=
  match Base64.decode encoded with
  | some bytes => .ok bytes
  | none => .error ["metadata error: decoding base64 " ++ field ++ ": invalid base64"]

def fromMetadata (m : Metadata) : Except Error SealedObject := do
  m.validateVersion
  if m.policy ≠ .pinAuthValue then
    throw ["metadata error: unsupported sealing policy; this build only reloads PinAuthValue"]
  let publicBytes ← decode m.sealedPublic "sealed_public"
  let privateBytes ← decode m.sealedPrivate "sealed_private"
  let primaryName ← decode m.primaryName "primary_name"
  if primaryName = [] then
    throw ["metadata error: metadata is missing the pinned primary Name (corrupt or hand-edited " ++
      "v2 metadata); re-enroll to regenerate it"]
  let pub ← (E.unmarshall publicBytes).mapError fun e =>
    ["TPM error: unmarshalling sealed public area: " ++ e]
  let priv ← (E.privateTryFrom privateBytes).mapError fun e =>
    ["TPM error: rebuilding sealed private blob: " ++ e]
  pure { pub := pub, priv := priv, primaryName := primaryName }

variable (proc : Process)

/-- Create, write and publish a sibling, with so many names left to try when one is taken. -/
def saveTries (a : Artifact) (json : Bytes) (last : Option IoError) : ℕ → Io Unit
  | 0 => throw ["io error: could not create a unique temp file next to " ++
      proc.display (.main a) ++ ": " ++ (last.map IoError.display).getD "unknown error"]
  | n + 1 => do
    let tmp ← tempSibling proc a
    let written ← (writePrivate tmp json).run
    match written with
    | .ok () =>
      publish tmp a
        (fun e => ["io error: renaming " ++ proc.display tmp ++ " -> " ++ proc.display (.main a) ++
          ": " ++ e.display])
        (fun e => ["io error: syncing parent dir of " ++ proc.display (.main a) ++ ": " ++
          e.display])
    | .error .alreadyExists => saveTries a json (some .alreadyExists) n
    | .error e => throw ["io error: writing " ++ proc.display tmp ++ ": " ++ e.display]

def maxTries : ℕ := 16

/-- Write metadata through a new sibling. A taken sibling name is replaced by another one. -/
def save (m : Metadata) (a : Artifact) : Io Unit := do
  let json ← ofExcept ((E.metadataJson.toVecPretty m).mapError fun e =>
    ["metadata error: serializing metadata: " ++ e])
  let dir := Path.parent (.main a)
  ExceptT.adapt (fun e => ["io error: creating " ++ proc.display dir ++ ": " ++ e.display])
    (createDirAll dir)
  saveTries proc a json none maxTries

def load (a : Artifact) : Io Metadata := do
  let path := proc.display (.main a)
  let bytes ← ExceptT.adapt (fun e => ["io error: reading " ++ path ++ ": " ++ e.display])
    (read (.main a))
  let m ← ofExcept ((E.metadataJson.fromSlice bytes).mapError fun e =>
    ["metadata error: parsing " ++ path ++ ": " ++ e])
  ofExcept m.validateVersion
  pure m

end Persist

end Tess
