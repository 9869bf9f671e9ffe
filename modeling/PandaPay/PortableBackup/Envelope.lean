import PandaPay.Library.BigEndian
import PandaPay.Library.Checked
import PandaPay.Library.Sealing

/-!
# The encrypted envelope

`Argon2idSecretStreamEncryptor.encryptFile` and `readPortableBackupArchive`: a header and frames of 64
KiB, each sealed under its own nonce with the header, its number and whether it is the last one as
associated data.

The derivation of keys and the cipher are parameters. What the cipher opens is what was sealed.

Not modelled: the files and directories, and the plaintext that a reading that fails has written and
removes again.

## Main definitions

* `PortableBackupKdfParams`: the parameters of the key derivation
* `frameNonce`, `frameAad`: `_frameNonce` and `_frameAad`
* `encryptFile`, `readPortableBackupArchive`: writing and reading an envelope
-/

namespace PandaPay.PortableBackup

/-- Bytes of a file. -/
abbrev Bytes := List UInt8

/-- What the writer and the reader of envelopes throw. -/
inductive EnvelopeError where
  | fileSystem (message : String)
  | cancelled
  | envelope (message : String)
  | passphrase
  deriving DecidableEq

/-! ### Parameters -/

/-- `PortableBackupKdfParams`. -/
structure PortableBackupKdfParams where
  memoryKiB : ℕ
  parallelism : ℕ
  iterations : ℕ
  hashLength : ℕ
  deriving DecidableEq

/-- `_uint32(value)`. -/
def uint32 (value : ℕ) : Bytes := beBytes value 4

/-- `_readUint32(bytes, offset)`. -/
def readUint32 (bytes : Bytes) (offset : ℕ) : ℕ := beValue ((bytes.drop offset).take 4)

namespace PortableBackupKdfParams

/-- `PortableBackupKdfParams.frozenV1`. -/
def frozenV1 : PortableBackupKdfParams := ⟨16384, 1, 2, 32⟩

/-- `encode()`. -/
def encode (params : PortableBackupKdfParams) : Bytes :=
  uint32 params.memoryKiB ++ uint32 params.parallelism ++ uint32 params.iterations ++
    uint32 params.hashLength

/-- `PortableBackupKdfParams.decode(bytes)`. -/
def decode (bytes : Bytes) : Except EnvelopeError PortableBackupKdfParams := do
  let memoryKiB := readUint32 bytes 0
  let parallelism := readUint32 bytes 4
  let iterations := readUint32 bytes 8
  let hashLength := readUint32 bytes 12
  failIf (hashLength ≠ 32) (.envelope "unsupported hash length")
  failIf (memoryKiB < 8192 ∨ 262144 < memoryKiB) (.envelope "kdf memory out of range")
  failIf (parallelism < 1 ∨ 8 < parallelism) (.envelope "kdf parallelism out of range")
  failIf (iterations < 1 ∨ 8 < iterations) (.envelope "kdf iterations out of range")
  return ⟨memoryKiB, parallelism, iterations, hashLength⟩

end PortableBackupKdfParams

/-- `portableEnvelopeHeaderBytes`. -/
def portableEnvelopeHeaderBytes : ℕ := 68

/-- `portableEnvelopeFrameMacBytes`. -/
def portableEnvelopeFrameMacBytes : ℕ := 16

/-- `portableEnvelopeNonceBytes`. -/
def portableEnvelopeNonceBytes : ℕ := 24

/-- `_chunkSize`. -/
def chunkSize : ℕ := 64 * 1024

/-- `_magicFormatV1()`. -/
def magicFormatV1 : Bytes := [80, 68, 66, 75, 49] ++ [1, 0, 0]

/-- `_frameNonce(base, frame)`. -/
def frameNonce (base : Bytes) (frame : ℕ) : Bytes :=
  base.take (portableEnvelopeNonceBytes - 5) ++ beBytes frame 5

/-- `_frameAad(header, frame, isFinal)`. -/
def frameAad (header : Bytes) (frame : ℕ) (isFinal : Bool) : Bytes :=
  header ++ beBytes frame 8 ++ [if isFinal then 1 else 0]

/-- The cryptography of an envelope: Argon2id and XChaCha20-Poly1305, whose boxes are the ciphertext
and a MAC behind it. -/
structure Crypto (Passphrase : Type) where
  deriveKey : PortableBackupKdfParams → Passphrase → Bytes → Bytes
  encrypt : Bytes → Bytes → Bytes → Bytes → Bytes
  length_encrypt : ∀ key nonce aad plain,
    (encrypt key nonce aad plain).length = plain.length + portableEnvelopeFrameMacBytes

/-- A frame that was sealed. -/
abbrev SealedFrame := Sealing Bytes Bytes Bytes Bytes Bytes

/-! ### Writing -/

section Write

variable {Passphrase : Type} (crypto : Crypto Passphrase) (isCancelled : ℕ → Bool)

/-- A frame as the writer seals it. -/
def sealFrame (key header baseNonce plain : Bytes) (frame : ℕ) (isFinal : Bool) : SealedFrame where
  key := key
  nonce := frameNonce baseNonce frame
  aad := frameAad header frame isFinal
  plain := plain
  box := crypto.encrypt key (frameNonce baseNonce frame) (frameAad header frame isFinal) plain

/-- How much of the remaining plaintext goes into a frame. -/
def plainLength (remaining : ℕ) : ℕ := if chunkSize < remaining then chunkSize else remaining

theorem lt_of_plainLength_ne {remaining : ℕ} (h : plainLength remaining ≠ remaining) :
    plainLength remaining = chunkSize ∧ chunkSize < remaining := by
  unfold plainLength at h ⊢
  split at h
  · rename_i hlong
    exact ⟨if_pos hlong, hlong⟩
  · exact absurd rfl h

/-- The loop over the frames: `rest` is what comes from `position` on. -/
def encryptFrames (key header baseNonce rest : Bytes) (frame : ℕ) :
    Except EnvelopeError (List SealedFrame) := do
  failIf (isCancelled frame = true) .cancelled
  let length := plainLength rest.length
  if h : length = rest.length then
    return [sealFrame crypto key header baseNonce (rest.take length) frame true]
  else do
    let later ← encryptFrames key header baseNonce (rest.drop length) (frame + 1)
    return sealFrame crypto key header baseNonce (rest.take length) frame false :: later
termination_by rest.length
decreasing_by
  obtain ⟨hlength, hlong⟩ := lt_of_plainLength_ne h
  rw [List.length_drop, hlength, chunkSize] at *
  omega

/-- The header of an envelope. -/
def envelopeHeader (salt : Vector UInt8 16) (baseNonce : Vector UInt8 24) : Bytes :=
  magicFormatV1 ++ uint32 chunkSize ++ salt.toList ++ PortableBackupKdfParams.frozenV1.encode ++
    baseNonce.toList

/-- `encryptFile`, with the random bytes that it draws: the envelope, and the frames that were sealed
in it. -/
def encryptFile (salt : Vector UInt8 16) (baseNonce : Vector UInt8 24) (passphrase : Passphrase)
    (plaintext : Bytes) : Except EnvelopeError (Bytes × List SealedFrame) := do
  failIf (plaintext.length = 0) (.fileSystem "plaintext archive is empty")
  let header := envelopeHeader salt baseNonce
  let key := crypto.deriveKey .frozenV1 passphrase salt.toList
  let frames ← encryptFrames crypto isCancelled key header baseNonce.toList plaintext 0
  return (header ++ frames.flatMap Sealing.box, frames)

end Write

/-! ### Reading -/

section Read

variable {Passphrase : Type} (crypto : Crypto Passphrase) (sealed : List SealedFrame)

/-- How much of the remaining bytes is the next frame. -/
def frameLength (chunkSize remaining : ℕ) : ℕ :=
  if remaining ≤ chunkSize + portableEnvelopeFrameMacBytes then remaining
  else chunkSize + portableEnvelopeFrameMacBytes

theorem frameLength_pos {chunkSize remaining : ℕ}
    (h : ¬ remaining < portableEnvelopeFrameMacBytes) : 0 < frameLength chunkSize remaining := by
  unfold frameLength
  rw [portableEnvelopeFrameMacBytes] at *
  split <;> omega

/-- The loop over the frames of an envelope: `rest` is what comes from `position` on. -/
def decryptFrames (key header baseNonce : Bytes) (chunkSize : ℕ) (rest : Bytes) (frame : ℕ) :
    Except EnvelopeError Bytes := do
  failIf (rest.length = 0) (.envelope "final frame missing: truncated envelope")
  if _h : rest.length < portableEnvelopeFrameMacBytes then
    throw (.envelope "truncated final frame")
  else
    let length := frameLength chunkSize rest.length
    if length = rest.length then
      match openSealed sealed key (frameNonce baseNonce frame) (frameAad header frame true)
        (rest.take length) with
      | none => throw .passphrase
      | some plain =>
        failIf (rest.drop length ≠ []) (.envelope "trailing unauthenticated bytes")
        return plain
    else
      match openSealed sealed key (frameNonce baseNonce frame) (frameAad header frame false)
        (rest.take length) with
      | none => throw .passphrase
      | some plain => do
        let later ← decryptFrames key header baseNonce chunkSize (rest.drop length) (frame + 1)
        return plain ++ later
termination_by rest.length
decreasing_by
  have hpos := @frameLength_pos chunkSize rest.length _h
  rw [List.length_drop, portableEnvelopeFrameMacBytes] at *
  omega

/-- `readPortableBackupArchive`: the plaintext of an envelope. -/
def readPortableBackupArchive (file : Bytes) (passphrase : Passphrase) :
    Except EnvelopeError Bytes := do
  failIf (file.length < portableEnvelopeHeaderBytes + portableEnvelopeFrameMacBytes)
    (.envelope "envelope is truncated")
  let header := file.take portableEnvelopeHeaderBytes
  failIf (header.take magicFormatV1.length ≠ magicFormatV1) (.envelope "magic mismatch")
  let chunkSize := readUint32 header 8
  failIf (chunkSize < 4096 ∨ 4 * 1024 * 1024 < chunkSize) (.envelope "chunk size out of range")
  let params ← PortableBackupKdfParams.decode ((header.drop 28).take 16)
  failIf (params.memoryKiB ≠ PortableBackupKdfParams.frozenV1.memoryKiB ∨
      params.parallelism ≠ PortableBackupKdfParams.frozenV1.parallelism ∨
      params.iterations ≠ PortableBackupKdfParams.frozenV1.iterations)
    (.envelope "kdf parameters do not match format v1")
  let key := crypto.deriveKey params passphrase ((header.drop 12).take 16)
  decryptFrames sealed key header ((header.drop 44).take 24) chunkSize
    (file.drop portableEnvelopeHeaderBytes) 0

end Read

end PandaPay.PortableBackup
