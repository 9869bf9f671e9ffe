import PandaPay.PortableBackup.Envelope

/-!
# What the envelope protects

An envelope that was written is read back, and no other file is read with it: associated data bind
every frame to the header, to its place and to whether it is the last. The counter in a nonce has five
bytes, so that nonces are distinct in envelopes of up to 2^40 frames, and no further.

## Main definitions

* `Tiles`: the frames of a plaintext

## Main results

* `encryptFrames_eq_ok`, `encryptFile_finishes`: what is sealed
* `nodup_nonces_iff`: when the nonces of an envelope are distinct
* `read_encrypted`: an envelope is read back
* `eq_of_read`: only the envelope itself is read
* `envelope_sound`: an envelope is read back, no other file is, and its nonces are distinct up to 2^56
  bytes
-/

namespace PandaPay.PortableBackup

/-- The frames of a plaintext from one of them on: full ones, and the last one, which may be shorter. -/
inductive Tiles {Passphrase : Type} (crypto : Crypto Passphrase) (key header baseNonce : Bytes) :
    Bytes → ℕ → List SealedFrame → Prop
  | last {rest : Bytes} {frame : ℕ} : rest.length ≤ chunkSize →
      Tiles crypto key header baseNonce rest frame
        [sealFrame crypto key header baseNonce rest frame true]
  | cons {rest : Bytes} {frame : ℕ} {frames : List SealedFrame} : chunkSize < rest.length →
      Tiles crypto key header baseNonce (rest.drop chunkSize) (frame + 1) frames →
      Tiles crypto key header baseNonce rest frame
        (sealFrame crypto key header baseNonce (rest.take chunkSize) frame false :: frames)

section Frames

variable {Passphrase : Type} {crypto : Crypto Passphrase} {isCancelled : ℕ → Bool}
  {key header baseNonce rest : Bytes} {frame : ℕ} {frames : List SealedFrame}

theorem plainLength_of_le {remaining : ℕ} (h : remaining ≤ chunkSize) :
    plainLength remaining = remaining := if_neg (not_lt.mpr h)

theorem plainLength_of_lt {remaining : ℕ} (h : chunkSize < remaining) :
    plainLength remaining = chunkSize := if_pos h

/-- What is sealed. -/
theorem encryptFrames_eq_ok
    (h : encryptFrames crypto isCancelled key header baseNonce rest frame = .ok frames) :
    Tiles crypto key header baseNonce rest frame frames := by
  induction hn : rest.length using Nat.strong_induction_on generalizing rest frame frames with
  | _ n ih =>
    rw [encryptFrames] at h
    obtain ⟨-, h⟩ := failIf_bind_eq_ok.mp h
    dsimp only at h
    by_cases hlong : chunkSize < rest.length
    · have hlength := plainLength_of_lt hlong
      rw [dif_neg (by omega), hlength] at h
      obtain ⟨later, hlater, h⟩ := bind_eq_ok.mp h
      cases h
      refine .cons hlong (ih _ ?_ hlater rfl)
      rw [List.length_drop, ← hn]
      unfold chunkSize at *
      omega
    · have hlength := plainLength_of_le (not_lt.mp hlong)
      rw [dif_pos hlength, hlength, List.take_length] at h
      cases h
      exact .last (not_lt.mp hlong)

/-- The frames are sealed unless this is cancelled. -/
theorem encryptFrames_finishes (h : ∀ frame, isCancelled frame = false) (rest : Bytes) (frame : ℕ) :
    ∃ frames, encryptFrames crypto isCancelled key header baseNonce rest frame = .ok frames := by
  induction hn : rest.length using Nat.strong_induction_on generalizing rest frame with
  | _ n ih =>
    rw [encryptFrames, failIf_of_not (by simp [h frame]), ok_bind]
    dsimp only
    split
    · exact ⟨_, rfl⟩
    · rename_i hne
      obtain ⟨hlength, hlong⟩ := lt_of_plainLength_ne hne
      have hlt : (rest.drop (plainLength rest.length)).length < n := by
        rw [List.length_drop, hlength, ← hn]
        unfold chunkSize at *
        omega
      obtain ⟨frames, hframes⟩ := ih _ hlt _ (frame + 1) rfl
      rw [hframes]
      exact ⟨_, rfl⟩

namespace Tiles

/-- Each frame is sealed under its number, the last one as the last one. -/
theorem getElem (h : Tiles crypto key header baseNonce rest frame frames) {i : ℕ}
    (hi : i < frames.length) : ∃ plain, frames[i] =
      sealFrame crypto key header baseNonce plain (frame + i) (decide (i + 1 = frames.length)) := by
  induction h generalizing i with
  | last hshort =>
    obtain rfl : i = 0 := by simpa using hi
    exact ⟨_, rfl⟩
  | @cons rest frame frames hlong hlater ih =>
    cases i with
    | zero =>
      refine ⟨rest.take chunkSize, ?_⟩
      have hpos : frames ≠ [] := by
        rintro rfl
        cases hlater
      simp [hpos]
    | succ i =>
      obtain ⟨plain, hplain⟩ := ih (Nat.lt_of_succ_lt_succ hi)
      refine ⟨plain, ?_⟩
      rw [List.getElem_cons_succ, hplain, List.length_cons]
      simp [Nat.add_right_comm, Nat.add_assoc]

/-- There are as many frames as it takes. -/
theorem length_bounds (h : Tiles crypto key header baseNonce rest frame frames) :
    rest.length ≤ chunkSize * frames.length ∧
      (rest ≠ [] → chunkSize * (frames.length - 1) < rest.length) ∧ 0 < frames.length := by
  induction h with
  | @last rest frame hshort =>
    refine ⟨by simpa using hshort, fun hne => ?_, Nat.one_pos⟩
    simpa [List.length_pos_iff] using hne
  | @cons rest frame frames hlong hlater ih =>
    obtain ⟨hupper, hlower, hpos⟩ := ih
    rw [List.length_drop] at hupper hlower
    have hne : rest.drop chunkSize ≠ [] := by
      rw [ne_eq, List.drop_eq_nil_iff]
      omega
    have hlower := hlower hne
    obtain ⟨n, hn⟩ : ∃ n, frames.length = n + 1 := ⟨frames.length - 1, by omega⟩
    rw [hn, Nat.mul_succ] at hupper
    rw [hn, Nat.add_sub_cancel] at hlower
    rw [List.length_cons, hn, Nat.mul_succ, Nat.mul_succ, Nat.add_sub_cancel, Nat.mul_succ]
    exact ⟨by omega, fun _ => by omega, by omega⟩

end Tiles

/-! ### Reading -/

namespace Tiles

variable {plaintext : Bytes} {sealed : List SealedFrame}

theorem frameAad_inj {header header' : Bytes} {i j : ℕ} {isFinal isFinal' : Bool}
    (hlength : header.length = header'.length) (hi : i < 2 ^ 64) (hj : j < 2 ^ 64) :
    frameAad header i isFinal = frameAad header' j isFinal' ↔
      header = header' ∧ i = j ∧ isFinal = isFinal' := by
  constructor
  · intro h
    obtain ⟨h, hflag⟩ := List.append_inj' h rfl
    obtain ⟨hheader, hframe⟩ := List.append_inj h hlength
    refine ⟨hheader, (beBytes_inj (by omega) (by omega)).mp hframe, ?_⟩
    revert hflag
    cases isFinal <;> cases isFinal' <;> decide
  · rintro ⟨rfl, rfl, rfl⟩
    rfl

/-- The associated data tell the frames apart. -/
theorem nodup_aads (h : Tiles crypto key header baseNonce plaintext 0 sealed)
    (hlength : sealed.length ≤ 2 ^ 64) : (sealed.map Sealing.aad).Nodup := by
  rw [List.nodup_iff_injective_get]
  rintro ⟨i, hi⟩ ⟨j, hj⟩ heq
  rw [List.length_map] at hi hj
  obtain ⟨p, hp⟩ := h.getElem hi
  obtain ⟨q, hq⟩ := h.getElem hj
  simp only [List.get_eq_getElem, List.getElem_map, hp, hq, sealFrame, Nat.zero_add] at heq
  exact Fin.ext ((frameAad_inj rfl (by omega) (by omega)).mp heq).2.1

/-- A box that is opened as the frame `i` is the frame `i`. -/
theorem eq_of_openSealed (h : Tiles crypto key header baseNonce plaintext 0 sealed)
    (hlength : sealed.length ≤ 2 ^ 64) {key' header' nonce box plain : Bytes} {i : ℕ}
    {isFinal : Bool} (hheader : header.length = header'.length) (hi : i < sealed.length)
    (hopen : openSealed sealed key' nonce (frameAad header' i isFinal) box = some plain) :
    header' = header ∧ isFinal = decide (i + 1 = sealed.length) ∧ box = sealed[i].box := by
  obtain ⟨s, hs, -, -, haad, hbox, -⟩ := exists_of_openSealed hopen
  obtain ⟨j, hj, rfl⟩ := List.getElem_of_mem hs
  obtain ⟨p, hp⟩ := h.getElem hj
  have hframe := congrArg Sealing.aad hp
  rw [haad, sealFrame, Nat.zero_add] at hframe
  obtain ⟨hheader', rfl, hfinal⟩ :=
    (frameAad_inj hheader.symm (by omega) (by omega)).mp hframe
  exact ⟨hheader', hfinal, hbox.symm⟩

/-- Only the frames themselves are read. -/
theorem eq_of_decryptFrames (h : Tiles crypto key header baseNonce plaintext 0 sealed)
    (hlength : sealed.length ≤ 2 ^ 64) {key' header' baseNonce' body plain : Bytes} {size i : ℕ}
    (hheader : header.length = header'.length) (hi : i < sealed.length)
    (hread : decryptFrames sealed key' header' baseNonce' size body i = .ok plain) :
    header' = header ∧ body = (sealed.drop i).flatMap Sealing.box := by
  induction hn : body.length using Nat.strong_induction_on generalizing body i plain with
  | _ n ih =>
    rw [decryptFrames] at hread
    obtain ⟨-, hread⟩ := failIf_bind_eq_ok.mp hread
    split at hread
    · cases hread
    rename_i hshort
    dsimp only at hread
    split at hread
    · rename_i hall
      split at hread
      · cases hread
      rename_i p hopen
      obtain ⟨hheader', hlast, hbox⟩ := h.eq_of_openSealed hlength hheader hi hopen
      rw [hall, List.take_length] at hbox
      refine ⟨hheader', ?_⟩
      have hdrop : sealed.drop (i + 1) = [] :=
        List.drop_of_length_le (of_decide_eq_true hlast.symm).ge
      rw [List.drop_eq_getElem_cons hi, hdrop, hbox]
      simp
    · split at hread
      · cases hread
      rename_i p hopen
      obtain ⟨hheader', hlast, hbox⟩ := h.eq_of_openSealed hlength hheader hi hopen
      obtain ⟨later, hlater, -⟩ := bind_eq_ok.mp hread
      have hnext : i + 1 < sealed.length :=
        lt_of_le_of_ne hi (of_decide_eq_false hlast.symm)
      have hpos := @frameLength_pos size body.length hshort
      have hlt : (body.drop (frameLength size body.length)).length < n := by
        rw [List.length_drop, portableEnvelopeFrameMacBytes] at *
        omega
      obtain ⟨-, hrest⟩ := ih _ hlt hnext hlater rfl
      refine ⟨hheader', ?_⟩
      rw [List.drop_eq_getElem_cons hi, List.flatMap_cons, ← hbox, ← hrest, List.take_append_drop]

end Tiles

section Read

variable {sealed : List SealedFrame} {size : ℕ} {box plain : Bytes}

/-- The last frame is read. -/
theorem decryptFrames_last (hbox : portableEnvelopeFrameMacBytes ≤ box.length)
    (hsize : box.length ≤ size + portableEnvelopeFrameMacBytes)
    (hopen : openSealed sealed key (frameNonce baseNonce frame) (frameAad header frame true) box =
      some plain) : decryptFrames sealed key header baseNonce size box frame = .ok plain := by
  have hne : ¬ box.length = 0 := by
    unfold portableEnvelopeFrameMacBytes at hbox
    omega
  have hall : frameLength size box.length = box.length := if_pos hsize
  rw [decryptFrames, failIf_of_not hne, ok_bind, dif_neg (not_lt.mpr hbox), if_pos hall, hall,
    List.take_length, hopen, List.drop_length]
  rfl

/-- A full frame is read, and what is behind it. -/
theorem decryptFrames_cons {later plain' : Bytes}
    (hbox : box.length = size + portableEnvelopeFrameMacBytes) (hlater : later ≠ [])
    (hopen : openSealed sealed key (frameNonce baseNonce frame) (frameAad header frame false) box =
      some plain)
    (hread : decryptFrames sealed key header baseNonce size later (frame + 1) = .ok plain') :
    decryptFrames sealed key header baseNonce size (box ++ later) frame = .ok (plain ++ plain') := by
  have hpos := List.length_pos_iff.mpr hlater
  have hlength : (box ++ later).length = size + portableEnvelopeFrameMacBytes + later.length := by
    rw [List.length_append, hbox]
  have hne : ¬ (box ++ later).length = 0 := by omega
  have hshort : ¬ (box ++ later).length < portableEnvelopeFrameMacBytes := by omega
  have hframe : frameLength size (box ++ later).length = box.length := by
    rw [hbox]
    exact if_neg (by omega)
  have hmore : ¬ box.length = (box ++ later).length := by omega
  rw [decryptFrames, failIf_of_not hne, ok_bind, dif_neg hshort]
  dsimp only
  rw [hframe, if_neg hmore, List.take_left, List.drop_left, hopen]
  dsimp only
  rw [hread]
  rfl

end Read

namespace Tiles

variable {sealed : List SealedFrame}

/-- A box is as long as its MAC at least. -/
theorem le_length_boxes (h : Tiles crypto key header baseNonce rest frame frames) :
    portableEnvelopeFrameMacBytes ≤ (frames.flatMap Sealing.box).length := by
  have hbox : ∀ plain isFinal, portableEnvelopeFrameMacBytes ≤
      (sealFrame crypto key header baseNonce plain frame isFinal).box.length := by
    intro plain isFinal
    exact (crypto.length_encrypt _ _ _ plain).ge.trans' (Nat.le_add_left _ _)
  cases h with
  | last hshort => simpa using hbox rest true
  | cons hlong hlater =>
    rw [List.flatMap_cons, List.length_append]
    exact (hbox _ _).trans (Nat.le_add_right _ _)

/-- The frames are read back. -/
theorem decryptFrames_eq (h : Tiles crypto key header baseNonce rest frame frames)
    (hopen : ∀ s ∈ frames, openSealed sealed s.key s.nonce s.aad s.box = some s.plain) :
    decryptFrames sealed key header baseNonce chunkSize (frames.flatMap Sealing.box) frame =
      .ok rest := by
  induction h with
  | @last rest frame hshort =>
    have hbox := crypto.length_encrypt key (frameNonce baseNonce frame)
      (frameAad header frame true) rest
    rw [List.flatMap_singleton]
    refine decryptFrames_last ?_ ?_ (hopen _ (List.mem_singleton_self _))
    · exact hbox ▸ Nat.le_add_left _ _
    · exact hbox ▸ Nat.add_le_add_right hshort _
  | @cons rest frame frames hlong hlater ih =>
    have hbox := crypto.length_encrypt key (frameNonce baseNonce frame)
      (frameAad header frame false) (rest.take chunkSize)
    rw [List.length_take, min_eq_left hlong.le] at hbox
    have hlater' : frames.flatMap Sealing.box ≠ [] := by
      intro hnil
      have hle := hlater.le_length_boxes
      rw [hnil] at hle
      exact absurd hle (by decide)
    have hread := decryptFrames_cons hbox hlater'
      (hopen _ List.mem_cons_self) (ih fun s hs => hopen s (List.mem_cons_of_mem _ hs))
    rw [sealFrame, List.take_append_drop] at hread
    exact hread

end Tiles

/-! ### Nonces -/

/-- The nonces of the frames are distinct as long as five bytes count them. -/
theorem Tiles.nodup_nonces_iff (h : Tiles crypto key header baseNonce rest 0 frames) :
    (frames.map Sealing.nonce).Nodup ↔ frames.length ≤ 2 ^ 40 := by
  have hnonce : ∀ i (hi : i < frames.length), frames[i].nonce = frameNonce baseNonce i := by
    intro i hi
    obtain ⟨plain, hplain⟩ := h.getElem hi
    rw [hplain, Nat.zero_add]
    rfl
  constructor
  · intro hnodup
    by_contra hlong
    -- the frame 2^40 has the nonce of the first one
    have hfirst := hnonce 0 (by omega)
    have hagain := hnonce (2 ^ 40) (by omega)
    have heq : frameNonce baseNonce (2 ^ 40) = frameNonce baseNonce 0 :=
      congrArg (_ ++ ·) (beBytes_eq_iff.mpr rfl)
    have hnodup := List.nodup_iff_injective_get.mp hnodup
    have hindex : (⟨2 ^ 40, by rw [List.length_map]; omega⟩ : Fin (frames.map Sealing.nonce).length) =
        ⟨0, by rw [List.length_map]; omega⟩ := by
      apply hnodup
      rw [List.get_eq_getElem, List.get_eq_getElem, List.getElem_map, List.getElem_map, hagain,
        hfirst, heq]
    exact absurd (Fin.mk.inj_iff.mp hindex) (by norm_num)
  · intro hshort
    rw [List.nodup_iff_injective_get]
    rintro ⟨i, hi⟩ ⟨j, hj⟩ heq
    rw [List.length_map] at hi hj
    rw [List.get_eq_getElem, List.get_eq_getElem, List.getElem_map, List.getElem_map, hnonce i hi,
      hnonce j hj] at heq
    have hi' : i < 256 ^ 5 := by omega
    have hj' : j < 256 ^ 5 := by omega
    exact Fin.ext ((beBytes_inj hi' hj').mp (List.append_cancel_left heq))

/-- A plaintext takes at most so many frames if it is not longer than they are. -/
theorem Tiles.length_le_iff (h : Tiles crypto key header baseNonce rest frame frames)
    (hne : rest ≠ []) (n : ℕ) : frames.length ≤ n ↔ rest.length ≤ chunkSize * n := by
  obtain ⟨hupper, hlower, hpos⟩ := h.length_bounds
  have hlower := hlower hne
  constructor
  · exact fun hle => hupper.trans (Nat.mul_le_mul_left _ hle)
  · intro hle
    have hlt := Nat.lt_of_mul_lt_mul_left (hlower.trans_le hle)
    omega

end Frames

/-! ### Headers -/

section Header

variable {salt : Vector UInt8 16} {baseNonce : Vector UInt8 24}

/-- A field that stands behind others. -/
theorem field_append {before field behind : Bytes} {offset length : ℕ}
    (hoffset : before.length = offset) (hlength : field.length = length) :
    ((before ++ field ++ behind).drop offset).take length = field := by
  rw [List.append_assoc, ← hoffset, List.drop_left, ← hlength, List.take_left]

theorem length_envelopeHeader : (envelopeHeader salt baseNonce).length =
    portableEnvelopeHeaderBytes := by
  simp [envelopeHeader, magicFormatV1, PortableBackupKdfParams.encode, uint32,
    portableEnvelopeHeaderBytes]

/-- The fields of a header are read back. -/
theorem fields_envelopeHeader (rest : Bytes) :
    let header := (envelopeHeader salt baseNonce ++ rest).take portableEnvelopeHeaderBytes
    header = envelopeHeader salt baseNonce ∧ header.take magicFormatV1.length = magicFormatV1 ∧
      readUint32 header 8 = chunkSize ∧ (header.drop 12).take 16 = salt.toList ∧
      (header.drop 28).take 16 = PortableBackupKdfParams.frozenV1.encode ∧
      (header.drop 44).take 24 = baseNonce.toList := by
  intro header
  have hheader : header = envelopeHeader salt baseNonce := by
    simp only [header]
    rw [← @length_envelopeHeader salt baseNonce, List.take_left]
  have hsalt : salt.toList.length = 16 := by simp
  have hbase : baseNonce.toList.length = 24 := by simp
  refine ⟨hheader, ?_, ?_, ?_, ?_, ?_⟩ <;> rw [hheader, envelopeHeader]
  · simp
  · have hsize := @field_append magicFormatV1 (uint32 chunkSize)
      (salt.toList ++ PortableBackupKdfParams.frozenV1.encode ++ baseNonce.toList) 8 4 rfl rfl
    simp only [List.append_assoc] at hsize ⊢
    rw [readUint32, hsize, uint32, beValue_beBytes]
    rfl
  · simpa using @field_append (magicFormatV1 ++ uint32 chunkSize) salt.toList
      (PortableBackupKdfParams.frozenV1.encode ++ baseNonce.toList) 12 16 rfl hsalt
  · simpa using @field_append (magicFormatV1 ++ uint32 chunkSize ++ salt.toList)
      PortableBackupKdfParams.frozenV1.encode baseNonce.toList 28 16
      (by rw [List.length_append, hsalt]; rfl) rfl
  · simpa using @field_append (magicFormatV1 ++ uint32 chunkSize ++ salt.toList ++
      PortableBackupKdfParams.frozenV1.encode) baseNonce.toList [] 44 24
      (by rw [List.length_append, List.length_append, hsalt]; rfl) hbase

end Header

/-! ### Envelopes -/

section Envelope

variable {Passphrase : Type} {crypto : Crypto Passphrase} {isCancelled : ℕ → Bool}
  {salt : Vector UInt8 16} {baseNonce : Vector UInt8 24} {passphrase : Passphrase}
  {plaintext file : Bytes} {sealed : List SealedFrame}

theorem encryptFile_eq_ok
    (h : encryptFile crypto isCancelled salt baseNonce passphrase plaintext = .ok (file, sealed)) :
    plaintext ≠ [] ∧ file = envelopeHeader salt baseNonce ++ sealed.flatMap Sealing.box ∧
      Tiles crypto (crypto.deriveKey .frozenV1 passphrase salt.toList)
        (envelopeHeader salt baseNonce) baseNonce.toList plaintext 0 sealed := by
  obtain ⟨hne, h⟩ := failIf_bind_eq_ok.mp h
  obtain ⟨frames, hframes, h⟩ := bind_eq_ok.mp h
  cases h
  exact ⟨fun hnil => hne (by rw [hnil]; rfl), rfl, encryptFrames_eq_ok hframes⟩

/-- A plaintext is encrypted unless this is cancelled. -/
theorem encryptFile_finishes (h : ∀ frame, isCancelled frame = false) (hne : plaintext ≠ []) :
    ∃ file sealed,
      encryptFile crypto isCancelled salt baseNonce passphrase plaintext = .ok (file, sealed) := by
  obtain ⟨frames, hframes⟩ := @encryptFrames_finishes _ crypto isCancelled
    (crypto.deriveKey .frozenV1 passphrase salt.toList) (envelopeHeader salt baseNonce)
    baseNonce.toList h plaintext 0
  refine ⟨envelopeHeader salt baseNonce ++ frames.flatMap Sealing.box, frames, ?_⟩
  have hpos : ¬ plaintext.length = 0 := fun hlength => hne (List.length_eq_zero_iff.mp hlength)
  unfold encryptFile
  rw [failIf_of_not hpos, ok_bind]
  dsimp only
  rw [hframes]
  rfl

/-- The frames of a file that a program can read are counted by eight bytes. -/
theorem length_sealed_le
    (h : encryptFile crypto isCancelled salt baseNonce passphrase plaintext = .ok (file, sealed))
    (hlength : plaintext.length < 2 ^ 63) : sealed.length ≤ 2 ^ 64 := by
  obtain ⟨hne, -, htiles⟩ := encryptFile_eq_ok h
  refine (htiles.length_le_iff hne (2 ^ 64)).mpr ?_
  unfold chunkSize
  omega

/-- When the nonces of an envelope are distinct. -/
theorem nodup_nonces_iff
    (h : encryptFile crypto isCancelled salt baseNonce passphrase plaintext = .ok (file, sealed)) :
    (sealed.map Sealing.nonce).Nodup ↔ plaintext.length ≤ 2 ^ 56 := by
  obtain ⟨hne, -, htiles⟩ := encryptFile_eq_ok h
  have hbytes : chunkSize * 2 ^ 40 = 2 ^ 56 := by norm_num [chunkSize]
  rw [htiles.nodup_nonces_iff, htiles.length_le_iff hne, hbytes]

/-- An envelope is read back. -/
theorem read_encrypted
    (h : encryptFile crypto isCancelled salt baseNonce passphrase plaintext = .ok (file, sealed))
    (hlength : plaintext.length < 2 ^ 63) :
    readPortableBackupArchive crypto sealed file passphrase = .ok plaintext := by
  have hsealed := length_sealed_le h hlength
  obtain ⟨hne, rfl, htiles⟩ := encryptFile_eq_ok h
  obtain ⟨hheader, hmagic, hsize, hsalt, hkdf, hbase⟩ :=
    @fields_envelopeHeader salt baseNonce (sealed.flatMap Sealing.box)
  have hopen : ∀ s ∈ sealed, openSealed sealed s.key s.nonce s.aad s.box = some s.plain :=
    fun s hs => openSealed_of_mem (htiles.nodup_aads hsealed) hs
  have hread := htiles.decryptFrames_eq hopen
  have hlong : ¬ (envelopeHeader salt baseNonce ++ sealed.flatMap Sealing.box).length <
      portableEnvelopeHeaderBytes + portableEnvelopeFrameMacBytes := by
    rw [List.length_append, length_envelopeHeader, not_lt]
    exact Nat.add_le_add_left htiles.le_length_boxes _
  have hdecode : PortableBackupKdfParams.decode PortableBackupKdfParams.frozenV1.encode =
      .ok .frozenV1 := by decide +kernel
  unfold readPortableBackupArchive
  rw [failIf_of_not hlong, ok_bind]
  dsimp only
  rw [failIf_of_not (not_not.mpr hmagic), ok_bind, hsize, failIf_of_not (by decide), ok_bind, hkdf,
    hdecode, ok_bind, failIf_of_not (by decide), ok_bind, hsalt, hbase, hheader,
    ← @length_envelopeHeader salt baseNonce, List.drop_left, hread]

/-- Only the envelope itself is read. -/
theorem eq_of_read
    (h : encryptFile crypto isCancelled salt baseNonce passphrase plaintext = .ok (file, sealed))
    (hlength : plaintext.length < 2 ^ 63) {file' : Bytes} {passphrase' : Passphrase} {plain : Bytes}
    (hread : readPortableBackupArchive crypto sealed file' passphrase' = .ok plain) :
    file' = file := by
  have hsealed := length_sealed_le h hlength
  obtain ⟨hne, rfl, htiles⟩ := encryptFile_eq_ok h
  obtain ⟨hlong, hread⟩ := failIf_bind_eq_ok.mp hread
  obtain ⟨-, hread⟩ := failIf_bind_eq_ok.mp hread
  obtain ⟨-, hread⟩ := failIf_bind_eq_ok.mp hread
  obtain ⟨params, -, hread⟩ := bind_eq_ok.mp hread
  obtain ⟨-, hread⟩ := failIf_bind_eq_ok.mp hread
  have hheader : (envelopeHeader salt baseNonce).length =
      (file'.take portableEnvelopeHeaderBytes).length := by
    rw [length_envelopeHeader, List.length_take, min_eq_left]
    unfold portableEnvelopeHeaderBytes at *
    omega
  obtain ⟨hheader', hbody⟩ :=
    htiles.eq_of_decryptFrames hsealed hheader htiles.length_bounds.2.2 hread
  rw [← hheader', ← List.drop_zero (l := sealed), ← hbody, List.take_append_drop]

/-- **What the envelope protects**: a plaintext can be encrypted; its envelope is read back, no other
file is read, and its nonces are distinct exactly up to 2^56 bytes. -/
theorem envelope_sound (crypto : Crypto Passphrase) (salt : Vector UInt8 16)
    (baseNonce : Vector UInt8 24) (passphrase : Passphrase) {plaintext : Bytes}
    (hne : plaintext ≠ []) (hlength : plaintext.length < 2 ^ 63) :
    (∃ file sealed,
      encryptFile crypto (fun _ => false) salt baseNonce passphrase plaintext = .ok (file, sealed)) ∧
    ∀ isCancelled file sealed,
      encryptFile crypto isCancelled salt baseNonce passphrase plaintext = .ok (file, sealed) →
      readPortableBackupArchive crypto sealed file passphrase = .ok plaintext ∧
      (∀ file' passphrase', file' ≠ file →
        ∃ e, readPortableBackupArchive crypto sealed file' passphrase' = .error e) ∧
      ((sealed.map Sealing.nonce).Nodup ↔ plaintext.length ≤ 2 ^ 56) := by
  refine ⟨encryptFile_finishes (fun _ => rfl) hne, fun isCancelled file sealed h => ⟨?_, ?_, ?_⟩⟩
  · exact read_encrypted h hlength
  · intro file' passphrase' hother
    cases hread : readPortableBackupArchive crypto sealed file' passphrase' with
    | error e => exact ⟨e, rfl⟩
    | ok plain => exact absurd (eq_of_read h hlength hread) hother
  · exact nodup_nonces_iff h

/-- A cipher of an example: its MAC is of zeros. -/
def plainCrypto : Crypto String where
  deriveKey := fun _ passphrase salt => passphrase.toUTF8.toList ++ salt
  encrypt := fun _ _ _ plain => plain ++ List.replicate portableEnvelopeFrameMacBytes 0
  length_encrypt := by simp

/-- An envelope of three bytes. -/
theorem envelope_sound_three : ∃ file sealed,
    encryptFile plainCrypto (fun _ => false) (.replicate 16 7) (.replicate 24 9) "panda" [1, 2, 3] =
      .ok (file, sealed) ∧
    readPortableBackupArchive plainCrypto sealed file "panda" = .ok [1, 2, 3] ∧
    (∀ file' passphrase', file' ≠ file →
      ∃ e, readPortableBackupArchive plainCrypto sealed file' passphrase' = .error e) ∧
    (sealed.map Sealing.nonce).Nodup := by
  have hsound := envelope_sound plainCrypto (.replicate 16 7) (.replicate 24 9) "panda"
    (List.cons_ne_nil 1 [2, 3]) (by norm_num)
  obtain ⟨file, sealed, h⟩ := hsound.1
  obtain ⟨hread, hreject, hnonces⟩ := hsound.2 _ file sealed h
  exact ⟨file, sealed, h, hread, hreject, hnonces.mpr (by norm_num)⟩

/-- A plaintext of 2^56 + 1 bytes takes 2^40 + 1 frames: the last one has the nonce of the first. -/
theorem not_nonces_distinct :
    ¬ ∀ (crypto : Crypto String) (salt : Vector UInt8 16) (baseNonce : Vector UInt8 24)
      (passphrase : String) (plaintext file : Bytes) (sealed : List SealedFrame),
      plaintext ≠ [] → plaintext.length < 2 ^ 63 →
      encryptFile crypto (fun _ => false) salt baseNonce passphrase plaintext = .ok (file, sealed) →
      (sealed.map Sealing.nonce).Nodup := by
  intro h
  let plaintext : Bytes := List.replicate (2 ^ 56 + 1) 0
  have hlength : plaintext.length = 2 ^ 56 + 1 := List.length_replicate
  have hne : plaintext ≠ [] := by
    intro hnil
    rw [hnil] at hlength
    cases hlength
  obtain ⟨file, sealed, hfile⟩ := @encryptFile_finishes _ plainCrypto (fun _ => false)
    (.replicate 16 7) (.replicate 24 9) "panda" plaintext (fun _ => rfl) hne
  have hnodup := h plainCrypto _ _ "panda" plaintext file sealed hne (by rw [hlength]; norm_num) hfile
  have hle := (nodup_nonces_iff hfile).mp hnodup
  omega

end Envelope

end PandaPay.PortableBackup
