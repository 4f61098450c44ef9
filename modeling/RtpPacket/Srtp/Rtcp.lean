import RtpPacket.Srtp.RoundTrip

/-!
# Protecting and opening RTCP packets

One 31-bit index counts the packets a session protects, whatever their source;
the receiver keeps a replay window for each source. The trailer holds the index
with the E bit in front: behind the tag in the authenticated cipher's layout,
before it in the counter-mode layout.
-/

namespace RtpPacket.Srtp

open ByteCodec

set_option autoImplicit false

def rtcpSsrcOf (packet : Bytes) : Nat := readBE 4 packet 4

def encryptedWord (index : Nat) : Nat := (0x80000000 ||| index) % 2 ^ 32

def rtcpAuthTag (crypto : Crypto) (key authenticated : Bytes) : Bytes :=
  (crypto.hmacSha1 key authenticated).take authTagLen

def protectRtcp (crypto : Crypto) (session : Session) (rtcpPacket : Bytes) (index : Nat) : Bytes :=
  let ssrc := rtcpSsrcOf rtcpPacket
  let header := rtcpPacket.take 8
  let payload := rtcpPacket.drop 8
  let indexWord := encodeBE 4 (encryptedWord index)
  if session.profile.gcm then
    let iv := buildGcmRtcpIv session.encRtcpSalt ssrc index
    let encrypted := crypto.gcmSeal session.profile.gcmCipher session.encRtcpKey iv
      (header ++ indexWord) payload
    header ++ encrypted.1 ++ encrypted.2 ++ indexWord
  else
    let iv := buildRtcpIv session.encRtcpSalt ssrc index
    let out := header ++ aesCmEncrypt crypto session.encRtcpKey iv payload ++ indexWord
    out ++ rtcpAuthTag crypto session.encRtcpAuth out

def encryptRtcp (crypto : Crypto) (session : Session) (rtcpPacket : Bytes) :
    Session × Option Bytes :=
  if rtcpPacket.length < 8 then (session, none)
  else
    let index := session.srtcpSendIndex
    ({ session with srtcpSendIndex := (index + 1) % 2 ^ 31 },
      some (protectRtcp crypto session rtcpPacket index))

def srtcpReplayOk (session : Session) (ssrc index : Nat) : Session × Bool :=
  if !session.replayEnabled then (session, true)
  else
    let st := (session.srtcpRecvState ssrc).getD RecvState.new
    let (entry, fresh) := replayCheckAndUpdate st index
    ({ session with
        srtcpRecvState := Function.update session.srtcpRecvState ssrc (some entry) }, fresh)

/-- `_decryptRtcpGcm` up to the replay check: the index and the packet. -/
def openRtcpGcm (crypto : Crypto) (session : Session) (srtcpPacket : Bytes) :
    Option (Nat × Bytes) :=
  if srtcpPacket.length < 8 + gcmTagLen + 4 then none
  else
    let indexStart := srtcpPacket.length - 4
    let tagStart := indexStart - gcmTagLen
    let indexWord := readBE 4 srtcpPacket indexStart
    let isEncrypted := indexWord / 2 ^ 31 % 2 = 1
    let index := indexWord % 2 ^ 31
    let iv := buildGcmRtcpIv session.decRtcpSalt (rtcpSsrcOf srtcpPacket) index
    let aad := srtcpPacket.take 8 ++ encodeBE 4 indexWord
    if ¬ isEncrypted then none
    else
      (crypto.gcmOpen session.profile.gcmCipher session.decRtcpKey iv aad
        ((srtcpPacket.take tagStart).drop 8) ((srtcpPacket.take indexStart).drop tagStart)).map
          fun plaintext => (index, srtcpPacket.take 8 ++ plaintext)

/-- The counter-mode layout up to the replay check. A packet without the E bit was
authenticated only and is handed out as it stands. -/
def openRtcpCm (crypto : Crypto) (session : Session) (srtcpPacket : Bytes) :
    Option (Nat × Bytes) :=
  if srtcpPacket.length < 8 + 4 + authTagLen then none
  else
    let authTagStart := srtcpPacket.length - authTagLen
    let indexStart := authTagStart - 4
    let authenticated := srtcpPacket.take authTagStart
    let indexWord := readBE 4 srtcpPacket indexStart
    let isEncrypted := indexWord / 2 ^ 31 % 2 = 1
    let index := indexWord % 2 ^ 31
    let expectedTag := rtcpAuthTag crypto session.decRtcpAuth authenticated
    if !constantTimeEquals (srtcpPacket.drop authTagStart) expectedTag then none
    else if ¬ isEncrypted then some (index, srtcpPacket.take indexStart)
    else
      let iv := buildRtcpIv session.decRtcpSalt (rtcpSsrcOf srtcpPacket) index
      some (index, srtcpPacket.take 8 ++
        aesCmEncrypt crypto session.decRtcpKey iv ((srtcpPacket.take indexStart).drop 8))

def openRtcp (crypto : Crypto) (session : Session) (srtcpPacket : Bytes) : Option (Nat × Bytes) :=
  if session.profile.gcm then openRtcpGcm crypto session srtcpPacket
  else openRtcpCm crypto session srtcpPacket

def decryptRtcp (crypto : Crypto) (session : Session) (srtcpPacket : Bytes) :
    Session × Option Bytes :=
  match openRtcp crypto session srtcpPacket with
  | none => (session, none)
  | some (index, plaintext) =>
      let (checked, fresh) := srtcpReplayOk session (rtcpSsrcOf srtcpPacket) index
      (checked, if fresh then some plaintext else none)

theorem encrypt_rtcp_long (crypto : Crypto) (session : Session) {packet : Bytes}
    (long : 8 ≤ packet.length) :
    encryptRtcp crypto session packet =
      ({ session with srtcpSendIndex := (session.srtcpSendIndex + 1) % 2 ^ 31 },
        some (protectRtcp crypto session packet session.srtcpSendIndex)) := by
  rw [encryptRtcp, if_neg (by omega)]

theorem encrypted_word_eq {index : Nat} (small : index < 2 ^ 31) :
    encryptedWord index = 2 ^ 31 + index := by
  have set : 0x80000000 ||| index = 2 ^ 31 + index :=
    (Nat.two_pow_add_eq_or_of_lt small 1).symm
  rw [encryptedWord, set]
  omega

theorem encrypted_word_fields {index : Nat} (small : index < 2 ^ 31) :
    encryptedWord index / 2 ^ 31 % 2 = 1 ∧ encryptedWord index % 2 ^ 31 = index := by
  rw [encrypted_word_eq small]
  omega

theorem read_encrypted_word {front : Bytes} {start index : Nat} (length : front.length = start)
    (small : index < 2 ^ 31) (suffix : Bytes) :
    readBE 4 (front ++ (encodeBE 4 (encryptedWord index) ++ suffix)) start =
      encryptedWord index := by
  have read := @read_be_past 4 _ _ length (encodeBE 4 (encryptedWord index) ++ suffix) 0
  rw [Nat.add_zero, read_be_encode, encrypted_word_eq small] at read
  rw [encrypted_word_eq small, read]
  omega

theorem protect_rtcp_gcm (crypto : Crypto) {session : Session}
    (gcm : session.profile.gcm = true) (packet : Bytes) (index : Nat) :
    ∃ ciphertext tag,
      crypto.gcmSeal session.profile.gcmCipher session.encRtcpKey
          (buildGcmRtcpIv session.encRtcpSalt (rtcpSsrcOf packet) index)
          (packet.take 8 ++ encodeBE 4 (encryptedWord index)) (packet.drop 8) =
        (ciphertext, tag) ∧
      tag.length = 16 ∧
      protectRtcp crypto session packet index =
        packet.take 8 ++ ciphertext ++ (tag ++ encodeBE 4 (encryptedWord index)) := by
  refine ⟨_, _, rfl, crypto.gcm_tag_length _ _ _ _ _, ?_⟩
  simp only [protectRtcp, gcm, if_true, List.append_assoc]

theorem protect_rtcp_cm (crypto : Crypto) {session : Session}
    (counterMode : ¬ session.profile.gcm = true) (packet : Bytes) (index : Nat) :
    protectRtcp crypto session packet index =
      packet.take 8 ++ aesCmEncrypt crypto session.encRtcpKey
          (buildRtcpIv session.encRtcpSalt (rtcpSsrcOf packet) index) (packet.drop 8) ++
        (encodeBE 4 (encryptedWord index) ++
          rtcpAuthTag crypto session.encRtcpAuth (packet.take 8 ++
            aesCmEncrypt crypto session.encRtcpKey
              (buildRtcpIv session.encRtcpSalt (rtcpSsrcOf packet) index) (packet.drop 8) ++
            encodeBE 4 (encryptedWord index))) := by
  rw [protectRtcp, if_neg counterMode]
  simp only [List.append_assoc]

theorem rtcp_auth_tag_length (crypto : Crypto) (key authenticated : Bytes) :
    (rtcpAuthTag crypto key authenticated).length = 10 := by
  simp [rtcpAuthTag, crypto.hmac_length, authTagLen]

/-- The first eight bytes go out in clear, and they name the source. -/
theorem protect_rtcp_header (crypto : Crypto) (session : Session) {packet : Bytes}
    (long : 8 ≤ packet.length) (index : Nat) :
    (protectRtcp crypto session packet index).take 8 = packet.take 8 ∧
      rtcpSsrcOf (protectRtcp crypto session packet index) = rtcpSsrcOf packet := by
  have clear : ∃ suffix, protectRtcp crypto session packet index = packet.take 8 ++ suffix := by
    rw [protectRtcp]
    split_ifs
    · exact ⟨_, by simp only [List.append_assoc]; rfl⟩
    · exact ⟨_, by simp only [List.append_assoc]; rfl⟩
  obtain ⟨suffix, shape⟩ := clear
  have headerTaken : (packet.take 8).length = 8 := by simp [long]
  rw [shape]
  constructor
  · exact List.take_left' headerTaken
  · exact read_be_take_append suffix (Nat.le_refl 8) long

section Open

variable (crypto : Crypto) {sender receiver : Session} (matched : Matched sender receiver)
  {packet : Bytes} (long : 8 ≤ packet.length) {index : Nat} (small : index < 2 ^ 31)

include matched long small

theorem open_protect_rtcp_gcm (gcm : sender.profile.gcm = true) :
    openRtcp crypto receiver (protectRtcp crypto sender packet index) = some (index, packet) := by
  obtain ⟨ciphertext, tag, sealing, tagLength, shape⟩ :=
    protect_rtcp_gcm crypto gcm packet index
  have headerTaken : (packet.take 8).length = 8 := by simp [long]
  have wordLength : (encodeBE 4 (encryptedWord index)).length = 4 := encode_be_length _ _
  have opened := crypto.gcm_open_seal sender.profile.gcmCipher sender.encRtcpKey
    (buildGcmRtcpIv sender.encRtcpSalt (rtcpSsrcOf packet) index)
    (packet.take 8 ++ encodeBE 4 (encryptedWord index)) (packet.drop 8)
  rw [sealing] at opened
  obtain ⟨front, _⟩ := cut_protected (packet.take 8 ++ ciphertext) tag
    (encodeBE 4 (encryptedWord index))
  rw [wordLength, ← shape] at front
  have length : (protectRtcp crypto sender packet index).length =
      (packet.take 8 ++ ciphertext).length + 20 := by
    rw [shape]
    simp only [List.length_append, tagLength, wordLength]
  have roomy : ¬ (protectRtcp crypto sender packet index).length < 8 + 16 + 4 := by
    rw [length, List.length_append, headerTaken]
    omega
  have tagStart : (protectRtcp crypto sender packet index).length - 4 - 16 =
      (packet.take 8 ++ ciphertext).length := by omega
  have word : readBE 4 (protectRtcp crypto sender packet index)
      ((protectRtcp crypto sender packet index).length - 4) = encryptedWord index := by
    have place : ((packet.take 8 ++ ciphertext) ++ tag).length =
        (protectRtcp crypto sender packet index).length - 4 := by
      rw [length, List.length_append, tagLength]
      omega
    have read := read_encrypted_word place small []
    rwa [List.append_nil, List.append_assoc, ← shape] at read
  obtain ⟨header, ssrc⟩ := protect_rtcp_header crypto sender long index
  have body : (protectRtcp crypto sender packet index).take
      (packet.take 8 ++ ciphertext).length = packet.take 8 ++ ciphertext := by
    rw [shape, List.take_left]
  obtain ⟨encrypted, named⟩ := encrypted_word_fields small
  rw [openRtcp, matched.profile, if_pos gcm, openRtcpGcm]
  simp only [gcmTagLen, roomy, if_false, word, encrypted, not_true, named, ssrc, tagStart, header,
    front, body, List.drop_left' headerTaken, List.drop_left, matched.profile, matched.rtcpKey,
    matched.rtcpSalt, opened, Option.map_some, List.take_append_drop]

theorem open_protect_rtcp_cm (counterMode : ¬ sender.profile.gcm = true) :
    openRtcp crypto receiver (protectRtcp crypto sender packet index) = some (index, packet) := by
  have shape := protect_rtcp_cm crypto counterMode packet index
  obtain ⟨ciphertext, enciphering⟩ : ∃ ciphertext, aesCmEncrypt crypto sender.encRtcpKey
      (buildRtcpIv sender.encRtcpSalt (rtcpSsrcOf packet) index) (packet.drop 8) = ciphertext :=
    ⟨_, rfl⟩
  have deciphered : aesCmEncrypt crypto sender.encRtcpKey
      (buildRtcpIv sender.encRtcpSalt (rtcpSsrcOf packet) index) ciphertext = packet.drop 8 := by
    rw [← enciphering]
    exact ctr_xor_involutive crypto .aes128 _ _ _
  rw [enciphering] at shape
  have headerTaken : (packet.take 8).length = 8 := by simp [long]
  have wordLength : (encodeBE 4 (encryptedWord index)).length = 4 := encode_be_length _ _
  have tagLength := rtcp_auth_tag_length crypto sender.encRtcpAuth
    (packet.take 8 ++ ciphertext ++ encodeBE 4 (encryptedWord index))
  obtain ⟨front, back⟩ := cut_protected (packet.take 8 ++ ciphertext)
    (encodeBE 4 (encryptedWord index)) (rtcpAuthTag crypto sender.encRtcpAuth
      (packet.take 8 ++ ciphertext ++ encodeBE 4 (encryptedWord index)))
  rw [tagLength, ← shape] at front back
  have length : (protectRtcp crypto sender packet index).length =
      (packet.take 8 ++ ciphertext).length + 14 := by
    rw [shape]
    simp only [List.length_append, tagLength, wordLength]
  have roomy : ¬ (protectRtcp crypto sender packet index).length < 8 + 4 + 10 := by
    rw [length, List.length_append, headerTaken]
    omega
  have indexStart : (protectRtcp crypto sender packet index).length - 10 - 4 =
      (packet.take 8 ++ ciphertext).length := by omega
  have word : readBE 4 (protectRtcp crypto sender packet index)
      (packet.take 8 ++ ciphertext).length = encryptedWord index := by
    rw [shape]
    exact read_encrypted_word rfl small _
  obtain ⟨header, ssrc⟩ := protect_rtcp_header crypto sender long index
  have body : (protectRtcp crypto sender packet index).take
      (packet.take 8 ++ ciphertext).length = packet.take 8 ++ ciphertext := by
    rw [shape, List.take_left]
  obtain ⟨encrypted, named⟩ := encrypted_word_fields small
  rw [openRtcp, matched.profile, if_neg counterMode, openRtcpCm]
  simp only [authTagLen, roomy, if_false, front, back, indexStart, word, encrypted, not_true,
    named, ssrc, header, body, List.drop_left' headerTaken, matched.rtcpAuth, matched.rtcpKey,
    matched.rtcpSalt, constant_time_equals_self, Bool.not_true, Bool.false_eq_true, deciphered,
    List.take_append_drop]

theorem open_protect_rtcp :
    openRtcp crypto receiver (protectRtcp crypto sender packet index) = some (index, packet) := by
  by_cases gcm : sender.profile.gcm = true
  · exact open_protect_rtcp_gcm crypto matched long small gcm
  · exact open_protect_rtcp_cm crypto matched long small gcm

end Open

/-- Past authentication the window of the packet's source alone decides, and its
entry is stored either way. -/
theorem decrypt_rtcp_opened {crypto : Crypto} {session : Session} {srtcpPacket plaintext : Bytes}
    {index : Nat} (opened : openRtcp crypto session srtcpPacket = some (index, plaintext))
    (replay : session.replayEnabled = true) {entry : RecvState} {fresh : Bool}
    (checked : replayCheckAndUpdate
      ((session.srtcpRecvState (rtcpSsrcOf srtcpPacket)).getD RecvState.new) index =
        (entry, fresh)) :
    decryptRtcp crypto session srtcpPacket =
      ({ session with
          srtcpRecvState := Function.update session.srtcpRecvState (rtcpSsrcOf srtcpPacket)
            (some entry) },
        if fresh then some plaintext else none) := by
  rw [decryptRtcp, opened]
  simp only [srtcpReplayOk, replay, Bool.not_true, Bool.false_eq_true, if_false, checked]

theorem decrypt_rtcp_session (crypto : Crypto) (session : Session) (srtcpPacket : Bytes) :
    ∃ windows, (decryptRtcp crypto session srtcpPacket).1 =
        { session with srtcpRecvState := windows } ∧
      ∀ ssrc ≠ rtcpSsrcOf srtcpPacket, windows ssrc = session.srtcpRecvState ssrc := by
  cases opened : openRtcp crypto session srtcpPacket with
  | none =>
      rw [decryptRtcp, opened]
      exact ⟨session.srtcpRecvState, rfl, fun _ _ => rfl⟩
  | some found =>
      by_cases replay : session.replayEnabled = true
      · rw [decrypt_rtcp_opened opened replay Prod.mk.eta.symm]
        exact ⟨Function.update session.srtcpRecvState (rtcpSsrcOf srtcpPacket) _, rfl,
          fun _ apart => Function.update_of_ne apart _ _⟩
      · have unchecked : srtcpReplayOk session (rtcpSsrcOf srtcpPacket) found.1 =
            (session, true) := by
          rw [srtcpReplayOk, if_pos (by simpa using replay)]
        rw [decryptRtcp, opened]
        simp only [unchecked]
        exact ⟨session.srtcpRecvState, rfl, fun _ _ => rfl⟩

theorem decrypt_rtcp_answer (crypto : Crypto) (session : Session) {srtcpPacket : Bytes}
    {windows : Nat → Option RecvState}
    (own : windows (rtcpSsrcOf srtcpPacket) = session.srtcpRecvState (rtcpSsrcOf srtcpPacket)) :
    (decryptRtcp crypto { session with srtcpRecvState := windows } srtcpPacket).2 =
      (decryptRtcp crypto session srtcpPacket).2 := by
  have same : openRtcp crypto { session with srtcpRecvState := windows } srtcpPacket =
      openRtcp crypto session srtcpPacket := rfl
  rw [decryptRtcp, decryptRtcp, same]
  cases openRtcp crypto session srtcpPacket with
  | none => rfl
  | some found =>
      simp only [srtcpReplayOk, own]
      cases session.replayEnabled <;> rfl

/-- A packet of one source never changes what becomes of another's. -/
theorem decrypt_rtcp_isolated (crypto : Crypto) (session : Session) {srtcpPacket other : Bytes}
    (apart : rtcpSsrcOf other ≠ rtcpSsrcOf srtcpPacket) :
    (decryptRtcp crypto (decryptRtcp crypto session srtcpPacket).1 other).2 =
      (decryptRtcp crypto session other).2 := by
  obtain ⟨windows, after, kept⟩ := decrypt_rtcp_session crypto session srtcpPacket
  rw [after]
  exact decrypt_rtcp_answer crypto session (kept _ apart)

end RtpPacket.Srtp
