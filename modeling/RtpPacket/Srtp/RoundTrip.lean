import RtpPacket.Srtp.Rtp

/-!
# Opening what was protected

Under matching keys and the same counter, `openRtp` inverts `protectRtp`. The one
header fact this needs is that the receiver finds the payload where the sender
left it although the packet grew: true for a header without extension bit or with
a complete extension block.
-/

namespace RtpPacket.Srtp

open ByteCodec

set_option autoImplicit false

/-- No extension bit, or an extension block that ends inside the packet. -/
def WellFormedHeader (packet : Bytes) : Prop :=
  let b0 := readBE 1 packet 0
  let fixedLen := 12 + b0 % 16 * 4
  b0 / 16 % 2 = 1 → fixedLen + 4 ≤ packet.length ∧
    fixedLen + (4 + readBE 2 packet (fixedLen + 2) * 4) ≤ packet.length

instance (packet : Bytes) : Decidable (WellFormedHeader packet) :=
  inferInstanceAs (Decidable (_ → _))

theorem header_length_ge (packet : Bytes) : 12 ≤ rtpHeaderLength packet := by
  simp only [rtpHeaderLength]
  split_ifs <;> omega

/-- Only header bytes decide the header length, whatever follows them. -/
theorem header_length_stable {packet : Bytes} (wellFormed : WellFormedHeader packet)
    (fits : rtpHeaderLength packet ≤ packet.length) (suffix : Bytes) :
    rtpHeaderLength (packet.take (rtpHeaderLength packet) ++ suffix) = rtpHeaderLength packet := by
  have atLeast := header_length_ge packet
  have bytesKept (width offset : Nat) (inside : offset + width ≤ rtpHeaderLength packet) :
      readBE width (packet.take (rtpHeaderLength packet) ++ suffix) offset =
        readBE width packet offset :=
    read_be_take_append suffix inside fits
  have longEnough : rtpHeaderLength packet ≤
      (packet.take (rtpHeaderLength packet) ++ suffix).length := by
    simp only [List.length_append, List.length_take]
    omega
  generalize packet.take (rtpHeaderLength packet) ++ suffix = grown at bytesKept longEnough ⊢
  have first := bytesKept 1 0 (by omega)
  by_cases extension : readBE 1 packet 0 / 16 % 2 = 1
  · obtain ⟨blockHeader, block⟩ := wellFormed extension
    have value : rtpHeaderLength packet = 12 + readBE 1 packet 0 % 16 * 4 +
        (4 + readBE 2 packet (12 + readBE 1 packet 0 % 16 * 4 + 2) * 4) := by
      simp only [rtpHeaderLength, extension, blockHeader, and_self, if_true]
    have words := bytesKept 2 (12 + readBE 1 packet 0 % 16 * 4 + 2) (by omega)
    have blockFits : 12 + readBE 1 packet 0 % 16 * 4 + 4 ≤ grown.length := by omega
    rw [value, rtpHeaderLength]
    simp only [first, extension, blockFits, words, and_self, if_true]
  · simp only [rtpHeaderLength, first, extension, false_and, if_false]

theorem ctr_xor_length (crypto : Crypto) (cipher : CtrCipher) (key iv payload : Bytes) :
    (ctrXor crypto cipher key iv payload).length = payload.length := by
  simp [ctrXor]

theorem ctr_xor_involutive (crypto : Crypto) (cipher : CtrCipher) (key iv payload : Bytes) :
    ctrXor crypto cipher key iv (ctrXor crypto cipher key iv payload) = payload := by
  apply List.ext_getElem (by simp [ctrXor])
  intro position left right
  simp only [ctrXor, List.getElem_mapIdx, UInt8.xor_assoc, UInt8.xor_self, UInt8.xor_zero]

theorem constant_time_equals_self (bytes : Bytes) : constantTimeEquals bytes bytes = true := by
  have zeros (rest : Bytes) : (List.zipWith (· ^^^ ·) rest rest).foldl (· ||| ·) 0 = 0 := by
    induction rest with
    | nil => rfl
    | cons byte rest ih =>
        rw [List.zipWith_cons_cons, List.foldl_cons, UInt8.xor_self, UInt8.or_self]
        exact ih
  rw [constantTimeEquals, if_neg (by simp), zeros]
  rfl

theorem auth_tag_length (crypto : Crypto) (key authenticated : Bytes) (roc : Nat) :
    (authTag crypto key authenticated roc).length = authTagLen := by
  simp [authTag, crypto.hmac_length, authTagLen]

theorem protect_rtp_shape (crypto : Crypto) (session : Session) (packet : Bytes)
    (roc index : Nat) :
    ∃ body tag, protectRtp crypto session packet roc index =
        packet.take (rtpHeaderLength packet) ++ (body ++ tag) ∧
      body.length = (packet.drop (rtpHeaderLength packet)).length ∧
      tag.length = session.profile.tagLen := by
  unfold protectRtp Profile.tagLen
  by_cases gcm : session.profile.gcm = true
  · simp only [gcm, if_true]
    refine ⟨_, _, List.append_assoc _ _ _, ?_, ?_⟩
    · exact crypto.gcm_seal_length _ _ _ _ _
    · exact crypto.gcm_tag_length _ _ _ _ _
  · rw [if_neg gcm, if_neg gcm]
    refine ⟨_, _, List.append_assoc _ _ _, ?_, ?_⟩
    · exact ctr_xor_length crypto _ _ _ _
    · exact auth_tag_length crypto _ _ _

theorem protect_rtp_length (crypto : Crypto) (session : Session) {packet : Bytes}
    (fits : rtpHeaderLength packet ≤ packet.length) (roc index : Nat) :
    (protectRtp crypto session packet roc index).length =
      packet.length + session.profile.tagLen := by
  obtain ⟨body, tag, shape, bodyLength, tagLength⟩ :=
    protect_rtp_shape crypto session packet roc index
  rw [shape]
  simp only [List.length_append, List.length_take, List.length_drop] at bodyLength ⊢
  omega

section Header

variable (crypto : Crypto) (session : Session) {packet : Bytes}
  (fits : rtpHeaderLength packet ≤ packet.length) (roc index : Nat)

include fits

theorem protect_rtp_seq : seqOf (protectRtp crypto session packet roc index) = seqOf packet := by
  obtain ⟨body, tag, shape, _, _⟩ := protect_rtp_shape crypto session packet roc index
  have atLeast := header_length_ge packet
  rw [shape]
  exact read_be_take_append _ (by omega) fits

theorem protect_rtp_ssrc :
    ssrcOf (protectRtp crypto session packet roc index) = ssrcOf packet := by
  obtain ⟨body, tag, shape, _, _⟩ := protect_rtp_shape crypto session packet roc index
  have atLeast := header_length_ge packet
  rw [shape]
  exact read_be_take_append _ (by omega) fits

end Header

theorem cut_protected (header body tag : Bytes) :
    (header ++ (body ++ tag)).take ((header ++ (body ++ tag)).length - tag.length) =
        header ++ body ∧
      (header ++ (body ++ tag)).drop ((header ++ (body ++ tag)).length - tag.length) = tag := by
  have place : (header ++ (body ++ tag)).length - tag.length = (header ++ body).length := by
    simp only [List.length_append]
    omega
  rw [place, ← List.append_assoc]
  exact ⟨List.take_left, List.drop_left⟩

theorem protect_rtp_header_length (crypto : Crypto) (sender : Session) {packet : Bytes}
    (wellFormed : WellFormedHeader packet) (fits : rtpHeaderLength packet ≤ packet.length)
    (roc index : Nat) :
    rtpHeaderLength (protectRtp crypto sender packet roc index) = rtpHeaderLength packet := by
  obtain ⟨body, tag, shape, _, _⟩ := protect_rtp_shape crypto sender packet roc index
  rw [shape]
  exact header_length_stable wellFormed fits (body ++ tag)

section Open

variable (crypto : Crypto) {sender receiver : Session} (matched : Matched sender receiver)
  {packet : Bytes} (wellFormed : WellFormedHeader packet)
  (fits : rtpHeaderLength packet ≤ packet.length) (roc index : Nat)

include matched wellFormed fits

theorem open_protect_gcm (gcm : sender.profile.gcm = true) :
    openRtp crypto receiver (protectRtp crypto sender packet roc index) roc index =
      some packet := by
  have seq := protect_rtp_seq crypto sender fits roc index
  have ssrc := protect_rtp_ssrc crypto sender fits roc index
  have headerLen := protect_rtp_header_length crypto sender wellFormed fits roc index
  have length := protect_rtp_length crypto sender fits roc index
  have headerTaken : (packet.take (rtpHeaderLength packet)).length = rtpHeaderLength packet := by
    simp [fits]
  obtain ⟨sealed, sealing⟩ : ∃ sealed, crypto.gcmSeal sender.profile.gcmCipher sender.encRtpKey
      (buildGcmRtpIv sender.encRtpSalt (ssrcOf packet) roc (seqOf packet))
      (packet.take (rtpHeaderLength packet)) (packet.drop (rtpHeaderLength packet)) = sealed :=
    ⟨_, rfl⟩
  have shape : protectRtp crypto sender packet roc index =
      packet.take (rtpHeaderLength packet) ++ (sealed.1 ++ sealed.2) := by
    simp only [protectRtp, gcm, if_true, List.append_assoc, sealing]
  have tagLength : sealed.2.length = 16 := by
    rw [← sealing]
    exact crypto.gcm_tag_length _ _ _ _ _
  have opened : crypto.gcmOpen sender.profile.gcmCipher sender.encRtpKey
      (buildGcmRtpIv sender.encRtpSalt (ssrcOf packet) roc (seqOf packet))
      (packet.take (rtpHeaderLength packet)) sealed.1 sealed.2 =
        some (packet.drop (rtpHeaderLength packet)) := by
    rw [← sealing]
    exact crypto.gcm_open_seal _ _ _ _ _
  obtain ⟨front, back⟩ := cut_protected (packet.take (rtpHeaderLength packet)) sealed.1 sealed.2
  rw [tagLength, ← shape] at front back
  have roomy : ¬ (protectRtp crypto sender packet roc index).length - 16 <
      rtpHeaderLength packet := by
    rw [length, Profile.tagLen, if_pos gcm, gcmTagLen]
    omega
  have header : (protectRtp crypto sender packet roc index).take (rtpHeaderLength packet) =
      packet.take (rtpHeaderLength packet) := by
    rw [shape, List.take_left' headerTaken]
  have ciphertext : ((packet.take (rtpHeaderLength packet)) ++ sealed.1).drop
      (rtpHeaderLength packet) = sealed.1 := List.drop_left' headerTaken
  simp only [openRtp, matched.profile, gcm, if_true, headerLen, gcmTagLen, roomy, if_false,
    seq, ssrc, matched.rtpSalt, matched.rtpKey, header, front, back, ciphertext, opened,
    Option.map_some, List.take_append_drop]

theorem open_protect_cm (counterMode : ¬ sender.profile.gcm = true) :
    openRtp crypto receiver (protectRtp crypto sender packet roc index) roc index =
      some packet := by
  have ssrc := protect_rtp_ssrc crypto sender fits roc index
  have headerLen := protect_rtp_header_length crypto sender wellFormed fits roc index
  have headerTaken : (packet.take (rtpHeaderLength packet)).length = rtpHeaderLength packet := by
    simp [fits]
  obtain ⟨cipher, enciphering⟩ : ∃ cipher, aesCmEncrypt crypto sender.encRtpKey
      (buildRtpIv sender.encRtpSalt (ssrcOf packet) index)
      (packet.drop (rtpHeaderLength packet)) = cipher := ⟨_, rfl⟩
  have deciphered : aesCmEncrypt crypto sender.encRtpKey
      (buildRtpIv sender.encRtpSalt (ssrcOf packet) index) cipher =
        packet.drop (rtpHeaderLength packet) := by
    rw [← enciphering]
    exact ctr_xor_involutive crypto .aes128 _ _ _
  have shape : protectRtp crypto sender packet roc index =
      packet.take (rtpHeaderLength packet) ++ (cipher ++ authTag crypto sender.encRtpAuth
        (packet.take (rtpHeaderLength packet) ++ cipher) roc) := by
    simp only [protectRtp, counterMode, Bool.false_eq_true, if_false, List.append_assoc,
      enciphering]
  obtain ⟨front, back⟩ := cut_protected (packet.take (rtpHeaderLength packet)) cipher
    (authTag crypto sender.encRtpAuth (packet.take (rtpHeaderLength packet) ++ cipher) roc)
  rw [auth_tag_length, ← shape] at front back
  have headerCut : (packet.take (rtpHeaderLength packet) ++ cipher).take
      (rtpHeaderLength packet) = packet.take (rtpHeaderLength packet) :=
    List.take_left' headerTaken
  have bodyCut : (packet.take (rtpHeaderLength packet) ++ cipher).drop
      (rtpHeaderLength packet) = cipher := List.drop_left' headerTaken
  have written : rtpHeaderLength packet -
      (packet.take (rtpHeaderLength packet) ++ cipher).length = 0 := by
    rw [List.length_append, headerTaken]
    omega
  simp only [openRtp, matched.profile, counterMode, Bool.false_eq_true, if_false, headerLen, front,
    back, ssrc,
    matched.rtpAuth, constant_time_equals_self, if_true, matched.rtpKey, matched.rtpSalt,
    headerCut, bodyCut, written, deciphered, List.range'_zero, List.map_nil, List.append_nil,
    List.take_append_drop]

theorem open_protect_rtp :
    openRtp crypto receiver (protectRtp crypto sender packet roc index) roc index =
      some packet := by
  by_cases gcm : sender.profile.gcm = true
  · exact open_protect_gcm crypto matched wellFormed fits roc index gcm
  · exact open_protect_cm crypto matched wellFormed fits roc index gcm

end Open

end RtpPacket.Srtp
