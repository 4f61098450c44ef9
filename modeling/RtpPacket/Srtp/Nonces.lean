import RtpPacket.Srtp.RtcpChannel

/-!
# No nonce is used twice

Under the authenticated cipher the nonce of a packet is the salt with the source
and a number XORed in: the rollover counter and the sequence number for RTP, the
index of the session for RTCP. Both layouts give the number back, so nonces
repeat only where a source's index or the session's counter does.
-/

namespace RtpPacket.Srtp

open ByteCodec Run

set_option autoImplicit false

theorem list_of_length_twelve {salt : Bytes} (length : salt.length = 12) :
    ∃ s0 s1 s2 s3 s4 s5 s6 s7 s8 s9 s10 s11,
      salt = [s0, s1, s2, s3, s4, s5, s6, s7, s8, s9, s10, s11] := by
  match salt, length with
  | [s0, s1, s2, s3, s4, s5, s6, s7, s8, s9, s10, s11], _ =>
      exact ⟨s0, s1, s2, s3, s4, s5, s6, s7, s8, s9, s10, s11, rfl⟩

theorem eq_of_word_bytes {left right : Nat} (leftBound : left < 2 ^ 32) (rightBound : right < 2 ^ 32)
    (byte3 : byteAt left 24 = byteAt right 24) (byte2 : byteAt left 16 = byteAt right 16)
    (byte1 : byteAt left 8 = byteAt right 8) (byte0 : byteAt left 0 = byteAt right 0) :
    left = right := by
  rw [byte_at_eq_iff] at byte3 byte2 byte1 byte0
  omega

theorem gcm_rtp_iv_injective {salt : Bytes} (saltLength : salt.length = 12)
    {ssrc otherSsrc extSeq otherExtSeq : Nat} (ssrcBound : ssrc < 2 ^ 32)
    (otherSsrcBound : otherSsrc < 2 ^ 32) (bounded : extSeq < 2 ^ 48)
    (otherBounded : otherExtSeq < 2 ^ 48)
    (same : buildGcmRtpIv salt ssrc (extSeq / 0x10000) (extSeq % 0x10000) =
      buildGcmRtpIv salt otherSsrc (otherExtSeq / 0x10000) (otherExtSeq % 0x10000)) :
    ssrc = otherSsrc ∧ extSeq = otherExtSeq := by
  obtain ⟨s0, s1, s2, s3, s4, s5, s6, s7, s8, s9, s10, s11, rfl⟩ :=
    list_of_length_twelve saltLength
  simp only [buildGcmRtpIv, xorAt, List.take, List.modify_cons, Nat.reduceSub,
    Nat.reduceEqDiff, if_false, if_true, List.cons.injEq, UInt8.xor_right_inj,
    and_true, true_and] at same
  obtain ⟨ssrc3, ssrc2, ssrc1, ssrc0, roc3, roc2, roc1, roc0, seq1, seq0⟩ := same
  have sameRoc := eq_of_word_bytes (Nat.div_lt_of_lt_mul bounded)
    (Nat.div_lt_of_lt_mul otherBounded) roc3 roc2 roc1 roc0
  have sameSeq : extSeq % 0x10000 = otherExtSeq % 0x10000 := by
    rw [byte_at_eq_iff] at seq1 seq0
    omega
  refine ⟨eq_of_word_bytes ssrcBound otherSsrcBound ssrc3 ssrc2 ssrc1 ssrc0, ?_⟩
  rw [← Nat.div_add_mod extSeq 0x10000, sameRoc, sameSeq, Nat.div_add_mod]

theorem gcm_rtcp_iv_injective {salt : Bytes} (saltLength : salt.length = 12)
    {ssrc otherSsrc index otherIndex : Nat} (bounded : index < 2 ^ 31)
    (otherBounded : otherIndex < 2 ^ 31)
    (same : buildGcmRtcpIv salt ssrc index = buildGcmRtcpIv salt otherSsrc otherIndex) :
    index = otherIndex := by
  obtain ⟨s0, s1, s2, s3, s4, s5, s6, s7, s8, s9, s10, s11, rfl⟩ :=
    list_of_length_twelve saltLength
  simp only [buildGcmRtcpIv, xorAt, List.take, List.modify_cons, Nat.reduceSub,
    Nat.reduceEqDiff, if_false, if_true, List.cons.injEq, UInt8.xor_right_inj,
    and_true, true_and, Nat.mod_eq_of_lt bounded, Nat.mod_eq_of_lt otherBounded] at same
  obtain ⟨_, _, _, _, index3, index2, index1, index0⟩ := same
  exact eq_of_word_bytes (by omega) (by omega) index3 index2 index1 index0

/-- The nonce with which a call reaches the cipher, unless it is refused before. -/
def rtpNonce (crypto : Crypto) (session : Session) (rtpPacket : Bytes) : Option Bytes :=
  (encryptRtp crypto session rtpPacket).2.map fun _ =>
    buildGcmRtpIv session.encRtpSalt (ssrcOf rtpPacket) (rocUsed session rtpPacket)
      (seqOf rtpPacket)

def rtcpNonce (crypto : Crypto) (session : Session) (rtcpPacket : Bytes) : Option Bytes :=
  (encryptRtcp crypto session rtcpPacket).2.map fun _ =>
    buildGcmRtcpIv session.encRtcpSalt (rtcpSsrcOf rtcpPacket) session.srtcpSendIndex

def sealRtp (crypto : Crypto) (session : Session) (rtpPacket nonce : Bytes) : Bytes :=
  let header := rtpPacket.take (rtpHeaderLength rtpPacket)
  let encrypted := crypto.gcmSeal session.profile.gcmCipher session.encRtpKey nonce header
    (rtpPacket.drop (rtpHeaderLength rtpPacket))
  header ++ encrypted.1 ++ encrypted.2

def sealRtcp (crypto : Crypto) (session : Session) (rtcpPacket nonce : Bytes) : Bytes :=
  let header := rtcpPacket.take 8
  let indexWord := encodeBE 4 (encryptedWord session.srtcpSendIndex)
  let encrypted := crypto.gcmSeal session.profile.gcmCipher session.encRtcpKey nonce
    (header ++ indexWord) (rtcpPacket.drop 8)
  header ++ encrypted.1 ++ encrypted.2 ++ indexWord

theorem encrypt_rtp_under_nonce (crypto : Crypto) {session : Session}
    (gcm : session.profile.gcm = true) (rtpPacket : Bytes) :
    (encryptRtp crypto session rtpPacket).2 =
      (rtpNonce crypto session rtpPacket).map (sealRtp crypto session rtpPacket) := by
  rw [rtpNonce]
  by_cases short : rtpPacket.length < 12
  · rw [encryptRtp, if_pos short]
    rfl
  · by_cases fits : rtpHeaderLength rtpPacket ≤ rtpPacket.length
    · rw [encrypt_rtp_output crypto session (Nat.le_of_not_lt short) fits]
      simp only [protectRtp, gcm, if_true, Option.map_some, rocUsed, sealRtp]
    · rw [encrypt_rtp_malformed crypto session (Nat.lt_of_not_le fits)]
      rfl

theorem encrypt_rtcp_under_nonce (crypto : Crypto) {session : Session}
    (gcm : session.profile.gcm = true) (rtcpPacket : Bytes) :
    (encryptRtcp crypto session rtcpPacket).2 =
      (rtcpNonce crypto session rtcpPacket).map (sealRtcp crypto session rtcpPacket) := by
  rw [rtcpNonce]
  by_cases short : rtcpPacket.length < 8
  · rw [encryptRtcp, if_pos short]
    rfl
  · rw [encrypt_rtcp_long crypto session (Nat.le_of_not_lt short)]
    simp only [protectRtcp, gcm, if_true, Option.map_some, sealRtcp]

theorem derive_key_length (crypto : Crypto) (masterKey masterSalt : Bytes) (label : Byte)
    {length : Nat} (short : length ≤ 32) :
    (deriveKey crypto masterKey masterSalt label length).length = length := by
  simp only [deriveKey, ctrXor, List.length_take, List.length_mapIdx, List.length_replicate]
  split_ifs <;> omega

inductive NonceUse where
  | rtp (nonce : Bytes)
  | rtcp (nonce : Bytes)
  deriving DecidableEq, Repr

/-- A session with the last true number of each source, the number of RTCP calls and
every nonce used so far. -/
structure SealHistory where
  session : Session
  lastSent : Nat → Option Nat
  rtcpCalls : Nat
  used : List NonceUse

inductive SealEvent where
  | encryptRtp (extSeq : Nat) (rtpPacket : Bytes)
  | encryptRtcp (rtcpPacket : Bytes)
  | decryptRtp (srtpPacket : Bytes)
  | decryptRtcp (srtcpPacket : Bytes)

namespace SealHistory

def start (session : Session) : SealHistory where
  session := session
  lastSent := fun _ => none
  rtcpCalls := 0
  used := []

def step (crypto : Crypto) (history : SealHistory) :
    SealEvent → SealHistory × List (Option Bytes)
  | .encryptRtp extSeq rtpPacket =>
      let result := Srtp.encryptRtp crypto history.session rtpPacket
      ({ history with
          session := result.1
          lastSent :=
            if 12 ≤ rtpPacket.length then
              Function.update history.lastSent (ssrcOf rtpPacket) (some extSeq)
            else history.lastSent
          used := history.used ++
            ((rtpNonce crypto history.session rtpPacket).map NonceUse.rtp).toList }, [result.2])
  | .encryptRtcp rtcpPacket =>
      let result := Srtp.encryptRtcp crypto history.session rtcpPacket
      ({ history with
          session := result.1
          rtcpCalls := history.rtcpCalls + 1
          used := history.used ++
            ((rtcpNonce crypto history.session rtcpPacket).map NonceUse.rtcp).toList }, [result.2])
  | .decryptRtp srtpPacket =>
      let result := Srtp.decryptRtp crypto history.session srtpPacket
      ({ history with session := result.1 }, [result.2])
  | .decryptRtcp srtcpPacket =>
      let result := Srtp.decryptRtcp crypto history.session srtcpPacket
      ({ history with session := result.1 }, [result.2])

/-- RTP packets of a source in order, fewer than `2^31` RTCP calls, and anything to
decrypt. What has no fixed header is no RTP packet and is left free. -/
def Permitted (history : SealHistory) : SealEvent → Prop
  | .encryptRtp extSeq rtpPacket =>
      12 ≤ rtpPacket.length →
        seqOf rtpPacket = extSeq % 0x10000 ∧ extSeq < 2 ^ 48 ∧
          NextInOrder (history.lastSent (ssrcOf rtpPacket)) extSeq
  | .encryptRtcp _ => history.rtcpCalls + 1 < 2 ^ 31
  | .decryptRtp _ => True
  | .decryptRtcp _ => True

instance (history : SealHistory) : (event : SealEvent) → Decidable (Permitted history event)
  | .encryptRtp _ _ => inferInstanceAs (Decidable (_ → _ ∧ _ ∧ _))
  | .encryptRtcp _ => inferInstanceAs (Decidable (_ < _))
  | .decryptRtp _ => inferInstanceAs (Decidable True)
  | .decryptRtcp _ => inferInstanceAs (Decidable True)

/-- A call's answer is the seal under the nonce recorded for it, and none without one. -/
def SealsUnderNonce (crypto : Crypto) (history : SealHistory) : SealEvent → Prop
  | .encryptRtp _ rtpPacket =>
      (Srtp.encryptRtp crypto history.session rtpPacket).2 =
        (rtpNonce crypto history.session rtpPacket).map
          (sealRtp crypto history.session rtpPacket)
  | .encryptRtcp rtcpPacket =>
      (Srtp.encryptRtcp crypto history.session rtcpPacket).2 =
        (rtcpNonce crypto history.session rtcpPacket).map
          (sealRtcp crypto history.session rtcpPacket)
  | .decryptRtp _ => True
  | .decryptRtcp _ => True

/-- Every nonce in use was made from a number the session has passed. -/
structure Fresh (history : SealHistory) : Prop where
  gcm : history.session.profile.gcm = true
  rtpSalt : history.session.encRtpSalt.length = 12
  rtcpSalt : history.session.encRtcpSalt.length = 12
  sends : ∀ ssrc, history.session.sendState ssrc = (history.lastSent ssrc).map SendState.mk
  counts : history.session.srtcpSendIndex ≤ history.rtcpCalls
  bounded : history.rtcpCalls < 2 ^ 31
  rtpUsed : ∀ nonce, NonceUse.rtp nonce ∈ history.used →
    ∃ ssrc < 2 ^ 32, ∃ last < 2 ^ 48, history.lastSent ssrc = some last ∧ ∃ extSeq ≤ last,
      nonce = buildGcmRtpIv history.session.encRtpSalt ssrc (extSeq / 0x10000) (extSeq % 0x10000)
  rtcpUsed : ∀ nonce, NonceUse.rtcp nonce ∈ history.used →
    ∃ ssrc, ∃ index < history.session.srtcpSendIndex,
      nonce = buildGcmRtcpIv history.session.encRtcpSalt ssrc index
  nodup : history.used.Nodup

theorem fresh_start {crypto : Crypto} {arg : SessionArg} {opts : SessionOptions}
    {session : Session} (made : srtpSession crypto arg opts = .ok session)
    (gcm : session.profile.gcm = true) : Fresh (start session) := by
  obtain ⟨profile, _, rfl⟩ := srtp_session_ok made
  have saltLength : profile.saltLen = 12 := by
    rw [Profile.saltLen, if_pos (show profile.gcm = true from gcm), gcmSaltLen]
  constructor
  · exact gcm
  · exact (derive_key_length _ _ _ _ (by omega)).trans saltLength
  · exact (derive_key_length _ _ _ _ (by omega)).trans saltLength
  · intro ssrc
    rfl
  · exact Nat.le_refl 0
  · exact Nat.two_pow_pos 31
  · intro nonce member
    cases member
  · intro nonce member
    cases member
  · exact List.nodup_nil

/-- A number in order goes into the nonce whole. -/
theorem rtp_nonce_in_order (crypto : Crypto) {history : SealHistory} (fresh : Fresh history)
    {extSeq : Nat} {rtpPacket : Bytes} (permitted : Permitted history (.encryptRtp extSeq rtpPacket))
    (long : 12 ≤ rtpPacket.length) {nonce : Bytes}
    (uses : rtpNonce crypto history.session rtpPacket = some nonce) :
    nonce = buildGcmRtpIv history.session.encRtpSalt (ssrcOf rtpPacket) (extSeq / 0x10000)
      (extSeq % 0x10000) := by
  obtain ⟨seq, bounded, inOrder⟩ := permitted long
  have computed := sender_index_in_order inOrder bounded
  rw [← fresh.sends, ← seq] at computed
  obtain ⟨_, _, rfl⟩ := Option.map_eq_some_iff.mp uses
  rw [rocUsed, computed, seq]

theorem last_sent_advances {lastSent : Nat → Option Nat} {source extSeq : Nat}
    (inOrder : NextInOrder (lastSent source) extSeq) (bounded : extSeq < 2 ^ 48)
    {ssrc last earlier : Nat} (sent : lastSent ssrc = some last) (below : earlier ≤ last)
    (lastBound : last < 2 ^ 48) :
    ∃ later < 2 ^ 48, Function.update lastSent source (some extSeq) ssrc = some later ∧
      earlier ≤ later := by
  by_cases same : ssrc = source
  · rw [← same, sent] at inOrder
    have ahead : last < extSeq := inOrder.1
    rw [same]
    exact ⟨extSeq, bounded, Function.update_self _ _ _, below.trans ahead.le⟩
  · exact ⟨last, lastBound, (Function.update_of_ne same _ _).trans sent, below⟩

theorem rtp_nonce_unused (crypto : Crypto) {history : SealHistory} (fresh : Fresh history)
    {extSeq : Nat} {rtpPacket : Bytes} (permitted : Permitted history (.encryptRtp extSeq rtpPacket))
    (long : 12 ≤ rtpPacket.length) {nonce : Bytes}
    (uses : rtpNonce crypto history.session rtpPacket = some nonce) :
    NonceUse.rtp nonce ∉ history.used := by
  intro earlier
  obtain ⟨_, bounded, inOrder⟩ := permitted long
  have source : ssrcOf rtpPacket < 2 ^ 32 := read_be_lt 4 rtpPacket 8
  obtain ⟨ssrc, small, last, lastBound, sent, number, below, made⟩ := fresh.rtpUsed nonce earlier
  rw [rtp_nonce_in_order crypto fresh permitted long uses] at made
  obtain ⟨sameSource, sameNumber⟩ := gcm_rtp_iv_injective fresh.rtpSalt source
    small bounded (Nat.lt_of_le_of_lt below lastBound) made
  rw [sameSource, sent] at inOrder
  have ahead : last < extSeq := inOrder.1
  rw [sameNumber] at ahead
  exact Nat.not_lt_of_le below ahead

theorem fresh_encrypt_rtp (crypto : Crypto) {history : SealHistory} (fresh : Fresh history)
    {extSeq : Nat} {rtpPacket : Bytes}
    (permitted : Permitted history (.encryptRtp extSeq rtpPacket)) :
    Fresh (history.step crypto (.encryptRtp extSeq rtpPacket)).1 := by
  by_cases long : 12 ≤ rtpPacket.length
  · obtain ⟨seq, bounded, inOrder⟩ := permitted long
    have computed := sender_index_in_order inOrder bounded
    rw [← fresh.sends, ← seq] at computed
    have moved := encrypt_rtp_session crypto history.session long
    rw [computed] at moved
    simp only [step, moved, long, if_true]
    constructor
    · exact fresh.gcm
    · exact fresh.rtpSalt
    · exact fresh.rtcpSalt
    · intro ssrc
      by_cases same : ssrc = ssrcOf rtpPacket
      · subst same
        simp only [Function.update_self, Option.map_some]
      · simp only [Function.update_of_ne same, fresh.sends]
    · exact fresh.counts
    · exact fresh.bounded
    · intro nonce member
      rcases List.mem_append.mp member with earlier | now
      · obtain ⟨ssrc, small, last, lastBound, sent, number, below, made⟩ :=
          fresh.rtpUsed nonce earlier
        obtain ⟨later, laterBound, recorded, reached⟩ :=
          last_sent_advances inOrder bounded sent below lastBound
        exact ⟨ssrc, small, later, laterBound, recorded, number, reached, made⟩
      · obtain ⟨used, uses, same⟩ := Option.map_eq_some_iff.mp (Option.mem_toList.mp now)
        cases same
        exact ⟨ssrcOf rtpPacket, read_be_lt 4 rtpPacket 8, extSeq, bounded,
          Function.update_self _ _ _, extSeq, Nat.le_refl _,
          rtp_nonce_in_order crypto fresh permitted long uses⟩
    · intro nonce member
      rcases List.mem_append.mp member with earlier | now
      · exact fresh.rtcpUsed nonce earlier
      · obtain ⟨_, _, same⟩ := Option.map_eq_some_iff.mp (Option.mem_toList.mp now)
        cases same
    · apply List.Nodup.append fresh.nodup (Option.toList_nodup _)
      intro use earlier now
      obtain ⟨nonce, uses, rfl⟩ := Option.map_eq_some_iff.mp (Option.mem_toList.mp now)
      exact rtp_nonce_unused crypto fresh permitted long uses earlier
  · have refused : encryptRtp crypto history.session rtpPacket = (history.session, none) := by
      rw [encryptRtp, if_pos (Nat.lt_of_not_le long)]
    simpa only [step, rtpNonce, refused, long, if_false, Option.map_none, Option.toList_none,
      List.append_nil] using fresh

theorem fresh_encrypt_rtcp (crypto : Crypto) {history : SealHistory} (fresh : Fresh history)
    {rtcpPacket : Bytes} (permitted : Permitted history (.encryptRtcp rtcpPacket)) :
    Fresh (history.step crypto (.encryptRtcp rtcpPacket)).1 := by
  have below : history.rtcpCalls + 1 < 2 ^ 31 := permitted
  have counts := fresh.counts
  by_cases long : 8 ≤ rtcpPacket.length
  · have moved := encrypt_rtcp_long crypto history.session long
    have next : (history.session.srtcpSendIndex + 1) % 2 ^ 31 =
        history.session.srtcpSendIndex + 1 := Nat.mod_eq_of_lt (by omega)
    rw [next] at moved
    simp only [step, rtcpNonce, moved, Option.map_some, Option.toList_some]
    constructor
    · exact fresh.gcm
    · exact fresh.rtpSalt
    · exact fresh.rtcpSalt
    · exact fresh.sends
    · exact Nat.succ_le_succ counts
    · exact below
    · intro nonce member
      rcases List.mem_append.mp member with earlier | now
      · exact fresh.rtpUsed nonce earlier
      · cases List.mem_singleton.mp now
    · intro nonce member
      rcases List.mem_append.mp member with earlier | now
      · obtain ⟨ssrc, index, passed, made⟩ := fresh.rtcpUsed nonce earlier
        exact ⟨ssrc, index, Nat.lt_succ_of_lt passed, made⟩
      · cases List.mem_singleton.mp now
        exact ⟨rtcpSsrcOf rtcpPacket, history.session.srtcpSendIndex, Nat.lt_succ_self _, rfl⟩
    · apply List.Nodup.append fresh.nodup (List.nodup_singleton _)
      intro use earlier now
      rw [List.mem_singleton.mp now] at earlier
      obtain ⟨ssrc, index, passed, made⟩ := fresh.rtcpUsed _ earlier
      have same := gcm_rtcp_iv_injective fresh.rtcpSalt (by omega) (by omega) made
      omega
  · have refused : encryptRtcp crypto history.session rtcpPacket = (history.session, none) := by
      rw [encryptRtcp, if_pos (Nat.lt_of_not_le long)]
    simp only [step, rtcpNonce, refused, Option.map_none, Option.toList_none, List.append_nil]
    exact { fresh with counts := Nat.le_succ_of_le counts, bounded := below }

theorem fresh_step (crypto : Crypto) {history : SealHistory} {event : SealEvent}
    (permitted : Permitted history event) (fresh : Fresh history) :
    Fresh (history.step crypto event).1 := by
  cases event with
  | encryptRtp extSeq rtpPacket => exact fresh_encrypt_rtp crypto fresh permitted
  | encryptRtcp rtcpPacket => exact fresh_encrypt_rtcp crypto fresh permitted
  | decryptRtp srtpPacket =>
      obtain ⟨states, after, _⟩ := decrypt_rtp_session crypto history.session srtpPacket
      simp only [step, after]
      exact { fresh with }
  | decryptRtcp srtcpPacket =>
      obtain ⟨windows, after, _⟩ := decrypt_rtcp_session crypto history.session srtcpPacket
      simp only [step, after]
      exact { fresh with }

theorem seals_under_nonce (crypto : Crypto) {history : SealHistory} (event : SealEvent)
    (fresh : Fresh history) : SealsUnderNonce crypto history event := by
  cases event with
  | encryptRtp extSeq rtpPacket => exact encrypt_rtp_under_nonce crypto fresh.gcm rtpPacket
  | encryptRtcp rtcpPacket => exact encrypt_rtcp_under_nonce crypto fresh.gcm rtcpPacket
  | decryptRtp srtpPacket => trivial
  | decryptRtcp srtcpPacket => trivial

/-- The list of all nonces used, each marked RTP or RTCP, never repeats an entry. -/
theorem gcm_nonces_unique {crypto : Crypto} {arg : SessionArg} {opts : SessionOptions}
    {session : Session} (made : srtpSession crypto arg opts = .ok session)
    (gcm : session.profile.gcm = true) {events : List SealEvent}
    (permitted : Always (step crypto) Permitted (.start session) events) :
    Always (step crypto) (SealsUnderNonce crypto) (.start session) events ∧
      (run (step crypto) (.start session) events).1.used.Nodup := by
  have preserved (history : SealHistory) (event : SealEvent) (allowed : Permitted history event)
      (fresh : Fresh history) : Fresh (history.step crypto event).1 :=
    fresh_step crypto allowed fresh
  constructor
  · apply always_of_invariant Fresh preserved _ (fresh_start made gcm) permitted
    intro history event _ fresh
    exact seals_under_nonce crypto event fresh
  · exact (run_keeps Fresh preserved (fresh_start made gcm) permitted).nodup

def toyGcmSession : Session :=
  sessionOf toyCrypto
    ⟨List.replicate 16 0, List.replicate 12 0, List.replicate 16 0, List.replicate 12 0⟩
    .aeadAes128Gcm true

theorem gcm_nonces_unique_over_wrap :
    Always (step toyCrypto) (SealsUnderNonce toyCrypto) (.start toyGcmSession)
        [.encryptRtp 65530 (bareSent 65530).packet, .encryptRtcp (RtcpChannel.emptyReport 7),
          .encryptRtp 65538 (bareSent 65538).packet, .encryptRtcp (RtcpChannel.emptyReport 7)] ∧
      (run (step toyCrypto) (.start toyGcmSession)
        [.encryptRtp 65530 (bareSent 65530).packet, .encryptRtcp (RtcpChannel.emptyReport 7),
          .encryptRtp 65538 (bareSent 65538).packet,
          .encryptRtcp (RtcpChannel.emptyReport 7)]).1.used.Nodup :=
  @gcm_nonces_unique toyCrypto (.symmetric (List.replicate 16 0) (List.replicate 12 0))
    { profile := .number 7 } toyGcmSession rfl rfl _ (by decide +kernel)

end SealHistory

end RtpPacket.Srtp
