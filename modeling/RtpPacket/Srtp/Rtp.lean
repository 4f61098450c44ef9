import RtpPacket.Srtp.ReplayWindow

/-!
# Protecting and opening RTP packets

`encryptRtp` advances the sender index of the packet's source before it looks at
the header, so a packet it refuses still moves the state. `decryptRtp` guesses
the rollover counter from the highest authenticated index, opens the packet and
only then consults the replay window.
-/

namespace RtpPacket.Srtp

open ByteCodec

set_option autoImplicit false

def rtpHeaderLength (buf : Bytes) : Nat :=
  let b0 := readBE 1 buf 0
  let cc := b0 % 16
  let hasExtension := b0 / 16 % 2 = 1
  let headerLen := 12 + cc * 4
  if hasExtension ∧ headerLen + 4 ≤ buf.length then
    headerLen + (4 + readBE 2 buf (headerLen + 2) * 4)
  else headerLen

def seqOf (packet : Bytes) : Nat := readBE 2 packet 2

def ssrcOf (packet : Bytes) : Nat := readBE 4 packet 8

structure SenderIndex where
  roc : Nat
  index : Nat
  next : SendState

def senderIndex (st : Option SendState) (seq : Nat) : SenderIndex :=
  match st with
  | some st =>
      let roc := st.maxIndex / 0x10000
      let lastSeq := st.maxIndex % 0x10000
      let roc := if seq < 0x8000 ∧ lastSeq > 0xC000 then (roc + 1) % 2 ^ 32 else roc
      let index := roc * 0x10000 + seq
      { roc := roc
        index := index
        next := if index > st.maxIndex then { maxIndex := index } else st }
  | none => { roc := 0, index := seq, next := { maxIndex := seq } }

def authTag (crypto : Crypto) (key authenticated : Bytes) (roc : Nat) : Bytes :=
  (crypto.hmacSha1 key (authenticated ++ encodeBE 4 roc)).take authTagLen

def protectRtp (crypto : Crypto) (session : Session) (rtpPacket : Bytes) (roc index : Nat) :
    Bytes :=
  let headerLen := rtpHeaderLength rtpPacket
  let header := rtpPacket.take headerLen
  let payload := rtpPacket.drop headerLen
  if session.profile.gcm then
    let iv := buildGcmRtpIv session.encRtpSalt (ssrcOf rtpPacket) roc (seqOf rtpPacket)
    let encrypted := crypto.gcmSeal session.profile.gcmCipher session.encRtpKey iv header payload
    header ++ encrypted.1 ++ encrypted.2
  else
    let iv := buildRtpIv session.encRtpSalt (ssrcOf rtpPacket) index
    let out := header ++ aesCmEncrypt crypto session.encRtpKey iv payload
    out ++ authTag crypto session.encRtpAuth out roc

def encryptRtp (crypto : Crypto) (session : Session) (rtpPacket : Bytes) :
    Session × Option Bytes :=
  if rtpPacket.length < 12 then (session, none)
  else
    let ssrc := ssrcOf rtpPacket
    let sender := senderIndex (session.sendState ssrc) (seqOf rtpPacket)
    let advanced :=
      { session with sendState := Function.update session.sendState ssrc (some sender.next) }
    if rtpHeaderLength rtpPacket > rtpPacket.length then (advanced, none)
    else (advanced, some (protectRtp crypto session rtpPacket sender.roc sender.index))

def guessRoc (st : Option RecvState) (seq : Nat) : Nat :=
  match st with
  | some st =>
      let roc := st.maxIndex / 0x10000
      let lastSeq := st.maxIndex % 0x10000
      let guess :=
        if lastSeq < 0x8000 then
          if seq - lastSeq > 0x8000 then max 0 (roc - 1) else roc
        else
          if lastSeq - 0x8000 > seq then (roc + 1) % 2 ^ 32 else roc
      guess.toNat
  | none => 0

def constantTimeEquals (left right : Bytes) : Bool :=
  if left.length ≠ right.length then false
  else (List.zipWith (· ^^^ ·) left right).foldl (· ||| ·) 0 == 0

/-- Authentication and decryption under a guessed counter. A header that claims more bytes than
an authentic counter-mode packet has leaves the tail of the new buffer as it was. -/
def openRtp (crypto : Crypto) (session : Session) (srtpPacket : Bytes) (roc index : Nat) :
    Option Bytes :=
  let headerLen := rtpHeaderLength srtpPacket
  let ssrc := ssrcOf srtpPacket
  if session.profile.gcm then
    let tagStart := srtpPacket.length - gcmTagLen
    if tagStart < headerLen then none
    else
      let iv := buildGcmRtpIv session.decRtpSalt ssrc roc (seqOf srtpPacket)
      let header := srtpPacket.take headerLen
      let ciphertext := (srtpPacket.take tagStart).drop headerLen
      (crypto.gcmOpen session.profile.gcmCipher session.decRtpKey iv header ciphertext
        (srtpPacket.drop tagStart)).map (header ++ ·)
  else
    let authTagStart := srtpPacket.length - authTagLen
    let authenticated := srtpPacket.take authTagStart
    let expectedTag := authTag crypto session.decRtpAuth authenticated roc
    if constantTimeEquals (srtpPacket.drop authTagStart) expectedTag then
      let iv := buildRtpIv session.decRtpSalt ssrc index
      let decPayload := aesCmEncrypt crypto session.decRtpKey iv (authenticated.drop headerLen)
      some (authenticated.take headerLen ++
        (List.range' authenticated.length (headerLen - authenticated.length)).map
          (crypto.memory srtpPacket) ++ decPayload)
    else none

def decryptRtp (crypto : Crypto) (session : Session) (srtpPacket : Bytes) :
    Session × Option Bytes :=
  if srtpPacket.length < 12 + session.profile.tagLen then (session, none)
  else
    let seq := seqOf srtpPacket
    let ssrc := ssrcOf srtpPacket
    let roc := guessRoc (session.recvState ssrc) seq
    let index := roc * 0x10000 + seq
    match openRtp crypto session srtpPacket roc index with
    | none => (session, none)
    | some plaintext =>
        let st := (session.recvState ssrc).getD RecvState.new
        let store (entry : RecvState) : Session :=
          { session with recvState := Function.update session.recvState ssrc (some entry) }
        if session.replayEnabled then
          let (entry, fresh) := replayCheckAndUpdate st index
          (store entry, if fresh then some plaintext else none)
        else
          (store (if index > st.maxIndex then { st with maxIndex := index } else st),
            some plaintext)

theorem sender_index_index (st : Option SendState) (seq : Nat) :
    (senderIndex st seq).index = (senderIndex st seq).roc * 0x10000 + seq := by
  cases st with
  | none => simp [senderIndex]
  | some st => rfl

/-- A packet long enough for a fixed header moves the index of its source, whether
or not it is protected. -/
theorem encrypt_rtp_session (crypto : Crypto) (session : Session) {packet : Bytes}
    (long : 12 ≤ packet.length) :
    (encryptRtp crypto session packet).1 =
      { session with
        sendState := Function.update session.sendState (ssrcOf packet)
          (some (senderIndex (session.sendState (ssrcOf packet)) (seqOf packet)).next) } := by
  rw [encryptRtp, if_neg (by omega)]
  dsimp only
  split_ifs <;> rfl

theorem encrypt_rtp_send_state (crypto : Crypto) (session : Session) {packet : Bytes}
    (long : 12 ≤ packet.length) :
    (encryptRtp crypto session packet).1.sendState =
      Function.update session.sendState (ssrcOf packet)
        (some (senderIndex (session.sendState (ssrcOf packet)) (seqOf packet)).next) := by
  rw [encrypt_rtp_session crypto session long]

theorem encrypt_rtp_malformed (crypto : Crypto) (session : Session) {packet : Bytes}
    (overrun : packet.length < rtpHeaderLength packet) :
    (encryptRtp crypto session packet).2 = none := by
  rw [encryptRtp]
  dsimp only
  split_ifs <;> rfl

theorem encrypt_rtp_output (crypto : Crypto) (session : Session) {packet : Bytes}
    (long : 12 ≤ packet.length) (fits : rtpHeaderLength packet ≤ packet.length) :
    (encryptRtp crypto session packet).2 =
      some (protectRtp crypto session packet
        (senderIndex (session.sendState (ssrcOf packet)) (seqOf packet)).roc
        (senderIndex (session.sendState (ssrcOf packet)) (seqOf packet)).index) := by
  rw [encryptRtp, if_neg (by omega)]
  dsimp only
  rw [if_neg (by omega)]

/-- Decrypting touches the receive entries only, and of those the packet's own. -/
theorem decrypt_rtp_session (crypto : Crypto) (session : Session) (srtpPacket : Bytes) :
    ∃ states, (decryptRtp crypto session srtpPacket).1 = { session with recvState := states } ∧
      ∀ ssrc ≠ ssrcOf srtpPacket, states ssrc = session.recvState ssrc := by
  have kept : ∃ states, session = { session with recvState := states } ∧
      ∀ ssrc ≠ ssrcOf srtpPacket, states ssrc = session.recvState ssrc :=
    ⟨session.recvState, rfl, fun _ _ => rfl⟩
  have stored (entry : RecvState) : ∃ states,
      ({ session with
        recvState := Function.update session.recvState (ssrcOf srtpPacket) (some entry) } :
          Session) = { session with recvState := states } ∧
      ∀ ssrc ≠ ssrcOf srtpPacket, states ssrc = session.recvState ssrc :=
    ⟨_, rfl, fun _ apart => Function.update_of_ne apart _ _⟩
  rw [decryptRtp]
  split_ifs
  · exact kept
  · dsimp only
    split
    · exact kept
    · exact stored _
  · dsimp only
    split
    · exact kept
    · exact stored _

end RtpPacket.Srtp
