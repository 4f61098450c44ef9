import RtpPacket.Srtp.Nonces

/-!
# What a refused call leaves behind

Three of the four operations decide before they write: a packet they refuse finds
the session as it was. `encryptRtp` stores the sender index first and measures the
header afterwards, so a packet whose header runs past its end is refused with the
index already moved.
-/

namespace RtpPacket.Srtp

open ByteCodec Run

set_option autoImplicit false

inductive SessionCall where
  | encryptRtp (rtpPacket : Bytes)
  | decryptRtp (srtpPacket : Bytes)
  | encryptRtcp (rtcpPacket : Bytes)
  | decryptRtcp (srtcpPacket : Bytes)

namespace Session

def answer (crypto : Crypto) (session : Session) : SessionCall → Session × Option Bytes
  | .encryptRtp rtpPacket => encryptRtp crypto session rtpPacket
  | .decryptRtp srtpPacket => decryptRtp crypto session srtpPacket
  | .encryptRtcp rtcpPacket => encryptRtcp crypto session rtcpPacket
  | .decryptRtcp srtcpPacket => decryptRtcp crypto session srtcpPacket

def step (crypto : Crypto) (session : Session) (call : SessionCall) :
    Session × List (Option Bytes) :=
  ((session.answer crypto call).1, [(session.answer crypto call).2])

/-- The four tables and counters are the same up to entries that were not there and
are empty now. -/
structure Unchanged (before after : Session) : Prop where
  sendState : after.sendState = before.sendState
  recvState : ∀ ssrc, after.recvState ssrc = before.recvState ssrc ∨
    before.recvState ssrc = none ∧ after.recvState ssrc = some RecvState.new
  srtcpSendIndex : after.srtcpSendIndex = before.srtcpSendIndex
  srtcpRecvState : ∀ ssrc, after.srtcpRecvState ssrc = before.srtcpRecvState ssrc ∨
    before.srtcpRecvState ssrc = none ∧ after.srtcpRecvState ssrc = some RecvState.new

/-- A refused call leaves the state alone and no later call can tell. -/
def RefusesQuietly (crypto : Crypto) (session : Session) (call : SessionCall) : Prop :=
  (session.answer crypto call).2 = none →
    Unchanged session (session.answer crypto call).1 ∧
      ∀ later, (run (step crypto) (session.answer crypto call).1 later).2 =
        (run (step crypto) session later).2

/-- The sequence number takes the stored index of its source forward: there is none
yet, it is above the stored one, or it counts as wrapped into a cycle that exists. -/
def MovesIndex (st : Option SendState) (seq : Nat) : Prop :=
  match st with
  | none => True
  | some st =>
      st.maxIndex % 0x10000 < seq ∨
        seq < 0x8000 ∧ 0xC000 < st.maxIndex % 0x10000 ∧ st.maxIndex / 0x10000 ≠ 0xFFFFFFFF

instance : (st : Option SendState) → (seq : Nat) → Decidable (MovesIndex st seq)
  | none, _ => inferInstanceAs (Decidable True)
  | some _, _ => inferInstanceAs (Decidable (_ ∨ _ ∧ _ ∧ _))

/-- No packet for `encryptRtp` whose header runs past its end and whose sequence
number would take the index forward. -/
def Harmless (session : Session) : SessionCall → Prop
  | .encryptRtp rtpPacket =>
      ¬ (12 ≤ rtpPacket.length ∧ rtpPacket.length < rtpHeaderLength rtpPacket ∧
        MovesIndex (session.sendState (ssrcOf rtpPacket)) (seqOf rtpPacket))
  | _ => True

instance (session : Session) : (call : SessionCall) → Decidable (session.Harmless call)
  | .encryptRtp _ => inferInstanceAs (Decidable (¬ (_ ∧ _ ∧ _)))
  | .decryptRtp _ => inferInstanceAs (Decidable True)
  | .encryptRtcp _ => inferInstanceAs (Decidable True)
  | .decryptRtcp _ => inferInstanceAs (Decidable True)

theorem unchanged_self (session : Session) : Unchanged session session where
  sendState := rfl
  recvState := fun _ => Or.inl rfl
  srtcpSendIndex := rfl
  srtcpRecvState := fun _ => Or.inl rfl

theorem replay_refused {st : Option RecvState} {index : Nat}
    (refused : (replayCheckAndUpdate (st.getD RecvState.new) index).2 = false) :
    some (replayCheckAndUpdate (st.getD RecvState.new) index).1 = st := by
  cases st with
  | none => cases refused
  | some st =>
      rw [Option.getD_some] at refused ⊢
      apply congrArg some
      revert refused
      simp only [replayCheckAndUpdate]
      split_ifs <;> simp

theorem false_of_answer_none {plaintext : Bytes} {fresh : Bool}
    (refused : (if fresh then some plaintext else none) = none) : fresh = false := by
  cases fresh with
  | false => rfl
  | true => cases refused

theorem decrypt_rtp_refused {crypto : Crypto} {session : Session} {srtpPacket : Bytes}
    (refused : (decryptRtp crypto session srtpPacket).2 = none) :
    (decryptRtp crypto session srtpPacket).1 = session := by
  by_cases long : 12 + session.profile.tagLen ≤ srtpPacket.length
  · cases opened : openRtp crypto session srtpPacket
        (guessRoc (session.recvState (ssrcOf srtpPacket)) (seqOf srtpPacket))
        (guessRoc (session.recvState (ssrcOf srtpPacket)) (seqOf srtpPacket) * 0x10000 +
          seqOf srtpPacket) with
    | none => simp only [decryptRtp, if_neg (Nat.not_lt_of_le long), opened]
    | some plaintext =>
        by_cases replay : session.replayEnabled = true
        · rw [decrypt_rtp_opened long rfl opened replay Prod.mk.eta.symm] at refused ⊢
          rw [replay_refused (false_of_answer_none refused), Function.update_eq_self]
        · simp [decryptRtp, if_neg (Nat.not_lt_of_le long), opened, replay] at refused
  · rw [decryptRtp, if_pos (Nat.lt_of_not_le long)]

theorem decrypt_rtcp_refused {crypto : Crypto} {session : Session} {srtcpPacket : Bytes}
    (refused : (decryptRtcp crypto session srtcpPacket).2 = none) :
    (decryptRtcp crypto session srtcpPacket).1 = session := by
  cases opened : openRtcp crypto session srtcpPacket with
  | none => rw [decryptRtcp, opened]
  | some found =>
      by_cases replay : session.replayEnabled = true
      · rw [decrypt_rtcp_opened opened replay Prod.mk.eta.symm] at refused ⊢
        rw [replay_refused (false_of_answer_none refused), Function.update_eq_self]
      · simp [decryptRtcp, opened, srtcpReplayOk, replay] at refused

theorem encrypt_rtcp_refused {crypto : Crypto} {session : Session} {rtcpPacket : Bytes}
    (refused : (encryptRtcp crypto session rtcpPacket).2 = none) :
    (encryptRtcp crypto session rtcpPacket).1 = session := by
  by_cases short : rtcpPacket.length < 8
  · rw [encryptRtcp, if_pos short]
  · rw [encryptRtcp, if_neg short] at refused
    cases refused

theorem sender_index_kept_iff {st : Option SendState} {seq : Nat}
    (bounded : ∀ entry ∈ st, entry.maxIndex < 2 ^ 48) (seqBound : seq < 0x10000) :
    some (senderIndex st seq).next = st ↔ ¬ MovesIndex st seq := by
  cases st with
  | none => simp [MovesIndex]
  | some entry =>
      obtain ⟨maxIndex⟩ := entry
      have small : maxIndex < 2 ^ 48 := bounded _ rfl
      simp only [senderIndex, MovesIndex, Option.some.injEq]
      split_ifs <;> simp only [SendState.mk.injEq, true_iff] <;> omega

/-- `encryptRtp` refuses a packet without a fixed header, and one whose header runs
past its end. -/
theorem encrypt_rtp_none_iff (crypto : Crypto) (session : Session) (rtpPacket : Bytes) :
    (encryptRtp crypto session rtpPacket).2 = none ↔
      rtpPacket.length < 12 ∨ rtpPacket.length < rtpHeaderLength rtpPacket := by
  by_cases long : 12 ≤ rtpPacket.length
  · by_cases fits : rtpHeaderLength rtpPacket ≤ rtpPacket.length
    · rw [encrypt_rtp_output crypto session long fits]
      simp [long, fits]
    · simp [encrypt_rtp_malformed crypto session (Nat.lt_of_not_le fits), Nat.lt_of_not_le fits]
  · rw [encryptRtp, if_pos (Nat.lt_of_not_le long)]
    simp [Nat.lt_of_not_le long]

def Bounded (session : Session) : Prop :=
  ∀ ssrc, ∀ entry ∈ session.sendState ssrc, entry.maxIndex < 2 ^ 48

theorem sender_index_bounded {st : Option SendState} {seq : Nat}
    (bounded : ∀ entry ∈ st, entry.maxIndex < 2 ^ 48) (seqBound : seq < 0x10000) :
    (senderIndex st seq).next.maxIndex < 2 ^ 48 := by
  cases st with
  | none =>
      simp only [senderIndex]
      omega
  | some entry =>
      have small := bounded entry rfl
      simp only [senderIndex]
      split_ifs <;> first | exact small | (simp only; omega)

theorem bounded_step (crypto : Crypto) {session : Session} (bounded : Bounded session)
    (call : SessionCall) : Bounded (session.step crypto call).1 := by
  cases call with
  | encryptRtp rtpPacket =>
      by_cases long : 12 ≤ rtpPacket.length
      · intro ssrc entry member
        simp only [step, answer, encrypt_rtp_send_state crypto session long] at member
        by_cases same : ssrc = ssrcOf rtpPacket
        · subst same
          rw [Function.update_self] at member
          rw [← Option.some.inj member]
          exact sender_index_bounded (bounded _) (read_be_lt 2 rtpPacket 2)
        · rw [Function.update_of_ne same] at member
          exact bounded ssrc entry member
      · simp only [step, answer, encryptRtp, if_pos (Nat.lt_of_not_le long)]
        exact bounded
  | decryptRtp srtpPacket =>
      obtain ⟨states, after, _⟩ := decrypt_rtp_session crypto session srtpPacket
      simp only [step, answer, after]
      exact bounded
  | encryptRtcp rtcpPacket =>
      simp only [step, answer, encryptRtcp]
      split_ifs <;> exact bounded
  | decryptRtcp srtcpPacket =>
      obtain ⟨windows, after, _⟩ := decrypt_rtcp_session crypto session srtcpPacket
      simp only [step, answer, after]
      exact bounded

theorem refuses_quietly_of_same {crypto : Crypto} {session : Session} {call : SessionCall}
    (same : (session.answer crypto call).2 = none → (session.answer crypto call).1 = session) :
    session.RefusesQuietly crypto call := by
  intro refused
  rw [same refused]
  exact ⟨unchanged_self session, fun _ => rfl⟩

theorem encrypt_rtp_quiet_iff (crypto : Crypto) {session : Session} (bounded : Bounded session)
    (rtpPacket : Bytes) :
    session.RefusesQuietly crypto (.encryptRtp rtpPacket) ↔
      session.Harmless (.encryptRtp rtpPacket) := by
  have kept := sender_index_kept_iff (bounded (ssrcOf rtpPacket)) (read_be_lt 2 rtpPacket 2)
  constructor
  · rintro quiet ⟨long, overruns, moves⟩
    obtain ⟨unchanged, _⟩ := quiet (encrypt_rtp_malformed crypto session overruns)
    have stored := congrFun unchanged.sendState (ssrcOf rtpPacket)
    simp only [answer, encrypt_rtp_send_state crypto session long, Function.update_self] at stored
    exact kept.mp stored moves
  · intro harmless
    apply refuses_quietly_of_same
    intro refused
    by_cases long : 12 ≤ rtpPacket.length
    · have overruns : rtpPacket.length < rtpHeaderLength rtpPacket := by
        rcases (encrypt_rtp_none_iff crypto session rtpPacket).mp refused with short | overruns
        · omega
        · exact overruns
      have unmoved := kept.mpr fun moves => harmless ⟨long, overruns, moves⟩
      simp only [answer, encrypt_rtp_session crypto session long, seqOf]
      rw [unmoved, Function.update_eq_self]
    · simp only [answer, encryptRtp, if_pos (Nat.lt_of_not_le long)]

theorem refuses_quietly_iff (crypto : Crypto) {session : Session} (bounded : Bounded session)
    (call : SessionCall) : session.RefusesQuietly crypto call ↔ session.Harmless call := by
  cases call with
  | encryptRtp rtpPacket => exact encrypt_rtp_quiet_iff crypto bounded rtpPacket
  | decryptRtp srtpPacket =>
      exact iff_of_true (refuses_quietly_of_same decrypt_rtp_refused) trivial
  | encryptRtcp rtcpPacket =>
      exact iff_of_true (refuses_quietly_of_same encrypt_rtcp_refused) trivial
  | decryptRtcp srtcpPacket =>
      exact iff_of_true (refuses_quietly_of_same decrypt_rtcp_refused) trivial

theorem refusals_quiet_iff {crypto : Crypto} {arg : SessionArg} {opts : SessionOptions}
    {session : Session} (made : srtpSession crypto arg opts = .ok session)
    (calls : List SessionCall) :
    Always (step crypto) (RefusesQuietly crypto) session calls ↔
      Always (step crypto) Harmless session calls := by
  have initial : Bounded session := by
    obtain ⟨profile, _, rfl⟩ := srtp_session_ok made
    intro ssrc entry member
    cases member
  have free : Always (step crypto) (fun _ _ => True) session calls :=
    always_of_forall (by simp) _ _
  apply always_iff_of_invariant Bounded _ _ initial free
  · intro reached call _ bounded
    exact refuses_quietly_iff crypto bounded call
  · intro reached call _ bounded _
    exact bounded_step crypto bounded call

theorem refusals_quiet_after_wrap :
    Always (step toyCrypto) (RefusesQuietly toyCrypto) toySession
      [.encryptRtp (bareSent 65530).packet, .decryptRtp [1, 2], .encryptRtcp [3]] :=
  (@refusals_quiet_iff toyCrypto (.symmetric (List.replicate 16 0) (List.replicate 14 0)) {}
    toySession rfl _).mpr (by decide +kernel)

def overrunning (extSeq : Nat) : Bytes :=
  [0x81, 96] ++ encodeBE 2 extSeq ++ encodeBE 4 0 ++ encodeBE 4 7

/-- The refused packet makes the session take a source's first real packet for one
of the second cycle. -/
theorem refused_packet_moves_index :
    srtpSession toyCrypto (.symmetric (List.replicate 16 0) (List.replicate 14 0)) {} =
        .ok toySession ∧
      (encryptRtp toyCrypto toySession (overrunning 65000)).2 = none ∧
      ¬ RefusesQuietly toyCrypto toySession (.encryptRtp (overrunning 65000)) ∧
      (encryptRtp toyCrypto (encryptRtp toyCrypto toySession (overrunning 65000)).1
          (bareSent 5).packet).2 ≠
        (encryptRtp toyCrypto toySession (bareSent 5).packet).2 := by
  refine ⟨rfl, by decide +kernel, ?_, by decide +kernel⟩
  intro quiet
  obtain ⟨unchanged, _⟩ := quiet (by decide +kernel)
  have stored := congrFun unchanged.sendState 7
  have moved : (encryptRtp toyCrypto toySession (overrunning 65000)).1.sendState 7 ≠
      toySession.sendState 7 := by decide +kernel
  exact moved stored

end Session

end RtpPacket.Srtp
