import RtpPacket.Lib.Run
import RtpPacket.Srtp.Rtp

/-!
# The sender's rollover counter over whole histories

A send history carries the true extended sequence number of each packet beside
the packet. The sender sees the low 16 bits only and must find the rest from the
highest index it has stored. Its wrap test compares the new sequence number with
`0x8000` and the last one with `0xC000`; `WrapTestRight` is exactly when that
test names the true cycle.
-/

namespace RtpPacket.Srtp

open ByteCodec Run

set_option autoImplicit false

structure Sent where
  extSeq : Nat
  packet : Bytes

/-- The session together with the largest extended sequence number sent so far
on the source under study. -/
structure SendHistory where
  session : Session
  highest : Option Nat

def SendHistory.step (crypto : Crypto) (history : SendHistory) (sent : Sent) :
    SendHistory × List (Option Bytes) :=
  let result := encryptRtp crypto history.session sent.packet
  ({ session := result.1
     highest := some (max (history.highest.getD 0) sent.extSeq) }, [result.2])

/-- In cycle zero when it is the first, otherwise within 32767 of the largest
number sent before. -/
def NearHighest : Option Nat → Nat → Prop
  | none, extSeq => extSeq < 0x10000
  | some highest, extSeq => extSeq ≤ highest + 32767 ∧ highest ≤ extSeq + 32767

instance : (highest : Option Nat) → (extSeq : Nat) → Decidable (NearHighest highest extSeq)
  | none, _ => inferInstanceAs (Decidable (_ < _))
  | some _, _ => inferInstanceAs (Decidable (_ ∧ _))

/-- A packet of the source whose sequence field is its extended number modulo
`2^16`, at a permitted distance from what was sent before. -/
def Sendable (ssrc : Nat) (history : SendHistory) (sent : Sent) : Prop :=
  12 ≤ sent.packet.length ∧ ssrcOf sent.packet = ssrc ∧
    seqOf sent.packet = sent.extSeq % 0x10000 ∧ NearHighest history.highest sent.extSeq

instance (ssrc : Nat) (history : SendHistory) (sent : Sent) :
    Decidable (Sendable ssrc history sent) :=
  inferInstanceAs (Decidable (_ ∧ _ ∧ _ ∧ _))

/-- The rollover counter that goes into the IV or nonce and into the tag. -/
def rocUsed (session : Session) (packet : Bytes) : Nat :=
  (senderIndex (session.sendState (ssrcOf packet)) (seqOf packet)).roc

/-- The counter used is the true one, the largest index is stored, and what comes out is
protected under that counter. -/
def RocTracks (crypto : Crypto) (ssrc : Nat) (history : SendHistory) (sent : Sent) : Prop :=
  rocUsed history.session sent.packet = sent.extSeq / 0x10000 ∧
    (encryptRtp crypto history.session sent.packet).1.sendState ssrc =
      some { maxIndex := max (history.highest.getD 0) sent.extSeq } ∧
    (rtpHeaderLength sent.packet ≤ sent.packet.length →
      (encryptRtp crypto history.session sent.packet).2 =
        some (protectRtp crypto history.session sent.packet
          (rocUsed history.session sent.packet)
          (rocUsed history.session sent.packet * 0x10000 + seqOf sent.packet)))

instance (crypto : Crypto) (ssrc : Nat) (history : SendHistory) (sent : Sent) :
    Decidable (RocTracks crypto ssrc history sent) :=
  inferInstanceAs (Decidable (_ ∧ _ ∧ (_ → _)))

/-- The packet is in the cycle of the highest index and the wrap test stays
silent, or it is in the next cycle, which must exist, and the test fires. A
packet of an earlier cycle never meets it. -/
def WrapTestRight (history : SendHistory) (sent : Sent) : Prop :=
  match history.highest with
  | none => True
  | some highest =>
      (sent.extSeq / 0x10000 = highest / 0x10000 ∧
        ¬ (sent.extSeq % 0x10000 < 0x8000 ∧ 0xC000 < highest % 0x10000)) ∨
      (sent.extSeq / 0x10000 = highest / 0x10000 + 1 ∧ 0xC000 < highest % 0x10000 ∧
        sent.extSeq < 2 ^ 48)

def Stores (ssrc : Nat) (history : SendHistory) : Prop :=
  history.session.sendState ssrc = history.highest.map fun highest => { maxIndex := highest }

/-- Once the counter is right the index is the extended number itself, so the
stored index becomes the larger of the two. -/
theorem sender_index_next (highest extSeq : Nat)
    (right : (senderIndex (some { maxIndex := highest }) (extSeq % 0x10000)).roc =
      extSeq / 0x10000) :
    (senderIndex (some { maxIndex := highest }) (extSeq % 0x10000)).next =
      { maxIndex := max highest extSeq } := by
  have index := sender_index_index (some { maxIndex := highest }) (extSeq % 0x10000)
  rw [right, Nat.div_add_mod'] at index
  have stored : (senderIndex (some { maxIndex := highest }) (extSeq % 0x10000)).next =
      if (senderIndex (some { maxIndex := highest }) (extSeq % 0x10000)).index > highest then
        { maxIndex := (senderIndex (some { maxIndex := highest }) (extSeq % 0x10000)).index }
      else { maxIndex := highest } := rfl
  rw [stored, index]
  split_ifs with ahead
  · rw [Nat.max_eq_right (Nat.le_of_lt ahead)]
  · rw [Nat.max_eq_left (Nat.le_of_not_lt ahead)]

/-- The arithmetic of the two thresholds: with the packet at most 32767 away from
the highest index, the computed counter is right in exactly these cases. -/
theorem sender_roc_right_iff {highest extSeq : Nat}
    (near : extSeq ≤ highest + 32767 ∧ highest ≤ extSeq + 32767) :
    (senderIndex (some { maxIndex := highest }) (extSeq % 0x10000)).roc = extSeq / 0x10000 ↔
      (extSeq / 0x10000 = highest / 0x10000 ∧
        ¬ (extSeq % 0x10000 < 0x8000 ∧ 0xC000 < highest % 0x10000)) ∨
      (extSeq / 0x10000 = highest / 0x10000 + 1 ∧ 0xC000 < highest % 0x10000 ∧
        extSeq < 2 ^ 48) := by
  simp only [senderIndex]
  split_ifs with wrapped
  · omega
  · omega

theorem encrypt_rtp_under_roc (crypto : Crypto) (session : Session) {packet : Bytes}
    (long : 12 ≤ packet.length) (fits : rtpHeaderLength packet ≤ packet.length) :
    (encryptRtp crypto session packet).2 =
      some (protectRtp crypto session packet (rocUsed session packet)
        (rocUsed session packet * 0x10000 + seqOf packet)) := by
  rw [encrypt_rtp_output crypto session long fits, sender_index_index, rocUsed]

theorem roc_tracks_iff (crypto : Crypto) (ssrc : Nat) (history : SendHistory) (sent : Sent)
    (sendable : Sendable ssrc history sent) (stores : Stores ssrc history) :
    RocTracks crypto ssrc history sent ↔ WrapTestRight history sent := by
  obtain ⟨long, source, seq, near⟩ := sendable
  rcases history with ⟨session, highest⟩
  simp only [Stores] at stores
  rw [RocTracks, and_iff_left (encrypt_rtp_under_roc crypto session long)]
  simp only [rocUsed, encrypt_rtp_send_state crypto session long, source, Function.update_self,
    stores, seq]
  cases highest with
  | none =>
      -- The first packet is in cycle zero and is stored as it is.
      have cycleZero : sent.extSeq < 0x10000 := near
      have low : sent.extSeq % 0x10000 = sent.extSeq := Nat.mod_eq_of_lt cycleZero
      simp only [WrapTestRight, Option.map_none, senderIndex, low, iff_true]
      exact ⟨by omega, by simp⟩
  | some highest =>
      simp only [WrapTestRight, Option.map_some, Option.getD_some]
      rw [← sender_roc_right_iff near]
      constructor
      · exact And.left
      · intro right
        exact ⟨right, congrArg some (sender_index_next highest sent.extSeq right)⟩

theorem stores_step (crypto : Crypto) (ssrc : Nat) (history : SendHistory) (sent : Sent)
    (tracks : RocTracks crypto ssrc history sent) :
    Stores ssrc (history.step crypto sent).1 := tracks.2.1

def SendHistory.start (session : Session) : SendHistory where
  session := session
  highest := none

theorem encrypt_rtp_tracks_rollover_iff (crypto : Crypto) {session : Session} {ssrc : Nat}
    (unused : session.sendState ssrc = none) {history : List Sent}
    (sends : Always (SendHistory.step crypto) (Sendable ssrc) (.start session) history) :
    Always (SendHistory.step crypto) (RocTracks crypto ssrc) (.start session) history ↔
      Always (SendHistory.step crypto) WrapTestRight (.start session) history := by
  apply always_iff_of_invariant (Stores ssrc) _ _ _ sends
  · intro state sent sendable stores
    exact roc_tracks_iff crypto ssrc state sent sendable stores
  · intro state sent _ _ tracks
    exact stores_step crypto ssrc state sent tracks
  · exact unused

def bareSent (extSeq : Nat) : Sent where
  extSeq := extSeq
  packet := [0x80, 96] ++ encodeBE 2 extSeq ++ encodeBE 4 0 ++ encodeBE 4 7

theorem rollover_tracked_over_first_wrap :
    Always (SendHistory.step toyCrypto) (RocTracks toyCrypto 7) (.start toySession)
      [bareSent 65530, bareSent 65538] :=
  (encrypt_rtp_tracks_rollover_iff toyCrypto (show toySession.sendState 7 = none from rfl)
    (by decide)).mpr ⟨trivial, .inr ⟨by decide, by decide, by decide⟩, trivial⟩

/-- Sending 65530, 65538 and then the late 65535: the late packet is protected
under counter one and drags the stored index a whole cycle ahead. So is a jump
from 40000 to 66000, which the test does not see. -/
theorem rollover_lost_by_late_packet :
    Always (SendHistory.step toyCrypto) (Sendable 7) (.start toySession)
        [bareSent 65530, bareSent 65538, bareSent 65535] ∧
      ¬ Always (SendHistory.step toyCrypto) (RocTracks toyCrypto 7) (.start toySession)
        [bareSent 65530, bareSent 65538, bareSent 65535] ∧
      Always (SendHistory.step toyCrypto) (Sendable 7) (.start toySession)
        [bareSent 40000, bareSent 66000] ∧
      ¬ Always (SendHistory.step toyCrypto) (RocTracks toyCrypto 7) (.start toySession)
        [bareSent 40000, bareSent 66000] := by
  decide +kernel

end RtpPacket.Srtp
