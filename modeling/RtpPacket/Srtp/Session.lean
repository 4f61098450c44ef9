import RtpPacket.Lib.Checked
import RtpPacket.Srtp.Iv

/-!
# Sessions, profiles and key derivation

The native ciphers are parameters with the laws the session code relies on:
a counter-mode keystream that depends on key and IV, an authenticated cipher
whose `gcmOpen` inverts `gcmSeal` under equal key, nonce and associated data,
and a keyed hash of fixed length; what a new buffer holds is one too. Everything else is
transcribed.
-/

namespace RtpPacket.Srtp

open ByteCodec Checked

set_option autoImplicit false

inductive CtrCipher where
  | aes128
  | aes256
  deriving DecidableEq, Repr

inductive GcmCipher where
  | aes128
  | aes256
  deriving DecidableEq, Repr

structure Crypto where
  /-- Keystream byte at a position, for a cipher, a key and an IV. -/
  keystream : CtrCipher → Bytes → Bytes → Nat → Byte
  /-- Cipher, key, nonce, associated data and plaintext to ciphertext and tag. -/
  gcmSeal : GcmCipher → Bytes → Bytes → Bytes → Bytes → Bytes × Bytes
  /-- Cipher, key, nonce, associated data, ciphertext and tag to plaintext. -/
  gcmOpen : GcmCipher → Bytes → Bytes → Bytes → Bytes → Bytes → Option Bytes
  hmacSha1 : Bytes → Bytes → Bytes
  /-- What a new buffer of `allocUnsafe` holds, made while this packet is opened. -/
  memory : Bytes → Nat → Byte
  gcm_seal_length : ∀ cipher key nonce aad plaintext,
    (gcmSeal cipher key nonce aad plaintext).1.length = plaintext.length
  gcm_tag_length : ∀ cipher key nonce aad plaintext,
    (gcmSeal cipher key nonce aad plaintext).2.length = 16
  gcm_open_seal : ∀ cipher key nonce aad plaintext,
    gcmOpen cipher key nonce aad (gcmSeal cipher key nonce aad plaintext).1
      (gcmSeal cipher key nonce aad plaintext).2 = some plaintext
  hmac_length : ∀ key message, (hmacSha1 key message).length = 20

/-- A small instance of the laws, for concrete runs: the keystream repeats key and
IV, the tag of the authenticated cipher folds nonce and plaintext, the keyed hash
folds key and message. -/
def toyCrypto : Crypto where
  keystream _ key iv position :=
    (key ++ iv).getD (position % (key.length + iv.length)) 0 ^^^ UInt8.ofNat position
  gcmSeal _ key nonce aad plaintext :=
    (plaintext.map (· ^^^ key.getD 0 0),
      List.replicate 16 ((nonce ++ aad ++ plaintext).foldl (· + ·) 0))
  gcmOpen _ key nonce aad ciphertext tag :=
    let plaintext := ciphertext.map (· ^^^ key.getD 0 0)
    if tag = List.replicate 16 ((nonce ++ aad ++ plaintext).foldl (· + ·) 0) then some plaintext
    else none
  hmacSha1 key message := List.replicate 20 ((key ++ message).foldl (fun acc b => acc * 3 + b) 0)
  memory _ _ := 0
  gcm_seal_length := by simp
  gcm_tag_length := by simp
  gcm_open_seal := by
    intro cipher key nonce aad plaintext
    have cancelled : (plaintext.map (· ^^^ key.getD 0 0)).map (· ^^^ key.getD 0 0) = plaintext := by
      rw [List.map_map, List.map_congr_left (g := id) fun byte _ => by
        simp only [Function.comp, UInt8.xor_assoc, UInt8.xor_self, UInt8.xor_zero, id], List.map_id]
    simp only [cancelled, if_true]
  hmac_length := by simp

def authTagLen : Nat := 10
def sessionKeyLen : Nat := 16
def cmSaltLen : Nat := 14
def authKeyLen : Nat := 20
def gcmTagLen : Nat := 16
def gcmSaltLen : Nat := 12
def replayWindow : Nat := 128

inductive Profile where
  | aesCm128HmacSha180
  | aeadAes128Gcm
  | aeadAes256Gcm
  deriving DecidableEq, Repr

namespace Profile

def name : Profile → String
  | aesCm128HmacSha180 => "AES_CM_128_HMAC_SHA1_80"
  | aeadAes128Gcm => "AEAD_AES_128_GCM"
  | aeadAes256Gcm => "AEAD_AES_256_GCM"

def gcm : Profile → Bool
  | aesCm128HmacSha180 => false
  | aeadAes128Gcm => true
  | aeadAes256Gcm => true

def keyLen : Profile → Nat
  | aeadAes256Gcm => 32
  | _ => sessionKeyLen

def gcmCipher : Profile → GcmCipher
  | aeadAes256Gcm => .aes256
  | _ => .aes128

def tagLen (profile : Profile) : Nat := if profile.gcm then gcmTagLen else authTagLen

def saltLen (profile : Profile) : Nat := if profile.gcm then gcmSaltLen else cmSaltLen

end Profile

/-- What a caller may pass as a profile: nothing, an IANA number or a name. -/
inductive ProfileArg where
  | absent
  | number (value : Nat)
  | text (value : String)
  deriving DecidableEq, Repr

def padStart (width : Nat) (text : String) : String :=
  String.ofList (List.replicate (width - text.length) '0') ++ text

def normalizeProfile : ProfileArg → Except String Profile
  | .absent => .ok .aesCm128HmacSha180
  | .number value =>
      if value = 0x0001 then .ok .aesCm128HmacSha180
      else if value = 0x0007 then .ok .aeadAes128Gcm
      else if value = 0x0008 then .ok .aeadAes256Gcm
      else .error ("SrtpSession: unsupported DTLS-SRTP profile number 0x" ++
        padStart 4 (String.ofList (Nat.toDigits 16 value)) ++
        " (supported: 0x0001 SRTP_AES128_CM_HMAC_SHA1_80, 0x0007 SRTP_AEAD_AES_128_GCM, " ++
        "0x0008 SRTP_AEAD_AES_256_GCM)")
  | .text value =>
      if value = "AES_CM_128_HMAC_SHA1_80" ∨ value = "SRTP_AES128_CM_HMAC_SHA1_80" then
        .ok .aesCm128HmacSha180
      else if value = "AEAD_AES_128_GCM" ∨ value = "SRTP_AEAD_AES_128_GCM" then
        .ok .aeadAes128Gcm
      else if value = "AEAD_AES_256_GCM" ∨ value = "SRTP_AEAD_AES_256_GCM" then
        .ok .aeadAes256Gcm
      else .error ("SrtpSession: unknown profile \"" ++ value ++
        "\" (supported: AES_CM_128_HMAC_SHA1_80, AEAD_AES_128_GCM, AEAD_AES_256_GCM)")

structure SendState where
  maxIndex : Nat
  deriving DecidableEq, Repr

/-- The replay bitmap: bit `d` of the four words says that `maxIndex - d` was
seen. A new entry starts at `-1`. -/
structure RecvState where
  maxIndex : Int
  replay : Vector (BitVec 32) 4

def RecvState.new : RecvState where
  maxIndex := -1
  replay := Vector.replicate 4 0

structure Session where
  profile : Profile
  replayEnabled : Bool
  encRtpKey : Bytes
  encRtpSalt : Bytes
  encRtcpKey : Bytes
  encRtcpSalt : Bytes
  decRtpKey : Bytes
  decRtpSalt : Bytes
  decRtcpKey : Bytes
  decRtcpSalt : Bytes
  encRtpAuth : Bytes
  encRtcpAuth : Bytes
  decRtpAuth : Bytes
  decRtcpAuth : Bytes
  sendState : Nat → Option SendState
  recvState : Nat → Option RecvState
  srtcpSendIndex : Nat
  srtcpRecvState : Nat → Option RecvState

def ctrXor (crypto : Crypto) (cipher : CtrCipher) (key iv payload : Bytes) : Bytes :=
  payload.mapIdx fun position byte => byte ^^^ crypto.keystream cipher key iv position

def aesCmEncrypt (crypto : Crypto) (key iv payload : Bytes) : Bytes :=
  ctrXor crypto .aes128 key iv payload

def kdfSalt (masterSalt : Bytes) : Bytes :=
  if masterSalt.length = cmSaltLen then masterSalt
  else masterSalt.take cmSaltLen ++ List.replicate (cmSaltLen - masterSalt.length) 0

def labelRtpCipher : Byte := 0x00
def labelRtpAuth : Byte := 0x01
def labelRtpSalt : Byte := 0x02
def labelRtcpCipher : Byte := 0x03
def labelRtcpAuth : Byte := 0x04
def labelRtcpSalt : Byte := 0x05

def deriveKey (crypto : Crypto) (masterKey masterSalt : Bytes) (label : Byte) (length : Nat) :
    Bytes :=
  let iv := masterSalt.take 16 ++ List.replicate (16 - masterSalt.length) 0
  let iv := xorAt iv 7 label
  let kdfCipher : CtrCipher := if masterKey.length = 32 then .aes256 else .aes128
  let zeros := List.replicate (if length ≤ 16 then 16 else 32) (0 : Byte)
  (ctrXor crypto kdfCipher masterKey iv zeros).take length

structure MasterKeys where
  encMasterKey : Bytes
  encMasterSalt : Bytes
  decMasterKey : Bytes
  decMasterSalt : Bytes

/-- The two construction forms: one key both ways, or a key for each direction. -/
inductive SessionArg where
  | symmetric (masterKey masterSalt : Bytes)
  | duplex (clientKey serverKey clientSalt serverSalt : Bytes) (isServer : Bool)

structure SessionOptions where
  profile : ProfileArg := .absent
  replayProtection : Option Bool := none

def SessionArg.masterKeys : SessionArg → MasterKeys
  | .symmetric masterKey masterSalt => ⟨masterKey, masterSalt, masterKey, masterSalt⟩
  | .duplex clientKey serverKey clientSalt serverSalt isServer =>
      { encMasterKey := if isServer then serverKey else clientKey
        encMasterSalt := if isServer then serverSalt else clientSalt
        decMasterKey := if isServer then clientKey else serverKey
        decMasterSalt := if isServer then clientSalt else serverSalt }

def sessionOf (crypto : Crypto) (keys : MasterKeys) (profile : Profile) (replayEnabled : Bool) :
    Session :=
  let encKdfSalt := kdfSalt keys.encMasterSalt
  let decKdfSalt := kdfSalt keys.decMasterSalt
  let enc := deriveKey crypto keys.encMasterKey encKdfSalt
  let dec := deriveKey crypto keys.decMasterKey decKdfSalt
  -- The auth keys exist in the counter-mode profile only.
  let auth (derived : Bytes) : Bytes := if profile.gcm then [] else derived
  { profile := profile
    replayEnabled := replayEnabled
    encRtpKey := enc labelRtpCipher profile.keyLen
    encRtpSalt := enc labelRtpSalt profile.saltLen
    encRtcpKey := enc labelRtcpCipher profile.keyLen
    encRtcpSalt := enc labelRtcpSalt profile.saltLen
    decRtpKey := dec labelRtpCipher profile.keyLen
    decRtpSalt := dec labelRtpSalt profile.saltLen
    decRtcpKey := dec labelRtcpCipher profile.keyLen
    decRtcpSalt := dec labelRtcpSalt profile.saltLen
    encRtpAuth := auth (enc labelRtpAuth authKeyLen)
    encRtcpAuth := auth (enc labelRtcpAuth authKeyLen)
    decRtpAuth := auth (dec labelRtpAuth authKeyLen)
    decRtcpAuth := auth (dec labelRtcpAuth authKeyLen)
    sendState := fun _ => none
    recvState := fun _ => none
    srtcpSendIndex := 0
    srtcpRecvState := fun _ => none }

def srtpSession (crypto : Crypto) (arg : SessionArg) (opts : SessionOptions) :
    Except String Session := do
  let keys := arg.masterKeys
  let profile ← normalizeProfile opts.profile
  let replayEnabled := opts.replayProtection ≠ some false
  let keyError := "SrtpSession: masterKey must be " ++ toString profile.keyLen ++
    " bytes for " ++ profile.name
  if keys.encMasterKey.length ≠ profile.keyLen then throw keyError
  if keys.decMasterKey.length ≠ profile.keyLen then throw keyError
  if keys.encMasterSalt.length ≠ profile.saltLen ∨ keys.decMasterSalt.length ≠ profile.saltLen then
    throw ("SrtpSession: masterSalt must be " ++ toString profile.saltLen ++
      " bytes for " ++ profile.name)
  return sessionOf crypto keys profile replayEnabled

def keyingMaterialLength (profile : Profile) : Nat := 2 * profile.keyLen + 2 * profile.saltLen

/-- Exporter output is sliced as both keys, then both salts. An option the caller
passes under `profile` is not merged over the negotiated one. -/
def fromDtlsKeyingMaterial (crypto : Crypto) (profileArg : ProfileArg) (keyingMaterial : Bytes)
    (isServer : Bool) (replayProtection : Option Bool) : Except String Session := do
  let profile ← normalizeProfile profileArg
  let want := keyingMaterialLength profile
  if keyingMaterial.length ≠ want then
    throw ("SrtpSession.fromDtlsKeyingMaterial: expected " ++ toString want ++
      " bytes of keying material for " ++ profile.name ++ ", got " ++
      toString keyingMaterial.length ++
      " (request keyingMaterialLength(profile) bytes from the DTLS exporter)")
  let clientKey := keyingMaterial.take profile.keyLen
  let serverKey := (keyingMaterial.drop profile.keyLen).take profile.keyLen
  let clientSalt := (keyingMaterial.drop (2 * profile.keyLen)).take profile.saltLen
  let serverSalt :=
    (keyingMaterial.drop (2 * profile.keyLen + profile.saltLen)).take profile.saltLen
  srtpSession crypto (.duplex clientKey serverKey clientSalt serverSalt isServer)
    { profile := .text profile.name, replayProtection := replayProtection }

def toySession : Session :=
  sessionOf toyCrypto
    ⟨List.replicate 16 0, List.replicate 14 0, List.replicate 16 0, List.replicate 14 0⟩
    .aesCm128HmacSha180 true

theorem normalize_profile_name (profile : Profile) :
    normalizeProfile (.text profile.name) = .ok profile := by
  cases profile <;> rfl

theorem srtp_session_ok {crypto : Crypto} {arg : SessionArg} {opts : SessionOptions}
    {session : Session} (made : srtpSession crypto arg opts = .ok session) :
    ∃ profile, normalizeProfile opts.profile = .ok profile ∧
      session = sessionOf crypto arg.masterKeys profile (opts.replayProtection ≠ some false) := by
  obtain ⟨profile, normalized, checked⟩ := of_bind_ok made
  have built := of_check_ok (of_check_ok (of_check_ok checked))
  exact ⟨profile, normalized, (Except.ok.inj built).symm⟩

theorem from_dtls_ok {crypto : Crypto} {profileArg : ProfileArg} {keyingMaterial : Bytes}
    {isServer : Bool} {replayProtection : Option Bool} {session : Session}
    (made : fromDtlsKeyingMaterial crypto profileArg keyingMaterial isServer replayProtection =
      .ok session) :
    ∃ profile, normalizeProfile profileArg = .ok profile ∧
      session = sessionOf crypto
        (SessionArg.duplex (keyingMaterial.take profile.keyLen)
          ((keyingMaterial.drop profile.keyLen).take profile.keyLen)
          ((keyingMaterial.drop (2 * profile.keyLen)).take profile.saltLen)
          ((keyingMaterial.drop (2 * profile.keyLen + profile.saltLen)).take profile.saltLen)
          isServer).masterKeys profile (replayProtection ≠ some false) := by
  obtain ⟨profile, normalized, checked⟩ := of_bind_ok made
  obtain ⟨named, same, built⟩ := srtp_session_ok (of_check_ok checked)
  rw [normalize_profile_name] at same
  cases same
  exact ⟨profile, normalized, built⟩

/-- The two ends of a call: what one end encrypts with, the other decrypts with,
under the same profile, with replay protection on. -/
structure Matched (sender receiver : Session) : Prop where
  profile : receiver.profile = sender.profile
  rtpKey : receiver.decRtpKey = sender.encRtpKey
  rtpSalt : receiver.decRtpSalt = sender.encRtpSalt
  rtpAuth : receiver.decRtpAuth = sender.encRtpAuth
  rtcpKey : receiver.decRtcpKey = sender.encRtcpKey
  rtcpSalt : receiver.decRtcpSalt = sender.encRtcpSalt
  rtcpAuth : receiver.decRtcpAuth = sender.encRtcpAuth
  replay : receiver.replayEnabled = true

namespace Matched

variable {sender receiver : Session} (matched : Matched sender receiver)

include matched

theorem sent (sendState : Nat → Option SendState) (srtcpSendIndex : Nat) :
    Matched { sender with sendState := sendState, srtcpSendIndex := srtcpSendIndex } receiver :=
  ⟨matched.profile, matched.rtpKey, matched.rtpSalt, matched.rtpAuth, matched.rtcpKey,
    matched.rtcpSalt, matched.rtcpAuth, matched.replay⟩

theorem received (recvState srtcpRecvState : Nat → Option RecvState) :
    Matched sender
      { receiver with recvState := recvState, srtcpRecvState := srtcpRecvState } :=
  ⟨matched.profile, matched.rtpKey, matched.rtpSalt, matched.rtpAuth, matched.rtcpKey,
    matched.rtcpSalt, matched.rtcpAuth, matched.replay⟩

end Matched

end RtpPacket.Srtp
