import RtpPacket.Srtp.Iv
import RtpPacket.Srtp.Rollover
import RtpPacket.Srtp.Channel
import RtpPacket.Rtcp.Compound
import RtpPacket.Rtcp.Nack
import RtpPacket.Rtcp.Reports
import RtpPacket.Rtcp.Remb
import RtpPacket.Rtcp.Feedback
import RtpPacket.Codec.LengthPrefixed
import RtpPacket.Receive.Playout
import RtpPacket.Codec.H264Stream
import RtpPacket.Codec.FrameStreams
import RtpPacket.Codec.RedRecovery
import RtpPacket.Fec.Delivery
import RtpPacket.Codec.H265Stream
import RtpPacket.Receive.Reorder
import RtpPacket.Forward.Uniqueness
import RtpPacket.Retransmit.Losses
import RtpPacket.Srtp.RtcpChannel
import RtpPacket.Srtp.Nonces
import RtpPacket.Srtp.Rejection
import RtpPacket.Retransmit.SenderBuffer
import RtpPacket.Codec.Vp9Descriptor
import RtpPacket.Codec.Vp8Partitions
import RtpPacket.Codec.H264Loss
import RtpPacket.Codec.AacLoss
import RtpPacket.Retransmit.Rtx
import RtpPacket.Rtp.Extensions
import RtpPacket.Rtp.Remapping
import RtpPacket.Rtp.Stamping
import RtpPacket.Rtp.Reserialize
import RtpPacket.Forward.PayloadStart
import RtpPacket.Rtcp.BandwidthEstimator
import RtpPacket.Rtcp.RoundTrip
import RtpPacket.Rtp.HeaderStamper
import RtpPacket.Retransmit.Recovered
import RtpPacket.Retransmit.Superseding
import RtpPacket.Receive.Capacity
import RtpPacket.Codec.Keyframes
import RtpPacket.Codec.KeyPresses
import RtpPacket.Retransmit.Waiting
import RtpPacket.Receive.Search
import RtpPacket.Rtp.Encoders
import RtpPacket.Retransmit.Repair
import RtpPacket.Rtcp.DelayLoop
import RtpPacket.Codec.Reassembly
import RtpPacket.Codec.Opus
import RtpPacket.Codec.SecureStreams
import RtpPacket.Rtp.StampedValues
import RtpPacket.Rtcp.RembTracking
