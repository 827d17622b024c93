import Mathlib.Data.List.Basic
import Woeful.Lib.Memory

/-!
# The capture file

`pcap.h`: a `PcapInterface` writes a TCP conversation that looks like the one of a
stream, with a handshake of its own, invented addresses, and sequence numbers that count
the payload bytes recorded so far. A packet is what `write_tcp` puts together from its
arguments; fields are kept as numbers, not in network order.

What it recorded from the user is `uploaded`. The packets of the target and those of the
handshake add nothing to it.
-/

namespace Woeful

open Memory

/-- The fields of a `pcpp::TcpLayer` that are set. -/
structure TcpLayer where
  /-- the source port -/
  srcPort : UInt16
  /-- the destination port -/
  dstPort : UInt16
  /-- `synFlag` -/
  synFlag : Bool := false
  /-- `ackFlag` -/
  ackFlag : Bool := false
  /-- `sequenceNumber` -/
  sequenceNumber : UInt32 := 0
  /-- `ackNumber` -/
  ackNumber : UInt32 := 0
  /-- `windowSize` -/
  windowSize : UInt16 := 0
  deriving DecidableEq, Repr

/-- A packet of the file. -/
structure RawPacket where
  /-- `src_mac` -/
  srcMac : String
  /-- `dest_mac` -/
  destMac : String
  /-- `src` -/
  src : String
  /-- `dest` -/
  dest : String
  /-- `ipId` -/
  ipId : UInt16 := 2000
  /-- `timeToLive` -/
  timeToLive : UInt8 := 64
  /-- `tcp_layer` -/
  tcpLayer : TcpLayer
  /-- the payload -/
  data : Bytes
  deriving DecidableEq, Repr

/-- `PcapInterface`, with its file. -/
structure PcapInterface where
  /-- the packets written so far -/
  out : List RawPacket
  /-- `target_ip` -/
  targetIp : String
  /-- `target_port` -/
  targetPort : UInt16
  /-- `user_sequence_number` -/
  userSequenceNumber : UInt32 := 3
  /-- `target_sequence_number` -/
  targetSequenceNumber : UInt32 := 3
  deriving DecidableEq, Repr

namespace PcapInterface

/-- `user_ip` -/
abbrev userIp : String := "192.168.0.1"
/-- `user_mac` -/
abbrev userMac : String := "4A:7D:3D:39:61:79"
/-- `target_mac` -/
abbrev targetMac : String := "16:F7:AD:6C:C1:57"
/-- `user_port` -/
abbrev userPort : UInt16 := 1000

/-- `write_tcp` -/
def writeTcp (p : PcapInterface) (srcMac destMac src dest : String) (tcpLayer : TcpLayer)
    (data : Bytes) : PcapInterface :=
  { p with out := p.out ++ [{ srcMac, destMac, src, dest, tcpLayer, data }] }

/-- `PcapInterface::PcapInterface`: the handshake. -/
def start (targetIp : String) (targetPort : UInt16) : PcapInterface :=
  let p : PcapInterface := { out := [], targetIp, targetPort }
  let p := p.writeTcp userMac targetMac userIp targetIp
    { srcPort := userPort, dstPort := targetPort, synFlag := true, sequenceNumber := 2 } []
  let p := p.writeTcp targetMac userMac targetIp userIp
    { srcPort := targetPort, dstPort := userPort, synFlag := true, ackFlag := true,
      ackNumber := 3, sequenceNumber := 2 } []
  p.writeTcp userMac targetMac userIp targetIp
    { srcPort := userPort, dstPort := targetPort, ackFlag := true, ackNumber := 3,
      sequenceNumber := 3, windowSize := 65535 } []

/-- `write_dummy_user` -/
def writeDummyUser (p : PcapInterface) (data : Bytes) : PcapInterface :=
  let tcpLayer : TcpLayer :=
    { srcPort := userPort, dstPort := p.targetPort, ackFlag := true,
      ackNumber := p.targetSequenceNumber, sequenceNumber := p.userSequenceNumber,
      windowSize := 65535 }
  let p := p.writeTcp userMac targetMac userIp p.targetIp tcpLayer data
  { p with userSequenceNumber := p.userSequenceNumber + UInt32.ofNat data.length }

/-- `write_dummy_target` -/
def writeDummyTarget (p : PcapInterface) (data : Bytes) : PcapInterface :=
  let tcpLayer : TcpLayer :=
    { srcPort := p.targetPort, dstPort := userPort, ackFlag := true,
      ackNumber := p.userSequenceNumber, sequenceNumber := p.targetSequenceNumber,
      windowSize := 65535 }
  let p := p.writeTcp targetMac userMac p.targetIp userIp tcpLayer data
  { p with targetSequenceNumber := p.targetSequenceNumber + UInt32.ofNat data.length }

end PcapInterface

/-- The payload of a packet, if it is from the user. -/
def RawPacket.fromUser (p : RawPacket) : Bytes :=
  if p.srcMac = PcapInterface.userMac then p.data else []

namespace PcapInterface

variable {p : PcapInterface} {data : Bytes}

/-- The payload bytes recorded from the user, in the order of the file. -/
def uploaded (p : PcapInterface) : Bytes := p.out.flatMap RawPacket.fromUser

/-- The handshake carries no payload. -/
theorem data_start {targetIp : String} {targetPort : UInt16} :
    ∀ r ∈ (start targetIp targetPort).out, r.data = [] := by
  simp [start, writeTcp]

theorem fromUser_start {targetIp : String} {targetPort : UInt16} :
    ∀ r ∈ (start targetIp targetPort).out, r.fromUser = [] := by
  intro r hr
  rw [RawPacket.fromUser, data_start r hr]
  exact ite_self _

/-- The target's packets are not from the user. -/
theorem out_writeDummyTarget : ∃ r : RawPacket,
    (p.writeDummyTarget data).out = p.out ++ [r] ∧ r.data = data ∧ r.fromUser = [] :=
  ⟨_, rfl, rfl, if_neg (show targetMac ≠ userMac by decide)⟩

theorem out_writeDummyUser : ∃ r : RawPacket,
    (p.writeDummyUser data).out = p.out ++ [r] ∧ r.data = data ∧ r.fromUser = data :=
  ⟨_, rfl, rfl, if_pos rfl⟩

end PcapInterface

end Woeful
