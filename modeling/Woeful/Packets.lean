import Woeful.Lib.Memory

/-!
# Wisp packets

`packets.h`: the constants, the packet types, and the constructors that parse a
packet out of a message. The parsers do no size check of their own; they are
modelled with the reads they make (`Memory.readU8` and the like, which fault
outside the block) and with `size_t` subtraction that wraps, so that what they
do on a short message is visible.

A packet's `data_len` is the length of its `data`: the constructors allocate
and copy exactly that many bytes.
-/

namespace Woeful

open Memory

/-- `BUFFER_COUNT`: the credit of a fresh stream, and the most events one wait returns. -/
abbrev bufferCount : UInt32 := 127

/-- `SEGMENT_SIZE`: the size of the buffer one `read` fills. -/
abbrev segmentSize : Nat := 1024 * 20

/-- `MAX_WS_FRAME`: the size after which a pass of the watcher stops reading. -/
abbrev maxWsFrame : Nat := 63 * 1000000

/-- `MAX_POSSIBLE_WS_FRAME` -/
abbrev maxPossibleWsFrame : Nat := 64 * 1000000

/-- `MAX_QUEUE`: the number of pending closures up to which credit is renewed. -/
abbrev maxQueue : Nat := 1000

/-! `enum PacketType` -/

/-- `PACKET_CONNECT` -/
abbrev packetConnect : UInt8 := 0x01
/-- `PACKET_DATA` -/
abbrev packetData : UInt8 := 0x02
/-- `PACKET_CONTINUE` -/
abbrev packetContinue : UInt8 := 0x03
/-- `PACKET_CLOSE` -/
abbrev packetClose : UInt8 := 0x04
/-- `PACKET_INFO` -/
abbrev packetInfo : UInt8 := 0x05

/-- The outer packet of every message. -/
structure WispPacket where
  /-- a `PacketType`, or any byte the protocol does not know -/
  packetType : UInt8
  /-- the stream the packet is about -/
  streamId : UInt32
  /-- the payload -/
  data : Bytes
  deriving DecidableEq, Repr

namespace WispPacket

/-- `sizeof(uint8_t) + sizeof(uint32_t)` -/
abbrev headerSize : UInt64 := 5

/-- `data_len` as the parser computes it, wrapping where the message is too short. -/
def dataLen (srcLength : UInt64) : UInt64 := srcLength - headerSize

/-- `WispPacket(unsigned char *src, size_t src_length)` -/
def parse (src : Bytes) (srcLength : UInt64) : Except Fault WispPacket := do
  let packetType ← readU8 src 0
  let streamId ← readU32 src 1
  let dataLen := dataLen srcLength
  allocate dataLen
  let data ← memcpy src headerSize.toNat dataLen.toNat
  return ⟨packetType, streamId, data⟩

/-- `WispPacket::serialize`: the header is stored from the front, the payload
`data_len` bytes before the end. -/
def serialize (p : WispPacket) : Bytes :=
  let buildSize := 1 + 4 + p.data.length
  let build := List.replicate buildSize 0
  let build := store build 0 (p.packetType :: toLE32 p.streamId)
  store build (buildSize - p.data.length) p.data

theorem serialize_eq (p : WispPacket) :
    p.serialize = p.packetType :: toLE32 p.streamId ++ p.data := by
  have hoff : 1 + 4 + p.data.length - p.data.length =
      (p.packetType :: toLE32 p.streamId).length := by
    rw [Nat.add_sub_cancel]
    rfl
  rw [serialize, hoff]
  exact store_append (by rw [List.length_replicate]; rfl)

end WispPacket

/-- The payload of a CONNECT. -/
structure ConnectPacket where
  /-- `0x01` for TCP, `0x02` for UDP -/
  streamType : UInt8
  /-- the port to connect to -/
  destinationPort : UInt16
  /-- the buffer that holds the hostname, its terminator included where there is one -/
  destinationHostname : Bytes
  deriving DecidableEq, Repr

namespace ConnectPacket

/-- `sizeof(uint8_t) + sizeof(uint16_t)` -/
abbrev headerSize : UInt64 := 3

/-- `src_length - header_size`, wrapping where the payload is too short. -/
def hostnameLen (srcLength : UInt64) : UInt64 := srcLength - headerSize

/-- `ConnectPacket(unsigned char *src, size_t src_length)`. The terminator is
appended when the *payload's* last byte is not 0, whatever that byte belongs to. -/
def parse (src : Bytes) (srcLength : UInt64) : Except Fault ConnectPacket := do
  let streamType ← readU8 src 0
  let destinationPort ← readU16 src 1
  let last ← readU8 src (srcLength - 1).toNat
  let terminator : Bytes := if last = 0 then [] else [0]
  allocate (hostnameLen srcLength + UInt64.ofNat terminator.length)
  let hostname ← memcpy src headerSize.toNat (hostnameLen srcLength).toNat
  return ⟨streamType, destinationPort, hostname ++ terminator⟩

end ConnectPacket

/-- The C string a buffer holds: its bytes up to the first 0. Scanning a buffer
that holds no 0 runs out of its bounds. -/
def cString (buf : Bytes) : Except Fault Bytes :=
  if 0 ∈ buf then .ok (buf.takeWhile (· ≠ 0)) else .error .outOfBounds

/-- The payload of a CONTINUE: `ContinuePacket(buffer_remaining).serialize()`. -/
def ContinuePacket.serialize (bufferRemaining : UInt32) : Bytes := toLE32 bufferRemaining

/-- `ContinuePacket(unsigned char *src, size_t)`: the number a CONTINUE carries. -/
def ContinuePacket.parse (src : Bytes) : Except Fault UInt32 := readU32 src 0

/-- The payload of a CLOSE: `ClosePacket(close_reason).serialize()`. -/
def ClosePacket.serialize (closeReason : UInt8) : Bytes := [closeReason]

/-- `ClosePacket(unsigned char *src, size_t)`: the reason a CLOSE carries. -/
def ClosePacket.parse (src : Bytes) : Except Fault UInt8 := readU8 src 0

/-- The payload of an INFO. -/
structure InfoPacket where
  /-- `major_wisp_version` -/
  majorWispVersion : UInt8
  /-- `minor_wisp_version` -/
  minorWispVersion : UInt8
  /-- `extension_data` -/
  extensionData : Bytes
  deriving DecidableEq, Repr

namespace InfoPacket

/-- `sizeof(uint8_t) + sizeof(uint8_t)` -/
abbrev headerSize : UInt64 := 2

/-- `extension_data_len`, wrapping where the payload is too short. -/
def extensionDataLen (srcLength : UInt64) : UInt64 := srcLength - headerSize

/-- `InfoPacket(unsigned char *src, size_t src_length)` -/
def parse (src : Bytes) (srcLength : UInt64) : Except Fault InfoPacket := do
  let majorWispVersion ← readU8 src 0
  let minorWispVersion ← readU8 src 1
  allocate (extensionDataLen srcLength)
  let extensionData ← memcpy src headerSize.toNat (extensionDataLen srcLength).toNat
  return ⟨majorWispVersion, minorWispVersion, extensionData⟩

/-- `InfoPacket::serialize`, with the extension data at `build_size - extension_data_len`. -/
def serialize (p : InfoPacket) : Bytes :=
  let buildSize := 1 + 1 + p.extensionData.length
  let build := List.replicate buildSize 0
  let build := store build 0 [p.majorWispVersion, p.minorWispVersion]
  store build (buildSize - p.extensionData.length) p.extensionData

end InfoPacket

/-! ## Parsing is defined on long enough messages only -/

theorem WispPacket.parse_eq_ok {src : Bytes} {srcLength : UInt64} {p : WispPacket} :
    WispPacket.parse src srcLength = .ok p ↔
      src[0]? = some p.packetType ∧ readU32 src 1 = .ok p.streamId ∧
        (WispPacket.dataLen srcLength).toNat < 2 ^ 63 ∧
        memcpy src 5 (WispPacket.dataLen srcLength).toNat = .ok p.data := by
  obtain ⟨ty, id, data⟩ := p
  simp only [WispPacket.parse, andThen_eq_ok, readU8_eq_ok, pure, Except.pure, Except.ok.injEq,
    WispPacket.mk.injEq]
  constructor
  · rintro ⟨_, hty, _, hid, _, hal, _, hcp, rfl, rfl, rfl⟩
    refine ⟨hty, hid, ?_, hcp⟩
    rw [allocate] at hal
    split at hal
    · assumption
    · cases hal
  · rintro ⟨hty, hid, hal, hcp⟩
    exact ⟨ty, hty, id, hid, (), by rw [allocate, if_pos hal], data, hcp, rfl, rfl, rfl⟩

/-- The stream type of a CONNECT is the first byte of its payload. -/
theorem ConnectPacket.streamType_of_parse {src : Bytes} {srcLength : UInt64} {p : ConnectPacket}
    (h : ConnectPacket.parse src srcLength = .ok p) : src[0]? = some p.streamType := by
  rw [ConnectPacket.parse, andThen_eq_ok] at h
  obtain ⟨ty, hty, h⟩ := h
  simp only [andThen_eq_ok, pure, Except.pure, Except.ok.injEq] at h
  obtain ⟨_, -, _, -, _, -, _, -, rfl⟩ := h
  exact readU8_eq_ok.mp hty

/-! ## Parsing what was serialized -/

theorem ContinuePacket.parse_serialize (n : UInt32) :
    ContinuePacket.parse (ContinuePacket.serialize n) = .ok n :=
  readU32_eq_ok.mpr ⟨byteAt n 0, byteAt n 1, byteAt n 2, byteAt n 3, rfl, rfl, rfl, rfl,
    ofLE32_byteAt n⟩

/-- The header of a packet survives, and of its payload what is parsed at all. -/
theorem WispPacket.parse_serialize {p q : WispPacket} {srcLength : UInt64}
    (h : WispPacket.parse p.serialize srcLength = .ok q) :
    q.packetType = p.packetType ∧ q.streamId = p.streamId ∧ q.data <+: p.data := by
  rw [WispPacket.parse_eq_ok, WispPacket.serialize_eq] at h
  obtain ⟨htype, hid, -, hdata⟩ := h
  refine ⟨(Option.some.inj htype).symm, ?_, ?_⟩
  · obtain ⟨b0, b1, b2, b3, h0, h1, h2, h3, hq⟩ := readU32_eq_ok.mp hid
    obtain rfl := Option.some.inj h0
    obtain rfl := Option.some.inj h1
    obtain rfl := Option.some.inj h2
    obtain rfl := Option.some.inj h3
    rw [← hq]
    exact ofLE32_byteAt p.streamId
  · obtain ⟨-, hq⟩ := memcpy_eq_ok.mp hdata
    rw [← hq]
    exact List.take_prefix _ _

end Woeful
