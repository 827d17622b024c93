import Woeful.Frames

/-!
# Nothing is lost on the wire

Every format of `packets.h` that the server writes is a `RoundTrips`: the parsers
compute their offsets from the front, the serializers from the back, and both come to
the same. `framesTo` are the byte strings that `ws->send` is given, and each is decoded
in two stages, the outer packet first, to what `send_continue`, `send_close` and
`send_data` were called with.
-/

namespace Woeful

open Memory

variable {env : Env} {s : State} {m : Nat}

/-! ## The formats -/

/-- A header and what follows it, as the parser of the outer packet sees them. -/
theorem WispPacket.parse_append {type b0 b1 b2 b3 : UInt8} {data : Bytes}
    (hsize : ([type, b0, b1, b2, b3] ++ data).length < 2 ^ 63) :
    WispPacket.dataLen (UInt64.ofNat ([type, b0, b1, b2, b3] ++ data).length) =
        UInt64.ofNat data.length ∧
      WispPacket.parse ([type, b0, b1, b2, b3] ++ data)
        (UInt64.ofNat ([type, b0, b1, b2, b3] ++ data).length) =
          .ok ⟨type, ofLE32 b0 b1 b2 b3, data⟩ := by
  have hlen : (WispPacket.dataLen
      (UInt64.ofNat ([type, b0, b1, b2, b3] ++ data).length)).toNat = data.length :=
    toNat_lengthField hsize rfl
  have hdata : data.length < 2 ^ 63 := by
    rw [List.length_append] at hsize
    omega
  refine ⟨?_, ?_⟩
  · rw [← hlen, UInt64.ofNat_toNat]
  · rw [WispPacket.parse_eq_ok, hlen]
    exact ⟨rfl, readU32_eq_ok.mpr ⟨b0, b1, b2, b3, rfl, rfl, rfl, rfl, rfl⟩, hdata,
      memcpy_append rfl⟩

theorem WispPacket.length_serialize (p : WispPacket) :
    p.serialize.length = 5 + p.data.length := by
  rw [WispPacket.serialize_eq]
  simp [toLE32]
  omega

theorem WispPacket.roundTrips : RoundTrips WispPacket.serialize WispPacket.parse (5 ≤ ·) where
  decode p hsize := by
    rw [WispPacket.serialize_eq] at hsize ⊢
    have hparse := (WispPacket.parse_append hsize).2
    rw [ofLE32_byteAt] at hparse
    exact hparse
  encode src hsize hlen := by
    match src, hlen with
    | type :: b0 :: b1 :: b2 :: b3 :: data, _ =>
      refine ⟨⟨type, ofLE32 b0 b1 b2 b3, data⟩, (WispPacket.parse_append hsize).2, ?_⟩
      rw [WispPacket.serialize_eq, toLE32_ofLE32]
      rfl

theorem InfoPacket.serialize_eq (p : InfoPacket) :
    p.serialize = [p.majorWispVersion, p.minorWispVersion] ++ p.extensionData := by
  have hoff : 1 + 1 + p.extensionData.length - p.extensionData.length =
      [p.majorWispVersion, p.minorWispVersion].length :=
    Nat.add_sub_cancel _ _
  rw [InfoPacket.serialize, hoff]
  exact store_append (by rw [List.length_replicate]; rfl)

theorem InfoPacket.parse_append {major minor : UInt8} {data : Bytes}
    (hsize : ([major, minor] ++ data).length < 2 ^ 63) :
    InfoPacket.parse ([major, minor] ++ data)
      (UInt64.ofNat ([major, minor] ++ data).length) = .ok ⟨major, minor, data⟩ := by
  have hlen : (InfoPacket.extensionDataLen
      (UInt64.ofNat ([major, minor] ++ data).length)).toNat = data.length :=
    toNat_lengthField hsize rfl
  have hdata : data.length < 2 ^ 63 := by
    rw [List.length_append] at hsize
    omega
  simp only [InfoPacket.parse, andThen_eq_ok]
  refine ⟨major, rfl, minor, rfl, (), ?_, data, ?_, rfl⟩
  · rw [allocate, hlen, if_pos hdata]
  · rw [hlen]
    exact memcpy_append rfl

theorem InfoPacket.roundTrips : RoundTrips InfoPacket.serialize InfoPacket.parse (2 ≤ ·) where
  decode p hsize := by
    rw [InfoPacket.serialize_eq] at hsize ⊢
    exact InfoPacket.parse_append hsize
  encode src hsize hlen := by
    match src, hlen with
    | major :: minor :: data, _ =>
      exact ⟨⟨major, minor, data⟩, InfoPacket.parse_append hsize, InfoPacket.serialize_eq _⟩

theorem ContinuePacket.roundTrips :
    RoundTrips ContinuePacket.serialize (fun src _ => ContinuePacket.parse src) (· = 4) where
  decode n _ := ContinuePacket.parse_serialize n
  encode src _ hlen := by
    match src, hlen with
    | [b0, b1, b2, b3], _ =>
      refine ⟨ofLE32 b0 b1 b2 b3, ?_, toLE32_ofLE32 b0 b1 b2 b3⟩
      exact readU32_eq_ok.mpr ⟨b0, b1, b2, b3, rfl, rfl, rfl, rfl, rfl⟩

theorem ClosePacket.roundTrips :
    RoundTrips ClosePacket.serialize (fun src _ => ClosePacket.parse src) (· = 1) where
  decode _ _ := rfl
  encode src _ hlen := by
    match src, hlen with
    | [reason], _ => exact ⟨reason, rfl, rfl⟩

/-! ## The frames of the server -/

/-- The byte strings that `ws->send` of manager `m` was given, in order. -/
def State.framesTo (s : State) (m : Nat) : List Bytes := (s.sentTo m).map WispPacket.serialize

/-- The frame decodes to a packet of this type, about this stream, with this payload. -/
def Decodes (frame : Bytes) (type : UInt8) (streamId : UInt32) (payload : Bytes) : Prop :=
  WispPacket.parse frame (UInt64.ofNat frame.length) = .ok ⟨type, streamId, payload⟩

theorem State.framesTo_send {packet : WispPacket} {origin : Origin} :
    (s.send env m packet origin).framesTo m = s.framesTo m ++ [packet.serialize] := by
  rw [framesTo, sentTo_send_self, List.map_append]
  rfl

/-- **Codec round trip.** -/
theorem codec_roundTrips :
    RoundTrips WispPacket.serialize WispPacket.parse (5 ≤ ·) ∧
    (∀ p : WispPacket, p.serialize.length < 2 ^ 63 →
      WispPacket.dataLen (UInt64.ofNat p.serialize.length) = UInt64.ofNat p.data.length) ∧
    RoundTrips InfoPacket.serialize InfoPacket.parse (2 ≤ ·) ∧
    RoundTrips ContinuePacket.serialize (fun src _ => ContinuePacket.parse src) (· = 4) ∧
    RoundTrips ClosePacket.serialize (fun src _ => ClosePacket.parse src) (· = 1) ∧
    (∀ (env : Env) (s : State) (m : Nat) (n streamId : UInt32), ∃ frame payload,
      (s.sendContinue env m n streamId).framesTo m = s.framesTo m ++ [frame] ∧
        Decodes frame packetContinue streamId payload ∧ ContinuePacket.parse payload = .ok n) ∧
    (∀ (env : Env) (s : State) (m : Nat) (reason : UInt8) (streamId : UInt32) (origin : Origin),
      ∃ frame payload, (s.sendClose env m reason streamId origin).framesTo m =
          s.framesTo m ++ [frame] ∧
        Decodes frame packetClose streamId payload ∧ ClosePacket.parse payload = .ok reason) ∧
    ∀ (env : Env) (s : State) (m : Nat) (streamId : UInt32) (data : Bytes) (origin : Origin),
      5 + data.length < 2 ^ 63 → ∃ frame,
        (s.sendData env m streamId data origin).2.framesTo m = s.framesTo m ++ [frame] ∧
          Decodes frame packetData streamId data := by
  refine ⟨WispPacket.roundTrips, fun p hsize => ?_, InfoPacket.roundTrips,
    ContinuePacket.roundTrips, ClosePacket.roundTrips, fun env s m n id => ?_,
    fun env s m reason id origin => ?_, fun env s m id data origin hsize => ?_⟩
  · rw [WispPacket.serialize_eq] at hsize ⊢
    exact (WispPacket.parse_append hsize).1
  · refine ⟨_, _, State.framesTo_send, WispPacket.roundTrips.decode _ ?_,
      ContinuePacket.parse_serialize n⟩
    rw [WispPacket.length_serialize]
    simp [ContinuePacket.serialize, toLE32]
  · refine ⟨_, _, State.framesTo_send, WispPacket.roundTrips.decode _ ?_, rfl⟩
    rw [WispPacket.length_serialize]
    simp [ClosePacket.serialize]
  · refine ⟨_, State.framesTo_send, WispPacket.roundTrips.decode _ ?_⟩
    rw [WispPacket.length_serialize]
    exact hsize

end Woeful
