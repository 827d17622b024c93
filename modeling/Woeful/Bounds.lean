import Woeful.Server

/-!
# Messages and their bounds

The two parsers do unsigned arithmetic on a length they never check. On a message
that is long enough for its headers they stay inside it and nothing wraps
(`WispPacket.parse_isOk`, `ConnectPacket.parse_isOk`); on any other they read
past its end before they copy a length that has wrapped. `receives_within_iff`
draws the line: 5 bytes, and 8 for a CONNECT.
-/

namespace Woeful

open Memory Transition

variable {env : Env} {s t : State} {m : Nat} {view : Bytes}

/-! ## The parsers on messages that are long enough -/

/-- `data_len` does not wrap. -/
theorem WispPacket.toNat_dataLen {n : Nat} (h5 : 5 ≤ n) (hn : n < 2 ^ 63) :
    (WispPacket.dataLen (UInt64.ofNat n)).toNat = n - 5 :=
  toNat_ofNat_sub (k := WispPacket.headerSize) h5 (by omega)

/-- Nor does the length of the hostname. -/
theorem ConnectPacket.toNat_hostnameLen {n : Nat} (h3 : 3 ≤ n) (hn : n < 2 ^ 63) :
    (ConnectPacket.hostnameLen (UInt64.ofNat n)).toNat = n - 3 :=
  toNat_ofNat_sub (k := ConnectPacket.headerSize) h3 (by omega)

/-- A message of 5 bytes or more is parsed, and its payload is what follows the
header. -/
theorem WispPacket.parse_isOk (h5 : 5 ≤ view.length) (hn : view.length < 2 ^ 63) :
    ∃ packet, WispPacket.parse view (UInt64.ofNat view.length) = .ok packet ∧
      packet.data.length + 5 = view.length ∧ view[0]? = some packet.packetType := by
  obtain ⟨streamId, hid⟩ := @readU32_isOk view 1 (by omega)
  refine ⟨⟨view[0], streamId, view.drop 5⟩, ?_, ?_, by simp⟩
  · refine WispPacket.parse_eq_ok.mpr ⟨by simp, hid, ?_⟩
    rw [WispPacket.toNat_dataLen h5 hn, memcpy_eq_ok]
    refine ⟨by omega, by omega, List.take_of_length_le ?_⟩
    rw [List.length_drop]
  · rw [List.length_drop]
    omega

/-- A payload of 3 bytes or more is parsed as a CONNECT. -/
theorem ConnectPacket.parse_isOk {src : Bytes} (h3 : 3 ≤ src.length) (hn : src.length < 2 ^ 63) :
    ∃ packet, ConnectPacket.parse src (UInt64.ofNat src.length) = .ok packet := by
  have htype := @readU8_isOk src 0 (by omega)
  obtain ⟨port, hport⟩ := @readU16_isOk src 1 (by omega)
  have hlast := @readU8_isOk src (UInt64.ofNat src.length - 1).toNat (by
    rw [toNat_ofNat_sub (by simp; omega) (by omega)]
    simp
    omega)
  have hlen := ConnectPacket.toNat_hostnameLen h3 hn
  have hcopy : memcpy src 3 (ConnectPacket.hostnameLen (UInt64.ofNat src.length)).toNat =
      .ok (src.drop 3) := by
    rw [hlen, memcpy_eq_ok]
    refine ⟨by omega, List.take_of_length_le ?_⟩
    rw [List.length_drop]
  have halloc : ∀ terminator : Bytes, terminator.length ≤ 1 →
      allocate (ConnectPacket.hostnameLen (UInt64.ofNat src.length) +
        UInt64.ofNat terminator.length) = .ok () := by
    intro terminator hterm
    have hofNat : (UInt64.ofNat terminator.length).toNat = terminator.length :=
      UInt64.toNat_ofNat_of_lt' (by simp [UInt64.size]; omega)
    rw [allocate, if_pos]
    rw [UInt64.toNat_add, hlen, hofNat]
    omega
  refine ⟨_, andThen_eq_ok.mpr ⟨_, htype, andThen_eq_ok.mpr ⟨_, hport, andThen_eq_ok.mpr
    ⟨_, hlast, andThen_eq_ok.mpr ⟨(), halloc _ ?_, andThen_eq_ok.mpr ⟨_, hcopy, rfl⟩⟩⟩⟩⟩⟩
  split <;> simp

/-! ## The parsers on shorter messages -/

theorem WispPacket.le_length_of_parse {srcLength : UInt64} {packet : WispPacket}
    (h : WispPacket.parse view srcLength = .ok packet) : 5 ≤ view.length := by
  have := readU32_lt (WispPacket.parse_eq_ok.mp h).2.1
  omega

theorem ConnectPacket.le_length_of_parse {src : Bytes} {srcLength : UInt64}
    {packet : ConnectPacket} (h : ConnectPacket.parse src srcLength = .ok packet) :
    3 ≤ src.length := by
  rw [ConnectPacket.parse, andThen_eq_ok] at h
  obtain ⟨_, -, h⟩ := h
  obtain ⟨port, hport, -⟩ := andThen_eq_ok.mp h
  have := readU16_lt hport
  omega

/-- A message that `receive` comes through was parsed, and its payload too where it
is a CONNECT. -/
theorem State.receive_parsed (h : s.receive env m view = .ok t) :
    ∃ packet, WispPacket.parse view (UInt64.ofNat view.length) = .ok packet ∧
      (packet.packetType = packetConnect →
        ∃ c, ConnectPacket.parse packet.data (UInt64.ofNat packet.data.length) = .ok c) := by
  rw [receive, andThen_eq_ok] at h
  obtain ⟨packet, hp, h⟩ := h
  refine ⟨packet, hp, fun hconnect => ?_⟩
  rw [if_neg (by rw [hconnect]; decide)] at h
  dsimp only at h
  rw [if_pos hconnect, handleConnect, andThen_eq_ok] at h
  obtain ⟨c, hc, -⟩ := h
  exact ⟨c, hc⟩

/-! ## The line between them -/

/-- A message too short for its headers. -/
def TooShort (view : Bytes) : Prop :=
  view.length < 5 ∨ view[0]? = some packetConnect ∧ view.length < 8

/-- The constructors read inside the message, and no length wraps. -/
def ParsedWithin (view : Bytes) : Prop :=
  ∃ packet, WispPacket.parse view (UInt64.ofNat view.length) = .ok packet ∧
    (WispPacket.dataLen (UInt64.ofNat view.length)).toNat + 5 = view.length ∧
    (packet.packetType = packetConnect →
      (ConnectPacket.hostnameLen (UInt64.ofNat packet.data.length)).toNat + 3 =
          packet.data.length ∧
        ∃ c, ConnectPacket.parse packet.data (UInt64.ofNat packet.data.length) = .ok c)

/-- A message that is too short is rejected, and changes nothing but its own manager's flags. -/
def Rejected (env : Env) (s : State) (m : Nat) (view : Bytes) : Prop :=
  TooShort view ∧ ∃ t, s.receive env m view = .ok t ∧ t.stream = s.stream ∧
    t.kernel.epoll = s.kernel.epoll ∧ ∀ m' ≠ m, t.managers.lookup m' = s.managers.lookup m'

/-- A message is handled within its own bounds. -/
def ReceivesWithin (env : Env) (s : State) (m : Nat) (view : Bytes) : Prop :=
  ParsedWithin view ∨ Rejected env s m view

theorem ParsedWithin.of_long (h : ¬ TooShort view) (hn : view.length < 2 ^ 63) :
    ParsedWithin view := by
  rw [TooShort, not_or, not_and, Nat.not_lt, Nat.not_lt] at h
  obtain ⟨h5, h8⟩ := h
  obtain ⟨packet, hp, hlen, htype⟩ := WispPacket.parse_isOk h5 hn
  refine ⟨packet, hp, ?_, fun hconnect => ?_⟩
  · rw [WispPacket.toNat_dataLen h5 hn]
    omega
  · have := h8 (hconnect ▸ htype)
    have h3 : 3 ≤ packet.data.length := by omega
    refine ⟨?_, ConnectPacket.parse_isOk h3 (by omega)⟩
    rw [ConnectPacket.toNat_hostnameLen h3 (by omega)]
    omega

/-- **A short message is not parsed within its bounds.** -/
theorem ParsedWithin.not_tooShort (h : ParsedWithin view) (hn : view.length < 2 ^ 63) :
    ¬ TooShort view := by
  obtain ⟨packet, hp, -, hconnect⟩ := h
  have h5 := WispPacket.le_length_of_parse hp
  rintro (hlt | ⟨htype, hlt⟩)
  · omega
  · have hpacket : packet.packetType = packetConnect :=
      Option.some.inj ((WispPacket.parse_eq_ok.mp hp).1.symm.trans htype)
    obtain ⟨-, c, hc⟩ := hconnect hpacket
    have h3 := ConnectPacket.le_length_of_parse hc
    have hdata := length_of_memcpy (WispPacket.parse_eq_ok.mp hp).2.2.2
    rw [WispPacket.toNat_dataLen h5 hn] at hdata
    omega

/-- **Nor is it rejected**: `receive` has no way to reject a message. -/
theorem not_rejected (hn : view.length < 2 ^ 63) : ¬ Rejected env s m view := by
  rintro ⟨hshort, t, ht, -⟩
  obtain ⟨packet, hp, hconnect⟩ := State.receive_parsed ht
  have h5 := WispPacket.le_length_of_parse hp
  refine ParsedWithin.not_tooShort ⟨packet, hp, ?_, fun hc => ?_⟩ hn hshort
  · rw [WispPacket.toNat_dataLen h5 hn]
    omega
  · obtain ⟨c, hparse⟩ := hconnect hc
    have h3 := ConnectPacket.le_length_of_parse hparse
    have hdata := length_of_memcpy (WispPacket.parse_eq_ok.mp hp).2.2.2
    rw [WispPacket.toNat_dataLen h5 hn] at hdata
    rw [ConnectPacket.toNat_hostnameLen h3 (by omega)]
    exact ⟨by omega, c, hparse⟩

/-- **A message is handled within its bounds** exactly when it has 5 bytes, and 8
if it is a CONNECT. -/
theorem receives_within_iff (env : Env) (s : State) (m : Nat) (view : Bytes)
    (h : view.length ≤ maxPayloadLength) :
    ReceivesWithin env s m view ↔
      5 ≤ view.length ∧ (view[0]? = some packetConnect → 8 ≤ view.length) := by
  have hn : view.length < 2 ^ 63 := Nat.lt_of_le_of_lt h (by decide)
  have hshort : ¬ TooShort view ↔
      5 ≤ view.length ∧ (view[0]? = some packetConnect → 8 ≤ view.length) := by
    rw [TooShort, not_or, not_and, Nat.not_lt, Nat.not_lt]
  rw [← hshort, ReceivesWithin]
  constructor
  · rintro (hparsed | hrejected)
    · exact hparsed.not_tooShort hn
    · exact absurd hrejected (not_rejected hn)
  · exact fun hlong => Or.inl (ParsedWithin.of_long hlong hn)

/-- A CONNECT with a hostname of one byte has the 9 bytes it takes. -/
theorem receives_within_iff_connect :
    ReceivesWithin {} (State.initial {}) 0
      (WispPacket.serialize ⟨packetConnect, 1, [0x01, 80, 0, 97]⟩) ↔
        5 ≤ (WispPacket.serialize ⟨packetConnect, 1, [0x01, 80, 0, 97]⟩).length ∧
          ((WispPacket.serialize ⟨packetConnect, 1, [0x01, 80, 0, 97]⟩)[0]? =
            some packetConnect →
            8 ≤ (WispPacket.serialize ⟨packetConnect, 1, [0x01, 80, 0, 97]⟩).length) :=
  receives_within_iff {} (State.initial {}) 0 _ (by decide)

/-- **The unchecked message**: an empty one, sent to an open websocket, is neither
parsed within its bounds nor rejected. -/
theorem unchecked_counterexample :
    ¬ ∀ (env : Env) (s : State) (m : Nat) (view : Bytes), (server env).Reachable s →
      s.loop = .idle → m ∈ s.managers → view.length ≤ maxPayloadLength →
      ReceivesWithin env s m view := by
  intro h
  have hwithin := h {} _ 0 [] ((server {}).reaches_final (fun _ _ => True) [.loop .opened]
    (by decide +kernel)) (by decide +kernel) (by decide +kernel) (by decide)
  rcases hwithin with hparsed | hrejected
  · exact hparsed.not_tooShort (by decide) (Or.inl (by decide))
  · exact not_rejected (by decide) hrejected

end Woeful
