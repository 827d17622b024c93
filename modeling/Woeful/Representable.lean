import Woeful.Bounds
import Woeful.Payloads

/-!
# Packets that are too long

`write_tcp` puts what it is given into one packet, and the length of an IPv4 packet is a
field of 16 bits. So the packets of a capture are representable exactly as long as no DATA of
a client and nothing that `watch` reads in a pass has more than 65495 bytes
(`capture_representable_iff`). Neither the segments of `read` nor the limits of the websocket
see to that (`overlong_counterexample`).
-/

namespace Woeful

open Memory Transition

variable {env : Env}

/-! ## The length of a packet -/

/-- The length of an IPv4 packet: its header, the one of TCP, and the payload. -/
def RawPacket.ipLength (r : RawPacket) : Nat := 20 + 20 + r.data.length

/-- `totalLength`, as `computeCalculateFields` stores it. -/
def RawPacket.totalLength (r : RawPacket) : UInt16 := UInt16.ofNat r.ipLength

/-- The packet tells its length. -/
def RawPacket.Representable (r : RawPacket) : Prop := r.totalLength.toNat = r.ipLength

/-- All packets of a file tell theirs. -/
def PcapInterface.Representable (p : PcapInterface) : Prop := ∀ r ∈ p.out, r.Representable

/-- The longest payload of a packet. -/
abbrev maxPayload : Nat := 65495

theorem RawPacket.representable_iff {r : RawPacket} :
    r.Representable ↔ r.data.length ≤ maxPayload := by
  rw [Representable, totalLength, ipLength, UInt16.toNat_ofNat', maxPayload]
  omega

namespace PcapInterface

variable {p q : PcapInterface} {data : Bytes}

/-- One packet more. -/
theorem representable_of_snoc {r : RawPacket} (h : p.Representable)
    (hout : q.out = p.out ++ [r]) (hdata : r.data = data) :
    q.Representable ↔ data.length ≤ maxPayload := by
  rw [Representable, hout, List.forall_mem_append, List.forall_mem_singleton,
    RawPacket.representable_iff, hdata]
  exact and_iff_right h

theorem representable_writeDummyUser (h : p.Representable) :
    (p.writeDummyUser data).Representable ↔ data.length ≤ maxPayload := by
  obtain ⟨r, hout, hdata, -⟩ := @out_writeDummyUser p data
  exact representable_of_snoc h hout hdata

theorem representable_writeDummyTarget (h : p.Representable) :
    (p.writeDummyTarget data).Representable ↔ data.length ≤ maxPayload := by
  obtain ⟨r, hout, hdata, -⟩ := @out_writeDummyTarget p data
  exact representable_of_snoc h hout hdata

end PcapInterface

/-! ## What the loop reads, and what a message carries -/

section Inputs

variable {results : Nat → PossibleRead} {e : ReadEnd} {i : Nat}

/-- A read brings something, or is a reason to stop. -/
theorem PossibleRead.data_ne_nil_iff (r : PossibleRead) :
    r.1.data ≠ [] ↔ r.1 ≠ .again ∧ r.1.closes = false := by
  obtain ⟨result, hpossible⟩ := r
  cases result with
  | bytes buf =>
    have hne := List.length_pos_iff.mp (length_bytes hpossible).1
    simp [ReadResult.data, ReadResult.closes, hne]
  | eof => simp [ReadResult.data, ReadResult.closes]
  | again => simp [ReadResult.data]
  | error => simp [ReadResult.data, ReadResult.closes]

theorem data_ne_nil_of_not_stopsAt (h : ¬ StopsAt results i) : (results i).1.data ≠ [] := by
  rw [StopsAt, not_or, not_or, Bool.not_eq_true] at h
  exact (PossibleRead.data_ne_nil_iff _).mpr ⟨h.1, h.2.1⟩

/-- The loop ends with a read that brings something only if that is too much. -/
theorem StopsAt.length_gt (h : StopsAt results i) (hdata : (results i).1.data ≠ []) :
    maxWsFrame < (bytesRead results (i + 1)).length := by
  obtain ⟨hagain, hcloses⟩ := (PossibleRead.data_ne_nil_iff _).mp hdata
  rcases h with h | h | h
  · exact absurd h hagain
  · rw [hcloses] at h
    cases h
  · exact h

theorem length_bytesRead_mono {n n' : Nat} (h : n ≤ n') :
    (bytesRead results n).length ≤ (bytesRead results n').length := by
  induction h with
  | refl => exact Nat.le_refl _
  | step _ ih =>
    rw [bytesRead_succ, List.length_append]
    exact Nat.le_add_right_of_le ih

/-- **How much the loop reads**: no more than `n` bytes, if and only if the target has sent no
more than `n` by the time there is nothing to read. -/
theorem ReadsOut.length_le_iff {n : Nat} (h : ReadsOut results e) (hn : n ≤ maxWsFrame) :
    e.combinedBuffer.length ≤ n ↔
      ∀ i, (∀ j < i, (results j).1.data ≠ []) → (bytesRead results i).length ≤ n := by
  rw [h.combined]
  constructor
  · intro hle i hi
    refine Nat.le_trans (length_bytesRead_mono ?_) hle
    by_contra hlast
    have hlong := h.stops.length_gt (hi e.last (by omega))
    omega
  · intro hall
    have hbefore : ∀ j < e.last, (results j).1.data ≠ [] := fun j hj =>
      data_ne_nil_of_not_stopsAt (h.first j hj)
    by_cases hdata : (results e.last).1.data = []
    · rw [bytesRead_succ, hdata, List.append_nil]
      exact hall e.last hbefore
    · refine hall (e.last + 1) fun j hj => ?_
      rcases Nat.lt_succ_iff_lt_or_eq.mp hj with hlt | rfl
      · exact hbefore j hlt
      · exact hdata

/-- What a message carries. -/
theorem WispPacket.length_data {view : Bytes} {packet : WispPacket}
    (hparse : WispPacket.parse view (UInt64.ofNat view.length) = .ok packet)
    (hsize : view.length ≤ maxPayloadLength) : packet.data.length + 5 = view.length := by
  have hn : view.length < 2 ^ 63 := Nat.lt_of_le_of_lt hsize (by decide)
  obtain ⟨packet', hparse', hlen, -⟩ :=
    WispPacket.parse_isOk (WispPacket.le_length_of_parse hparse) hn
  obtain rfl := Except.ok.inj (hparse.symm.trans hparse')
  exact hlen

end Inputs

/-! ## The result -/

/-- **The packets of a capture are representable** in every run that brings in no longer
payload. -/
theorem capture_representable {peer : Nat → String × UInt16} {c : Capture}
    (h : (capture env peer).Reaches (fun c a => c.within maxPayload maxPayload a = true) c)
    (k : Nat) : (c.pcap k).Representable := by
  have hbrings : ∀ (c : Capture) (a : CaptureLabel), c.within maxPayload maxPayload a = true →
      c.Brings (fun data => data.length ≤ maxPayload) a := by
    intro c a ha
    cases a with
    | writeDummyUser i => trivial
    | server l => exact Capture.within_server.mp ha
  have hcarries : Carries (fun data => data.length ≤ maxPayload) c :=
    .of_reaches (Nat.zero_le _) (h.mono hbrings)
  intro r hr
  exact RawPacket.representable_iff.mpr (hcarries.recorded k r hr)

/-- The target sends `n` bytes, one at a time. -/
def byteReads (n i : Nat) : PossibleRead := if i < n then ⟨.bytes [0], rfl⟩ else ⟨.again, rfl⟩

theorem length_bytesRead_byteReads (n i : Nat) :
    (bytesRead (byteReads n) i).length = min i n := by
  induction i with
  | zero => exact (Nat.zero_min n).symm
  | succ i ih =>
    rw [bytesRead_succ, List.length_append, ih, byteReads]
    split
    · change min i n + 1 = _
      omega
    · change min i n + 0 = _
      omega

theorem length_readLoop_byteReads {n : Nat} (hn : n ≤ maxWsFrame) :
    (readLoop (byteReads n) 0 []).combinedBuffer.length = n := by
  have hreads := readLoop_reads (byteReads n)
  rw [hreads.combined, length_bytesRead_byteReads]
  by_contra hne
  have hlt : (readLoop (byteReads n) 0 []).last + 1 < n := by omega
  have hdata : (byteReads n (readLoop (byteReads n) 0 []).last).1.data ≠ [] := by
    rw [byteReads, if_pos (Nat.lt_of_succ_lt hlt)]
    exact List.cons_ne_nil _ _
  have hlong := hreads.stops.length_gt hdata
  rw [length_bytesRead_byteReads] at hlong
  omega

/-- **The packets of a capture are representable** exactly if nothing that is brought in has
more than 65495 bytes: for whole runs, for the buffer of one read loop, and for one message. -/
theorem capture_representable_iff (upload download : Nat) :
    ((∀ (env : Env) (peer : Nat → String × UInt16) (c : Capture),
      (capture env peer).Reaches (fun c a => c.within upload download a = true) c →
        ∀ k, (c.pcap k).Representable) ↔ upload ≤ maxPayload ∧ download ≤ maxPayload) ∧
    (∀ (p : PcapInterface) (results : Nat → PossibleRead), p.Representable →
      ((p.writeDummyTarget (readLoop results 0 []).combinedBuffer).Representable ↔
        ∀ n, (∀ i < n, (results i).1.data ≠ []) →
          (bytesRead results n).length ≤ maxPayload)) ∧
    ∀ (p : PcapInterface) (view : Bytes) (packet : WispPacket), p.Representable →
      view.length ≤ maxPayloadLength →
      WispPacket.parse view (UInt64.ofNat view.length) = .ok packet →
      ((p.writeDummyUser packet.data).Representable ↔ view.length ≤ 5 + maxPayload) := by
  refine ⟨⟨fun h => ⟨?_, ?_⟩, ?_⟩, fun p results hp => ?_,
    fun p view packet hp hsize hparse => ?_⟩
  · -- a longer DATA would be recorded
    by_contra hlong
    have hlen : (List.replicate (maxPayload + 1) (0 : UInt8)).length = maxPayload + 1 :=
      List.length_replicate
    obtain ⟨c, hreach, r, hr, hdata⟩ := @exists_submitted_recorded
      (List.replicate (maxPayload + 1) 0) (by rw [hlen]; decide)
    rw [hlen] at hreach
    have hrun := hreach.mono fun c a hg =>
      Capture.within_mono (Nat.lt_of_not_le hlong) (Nat.zero_le download) hg.1
    have hrep := h {} somePeer c hrun 0 r hr
    rw [RawPacket.representable_iff, hdata, hlen] at hrep
    exact Nat.not_succ_le_self _ hrep
  · -- and so would more bytes of a pass
    by_contra hlong
    have hlen := @length_readLoop_byteReads (maxPayload + 1) (by decide)
    obtain ⟨c, hreach, r, hr, hdata⟩ := exists_read_recorded (byteReads (maxPayload + 1))
    rw [hlen] at hreach
    have hrun := hreach.mono fun c a hg =>
      Capture.within_mono (Nat.zero_le upload) (Nat.lt_of_not_le hlong) hg.1
    have hrep := h {} somePeer c hrun 0 r hr
    rw [RawPacket.representable_iff, hdata, hlen] at hrep
    exact Nat.not_succ_le_self _ hrep
  · rintro ⟨hup, hdown⟩ env peer c hc
    exact capture_representable (hc.mono fun c a => Capture.within_mono hup hdown)
  · rw [PcapInterface.representable_writeDummyTarget hp]
    exact (readLoop_reads results).length_le_iff (by decide)
  · rw [PcapInterface.representable_writeDummyUser hp]
    have hlen := WispPacket.length_data hparse hsize
    omega

/-- The most that may be brought in, three bytes read into a new file, and one byte sent. -/
theorem capture_representable_iff_short :
    (∀ (env : Env) (peer : Nat → String × UInt16) (c : Capture),
      (capture env peer).Reaches (fun c a => c.within maxPayload maxPayload a = true) c →
        ∀ k, (c.pcap k).Representable) ∧
    ((PcapInterface.start "1.2.3.4" 80).writeDummyTarget
      (readLoop (byteReads 3) 0 []).combinedBuffer).Representable ∧
    ((PcapInterface.start "1.2.3.4" 80).writeDummyUser [7]).Representable := by
  have hstart : (PcapInterface.start "1.2.3.4" 80).Representable := by
    intro r hr
    have hshort : ∀ r ∈ (PcapInterface.start "1.2.3.4" 80).out, r.data.length ≤ maxPayload := by
      decide +kernel
    exact RawPacket.representable_iff.mpr (hshort r hr)
  obtain ⟨hruns, hread, hsent⟩ := capture_representable_iff maxPayload maxPayload
  refine ⟨hruns.mpr ⟨Nat.le_refl _, Nat.le_refl _⟩, (hread _ (byteReads 3) hstart).mpr ?_,
    (hsent _ [0x02, 1, 0, 0, 0, 7] ⟨0x02, 1, [7]⟩ hstart (by decide) (by decide)).mpr (by decide)⟩
  intro n _
  rw [length_bytesRead_byteReads]
  exact Nat.le_trans (Nat.min_le_right ..) (by decide)

/-- **The packet that is too long**: a DATA of 65501 bytes has a payload of 65496. -/
theorem overlong_counterexample :
    ¬ ∀ (env : Env) (peer : Nat → String × UInt16) (c : Capture),
      (capture env peer).Reaches (fun _ a => a.delivered = true) c →
        ∀ k, (c.pcap k).Representable := by
  intro h
  have hlen : (List.replicate 65496 (0 : UInt8)).length = 65496 := List.length_replicate
  obtain ⟨c, hreach, r, hr, hdata⟩ := @exists_submitted_recorded (List.replicate 65496 0)
    (by rw [hlen]; decide)
  have hrep := h {} somePeer c (hreach.mono fun _ _ hg => hg.2) 0 r hr
  rw [RawPacket.representable_iff, hdata, hlen] at hrep
  exact absurd hrep (by decide)

end Woeful
