import Woeful.Lib.Run
import Woeful.Lib.Tcp
import Woeful.Pcap

/-!
# Captured conversations

The packets of a capture file are the segments of a TCP conversation. `write_dummy_user` and
`write_dummy_target` keep its sequence numbers right, one call after the other
(`Synchronized.call`), and `writer_gaurd` makes calls of different threads come one after the other
(`Attained.step`). So whatever the threads do, what is in the file reassembles to the payloads
of the calls, in the order in which they got the lock (`capture_reassembles`).
-/

namespace Woeful

open Memory Tcp Transition

/-! ## Packets as segments -/

/-- A call of `write_dummy_user` (from the client) or `write_dummy_target` (from the server). -/
structure Call where
  /-- whose data it is -/
  side : Side
  /-- `data` -/
  data : Bytes
  deriving DecidableEq, Repr

/-- The segment in a packet; the two sides have different MAC addresses. Its payload is the payload
layer that pcpp is given, whether or not the 16 bits of the packet's total length can tell how
long that is. -/
def RawPacket.segment (r : RawPacket) : Segment UInt8 where
  sender := if r.srcMac = PcapInterface.userMac then .client else .server
  syn := r.tcpLayer.synFlag
  ack := r.tcpLayer.ackFlag
  seq := r.tcpLayer.sequenceNumber
  ackNumber := r.tcpLayer.ackNumber
  data := r.data

/-- The call a data segment is from. -/
def callOf (s : Segment UInt8) : Call := { side := s.sender, data := s.data }

/-- The number both sides begin with. -/
def initialSequenceNumber : Side → UInt32 := fun _ => 2

/-- SYN, SYN-ACK, ACK. -/
def handshake : List (Segment UInt8) :=
  [{ sender := .client, syn := true, ack := false, seq := 2, ackNumber := 0, data := [] },
   { sender := .server, syn := true, ack := true, seq := 2, ackNumber := 3, data := [] },
   { sender := .client, syn := false, ack := true, seq := 3, ackNumber := 3, data := [] }]

namespace PcapInterface

/-- The segments in the file. -/
def segments (p : PcapInterface) : List (Segment UInt8) := p.out.map RawPacket.segment

/-- A call, all of it. -/
def call (p : PcapInterface) (c : Call) : PcapInterface :=
  match c.side with
  | .client => p.writeDummyUser c.data
  | .server => p.writeDummyTarget c.data

/-- A call up to and with `write_tcp`. -/
def writePacket (p : PcapInterface) (c : Call) : PcapInterface := { p with out := (p.call c).out }

/-- The rest of a call: `user_sequence_number += data_len`, or the other one. -/
def count (p : PcapInterface) (c : Call) : PcapInterface :=
  match c.side with
  | .client =>
    { p with userSequenceNumber := p.userSequenceNumber + UInt32.ofNat c.data.length }
  | .server =>
    { p with targetSequenceNumber := p.targetSequenceNumber + UInt32.ofNat c.data.length }

/-- The counter of a side. -/
def sequenceNumber (p : PcapInterface) : Side → UInt32
  | .client => p.userSequenceNumber
  | .server => p.targetSequenceNumber

/-- The segment a call writes. -/
def segmentOf (p : PcapInterface) (c : Call) : Segment UInt8 where
  sender := c.side
  syn := false
  ack := true
  seq := p.sequenceNumber c.side
  ackNumber := p.sequenceNumber c.side.other
  data := c.data

variable {p : PcapInterface} {c : Call} {targetIp : String} {targetPort : UInt16}

theorem count_writePacket : (p.writePacket c).count c = p.call c := by
  obtain ⟨side, data⟩ := c
  cases side <;> rfl

theorem segments_start : (start targetIp targetPort).segments = handshake := rfl

theorem segments_call : (p.call c).segments = p.segments ++ [p.segmentOf c] := by
  obtain ⟨side, data⟩ := c
  cases side <;> exact List.map_append ..

theorem sequenceNumber_call_self :
    (p.call c).sequenceNumber c.side = p.sequenceNumber c.side + UInt32.ofNat c.data.length := by
  obtain ⟨side, data⟩ := c
  cases side <;> rfl

theorem sequenceNumber_call_ne {side : Side} (h : c.side ≠ side) :
    (p.call c).sequenceNumber side = p.sequenceNumber side := by
  obtain ⟨side', data⟩ := c
  cases side' <;> cases side <;> first | rfl | exact absurd rfl h

end PcapInterface

/-! ## One call after the other -/

/-- The segments are numbered as they should be, and the counters are where their sides have
got to. -/
structure Synchronized (p : PcapInterface) : Prop where
  /-- the file -/
  conversation : Conversation initialSequenceNumber p.segments
  /-- the counters -/
  sequenceNumber : ∀ side, p.sequenceNumber side = next initialSequenceNumber side p.segments

variable {p : PcapInterface} {c : Call} {targetIp : String} {targetPort : UInt16}

theorem synchronized_start : Synchronized (PcapInterface.start targetIp targetPort) where
  conversation := by
    rw [PcapInterface.segments_start]
    have hsyn := (Log.throughout_nil (C := Numbered initialSequenceNumber)).snoc
      (e := handshake[0]) ⟨rfl, by decide⟩
    have hsynAck := hsyn.snoc (e := handshake[1]) ⟨rfl, by decide⟩
    exact hsynAck.snoc (e := handshake[2]) ⟨rfl, by decide⟩
  sequenceNumber := by
    rw [PcapInterface.segments_start]
    intro side
    cases side <;> rfl

/-- **One call**: it is numbered with the counters, and the counter of its side goes on. -/
theorem Synchronized.call (h : Synchronized p) : Synchronized (p.call c) where
  conversation := by
    rw [PcapInterface.segments_call]
    exact h.conversation.snoc ⟨h.sequenceNumber _, fun _ => h.sequenceNumber _⟩
  sequenceNumber := by
    intro side
    rw [PcapInterface.segments_call, next_append, ← h.sequenceNumber side]
    have hsender : (p.segmentOf c).sender = c.side := rfl
    have hspan : (p.segmentOf c).span = c.data.length := Nat.zero_add _
    by_cases hside : c.side = side
    · subst hside
      rw [PcapInterface.sequenceNumber_call_self, sentBy_singleton hsender, spanned_singleton,
        hspan]
    · rw [PcapInterface.sequenceNumber_call_ne hside, sentBy_singleton_ne hside]
      exact (UInt32.add_zero _).symm

/-- **All calls.** -/
theorem synchronized_calls (calls : List Call) :
    Synchronized (calls.foldl PcapInterface.call (PcapInterface.start targetIp targetPort)) := by
  induction calls using List.reverseRecOn with
  | nil => exact synchronized_start
  | append_singleton calls c ih =>
    rw [List.foldl_append]
    exact ih.call

/-- After the handshake there is one data segment for each call. -/
theorem segments_calls (calls : List Call) : ∃ data,
    (calls.foldl PcapInterface.call (PcapInterface.start targetIp targetPort)).segments =
      handshake ++ data ∧
    data.map callOf = calls ∧ ∀ s ∈ data, s.syn = false ∧ s.ack = true := by
  induction calls using List.reverseRecOn with
  | nil => exact ⟨[], rfl, rfl, by simp⟩
  | append_singleton calls c ih =>
    obtain ⟨data, hsegments, hcalls, hflags⟩ := ih
    rw [List.foldl_append, List.foldl_cons, List.foldl_nil, PcapInterface.segments_call, hsegments]
    refine ⟨data ++ [_], List.append_assoc .., ?_, ?_⟩
    · rw [List.map_append, hcalls]
      rfl
    · rw [List.forall_mem_append]
      exact ⟨hflags, List.forall_mem_singleton.mpr ⟨rfl, rfl⟩⟩

/-! ## What an analyser makes of it -/

/-- The record of these calls. -/
structure Reassembles (segs : List (Segment UInt8)) (calls : List Call) : Prop where
  /-- after the handshake there is one segment for each call, and its numbers are those the
  handshake ends with and the bytes recorded from each side since -/
  numbers : ∃ data, segs = handshake ++ data ∧ data.map callOf = calls ∧
    ∀ before s after, data = before ++ s :: after →
      s.seq = next initialSequenceNumber s.sender handshake +
        UInt32.ofNat (payload s.sender before).length ∧
      s.ackNumber = next initialSequenceNumber s.sender.other handshake +
        UInt32.ofNat (payload s.sender.other before).length
  /-- from the SYN on, a segment begins where the last one of its side ends -/
  contiguous : ∀ side, (sentBy side segs).IsChain fun s s' => s'.seq = s.seq + UInt32.ofNat s.span
  /-- within one round of numbers, no two segments of a side share one -/
  disjoint : ∀ before s between s' after, segs = before ++ s :: between ++ s' :: after →
    s'.sender = s.sender → spanned (sentBy s.sender (s :: between)) + s'.span ≤ 2 ^ 32 →
    ∀ i < s.span, ∀ j < s'.span, s.seq + UInt32.ofNat i ≠ s'.seq + UInt32.ofNat j
  /-- the segments of a side give back the payloads of its calls -/
  payloads : ∀ side, reassemble (initialSequenceNumber side) (sentBy side segs) =
    some ((calls.filter (·.side = side)).flatMap (·.data))

/-- What the segments of a side carry is what its calls were given. -/
theorem payload_eq_calls {data : List (Segment UInt8)} {side : Side} :
    payload side data = ((data.map callOf).filter (·.side = side)).flatMap (·.data) := by
  rw [payload, sentBy, List.filter_map, List.flatMap_map]
  rfl

theorem reassembles_calls (calls : List Call) : Reassembles
    (calls.foldl PcapInterface.call (PcapInterface.start targetIp targetPort)).segments calls := by
  have hconv := (@synchronized_calls targetIp targetPort calls).conversation
  obtain ⟨data, hsegments, hcalls, hflags⟩ := @segments_calls targetIp targetPort calls
  rw [hsegments] at hconv ⊢
  refine ⟨⟨data, rfl, hcalls, ?_⟩, fun side => hconv.isChain, ?_, ?_⟩
  · intro before s after hsplit
    have hmem : s ∈ data := by rw [hsplit]; simp
    have hnosyn : ∀ s ∈ before, s.syn = false := fun s hs =>
      (hflags s (by rw [hsplit]; exact List.mem_append_left _ hs)).1
    have hnumbered := hconv (handshake ++ before) s after (by rw [hsplit, List.append_assoc])
    rw [hnumbered.seq, hnumbered.ackNumber (hflags s hmem).2, next_append, next_append,
      spanned_eq_length hnosyn, spanned_eq_length hnosyn]
    exact ⟨rfl, rfl⟩
  · intro before s between s' after hsplit hsender hround i hi j hj
    exact hconv.disjoint hsplit hsender hround hi hj
  · intro side
    have hempty : payload side handshake = [] := by cases side <;> rfl
    rw [hconv.reassemble_sentBy, payload_append, hempty, List.nil_append, payload_eq_calls, hcalls]

/-! ## Threads -/

/-- A thread that holds `writer_gaurd`. -/
structure Holder where
  /-- the thread -/
  thread : Nat
  /-- the call it is in -/
  call : Call
  /-- whether it has come past `write_tcp` -/
  written : Bool
  deriving DecidableEq, Repr

/-- A `PcapInterface` and the threads that use it. -/
structure Writers where
  /-- the interface -/
  pcap : PcapInterface
  /-- `writer_gaurd` -/
  guard : Option Holder
  /-- the calls, in the order in which they got the lock -/
  called : List Call
  deriving DecidableEq, Repr

/-- The steps of a call. -/
inductive WriterLabel where
  /-- a thread enters a call and gets the lock -/
  | lock (thread : Nat) (call : Call)
  /-- the thread that has it comes past `write_tcp` -/
  | write (thread : Nat)
  /-- it counts the payload and unlocks -/
  | unlock (thread : Nat)
  deriving DecidableEq, Repr

namespace Writers

/-- One step of one thread. -/
def step (w : Writers) : WriterLabel → Option Writers
  | .lock thread call =>
    match w.guard with
    | none => some { w with
        guard := some { thread, call, written := false }, called := w.called ++ [call] }
    | some _ => none
  | .write thread =>
    match w.guard with
    | some { thread := holder, call, written := false } =>
      if holder = thread then
        some { w with
          pcap := w.pcap.writePacket call, guard := some { thread, call, written := true } }
      else none
    | _ => none
  | .unlock thread =>
    match w.guard with
    | some { thread := holder, call, written := true } =>
      if holder = thread then some { w with pcap := w.pcap.count call, guard := none } else none
    | _ => none

/-- The call that has the lock and has not written its packet yet. -/
def pending (w : Writers) : List Call :=
  match w.guard with
  | some { thread := _, call, written := false } => [call]
  | _ => []

end Writers

/-- The threads from the constructor on. -/
def writers (targetIp : String) (targetPort : UInt16) : System Writers WriterLabel where
  init := { pcap := PcapInterface.start targetIp targetPort, guard := none, called := [] }
  step := Writers.step

/-- The interface is where these calls, one after the other, have brought it; the call that has
the lock may be between its two halves. -/
inductive Attained (start : PcapInterface) : List Call → Writers → Prop where
  /-- no call is under way -/
  | free (calls : List Call) : Attained start calls
      { pcap := calls.foldl PcapInterface.call start, guard := none, called := calls }
  /-- one is, and has done nothing yet -/
  | entered (calls : List Call) (thread : Nat) (call : Call) : Attained start calls
      { pcap := calls.foldl PcapInterface.call start
        guard := some { thread, call, written := false }, called := calls ++ [call] }
  /-- one is, and has written its packet -/
  | written (calls : List Call) (thread : Nat) (call : Call) : Attained start (calls ++ [call])
      { pcap := (calls.foldl PcapInterface.call start).writePacket call
        guard := some { thread, call, written := true }, called := calls ++ [call] }

section Threads

variable {start : PcapInterface} {calls : List Call} {w w' : Writers} {a : WriterLabel}

/-- **One step of a thread** does a half of a call, or nothing to the interface. -/
theorem Attained.step (h : Attained start calls w) (hs : w.step a = some w') :
    ∃ calls', Attained start calls' w' := by
  cases h with
  | free calls =>
    cases a with
    | lock thread call =>
      cases hs
      exact ⟨calls, .entered calls thread call⟩
    | write thread => cases hs
    | unlock thread => cases hs
  | entered calls thread call =>
    cases a with
    | lock thread' call' => cases hs
    | write thread' =>
      obtain ⟨rfl, hw⟩ := Option.ite_none_right_eq_some.mp hs
      cases hw
      exact ⟨calls ++ [call], .written calls thread call⟩
    | unlock thread' => cases hs
  | written calls thread call =>
    cases a with
    | lock thread' call' => cases hs
    | write thread' => cases hs
    | unlock thread' =>
      obtain ⟨rfl, hw⟩ := Option.ite_none_right_eq_some.mp hs
      cases hw
      have hfree := @Attained.free start (calls ++ [call])
      rw [List.foldl_append, List.foldl_cons, List.foldl_nil,
        ← PcapInterface.count_writePacket] at hfree
      exact ⟨_, hfree⟩

/-- What is in the file is there from whole calls. -/
theorem Attained.segments (h : Attained start calls w) :
    w.pcap.segments = (calls.foldl PcapInterface.call start).segments := by
  cases h with
  | free => rfl
  | entered => rfl
  | written calls thread call =>
    rw [List.foldl_append]
    rfl

theorem Attained.called (h : Attained start calls w) : w.called = calls ++ w.pending := by
  cases h with
  | free => exact (List.append_nil _).symm
  | entered => rfl
  | written => exact (List.append_nil _).symm

end Threads

/-- Whatever threads call, in whatever order they get the lock, at every moment the file
reassembles to the payloads of the calls that have written, in that order. -/
theorem capture_reassembles (targetIp : String) (targetPort : UInt16) (w : Writers)
    (h : (writers targetIp targetPort).Reachable w) :
    ∃ calls, w.called = calls ++ w.pending ∧ Reassembles w.pcap.segments calls := by
  have hinv : ∃ calls, Attained (PcapInterface.start targetIp targetPort) calls w :=
    h.invariant (I := fun w => ∃ calls, Attained _ calls w) ⟨[], .free []⟩
      fun _ _ _ _ hs ⟨_, hw⟩ => hw.step hs
  obtain ⟨calls, hw⟩ := hinv
  refine ⟨calls, hw.called, ?_⟩
  rw [hw.segments]
  exact reassembles_calls calls

/-- Two threads, the second of which has written its packet. -/
def twoWriters : List WriterLabel :=
  [.lock 0 { side := .client, data := [1, 2] }, .write 0, .unlock 0,
   .lock 1 { side := .server, data := [3] }, .write 1]

theorem capture_reassembles_twoWriters :
    Reassembles ((writers "10.0.0.1" 2000).final (fun _ _ => True) twoWriters).pcap.segments
      [{ side := .client, data := [1, 2] }, { side := .server, data := [3] }] := by
  obtain ⟨calls, hcalled, hrecord⟩ := capture_reassembles "10.0.0.1" 2000 _
    ((writers "10.0.0.1" 2000).reaches_final (fun _ _ => True) twoWriters rfl)
  have hpending : calls ++ [] =
      [{ side := .client, data := [1, 2] }, { side := .server, data := [3] }] := hcalled.symm
  rw [List.append_nil] at hpending
  exact hpending ▸ hrecord

end Woeful
