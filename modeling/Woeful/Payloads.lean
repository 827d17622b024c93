import Woeful.Capture
import Woeful.Carriage
import Woeful.Codec
import Woeful.ReadLoop

/-!
# Where recorded payloads come from

A payload in a capture file was submitted by `handle_data`, or it is what a pass of `watch` has
read (`Carries.of_reaches`): on the way from there to `write_tcp` nobody cuts it, and nobody
joins two. Conversely there is nothing that a client may send and nothing that the read loop
may end with that is not recorded in some run (`exists_submitted_recorded`,
`exists_read_recorded`).
-/

namespace Woeful

open Memory Transition Log

variable {env : Env} {s t : State} {k : Nat}

/-! ## What payloads come from -/

namespace State

/-- The payload that `handle_data` submits in a step. -/
def submitted (s : State) : Label → Bytes
  | .loop (.message m view) =>
    match WispPacket.parse view (UInt64.ofNat view.length) with
    | .ok packet =>
      if packet.packetType = packetData ∧ (s.stream m packet.streamId).isSome then packet.data
      else []
    | .error _ => []
  | _ => []

/-- What a pass has read when a step is done. -/
def readSoFar (s : State) : Label → Bytes
  | .watch (.read result) =>
    match s.watcher.phase with
    | .reading p => p.combinedBuffer ++ result.data
    | _ => []
  | _ => []

end State

/-- A task that is not finished was not finished before, or was submitted just now. -/
theorem step_unfinished {l : Label} (hs : s.step env l = some t) {task : WriteTask}
    (h : task ∈ t.pool.unfinished) :
    task ∈ s.pool.unfinished ∨ task.packet.data = s.submitted l := by
  cases l with
  | loop l =>
    rcases (loopStep_cases hs).upload with
      ⟨hpool, -⟩ | ⟨m, view, packet, d, rfl, -, hp, hty, hd, rfl⟩
    · exact Or.inl (hpool ▸ h)
    · have hd' : (s.endHandshake m).stream m packet.streamId = some d := by
        simp [hd]
      rw [(@State.handleData_pool env _ _ _ _ hd').1, ThreadPool.unfinished_submit] at h
      rcases List.mem_append.mp h with h | h
      · exact Or.inl h
      · obtain rfl := List.mem_singleton.mp h
        right
        simp [State.submitted, State.taskFor, hp, hty, hd]
  | watch w => exact Or.inl ((watchStep_cases hs).pool ▸ h)
  | worker l => exact Or.inl ((workerStep_cases hs).mem_unfinished h)
  | rehash m streams =>
    rw [(State.rehash_frame hs).2] at h
    exact Or.inl h
  | rehashSockets ms =>
    obtain ⟨-, -, rfl⟩ := State.rehashSockets_frame hs
    exact Or.inl h

/-- A closure that has not run had not run before, or its pass has just started, or read. -/
theorem step_pendingPasses {l : Label} (hs : s.step env l = some t) (hw : WellBound s) {p : Pass}
    (h : p ∈ t.pendingPasses) :
    p ∈ s.pendingPasses ∨ p.combinedBuffer = [] ∨ p.combinedBuffer = s.readSoFar l := by
  cases l with
  | loop l =>
    left
    cases (loopStep_cases hs).closureMove hw with
    | quiet hq => exact hq.pendingPasses ▸ h
    | skip hi hd hfree heq =>
      subst heq
      rw [State.pendingPasses, hd]
      exact List.mem_cons_of_mem _ h
    | found hi hd hb heq =>
      subst heq
      rw [State.pendingPasses, State.runFound_frame] at h
      rw [State.pendingPasses, hd]
      exact List.mem_cons_of_mem _ h
    | close hl hb heq =>
      subst heq
      exact h
  | watch w =>
    cases (watchStep_cases hs).passMove with
    | keep hpend => exact Or.inl (hpend ▸ h)
    | start hpend =>
      rw [hpend] at h
      rcases List.mem_append.mp h with h | h
      · exact Or.inl h
      · obtain rfl := List.mem_singleton.mp h
        exact Or.inr (Or.inl rfl)
    | @read q r hr hpend hpend' hpasses hnew =>
      obtain ⟨hlabel, q', hphase, -, -⟩ := step_read hs hw hnew
      obtain rfl := State.reading_unique hphase hpend
      rw [hpend'] at h
      rcases List.mem_append.mp h with h | h
      · rw [hpend]
        exact Or.inl (List.mem_append_left _ h)
      · obtain rfl := List.mem_singleton.mp h
        rw [hlabel, State.readSoFar, hphase]
        exact Or.inr (Or.inr rfl)
  | worker l => exact Or.inl ((workerStep_cases hs).pendingPasses.1 ▸ h)
  | rehash m streams =>
    rw [(State.rehash_frame hs).2] at h
    exact Or.inl h
  | rehashSockets ms =>
    obtain ⟨-, -, rfl⟩ := State.rehashSockets_frame hs
    exact Or.inl h

/-! ## What is recorded -/

/-- What a step brings in is `P`: the payload it submits, and what its pass has read. -/
def Capture.Brings (P : Bytes → Prop) (c : Capture) : CaptureLabel → Prop
  | .writeDummyUser _ => True
  | .server l => P (c.server.submitted l) ∧ P (c.server.readSoFar l)

/-- All payloads on the way to a file are `P`, and those that are there. -/
structure Carries (P : Bytes → Prop) (c : Capture) : Prop where
  /-- the server's tables -/
  bound : WellBound c.server
  /-- what is recorded -/
  recorded : ∀ k, ∀ r ∈ (c.pcap k).out, P r.data
  /-- what tasks are to record -/
  unfinished : ∀ task ∈ c.server.pool.unfinished, P task.packet.data
  /-- what closures are to record -/
  pending : ∀ p ∈ c.server.pendingPasses, P p.combinedBuffer

namespace Carries

variable {P : Bytes → Prop} {peer : Nat → String × UInt16} {c c' : Capture}

/-- `write_dummy_user` records the payload of a task. -/
theorem record {i : Nat} (hs : c.writeDummyUser i = some c') (h : Carries P c) : Carries P c' := by
  obtain ⟨task, k', hi, -, -, rfl⟩ := Capture.writeDummyUser_eq_some hs
  refine ⟨h.bound, fun k r hr => ?_, h.unfinished, h.pending⟩
  change r ∈ (Function.update c.pcap k' _ k).out at hr
  rw [Function.update_apply] at hr
  split at hr
  · obtain ⟨r', hout, hdata, -⟩ := @PcapInterface.out_writeDummyUser (c.pcap k') task.packet.data
    rw [hout] at hr
    rcases List.mem_append.mp hr with hr | hr
    · exact h.recorded k' r hr
    · obtain rfl := List.mem_singleton.mp hr
      rw [hdata]
      exact h.unfinished task (ThreadPool.mem_unfinished.mpr
        (Or.inl ⟨_, List.mem_of_getElem? hi⟩))
  · exact h.recorded k r hr

/-- The server records the buffers of closures. -/
theorem server {l : Label} (hnil : P []) (hs : c.server.step env l = some s)
    (hg : c.Brings P (.server l)) (h : Carries P c) :
    Carries P ⟨s, c.pcapAfter l, c.turnsAfter l⟩ := by
  obtain ⟨hsubmitted, hread⟩ := hg
  refine ⟨h.bound.step hs, fun k r hr => ?_, fun task htask => ?_, fun p hp => ?_⟩
  · have hrecords : Extends (fun r => P r.data) (c.pcap k).out (c.pcapAfter l k).out := by
      refine extends_pcapAfter c l fun p hp r hdata _ => ?_
      rw [hdata]
      exact h.pending p (List.mem_append_left _ hp)
    rcases hrecords.mem hr with hr | hr
    · exact h.recorded k r hr
    · exact hr
  · rcases step_unfinished hs htask with htask | hdata
    · exact h.unfinished task htask
    · exact hdata ▸ hsubmitted
  · rcases step_pendingPasses hs h.bound hp with hp | hempty | hbuffer
    · exact h.pending p hp
    · exact hempty ▸ hnil
    · exact hbuffer ▸ hread

theorem step {a : CaptureLabel} (hnil : P []) (hs : c.step env a = some c')
    (hg : c.Brings P a) (h : Carries P c) : Carries P c' := by
  cases a with
  | writeDummyUser i => exact h.record hs
  | server l =>
    rw [Capture.step, Option.ite_none_right_eq_some, Option.map_eq_some_iff] at hs
    obtain ⟨-, s, hs, rfl⟩ := hs
    exact h.server hnil hs hg

theorem initial (hnil : P []) : Carries P (capture env peer).init where
  bound := .initial env
  recorded k r hr := by
    rw [PcapInterface.data_start r hr]
    exact hnil
  unfinished _ htask := by cases htask
  pending _ hp := by cases hp

/-- **What is recorded was brought in**: what holds of every payload that is submitted and of
everything that a pass reads, holds of every payload in a file. -/
theorem of_reaches (hnil : P []) (h : (capture env peer).Reaches (fun c a => c.Brings P a) c) :
    Carries P c :=
  h.invariant (.initial hnil) fun _ _ _ hg hs hI => hI.step hnil hs hg

end Carries

/-! ## What can be recorded -/

/-- uWS delivers a message. -/
def CaptureLabel.delivered : CaptureLabel → Bool
  | .server (.loop (.message _ view)) => view.length ≤ maxPayloadLength
  | _ => true

/-- The payload that a step submits has at most `upload` bytes, and its pass has read at most
`download`. -/
def Capture.within (upload download : Nat) (c : Capture) : CaptureLabel → Bool
  | .writeDummyUser _ => true
  | .server l => (c.server.submitted l).length ≤ upload && (c.server.readSoFar l).length ≤ download

section Reach

variable {upload download upload' download' : Nat} {c : Capture} {a : CaptureLabel} {l : Label}

theorem Capture.within_server : c.within upload download (.server l) = true ↔
    (c.server.submitted l).length ≤ upload ∧ (c.server.readSoFar l).length ≤ download := by
  simp [within]

theorem Capture.within_mono (hup : upload ≤ upload') (hdown : download ≤ download')
    (h : c.within upload download a = true) : c.within upload' download' a = true := by
  cases a with
  | writeDummyUser i => rfl
  | server l =>
    obtain ⟨hsubmitted, hread⟩ := within_server.mp h
    exact within_server.mpr ⟨Nat.le_trans hsubmitted hup, Nat.le_trans hread hdown⟩

/-- A step brings in no more, and if it is a message then uWS delivers it. -/
abbrev Capture.Steady (upload download : Nat) (c : Capture) (a : CaptureLabel) : Prop :=
  c.within upload download a = true ∧ a.delivered = true

/-- A TCP stream is open. -/
def streamOpen : Capture := (capture {} somePeer).final (Capture.Steady 0 0) openLabels

theorem reaches_streamOpen : (capture {} somePeer).Reaches (Capture.Steady upload download)
    streamOpen :=
  ((capture {} somePeer).reaches_final (Capture.Steady 0 0) openLabels (by decide +kernel)).mono
    fun _ _ h => ⟨Capture.within_mono (Nat.zero_le _) (Nat.zero_le _) h.1, h.2⟩

/-- A payload has been accepted. -/
def payloadAccepted (payload : Bytes) : Capture :=
  { streamOpen with
    server := ((streamOpen.server.endHandshake 0).handleData {} 0 ⟨packetData, 1, payload⟩).2 }

theorem step_payload {payload : Bytes} (h : payload.length + 5 ≤ maxPayloadLength) :
    streamOpen.Steady payload.length 0 (.server (dataLabel 0 1 payload)) ∧
      (capture {} somePeer).step streamOpen (.server (dataLabel 0 1 payload)) =
        some (payloadAccepted payload) := by
  have hlen := WispPacket.length_serialize ⟨packetData, 1, payload⟩
  have hparse := WispPacket.roundTrips.decode ⟨packetData, 1, payload⟩ (by
    rw [hlen, Nat.add_comm]
    exact Nat.lt_of_le_of_lt h (by decide))
  have hstream : (streamOpen.server.stream 0 1).isSome = true := by decide +kernel
  have hready : streamOpen.server.loop = .idle ∧ 0 ∈ streamOpen.server.managers := by
    decide +kernel
  refine ⟨⟨Capture.within_server.mpr ⟨?_, Nat.zero_le _⟩, ?_⟩, ?_⟩
  · simp [State.submitted, dataLabel, hparse, hstream]
  · refine decide_eq_true ?_
    rw [hlen, Nat.add_comm]
    exact h
  · have hreceive : streamOpen.server.receive {} 0 (WispPacket.serialize ⟨packetData, 1, payload⟩) =
        .ok (payloadAccepted payload).server := by
      rw [State.receive]
      exact andThen_eq_ok.mpr ⟨_, hparse, rfl⟩
    have hserver : streamOpen.server.step {} (dataLabel 0 1 payload) =
        some (payloadAccepted payload).server := by
      change streamOpen.server.loopStep {} (.message 0 _) = _
      rw [State.loopStep, if_pos hready, hreceive]
      rfl
    change Capture.step {} streamOpen (.server (dataLabel 0 1 payload)) = _
    rw [Capture.step, hserver]
    rfl

/-- A step that brings nothing in. -/
theorem Capture.steady_of_nil (hsubmitted : c.server.submitted l = [])
    (hread : c.server.readSoFar l = [])
    (hdelivered : CaptureLabel.delivered (.server l) = true) :
    c.Steady upload download (.server l) :=
  ⟨within_server.mpr (by simp [hsubmitted, hread]), hdelivered⟩

/-- A task that is alone records its payload. -/
theorem run_record {peer : Nat → String × UInt16} {task : WriteTask}
    (hpool : c.server.pool = { queue := [task] }) (hturns : c.turns = [])
    (hthreads : 0 < env.threadCount) (hsock : c.sockOf task = some k) :
    ∃ c', (capture env peer).Run (Capture.Steady upload download) c
        [.server (.worker .dequeue), .server (.worker (.begin 0)), .writeDummyUser 0] c' ∧
      c'.pcap k = (c.pcap k).writeDummyUser task.packet.data := by
  obtain ⟨d, hd⟩ : ∃ d, c.server.stream task.manager task.packet.streamId = some d := by
    rw [← Option.ne_none_iff_exists']
    intro hnone
    rw [Capture.sockOf, State.boundSock, State.binding, hnone] at hsock
    cases hsock
  let started : State := { c.server with pool := { running := [⟨task, .started⟩] } }
  let begun : State := (started.setRunning [⟨task, .locked⟩]).record (.began task true)
  have hdequeue : Capture.step env c (.server (.worker .dequeue)) =
      some ⟨started, c.pcap, [none]⟩ := by
    simp [Capture.step, Capture.mayTake, State.step, State.workerStep, State.dequeue, hpool,
      hthreads, Capture.pcapAfter, Capture.turnsAfter, hturns, started]
  have hbegin : Capture.step env ⟨started, c.pcap, [none]⟩ (.server (.worker (.begin 0))) =
      some ⟨begun, c.pcap, [none]⟩ := by
    have hrunning : started.pool.running = [⟨task, .started⟩] := rfl
    have hfound : started.stream task.manager task.packet.streamId = some d := hd
    simp [Capture.step, Capture.mayTake, State.step, State.workerStep, State.beginTask, hrunning,
      hfound, Capture.pcapAfter, Capture.turnsAfter, Capture.tasks, begun]
  have hrecord : Capture.step env ⟨begun, c.pcap, [none]⟩ (.writeDummyUser 0) =
      some ⟨begun, Function.update c.pcap k ((c.pcap k).writeDummyUser task.packet.data),
        [some (c.pcap k).out.length]⟩ := by
    have hrunning : begun.pool.running = [⟨task, .locked⟩] := rfl
    have hbound : Capture.sockOf ⟨begun, c.pcap, [none]⟩ task = some k := hsock
    simp [Capture.step, Capture.writeDummyUser, hrunning, hbound]
  refine ⟨_, .cons (Capture.steady_of_nil rfl rfl rfl) hdequeue
    (.cons (Capture.steady_of_nil rfl rfl rfl) hbegin
      (.cons ⟨rfl, rfl⟩ hrecord (.nil _))), ?_⟩
  exact Function.update_self ..

/-- **Every payload of a client reaches `write_tcp`.** -/
theorem exists_submitted_recorded {payload : Bytes} (h : payload.length + 5 ≤ maxPayloadLength) :
    ∃ c, (capture {} somePeer).Reaches (Capture.Steady payload.length 0) c ∧
      ∃ r ∈ (c.pcap 0).out, r.data = payload := by
  obtain ⟨hsteady, hstep⟩ := step_payload h
  obtain ⟨ls, hrun⟩ := reaches_streamOpen.step hsteady hstep
  have hsame : SameTable streamOpen.server (payloadAccepted payload).server :=
    (SameTable.endHandshake _ 0).trans (.handleData _ _ _)
  have hsock : (payloadAccepted payload).server.boundSock 0 1 = some 0 := by
    rw [hsame.boundSock]
    decide +kernel
  have hd : (streamOpen.server.endHandshake 0).stream 0 1 = some ⟨0x01, 1, 7, 127⟩ := by
    decide +kernel
  have hpool := (@State.handleData_pool {} _ 0 ⟨packetData, 1, payload⟩ _ hd).1
  obtain ⟨c, hrest, hfile⟩ := @run_record {} 0 payload.length 0 (payloadAccepted payload) somePeer
    _ hpool rfl (by decide) hsock
  obtain ⟨r, hout, hdata, -⟩ := @PcapInterface.out_writeDummyUser ((payloadAccepted payload).pcap 0)
    payload
  refine ⟨c, ⟨_, hrun.append hrest⟩, r, ?_, hdata⟩
  rw [hfile]
  exact hout ▸ List.mem_append_right _ (List.mem_singleton_self r)

/-- The watcher records nothing. -/
theorem capture_step_watch {peer : Nat → String × UInt16} {w : WatchLabel}
    (hs : s.watchStep env w = some t) (pcap : Nat → PcapInterface) (turns : List (Option Nat)) :
    (capture env peer).step ⟨s, pcap, turns⟩ (.server (.watch w)) = some ⟨t, pcap, turns⟩ := by
  have hserver : s.step env (.watch w) = some t := hs
  change Capture.step env _ (.server (.watch w)) = _
  rw [Capture.step, hserver]
  rfl

/-- The watcher reads, and brings in what it has read in the end. -/
theorem run_reads {peer : Nat → String × UInt16} {ls : List Label} {q : Pass}
    (h : (server env).Run (fun _ _ => True) s ls t)
    (hls : ∀ l ∈ ls, ∃ result, l = .watch (.read result))
    (hq : t.watcher.phase.pass? = some q) (hlen : q.combinedBuffer.length ≤ download)
    (pcap : Nat → PcapInterface) (turns : List (Option Nat)) :
    (capture env peer).Run (Capture.Steady upload download) ⟨s, pcap, turns⟩ (ls.map .server)
        ⟨t, pcap, turns⟩ ∧
      (∀ p, s.watcher.phase.pass? = some p →
        p.combinedBuffer.length ≤ q.combinedBuffer.length) ∧
      t = { s with watcher := { s.watcher with phase := t.watcher.phase }, log := t.log } := by
  induction h with
  | nil s =>
    refine ⟨.nil _, fun p hp => ?_, rfl⟩
    obtain rfl := Option.some.inj (hp.symm.trans hq)
    exact Nat.le_refl _
  | @cons s u t l ls _ hs _ ih =>
    obtain ⟨result, rfl⟩ := hls l (List.mem_cons_self ..)
    obtain ⟨hrun, hle, hframe⟩ := ih (fun l hl => hls l (List.mem_cons_of_mem _ hl)) hq
    change s.watchStep env (.read result) = some u at hs
    have hstep := @capture_step_watch env s u peer _ hs pcap turns
    rw [State.watchStep, State.watchRead] at hs
    split at hs
    · rename_i p hphase
      rw [Option.ite_none_right_eq_some] at hs
      obtain rfl := Option.some.inj hs.2
      have hread := hle _ (State.pass?_afterRead (p.read ⟨s.kernel.sockAt p.fd, result⟩) result)
      rw [Pass.read, List.length_append] at hread
      refine ⟨.cons ⟨Capture.within_server.mpr ⟨Nat.zero_le _, ?_⟩, rfl⟩ hstep hrun, ?_, hframe⟩
      · simp only [State.readSoFar, hphase, List.length_append]
        exact Nat.le_trans hread hlen
      · intro p' hp'
        rw [hphase] at hp'
        obtain rfl := Option.some.inj hp'
        exact Nat.le_trans (Nat.le_add_right _ _) hread
    · cases hs

/-- The watcher hands a pass on. -/
theorem run_defer {peer : Nat → String × UInt16} {q : Pass}
    (hphase : s.watcher.phase = .counting q)
    (pcap : Nat → PcapInterface) (turns : List (Option Nat)) :
    ∃ t, (capture env peer).Run (Capture.Steady upload download) ⟨s, pcap, turns⟩
        [.server (.watch .count), .server (.watch .defer)] ⟨t, pcap, turns⟩ ∧
      t.deferred = s.deferred ++ [q] ∧ t.loop = s.loop ∧ SameTable s t := by
  let counted : State := { s with watcher := { s.watcher with
    sendQueueLen := s.watcher.sendQueueLen + 1, phase := .deferring q } }
  have hcount : s.watchStep env .count = some counted := by
    simp [State.watchStep, State.watchCount, hphase, counted]
  have hdefer : counted.watchStep env .defer =
      some { counted.setPhase .next with deferred := s.deferred ++ [q] } := rfl
  exact ⟨_, .cons (Capture.steady_of_nil rfl rfl rfl) (capture_step_watch hcount pcap turns)
    (.cons (Capture.steady_of_nil rfl rfl rfl) (capture_step_watch hdefer pcap turns) (.nil _)),
    rfl, rfl, .of_eq rfl rfl rfl rfl⟩

/-- The watcher hands a pass on when it has read out. -/
theorem run_readOut {peer : Nat → String × UInt16} {q : Pass} {e : ReadEnd}
    (hphase : s.watcher.phase = e.next q)
    (pcap : Nat → PcapInterface) (turns : List (Option Nat)) :
    ∃ ls t, (capture env peer).Run (Capture.Steady upload download) ⟨s, pcap, turns⟩ ls
        ⟨t, pcap, turns⟩ ∧
      t.deferred = s.deferred ++ [q] ∧ t.loop = s.loop ∧ SameTable s t := by
  rw [ReadEnd.next] at hphase
  split at hphase
  · let erased : State := { s.setPhase (.counting q) with kernel := s.kernel.eraseFd q.fd }
    have herase : s.watchStep env .erase = some erased := by
      simp [State.watchStep, State.watchErase, hphase, erased]
    obtain ⟨t, hrun, hdeferred, hloop, hsame⟩ :=
      @run_defer env erased upload download peer q rfl pcap turns
    have hsame' : SameTable s erased := ⟨rfl, rfl, rfl, fun _ => Iff.rfl, rfl, rfl⟩
    exact ⟨_, t, .cons (Capture.steady_of_nil rfl rfl rfl) (capture_step_watch herase pcap turns)
      hrun, hdeferred, hloop, hsame'.trans hsame⟩
  · obtain ⟨t, hrun, hdeferred, hloop, hsame⟩ :=
      @run_defer env s upload download peer q hphase pcap turns
    exact ⟨_, t, hrun, hdeferred, hloop, hsame⟩

/-- A closure records its buffer. -/
theorem step_closure {peer : Nat → String × UInt16} {q : Pass} {m : Nat} {id : UInt32}
    (hloop : c.server.loop = .idle) (hdeferred : c.server.deferred = [q])
    (hholders : c.server.holders q.fd = [(m, id)]) (hsock : c.server.boundSock m id = some k) :
    ∃ c', (capture env peer).step c (.server (.loop .deferred)) = some c' ∧
      c'.pcap k = (c.pcap k).writeDummyTarget q.combinedBuffer := by
  have hserver : ∃ t, c.server.step env (.loop .deferred) = some t := by
    simp [State.step, State.loopStep, hloop, State.runDeferred, hdeferred]
  obtain ⟨t, ht⟩ := hserver
  refine ⟨⟨t, c.pcapAfter (.loop .deferred), c.turns⟩, ?_, ?_⟩
  · change Capture.step env c (.server (.loop .deferred)) = _
    rw [Capture.step, ht]
    rfl
  · simp [Capture.pcapAfter, hdeferred, hholders, Capture.writeDummyTarget, hsock]

/-- The watcher is about to read from the target of the stream. -/
def passBegun : Capture := (capture {} somePeer).final (Capture.Steady 0 0)
  (openLabels ++ [.server (.watch (.wait [7])), .server (.watch .next)])

theorem reaches_passBegun : (capture {} somePeer).Reaches (Capture.Steady upload download)
    passBegun :=
  ((capture {} somePeer).reaches_final (Capture.Steady 0 0) _ (by decide +kernel)).mono
    fun _ _ h => ⟨Capture.within_mono (Nat.zero_le _) (Nat.zero_le _) h.1, h.2⟩

/-- The search of a closure finds the stream that is bound to its descriptor. -/
theorem TableOk.holders_of_binding (h : TableOk s) {m : Nat} {id : UInt32} {fd : Fd}
    (hb : s.binding m id = some fd) : s.holders fd = [(m, id)] := by
  rcases holders_eq h fd with ⟨-, hfree⟩ | ⟨m', id', hone, hb'⟩
  · exact absurd hb (hfree m id)
  · obtain ⟨rfl, rfl⟩ := h.unique hb hb'
    exact hone

/-- **Everything that the loop reads reaches `write_tcp`.** -/
theorem exists_read_recorded (results : Nat → PossibleRead) :
    ∃ c, (capture {} somePeer).Reaches
        (Capture.Steady 0 (readLoop results 0 []).combinedBuffer.length) c ∧
      ∃ r ∈ (c.pcap 0).out, r.data = (readLoop results 0 []).combinedBuffer := by
  obtain ⟨ls₀, hbegun⟩ := @reaches_passBegun 0 (readLoop results 0 []).combinedBuffer.length
  have hphase : passBegun.server.watcher.phase = .reading (Pass.start 7 0) := by decide +kernel
  obtain ⟨t, q, hreads, hout⟩ := @run_readLoop results {} _ _ 0 [] hphase rfl rfl
  have hlabels : ∀ l ∈ readLabels results 0 (readLoop results 0 []).last,
      ∃ result, l = .watch (.read result) := by
    intro l hl
    obtain ⟨j, -, rfl⟩ := List.mem_map.mp hl
    exact ⟨_, rfl⟩
  have hpass : t.watcher.phase.pass? = some q := by
    rw [hout.phase, ReadEnd.next]
    split <;> rfl
  obtain ⟨hread, -, hframe⟩ := @run_reads {} _ _ 0 _ somePeer _ _ hreads hlabels hpass
    (Nat.le_of_eq (congrArg _ hout.combined)) passBegun.pcap passBegun.turns
  obtain ⟨ls, u, hdefer, hdeferred, hloop, hsame⟩ := @run_readOut {} t 0 _ somePeer q _ hout.phase
    passBegun.pcap passBegun.turns
  have hrun := (hbegun.append hread).append hdefer
  have hsame' : SameTable passBegun.server u :=
    SameTable.trans (by rw [hframe]; exact .of_eq rfl rfl rfl rfl) hsame
  have hidle : u.loop = .idle := by
    have hbefore : passBegun.server.loop = .idle := by decide +kernel
    rw [hloop, hframe]
    exact hbefore
  have honly : u.deferred = [q] := by
    rw [hdeferred, hframe]
    have hnone : passBegun.server.deferred = [] := by decide +kernel
    rw [hnone]
    rfl
  have hholders : u.holders q.fd = [(0, 1)] := by
    have hbinding : u.binding 0 1 = some q.fd := by
      rw [hsame'.binding, hout.fd]
      decide +kernel
    have hcarries : Carries (fun _ => True) ⟨u, passBegun.pcap, passBegun.turns⟩ :=
      .of_reaches trivial ⟨_, hrun.mono fun c a _ => by cases a <;> simp [Capture.Brings]⟩
    exact hcarries.bound.table.holders_of_binding hbinding
  have hsock : u.boundSock 0 1 = some 0 := by
    rw [hsame'.boundSock]
    decide +kernel
  obtain ⟨c, hstep, hfile⟩ := @step_closure {} 0 ⟨u, passBegun.pcap, passBegun.turns⟩ somePeer q
    0 1 hidle honly hholders hsock
  obtain ⟨r, hrecord, hdata, -⟩ := @PcapInterface.out_writeDummyTarget (passBegun.pcap 0)
    q.combinedBuffer
  refine ⟨c, ⟨_, hrun.snoc (Capture.steady_of_nil rfl rfl rfl) hstep⟩, r, ?_, ?_⟩
  · rw [hfile]
    exact hrecord ▸ List.mem_append_right _ (List.mem_singleton_self r)
  · rw [hdata, hout.combined]

end Reach

end Woeful
