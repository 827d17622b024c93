import Woeful.Connect
import Woeful.Hostname
import Woeful.Lib.Log
import Woeful.Pool

/-!
# What a message touches

A message comes with a manager, the one of its websocket, and names a stream. `receive` and
what follows it in `handle_connect` stay with these two, whatever the other threads do in the
meantime (`receive_touches`): the maps are accessed by `operator[]`, which makes an entry for
an id that is missing, but never for another id than that of the message, and for a DATA only
where it is present.

`handle_connect` gives `open_stream` the address of the hostname, and what is found there if
the buffer is not terminated (`connects_decode_iff`) the source does not say. `Receives` takes
any string for it.
-/

namespace Woeful

open Memory Transition Log

variable {env : Env} {s t u : State} {m : Nat} {packet : WispPacket} {view : Bytes}

namespace State

/-- `handle_connect`, once `open_stream` has been given a hostname. -/
def connectTo (env : Env) (s : State) (m : Nat) (packet : WispPacket)
    (connectPacket : ConnectPacket) (hostname : Bytes) : State :=
  let c : ConnectCall := ⟨m, packet.streamId, connectPacket.streamType⟩
  if SystemInterface.passesFilter env.conf hostname connectPacket.streamType
      connectPacket.destinationPort then
    { s with loop := .socket c }
  else refuse env s c

/-- A message acts on its stream: it is a CONNECT, or a DATA for a stream that is there. -/
def acts (s : State) (m : Nat) (packet : WispPacket) : Prop :=
  packet.packetType = packetConnect ∨
    packet.packetType = packetData ∧ s.stream m packet.streamId ≠ none

end State

/-- `receive` comes to `t`. The hostname of a CONNECT is any string where its buffer is not
terminated. -/
inductive Receives (env : Env) (s : State) (m : Nat) (view : Bytes) : State → Prop where
  /-- the source says what it does -/
  | defined {t : State} : s.receive env m view = .ok t → Receives env s m view t
  /-- the hostname has no end -/
  | unterminated {packet : WispPacket} {connectPacket : ConnectPacket} (hostname : Bytes) :
      WispPacket.parse view (UInt64.ofNat view.length) = .ok packet →
      packet.packetType = packetConnect →
      ConnectPacket.parse packet.data (UInt64.ofNat packet.data.length) = .ok connectPacket →
      0 ∉ connectPacket.destinationHostname →
      Receives env s m view ((s.endHandshake m).connectTo env m packet connectPacket hostname)

/-- The task that `handle_data` submits for a message. -/
def WriteTask.OfMessage (s : State) (m : Nat) (packet : WispPacket) (task : WriteTask) : Prop :=
  packet.packetType = packetData ∧ s.stream m packet.streamId ≠ none ∧ task.manager = m ∧
    task.packet = packet

/-- What may be logged for a message, or by other threads: a frame goes to its websocket, is
about its stream, and only if it acts on it. -/
def Event.OfMessage (s : State) (m : Nat) (packet : WispPacket) : Event → Prop
  | .sent m' frame _ _ => m' = m ∧ frame.streamId = packet.streamId ∧ s.acts m packet
  | .accepted task => task.OfMessage s m packet
  | _ => True

/-- A message that came in `s` has touched only its own stream up to `t`. -/
structure Touches (m : Nat) (packet : WispPacket) (s t : State) : Prop where
  /-- every other manager is as it was -/
  managers : ∀ m' ≠ m, t.managers.lookup m' = s.managers.lookup m'
  /-- so is every other stream of this one -/
  streams : ∀ id ≠ packet.streamId, t.stream m id = s.stream m id
  /-- and this one, unless the message acts on it -/
  inert : ¬ s.acts m packet → t.stream = s.stream
  /-- what was sent, and what was submitted -/
  log : Extends (Event.OfMessage s m packet) s.log t.log
  /-- a task is an old one, or was submitted for the message -/
  tasks : ∀ task ∈ t.pool.unfinished, task ∈ s.pool.unfinished ∨ task.OfMessage s m packet

namespace Touches

theorem start : Touches m packet s s where
  managers _ _ := rfl
  streams _ _ := rfl
  inert _ := rfl
  log := .refl _ _
  tasks _ h := Or.inl h

/-- The managers are left alone. -/
theorem keep (h : Touches m packet s t) (hmanagers : u.managers = t.managers)
    (hlog : Extends (Event.OfMessage s m packet) t.log u.log)
    (htasks : ∀ task ∈ u.pool.unfinished, task ∈ t.pool.unfinished) : Touches m packet s u where
  managers m' hne := by rw [hmanagers, h.managers m' hne]
  streams id hne := by rw [State.stream_of_managers hmanagers, h.streams id hne]
  inert hnot := (State.stream_of_managers hmanagers).trans (h.inert hnot)
  log := h.log.trans hlog
  tasks task htask := h.tasks task (htasks task htask)

/-! ### The functions of a manager -/

/-- Anything but INFO ends the time in which an INFO would count. -/
theorem endHandshake : Touches m packet s (s.endHandshake m) where
  managers _ hne := State.lookup_modifyManager_ne hne _
  streams _ _ := by simp
  inert _ := State.stream_endHandshake
  log := .refl _ _
  tasks _ h := Or.inl h

/-- A CLOSE for a CONNECT that fails. -/
theorem refuse {c : ConnectCall} (h : Touches m packet s t)
    (hty : packet.packetType = packetConnect) (hm : c.manager = m)
    (hid : c.streamId = packet.streamId) : Touches m packet s (t.refuse env c) :=
  h.keep rfl (.snoc ⟨hm, hid, Or.inl hty⟩) fun _ htask => htask

theorem closeFd {fd : Fd} (h : Touches m packet s t) : Touches m packet s (t.closeFd fd) :=
  h.keep rfl (.snoc trivial) fun _ htask => htask

/-- `streams[stream_id] = stream_data` -/
theorem insertStream {c : ConnectCall} {fd : Fd} (h : Touches m packet s t)
    (hty : packet.packetType = packetConnect) (hm : c.manager = m)
    (hid : c.streamId = packet.streamId) (halive : m ∈ t.managers) :
    Touches m packet s (t.insertStream c fd) := by
  subst hm
  refine ⟨fun m' hne => ?_, fun id hne => ?_, fun hnot => absurd (Or.inl hty) hnot,
    h.log.trans (.snoc trivial), h.tasks⟩
  · rw [← h.managers m' hne]
    exact State.lookup_modifyManager_ne hne _
  · rw [State.stream_insertStream halive, if_neg fun he => hne (he.2.trans hid)]
    exact h.streams id hne

/-- DATA: the accesses by `operator[]` are to an entry that is there. -/
theorem handleData (hty : packet.packetType = packetData) :
    Touches m packet s ((s.endHandshake m).handleData env m packet).2 := by
  cases hd : s.stream m packet.streamId with
  | none =>
    have hnone : (s.endHandshake m).stream m packet.streamId = none := by
      simp [hd]
    rw [State.handleData, hnone]
    exact endHandshake
  | some d =>
    have hthere : s.stream m packet.streamId ≠ none := by simp [hd]
    have hd' : (s.endHandshake m).stream m packet.streamId = some d := by
      simp [hd]
    have hacts : s.acts m packet := Or.inr ⟨hty, hthere⟩
    refine ⟨fun m' hne => ?_, fun id hne => ?_, fun hnot => absurd hacts hnot, ?_, ?_⟩
    · rw [← (@endHandshake s m packet).managers m' hne, State.handleData, hd']
      dsimp only
      split
      · split <;> exact State.lookup_modifyManager_ne hne _
      · rfl
    · rw [State.stream_handleData hd', if_neg fun he => hne he.2.1, State.stream_endHandshake]
    · have haccept : Extends (Event.OfMessage s m packet) s.log
          (s.log ++ [.accepted ((s.endHandshake m).taskFor m packet)]) :=
        .snoc ⟨hty, hthere, rfl, rfl⟩
      rw [State.handleData, hd']
      dsimp only
      split
      · split
        · exact haccept.trans (.snoc ⟨rfl, rfl, hacts⟩)
        · exact haccept
      · exact haccept
    · intro task htask
      rw [(@State.handleData_pool env _ _ _ _ hd').1, ThreadPool.unfinished_submit] at htask
      rcases List.mem_append.mp htask with htask | htask
      · exact Or.inl htask
      · obtain rfl := List.mem_singleton.mp htask
        exact Or.inr ⟨hty, hthere, rfl, rfl⟩

end Touches

/-! ## The handler, step by step -/

/-- A CONNECT in progress has four places to be. -/
theorem LoopState.of_call {l : LoopState} {c : ConnectCall} (h : l.call? = some c) :
    l = .socket c ∨ ∃ fd, l = .connect c fd ∨ l = .pushFd c fd ∨ l = .insert c fd := by
  cases l with
  | socket c' => exact Or.inl (congrArg LoopState.socket (Option.some.inj h))
  | connect c' fd =>
    obtain rfl := Option.some.inj h
    exact Or.inr ⟨fd, Or.inl rfl⟩
  | pushFd c' fd =>
    obtain rfl := Option.some.inj h
    exact Or.inr ⟨fd, Or.inr (Or.inl rfl)⟩
  | insert c' fd =>
    obtain rfl := Option.some.inj h
    exact Or.inr ⟨fd, Or.inr (Or.inr rfl)⟩
  | _ => cases h

/-- `handle_connect` finds a hostname, or needs none, or the source does not say what it does. -/
theorem State.handleConnect_eq_ok (h : s.handleConnect env m packet = .ok t) :
    ∃ connectPacket hostname, t = s.connectTo env m packet connectPacket hostname := by
  rw [handleConnect, andThen_eq_ok] at h
  obtain ⟨connectPacket, -, h⟩ := h
  dsimp only at h
  split at h
  · rename_i hunread
    refine ⟨connectPacket, [], ?_⟩
    rw [connectTo, SystemInterface.passesFilter_of_refusesUnread hunread]
    exact (Except.ok.inj h).symm
  · rw [andThen_eq_ok] at h
    obtain ⟨hostname, -, h⟩ := h
    refine ⟨connectPacket, hostname, ?_⟩
    rw [connectTo]
    split at h
    · rename_i hpass
      rw [if_pos hpass]
      exact (Except.ok.inj h).symm
    · rename_i hpass
      rw [if_neg hpass]
      exact (Except.ok.inj h).symm

/-- Where the handler is: done, or in a CONNECT for the stream of the message. -/
inductive ServingAt (m : Nat) (packet : WispPacket) (t : State) : Prop where
  /-- done -/
  | done : t.loop = .idle → ServingAt m packet t
  /-- in a CONNECT -/
  | connect {c : ConnectCall} : t.loop.call? = some c → packet.packetType = packetConnect →
      c.manager = m → c.streamId = packet.streamId → m ∈ t.managers → ServingAt m packet t

/-- `receive` has come to `t`, or what follows it. -/
structure Serving (m : Nat) (packet : WispPacket) (s t : State) : Prop where
  /-- what it has touched -/
  touches : Touches m packet s t
  /-- where it is -/
  place : ServingAt m packet t

namespace Serving

/-- A CONNECT, with whatever hostname. -/
theorem connectTo {connectPacket : ConnectPacket} {hostname : Bytes} (halive : m ∈ s.managers)
    (hty : packet.packetType = packetConnect) :
    Serving m packet s
      ((s.endHandshake m).connectTo env m packet connectPacket hostname) := by
  rw [State.connectTo]
  split
  · exact ⟨Touches.endHandshake.keep rfl (.refl _ _) fun _ h => h,
      .connect rfl hty rfl rfl (State.mem_modifyManager.mpr halive)⟩
  · exact ⟨Touches.endHandshake.refuse hty rfl rfl, .done rfl⟩

/-- **`receive`.** -/
theorem receives (hidle : s.loop = .idle) (halive : m ∈ s.managers)
    (hp : WispPacket.parse view (UInt64.ofNat view.length) = .ok packet)
    (h : Receives env s m view u) : Serving m packet s u := by
  cases h with
  | defined h =>
    rw [State.receive, hp] at h
    change (if _ then _ else _) = _ at h
    split at h
    · obtain rfl := Except.ok.inj h
      exact ⟨.start, .done hidle⟩
    · split at h
      · rename_i hty
        obtain ⟨connectPacket, hostname, rfl⟩ := State.handleConnect_eq_ok h
        exact connectTo halive hty
      · split at h
        · rename_i hty
          obtain rfl := Except.ok.inj h
          refine ⟨.handleData hty, .done ?_⟩
          rw [State.handleData_frame]
          exact hidle
        · obtain rfl := Except.ok.inj h
          exact ⟨.endHandshake, .done hidle⟩
  | unterminated hostname hp' hty _ _ =>
    obtain rfl := Except.ok.inj (hp.symm.trans hp')
    exact connectTo halive hty

/-- **A further step of the loop thread**: a CONNECT goes on. -/
theorem loopMove {l : LoopLabel} (h : Serving m packet s t) (hbusy : t.loop ≠ .idle)
    (hs : LoopMove env t l u) : Serving m packet s u := by
  obtain ⟨htouches, hplace⟩ := h
  cases hplace with
  | done hidle => exact absurd hidle hbusy
  | @connect c hcall hty hm hid halive =>
    rcases LoopState.of_call hcall with hl | ⟨fd, hl | hl | hl⟩
    · obtain ⟨-, rfl | ⟨fd, hfd, rfl⟩⟩ := hs.of_socket hl
      · exact ⟨htouches.refuse hty hm hid, .done rfl⟩
      · exact ⟨htouches.keep rfl (.refl _ _) fun _ h => h, .connect rfl hty hm hid halive⟩
    · obtain ⟨-, rfl | rfl⟩ := hs.of_connect hl
      · exact ⟨htouches.keep rfl (.refl _ _) fun _ h => h, .connect rfl hty hm hid halive⟩
      · exact ⟨htouches.closeFd.refuse hty hm hid, .done rfl⟩
    · obtain ⟨ok, -, rfl⟩ := hs.of_pushFd hl
      exact ⟨htouches.keep rfl (.refl _ _) fun _ h => h, .connect rfl hty hm hid halive⟩
    · obtain ⟨-, rfl⟩ := hs.of_insert hl
      exact ⟨htouches.insertStream hty hm hid halive, .done rfl⟩

/-- A step of another thread. -/
theorem aside (h : Serving m packet s t) (hmanagers : u.managers = t.managers)
    (hloop : u.loop = t.loop) (hlog : Extends (Event.OfMessage s m packet) t.log u.log)
    (htasks : ∀ task ∈ u.pool.unfinished, task ∈ t.pool.unfinished) : Serving m packet s u := by
  refine ⟨h.touches.keep hmanagers hlog htasks, ?_⟩
  cases h.place with
  | done hidle => exact .done (hloop.trans hidle)
  | connect hcall hty hm hid halive =>
    exact .connect (hloop ▸ hcall) hty hm hid (hmanagers ▸ halive)

/-- **A step inside the handler.** -/
theorem step {l : Label} (hs : t.step env l = some u) (hbusy : t.loop ≠ .idle)
    (h : Serving m packet s t) : Serving m packet s u := by
  cases l with
  | loop l => exact h.loopMove hbusy (loopStep_cases hs)
  | watch w =>
    have hmove := watchStep_cases hs
    refine h.aside hmove.managers hmove.loop ?_ fun _ htask => hmove.pool ▸ htask
    cases hmove with
    | read hphase hresult => exact .snoc trivial
    | _ => exact .refl _ _
  | worker w =>
    have hmove := workerStep_cases hs
    refine h.aside hmove.managers hmove.loop ?_ fun _ htask => hmove.mem_unfinished htask
    cases hmove with
    | begin hi hd => exact .snoc trivial
    | fault hi hd => exact .snoc trivial
    | write hi hn => exact .snoc trivial
    | _ => exact .refl _ _
  | rehash m' streams =>
    change t.rehash m' streams = some u at hs
    rw [State.rehash] at hs
    split at hs
    · cases hs
    · exact absurd (Option.ite_none_right_eq_some.mp hs).1.1 hbusy
  | rehashSockets ms => exact absurd (State.rehashSockets_frame hs).1 hbusy

/-- **The whole handler.** -/
theorem run {ls : List Label} (hrun : (server env).Run (fun u _ => u.loop ≠ .idle) u ls t)
    (h : Serving m packet s u) : Serving m packet s t :=
  hrun.preserves (fun _ _ _ hbusy hs hI => hI.step hs hbusy) h

end Serving

/-! ## The result -/

/-- A message that is long enough is received. -/
theorem exists_receives (env : Env) (s : State) (m : Nat) (h5 : 5 ≤ view.length)
    (hconnect : view[0]? = some packetConnect → 8 ≤ view.length)
    (hsize : view.length ≤ maxPayloadLength) : ∃ u, Receives env s m view u := by
  have hn : view.length < 2 ^ 63 := Nat.lt_of_le_of_lt hsize (by decide)
  obtain ⟨packet, hp, hlen, htype⟩ := WispPacket.parse_isOk h5 hn
  cases hreceive : s.receive env m view with
  | ok u => exact ⟨u, .defined hreceive⟩
  | error e =>
    rw [State.receive, hp] at hreceive
    change (if _ then _ else _) = _ at hreceive
    split at hreceive
    · cases hreceive
    · split at hreceive
      · rename_i hty
        have h8 := hconnect (hty ▸ htype)
        obtain ⟨connectPacket, hparse⟩ :=
          @ConnectPacket.parse_isOk packet.data (by omega) (by omega)
        -- the hostname has no end: with one the CONNECT is handled
        have hend : 0 ∉ connectPacket.destinationHostname := by
          intro hmem
          rw [State.handleConnect, hparse] at hreceive
          change (if _ then _ else _) = _ at hreceive
          split at hreceive
          · cases hreceive
          · rw [cString, if_pos hmem] at hreceive
            change (if _ then _ else _) = _ at hreceive
            split at hreceive <;> cases hreceive
        exact ⟨_, .unterminated [] hp hty hparse hend⟩
      · split at hreceive <;> cases hreceive

/-- The first step of the handler is `receive`. -/
theorem Receives.of_step (h : s.step env (.loop (.message m view)) = some u) :
    Receives env s m view u := by
  change s.loopStep env (.message m view) = some u at h
  rw [State.loopStep, Option.ite_none_right_eq_some] at h
  cases hreceive : s.receive env m view with
  | error e =>
    rw [hreceive] at h
    cases h.2
  | ok t =>
    rw [hreceive] at h
    obtain rfl := Option.some.inj h.2
    exact .defined hreceive

/-- **A message touches only its own stream**: whatever the other threads do, at every moment
from the end of `receive` to the end of its handler. -/
theorem receive_touches (hidle : s.loop = .idle) (halive : m ∈ s.managers)
    (h5 : 5 ≤ view.length) (hconnect : view[0]? = some packetConnect → 8 ≤ view.length)
    (hsize : view.length ≤ maxPayloadLength) :
    ∃ packet, WispPacket.parse view (UInt64.ofNat view.length) = .ok packet ∧
      (∃ u, Receives env s m view u) ∧
      ∀ u, Receives env s m view u → ∀ ls t,
        (server env).Run (fun u _ => u.loop ≠ .idle) u ls t → Touches m packet s t := by
  have hn : view.length < 2 ^ 63 := Nat.lt_of_le_of_lt hsize (by decide)
  obtain ⟨packet, hp, -⟩ := WispPacket.parse_isOk h5 hn
  refine ⟨packet, hp, exists_receives env s m h5 hconnect hsize, fun u hu ls t hrun => ?_⟩
  exact ((Serving.receives hidle halive hp hu).run hrun).touches

theorem receive_touches_connect :
    ∃ packet, WispPacket.parse connectMessage (UInt64.ofNat connectMessage.length) = .ok packet ∧
      Touches 0 packet oneClient
        (handlerEnd {} oneClient (.message 0 connectMessage) (connectAnswers true)) := by
  obtain ⟨packet, hp, -, htouches⟩ := @receive_touches {} oneClient 0 connectMessage
    (by decide +kernel) (by decide +kernel) (by decide) (by decide) (by decide)
  have hhandler : HandlerRun {} oneClient (.message 0 connectMessage) (connectAnswers true) _ :=
    .of_replay (by decide +kernel) (by decide +kernel) (by decide +kernel)
  obtain ⟨u, hu, hrun⟩ := hhandler.run
  exact ⟨packet, hp, htouches u (.of_step hu) _ _ hrun⟩

end Woeful
