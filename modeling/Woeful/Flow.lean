import Woeful.Lib.Log
import Woeful.Frames

/-!
# From the targets to the clients

What is read from a socket passes the watcher, the queue of closures and the search
for the stream before it is sent. `FlowMove` says what a step does to this way: most
steps have no part in it (`Still`), a few bring a descriptor onto it or take one off,
and the others move bytes along.

The runs are those without a close handler, in which a CONNECT is for an id that is
not present; `Calm` is what this means for the loop thread.
-/

namespace Woeful

open Memory Transition Log

variable {env : Env} {s t : State} {m : Nat} {id : UInt32}

/-! ## The runs -/

/-- The condition on a step: no websocket closes, and a CONNECT is for an id that is
not in `streams`. -/
def State.connectsUnused (s : State) : Label → Bool
  | .loop (.close _) => false
  | .loop (.message m view) =>
    match WispPacket.parse view (UInt64.ofNat view.length) with
    | .ok packet => packet.packetType ≠ packetConnect || (s.stream m packet.streamId).isNone
    | .error _ => true
  | _ => true

/-- The loop thread is in a close handler. -/
def LoopState.closes : LoopState → Bool
  | .forceClose _ => true
  | .closing _ _ => true
  | _ => false

/-- No close handler runs, and the id of the CONNECT in progress is not present. -/
structure Calm (s : State) : Prop where
  /-- no close handler -/
  notClosing : s.loop.closes = false
  /-- the id is unused -/
  unused : ∀ c, s.loop.call? = some c → s.binding c.manager c.streamId = none

/-- The guard, for a CONNECT. -/
theorem State.connectsUnused_connect {view : Bytes} {packet : WispPacket}
    (h : s.connectsUnused (.loop (.message m view)) = true)
    (hp : WispPacket.parse view (UInt64.ofNat view.length) = .ok packet)
    (hty : packet.packetType = packetConnect) : s.binding m packet.streamId = none := by
  rw [connectsUnused, hp] at h
  have hnone : s.stream m packet.streamId = none := by simpa [hty] using h
  rw [binding, hnone]
  rfl

/-- Where the CONNECT in progress comes from. -/
theorem LoopMove.call_cases {l : LoopLabel} (hs : LoopMove env s l t)
    (hg : s.connectsUnused (.loop l) = true) {c : ConnectCall} (hc : t.loop.call? = some c) :
    t.binding = s.binding ∧
      (s.loop.call? = some c ∨ s.binding c.manager c.streamId = none) := by
  have habsurd : ∀ {l : LoopState}, t.loop = l → l.call? = none → False := by
    intro l hl hnone
    rw [hl, hnone] at hc
    cases hc
  cases hs with
  | opened hi => exact (habsurd hi rfl).elim
  | info hi hm hp hty => exact (habsurd hi rfl).elim
  | other hi => exact (habsurd hi rfl).elim
  | connect hi hm hp hty hcm hid =>
    -- the CONNECT that starts: its id is unused by the guard
    obtain rfl := Option.some.inj hc
    refine ⟨((SameTable.endHandshake s _).trans (.setLoop _ _)).binding, Or.inr ?_⟩
    rw [hcm, hid]
    exact State.connectsUnused_connect hg hp hty
  | refuse => cases hc
  | data hi hm hp hty =>
    rw [State.handleData_frame] at habsurd
    exact (habsurd hi rfl).elim
  | drain hi =>
    rw [State.drain_frame] at habsurd
    exact (habsurd hi rfl).elim
  | close => cases hg
  | deferred hi hd =>
    dsimp only [State.afterDeliver] at hc
    split at hc
    · cases hc
    · split at hc <;> cases hc
  | socket hfd hl => exact ⟨rfl, Or.inl (hl ▸ hc)⟩
  | connected hl => exact ⟨rfl, Or.inl (hl ▸ hc)⟩
  | pushFd hl => exact ⟨rfl, Or.inl (hl ▸ hc)⟩
  | check hl =>
    dsimp only [State.checkQueue] at hc
    split at hc <;> cases hc
  | _ => cases hc

/-- Only the close handler starts a close handler. -/
theorem LoopMove.not_closes {l : LoopLabel} (hs : LoopMove env s l t)
    (hg : s.connectsUnused (.loop l) = true) (ho : s.loop.closes = false) :
    t.loop.closes = false := by
  cases hs with
  | opened hi => exact ho
  | info hi => exact ho
  | other hi => exact ho
  | data hi hm hp hty =>
    rw [State.handleData_frame]
    exact ho
  | drain hi =>
    rw [State.drain_frame]
    exact ho
  | close => cases hg
  | deferred hi hd =>
    dsimp only [State.afterDeliver]
    split
    · rfl
    · split <;> rfl
  | check hl =>
    dsimp only [State.checkQueue]
    split <;> rfl
  | listIds hl =>
    rw [hl] at ho
    cases ho
  | closeNext hl =>
    rw [hl] at ho
    cases ho
  | _ => rfl

theorem Calm.step {l : Label} (hs : s.step env l = some t) (hg : s.connectsUnused l = true)
    (h : Calm s) : Calm t := by
  have hkeep : t.loop = s.loop → t.binding = s.binding → Calm t := by
    intro hl hb
    refine ⟨hl ▸ h.notClosing, fun c hc => ?_⟩
    rw [hb]
    exact h.unused c (hl ▸ hc)
  cases l with
  | loop l =>
    have hmove := loopStep_cases hs
    refine ⟨hmove.not_closes hg h.notClosing, fun c hc => ?_⟩
    obtain ⟨hb, hold | hnone⟩ := hmove.call_cases hg hc
    · rw [hb]
      exact h.unused c hold
    · rw [hb]
      exact hnone
  | watch l => exact hkeep (watchStep_cases hs).loop (watchStep_cases hs).sameTable.binding
  | worker l => exact hkeep (workerStep_cases hs).loop (workerStep_cases hs).sameTable.binding
  | rehash m' streams =>
    obtain ⟨hsame, hframe⟩ := State.rehash_frame hs
    exact hkeep (by rw [hframe]) hsame.binding
  | rehashSockets ms =>
    obtain ⟨-, -, rfl⟩ := State.rehashSockets_frame hs
    exact hkeep rfl rfl

theorem Calm.initial (env : Env) : Calm (State.initial env) :=
  ⟨rfl, fun _ hc => nomatch hc⟩

/-! ## What is logged meanwhile -/

/-- An event by which no byte moves, and which concerns no stream that is present. -/
def Event.Idle (bound : Nat → UInt32 → Option Fd) : Event → Prop
  | .read _ _ => False
  | .connected _ _ _ => False
  | .closed _ _ => False
  | .sent m packet _ _ => packet.packetType ≠ packetData ∧
      (packet.packetType = packetClose → bound m packet.streamId = none)
  | _ => True

namespace State

variable {bound : Nat → UInt32 → Option Fd}

theorem extends_sendContinue {buffer : UInt32} :
    Extends (Event.Idle bound) s.log (s.sendContinue env m buffer id).log :=
  .snoc ⟨show packetContinue ≠ packetData by decide,
    fun h => absurd h (show packetContinue ≠ packetClose by decide)⟩

theorem extends_updateStreams :
    Extends (Event.Idle bound) s.log (s.updateStreams env m).log := by
  rw [updateStreams]
  split
  · exact .refl _ _
  · split
    · exact .refl _ _
    · exact @Extends.foldl _ _ _ _ State.log _ _ (fun _ _ _ => extends_sendContinue) s

theorem extends_handleData {packet : WispPacket} :
    Extends (Event.Idle bound) s.log (s.handleData env m packet).2.log := by
  have hsubmit : ∀ task, Extends (Event.Idle bound) s.log (s.submitTask task).log :=
    fun _ => .snoc trivial
  rw [handleData]
  split
  · exact .refl _ _
  · dsimp only
    split
    · split
      · exact (hsubmit _).trans (extends_sendContinue (s := State.setBuffer _ _ _ _))
      · exact hsubmit _
    · exact hsubmit _

/-- The CLOSE for a CONNECT that fails, if its id is not present. -/
theorem extends_refuse {c : ConnectCall} (h : bound c.manager c.streamId = none) :
    Extends (Event.Idle bound) s.log (s.refuse env c).log :=
  .snoc ⟨show packetClose ≠ packetData by decide, fun _ => h⟩

end State

/-! ## What a step means for the way -/

/-- The descriptor that is registered, and whose stream is about to be stored. -/
def LoopState.inserting? : LoopState → Option Fd
  | .insert _ fd => some fd
  | _ => none

/-- A step that has no part in it. -/
structure Still (s t : State) : Prop where
  /-- the kernel's tables are the same -/
  kernel : t.kernel = s.kernel
  /-- every stream is bound as it was -/
  binding : t.binding = s.binding
  /-- the same closures are queued -/
  deferred : t.deferred = s.deferred
  /-- the watcher stands where it stood -/
  phase : t.watcher.phase = s.watcher.phase
  /-- with the same events -/
  events : t.watcher.events = s.watcher.events
  /-- the same closure is about to close its stream -/
  pass : t.loop.pass? = s.loop.pass?
  /-- the same stream is about to be stored -/
  inserting : t.loop.inserting? = s.loop.inserting?
  /-- what is logged does not matter -/
  log : Extends (Event.Idle s.binding) s.log t.log

/-- What a step means for the way from the targets to the clients. -/
inductive FlowMove (env : Env) (s t : State) : Prop where
  /-- nothing -/
  | still : Still s t → FlowMove env s t
  /-- a socket is made -/
  | socket {c : ConnectCall} {fd : Fd} (hfd : s.kernel.files fd = none) : s.loop = .socket c →
      t = { s with
        kernel := s.kernel.socket fd hfd (c.manager, c.streamId)
        loop := .connect c fd } → FlowMove env s t
  /-- and closed again, since `connect` failed -/
  | abandon {c : ConnectCall} {fd : Fd} : s.loop = .connect c fd →
      s.binding c.manager c.streamId = none → t = (s.closeFd fd).refuse env c → FlowMove env s t
  /-- a descriptor is registered -/
  | register {c : ConnectCall} {fd : Fd} {ok : Bool} : s.loop = .pushFd c fd →
      t = s.pushFd c fd ok → FlowMove env s t
  /-- its stream is stored -/
  | store {c : ConnectCall} {fd : Fd} : s.loop = .insert c fd →
      s.binding c.manager c.streamId = none → t = s.insertStream c fd → FlowMove env s t
  /-- the watcher moves -/
  | watch : WatchMove env s t → FlowMove env s t
  /-- the oldest closure finds nothing -/
  | skip {p : Pass} {rest : List Pass} : s.loop = .idle → s.deferred = p :: rest →
      (∀ m id, s.binding m id ≠ some p.fd) → t = s.skipDeferred rest → FlowMove env s t
  /-- the oldest closure sends its DATA -/
  | found {p : Pass} {rest : List Pass} {m : Nat} {id : UInt32} : s.loop = .idle →
      s.deferred = p :: rest → s.binding m id = some p.fd → t = s.runFound env p rest m id →
      FlowMove env s t
  /-- the closure closes the stream it found -/
  | close {p : Pass} {m : Nat} {id : UInt32} : s.loop = .closeFound p m id →
      s.binding m id = some p.fd → t = s.closeFound env p m id → FlowMove env s t

/-- The loop thread passes from one event to the next, or from one program point of
a closure's end to the next. -/
theorem Still.of_sameTable {l : LoopState} (h : SameTable s t) (hl : s.loop = l)
    (hs : l.pass? = none ∧ l.inserting? = none)
    (ht : t.loop.pass? = none ∧ t.loop.inserting? = none)
    (hkernel : t.kernel = s.kernel) (hdeferred : t.deferred = s.deferred)
    (hphase : t.watcher.phase = s.watcher.phase) (hevents : t.watcher.events = s.watcher.events)
    (hlog : Extends (Event.Idle s.binding) s.log t.log) : Still s t where
  kernel := hkernel
  binding := h.binding
  deferred := hdeferred
  phase := hphase
  events := hevents
  pass := by rw [ht.1, hl, hs.1]
  inserting := by rw [ht.2, hl, hs.2]
  log := hlog

theorem LoopMove.flowMove {l : LoopLabel} (hs : LoopMove env s l t) (hw : WellBound s)
    (hg : s.connectsUnused (.loop l) = true) (hc : Calm s) : FlowMove env s t := by
  have hidle : ∀ {l : LoopState}, l = .idle → l.pass? = none ∧ l.inserting? = none := by
    rintro l rfl
    exact ⟨rfl, rfl⟩
  obtain ⟨htab, hloop⟩ := hw
  cases hs with
  | opened hi =>
    refine .still ⟨rfl, State.binding_construct fun hm => ?_, rfl, rfl, rfl, rfl, rfl,
      State.extends_sendContinue (s := { s with id := s.id + 1, managers := _ })⟩
    exact Nat.lt_irrefl _ (htab.fresh _ hm)
  | info hi hm hp hty =>
    exact .still (.of_sameTable (.refl s) hi ⟨rfl, rfl⟩ (hidle hi) rfl rfl rfl rfl (.refl _ _))
  | other hi hm hp hct hd =>
    exact .still (.of_sameTable (.endHandshake s _) hi ⟨rfl, rfl⟩ (hidle hi) rfl rfl rfl rfl
      (.refl _ _))
  | connect hi hm hp hty hcm hid =>
    exact .still (.of_sameTable ((SameTable.endHandshake s _).trans (.setLoop _ _)) hi ⟨rfl, rfl⟩
      ⟨rfl, rfl⟩ rfl rfl rfl rfl (.refl _ _))
  | @refuse m view packet c hi hm hp hty hcm hid =>
    have hnone : s.binding c.manager c.streamId = none := by
      rw [hcm, hid]
      exact State.connectsUnused_connect hg hp hty
    exact .still (.of_sameTable ((SameTable.endHandshake s _).trans (.refuse _ _)) hi ⟨rfl, rfl⟩
      ⟨rfl, rfl⟩ rfl rfl rfl rfl (State.extends_refuse (s := s.endHandshake m) hnone))
  | @data m view packet hi hm hp hty =>
    have hsame : SameTable s ((s.endHandshake m).handleData env m packet).2 :=
      (SameTable.endHandshake s _).trans (.handleData _ _ _)
    have hlog : Extends (Event.Idle s.binding) s.log
        ((s.endHandshake m).handleData env m packet).2.log :=
      State.extends_handleData (s := s.endHandshake m)
    rw [State.handleData_frame] at hsame hlog ⊢
    exact .still (.of_sameTable hsame hi ⟨rfl, rfl⟩ (hidle hi) rfl rfl rfl rfl hlog)
  | @drain m hi hm =>
    have hsame : SameTable s (s.drain env m) := .drain s m
    have hlog : Extends (Event.Idle s.binding) s.log (s.drain env m).log :=
      State.extends_updateStreams (s := s.setBackpressure m false)
    rw [State.drain_frame] at hsame hlog ⊢
    exact .still (.of_sameTable hsame hi ⟨rfl, rfl⟩ (hidle hi) rfl rfl rfl rfl hlog)
  | close => cases hg
  | @deferred p rest hi hd =>
    rcases deferred_cases htab p rest rfl with ⟨heq, hfree⟩ | ⟨m, id, hb, heq⟩
    · exact .skip hi hd hfree heq
    · exact .found hi hd hb heq
  | socketFail hl =>
    exact .still (.of_sameTable (.refuse s _) hl ⟨rfl, rfl⟩ ⟨rfl, rfl⟩ rfl rfl rfl rfl
      (State.extends_refuse (hc.unused _ (hl ▸ rfl))))
  | socket hfd hl => exact .socket hfd hl rfl
  | connected hl =>
    exact .still (.of_sameTable (.setLoop s _) hl ⟨rfl, rfl⟩ ⟨rfl, rfl⟩ rfl rfl rfl rfl (.refl _ _))
  | connectFail hl => exact .abandon hl (hc.unused _ (hl ▸ rfl)) rfl
  | pushFd hl => exact .register hl rfl
  | insert hl hfree => exact .store hl (hc.unused _ (hl ▸ rfl)) rfl
  | listIds hl | closeNext hl | destruct hl =>
    -- no close handler runs
    have hno := hc.notClosing
    rw [hl] at hno
    cases hno
  | closeFound hl hfree =>
    rw [hl] at hloop
    exact .close hl hloop rfl
  | decrement hl =>
    exact .still (.of_sameTable (.of_eq rfl rfl rfl rfl) hl ⟨rfl, rfl⟩ ⟨rfl, rfl⟩ rfl rfl rfl rfl
      (.refl _ _))
  | check hl =>
    refine .still (.of_sameTable (.of_eq rfl rfl rfl rfl) hl ⟨rfl, rfl⟩ ?_ rfl rfl rfl rfl
      (.refl _ _))
    dsimp only [State.checkQueue]
    split <;> exact ⟨rfl, rfl⟩
  | sweepDone hl =>
    exact .still (.of_sameTable (.setLoop s _) hl ⟨rfl, rfl⟩ ⟨rfl, rfl⟩ rfl rfl rfl rfl (.refl _ _))
  | @sweep m ms hl =>
    have hsame : SameTable s { s.updateStreams env m with loop := .sweep ms } :=
      (SameTable.updateStreams s _).trans (.setLoop _ _)
    have hlog : Extends (Event.Idle s.binding) s.log (s.updateStreams env m).log :=
      State.extends_updateStreams
    rw [State.updateStreams_frame] at hsame hlog ⊢
    exact .still (.of_sameTable hsame hl ⟨rfl, rfl⟩ ⟨rfl, rfl⟩ rfl rfl rfl rfl hlog)

theorem WorkerMove.still {l : WorkerLabel} (hs : WorkerMove env s l t) : Still s t := by
  have hlog : Extends (Event.Idle s.binding) s.log t.log := by
    cases hs with
    | begin => exact .snoc trivial
    | fault => exact .snoc trivial
    | write => exact .snoc trivial
    | _ => exact .refl _ _
  have hbinding := hs.sameTable.binding
  rw [hs.frame] at hlog hbinding ⊢
  exact ⟨rfl, hbinding, rfl, rfl, rfl, rfl, rfl, hlog⟩

/-- **What a step means for the way from the targets to the clients.** -/
theorem step_flowMove {l : Label} (hs : s.step env l = some t) (hw : WellBound s)
    (hg : s.connectsUnused l = true) (hc : Calm s) : FlowMove env s t := by
  cases l with
  | loop l => exact (loopStep_cases hs).flowMove hw hg hc
  | watch l => exact .watch (watchStep_cases hs)
  | worker l => exact .still (workerStep_cases hs).still
  | rehash m' streams =>
    obtain ⟨hsame, hframe⟩ := State.rehash_frame hs
    have hbinding := hsame.binding
    rw [hframe] at hbinding ⊢
    exact .still ⟨rfl, hbinding, rfl, rfl, rfl, rfl, rfl, .refl _ _⟩
  | rehashSockets ms =>
    obtain ⟨-, -, rfl⟩ := State.rehashSockets_frame hs
    exact .still ⟨rfl, rfl, rfl, rfl, rfl, rfl, rfl, .refl _ _⟩

end Woeful
