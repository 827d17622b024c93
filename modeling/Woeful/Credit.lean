import Woeful.Bindings

/-!
# Credit

A stream's `buffer` is the number of packets the client may still send. It is
renewed in three places, under three conditions: in `handle_data` when the last
credit is used, at the end of every deferred closure, and when the websocket
drains. The last two call `update_streams`, which does nothing while there is
backpressure; the first one renews only *while* there is backpressure.

An exhausted stream is therefore all right as long as one of the other two is
still to come (`Awaited`), and that is so unless the DATA that exhausts it comes
with no backpressure and no closure pending. `State.exhaustsCovered` rules this
out; `stranded_counterexample` is an upload with nothing else going on.
-/

namespace Woeful

open Memory Transition

variable {env : Env} {s t : State} {m m' : Nat} {id id' : UInt32}

/-! ## What the functions do to streams and backpressure -/

namespace State

theorem stream_of_managers (h : t.managers = s.managers) : t.stream = s.stream := by
  funext m' id
  rw [stream, stream, h]

theorem hasBackpressure_of_managers (h : t.managers = s.managers) :
    t.hasBackpressure m = s.hasBackpressure m := by
  rw [hasBackpressure, hasBackpressure, h]

/-- An update that leaves `has_backpressure` alone. -/
theorem hasBackpressure_modifyManager {f : WebSocketManager → WebSocketManager}
    (hf : ∀ manager, (f manager).hasBackpressure = manager.hasBackpressure) :
    (s.modifyManager m f).hasBackpressure m' = s.hasBackpressure m' := by
  by_cases h : m' = m
  · subst h
    rw [hasBackpressure, hasBackpressure, lookup_modifyManager_self]
    cases s.managers.lookup m' with
    | none => rfl
    | some manager => exact hf manager
  · rw [hasBackpressure, hasBackpressure, lookup_modifyManager_ne h]

@[simp] theorem stream_setBackpressure {b : Bool} : (s.setBackpressure m b).stream = s.stream :=
  stream_modifyManager fun _ => rfl

theorem hasBackpressure_setBackpressure_ne {b : Bool} (h : m' ≠ m) :
    (s.setBackpressure m b).hasBackpressure m' = s.hasBackpressure m' := by
  rw [hasBackpressure, hasBackpressure, setBackpressure, lookup_modifyManager_ne h]

/-- Backpressure that is set is set for one manager, or was there. -/
theorem hasBackpressure_setBackpressure_true (h : s.hasBackpressure m' = true) :
    (s.setBackpressure m true).hasBackpressure m' = true := by
  by_cases hm : m' = m
  · subst hm
    rw [hasBackpressure] at h ⊢
    rw [setBackpressure, lookup_modifyManager_self]
    cases hl : s.managers.lookup m' with
    | none =>
      rw [hl] at h
      cases h
    | some manager => rfl
  · rw [hasBackpressure_setBackpressure_ne hm]
    exact h

theorem stream_setBuffer {buffer : UInt32} :
    (s.setBuffer m id buffer).stream m' id' =
      if m' = m ∧ id' = id then (s.stream m id).map ({ · with buffer := buffer })
      else s.stream m' id' := by
  by_cases h : m' = m
  · subst h
    rw [setBuffer, stream_modifyManager_self, stream, stream]
    cases s.managers.lookup m' with
    | none => simp
    | some manager =>
      by_cases hid : id' = id
      · subst hid
        simp
      · simp [hid, AList.lookup_modify_ne]
  · rw [setBuffer, stream_modifyManager_ne h, if_neg (fun h' => h h'.1)]

/-- When `update_streams` does anything. -/
def renews (s : State) (m : Nat) : Prop :=
  s.hasBackpressure m = false ∧ s.watcher.sendQueueLen ≤ maxQueue

theorem updateStreams_of_not_renews (h : ¬ s.renews m) : s.updateStreams env m = s := by
  rw [updateStreams, if_pos]
  rw [renews, not_and_or, Bool.not_eq_false, Nat.not_le] at h
  rcases h with hb | hq
  · rw [hb, Bool.true_or]
  · rw [decide_eq_true hq, Bool.or_true]

/-- The test at the head of `update_streams`, where it lets the sweep through. -/
theorem guard_of_renews (h : s.renews m) :
    ¬ (s.hasBackpressure m || decide (s.watcher.sendQueueLen > maxQueue)) = true := by
  rw [h.1, Bool.false_or, decide_eq_true_iff, gt_iff_lt, Nat.not_lt]
  exact h.2

/-- A loop of `send_continue` calls leaves the managers alone. -/
theorem managers_foldl_sendContinue {A : Type} (f : A → UInt32) (l : List A) (s : State) :
    (l.foldl (fun s a => s.sendContinue env m bufferCount (f a)) s).managers = s.managers := by
  rw [foldl_sendContinue_frame]

theorem stream_updateStreams (h : s.renews m) :
    (s.updateStreams env m).stream m' id' =
      if m' = m then (s.stream m' id').map SocketStreamData.renew else s.stream m' id' := by
  rw [updateStreams, if_neg (guard_of_renews h)]
  split
  · rename_i hm
    split
    · rename_i he
      subst he
      rw [stream, hm]
      rfl
    · rfl
  · rename_i manager hm
    dsimp only
    split
    · rename_i he
      subst he
      rw [stream_modifyManager_self, managers_foldl_sendContinue, stream, hm]
      exact AList.lookup_mapWithKey _ _ _
    · rename_i he
      rw [stream_modifyManager_ne he]
      exact congrFun (congrFun (stream_of_managers (managers_foldl_sendContinue _ _ s)) m') id'

theorem hasBackpressure_updateStreams :
    (s.updateStreams env m).hasBackpressure m' = s.hasBackpressure m' := by
  rw [updateStreams]
  split
  · rfl
  · split
    · rfl
    · dsimp only
      refine Eq.trans (hasBackpressure_modifyManager ?_) ?_
      · exact fun _ => rfl
      exact hasBackpressure_of_managers (managers_foldl_sendContinue _ _ s)

/-- A stream after a DATA. -/
theorem stream_handleData {packet : WispPacket} {d : SocketStreamData}
    (hd : s.stream m packet.streamId = some d) :
    (s.handleData env m packet).2.stream m' id' =
      if m' = m ∧ id' = packet.streamId ∧ d.streamType ≠ 0x02 then
        some { d with buffer :=
          if d.buffer - 1 = 0 ∧ s.hasBackpressure m = true ∧ s.watcher.sendQueueLen < maxQueue
          then bufferCount else d.buffer - 1 }
      else s.stream m' id' := by
  have hset : ∀ (task : WriteTask) (buffer : UInt32),
      ((s.submitTask task).setBuffer m packet.streamId buffer).stream m' id' =
      if m' = m ∧ id' = packet.streamId then some { d with buffer := buffer }
      else s.stream m' id' := by
    intro task buffer
    rw [stream_setBuffer]
    change (if _ then (s.stream m packet.streamId).map _ else s.stream m' id') = _
    rw [hd]
    rfl
  rw [handleData, hd]
  dsimp only
  by_cases htype : d.streamType = 0x02
  · rw [if_neg (fun h => h htype), if_neg (fun h => h.2.2 htype)]
    rfl
  · have hcond : (m' = m ∧ id' = packet.streamId ∧ d.streamType ≠ 0x02) ↔
        (m' = m ∧ id' = packet.streamId) :=
      ⟨fun h => ⟨h.1, h.2.1⟩, fun h => ⟨h.1, h.2, htype⟩⟩
    rw [if_pos htype, if_congr hcond rfl rfl]
    split
    · rename_i hrenew
      have hrenew : d.buffer - 1 = 0 ∧ s.hasBackpressure m = true ∧
          s.watcher.sendQueueLen < maxQueue := hrenew
      rw [if_pos hrenew]
      exact hset _ bufferCount
    · rename_i hrenew
      have hrenew : ¬ (d.buffer - 1 = 0 ∧ s.hasBackpressure m = true ∧
          s.watcher.sendQueueLen < maxQueue) := hrenew
      rw [if_neg hrenew]
      exact hset _ _

theorem hasBackpressure_handleData {packet : WispPacket} :
    (s.handleData env m packet).2.hasBackpressure m' = s.hasBackpressure m' := by
  rw [handleData]
  split
  · rfl
  · dsimp only
    split
    · split <;> exact hasBackpressure_modifyManager fun _ => rfl
    · rfl

end State

/-! ## Pending closures are counted -/

namespace LoopState

/-- Whether the closure that runs is still counted. -/
def counted : LoopState → Nat
  | closeFound _ _ _ => 1
  | decrement => 1
  | _ => 0

end LoopState

namespace WatcherPhase

/-- Whether the pass of the watcher is counted already. -/
def counted : WatcherPhase → Nat
  | deferring _ => 1
  | _ => 0

end WatcherPhase

/-- `send_queue_len` counts the closures that are pending: about to be deferred,
queued, or running. In particular its decrement never wraps. -/
def Counted (s : State) : Prop :=
  s.watcher.sendQueueLen =
    s.watcher.phase.counted + s.deferred.length + s.loop.counted

theorem Counted.watchMove (hs : WatchMove env s t) (h : Counted s) : Counted t := by
  rw [Counted] at h ⊢
  rw [hs.loop]
  cases hs with
  | wait hp | done hp | start hp | erase hp =>
    rw [hp] at h
    exact h
  | skip hp => exact h
  | @read p result hp hr =>
    rw [hp] at h
    have hafter : (State.afterRead (p.read ⟨s.kernel.sockAt p.fd, result⟩) result).counted = 0 := by
      cases result with
      | bytes buf =>
        rw [State.afterRead]
        split <;> rfl
      | _ => rfl
    change s.watcher.sendQueueLen =
      (State.afterRead (p.read ⟨s.kernel.sockAt p.fd, result⟩) result).counted + _ + _
    rw [hafter]
    exact h
  | count hp =>
    rw [hp] at h
    change s.watcher.sendQueueLen + 1 = 1 + s.deferred.length + s.loop.counted
    simp only [WatcherPhase.counted] at h
    omega
  | defer hp =>
    rw [hp] at h
    change s.watcher.sendQueueLen = 0 + (s.deferred ++ [_]).length + s.loop.counted
    simp only [WatcherPhase.counted] at h
    simp
    omega

/-- Only the loop thread decrements `send_queue_len`. -/
theorem WatchMove.sendQueueLen_le (hs : WatchMove env s t) :
    s.watcher.sendQueueLen ≤ t.watcher.sendQueueLen := by
  cases hs with
  | count hp => exact Nat.le_succ _
  | _ => exact Nat.le_refl _

theorem Counted.loopMove {l : LoopLabel} (hs : LoopMove env s l t) (hw : WellBound s)
    (h : Counted s) : Counted t := by
  -- a step that only takes the loop thread from one point to another like it
  have hmove : ∀ {l l' : LoopState}, s.loop = l → t.loop = l' → l'.counted = l.counted →
      t.watcher.sendQueueLen = s.watcher.sendQueueLen → t.watcher.phase = s.watcher.phase →
      t.deferred = s.deferred → Counted t := by
    intro l l' hl hl' hc hq hp hd
    rw [Counted, hq, hp, hd, hl', hc, ← hl]
    exact h
  cases hs with
  | opened hi => exact hmove hi hi rfl rfl rfl rfl
  | info hi hm hp hty => exact h
  | other hi hm hp hc hd => exact hmove hi hi rfl rfl rfl rfl
  | connect hi hm hp hty hcm hid => exact hmove hi rfl rfl rfl rfl rfl
  | refuse hi hm hp hty hcm hid => exact hmove hi rfl rfl rfl rfl rfl
  | data hi hm hp hty =>
    rw [State.handleData_frame] at hmove ⊢
    exact hmove hi hi rfl rfl rfl rfl
  | drain hi hm =>
    rw [State.drain_frame] at hmove ⊢
    exact hmove hi hi rfl rfl rfl rfl
  | close hi hm => exact hmove hi rfl rfl rfl rfl rfl
  | @deferred p rest hi hd =>
    rw [Counted, hi, hd] at h
    rcases deferred_cases hw.table p rest rfl with ⟨heq, -⟩ | ⟨m, id, -, heq⟩
    · rw [heq]
      change s.watcher.sendQueueLen = s.watcher.phase.counted + rest.length + 1
      rw [h, List.length_cons]
      rfl
    · rw [heq, Counted, State.runFound_frame]
      have hcount :
          (if p.toClose then LoopState.closeFound p m id else .decrement).counted = 1 := by
        split <;> rfl
      change s.watcher.sendQueueLen = s.watcher.phase.counted + rest.length + _
      rw [hcount, h, List.length_cons]
      rfl
  | socketFail hl => exact hmove hl rfl rfl rfl rfl rfl
  | socket hnone hl => exact hmove hl rfl rfl rfl rfl rfl
  | connected hl => exact hmove hl rfl rfl rfl rfl rfl
  | connectFail hl => exact hmove hl rfl rfl rfl rfl rfl
  | pushFd hl => exact hmove hl rfl rfl rfl rfl rfl
  | insert hl hfree => exact hmove hl rfl rfl rfl rfl rfl
  | listIds hl hfree => exact hmove hl rfl rfl rfl rfl rfl
  | closeNext hl hfree => exact hmove hl rfl rfl rfl rfl rfl
  | destruct hl => exact hmove hl rfl rfl rfl rfl rfl
  | closeFound hl hfree => exact hmove hl rfl rfl rfl rfl rfl
  | decrement hl =>
    rw [Counted, hl] at h
    change s.watcher.sendQueueLen - 1 = s.watcher.phase.counted + s.deferred.length + 0
    rw [h]
    rfl
  | check hl =>
    refine hmove hl rfl ?_ rfl rfl rfl
    rw [State.checkQueue]
    dsimp only
    split <;> rfl
  | sweepDone hl => exact hmove hl rfl rfl rfl rfl rfl
  | sweep hl =>
    rw [State.updateStreams_frame] at hmove ⊢
    exact hmove hl rfl rfl rfl rfl rfl

theorem Counted.initial (env : Env) : Counted (State.initial env) := by
  rw [Counted]
  rfl

theorem Counted.step {l : Label} (hs : s.step env l = some t) (hw : WellBound s)
    (h : Counted s) : Counted t := by
  cases l with
  | loop l => exact h.loopMove (loopStep_cases hs) hw
  | watch l => exact h.watchMove (watchStep_cases hs)
  | worker l =>
    rw [(workerStep_cases hs).frame]
    exact h
  | rehash m streams =>
    rw [(State.rehash_frame hs).2]
    exact h
  | rehashSockets ms =>
    obtain ⟨-, -, rfl⟩ := State.rehashSockets_frame hs
    exact h

/-! ## Exhausted streams are waited for -/

namespace LoopState

/-- Whether the loop thread is about to renew, or to close, the streams of `m`. -/
def Renewing (m : Nat) : LoopState → Prop
  | check => True
  | sweep ms => m ∈ ms
  | forceClose m' => m' = m
  | closing m' _ => m' = m
  | _ => False

end LoopState

/-- An exhausted stream has its renewal before it: its websocket still has to drain,
a closure is pending, or the loop thread is on its way. -/
def Awaited (s : State) : Prop :=
  ∀ m id d, s.stream m id = some d → d.streamType ≠ 0x02 → d.buffer = 0 →
    s.hasBackpressure m = true ∨ 0 < s.watcher.sendQueueLen ∨ s.loop.Renewing m

/-- The condition on a step: a DATA that takes the last credit of a stream comes
while there is backpressure or a closure is pending. -/
def State.exhaustsCovered (s : State) : Label → Bool
  | .loop (.message m view) =>
    match WispPacket.parse view (UInt64.ofNat view.length) with
    | .ok packet =>
      packet.packetType ≠ packetData ||
        (s.stream m packet.streamId).all fun d =>
          d.streamType = 0x02 || d.buffer ≠ 1 || s.hasBackpressure m ||
            0 < s.watcher.sendQueueLen
    | .error _ => true
  | _ => true

/-- A step that touches no stream and takes no renewal away. -/
theorem Awaited.of_same (h : Awaited s) (hstream : t.stream = s.stream)
    (hback : ∀ m, s.hasBackpressure m = true → t.hasBackpressure m = true)
    (hqueue : s.watcher.sendQueueLen ≤ t.watcher.sendQueueLen)
    (hloop : ∀ m, s.loop.Renewing m → t.loop.Renewing m) : Awaited t := by
  intro m id d hd htype hzero
  rw [hstream] at hd
  rcases h m id d hd htype hzero with hb | hq | hl
  · exact Or.inl (hback m hb)
  · exact Or.inr (Or.inl (Nat.lt_of_lt_of_le hq hqueue))
  · exact Or.inr (Or.inr (hloop m hl))

namespace State

theorem stream_construct (hm : s.id ∉ s.managers) : (s.construct env).stream = s.stream := by
  funext m' id
  change ((s.managers.insert s.id {}).lookup m').bind
    (fun manager => manager.streams.lookup id) = _
  by_cases h : m' = s.id
  · subst h
    rw [AList.lookup_insert, stream, AList.lookup_eq_none.mpr hm]
    rfl
  · rw [AList.lookup_insert_ne h]
    rfl

theorem hasBackpressure_construct (h : m ≠ s.id) :
    (s.construct env).hasBackpressure m = s.hasBackpressure m := by
  change ((s.managers.insert s.id {}).lookup m).elim false _ = _
  rw [AList.lookup_insert_ne h]
  rfl

theorem stream_destruct :
    (s.destruct m).stream m' id = if m' = m then none else s.stream m' id := by
  change ((s.managers.erase m).lookup m').bind (fun manager => manager.streams.lookup id) = _
  split
  · rename_i h
    subst h
    rw [AList.lookup_erase]
    rfl
  · rename_i h
    rw [AList.lookup_erase_ne h]
    rfl

theorem hasBackpressure_destruct (h : m' ≠ m) :
    (s.destruct m).hasBackpressure m' = s.hasBackpressure m' := by
  change ((s.managers.erase m).lookup m').elim false _ = _
  rw [AList.lookup_erase_ne h]
  rfl

theorem hasBackpressure_closeStream {removePoll : Bool} {origin : Origin} :
    (s.closeStream env m id removePoll origin).hasBackpressure m' = s.hasBackpressure m' := by
  cases removePoll <;> exact (hasBackpressure_modifyManager fun _ => rfl)

@[simp] theorem stream_runFound {p : Pass} {rest : List Pass} :
    (s.runFound env p rest m id).stream = s.stream := by
  rw [runFound, deliver]
  split
  · exact stream_setBackpressure
  · rfl

theorem hasBackpressure_runFound {p : Pass} {rest : List Pass}
    (h : s.hasBackpressure m' = true) :
    (s.runFound env p rest m id).hasBackpressure m' = true := by
  rw [runFound, deliver]
  split
  · exact hasBackpressure_setBackpressure_true (s := (State.sendData env _ m id _ _).2) h
  · exact h

theorem mem_managers_of_stream {d : SocketStreamData} (h : s.stream m id = some d) :
    m ∈ s.managers :=
  mem_managers_of_binding (binding_eq_some.mpr ⟨d, h, rfl⟩)

end State

namespace Awaited

/-- What an exhausted stream waits for, if renewals on their way lead to `P`. -/
theorem waits {P : Prop} {d : SocketStreamData} (h : Awaited s) (hd : s.stream m id = some d)
    (htype : d.streamType ≠ 0x02) (hzero : d.buffer = 0) (hP : s.loop.Renewing m → P) :
    s.hasBackpressure m = true ∨ 0 < s.watcher.sendQueueLen ∨ P := by
  rcases h m id d hd htype hzero with hb | hq | hr
  · exact Or.inl hb
  · exact Or.inr (Or.inl hq)
  · exact Or.inr (Or.inr (hP hr))

/-- A renewed stream is not exhausted. -/
theorem renew_ne_zero (d : SocketStreamData) : d.renew.buffer ≠ 0 := by
  rw [SocketStreamData.renew]
  split
  · exact (by decide : bufferCount ≠ 0)
  · assumption

/-- `update_streams` renews the streams of its manager, or leaves it waiting for
something else. -/
theorem updateStreams (h : ∀ m' id d, s.stream m' id = some d → m' ≠ m → d.streamType ≠ 0x02 →
      d.buffer = 0 → s.hasBackpressure m' = true ∨ 0 < s.watcher.sendQueueLen ∨
        t.loop.Renewing m')
    (ht : t = { s.updateStreams env m with loop := t.loop }) : Awaited t := by
  have hqueue : t.watcher.sendQueueLen = s.watcher.sendQueueLen := by
    rw [ht, State.updateStreams_frame]
  have hback : ∀ m', t.hasBackpressure m' = s.hasBackpressure m' := by
    intro m'
    rw [ht]
    exact State.hasBackpressure_updateStreams
  intro m' id d hd htype hzero
  rw [hback, hqueue]
  rw [show t.stream = (s.updateStreams env m).stream from by rw [ht]; rfl] at hd
  by_cases hr : s.renews m
  · rw [State.stream_updateStreams hr] at hd
    split at hd
    · obtain ⟨d', -, rfl⟩ := Option.map_eq_some_iff.mp hd
      exact absurd hzero (renew_ne_zero d')
    · rename_i hne
      exact h m' id d hd hne htype hzero
  · rw [State.updateStreams_of_not_renews hr] at hd
    by_cases hne : m' = m
    · subst hne
      rw [State.renews, not_and_or, Bool.not_eq_false, Nat.not_le] at hr
      rcases hr with hb | hq
      · exact Or.inl hb
      · exact Or.inr (Or.inl (Nat.zero_lt_of_lt hq))
    · exact h m' id d hd hne htype hzero

/-- A DATA exhausts its stream only under cover. -/
theorem handleData {packet : WispPacket} (h : Awaited s)
    (hg : ∀ d, s.stream m packet.streamId = some d → d.streamType ≠ 0x02 → d.buffer = 1 →
      s.hasBackpressure m = true ∨ 0 < s.watcher.sendQueueLen) :
    Awaited (s.handleData env m packet).2 := by
  cases hs : s.stream m packet.streamId with
  | none =>
    rw [State.handleData, hs]
    exact h
  | some d =>
    have hframe := @State.handleData_frame env s m packet
    intro m' id d' hd' htype hzero
    rw [State.hasBackpressure_handleData, hframe]
    rw [State.stream_handleData hs] at hd'
    split at hd'
    · rename_i hkey
      obtain ⟨rfl, -, htcp⟩ := hkey
      obtain rfl := Option.some.inj hd'
      dsimp only at hzero
      split at hzero
      · cases hzero
      · have hone : d.buffer = 1 := by
          have := congrArg (· + 1) hzero
          simpa using this
        rcases hg d hs htcp hone with hb | hq
        · exact Or.inl hb
        · exact Or.inr (Or.inl hq)
    · exact h m' id d' hd' htype hzero

/-- Closing a stream takes away one that might have been waited for. -/
theorem closeStream {removePoll : Bool} {origin : Origin} {l : LoopState} (h : Awaited s)
    (hl : ∀ m', s.loop.Renewing m' → l.Renewing m') :
    Awaited { s.closeStream env m id removePoll origin with loop := l } := by
  have hqueue : (s.closeStream env m id removePoll origin).watcher.sendQueueLen =
      s.watcher.sendQueueLen := by
    cases removePoll <;> rfl
  intro m' id' d hd htype hzero
  change (s.closeStream env m id removePoll origin).stream m' id' = some d at hd
  change (s.closeStream env m id removePoll origin).hasBackpressure m' = true ∨
    0 < (s.closeStream env m id removePoll origin).watcher.sendQueueLen ∨ l.Renewing m'
  rw [State.hasBackpressure_closeStream, hqueue]
  rw [State.stream_closeStream] at hd
  split at hd
  · cases hd
  · exact h.waits hd htype hzero (hl m')

theorem loopMove {l : LoopLabel} (hs : LoopMove env s l t) (hw : WellBound s)
    (hg : s.exhaustsCovered (.loop l) = true) (h : Awaited s) : Awaited t := by
  -- at most points of the loop thread no renewal is on its way
  have hno : ∀ {l : LoopState}, s.loop = l → (∀ m, ¬ l.Renewing m) → ∀ m, ¬ s.loop.Renewing m :=
    fun hl hr m hm => hr m (hl ▸ hm)
  have hnone : ∀ {l : LoopState} {P : Nat → Prop}, s.loop = l → (∀ m, ¬ l.Renewing m) →
      ∀ m, s.loop.Renewing m → P m :=
    fun hl hr m hm => absurd hm (hno hl hr m)
  have hend : ∀ m m', (s.endHandshake m).hasBackpressure m' = s.hasBackpressure m' := by
    intro m m'
    refine State.hasBackpressure_modifyManager fun manager => ?_
    split <;> rfl
  have hstream : ∀ m, (s.endHandshake m).stream = s.stream := fun _ => State.stream_endHandshake
  have hback : ∀ m m', s.hasBackpressure m' = true →
      (s.endHandshake m).hasBackpressure m' = true :=
    fun m m' hb => (hend m m').trans hb
  cases hs with
  | opened hi =>
    have hfresh : s.id ∉ s.managers := fun hm => Nat.lt_irrefl _ (hw.table.fresh _ hm)
    intro m id d hd htype hzero
    rw [State.stream_construct hfresh] at hd
    have hne : m ≠ s.id := fun he => hfresh (he ▸ State.mem_managers_of_stream hd)
    rw [State.hasBackpressure_construct hne]
    exact h m id d hd htype hzero
  | info hi hm hp hty => exact h
  | other hi hm hp hc hd =>
    exact h.of_same (hstream _) (hback _) (Nat.le_refl _) (hnone hi fun _ hr => hr)
  | connect hi hm hp hty hcm hid =>
    exact h.of_same (hstream _) (hback _) (Nat.le_refl _) (hnone hi fun _ hr => hr)
  | refuse hi hm hp hty hcm hid =>
    exact h.of_same (hstream _) (hback _) (Nat.le_refl _) (hnone hi fun _ hr => hr)
  | @data m view packet hi hm hp hty =>
    have hcover : Awaited (s.endHandshake m) :=
      h.of_same (hstream m) (hback m) (Nat.le_refl _) (hnone hi fun _ hr => hr)
    refine hcover.handleData fun d hd htype hone => ?_
    rw [hstream] at hd
    rw [State.exhaustsCovered, hp] at hg
    have hcovered : s.hasBackpressure m = true ∨ 0 < s.watcher.sendQueueLen := by
      simpa [hd, hty, htype, hone] using hg
    rw [hend]
    exact hcovered
  | @drain m hi hm =>
    -- the drained websocket is renewed; the others wait for what they waited for
    refine updateStreams (s := s.setBackpressure m false) (fun m' id d hd hne htype hzero => ?_)
      (by rw [State.drain, State.updateStreams_frame])
    rw [State.stream_setBackpressure] at hd
    rw [State.hasBackpressure_setBackpressure_ne hne]
    exact h.waits hd htype hzero (absurd · (hno hi (fun _ hr => hr) m'))
  | @close m hi hm =>
    intro m' id d hd htype hzero
    change (s.setBackpressure m false).stream m' id = some d at hd
    rw [State.stream_setBackpressure] at hd
    by_cases he : m = m'
    · -- a stream of a websocket that closes waits for its own end
      exact Or.inr (Or.inr he)
    · change (s.setBackpressure m false).hasBackpressure m' = true ∨ _
      rw [State.hasBackpressure_setBackpressure_ne (Ne.symm he)]
      exact h.waits hd htype hzero (absurd · (hno hi (fun _ hr => hr) m'))
  | @deferred p rest hi hd =>
    rcases deferred_cases hw.table p rest rfl with ⟨heq, -⟩ | ⟨m, id, -, heq⟩
    · rw [heq]
      exact h.of_same rfl (fun _ hb => hb) (Nat.le_refl _) (hnone hi fun _ hr => hr)
    · rw [heq]
      refine h.of_same State.stream_runFound (fun _ => State.hasBackpressure_runFound) ?_
        (hnone hi fun _ hr => hr)
      rw [State.runFound_frame]
  | socketFail hl =>
    exact h.of_same rfl (fun _ hb => hb) (Nat.le_refl _) (hnone hl fun _ hr => hr)
  | socket hfd hl =>
    exact h.of_same rfl (fun _ hb => hb) (Nat.le_refl _) (hnone hl fun _ hr => hr)
  | connected hl =>
    exact h.of_same rfl (fun _ hb => hb) (Nat.le_refl _) (hnone hl fun _ hr => hr)
  | connectFail hl =>
    exact h.of_same rfl (fun _ hb => hb) (Nat.le_refl _) (hnone hl fun _ hr => hr)
  | pushFd hl =>
    exact h.of_same rfl (fun _ hb => hb) (Nat.le_refl _) (hnone hl fun _ hr => hr)
  | @insert c fd hl hfree =>
    have halive : c.manager ∈ s.managers := by
      have hloop := hw.loop
      rw [hl] at hloop
      exact hloop.alive
    intro m id d hd htype hzero
    have hb : (s.insertStream c fd).hasBackpressure m = s.hasBackpressure m :=
      State.hasBackpressure_modifyManager fun _ => rfl
    rw [State.stream_insertStream halive] at hd
    rw [hb]
    split at hd
    · obtain rfl := Option.some.inj hd
      cases hzero
    · exact h.waits hd htype hzero (absurd · (hno hl (fun _ hr => hr) m))
  | listIds hl hfree =>
    refine h.of_same rfl (fun _ hb => hb) (Nat.le_refl _) fun m' hr => ?_
    rw [hl] at hr
    exact hr
  | closeNext hl hfree =>
    refine h.closeStream fun m' hr => ?_
    rw [hl] at hr
    exact hr
  | @destruct m hl =>
    intro m' id d hd htype hzero
    rw [State.stream_destruct] at hd
    split at hd
    · cases hd
    · rename_i hne
      rw [State.hasBackpressure_destruct hne]
      refine h.waits hd htype hzero fun hr => ?_
      rw [hl] at hr
      exact absurd hr.symm hne
  | closeFound hl hfree => exact h.closeStream (hnone hl fun _ hr => hr)
  | decrement hl => exact fun _ _ _ _ _ _ => Or.inr (Or.inr trivial)
  | check hl =>
    intro m id d hd htype hzero
    rw [State.checkQueue]
    dsimp only
    split
    · refine Or.inr (Or.inr ((hw.table.watched m).mpr ?_))
      exact State.mem_managers_of_stream (s := s) hd
    · rename_i hlt
      refine Or.inr (Or.inl ?_)
      exact Nat.lt_of_lt_of_le (by decide) (Nat.not_lt.mp hlt)
  | sweepDone hl =>
    refine h.of_same rfl (fun _ hb => hb) (Nat.le_refl _) fun m hr => ?_
    rw [hl] at hr
    cases hr
  | @sweep m ms hl =>
    refine updateStreams (fun m' id d hd hne htype hzero => ?_) rfl
    refine h.waits hd htype hzero fun hr => ?_
    rw [hl] at hr
    exact (List.mem_cons.mp hr).resolve_left hne

/-- **A step that exhausts no stream uncovered leaves none waiting in vain.** -/
theorem step {l : Label} (hs : s.step env l = some t) (hw : WellBound s)
    (hg : s.exhaustsCovered l = true) (h : Awaited s) : Awaited t := by
  cases l with
  | loop l => exact h.loopMove (loopStep_cases hs) hw hg
  | watch l =>
    have hmove := watchStep_cases hs
    refine h.of_same (State.stream_of_managers hmove.managers) (fun m hb => ?_) ?_ fun m hr => ?_
    · rw [State.hasBackpressure_of_managers hmove.managers]
      exact hb
    · cases hmove with
      | count hp => exact Nat.le_succ _
      | _ => exact Nat.le_refl _
    · rw [hmove.loop]
      exact hr
  | worker l =>
    rw [(workerStep_cases hs).frame]
    exact h
  | rehash m streams =>
    have hframe := (State.rehash_frame hs).2
    refine h.of_same (State.stream_rehash hs) (fun m' hb => ?_) (by rw [hframe]) fun m' hr => ?_
    · rw [State.step, State.rehash] at hs
      split at hs
      · cases hs
      · rw [Option.ite_none_right_eq_some] at hs
        obtain ⟨-, hs⟩ := hs
        obtain rfl := Option.some.inj hs
        refine Eq.trans (State.hasBackpressure_modifyManager ?_) hb
        exact fun _ => rfl
    · rw [hframe]
      exact hr
  | rehashSockets ms =>
    obtain ⟨hi, -, rfl⟩ := State.rehashSockets_frame hs
    exact h.of_same rfl (fun _ hb => hb) (Nat.le_refl _) fun _ hr => hr

theorem initial (env : Env) : Awaited (State.initial env) :=
  fun _ _ _ hd => nomatch hd

end Awaited

/-! ## No stream is stranded -/

/-- Between two events, with no closure pending and no backpressure, every TCP
stream has credit. -/
def NotStranded (s : State) : Prop :=
  s.loop = .idle → s.watcher.sendQueueLen = 0 → ∀ m, s.hasBackpressure m = false →
    ∀ id d, s.stream m id = some d → d.streamType = 0x01 → 0 < d.buffer

theorem NotStranded.of_awaited (h : Awaited s) : NotStranded s := by
  intro hi hq m hb id d hd htype
  rw [UInt32.pos_iff_ne_zero]
  intro hzero
  rcases h m id d hd (by rw [htype]; decide) hzero with hb' | hq' | hr
  · rw [hb] at hb'
    cases hb'
  · omega
  · rw [hi] at hr
    exact hr

/-- **Flow control strands no stream**, in every run in which the last credit of a
stream is used only while there is backpressure or a closure is pending. -/
theorem not_stranded (h : (server env).Reaches (fun s l => s.exhaustsCovered l = true) s) :
    NotStranded s := by
  have hawaited : Awaited s :=
    h.invariant_of (fun _ => WellBound.of_reaches) (.initial env)
      fun _ _ _ hg hst hw ha => ha.step hst hw hg
  exact .of_awaited hawaited

/-- **`send_queue_len` is the number of pending closures**, in every reachable state. -/
theorem sendQueueLen_eq (h : (server env).Reachable s) :
    s.watcher.sendQueueLen =
      s.watcher.phase.counted + s.deferred.length + s.loop.counted := by
  have hcounted : Counted s :=
    h.invariant_of (fun _ => WellBound.of_reaches) (.initial env)
      fun _ _ _ _ hst hw hc => hc.step hst hw
  exact hcounted

/-- An upload that uses up its credit while a closure is pending. -/
def uploadWithDownload : List Label :=
  [.loop .opened] ++ connectLabels 0 1 7 ++ passLabels 7 [.bytes [104, 105], .again] ++
    List.replicate 127 (dataLabel 0 1 [0]) ++
    [.loop .deferred, .loop .resume, .loop .resume, .loop .resume, .loop .resume]

theorem not_stranded_uploadWithDownload :
    NotStranded ((server {}).final (fun s l => s.exhaustsCovered l = true) uploadWithDownload) :=
  not_stranded (System.reaches_final _ _ _ (by decide +kernel))

/-- An upload that uses up its credit, and nothing else. -/
def uploadOnly : List Label :=
  [.loop .opened] ++ connectLabels 0 1 7 ++ List.replicate 127 (dataLabel 0 1 [0])

/-- **The stranded upload**: after 127 packets the client has no credit, and no event
is to come that would renew it. -/
theorem stranded_counterexample :
    ¬ ∀ (env : Env) (s : State), (server env).Reachable s → NotStranded s := by
  intro h
  have hcredit := h {} _ ((server {}).reaches_final (fun _ _ => True) uploadOnly
    (by decide +kernel))
  have hpos := hcredit (by decide +kernel) (by decide +kernel) 0 (by decide +kernel) 1 ⟨1, 1, 7, 0⟩
    (by decide +kernel) (by decide)
  exact absurd hpos (by decide)

end Woeful
