import Woeful.Server

/-!
# What the handlers see of the queue

Nothing: with other tasks before those in the queue (`State.behind`) the same steps are
possible, and do the same (`step_behind`), the one step of a free worker apart.
-/

namespace Woeful

open Memory

namespace State

variable {env : Env} {s : State} {ts : List WriteTask} {m : Nat}

/-- The state with other tasks before those of the queue. -/
def behind (ts : List WriteTask) (s : State) : State :=
  { s with pool := { s.pool with queue := ts ++ s.pool.queue } }

@[simp] theorem behind_managers : (s.behind ts).managers = s.managers := rfl
@[simp] theorem behind_kernel : (s.behind ts).kernel = s.kernel := rfl
@[simp] theorem behind_watcher : (s.behind ts).watcher = s.watcher := rfl
@[simp] theorem behind_loop : (s.behind ts).loop = s.loop := rfl
@[simp] theorem behind_deferred : (s.behind ts).deferred = s.deferred := rfl
@[simp] theorem behind_log : (s.behind ts).log = s.log := rfl
@[simp] theorem behind_stream : (s.behind ts).stream = s.stream := rfl
@[simp] theorem behind_boundSock : (s.behind ts).boundSock = s.boundSock := rfl
@[simp] theorem behind_running : (s.behind ts).pool.running = s.pool.running := rfl
@[simp] theorem behind_lost : (s.behind ts).pool.lost = s.pool.lost := rfl
@[simp] theorem behind_lockFree : (s.behind ts).lockFree = s.lockFree := rfl
@[simp] theorem behind_hasBackpressure : (s.behind ts).hasBackpressure = s.hasBackpressure := rfl

/-- A step that is possible under the same condition. -/
theorem map_ite_behind {c : Prop} [Decidable c] {a b : State}
    (h : a = b.behind ts) :
    (if c then some a else none) = (if c then some b else none).map (behind ts) := by
  by_cases hc : c
  · rw [if_pos hc, if_pos hc, h]
    rfl
  · rw [if_neg hc, if_neg hc]
    rfl

theorem foldl_behind {A : Type} {f : State → A → State}
    (hf : ∀ s a, f (behind ts s) a = (f s a).behind ts) (l : List A) (s : State) :
    l.foldl f (s.behind ts) = (l.foldl f s).behind ts := by
  induction l generalizing s with
  | nil => rfl
  | cons a l ih => rw [List.foldl_cons, List.foldl_cons, hf, ih]

theorem updateStreams_behind :
    (s.behind ts).updateStreams env m = (s.updateStreams env m).behind ts := by
  rw [updateStreams, updateStreams]
  rw [behind_hasBackpressure, behind_watcher, behind_managers]
  by_cases hstop : (s.hasBackpressure m || decide (s.watcher.sendQueueLen > maxQueue)) = true
  · rw [if_pos hstop, if_pos hstop]
  · rw [if_neg hstop, if_neg hstop]
    cases s.managers.lookup m with
    | none => rfl
    | some manager =>
      have hfold := @foldl_behind ts _
        (fun s (e : (_ : UInt32) × SocketStreamData) => sendContinue env s m bufferCount e.1)
        (fun _ _ => rfl) (manager.streams.entries.filter (·.2.buffer = 0)) s
      dsimp only
      rw [hfold]
      rfl

theorem deliver_behind (p : Pass) (h : Nat × UInt32) :
    (s.behind ts).deliver env p h = (s.deliver env p h).behind ts := by
  rw [deliver, deliver]
  change (if sendStatus env s = .backpressure then _ else _) =
    behind ts (if sendStatus env s = .backpressure then _ else _)
  by_cases hs : sendStatus env s = .backpressure
  · rw [if_pos hs, if_pos hs]
    rfl
  · rw [if_neg hs, if_neg hs]
    rfl

theorem runDeferred_behind :
    (s.behind ts).runDeferred env = (s.runDeferred env).map (·.behind ts) := by
  rw [runDeferred, runDeferred, behind_deferred]
  split
  · rfl
  · rename_i p rest _
    have hfold := @foldl_behind ts _ (fun s h => deliver env s p h)
      (fun _ h => deliver_behind p h) (s.holders p.fd) { s with deferred := rest }
    exact congrArg (fun t : State => some { t with loop := afterDeliver p (s.holders p.fd) }) hfold

theorem handleData_behind (packet : WispPacket) :
    ((s.behind ts).handleData env m packet).2 = (s.handleData env m packet).2.behind ts := by
  rw [handleData, handleData, behind_stream]
  split
  · rfl
  · rename_i d hd
    have hsubmit : ∀ t : WriteTask, (s.behind ts).submitTask t = (s.submitTask t).behind ts := by
      intro t
      simp only [submitTask, behind, record, List.append_assoc]
    simp only [hsubmit, behind_boundSock, behind_hasBackpressure, behind_watcher]
    split
    · split <;> rfl
    · rfl

theorem handleConnect_behind (packet : WispPacket) :
    (s.behind ts).handleConnect env m packet =
      (s.handleConnect env m packet).map (·.behind ts) := by
  unfold handleConnect
  cases ConnectPacket.parse packet.data (UInt64.ofNat packet.data.length) with
  | error e => rfl
  | ok c =>
    dsimp only [bind, Except.bind]
    split
    · rfl
    · cases cString c.destinationHostname with
      | error e => rfl
      | ok h =>
        dsimp only [bind, Except.bind]
        split <;> rfl

theorem receive_behind (view : Bytes) :
    (s.behind ts).receive env m view = (s.receive env m view).map (·.behind ts) := by
  unfold receive
  cases WispPacket.parse view (UInt64.ofNat view.length) with
  | error e => rfl
  | ok packet =>
    dsimp only [bind, Except.bind]
    split
    · rfl
    · split
      · exact handleConnect_behind (s := s.endHandshake m) packet
      · split
        · exact congrArg Except.ok (handleData_behind (s := s.endHandshake m) packet)
        · rfl

theorem resume_behind : (s.behind ts).resume env = (s.resume env).map (·.behind ts) := by
  rw [resume, resume, behind_loop]
  split
  · rw [locked, locked, behind_lockFree]
    split <;> rfl
  · rw [locked, locked, behind_lockFree]
    split <;> rfl
  · rw [locked, locked, behind_lockFree]
    split <;> rfl
  · rfl
  · rw [locked, locked, behind_lockFree]
    split <;> rfl
  · rfl
  · rfl
  · rename_i ms _
    cases ms with
    | nil => rfl
    | cons m ms =>
      rw [sweepNext, updateStreams_behind]
      rfl
  · rfl

theorem loopStep_behind (l : LoopLabel) :
    (s.behind ts).loopStep env l = (s.loopStep env l).map (·.behind ts) := by
  cases l with
  | opened =>
    exact map_ite_behind rfl
  | message m view =>
    simp only [loopStep, behind_loop, behind_managers, receive_behind]
    split
    · cases s.receive env m view <;> rfl
    · rfl
  | drain m =>
    exact map_ite_behind (updateStreams_behind (s := s.setBackpressure m false))
  | close m =>
    exact map_ite_behind rfl
  | deferred =>
    simp only [loopStep, behind_loop, runDeferred_behind]
    split <;> rfl
  | socket fd =>
    simp only [loopStep, behind_loop]
    split
    · cases fd with
      | none => rfl
      | some fd =>
        rw [openSocket, openSocket, behind_kernel]
        by_cases hfd : s.kernel.files fd = none
        · rw [dif_pos hfd, dif_pos hfd]
          rfl
        · rw [dif_neg hfd, dif_neg hfd]
          rfl
    · rfl
  | connect ok =>
    simp only [loopStep, behind_loop]
    split
    · cases ok <;> rfl
    · rfl
  | pushFd ok =>
    simp only [loopStep, behind_loop]
    split <;> rfl
  | resume => exact resume_behind

theorem watchStep_behind (l : WatchLabel) :
    (s.behind ts).watchStep env l = (s.watchStep env l).map (·.behind ts) := by
  cases l with
  | wait events =>
    exact map_ite_behind rfl
  | next =>
    simp only [watchStep, watchNext, behind_watcher]
    split
    · rfl
    · split <;> rfl
    · rfl
  | read result =>
    simp only [watchStep, watchRead, behind_watcher]
    split
    · split <;> rfl
    · rfl
  | erase =>
    simp only [watchStep, watchErase, behind_watcher]
    split <;> rfl
  | count =>
    simp only [watchStep, watchCount, behind_watcher]
    split <;> rfl
  | defer =>
    simp only [watchStep, watchDefer, behind_watcher]
    split <;> rfl

theorem workerStep_behind {l : WorkerLabel} (hl : l ≠ .dequeue) :
    (s.behind ts).workerStep env l = (s.workerStep env l).map (behind ts) := by
  cases l with
  | dequeue => exact absurd rfl hl
  | begin i =>
    rw [workerStep, workerStep, beginTask, beginTask, behind_running, behind_stream]
    split
    · split <;> rfl
    · rfl
  | poll i ok =>
    rw [workerStep, workerStep, pollTask, pollTask, behind_running]
    split
    · cases ok <;> rfl
    · rfl
  | write i res =>
    rw [workerStep, workerStep, writeTask, writeTask, behind_running]
    split
    · cases res with
      | accepted n => exact map_ite_behind rfl
      | again => rfl
      | error => rfl
    · rfl

/-- **The queue is not looked at**, but by a worker that takes a task. -/
theorem step_behind {l : Label} (hl : l ≠ .worker .dequeue) :
    (s.behind ts).step env l = (s.step env l).map (behind ts) := by
  cases l with
  | loop l => exact loopStep_behind l
  | watch l => exact watchStep_behind l
  | worker l => exact workerStep_behind fun h => hl (congrArg Label.worker h)
  | rehash m streams =>
    change (s.behind ts).rehash m streams = (s.rehash m streams).map (behind ts)
    rw [rehash, rehash, behind_managers]
    cases s.managers.lookup m with
    | none => rfl
    | some manager => exact map_ite_behind rfl
  | rehashSockets ms => exact map_ite_behind rfl

end State

end Woeful
