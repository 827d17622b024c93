import Woeful.Uploads

/-!
# The order of uploads

Payloads are accepted in arrival order and dequeued in that order, but several
workers may hold `stream_lock` at once (it is taken shared), and nothing orders
their writes. The balance of a socket is

  accepted for it = written to it ++ still with the pool,

in order (`Ordered.balance`). A write keeps it exactly when the task that writes
is the first of its stream among the busy workers: this is what
`State.writesInOrder` asks of a step. Two workers suffice to break it
(`reordered_counterexample`).
-/

namespace Woeful

open Memory Transition

variable {env : Env} {s t : State}

/-! ## The bytes of a socket -/

/-- The payload of a task, if it was accepted for socket `n`. -/
def WriteTask.bytesFor (n : Nat) (t : WriteTask) : Bytes :=
  if t.sock = some n then t.packet.data else []

/-- What an event adds to the payloads accepted for socket `n`. -/
def Event.acceptedBytes (n : Nat) : Event → Bytes
  | .accepted t => t.bytesFor n
  | _ => []

/-- What an event adds to the bytes written to socket `n`. -/
def Event.writtenBytes (n : Nat) : Event → Bytes
  | .wrote _ sock bytes => if sock = some n then bytes else []
  | _ => []

namespace State

/-- The payloads accepted for socket `n`, in arrival order. -/
def acceptedFor (s : State) (n : Nat) : Bytes := s.log.flatMap (Event.acceptedBytes n)

/-- The bytes written to socket `n`. -/
def writtenTo (s : State) (n : Nat) : Bytes := s.log.flatMap (Event.writtenBytes n)

/-- The payloads accepted for socket `n` that are still with the pool. -/
def unwritten (s : State) (n : Nat) : Bytes := s.pool.unfinished.flatMap (WriteTask.bytesFor n)

/-- Socket `n` is open, or not made yet. -/
def NotClosed (s : State) (n : Nat) : Prop :=
  s.kernel.socks.length ≤ n ∨ ∃ fd, s.kernel.sockAt fd = some n

/-- A collection over the log that only write tasks contribute to. -/
theorem flatMap_uploadLog {f : Event → Bytes} (hf : ∀ e : Event, e.ofTask = false → f e = []) :
    s.log.flatMap f = s.uploadLog.flatMap f := by
  rw [uploadLog]
  induction s.log with
  | nil => rfl
  | cons e log ih =>
    rw [List.flatMap_cons, ih]
    cases he : e.ofTask with
    | true => rw [List.filter_cons_of_pos he, List.flatMap_cons]
    | false => rw [List.filter_cons_of_neg (by simp [he]), hf e he, List.nil_append]

theorem acceptedFor_eq (n : Nat) :
    s.acceptedFor n = s.uploadLog.flatMap (Event.acceptedBytes n) :=
  flatMap_uploadLog fun e he => by cases e <;> first | rfl | cases he

theorem writtenTo_eq (n : Nat) : s.writtenTo n = s.uploadLog.flatMap (Event.writtenBytes n) :=
  flatMap_uploadLog fun e he => by cases e <;> first | rfl | cases he

theorem acceptedFor_record {e : Event} (n : Nat) :
    (s.record e).acceptedFor n = s.acceptedFor n ++ e.acceptedBytes n := by
  rw [acceptedFor, record, List.flatMap_append, List.flatMap_singleton]
  rfl

theorem writtenTo_record {e : Event} (n : Nat) :
    (s.record e).writtenTo n = s.writtenTo n ++ e.writtenBytes n := by
  rw [writtenTo, record, List.flatMap_append, List.flatMap_singleton]
  rfl

end State

/-! ## Busy workers in a list -/

/-- A list around its entry number `i`. -/
theorem take_cons_drop {A : Type} {l : List A} {i : Nat} {a : A} (h : l[i]? = some a) :
    l = l.take i ++ a :: l.drop (i + 1) := by
  obtain ⟨hi, rfl⟩ := List.getElem?_eq_some_iff.mp h
  rw [List.getElem_cons_drop, List.take_append_drop]

namespace ThreadPool

variable {pool : ThreadPool} {i : Nat} {w : Worker}

/-- The bytes with the pool, around busy worker number `i`. -/
theorem flatMap_unfinished (h : pool.running[i]? = some w) (f : WriteTask → Bytes) :
    pool.unfinished.flatMap f = ((pool.running.take i).map (·.task)).flatMap f ++ (f w.task ++
      (((pool.running.drop (i + 1)).map (·.task)).flatMap f ++ pool.queue.flatMap f)) := by
  rw [unfinished, List.flatMap_append]
  conv_lhs => rw [take_cons_drop h]
  rw [List.map_append, List.map_cons, List.flatMap_append, List.flatMap_cons, List.append_assoc,
    List.append_assoc]

/-- The bytes with the pool once that worker is done. -/
theorem flatMap_unfinished_eraseIdx (f : WriteTask → Bytes) (lost : Nat) :
    ({ pool with running := pool.running.eraseIdx i, lost := lost } : ThreadPool).unfinished.flatMap
        f = ((pool.running.take i).map (·.task)).flatMap f ++
      (((pool.running.drop (i + 1)).map (·.task)).flatMap f ++ pool.queue.flatMap f) := by
  rw [unfinished, List.eraseIdx_eq_take_drop_succ, List.map_append, List.flatMap_append,
    List.flatMap_append, List.append_assoc]

end ThreadPool

/-! ## The condition -/

/-- What is assumed of the kernel: a write takes the whole payload (or nothing,
with `EAGAIN`). -/
def State.wholeWrites (s : State) : Label → Bool
  | .worker (.write i (.accepted n)) =>
    (s.pool.running[i]?).all fun w => n = w.task.packet.data.length
  | .worker (.write _ .error) => false
  | _ => true

/-- The condition on a step: a task writes only when no task before it is for the
same stream, and no `poll` fails. -/
def State.writesInOrder (s : State) : Label → Bool
  | .worker (.write i (.accepted _)) =>
    (s.pool.running[i]?).all fun w =>
      (s.pool.running.take i).all fun w' => w'.task.stream ≠ w.task.stream
  | .worker (.poll _ ok) => ok
  | _ => true

/-- What is written to the socket of an open TCP stream is a prefix of what was
accepted for it. -/
def WritesOrdered (s : State) : Prop :=
  ∀ m id d n, s.stream m id = some d → d.streamType = 0x01 → s.boundSock m id = some n →
    s.writtenTo n <+: s.acceptedFor n

/-! ## The invariant -/

/-- The balance of every socket, and what it rests on. -/
structure Ordered (s : State) : Prop where
  /-- an unfinished task was accepted for a socket of its stream -/
  owner : ∀ task ∈ s.pool.unfinished, ∃ n, task.sock = some n ∧
    s.kernel.socks[n]? = some task.stream
  /-- as long as that socket is open, it is what the stream is bound to -/
  bound : ∀ task ∈ s.pool.unfinished, ∀ fd n, task.sock = some n → s.kernel.sockAt fd = some n →
    s.binding task.manager task.packet.streamId = some fd
  /-- what was accepted is what was written and what is with the pool -/
  balance : ∀ n, s.NotClosed n → s.acceptedFor n = s.writtenTo n ++ s.unwritten n

/-- A socket that is not closed was not closed before. -/
theorem TableMove.notClosed {l : Label} (hs : TableMove s t l) {n : Nat} (h : t.NotClosed n) :
    s.NotClosed n := by
  have hupdate : ∀ fd, t.kernel.sockAt = Function.update s.kernel.sockAt fd none →
      t.kernel.socks = s.kernel.socks → s.NotClosed n := by
    intro fd hsock hsocks
    rcases h with hle | ⟨fd', hfd'⟩
    · exact Or.inl (hsocks ▸ hle)
    · rw [hsock, Function.update_apply] at hfd'
      split at hfd'
      · cases hfd'
      · exact Or.inr ⟨fd', hfd'⟩
  cases hs with
  | same hsock hsocks => rwa [State.NotClosed, hsock, hsocks] at h
  | @socket c fd hl hnone hsock hsocks =>
    rcases h with hle | ⟨fd', hfd'⟩
    · rw [hsocks, List.length_append] at hle
      exact Or.inl (Nat.le_of_add_right_le hle)
    · rw [hsock, Function.update_apply] at hfd'
      split at hfd'
      · exact Or.inl (Nat.le_of_eq (Option.some.inj hfd'))
      · exact Or.inr ⟨fd', hfd'⟩
  | abandon _ hsock hsocks => exact hupdate _ hsock hsocks
  | insert _ hsock hsocks => rwa [State.NotClosed, hsock, hsocks] at h
  | close _ _ _ _ hsock hsocks => exact hupdate _ hsock hsocks

/-- The tables change under the unfinished tasks. -/
theorem Ordered.keep {l : Label} (hs : s.step env l = some t) (hw : WellBound s)
    (hg : s.insertsUnused l = true) (h : Ordered s) :
    (∀ task ∈ s.pool.unfinished, ∃ n, task.sock = some n ∧
        t.kernel.socks[n]? = some task.stream) ∧
      ∀ task ∈ s.pool.unfinished, ∀ fd n, task.sock = some n → t.kernel.sockAt fd = some n →
        t.binding task.manager task.packet.streamId = some fd := by
  have htable := step_tableMove hs hw
  constructor
  · intro task htask
    obtain ⟨n, hn, ho⟩ := h.owner task htask
    obtain ⟨rest, hrest⟩ := htable.socks_prefix
    refine ⟨n, hn, ?_⟩
    rw [← hrest, List.getElem?_append_left (List.getElem?_eq_some_iff.mp ho).1]
    exact ho
  · intro task htask fd n hn hfd
    cases htable with
    | same hsock _ hbind =>
      rw [hsock] at hfd
      rw [hbind]
      exact h.bound task htask fd n hn hfd
    | @socket c fd' hl hnone hsock hsocks hbind =>
      rw [hbind]
      rw [hsock, Function.update_apply] at hfd
      split at hfd
      · -- a new socket is not one that a task was accepted for
        obtain ⟨n', hn', ho⟩ := h.owner task htask
        obtain rfl : n = n' := Option.some.inj (hn.symm.trans hn')
        have hlt := (List.getElem?_eq_some_iff.mp ho).1
        exact absurd (Option.some.inj hfd) (Nat.ne_of_gt hlt)
      · exact h.bound task htask fd n hn hfd
    | abandon _ hsock _ hbind =>
      rw [hsock, Function.update_apply] at hfd
      rw [hbind]
      split at hfd
      · cases hfd
      · exact h.bound task htask fd n hn hfd
    | @insert c fd' hl hsock _ hbind =>
      rw [hsock] at hfd
      rw [hbind, if_neg]
      · exact h.bound task htask fd n hn hfd
      · intro he
        rw [State.insertsUnused, hl] at hg
        exact of_decide_eq_true (List.all_eq_true.mp hg task htask) (Prod.ext he.1 he.2)
    | @close m id fd' _ hb _ _ hsock _ hbind =>
      rw [hsock, Function.update_apply] at hfd
      split at hfd
      · cases hfd
      · rename_i hne
        have hb' := h.bound task htask fd n hn hfd
        rw [hbind, if_neg]
        · exact hb'
        · intro he
          rw [he.1, he.2, hb] at hb'
          exact hne (Option.some.inj hb').symm

/-- A task that is dropped without its payload being written had lost its stream. -/
theorem Ordered.bytesFor_fault (h : Ordered s) {task : WriteTask} {n : Nat}
    (htask : task ∈ s.pool.unfinished) (hn : s.NotClosed n)
    (hnone : s.stream task.manager task.packet.streamId = none) : task.bytesFor n = [] := by
  rw [WriteTask.bytesFor]
  split
  · rename_i hsock
    obtain ⟨n', hn', ho⟩ := h.owner task htask
    obtain rfl : n = n' := Option.some.inj (hsock.symm.trans hn')
    rcases hn with hle | ⟨fd, hfd⟩
    · exact absurd (List.getElem?_eq_some_iff.mp ho).1 (Nat.not_lt.mpr hle)
    · have hb := h.bound task htask fd n hsock hfd
      rw [State.binding, hnone] at hb
      cases hb
  · rfl

/-- The tasks before the one that may write are for other sockets. -/
theorem Ordered.bytesFor_before (h : Ordered s) {i k : Nat} {w : Worker} {n : Nat}
    (hg : s.writesInOrder (.worker (.write i (.accepted k))) = true)
    (hi : s.pool.running[i]? = some w) (hsock : w.task.sock = some n) :
    ((s.pool.running.take i).map (·.task)).flatMap (WriteTask.bytesFor n) = [] := by
  rw [State.writesInOrder, hi] at hg
  refine List.flatMap_eq_nil_iff.mpr fun task htask => ?_
  obtain ⟨w', hw', rfl⟩ := List.mem_map.mp htask
  have hne := of_decide_eq_true (List.all_eq_true.mp hg w' hw')
  have hunfinished : ∀ v ∈ s.pool.running, v.task ∈ s.pool.unfinished :=
    fun v hv => List.mem_append_left _ (List.mem_map_of_mem hv)
  obtain ⟨n₁, hn₁, ho₁⟩ := h.owner w.task (hunfinished w (List.mem_of_getElem? hi))
  obtain ⟨n₂, hn₂, ho₂⟩ := h.owner w'.task (hunfinished w' (List.mem_of_mem_take hw'))
  rw [WriteTask.bytesFor, if_neg]
  intro hsock'
  obtain rfl : n = n₁ := Option.some.inj (hsock.symm.trans hn₁)
  obtain rfl : n = n₂ := Option.some.inj (hsock'.symm.trans hn₂)
  exact hne (Option.some.inj (ho₂.symm.trans ho₁))

/-- **A worker's move keeps the balance** of every socket that is not closed. -/
theorem Ordered.balance_worker {l : WorkerLabel} (hs : WorkerMove env s l t) (hw : TableOk s)
    (hlocks : LocksHeld s) (hd : Directed s) (hwhole : s.wholeWrites (.worker l) = true)
    (horder : s.writesInOrder (.worker l) = true) (h : Ordered s) {n : Nat} (hn : s.NotClosed n) :
    t.acceptedFor n = t.writtenTo n ++ t.unwritten n := by
  have hbalance := h.balance n hn
  -- a move after which the same tasks are unfinished
  have hsame : ∀ u : State, u.log = s.log → u.pool.unfinished = s.pool.unfinished →
      u.acceptedFor n = u.writtenTo n ++ u.unwritten n := by
    intro u hlog hunfinished
    rw [State.acceptedFor, State.writtenTo, State.unwritten, hlog, hunfinished]
    exact hbalance
  cases hs with
  | dequeue hq hlt =>
    refine hsame _ rfl ?_
    change (s.pool.running ++ [_]).map _ ++ _ = s.pool.running.map _ ++ s.pool.queue
    rw [hq, List.map_append, List.append_assoc]
    rfl
  | @begin i task d hi hstream =>
    rw [State.acceptedFor_record, State.writtenTo_record]
    change s.acceptedFor n ++ [] = s.writtenTo n ++ [] ++ _
    rw [List.append_nil, List.append_nil, hbalance]
    congr 1
    change _ = ((s.pool.running.set i ⟨task, .locked⟩).map _ ++ s.pool.queue).flatMap _
    rw [ThreadPool.map_task_set hi]
    rfl
  | @fault i task hi hstream =>
    have hunfinished := ThreadPool.mem_unfinished.mpr (Or.inl ⟨_, List.mem_of_getElem? hi⟩)
    rw [State.acceptedFor_record, State.writtenTo_record]
    change s.acceptedFor n ++ [] = s.writtenTo n ++ [] ++ _
    rw [List.append_nil, List.append_nil, hbalance]
    congr 1
    refine Eq.trans ?_ (ThreadPool.flatMap_unfinished_eraseIdx _ _).symm
    rw [State.unwritten, ThreadPool.flatMap_unfinished hi,
      h.bytesFor_fault hunfinished hn hstream, List.nil_append]
  | @poll i task hi =>
    refine hsame _ rfl ?_
    change (s.pool.running.set i ⟨task, .polled⟩).map _ ++ s.pool.queue = _
    rw [ThreadPool.map_task_set hi]
    rfl
  | pollFail hi => cases horder
  | @write i k task hi hk =>
    obtain ⟨n', hbound, hsock⟩ := hd.bound hw hlocks (List.mem_of_getElem? hi)
    rw [State.wholeWrites, hi] at hwhole
    have hlen : k = task.packet.data.length := of_decide_eq_true hwhole
    rw [State.acceptedFor_record, State.writtenTo_record]
    change s.acceptedFor n ++ [] = s.writtenTo n ++
      (if s.boundSock task.manager task.packet.streamId = some n then task.packet.data.take k
        else []) ++ _
    have hunwritten := ThreadPool.flatMap_unfinished hi (WriteTask.bytesFor n)
    rw [List.append_nil, hbalance, State.unwritten, hunwritten, hlen, List.take_length, hbound,
      List.append_assoc]
    congr 1
    have hrest : ((s.setRunning (s.pool.running.eraseIdx i)).record
          (.wrote task (some n') task.packet.data)).unwritten n =
        ((s.pool.running.take i).map (·.task)).flatMap (WriteTask.bytesFor n) ++
          (((s.pool.running.drop (i + 1)).map (·.task)).flatMap (WriteTask.bytesFor n) ++
            s.pool.queue.flatMap (WriteTask.bytesFor n)) :=
      ThreadPool.flatMap_unfinished_eraseIdx _ _
    rw [hrest]
    by_cases he : n' = n
    · subst he
      rw [h.bytesFor_before horder hi hsock, if_pos rfl, WriteTask.bytesFor, if_pos hsock]
      rfl
    · have hne : (some n' : Option Nat) ≠ some n := fun hc => he (Option.some.inj hc)
      rw [if_neg hne, WriteTask.bytesFor, hsock, if_neg hne]
      rfl
  | @again i task hi =>
    refine hsame _ rfl ?_
    change (s.pool.running.set i ⟨task, .locked⟩).map _ ++ s.pool.queue = _
    rw [ThreadPool.map_task_set hi]
    rfl
  | writeFail hi => cases hwhole

/-- **A step in order keeps the balance.** -/
theorem Ordered.step {l : Label} (hs : s.step env l = some t) (hw : WellBound s)
    (hlocks : LocksHeld s) (hd : Directed s) (hinsert : s.insertsUnused l = true)
    (hwhole : s.wholeWrites l = true) (horder : s.writesInOrder l = true) (h : Ordered s) :
    Ordered t := by
  have htable := step_tableMove hs hw
  obtain ⟨howner, hbound⟩ := h.keep hs hw hinsert
  cases step_poolMove hs with
  | same hpool hlog =>
    refine ⟨hpool ▸ howner, hpool ▸ hbound, fun n hn => ?_⟩
    rw [State.acceptedFor_eq, State.writtenTo_eq, State.unwritten, hlog, hpool,
      ← State.acceptedFor_eq, ← State.writtenTo_eq]
    exact h.balance n (htable.notClosed hn)
  | @submit l m packet hstream hsame hpool hlog =>
    obtain ⟨fd, hb⟩ := Option.ne_none_iff_exists'.mp (State.binding_ne_none.mpr hstream)
    obtain ⟨n, hsock, hfd, ho⟩ := hw.table.owner hb
    have hunfinished : t.pool.unfinished = s.pool.unfinished ++ [s.taskFor m packet] := by
      rw [hpool, ThreadPool.unfinished_submit]
    refine ⟨?_, ?_, fun n' hn' => ?_⟩
    · rw [hunfinished]
      intro task htask
      rcases List.mem_append.mp htask with hold | hnew
      · exact howner task hold
      · obtain rfl := List.mem_singleton.mp hnew
        exact ⟨n, hsock, hsame.socks ▸ ho⟩
    · rw [hunfinished]
      intro task htask fd' n' hn' hfd'
      rcases List.mem_append.mp htask with hold | hnew
      · exact hbound task hold fd' n' hn' hfd'
      · obtain rfl := List.mem_singleton.mp hnew
        obtain rfl : n = n' := Option.some.inj (hsock.symm.trans hn')
        rw [hsame.sockAt] at hfd'
        obtain rfl := Kernel.sockAt_inj hfd hfd'
        rw [hsame.binding]
        exact hb
    · rw [State.acceptedFor_eq, State.writtenTo_eq, State.unwritten, hlog, hunfinished,
        List.flatMap_append, List.flatMap_append, List.flatMap_append, ← State.acceptedFor_eq,
        ← State.writtenTo_eq, h.balance n' (htable.notClosed hn'), List.append_assoc]
      simp [Event.acceptedBytes, Event.writtenBytes, State.unwritten]
  | worker hmove =>
    refine ⟨fun task htask => howner task (hmove.mem_unfinished htask),
      fun task htask => hbound task (hmove.mem_unfinished htask), fun n hn => ?_⟩
    exact h.balance_worker hmove hw.table hlocks hd hwhole horder (htable.notClosed hn)

theorem Ordered.initial (env : Env) : Ordered (State.initial env) where
  owner _ ht := nomatch ht
  bound _ ht := nomatch ht
  balance _ _ := rfl

/-- The assumption and the conditions of `writes_ordered`, together. -/
def State.uploadsInOrder (s : State) (l : Label) : Bool :=
  s.wholeWrites l && s.writesInOrder l && s.insertsUnused l

/-- Two workers hold the lock at once, and write in the order of the tasks. -/
def twoWorkers : List Label :=
  [.loop .opened] ++ connectLabels 0 1 7 ++ [dataLabel 0 1 [1, 2], dataLabel 0 1 [3],
    .worker .dequeue, .worker .dequeue, .worker (.begin 1), .worker (.begin 0),
    .worker (.poll 1 true), .worker (.poll 0 true), .worker (.write 0 (.accepted 2)),
    .worker (.write 0 (.accepted 1))]

/-- Two workers hold the lock at once, and the second writes first. -/
def overtake : List Label :=
  [.loop .opened] ++ connectLabels 0 1 7 ++ [dataLabel 0 1 [1, 2], dataLabel 0 1 [3],
    .worker .dequeue, .worker .dequeue, .worker (.begin 0), .worker (.begin 1),
    .worker (.poll 0 true), .worker (.poll 1 true), .worker (.write 1 (.accepted 1))]

end Woeful
