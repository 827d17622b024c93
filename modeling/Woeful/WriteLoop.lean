import Mathlib.Data.List.TakeDrop
import Woeful.Steps

/-!
# The write loop

The task that `handle_data` submits goes round for as long as `write` answers `EAGAIN`, and
always offers the whole payload. Every other answer ends it: a count that is less than
`data_len` too, `EINTR` too, and a `poll` that fails.

`writeLoop` is one task and `uploads` are the tasks of a stream, one after the other, with
the kernel's answers as a list. Nothing is missing from what the kernel gets exactly if no
answer of these ends a task (`uploads_seamless_iff`); a write that takes a part is enough to
leave a gap (`shortWrite_counterexample`).

The workers of the server take these loops step by step (`run_uploads`).
-/

namespace Woeful

open Memory Transition

/-- What `errno` may be when `write` has failed. -/
inductive Errno where
  /-- `EAGAIN` -/
  | again
  /-- `EINTR` -/
  | interrupted
  /-- any other error -/
  | fatal
  deriving DecidableEq, Repr

/-- What the kernel answers to a turn of the loop. -/
inductive Turn where
  /-- `poll` returns -1, so that nothing is written -/
  | pollFailed
  /-- `write` takes `n` bytes, or all if there are not so many -/
  | accepted (n : Nat)
  /-- `write` returns -1 -/
  | failed (errno : Errno)
  deriving DecidableEq, Repr

namespace Turn

/-- `err` after the turn; `none` is 0. -/
def err : Turn → Option Errno
  | pollFailed => none
  | accepted _ => none
  | failed errno => some errno

/-- How many bytes the kernel takes at most. -/
def room : Turn → Nat
  | accepted n => n
  | _ => 0

theorem room_of_err {turn : Turn} {errno : Errno} (h : turn.err = some errno) : turn.room = 0 := by
  cases turn with
  | failed errno => rfl
  | _ => cases h

end Turn

/-- How a task fared. -/
structure Upload where
  /-- `packet.data` -/
  payload : Bytes
  /-- what the kernel took of it, all writes together -/
  taken : Bytes
  /-- `err` at the end; `none` as long as the task is not over -/
  ended : Option (Option Errno)
  deriving DecidableEq, Repr

/-- The task is over, and did not write its payload. -/
def Upload.Fell (u : Upload) : Prop := u.ended ≠ none ∧ u.taken ≠ u.payload

/-- The loop of the task, and the answers that are left when it is over. -/
def writeLoop (payload : Bytes) : List Turn → Upload × List Turn
  | [] => (⟨payload, [], none⟩, [])
  | turn :: turns =>
    let taken := payload.take turn.room
    if turn.err = some .again then
      let u := (writeLoop payload turns).1
      ({ u with taken := taken ++ u.taken }, (writeLoop payload turns).2)
    else (⟨payload, taken, some turn.err⟩, turns)

/-- The tasks of a stream, one after the other. -/
def uploads : List Bytes → List Turn → List Upload
  | [], _ => []
  | payload :: payloads, turns =>
    (writeLoop payload turns).1 :: uploads payloads (writeLoop payload turns).2

/-- What it means that nothing is left out. -/
structure Seamless (payloads : List Bytes) (us : List Upload) : Prop where
  /-- the kernel got a prefix of the payloads -/
  inOrder : us.flatMap (·.taken) <+: payloads.flatten
  /-- a task that ends without a fatal error has written all, once -/
  whole : ∀ u ∈ us, ∀ err, u.ended = some err → err ≠ some .fatal → u.taken = u.payload
  /-- and after one that has not, nothing is written -/
  stops : us.Pairwise fun u v => u.Fell → v.taken = []

/-- The condition on the answers that end a task: they take the payload, unless they are fatal
errors, and then the answers to the tasks that follow take nothing. -/
structure TakeWhole (ends : List (Bytes × Turn)) : Prop where
  /-- there is room for the payload -/
  whole : ∀ e ∈ ends, e.2.err ≠ some .fatal → e.1.length ≤ e.2.room
  /-- a fatal error is for good -/
  stops : ends.Pairwise fun e f =>
    e.2.err = some .fatal → e.1 ≠ [] → f.1 = [] ∨ f.2.room = 0

/-! ## What a task makes of the answers -/

/-- The answers that end a task. -/
def ends (turns : List Turn) : List Turn := turns.filter (·.err ≠ some .again)

/-- A task that is over. -/
def Upload.finished (e : Bytes × Turn) : Upload := ⟨e.1, e.1.take e.2.room, some e.2.err⟩

/-- A task that is not. -/
def Upload.pending (payload : Bytes) : Upload := ⟨payload, [], none⟩

theorem writeLoop_again {payload : Bytes} {turn : Turn} {turns : List Turn}
    (h : turn.err = some .again) :
    writeLoop payload (turn :: turns) = writeLoop payload turns := by
  rw [writeLoop, if_pos h, Turn.room_of_err h]
  rfl

/-- The loop ends with the first answer that is not `EAGAIN`, and has written nothing before. -/
theorem writeLoop_cases (payload : Bytes) (turns : List Turn) :
    (ends turns = [] ∧ writeLoop payload turns = (.pending payload, [])) ∨
      ∃ turn rest, ends turns = turn :: ends rest ∧
        writeLoop payload turns = (.finished (payload, turn), rest) := by
  induction turns with
  | nil => exact Or.inl ⟨rfl, rfl⟩
  | cons turn turns ih =>
    by_cases hagain : turn.err = some .again
    · have hends : ends (turn :: turns) = ends turns :=
        List.filter_cons_of_neg (by simp [hagain])
      rw [hends, writeLoop_again hagain]
      exact ih
    · refine Or.inr ⟨turn, turns, List.filter_cons_of_pos (by simpa using hagain), ?_⟩
      rw [writeLoop, if_neg hagain]
      rfl

theorem writeLoop_nil (payload : Bytes) : writeLoop payload [] = (.pending payload, []) := rfl

/-- Without an answer nothing is over. -/
theorem uploads_nil (payloads : List Bytes) : uploads payloads [] = payloads.map .pending := by
  induction payloads with
  | nil => rfl
  | cons payload payloads ih => rw [uploads, writeLoop_nil, ih, List.map_cons]

/-- Every task takes one answer of those that end one. -/
theorem uploads_eq (payloads : List Bytes) (turns : List Turn) :
    uploads payloads turns = (payloads.zip (ends turns)).map .finished ++
      (payloads.drop (ends turns).length).map .pending := by
  induction payloads generalizing turns with
  | nil => simp [uploads]
  | cons payload payloads ih =>
    rw [uploads]
    rcases writeLoop_cases payload turns with ⟨hends, hloop⟩ | ⟨turn, rest, hends, hloop⟩
    · rw [hloop, hends, uploads_nil]
      rfl
    · rw [hloop, hends, ih]
      rfl

/-- No payload is lost on the way. -/
theorem uploads_payload (payloads : List Bytes) (turns : List Turn) :
    (uploads payloads turns).map (·.payload) = payloads := by
  induction payloads generalizing turns with
  | nil => rfl
  | cons payload payloads ih =>
    rw [uploads, List.map_cons, ih]
    rcases writeLoop_cases payload turns with ⟨-, hloop⟩ | ⟨turn, rest, -, hloop⟩
    · rw [hloop]
      rfl
    · rw [hloop]
      rfl

/-! ## Gaps -/

theorem Upload.finished_whole_iff {e : Bytes × Turn} :
    (Upload.finished e).taken = (Upload.finished e).payload ↔ e.1.length ≤ e.2.room :=
  List.take_eq_self_iff e.1

theorem Upload.finished_none_iff {e : Bytes × Turn} :
    (Upload.finished e).taken = [] ↔ e.1 = [] ∨ e.2.room = 0 := by
  rw [Upload.finished, List.take_eq_nil_iff, or_comm]

theorem Upload.fell_finished_iff {e : Bytes × Turn} :
    (Upload.finished e).Fell ↔ (Upload.finished e).taken ≠ (Upload.finished e).payload :=
  and_iff_right (Option.some_ne_none _)

/-- As long as nothing follows a part of a payload, the parts are a prefix of the whole. -/
theorem flatMap_taken_isPrefix {us : List Upload} (hpre : ∀ u ∈ us, u.taken <+: u.payload)
    (hstop : us.Pairwise fun u v => u.taken ≠ u.payload → v.taken = []) :
    us.flatMap (·.taken) <+: us.flatMap (·.payload) := by
  induction us with
  | nil => exact List.prefix_refl []
  | cons u us ih =>
    obtain ⟨hu, hus⟩ := List.pairwise_cons.mp hstop
    rw [List.flatMap_cons, List.flatMap_cons]
    by_cases hwhole : u.taken = u.payload
    · rw [hwhole, List.prefix_append_right_inj]
      exact ih (fun v hv => hpre v (List.mem_cons_of_mem _ hv)) hus
    · have hnil : us.flatMap (·.taken) = [] :=
        List.flatMap_eq_nil_iff.mpr fun v hv => hu v hv hwhole
      rw [hnil, List.append_nil]
      exact (hpre u List.mem_cons_self).trans (List.prefix_append _ _)

/-- An answer for which nothing is missing afterwards. -/
theorem Upload.whole_finished_iff {e : Bytes × Turn} :
    (∀ err, (Upload.finished e).ended = some err → err ≠ some .fatal →
        (Upload.finished e).taken = (Upload.finished e).payload) ↔
      (e.2.err ≠ some .fatal → e.1.length ≤ e.2.room) := by
  rw [← finished_whole_iff]
  constructor
  · intro h hfatal
    exact h _ rfl hfatal
  · intro h err herr hfatal
    obtain rfl := Option.some.inj herr
    exact h hfatal

/-- The two conditions on what follows a task, if there was room for its payload. -/
theorem Upload.stops_finished_iff {e f : Bytes × Turn}
    (he : e.2.err ≠ some .fatal → e.1.length ≤ e.2.room) :
    ((Upload.finished e).taken ≠ (Upload.finished e).payload → (Upload.finished f).taken = []) ↔
      (e.2.err = some .fatal → e.1 ≠ [] → f.1 = [] ∨ f.2.room = 0) := by
  rw [Ne, finished_whole_iff, finished_none_iff]
  by_cases hfatal : e.2.err = some .fatal
  · rw [Turn.room_of_err hfatal, Nat.le_zero, List.length_eq_zero_iff]
    exact ⟨fun h _ hne => h hne, fun h hne => h hfatal hne⟩
  · exact ⟨fun _ h => absurd h hfatal, fun _ h => absurd (he hfatal) h⟩

/-- The tasks of answers that take all there is. -/
theorem TakeWhole.seamless {es : List (Bytes × Turn)} {rest : List Bytes} (h : TakeWhole es) :
    Seamless ((es.map Upload.finished ++ rest.map Upload.pending).map (·.payload))
      (es.map Upload.finished ++ rest.map Upload.pending) := by
  have hpre : ∀ u ∈ es.map Upload.finished ++ rest.map Upload.pending, u.taken <+: u.payload := by
    intro u hu
    rcases List.mem_append.mp hu with hu | hu
    · obtain ⟨e, -, rfl⟩ := List.mem_map.mp hu
      exact List.take_prefix _ _
    · obtain ⟨payload, -, rfl⟩ := List.mem_map.mp hu
      exact List.nil_prefix
  have hstops : (es.map Upload.finished ++ rest.map Upload.pending).Pairwise
      fun u v => u.taken ≠ u.payload → v.taken = [] := by
    refine List.pairwise_append.mpr ⟨List.pairwise_map.mpr ?_, List.pairwise_map.mpr ?_, ?_⟩
    · exact h.stops.imp_of_mem fun he _ hef => (Upload.stops_finished_iff (h.whole _ he)).mpr hef
    · exact List.pairwise_of_forall fun _ _ _ => rfl
    · rintro u - v hv -
      obtain ⟨payload, -, rfl⟩ := List.mem_map.mp hv
      rfl
  refine ⟨flatMap_taken_isPrefix hpre hstops, ?_, hstops.imp fun huv hfell => huv hfell.2⟩
  intro u hu
  rcases List.mem_append.mp hu with hu | hu
  · obtain ⟨e, he, rfl⟩ := List.mem_map.mp hu
    exact Upload.whole_finished_iff.mpr (h.whole e he)
  · obtain ⟨payload, -, rfl⟩ := List.mem_map.mp hu
    intro err herr
    cases herr

/-- What the answers must have been if there is no gap. -/
theorem Seamless.takeWhole {payloads : List Bytes} {es : List (Bytes × Turn)} {us : List Upload}
    (h : Seamless payloads (es.map Upload.finished ++ us)) : TakeWhole es := by
  have hwhole : ∀ e ∈ es, e.2.err ≠ some .fatal → e.1.length ≤ e.2.room := fun e he =>
    Upload.whole_finished_iff.mp (h.whole _ (List.mem_append_left _ (List.mem_map_of_mem he)))
  have hstops := List.pairwise_map.mp (List.pairwise_append.mp h.stops).1
  exact ⟨hwhole, hstops.imp_of_mem fun he _ hef =>
    (Upload.stops_finished_iff (hwhole _ he)).mp fun hne => hef (Upload.fell_finished_iff.mpr hne)⟩

/-- **Uploads have no gap** exactly if the answers that end the tasks leave none: each takes
the whole payload, or is a fatal error that is for good. -/
theorem uploads_seamless_iff (payloads : List Bytes) (turns : List Turn) :
    Seamless payloads (uploads payloads turns) ↔ TakeWhole (payloads.zip (ends turns)) := by
  have hpayloads := uploads_payload payloads turns
  rw [uploads_eq] at hpayloads ⊢
  constructor
  · exact Seamless.takeWhole
  · intro h
    have hseamless := @TakeWhole.seamless _ (payloads.drop (ends turns).length) h
    rwa [hpayloads] at hseamless

/-- **A write that takes a part** ends its task; the next one goes on with the next payload. -/
theorem shortWrite_counterexample :
    ¬ ∀ payloads turns, Seamless payloads (uploads payloads turns) := by
  intro h
  have hprefix := (h [[1, 2], [3]] [.accepted 1, .accepted 1]).inOrder
  exact absurd hprefix (by decide)

/-! ## The workers take the loops -/

/-- The steps of busy worker number `i` in a turn. -/
def Turn.labels (i : Nat) (payload : Bytes) : Turn → List Label
  | pollFailed => [.worker (.poll i false)]
  | accepted n =>
    [.worker (.poll i true), .worker (.write i (.accepted (min n payload.length)))]
  | failed .again => [.worker (.poll i true), .worker (.write i .again)]
  | failed _ => [.worker (.poll i true), .worker (.write i .error)]

/-- What an event adds to the bytes that tasks have written. -/
def Event.written : Event → Bytes
  | .wrote _ _ bytes => bytes
  | _ => []

/-- The bytes that tasks have written. -/
def State.written (s : State) : Bytes := s.log.flatMap Event.written

@[simp] theorem State.written_record {s : State} {e : Event} :
    (s.record e).written = s.written ++ e.written := by
  simp [written, record]

/-- Busy worker number `i` has had the turns that make its task into `u`. -/
structure TaskRan (i : Nat) (u : Upload) (s t : State) : Prop where
  /-- it wrote what the task did -/
  written : t.written = s.written ++ u.taken
  /-- and is free if the task is over -/
  running : t.pool.running =
    if u.ended = none then s.pool.running else s.pool.running.eraseIdx i
  /-- the queue is as before -/
  queue : t.pool.queue = s.pool.queue
  /-- so is what was lost -/
  lost : t.pool.lost = s.pool.lost
  /-- so are the streams -/
  managers : t.managers = s.managers

variable {env : Env} {s : State} {i : Nat} {task : WriteTask}

/-- After an answer that ends the task. -/
theorem TaskRan.of_eraseIdx {t : State} {turn : Turn} (hwritten : t.written =
      s.written ++ task.packet.data.take turn.room)
    (hpool : t.pool = { s.pool with running := s.pool.running.eraseIdx i })
    (hmanagers : t.managers = s.managers) :
    TaskRan i (.finished (task.packet.data, turn)) s t :=
  ⟨hwritten, by rw [hpool]; rfl, by rw [hpool], by rw [hpool], hmanagers⟩

theorem step_poll (hi : s.pool.running[i]? = some ⟨task, .locked⟩) :
    (server env).step s (.worker (.poll i true)) =
      some (s.setRunning (s.pool.running.set i ⟨task, .polled⟩)) := by
  change s.pollTask i true = _
  rw [State.pollTask, hi]
  rfl

/-- A task whose stream is there takes the lock. -/
theorem step_begin (hi : s.pool.running[i]? = some ⟨task, .started⟩)
    (hstream : (s.stream task.manager task.packet.streamId).isSome = true) :
    (server env).step s (.worker (.begin i)) =
      some ((s.setRunning (s.pool.running.set i ⟨task, .locked⟩)).record (.began task true)) := by
  change s.beginTask i = _
  rw [State.beginTask, hi]
  exact if_pos hstream

/-- The worker, after the poll. -/
theorem writeTask_polled (hi : s.pool.running[i]? = some ⟨task, .locked⟩) :
    (s.setRunning (s.pool.running.set i ⟨task, .polled⟩)).pool.running[i]? =
      some ⟨task, .polled⟩ :=
  List.getElem?_set_self (List.getElem?_eq_some_iff.mp hi).1

/-- A turn that is not the last one. -/
theorem run_again (hi : s.pool.running[i]? = some ⟨task, .locked⟩) :
    (server env).Run (fun _ _ => True) s (Turn.labels i task.packet.data (.failed .again)) s := by
  refine .cons trivial (step_poll hi) (.cons trivial ?_ (.nil s))
  change (s.setRunning _).writeTask i .again = _
  rw [State.writeTask, writeTask_polled hi]
  obtain ⟨hlt, hget⟩ := List.getElem?_eq_some_iff.mp hi
  have hsame : (s.pool.running.set i ⟨task, .polled⟩).set i ⟨task, .locked⟩ = s.pool.running := by
    rw [List.set_set, ← hget, List.set_getElem_self]
  change some (s.setRunning ((s.pool.running.set i ⟨task, .polled⟩).set i ⟨task, .locked⟩)) = _
  rw [hsame]
  rfl

/-- The last turn. -/
theorem run_last {turn : Turn} (hi : s.pool.running[i]? = some ⟨task, .locked⟩)
    (hlast : turn.err ≠ some .again) :
    ∃ t, (server env).Run (fun _ _ => True) s (turn.labels i task.packet.data) t ∧
      TaskRan i (.finished (task.packet.data, turn)) s t := by
  have herase : (s.pool.running.set i ⟨task, .polled⟩).eraseIdx i = s.pool.running.eraseIdx i :=
    List.eraseIdx_set_eq
  have herror : turn.room = 0 → ∀ t, t = s.setRunning (s.pool.running.eraseIdx i) →
      TaskRan i (.finished (task.packet.data, turn)) s t := by
    rintro hroom _ rfl
    refine .of_eraseIdx ?_ rfl rfl
    rw [hroom, List.take_zero, List.append_nil]
    rfl
  cases turn with
  | pollFailed =>
    refine ⟨_, .cons trivial ?_ (.nil _), herror rfl _ rfl⟩
    change s.pollTask i false = _
    rw [State.pollTask, hi]
    rfl
  | accepted n =>
    refine ⟨(s.setRunning (s.pool.running.eraseIdx i)).record (.wrote task
        (s.boundSock task.manager task.packet.streamId)
        (task.packet.data.take (min n task.packet.data.length))),
      .cons trivial (step_poll hi) (.cons trivial ?_ (.nil _)), .of_eraseIdx ?_ rfl rfl⟩
    · change (s.setRunning (s.pool.running.set i ⟨task, .polled⟩)).writeTask i
        (.accepted (min n task.packet.data.length)) = _
      rw [State.writeTask, writeTask_polled hi, ← herase]
      exact if_pos (Nat.min_le_right _ _)
    · rw [State.written_record]
      change s.written ++ task.packet.data.take (min n task.packet.data.length) = _
      rw [← List.take_eq_take_min]
      rfl
  | failed errno =>
    have hrun : (server env).Run (fun _ _ => True) s
        [.worker (.poll i true), .worker (.write i .error)]
        (s.setRunning (s.pool.running.eraseIdx i)) := by
      refine .cons trivial (step_poll hi) (.cons trivial ?_ (.nil _))
      change (s.setRunning _).writeTask i .error = _
      rw [State.writeTask, writeTask_polled hi, ← herase]
      rfl
    cases errno with
    | again => exact absurd rfl hlast
    | interrupted => exact ⟨_, hrun, herror rfl _ rfl⟩
    | fatal => exact ⟨_, hrun, herror rfl _ rfl⟩

/-- **A worker takes the loop**: what it did is what `writeLoop` says. -/
theorem run_writeLoop (hi : s.pool.running[i]? = some ⟨task, .locked⟩) (turns : List Turn) :
    ∃ used t, turns = used ++ (writeLoop task.packet.data turns).2 ∧
      (server env).Run (fun _ _ => True) s (used.flatMap (·.labels i task.packet.data)) t ∧
      TaskRan i (writeLoop task.packet.data turns).1 s t := by
  induction turns with
  | nil => exact ⟨[], s, rfl, .nil s, (List.append_nil _).symm, rfl, rfl, rfl, rfl⟩
  | cons turn turns ih =>
    by_cases hagain : turn.err = some .again
    · obtain ⟨used, t, hused, hrun, hran⟩ := ih
      rw [writeLoop_again hagain]
      refine ⟨turn :: used, t, congrArg _ hused, ?_, hran⟩
      cases turn with
      | failed errno =>
        obtain rfl := Option.some.inj hagain
        exact (run_again hi).append hrun
      | _ => cases hagain
    · obtain ⟨t, hrun, hran⟩ := @run_last env _ _ _ _ hi hagain
      rw [writeLoop, if_neg hagain]
      refine ⟨[turn], t, rfl, ?_, hran⟩
      rwa [List.flatMap_singleton]

/-- Without a byte taken. -/
theorem flatMap_taken_pending (payloads : List Bytes) :
    (payloads.map Upload.pending).flatMap (·.taken) = [] := by
  rw [List.flatMap_map]
  exact List.flatMap_eq_nil_iff.mpr fun _ _ => rfl

/-- **The workers take the tasks** one after the other, as in `uploads`: what is written is
what these take. -/
theorem run_uploads {tasks : List WriteTask} (hthreads : s.pool.lost < env.threadCount)
    (hrunning : s.pool.running = []) (hqueue : s.pool.queue = tasks)
    (hstreams : ∀ task ∈ tasks, (s.stream task.manager task.packet.streamId).isSome = true)
    (turns : List Turn) :
    ∃ labels t, (server env).Run (fun _ _ => True) s labels t ∧ t.managers = s.managers ∧
      t.written =
        s.written ++ (uploads (tasks.map (·.packet.data)) turns).flatMap (·.taken) := by
  induction tasks generalizing s turns with
  | nil => exact ⟨[], s, .nil s, rfl, (List.append_nil _).symm⟩
  | cons task tasks ih =>
    have hdequeue : (server env).step s (.worker .dequeue) = some { s with pool := { s.pool with
        queue := tasks, running := [⟨task, .started⟩] } } := by
      change s.dequeue env = _
      rw [State.dequeue, hqueue, hrunning]
      exact if_pos (by rwa [List.length_nil, Nat.zero_add])
    have hbegin := @step_begin env { s with pool := { s.pool with
      queue := tasks, running := [⟨task, .started⟩] } } 0 task rfl
      (hstreams task List.mem_cons_self)
    obtain ⟨used, t, hused, hrun, hran⟩ := @run_writeLoop env
      (State.record { s with pool := { s.pool with
        queue := tasks, running := [⟨task, .locked⟩] } } (.began task true)) 0 task rfl turns
    have hlabels : (server env).Run (fun _ _ => True) s _ t :=
      .cons trivial hdequeue (.cons trivial hbegin hrun)
    have hwritten : t.written = s.written ++ (writeLoop task.packet.data turns).1.taken := by
      rw [hran.written, State.written_record]
      exact congrArg (· ++ _) (List.append_nil s.written)
    rw [List.map_cons, uploads, List.flatMap_cons, ← List.append_assoc, ← hwritten]
    rcases writeLoop_cases task.packet.data turns with ⟨-, hloop⟩ | ⟨turn, rest, -, hloop⟩
    · refine ⟨_, t, hlabels, hran.managers, ?_⟩
      rw [hloop, uploads_nil, flatMap_taken_pending, List.append_nil]
    · have hrunning' : t.pool.running = [] := by
        rw [hran.running, hloop]
        rfl
      obtain ⟨labels, v, hrun', hmanagers, hv⟩ := ih (s := t) (by rwa [hran.lost]) hrunning'
        hran.queue (fun task' htask' => by
          rw [State.stream, hran.managers]
          exact hstreams task' (List.mem_cons_of_mem _ htask'))
        (writeLoop task.packet.data turns).2
      exact ⟨_, v, hlabels.append hrun', hmanagers.trans hran.managers, hv⟩

end Woeful
