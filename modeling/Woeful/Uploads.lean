import Woeful.Lib.Names
import Woeful.Pool

/-!
# From the client to the target

`handle_data` checks that the stream exists and submits a task; the task takes
`stream_lock` and looks the stream up again, whenever that is. The lock covers
what comes after (`LocksHeld`), nothing covers the time before. Two things can
happen to the stream in between, and each has a condition on the step that does
it:

- it is closed, and the task finds nothing: `tasks_safe` under
  `State.closesUnused`, `dangling_counterexample` without it;
- its id is bound again, and the task writes to the new connection:
  `uploads_directed` under `State.insertsUnused`, `misdirected_counterexample`
  without it. The id is the name here, and the tasks are its references
  (`Woeful.Lib.Names`).
-/

namespace Woeful

open Memory Transition Names

variable {env : Env} {s t : State}

/-! ## Tasks and closed streams -/

/-- The condition on a step: `close_stream` closes no stream that a task is
waiting for. -/
def State.closesUnused (s : State) : Label → Bool
  | .loop .resume =>
    match s.closing? with
    | some stream => s.pool.waiting.all fun t => t.stream ≠ stream
    | none => true
  | _ => true

/-- What it means that tasks do not outlive what they use. -/
structure TasksSafe (s : State) : Prop where
  /-- every task that took the lock found its manager and its stream -/
  began : ∀ task found, .began task found ∈ s.log → found = true
  /-- and the stream is there as long as the task has the lock -/
  deref : ∀ w ∈ s.pool.running, w.phase ≠ .started →
    s.stream w.task.manager w.task.packet.streamId ≠ none

/-- The invariant: the stream of a waiting task exists. -/
structure Attended (s : State) : Prop where
  /-- the stream of a waiting task exists -/
  waiting : ∀ task ∈ s.pool.waiting, s.binding task.manager task.packet.streamId ≠ none
  /-- no task missed its stream -/
  began : ∀ task found, .began task found ∈ s.uploadLog → found = true

/-- **A step that closes no stream a task is waiting for keeps tasks safe.** -/
theorem Attended.step {l : Label} (hs : s.step env l = some t) (hw : WellBound s)
    (hg : s.closesUnused l = true) (h : Attended s) : Attended t := by
  have hkeep : ∀ task ∈ s.pool.waiting, t.binding task.manager task.packet.streamId ≠ none := by
    intro task htask
    rcases (step_tableMove hs hw).binding_ne_none (h.waiting task htask) with hb | ⟨rfl, hc, -⟩
    · exact hb
    · rw [State.closesUnused, hc] at hg
      exact absurd rfl (of_decide_eq_true (List.all_eq_true.mp hg task htask))
  cases step_poolMove hs with
  | same hpool hlog =>
    refine ⟨?_, ?_⟩
    · rw [hpool]
      exact hkeep
    · rw [hlog]
      exact h.began
  | @submit l m packet hd hsame hpool hlog =>
    refine ⟨fun task htask => ?_, fun task found he => ?_⟩
    · rw [hpool, ThreadPool.mem_waiting] at htask
      rcases htask with hrun | hqueue
      · exact hkeep task (ThreadPool.mem_waiting.mpr (Or.inl hrun))
      · rcases List.mem_append.mp hqueue with hqueue | hnew
        · exact hkeep task (ThreadPool.mem_waiting.mpr (Or.inr hqueue))
        · obtain rfl := List.mem_singleton.mp hnew
          rw [hsame.binding]
          exact State.binding_ne_none.mpr hd
    · rw [hlog] at he
      rcases List.mem_append.mp he with he | he
      · exact h.began task found he
      · cases List.mem_singleton.mp he
  | worker hmove =>
    refine ⟨fun task htask => hkeep task (hmove.mem_waiting htask), fun task found he => ?_⟩
    cases hmove with
    | begin hi hd =>
      rcases State.mem_uploadLog_record rfl he with he | he
      · exact h.began task found he
      · cases he
        rfl
    | fault hi hd =>
      have hwaiting := ThreadPool.mem_waiting.mpr (Or.inl (List.mem_of_getElem? hi))
      exact absurd hd (State.binding_ne_none.mp (h.waiting _ hwaiting))
    | write hi hn =>
      rcases State.mem_uploadLog_record rfl he with he | he
      · exact h.began task found he
      · cases he
    | _ => exact h.began task found he

theorem Attended.initial (env : Env) : Attended (State.initial env) where
  waiting _ ht := nomatch ht
  began _ _ he := nomatch he

/-- **Write tasks never outlive what they use**, in every run in which no stream
is closed while a task is waiting for it. -/
theorem tasks_safe (h : (server env).Reaches (fun s l => s.closesUnused l = true) s) :
    TasksSafe s := by
  have hlocks : LocksHeld s := .of_reaches h
  have hattended : Attended s :=
    h.invariant_of (fun _ => WellBound.of_reaches) (.initial env)
      fun _ _ _ hg hst hw ha => ha.step hst hw hg
  refine ⟨fun task found he => ?_, fun w hw hphase => ?_⟩
  · exact hattended.began task found (List.mem_filter.mpr ⟨he, rfl⟩)
  · exact State.binding_ne_none.mp (hlocks w hw hphase)

/-- A payload is accepted and written, and then the websocket closes. -/
def writeThenClose : List Label :=
  [.loop .opened] ++ connectLabels 0 1 7 ++ [dataLabel 0 1 [1, 2, 3], .worker .dequeue,
    .worker (.begin 0), .worker (.poll 0 true), .worker (.write 0 (.accepted 3))] ++
    closeLabels 0 1

theorem tasks_safe_writeThenClose :
    TasksSafe ((server {}).final (fun s l => s.closesUnused l = true) writeThenClose) :=
  tasks_safe (System.reaches_final _ _ _ (by decide +kernel))

/-- A payload is accepted, the websocket closes, and then a worker takes the task. -/
def closeThenBegin : List Label :=
  [.loop .opened] ++ connectLabels 0 1 7 ++ [dataLabel 0 1 [1, 2, 3]] ++ closeLabels 0 1 ++
    [.worker .dequeue, .worker (.begin 0)]

/-- **The dangling task**: it begins after its manager was destroyed. -/
theorem dangling_counterexample :
    ¬ ∀ (env : Env) (s : State), (server env).Reachable s → TasksSafe s := by
  intro h
  have hsafe := h {} _
    ((server {}).reaches_final (fun _ _ => True) closeThenBegin
      (by decide +kernel))
  have hfound := hsafe.began ⟨0, ⟨packetData, 1, [1, 2, 3]⟩, some 0⟩ false (by decide +kernel)
  cases hfound

/-! ## Tasks and rebound ids -/

/-- The condition on a step: a stream is stored only under an id that no
unfinished task is for. -/
def State.insertsUnused (s : State) : Label → Bool
  | .loop .resume =>
    match s.loop with
    | .insert c _ => s.pool.unfinished.all fun t => t.stream ≠ (c.manager, c.streamId)
    | _ => true
  | _ => true

/-- The sockets the streams are bound to, as a table of names. -/
def State.boundTo (s : State) (stream : Nat × UInt32) : Option Nat := s.boundSock stream.1 stream.2

/-- A task as a reference to its stream: it saw the socket of its submission. -/
def WriteTask.ref (t : WriteTask) : Ref (Nat × UInt32) Nat := ⟨t.stream, [t.sock]⟩

/-- Every write went to the socket that the stream was bound to when the payload
was accepted, and wrote nothing but the payload. -/
def UploadsDirected (s : State) : Prop :=
  ∀ task sock bytes, .wrote task sock bytes ∈ s.log →
    (∃ n, sock = some n ∧ task.sock = some n) ∧ bytes <+: task.packet.data

/-- The invariant: the tasks are current, and what was written was directed. -/
structure Directed (s : State) : Prop where
  /-- a stream is bound to nothing but what its unfinished tasks were accepted for -/
  current : AllCurrent s.boundTo (s.pool.unfinished.map WriteTask.ref)
  /-- what was written was directed -/
  wrote : ∀ task sock bytes, .wrote task sock bytes ∈ s.uploadLog →
    (∃ n, sock = some n ∧ task.sock = some n) ∧ bytes <+: task.packet.data

/-- Only the insertion binds an id to a new socket. -/
theorem TableMove.keeps_boundTo {l : Label} (hs : TableMove s t l) (hw : TableOk s)
    (stream : Nat × UInt32) :
    Keeps s.boundTo t.boundTo stream ∨
      l = .loop .resume ∧ ∃ c fd, s.loop = .insert c fd ∧ stream = (c.manager, c.streamId) := by
  obtain ⟨m, id⟩ := stream
  have hbound : ∀ u : State, u.boundTo (m, id) = (u.binding m id).bind u.kernel.sockAt :=
    fun _ => rfl
  -- a step that opens or closes `fd` only: a bound descriptor cannot be a new one
  have hupdate : ∀ (fd : Fd) (b : Option Nat), (s.binding m id ≠ some fd ∨ b = none) →
      t.kernel.sockAt = Function.update s.kernel.sockAt fd b → t.binding m id = s.binding m id →
      Keeps s.boundTo t.boundTo (m, id) := by
    intro fd b hfd hsock hbind o ho
    rw [hbound, hbind, hsock, Option.bind_eq_some_iff] at ho
    obtain ⟨fd', hb, ho⟩ := ho
    rw [Function.update_apply] at ho
    rw [hbound, hb]
    split at ho
    · rename_i he
      rcases hfd with hne | rfl
      · exact absurd (he ▸ hb) hne
      · cases ho
    · exact ho
  cases hs with
  | same hsock _ hbind => exact Or.inl (.of_eq (by rw [hbound, hbound, hsock, hbind]))
  | @socket c fd hl hnone hsock hsocks hbind =>
    refine Or.inl (hupdate fd _ (Or.inl fun hb => ?_) hsock (by rw [hbind]))
    obtain ⟨n, hn, -⟩ := hw.owned m id fd hb
    exact Kernel.files_of_sockAt hn hnone
  | abandon _ hsock _ hbind => exact Or.inl (hupdate _ none (Or.inr rfl) hsock (by rw [hbind]))
  | @insert c fd hl hsock _ hbind =>
    by_cases he : m = c.manager ∧ id = c.streamId
    · exact Or.inr ⟨rfl, c, fd, hl, by rw [he.1, he.2]⟩
    · refine Or.inl (.of_eq ?_)
      rw [hbound, hbound, hsock, hbind, if_neg he]
  | @close m' id' fd _ hb _ _ hsock _ hbind =>
    left
    by_cases he : m = m' ∧ id = id'
    · intro o ho
      rw [hbound, hbind, if_pos he] at ho
      cases ho
    · exact hupdate fd none (Or.inr rfl) hsock (by rw [hbind, if_neg he])

/-- What a task that is about to write finds. -/
theorem Directed.bound (hw : TableOk s) (hlocks : LocksHeld s) (h : Directed s) {task : WriteTask}
    (ht : ⟨task, .polled⟩ ∈ s.pool.running) :
    ∃ n, s.boundSock task.manager task.packet.streamId = some n ∧ task.sock = some n := by
  obtain ⟨fd, hb⟩ := Option.ne_none_iff_exists'.mp (hlocks _ ht nofun)
  obtain ⟨n, hbound, -, -⟩ := hw.owner hb
  have hunfinished := ThreadPool.mem_unfinished.mpr (Or.inl ⟨_, ht⟩)
  have hcurrent := h.current task.ref (List.mem_map_of_mem hunfinished) n hbound
  exact ⟨n, hbound, hcurrent task.sock (List.mem_singleton_self _)⟩

/-- **A step that binds no id a task is for keeps writes directed.** -/
theorem Directed.step {l : Label} (hs : s.step env l = some t) (hw : WellBound s)
    (hlocks : LocksHeld s) (hg : s.insertsUnused l = true) (h : Directed s) : Directed t := by
  have hkeep : ∀ r ∈ s.pool.unfinished.map WriteTask.ref, r.seen ≠ [] →
      Keeps s.boundTo t.boundTo r.name := by
    intro r hr _
    obtain ⟨task, htask, rfl⟩ := List.mem_map.mp hr
    rcases (step_tableMove hs hw).keeps_boundTo hw.table task.ref.name with
      hkeeps | ⟨rfl, c, fd, hl, hname⟩
    · exact hkeeps
    · rw [State.insertsUnused, hl] at hg
      exact absurd hname (of_decide_eq_true (List.all_eq_true.mp hg task htask))
  cases step_poolMove hs with
  | same hpool hlog =>
    refine ⟨h.current.step (fun r hr => Or.inl ?_) hkeep, ?_⟩
    · rw [hpool] at hr
      exact hr
    · rw [hlog]
      exact h.wrote
  | @submit l m packet hd hsame hpool hlog =>
    refine ⟨h.current.step (fun r hr => ?_) hkeep, fun task sock bytes he => ?_⟩
    · obtain ⟨task, htask, rfl⟩ := List.mem_map.mp hr
      rw [hpool, ThreadPool.unfinished_submit] at htask
      rcases List.mem_append.mp htask with hold | hnew
      · exact Or.inl (List.mem_map_of_mem hold)
      · obtain rfl := List.mem_singleton.mp hnew
        -- the new task saw what its stream is bound to
        refine Or.inr fun o ho k hk => ?_
        obtain rfl := List.mem_singleton.mp hk
        change t.boundSock m packet.streamId = some o at ho
        rw [hsame.boundSock] at ho
        exact ho
    · rw [hlog] at he
      rcases List.mem_append.mp he with he | he
      · exact h.wrote task sock bytes he
      · cases List.mem_singleton.mp he
  | worker hmove =>
    have hcurrent : AllCurrent t.boundTo (t.pool.unfinished.map WriteTask.ref) := by
      refine h.current.step (fun r hr => Or.inl ?_) hkeep
      obtain ⟨task, htask, rfl⟩ := List.mem_map.mp hr
      exact List.mem_map_of_mem (hmove.mem_unfinished htask)
    refine ⟨hcurrent, fun task sock bytes he => ?_⟩
    cases hmove with
    | begin hi hd =>
      rcases State.mem_uploadLog_record rfl he with he | he
      · exact h.wrote task sock bytes he
      · cases he
    | fault hi hd =>
      rcases State.mem_uploadLog_record rfl he with he | he
      · exact h.wrote task sock bytes he
      · cases he
    | write hi hn =>
      rcases State.mem_uploadLog_record rfl he with he | he
      · exact h.wrote task sock bytes he
      · cases he
        exact ⟨h.bound hw.table hlocks (List.mem_of_getElem? hi), List.take_prefix _ _⟩
    | _ => exact h.wrote task sock bytes he

theorem Directed.initial (env : Env) : Directed (State.initial env) where
  current _ hr := nomatch hr
  wrote _ _ _ he := nomatch he

theorem Directed.of_reaches (h : (server env).Reaches (fun s l => s.insertsUnused l = true) s) :
    Directed s :=
  h.invariant_of (J := fun s => WellBound s ∧ LocksHeld s)
    (fun _ hr => ⟨.of_reaches hr, .of_reaches hr⟩) (.initial env)
    fun _ _ _ hg hst hJ hd => hd.step hst hJ.1 hJ.2 hg

/-- A payload is accepted and written, and then the client connects again on the
same id. -/
def writeThenConnect : List Label :=
  [.loop .opened] ++ connectLabels 0 1 7 ++ [dataLabel 0 1 [1, 2, 3], .worker .dequeue,
    .worker (.begin 0), .worker (.poll 0 true), .worker (.write 0 (.accepted 3))] ++
    connectLabels 0 1 8

/-- A payload is accepted, the client connects again on the same id, and then a
worker writes the payload. -/
def connectThenWrite : List Label :=
  [.loop .opened] ++ connectLabels 0 1 7 ++ [dataLabel 0 1 [1, 2, 3]] ++ connectLabels 0 1 8 ++
    [.worker .dequeue, .worker (.begin 0), .worker (.poll 0 true),
      .worker (.write 0 (.accepted 3))]

end Woeful
