import Mathlib.Data.List.InsertIdx
import Woeful.Lib.Journal
import Woeful.Lib.Log
import Woeful.Locks
import Woeful.Pcap
import Woeful.WriteOrder

/-!
# Captured uploads

`Capture` is the server built with PCAP and run with `pcap_capture`: every stream has a
file, `send_data` records what it sends, and a write task records its payload with
`write_dummy_user`, at the head of its retry loop. That is before `poll` and `write`, once
in each turn, and under a lock of its own; so the file tells what was tried.

It tells what the kernel took if every task of the stream gets its payload written at the
first try, and tasks write in the order in which they recorded (`Capture.asRecorded`). One
`EAGAIN` is enough to record a payload twice (`recordedTwice_counterexample`).
-/

namespace Woeful

open Memory Transition Log Journal

variable {env : Env} {s t : State} {k : Nat}

/-! ## The server with its files -/

/-- The server with its files. -/
structure Capture where
  /-- the server -/
  server : State
  /-- the file of the stream that is bound to a socket -/
  pcap : Nat → PcapInterface
  /-- for every busy worker, the packet that it recorded in this turn of its loop -/
  turns : List (Option Nat) := []

/-- Who moves. -/
inductive CaptureLabel where
  /-- the `i`-th busy worker calls `write_dummy_user` -/
  | writeDummyUser (i : Nat)
  /-- the server takes a step -/
  | server (l : Label)

/-- The busy worker whose turn ends with a step. -/
def Label.endsTurn : Label → Option Nat
  | .worker (.poll i false) => some i
  | .worker (.write i _) => some i
  | _ => none

namespace Capture

/-- The tasks of the busy workers. -/
def tasks (c : Capture) : List WriteTask := c.server.pool.running.map (·.task)

/-- The socket a task writes to, once it has the lock. -/
def sockOf (c : Capture) (task : WriteTask) : Option Nat :=
  c.server.boundSock task.manager task.packet.streamId

/-- `write_dummy_user`, at the head of a turn. -/
def writeDummyUser (c : Capture) (i : Nat) : Option Capture :=
  match c.server.pool.running[i]?, c.turns[i]? with
  | some ⟨task, .locked⟩, some none =>
    match c.sockOf task with
    | none => none
    | some k => some { c with
        pcap := Function.update c.pcap k ((c.pcap k).writeDummyUser task.packet.data)
        turns := c.turns.set i (some (c.pcap k).out.length) }
  | _, _ => none

/-- `send_data`: `write_dummy_target`, for an entry that the closure found. -/
def writeDummyTarget (s : State) (p : Pass) (pcap : Nat → PcapInterface) (h : Nat × UInt32) :
    Nat → PcapInterface :=
  match s.boundSock h.1 h.2 with
  | none => pcap
  | some k => Function.update pcap k ((pcap k).writeDummyTarget p.combinedBuffer)

/-- The files after a step of the server. -/
def pcapAfter (c : Capture) : Label → Nat → PcapInterface
  | .loop .deferred =>
    match c.server.deferred with
    | [] => c.pcap
    | p :: _ => (c.server.holders p.fd).foldl (writeDummyTarget c.server p) c.pcap
  | _ => c.pcap

/-- The turns after a step of the server. -/
def turnsAfter (c : Capture) : Label → List (Option Nat)
  | .worker .dequeue => c.turns ++ [none]
  | .worker (.begin i) =>
    if (c.tasks[i]?).any fun task => (c.server.stream task.manager task.packet.streamId).isNone then
      c.turns.eraseIdx i
    else c.turns
  | .worker (.poll i false) => c.turns.eraseIdx i
  | .worker (.write i .again) => c.turns.set i none
  | .worker (.write i _) => c.turns.eraseIdx i
  | _ => c.turns

/-- A task polls when it has recorded. -/
def mayTake (c : Capture) : Label → Bool
  | .worker (.poll i _) => (c.turns[i]?).any Option.isSome
  | _ => true

/-- One step. -/
def step (env : Env) (c : Capture) : CaptureLabel → Option Capture
  | .writeDummyUser i => c.writeDummyUser i
  | .server l =>
    if c.mayTake l then
      (c.server.step env l).map fun s => ⟨s, c.pcapAfter l, c.turnsAfter l⟩
    else none

/-! The condition. -/

/-- Worker `i` has a payload for socket `k`. -/
def uploads (c : Capture) (k i : Nat) : Bool :=
  (c.tasks[i]?).any fun task => c.sockOf task = some k ∧ task.packet.data ≠ []

/-- Among the workers that have recorded a payload for socket `k`, worker `i` was first. -/
def isFirst (c : Capture) (k i : Nat) : Bool :=
  (List.range c.turns.length).all fun i' => i' = i || !c.uploads k i' ||
    (c.turns[i']?.join).all fun j' => (c.turns[i]?.join).any fun j => j < j'

/-- The condition on a step: a payload for socket `k` is written whole at the first try, by
the task that has recorded its payload first. -/
def asRecorded (k : Nat) (c : Capture) : CaptureLabel → Bool
  | .server (.worker (.poll i ok)) => ok || !c.uploads k i
  | .server (.worker (.write i res)) => !c.uploads k i ||
      c.isFirst k i && (c.tasks[i]?).all fun task => res = .accepted task.packet.data.length
  | _ => true

end Capture

/-- The server with capture on. `peer` is the address and the port that the stream of a
socket was connected to. -/
def capture (env : Env) (peer : Nat → String × UInt16) : System Capture CaptureLabel where
  init := { server := State.initial env, pcap := fun k => .start (peer k).1 (peer k).2 }
  step := Capture.step env

/-- The file of socket `k` tells what was written to it. -/
structure CaptureFaithful (k : Nat) (c : Capture) : Prop where
  /-- what was written is recorded, in order -/
  inOrder : c.server.writtenTo k <+: (c.pcap k).uploaded
  /-- and nothing else, as soon as no task is between its record and the end of its turn -/
  complete : (∀ (i j : Nat) (task : WriteTask), c.tasks[i]? = some task →
    c.turns[i]? = some (some j) → c.sockOf task ≠ some k) →
    (c.pcap k).uploaded = c.server.writtenTo k

/-! ## Lists of the busy workers -/

/-- What two lists have at the same place, when a place is taken out of both. -/
theorem exists_eraseIdx_iff {A B : Type} {l : List A} {l' : List B} {i : Nat} {a : A} {b : B} :
    (∃ j : Nat, (l.eraseIdx i)[j]? = some a ∧ (l'.eraseIdx i)[j]? = some b) ↔
      ∃ j : Nat, l[j]? = some a ∧ l'[j]? = some b ∧ j ≠ i := by
  constructor
  · rintro ⟨j, ha, hb⟩
    rw [List.getElem?_eraseIdx] at ha hb
    split at ha
    · rename_i hlt
      rw [if_pos hlt] at hb
      exact ⟨j, ha, hb, Nat.ne_of_lt hlt⟩
    · rename_i hge
      rw [if_neg hge] at hb
      exact ⟨j + 1, ha, hb, Nat.ne_of_gt (Nat.lt_succ_of_le (Nat.not_lt.mp hge))⟩
  · rintro ⟨j, ha, hb, hne⟩
    rcases Nat.lt_or_gt_of_ne hne with hlt | hgt
    · exact ⟨j, (List.getElem?_eraseIdx_of_lt hlt).trans ha,
        (List.getElem?_eraseIdx_of_lt hlt).trans hb⟩
    · obtain ⟨j, rfl⟩ := Nat.exists_eq_succ_of_ne_zero (Nat.ne_zero_of_lt hgt)
      have hge := Nat.le_of_lt_succ hgt
      exact ⟨j, (List.getElem?_eraseIdx_of_ge hge).trans ha,
        (List.getElem?_eraseIdx_of_ge hge).trans hb⟩

/-- A list in which the value of a place is stored again. -/
theorem set_of_getElem? {A : Type} {l : List A} {i : Nat} {a : A} (h : l[i]? = some a) :
    l.set i a = l := by
  obtain ⟨hlt, rfl⟩ := List.getElem?_eq_some_iff.mp h
  exact List.set_getElem_self hlt

/-- A task that has not begun has recorded nothing, and one that is about to write has. -/
structure Worker.Agrees (w : Worker) (turn : Option Nat) : Prop where
  /-- a task that has not begun -/
  started : w.phase = .started → turn = none
  /-- a task that is about to write -/
  polled : w.phase = .polled → turn ≠ none

/-- The turns agree with the workers. -/
structure TurnsOk (running : List Worker) (turns : List (Option Nat)) : Prop where
  /-- every busy worker has a turn -/
  aligned : turns.length = running.length
  /-- and agrees with it -/
  agrees : ∀ {i : Nat} {w : Worker} {turn : Option Nat}, running[i]? = some w →
    turns[i]? = some turn → w.Agrees turn

namespace TurnsOk

variable {running : List Worker} {turns : List (Option Nat)} {i : Nat} {w : Worker}
  {turn : Option Nat}

/-- The turn of a busy worker. -/
theorem exists_turn (h : TurnsOk running turns) (hi : running[i]? = some w) :
    ∃ turn, turns[i]? = some turn ∧ w.Agrees turn := by
  have hlt := (List.getElem?_eq_some_iff.mp hi).1
  rw [← h.aligned] at hlt
  exact ⟨turns[i], List.getElem?_eq_getElem hlt, h.agrees hi (List.getElem?_eq_getElem hlt)⟩

theorem nil : TurnsOk [] [] where
  aligned := rfl
  agrees hi := by cases hi

/-- A worker becomes busy. -/
theorem snoc (h : TurnsOk running turns) (hw : w.Agrees turn) :
    TurnsOk (running ++ [w]) (turns ++ [turn]) where
  aligned := by rw [List.length_append, List.length_append, h.aligned]; rfl
  agrees {j w' turn'} hj hj' := by
    rw [List.getElem?_append] at hj hj'
    rw [h.aligned] at hj'
    split at hj
    · rename_i hlt
      rw [if_pos hlt] at hj'
      exact h.agrees hj hj'
    · rename_i hge
      rw [if_neg hge] at hj'
      obtain rfl := List.mem_singleton.mp (List.mem_of_getElem? hj)
      obtain rfl := List.mem_singleton.mp (List.mem_of_getElem? hj')
      exact hw

/-- A busy worker goes on. -/
theorem set (h : TurnsOk running turns) (hw : w.Agrees turn) :
    TurnsOk (running.set i w) (turns.set i turn) where
  aligned := by rw [List.length_set, List.length_set, h.aligned]
  agrees {j w' turn'} hj hj' := by
    by_cases he : i = j
    · subst he
      have hlt := (List.getElem?_eq_some_iff.mp hj).1
      rw [List.length_set] at hlt
      rw [List.getElem?_set_self hlt] at hj
      rw [List.getElem?_set_self (h.aligned ▸ hlt)] at hj'
      obtain rfl := Option.some.inj hj
      obtain rfl := Option.some.inj hj'
      exact hw
    · rw [List.getElem?_set_ne he] at hj hj'
      exact h.agrees hj hj'

/-- A worker is done. -/
theorem erase (h : TurnsOk running turns) : TurnsOk (running.eraseIdx i) (turns.eraseIdx i) where
  aligned := by rw [List.length_eraseIdx, List.length_eraseIdx, h.aligned]
  agrees hj hj' := by
    obtain ⟨_, ha, hb, -⟩ := exists_eraseIdx_iff.mp ⟨_, hj, hj'⟩
    exact h.agrees ha hb

end TurnsOk

/-! ## Recordings -/

/-- Worker `i` has recorded the payload of `task` as packet `j`, in this turn. -/
def Capture.Recorded (c : Capture) (task : WriteTask) (j i : Nat) : Prop :=
  c.tasks[i]? = some task ∧ c.turns[i]? = some (some j)

/-- The task of a busy worker. -/
theorem Capture.task_of_running {c : Capture} {w : Worker} {i : Nat}
    (hi : c.server.pool.running[i]? = some w) : c.tasks[i]? = some w.task := by
  rw [tasks, List.getElem?_map, hi]
  rfl

/-- A worker that goes on keeps its task. -/
theorem Capture.tasks_set {c c' : Capture} {i : Nat} {task : WriteTask} {phase phase' : TaskPhase}
    (hi : c.server.pool.running[i]? = some ⟨task, phase⟩)
    (hp : c'.server.pool.running = c.server.pool.running.set i ⟨task, phase'⟩) :
    c'.tasks = c.tasks := by
  rw [tasks, tasks, hp]
  exact ThreadPool.map_task_set hi phase'

/-- What a step of the server does to the turns. -/
structure TurnsMove (c : Capture) (l : Label) (c' : Capture) : Prop where
  /-- the turns still agree with the workers -/
  ok : TurnsOk c'.server.pool.running c'.turns
  /-- a task keeps its recording to the end of its turn -/
  recorded : ∀ task j, (∃ i, c'.Recorded task j i) ↔
    ∃ i, c.Recorded task j i ∧ l.endsTurn ≠ some i

theorem TurnsMove.of_eq {c c' : Capture} {l : Label} (h : TurnsOk c.server.pool.running c.turns)
    (hp : c'.server.pool.running = c.server.pool.running) (ht : c'.turns = c.turns)
    (hl : l.endsTurn = none) : TurnsMove c l c' where
  ok := by rwa [hp, ht]
  recorded task j := by
    simp [Capture.Recorded, Capture.tasks, hp, ht, hl]

/-- A worker is done. -/
theorem TurnsMove.of_erase {c c' : Capture} {l : Label} {i : Nat}
    (h : TurnsOk c.server.pool.running c.turns)
    (hp : c'.server.pool.running = c.server.pool.running.eraseIdx i)
    (ht : c'.turns = c.turns.eraseIdx i)
    (hl : l.endsTurn = some i ∨ l.endsTurn = none ∧ c.turns[i]? = some none) :
    TurnsMove c l c' where
  ok := by
    rw [hp, ht]
    exact h.erase
  recorded task j := by
    have hmap : c'.tasks = c.tasks.eraseIdx i := by
      rw [Capture.tasks, Capture.tasks, hp, List.eraseIdx_map]
    simp only [Capture.Recorded, hmap, ht, exists_eraseIdx_iff]
    refine exists_congr fun i' => ?_
    rw [and_assoc]
    refine and_congr_right fun _ => and_congr_right fun hturn => ?_
    rcases hl with hl | ⟨hl, hnone⟩
    · rw [hl]
      simp [eq_comm]
    · rw [hl]
      refine iff_of_true ?_ nofun
      rintro rfl
      rw [hnone] at hturn
      cases hturn

/-- A worker goes on, and keeps its turn. -/
theorem TurnsMove.of_set {c c' : Capture} {l : Label} {i : Nat} {task : WriteTask}
    {phase phase' : TaskPhase} {turn : Option Nat} (h : TurnsOk c.server.pool.running c.turns)
    (hi : c.server.pool.running[i]? = some ⟨task, phase⟩) (hturn : c.turns[i]? = some turn)
    (hp : c'.server.pool.running = c.server.pool.running.set i ⟨task, phase'⟩)
    (hagrees : (⟨task, phase'⟩ : Worker).Agrees turn)
    (ht : c'.turns = c.turns) (hl : l.endsTurn = none) : TurnsMove c l c' where
  ok := by
    rw [hp, ht, ← set_of_getElem? hturn]
    exact h.set hagrees
  recorded task' j := by
    simp [Capture.Recorded, Capture.tasks_set hi hp, ht, hl]

/-- A worker begins another turn. -/
theorem TurnsMove.of_again {c c' : Capture} {l : Label} {i : Nat} {task : WriteTask}
    {phase : TaskPhase} (h : TurnsOk c.server.pool.running c.turns)
    (hi : c.server.pool.running[i]? = some ⟨task, phase⟩)
    (hp : c'.server.pool.running = c.server.pool.running.set i ⟨task, .locked⟩)
    (ht : c'.turns = c.turns.set i none) (hl : l.endsTurn = some i) : TurnsMove c l c' where
  ok := by
    rw [hp, ht]
    exact h.set ⟨nofun, nofun⟩
  recorded task' j := by
    simp only [Capture.Recorded, Capture.tasks_set hi hp, ht, hl, and_assoc, List.getElem?_set]
    refine exists_congr fun i' => and_congr_right fun _ => ?_
    split
    · rename_i he
      subst he
      simp
    · rename_i hne
      simp [hne]

variable {peer : Nat → String × UInt16}

/-- **The turns follow the workers.** -/
theorem step_turnsMove {c : Capture} {l : WorkerLabel} (hs : WorkerMove env c.server l t)
    (hmay : c.mayTake (.worker l) = true) (h : TurnsOk c.server.pool.running c.turns) :
    TurnsMove c (.worker l) ⟨t, c.pcapAfter (.worker l), c.turnsAfter (.worker l)⟩ := by
  cases hs with
  | @dequeue task queue hq hlt =>
    refine ⟨h.snoc ⟨fun _ => rfl, nofun⟩, fun task' j => ?_⟩
    refine exists_congr fun i => ?_
    change (((c.server.pool.running ++ [_]).map _)[i]? = _ ∧ (c.turns ++ [none])[i]? = _) ↔ _
    rw [List.map_append, List.getElem?_append, List.getElem?_append, List.length_map, h.aligned]
    split
    · simp [Capture.Recorded, Capture.tasks, Label.endsTurn]
    · rename_i hge
      refine iff_of_false (fun ⟨_, hj⟩ => ?_) (fun ⟨⟨_, hj⟩, _⟩ => ?_)
      · cases List.mem_singleton.mp (List.mem_of_getElem? hj)
      · exact hge (h.aligned ▸ (List.getElem?_eq_some_iff.mp hj).1)
  | @begin i task d hi hd =>
    obtain ⟨turn, hturn, hagrees⟩ := h.exists_turn hi
    obtain rfl := hagrees.started rfl
    refine .of_set h hi hturn rfl ⟨nofun, nofun⟩ ?_ rfl
    simp [Capture.turnsAfter, Capture.task_of_running hi, hd]
  | @fault i task hi hd =>
    obtain ⟨turn, hturn, hagrees⟩ := h.exists_turn hi
    obtain rfl := hagrees.started rfl
    refine .of_erase h rfl ?_ (Or.inr ⟨rfl, hturn⟩)
    simp [Capture.turnsAfter, Capture.task_of_running hi, hd]
  | @poll i task hi =>
    obtain ⟨turn, hturn, -⟩ := h.exists_turn hi
    rw [Capture.mayTake, hturn] at hmay
    refine .of_set h hi hturn rfl ⟨nofun, fun _ hnone => ?_⟩ rfl rfl
    rw [hnone] at hmay
    cases hmay
  | pollFail hi => exact .of_erase h rfl rfl (Or.inl rfl)
  | write hi hn => exact .of_erase h rfl rfl (Or.inl rfl)
  | again hi => exact .of_again h hi rfl rfl rfl
  | writeFail hi => exact .of_erase h rfl rfl (Or.inl rfl)

/-! ## What a step of the server leaves alone -/

/-- A task that has the lock writes to the same socket all the time. -/
theorem boundSock_of_holds {l : Label} {w : Worker} (hs : s.step env l = some t)
    (hb : WellBound s) (hlocks : LocksHeld s) (hw : w ∈ s.pool.running)
    (hphase : w.phase ≠ .started) :
    t.boundSock w.task.manager w.task.packet.streamId =
      s.boundSock w.task.manager w.task.packet.streamId := by
  have hfree : ∀ c fd, l = .loop .resume → s.loop = .insert c fd →
      (w.task.manager, w.task.packet.streamId) ≠ (c.manager, c.streamId) := by
    rintro c fd rfl hl he
    have hstep : s.loopStep env .resume = some t := hs
    have hlock := State.loopStep_of_wants (m := c.manager) (by rw [hl]; rfl) hstep
    exact hphase (State.lockFree_started hlock hw (Prod.ext_iff.mp he).1)
  rcases (step_tableMove hs hb).keeps_boundTo hb.table
    (w.task.manager, w.task.packet.streamId) with hkeeps | ⟨hl, c, fd, hloop, he⟩
  · -- the stream is still there, so it is bound to something
    rcases (step_tableMove hs hb).binding_ne_none (hlocks w hw hphase) with hne | ⟨-, -, hlock⟩
    · obtain ⟨fd, hfd⟩ := Option.ne_none_iff_exists'.mp hne
      obtain ⟨n, hn, -⟩ := (hb.step hs).table.owner hfd
      rw [hn]
      exact (hkeeps n hn).symm
    · exact absurd (State.lockFree_started hlock hw rfl) hphase
  · exact absurd he (hfree c fd hl hloop)

/-- What a `write` that succeeds writes. -/
theorem step_write {i n : Nat} (hs : s.step env (.worker (.write i (.accepted n))) = some t) :
    ∃ task, s.pool.running[i]? = some ⟨task, .polled⟩ ∧ ∀ k, t.writtenTo k = s.writtenTo k ++
      if s.boundSock task.manager task.packet.streamId = some k then task.packet.data.take n
      else [] := by
  have hmove : WorkerMove env s (.write i (.accepted n)) t := workerStep_cases hs
  cases hmove with
  | @write _ _ task hi hn => exact ⟨task, hi, fun k => State.writtenTo_record k⟩

/-- Nothing else writes. -/
theorem step_writtenTo {l : Label} (hs : s.step env l = some t)
    (hl : ∀ i n, l ≠ .worker (.write i (.accepted n))) (k : Nat) :
    t.writtenTo k = s.writtenTo k := by
  cases step_poolMove hs with
  | same _ hlog => rw [State.writtenTo_eq, State.writtenTo_eq, hlog]
  | submit _ _ _ hlog =>
    rw [State.writtenTo_eq, State.writtenTo_eq, hlog, List.flatMap_append]
    exact List.append_nil _
  | worker hmove =>
    cases hmove with
    | write hi hn => exact absurd rfl (hl _ _)
    | begin hi hd => exact (State.writtenTo_record k).trans (List.append_nil _)
    | fault hi hd => exact (State.writtenTo_record k).trans (List.append_nil _)
    | _ => rfl

/-- What `send_data` records: the buffer of the pass, and nothing from the user. -/
theorem extends_writeDummyTarget {P : RawPacket → Prop} {p : Pass}
    (hP : ∀ r : RawPacket, r.data = p.combinedBuffer → r.fromUser = [] → P r)
    (pcap : Nat → PcapInterface) (h : Nat × UInt32) :
    Extends P (pcap k).out (Capture.writeDummyTarget s p pcap h k).out := by
  cases hb : s.boundSock h.1 h.2 with
  | none =>
    simp only [Capture.writeDummyTarget, hb]
    exact .refl _ _
  | some k' =>
    simp only [Capture.writeDummyTarget, hb, Function.update_apply]
    split
    · rename_i hk
      subst hk
      obtain ⟨r, hout, hdata, hr⟩ := @PcapInterface.out_writeDummyTarget (pcap k) p.combinedBuffer
      rw [hout]
      exact .snoc (hP r hdata hr)
    · exact .refl _ _

/-- What a step of the server records: the buffer of the closure that runs, if one does. -/
theorem extends_pcapAfter {P : RawPacket → Prop} (c : Capture) (l : Label)
    (hP : ∀ p ∈ c.server.deferred, ∀ r : RawPacket, r.data = p.combinedBuffer →
      r.fromUser = [] → P r) :
    Extends P (c.pcap k).out (c.pcapAfter l k).out := by
  by_cases hl : l = .loop .deferred
  · subst hl
    cases hd : c.server.deferred with
    | nil =>
      simp only [Capture.pcapAfter, hd]
      exact .refl _ _
    | cons p rest =>
      simp only [Capture.pcapAfter, hd]
      have hrecords := hP p (hd ▸ List.mem_cons_self ..)
      have hfold : ∀ (found : List (Nat × UInt32)) (pcap : Nat → PcapInterface),
          Extends P (pcap k).out (found.foldl (Capture.writeDummyTarget c.server p) pcap k).out :=
        fun found => Extends.foldl found fun pcap h _ => extends_writeDummyTarget hrecords pcap h
      exact hfold _ _
  · rw [Capture.pcapAfter]
    · exact .refl _ _
    · exact hl

/-! ## The invariant -/

/-- Packet `j` of the file of socket `k` has a payload, which is still to be written. -/
def Capture.Pending (k : Nat) (c : Capture) (j : Nat) : Prop :=
  ∃ task, c.sockOf task = some k ∧ task.packet.data ≠ [] ∧ ∃ i, c.Recorded task j i

/-- What holds of the file of socket `k`. -/
structure Journaled (k : Nat) (c : Capture) : Prop where
  /-- the server's tables -/
  bound : WellBound c.server
  /-- what the lock is good for -/
  locks : LocksHeld c.server
  /-- the turns of the workers -/
  turns : TurnsOk c.server.pool.running c.turns
  /-- a task recorded its own payload -/
  entry : ∀ {task : WriteTask} {j i : Nat}, c.Recorded task j i → c.sockOf task = some k →
    ∃ r, (c.pcap k).out[j]? = some r ∧ r.fromUser = task.packet.data
  /-- what was recorded is what was written, up to what is still to be written -/
  settled : Settled RawPacket.fromUser (c.pcap k).out (c.Pending k) (c.server.writtenTo k)

section Step

variable {c : Capture} {l : Label}

theorem Capture.uploads_iff {i : Nat} : c.uploads k i = true ↔
    ∃ task, c.tasks[i]? = some task ∧ c.sockOf task = some k ∧ task.packet.data ≠ [] := by
  simp [uploads, Option.any_eq_true]

/-- A task that has recorded has the lock. -/
theorem TurnsOk.holds {task : WriteTask} {j i : Nat} (h : TurnsOk c.server.pool.running c.turns)
    (hr : c.Recorded task j i) :
    ∃ w ∈ c.server.pool.running, w.task = task ∧ w.phase ≠ .started := by
  obtain ⟨htask, hturn⟩ := hr
  rw [Capture.tasks, List.getElem?_map, Option.map_eq_some_iff] at htask
  obtain ⟨w, hw, rfl⟩ := htask
  refine ⟨w, List.mem_of_getElem? hw, rfl, fun hphase => ?_⟩
  cases (h.agrees hw hturn).started hphase

/-- The turns, whatever step the server takes. -/
theorem Journaled.turnsMove (hs : c.server.step env l = some s) (hmay : c.mayTake l = true)
    (h : Journaled k c) : TurnsMove c l ⟨s, c.pcapAfter l, c.turnsAfter l⟩ := by
  have hrunning : (∀ w, l ≠ .worker w) → s.pool.running = c.server.pool.running := by
    intro hl
    cases step_poolMove hs with
    | same hpool _ => rw [hpool]
    | submit _ _ hpool _ => rw [hpool]
    | worker _ => exact absurd rfl (hl _)
  cases l with
  | worker l => exact step_turnsMove (workerStep_cases hs) hmay h.turns
  | loop l => exact .of_eq h.turns (hrunning fun _ he => Label.noConfusion he) rfl rfl
  | watch l => exact .of_eq h.turns (hrunning fun _ he => Label.noConfusion he) rfl rfl
  | rehash m streams => exact .of_eq h.turns (hrunning fun _ he => Label.noConfusion he) rfl rfl
  | rehashSockets ms => exact .of_eq h.turns (hrunning fun _ he => Label.noConfusion he) rfl rfl

/-- What is still to be written after a step of the server. -/
theorem Journaled.pending_iff (hs : c.server.step env l = some s) (hmay : c.mayTake l = true)
    (h : Journaled k c) {j : Nat} :
    Capture.Pending k ⟨s, c.pcapAfter l, c.turnsAfter l⟩ j ↔
      ∃ task, c.sockOf task = some k ∧ task.packet.data ≠ [] ∧
        ∃ i, c.Recorded task j i ∧ l.endsTurn ≠ some i := by
  have hsock : ∀ task i, c.Recorded task j i →
      s.boundSock task.manager task.packet.streamId = c.sockOf task := by
    intro task i hr
    obtain ⟨w, hw, rfl, hphase⟩ := h.turns.holds hr
    exact boundSock_of_holds hs h.bound h.locks hw hphase
  refine exists_congr fun task => ?_
  rw [(h.turnsMove hs hmay).recorded task j]
  constructor
  · rintro ⟨hk, hdata, i, hr, hends⟩
    exact ⟨(hsock task i hr).symm.trans hk, hdata, i, hr, hends⟩
  · rintro ⟨hk, hdata, i, hr, hends⟩
    exact ⟨(hsock task i hr).trans hk, hdata, i, hr, hends⟩

/-- The payload that was recorded first is written. -/
theorem Journaled.settled_write {i : Nat} {res : WriteResult}
    (hs : c.server.step env (.worker (.write i res)) = some s)
    (hg : c.asRecorded k (.server (.worker (.write i res))) = true)
    (hup : c.uploads k i = true) (h : Journaled k c) :
    Settled RawPacket.fromUser (c.pcap k).out
      (Capture.Pending k ⟨s, c.pcapAfter (.worker (.write i res)),
        c.turnsAfter (.worker (.write i res))⟩) (s.writtenTo k) := by
  obtain ⟨task, htask, hk, hdata⟩ := Capture.uploads_iff.mp hup
  simp only [Capture.asRecorded, hup, htask, Bool.not_true, Bool.false_or, Bool.and_eq_true,
    Option.all_some, decide_eq_true_eq] at hg
  obtain ⟨hfirst, rfl⟩ := hg
  obtain ⟨task', hi, hwritten⟩ := step_write hs
  obtain rfl : task = task' := Option.some.inj (htask.symm.trans (Capture.task_of_running hi))
  obtain ⟨turn, hturn, hagrees⟩ := h.turns.exists_turn hi
  obtain ⟨j, rfl⟩ := Option.ne_none_iff_exists'.mp (hagrees.polled rfl)
  obtain ⟨r, hr, hfrom⟩ := h.entry ⟨htask, hturn⟩ hk
  have hwrote : s.writtenTo k = c.server.writtenTo k ++ r.fromUser := by
    rw [hwritten k, hfrom, List.take_length]
    exact congrArg _ (if_pos hk)
  rw [hwrote]
  refine h.settled.commit ⟨task, hk, hdata, i, htask, hturn⟩ hr (fun j' hj' => ?_) fun j' hj' => ?_
  · -- the others recorded later
    obtain ⟨task', hk', hdata', i', ⟨htask', hturn'⟩, hends⟩ := (h.pending_iff hs rfl).mp hj'
    have hne : i' ≠ i := fun he => hends (he ▸ rfl)
    have hup' : c.uploads k i' = true := Capture.uploads_iff.mpr ⟨task', htask', hk', hdata'⟩
    have hlt := (List.getElem?_eq_some_iff.mp hturn').1
    have hall := List.all_eq_true.mp hfirst i' (List.mem_range.mpr hlt)
    simpa [hne, hup', hturn, hturn'] using hall
  · obtain ⟨task', hk', hdata', i', htask', hturn'⟩ := hj'
    by_cases he : i' = i
    · subst he
      left
      rw [hturn] at hturn'
      exact (Option.some.inj (Option.some.inj hturn')).symm
    · right
      refine (h.pending_iff hs rfl).mpr ⟨task', hk', hdata', i', ⟨htask', hturn'⟩, ?_⟩
      exact fun hends => he (Option.some.inj hends).symm

/-- Nothing is written that socket `k` has to do with. -/
theorem Journaled.settled_quiet (hs : c.server.step env l = some s) (hmay : c.mayTake l = true)
    (hquiet : ∀ i, l.endsTurn = some i → c.uploads k i = false) (h : Journaled k c) :
    Settled RawPacket.fromUser (c.pcap k).out
      (Capture.Pending k ⟨s, c.pcapAfter l, c.turnsAfter l⟩) (s.writtenTo k) := by
  have hwritten : s.writtenTo k = c.server.writtenTo k := by
    by_cases hl : ∃ i n, l = .worker (.write i (.accepted n))
    · obtain ⟨i, n, rfl⟩ := hl
      obtain ⟨task, hi, hwritten⟩ := step_write hs
      rw [hwritten k]
      split
      · rename_i hk
        -- a payload without bytes
        have hempty : task.packet.data = [] := by
          by_contra hdata
          have hup := Capture.uploads_iff.mpr ⟨task, Capture.task_of_running hi, hk, hdata⟩
          rw [hquiet i rfl] at hup
          cases hup
        rw [hempty, List.take_nil, List.append_nil]
      · exact List.append_nil _
    · exact step_writtenTo hs (fun i n he => hl ⟨i, n, he⟩) k
  rw [hwritten]
  refine h.settled.congr fun j => ?_
  rw [h.pending_iff hs hmay]
  refine exists_congr fun task => and_congr_right fun hk => and_congr_right fun hdata =>
    exists_congr fun i => and_iff_left_of_imp fun hr hends => ?_
  have hup := Capture.uploads_iff.mpr ⟨task, hr.1, hk, hdata⟩
  rw [hquiet i hends] at hup
  cases hup

/-- **A step of the server keeps file and socket together.** -/
theorem Journaled.server (hs : c.server.step env l = some s) (hmay : c.mayTake l = true)
    (hg : c.asRecorded k (.server l) = true) (h : Journaled k c) :
    Journaled k ⟨s, c.pcapAfter l, c.turnsAfter l⟩ := by
  obtain ⟨es, hout, hes⟩ : Extends (fun r => r.fromUser = []) (c.pcap k).out
      (c.pcapAfter l k).out := extends_pcapAfter c l fun _ _ _ _ hr => hr
  have hsettled : Settled RawPacket.fromUser (c.pcap k).out
      (Capture.Pending k ⟨s, c.pcapAfter l, c.turnsAfter l⟩) (s.writtenTo k) := by
    by_cases hquiet : ∀ i, l.endsTurn = some i → c.uploads k i = false
    · exact h.settled_quiet hs hmay hquiet
    · simp only [not_forall, Bool.not_eq_false] at hquiet
      obtain ⟨i, hends, hup⟩ := hquiet
      rw [Label.endsTurn.eq_def] at hends
      split at hends
      · -- a `poll` for the socket does not fail
        obtain rfl := Option.some.inj hends
        rw [Capture.asRecorded, hup] at hg
        cases hg
      · obtain rfl := Option.some.inj hends
        exact h.settled_write hs hg hup
      · cases hends
  refine ⟨h.bound.step hs, h.locks.step hs h.bound, (h.turnsMove hs hmay).ok,
    fun {task j i} hr hk => ?_, ?_⟩
  · obtain ⟨i', hr', -⟩ := ((h.turnsMove hs hmay).recorded task j).mp ⟨i, hr⟩
    obtain ⟨w, hw, rfl, hphase⟩ := h.turns.holds hr'
    obtain ⟨r, hentry, hfrom⟩ :=
      h.entry hr' ((boundSock_of_holds hs h.bound h.locks hw hphase).symm.trans hk)
    refine ⟨r, ?_, hfrom⟩
    change (c.pcapAfter l k).out[j]? = _
    rw [hout, List.getElem?_append_left (List.getElem?_eq_some_iff.mp hentry).1]
    exact hentry
  · change Settled _ (c.pcapAfter l k).out _ _
    rw [hout]
    exact hsettled.append_silent hes

/-- What `write_dummy_user` records. -/
theorem Capture.writeDummyUser_eq_some {c' : Capture} {i : Nat}
    (h : c.writeDummyUser i = some c') :
    ∃ task k', c.server.pool.running[i]? = some ⟨task, .locked⟩ ∧
      c.turns[i]? = some none ∧ c.sockOf task = some k' ∧ c' = { c with
        pcap := Function.update c.pcap k' ((c.pcap k').writeDummyUser task.packet.data)
        turns := c.turns.set i (some (c.pcap k').out.length) } := by
  rw [writeDummyUser] at h
  split at h
  · rename_i task hi hturn
    split at h
    · cases h
    · rename_i k' hk
      exact ⟨task, k', hi, hturn, hk, (Option.some.inj h).symm⟩
  · cases h

/-- What is recorded after worker `i` has recorded packet `n`. -/
theorem Capture.recorded_set {c' : Capture} {task task' : WriteTask} {i i' j n : Nat}
    (htask : c.tasks[i]? = some task) (hturn : c.turns[i]? = some none)
    (hserver : c'.server = c.server) (hturns : c'.turns = c.turns.set i (some n)) :
    c'.Recorded task' j i' ↔ c.Recorded task' j i' ∨ i' = i ∧ task' = task ∧ j = n := by
  have htasks : c'.tasks = c.tasks := by rw [tasks, tasks, hserver]
  rw [Recorded, Recorded, htasks, hturns]
  by_cases he : i' = i
  · subst he
    rw [htask, hturn, List.getElem?_set_self (List.getElem?_eq_some_iff.mp hturn).1]
    constructor
    · rintro ⟨htask', hj⟩
      exact Or.inr ⟨rfl, (Option.some.inj htask').symm, (Option.some.inj (Option.some.inj hj)).symm⟩
    · rintro (⟨-, hj⟩ | ⟨-, rfl, rfl⟩)
      · cases Option.some.inj hj
      · exact ⟨rfl, rfl⟩
  · rw [List.getElem?_set_ne (Ne.symm he)]
    exact ⟨Or.inl, fun h => h.resolve_right fun hi => he hi.1⟩

/-- **A record keeps file and socket together.** -/
theorem Journaled.record {c' : Capture} {i : Nat} (hs : c.writeDummyUser i = some c')
    (h : Journaled k c) : Journaled k c' := by
  obtain ⟨task, k', hi, hturn, hk', rfl⟩ := Capture.writeDummyUser_eq_some hs
  have hrecorded {task' : WriteTask} {j i' : Nat} :
      Capture.Recorded { c with
        pcap := Function.update c.pcap k' ((c.pcap k').writeDummyUser task.packet.data)
        turns := c.turns.set i (some (c.pcap k').out.length) } task' j i' ↔
      c.Recorded task' j i' ∨ i' = i ∧ task' = task ∧ j = (c.pcap k').out.length :=
    Capture.recorded_set (Capture.task_of_running hi) hturn rfl rfl
  have hturns : TurnsOk c.server.pool.running (c.turns.set i (some (c.pcap k').out.length)) := by
    rw [← set_of_getElem? hi]
    exact h.turns.set ⟨nofun, nofun⟩
  obtain ⟨r, hout, -, hfrom⟩ : ∃ r : RawPacket, _ = (c.pcap k').out ++ [r] ∧ _ ∧ r.fromUser = _ :=
    @PcapInterface.out_writeDummyUser (c.pcap k') task.packet.data
  refine ⟨h.bound, h.locks, hturns, fun {task' j i'} hr hk => ?_, ?_⟩
  · change ∃ r, (Function.update c.pcap k' _ k).out[j]? = _ ∧ _
    rw [Function.update_apply]
    rcases hrecorded.mp hr with hr | ⟨-, rfl, rfl⟩
    · obtain ⟨r', hentry, hfrom'⟩ := h.entry hr hk
      refine ⟨r', ?_, hfrom'⟩
      split
      · rename_i he
        subst he
        rw [hout, List.getElem?_append_left (List.getElem?_eq_some_iff.mp hentry).1]
        exact hentry
      · exact hentry
    · obtain rfl : k' = k := Option.some.inj (hk'.symm.trans hk)
      refine ⟨r, ?_, hfrom⟩
      rw [if_pos rfl, hout]
      exact List.getElem?_concat_length
  · change Settled _ (Function.update c.pcap k' _ k).out _ _
    by_cases he : k = k'
    · subst he
      rw [Function.update_self, hout]
      refine h.settled.append ?_ ?_ ?_
      · rintro j ⟨task', hk, hdata, i', hr⟩
        exact ⟨task', hk, hdata, i', hrecorded.mpr (Or.inl hr)⟩
      · intro hne
        exact ⟨task, hk', hfrom ▸ hne, i, hrecorded.mpr (Or.inr ⟨rfl, rfl, rfl⟩)⟩
      · rintro j ⟨task', hk, hdata, i', hr⟩
        rcases hrecorded.mp hr with hr | ⟨-, -, rfl⟩
        · exact Or.inl ⟨task', hk, hdata, i', hr⟩
        · exact Or.inr rfl
    · rw [Function.update_of_ne he]
      refine h.settled.congr fun j => exists_congr fun task' => and_congr_right fun hk =>
        and_congr_right fun _ => exists_congr fun i' =>
          ⟨fun hr => ?_, fun hr => hrecorded.mpr (Or.inl hr)⟩
      rcases hrecorded.mp hr with hr | ⟨-, rfl, -⟩
      · exact hr
      · exact absurd (Option.some.inj (hk.symm.trans hk')) he

theorem Journaled.step {c' : Capture} {a : CaptureLabel} (hs : c.step env a = some c')
    (hg : c.asRecorded k a = true) (h : Journaled k c) : Journaled k c' := by
  cases a with
  | writeDummyUser i => exact h.record hs
  | server l =>
    rw [Capture.step, Option.ite_none_right_eq_some, Option.map_eq_some_iff] at hs
    obtain ⟨hmay, s, hs, rfl⟩ := hs
    exact h.server hs hmay hg

theorem Journaled.initial (env : Env) (peer : Nat → String × UInt16) :
    Journaled k (capture env peer).init where
  bound := .initial env
  locks := .initial env
  turns := .nil
  entry hr := by cases hr.1
  settled := .of_silent PcapInterface.fromUser_start fun j ⟨_, _, _, _, hr, _⟩ => by cases hr

end Step

/-- **The file tells what was written** to a socket, in every run in which each payload for
it is written whole at the first try, and in the order in which the tasks recorded them. -/
theorem capture_faithful {peer : Nat → String × UInt16} {c : Capture}
    (h : (capture env peer).Reaches (fun c a => c.asRecorded k a = true) c) :
    CaptureFaithful k c := by
  have hall : Journaled k c :=
    h.invariant (I := Journaled k) (.initial env peer) fun _ _ _ hg hst hI => hI.step hst hg
  refine ⟨hall.settled.isPrefix, fun hnone => hall.settled.eq_of_not_pending ?_⟩
  rintro j ⟨task, hk, -, i, htask, hturn⟩
  exact hnone i j task htask hturn hk

/-! ## Runs -/

/-- A TCP stream is opened. -/
def openLabels : List CaptureLabel := (Label.loop .opened :: connectLabels 0 1 7).map .server

/-- A payload is accepted and dequeued, and its task takes the lock. -/
def taskBegins (payload : Bytes) : List CaptureLabel :=
  [.server (dataLabel 0 1 payload), .server (.worker .dequeue), .server (.worker (.begin 0))]

/-- A turn of the oldest task. -/
def turnLabels (res : WriteResult) : List CaptureLabel :=
  [.writeDummyUser 0, .server (.worker (.poll 0 true)), .server (.worker (.write 0 res))]

/-- Two payloads, each written at the first try. -/
def firstTries : List CaptureLabel :=
  openLabels ++ taskBegins [1, 2, 3] ++ turnLabels (.accepted 3) ++ taskBegins [4] ++
    turnLabels (.accepted 1)

/-- The targets of the runs. -/
def somePeer (_ : Nat) : String × UInt16 := ("93.184.216.34", 80)

theorem capture_faithful_firstTries : CaptureFaithful 0
    ((capture {} somePeer).final (fun c a => c.asRecorded 0 a = true) firstTries) :=
  capture_faithful (System.reaches_final _ _ _ (by decide +kernel))

/-- A payload that the kernel takes at the second try. -/
def secondTry : List CaptureLabel :=
  openLabels ++ taskBegins [1, 2, 3] ++ turnLabels .again ++ turnLabels (.accepted 3)

/-- **The payload that is recorded twice**: the kernel took `[1, 2, 3]` once. -/
theorem recordedTwice_counterexample :
    ¬ ∀ (env : Env) (peer : Nat → String × UInt16) (c : Capture) (m : Nat) (id : UInt32)
      (d : SocketStreamData) (k : Nat), (capture env peer).Reachable c →
      c.server.stream m id = some d → d.streamType = 0x01 → c.server.boundSock m id = some k →
      CaptureFaithful k c := by
  intro h
  have hfaithful := h {} somePeer _ 0 1 ⟨0x01, 1, 7, 126⟩ 0
    ((capture {} somePeer).reaches_final (fun _ _ => True) secondTry (by decide +kernel))
    (by decide +kernel) rfl (by decide +kernel)
  have hidle : ((capture {} somePeer).final (fun _ _ => True) secondTry).tasks = [] := by
    decide +kernel
  have hcomplete := hfaithful.complete fun i j task htask => by
    rw [hidle] at htask
    cases htask
  exact absurd hcomplete (by decide +kernel)

end Woeful
