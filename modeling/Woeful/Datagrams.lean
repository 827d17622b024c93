import Woeful.Carriage

/-!
# Datagrams

`Net` is the server together with the receive queues of its datagram sockets: a `read` on
such a socket takes one datagram off its queue, cut at the size of the buffer, and datagrams
come at any time. The read loop of the watcher was written for streams of bytes; it goes on
until nothing is left and takes an empty answer for the end.

So one pass keeps the boundaries as long as it finds one datagram that fits, and nothing
after it (`Net.oneByOne`). Two datagrams in the queue are sent as one
(`merged_counterexample`), a long one is cut, and an empty one closes the stream.
-/

namespace Woeful

open Memory Transition Log

variable {env : Env} {s t : State} {k : Nat}

/-! ## The network -/

/-- The longest datagram. -/
abbrev maxDatagram : Nat := 65507

/-- The server, and the receive queues of its datagram sockets. -/
structure Net where
  /-- the server -/
  server : State
  /-- for every socket made so far, the stream type it was made for -/
  types : List UInt8 := []
  /-- the datagrams in the receive queue of a socket -/
  queue : Nat → List Bytes := fun _ => []
  /-- all datagrams that came for a socket (history) -/
  came : Nat → List Bytes := fun _ => []

/-- Who moves. -/
inductive NetLabel where
  /-- a datagram comes for socket `k` -/
  | datagram (k : Nat) (d : Bytes)
  /-- the server takes a step -/
  | server (l : Label)

/-- What `read` answers on a datagram socket, with this receive queue. -/
def recv : List Bytes → ReadResult
  | [] => .again
  | d :: _ => if d = [] then .eof else .bytes (d.take segmentSize)

namespace Net

/-- Socket `k` is a datagram socket. -/
def isDatagram (n : Net) (k : Nat) : Bool := n.types[k]? = some 0x02

/-- The datagram socket that the watcher is about to read from. -/
def reading? (n : Net) : Option Nat :=
  match n.server.watcher.phase with
  | .reading p => (n.server.kernel.sockAt p.fd).filter n.isDatagram
  | _ => none

/-- What a step of the server to `s` means for the queues. -/
def serverStep (n : Net) (l : Label) (s : State) : Option Net :=
  match l with
  | .watch (.read result) =>
    match n.reading? with
    | none => some { n with server := s }
    | some k =>
      if result = recv (n.queue k) then
        some { n with server := s, queue := Function.update n.queue k (n.queue k).tail }
      else none
  | .loop (.socket (some _)) =>
    some { n with server := s, types := n.types ++ (n.server.loop.call?.map (·.streamType)).toList }
  | _ => some { n with server := s }

/-- One step. -/
def step (env : Env) (n : Net) : NetLabel → Option Net
  | .datagram k d =>
    if n.isDatagram k ∧ d.length ≤ maxDatagram then
      some { n with
        queue := Function.update n.queue k (n.queue k ++ [d])
        came := Function.update n.came k (n.came k ++ [d]) }
    else none
  | .server l => (n.server.step env l).bind (n.serverStep l)

/-- What a pass over a datagram socket should find when it reads: a datagram that fits the
first time, and nothing afterwards. -/
def finds : List Read → List Bytes → Bool
  | [], d :: _ => !d.isEmpty && d.length ≤ segmentSize
  | _ :: _, [] => true
  | _, _ => false

/-- The condition on a step: a pass over socket `k` finds one datagram that fits, and the
socket is not made under a number for which a pending pass has read anything. -/
def oneByOne (k : Nat) (n : Net) : NetLabel → Bool
  | .server (.watch (.read _)) =>
    match n.server.watcher.phase with
    | .reading p => n.server.kernel.sockAt p.fd ≠ some k || finds p.reads (n.queue k)
    | _ => true
  | .server (.loop (.socket (some fd))) => n.server.kernel.socks.length ≠ k ||
      n.server.pendingPasses.all fun p => p.fd ≠ fd || p.reads.isEmpty
  | _ => true

end Net

/-- The server with its datagram sockets. -/
def network (env : Env) : System Net NetLabel where
  init := { server := State.initial env }
  step := Net.step env

/-! ## What is sent -/

/-- The payload of a DATA on the stream of socket `k`. -/
def Event.payloadOn (k : Nat) : Event → Option Bytes
  | .sent _ packet _ (.closure _ sock) =>
    if packet.packetType = packetData ∧ sock = some k then some packet.data else none
  | _ => none

/-- The payloads of the DATA on the stream of socket `k`, in order. -/
def payloadsOn (k : Nat) (log : List Event) : List Bytes := log.filterMap (Event.payloadOn k)

/-- The boundaries of the datagrams of socket `k` are kept. -/
structure BoundariesKept (k : Nat) (n : Net) : Prop where
  /-- what was sent is what came, one packet per datagram, as far as it was sent -/
  inOrder : payloadsOn k n.server.log <+: n.came k
  /-- while the stream is there, the rest is carried by passes, or is in the queue -/
  complete : ∀ m id, n.server.boundSock m id = some k →
    payloadsOn k n.server.log ++ (n.server.passesOf k).map (·.combinedBuffer) ++ n.queue k =
      n.came k
  /-- no closure closed the stream -/
  opened : ∀ m packet status p, .sent m packet status (.closure p (some k)) ∈ n.server.log →
    packet.packetType ≠ packetClose

theorem payloadOn_of_foreign {e : Event} (h : e.Foreign k) : e.payloadOn k = none := by
  cases e with
  | sent m packet status origin =>
    cases origin with
    | server => rfl
    | closure p sock => exact if_neg fun hs => h hs.2
  | _ => rfl

theorem payloadsOn_append {log log' : List Event} :
    payloadsOn k (log ++ log') = payloadsOn k log ++ payloadsOn k log' :=
  List.filterMap_append

theorem payloadsOn_of_foreign {log log' : List Event} (h : Extends (Event.Foreign k) log log') :
    payloadsOn k log' = payloadsOn k log := by
  obtain ⟨es, rfl, hes⟩ := h
  have hnone : payloadsOn k es = [] :=
    List.filterMap_eq_nil_iff.mpr fun e he => payloadOn_of_foreign (hes e he)
  rw [payloadsOn_append, hnone, List.append_nil]

/-! ## What a step of the server means for the queues -/

namespace Net

variable {n n' : Net} {l : Label}

theorem reading?_eq_some : n.reading? = some k ↔ ∃ p, n.server.watcher.phase = .reading p ∧
    n.server.kernel.sockAt p.fd = some k ∧ n.isDatagram k = true := by
  rw [reading?]
  split
  · rename_i p hphase
    rw [Option.filter_eq_some_iff, hphase]
    simp
  · rename_i hne
    simpa using fun p hp => (hne p hp).elim

/-- One step of the server, seen from socket `k`. -/
structure Served (env : Env) (k : Nat) (n : Net) (l : Label) (n' : Net) : Prop where
  /-- the server takes it -/
  step : n.server.step env l = some n'.server
  /-- nothing comes -/
  came : n'.came = n.came
  /-- a socket is made for the CONNECT in progress, or none is made -/
  types : ((∀ fd, l ≠ .loop (.socket (some fd))) ∧ n'.types = n.types) ∨
    ∃ c, n.server.loop = .socket c ∧ n'.types = n.types ++ [c.streamType] ∧
      n'.server.kernel.socks = n.server.kernel.socks ++ [(c.manager, c.streamId)]
  /-- the watcher reads from the socket, or leaves its queue alone -/
  queue : (∃ result, l = .watch (.read result) ∧ n.reading? = some k ∧
      result = recv (n.queue k) ∧ n'.queue k = (n.queue k).tail) ∨
    (∀ result, l = .watch (.read result) → n.reading? ≠ some k) ∧ n'.queue k = n.queue k

theorem served (h : n.step env (.server l) = some n') : Served env k n l n' := by
  rw [step, Option.bind_eq_some_iff] at h
  obtain ⟨s, hs, h⟩ := h
  rw [serverStep.eq_def] at h
  split at h
  · rename_i result
    split at h
    · rename_i hnone
      obtain rfl := Option.some.inj h
      exact ⟨hs, rfl, Or.inl ⟨(fun _ he => Label.noConfusion he), rfl⟩,
        Or.inr ⟨fun _ _ => by rw [hnone]; simp, rfl⟩⟩
    · rename_i k' hk'
      rw [Option.ite_none_right_eq_some] at h
      obtain ⟨hrecv, h⟩ := h
      obtain rfl := Option.some.inj h
      refine ⟨hs, rfl, Or.inl ⟨(fun _ he => Label.noConfusion he), rfl⟩, ?_⟩
      by_cases hk : k' = k
      · subst hk
        exact Or.inl ⟨result, rfl, hk', hrecv, Function.update_self ..⟩
      · refine Or.inr ⟨fun _ _ he => hk ?_, Function.update_of_ne (Ne.symm hk) ..⟩
        exact Option.some.inj (hk'.symm.trans he)
  · rename_i fd
    obtain rfl := Option.some.inj h
    have hmove : LoopMove env n.server (.socket (some fd)) s := loopStep_cases hs
    refine ⟨hs, rfl, Or.inr ?_, Or.inr ⟨fun _ he => (Label.noConfusion he), rfl⟩⟩
    cases hmove with
    | @socket c _ hfd hl =>
      refine ⟨c, hl, ?_, rfl⟩
      rw [hl]
      rfl
  · rename_i hread hsocket
    obtain rfl := Option.some.inj h
    exact ⟨hs, rfl, Or.inl ⟨hsocket, rfl⟩, Or.inr ⟨fun result he => absurd he (hread result), rfl⟩⟩

end Net

/-! ## The invariant -/

/-- What holds of socket `k`, if it is a datagram socket. -/
structure Bounded (k : Nat) (n : Net) : Prop where
  /-- no pass has read an end from it -/
  harmless : ∀ p ∈ n.server.openPasses, ∀ r ∈ p.reads, r.sock = some k → r.result.closes = false
  /-- a pass over it has read from it only -/
  clean : InUse n.server k → Clean (fun _ => true) n.server k
  /-- what was sent, is carried, and waits is what came -/
  complete : InUse n.server k →
    payloadsOn k n.server.log ++ (n.server.passesOf k).map (·.combinedBuffer) ++ n.queue k =
      n.came k
  /-- what was sent came -/
  inOrder : payloadsOn k n.server.log <+: n.came k
  /-- no closure closed its stream -/
  opened : ∀ m packet status p, .sent m packet status (.closure p (some k)) ∈ n.server.log →
    packet.packetType ≠ packetClose

/-- What holds of the network, for socket `k`. -/
structure Delimited (k : Nat) (n : Net) : Prop where
  /-- the server -/
  ok : PassesOk n.server
  /-- every socket has a type -/
  aligned : n.types.length = n.server.kernel.socks.length
  /-- a socket that is not made has no part in the log -/
  unmade : Unmade n.server k
  /-- and nothing comes for it -/
  empty : n.server.kernel.socks.length ≤ k → n.queue k = [] ∧ n.came k = []
  /-- a datagram socket -/
  bounded : n.isDatagram k = true → Bounded k n

section Step

variable {n n' : Net} {l : Label}

/-- What the guard says of a read from the socket. -/
theorem Net.Served.read {p : Pass} {result : ReadResult} (hn : Net.Served env k n l n')
    (hd : n.isDatagram k = true) (hg : n.oneByOne k (.server l) = true)
    (hl : l = .watch (.read result)) (hphase : n.server.watcher.phase = .reading p)
    (hsock : n.server.kernel.sockAt p.fd = some k) :
    (p.reads = [] ∧ ∃ d, n.queue k = d :: n'.queue k ∧ result = .bytes d) ∨
      (p.reads ≠ [] ∧ n.queue k = [] ∧ n'.queue k = [] ∧ result = .again) := by
  have hreading : n.reading? = some k := Net.reading?_eq_some.mpr ⟨p, hphase, hsock, hd⟩
  subst hl
  have hqueue : result = recv (n.queue k) ∧ n'.queue k = (n.queue k).tail := by
    rcases hn.queue with ⟨result', hl, -, hrecv, htail⟩ | ⟨hnot, -⟩
    · cases hl
      exact ⟨hrecv, htail⟩
    · exact absurd hreading (hnot result rfl)
  obtain ⟨rfl, htail⟩ := hqueue
  have hfinds : Net.finds p.reads (n.queue k) = true := by
    simpa [Net.oneByOne, hphase, hsock] using hg
  rw [htail]
  cases hreads : p.reads with
  | nil =>
    cases hq : n.queue k with
    | nil =>
      rw [hreads, hq] at hfinds
      cases hfinds
    | cons d rest =>
      -- the datagram fits
      rw [hreads, hq, Net.finds, Bool.and_eq_true, Bool.not_eq_true', decide_eq_true_eq] at hfinds
      refine Or.inl ⟨rfl, d, rfl, ?_⟩
      rw [recv, if_neg (fun he => by simp [he] at hfinds), List.take_of_length_le hfinds.2]
  | cons r reads =>
    cases hq : n.queue k with
    | nil => exact Or.inr ⟨List.cons_ne_nil _ _, rfl, rfl, rfl⟩
    | cons d rest =>
      rw [hreads, hq] at hfinds
      cases hfinds

/-- A read from the socket finds a datagram, or nothing. -/
theorem Bounded.harmless_step (hn : Net.Served env k n l n') (hok : PassesOk n.server)
    (hd : n.isDatagram k = true) (hg : n.oneByOne k (.server l) = true) (h : Bounded k n) :
    ∀ p ∈ n'.server.openPasses, ∀ r ∈ p.reads, r.sock = some k → r.result.closes = false := by
  intro p hp r hr hrk
  rcases step_mem_openPasses hn.step hok.bound hp with
    hold | hnil | ⟨-, p', hp', result, rfl, hlog⟩
  · exact h.harmless p hold r hr hrk
  · rw [hnil] at hr
    cases hr
  · rcases List.mem_append.mp hr with hr | hr
    · exact h.harmless p' hp' r hr hrk
    · obtain rfl := List.mem_singleton.mp hr
      obtain ⟨hl, q, hphase, hfd, hsock⟩ := step_read hn.step hok.bound hlog
      rcases hn.read hd hg hl hphase (hsock ▸ hrk) with ⟨-, d, -, hres⟩ | ⟨-, -, -, hres⟩
      · exact congrArg ReadResult.closes hres
      · exact congrArg ReadResult.closes hres

theorem Bounded.opened_append {es : List Event} (h : Bounded k n)
    (hlog : n'.server.log = n.server.log ++ es)
    (hnew : ∀ m packet status p, .sent m packet status (.closure p (some k)) ∈ es →
      packet.packetType ≠ packetClose) :
    ∀ m packet status p, .sent m packet status (.closure p (some k)) ∈ n'.server.log →
      packet.packetType ≠ packetClose := by
  intro m packet status p he
  rw [hlog] at he
  rcases List.mem_append.mp he with he | he
  · exact h.opened m packet status p he
  · exact hnew m packet status p he

/-- A pass over the socket has read from it, unless it has not read yet. -/
theorem Bounded.readFrom {p : Pass} (h : Bounded k n) (huse : InUse n.server k)
    (hp : p ∈ n.server.openPasses) (hsock : n.server.kernel.sockAt p.fd = some k)
    (hreads : p.reads ≠ []) : p.readFrom k = true := by
  obtain ⟨r, hr⟩ := List.exists_mem_of_ne_nil _ hreads
  exact Pass.readFrom_eq_true.mpr ⟨r, hr, h.clean huse p hp hsock r hr rfl⟩

/-- The watcher reads from the socket: a datagram goes from the queue to the pass. -/
theorem Bounded.complete_read {p : Pass} {r : Read} {ps : List Pass}
    (hn : Net.Served env k n l n') (hd : n.isDatagram k = true)
    (hg : n.oneByOne k (.server l) = true) (h : Bounded k n) (huse : InUse n.server k)
    (hl : l = .watch (.read r.result)) (hphase : n.server.watcher.phase = .reading p)
    (hsock : n.server.kernel.sockAt p.fd = some k)
    (hps : n.server.passesOf k = ps ++ (if p.readFrom k then [p] else []))
    (hps' : n'.server.passesOf k = ps ++ [p.read r]) :
    payloadsOn k n.server.log ++ (n'.server.passesOf k).map (·.combinedBuffer) ++ n'.queue k =
      n.came k := by
  rw [← h.complete huse, hps, hps']
  rcases hn.read hd hg hl hphase hsock with ⟨hnil, d, hq, hres⟩ | ⟨hne, hq, hq', hres⟩
  · have hread : p.readFrom k = false := by simp [Pass.readFrom, hnil]
    have hempty : p.combinedBuffer = [] := by rw [p.combined_eq, hnil]; rfl
    rw [hq, hread]
    simp [Pass.read, hempty, hres, ReadResult.data]
  · -- nothing more is there
    have hp : p ∈ n.server.openPasses := by
      rw [State.openPasses, State.pendingPasses, hphase]
      simp [WatcherPhase.pass?]
    rw [hq, hq', h.readFrom huse hp hsock hne]
    simp [Pass.read, hres, ReadResult.data]

/-- A closure that would close the stream was told to by a read from the socket. -/
theorem Bounded.not_closing {p : Pass} {m : Nat} {id : UInt32} (hok : PassesOk n.server)
    (h : Bounded k n) (hl : n.server.loop = .closeFound p m id)
    (hb : n.server.binding m id = some p.fd) : n.server.kernel.sockAt p.fd ≠ some k := by
  intro hsock
  have hp : p ∈ n.server.openPasses := by
    rw [State.openPasses, hl]
    exact List.mem_cons_self ..
  have hclose := hok.told.closing p (by rw [hl]; rfl)
  rw [p.toClose_eq, List.any_eq_true] at hclose
  obtain ⟨r, hr, hcloses⟩ := hclose
  have huse : InUse n.server k := Or.inl ⟨m, id, State.boundSock_eq_some.mpr ⟨_, hb, hsock⟩⟩
  rw [h.harmless p hp r hr (h.clean huse p hp hsock r hr rfl)] at hcloses
  cases hcloses

/-- **A step of the server keeps the boundaries** of a datagram socket that is there. -/
theorem Bounded.step (hn : Net.Served env k n l n') (hok : PassesOk n.server)
    (hk : k < n.server.kernel.socks.length) (hd : n.isDatagram k = true)
    (hg : n.oneByOne k (.server l) = true) (h : Bounded k n) : Bounded k n' := by
  have hs := hn.step
  have hbefore : InUse n'.server k → InUse n.server k :=
    InUse.of_step (step_tableMove hs hok.bound) hk
  have hclean : InUse n'.server k → Clean (fun _ => true) n'.server k :=
    fun huse => (h.clean (hbefore huse)).step hs hok.bound hk
  have hharmless := h.harmless_step hn hok hd hg
  cases @step_carryMove env n.server n'.server l k hs hok.bound hok.seated with
  | quiet hpasses hlog =>
    have hqueue : n'.queue k = n.queue k := by
      rcases hn.queue with ⟨result, rfl, hreading, -, -⟩ | ⟨-, hsame⟩
      · -- a read from the socket would be logged
        obtain ⟨p, hphase, hsock, -⟩ := Net.reading?_eq_some.mp hreading
        rw [log_watchRead hs hphase] at hlog
        exact absurd hsock (hlog.of_append _ (List.mem_singleton_self _))
      · exact hsame
    have hsent := payloadsOn_of_foreign hlog
    refine ⟨hharmless, hclean, fun huse => ?_, ?_, ?_⟩
    · rw [hsent, hpasses huse, hqueue, hn.came]
      exact h.complete (hbefore huse)
    · rw [hsent, hn.came]
      exact h.inOrder
    · obtain ⟨es, hlog, hes⟩ := hlog
      exact h.opened_append hlog fun m packet status p he => absurd rfl (hes _ he)
  | @read p r ps hl hphase hsock hrk hps hps' hlog =>
    have hsent : payloadsOn k n'.server.log = payloadsOn k n.server.log := by
      rw [hlog, payloadsOn_append]
      exact List.append_nil _
    refine ⟨hharmless, hclean, fun huse => ?_, ?_, ?_⟩
    · rw [hsent, hn.came]
      exact h.complete_read hn hd hg (hbefore huse) hl hphase hsock hps hps'
    · rw [hsent, hn.came]
      exact h.inOrder
    · exact h.opened_append hlog fun m packet status p he =>
        Event.noConfusion (List.mem_singleton.mp he)
  | @sent p rest m id hl hi hdef hb hsock hps heq =>
    have hbound : n.server.boundSock m id = some k := State.boundSock_eq_some.mpr ⟨_, hb, hsock⟩
    have huse : InUse n.server k := Or.inl ⟨m, id, hbound⟩
    have hlog := @State.log_runFound env n.server p rest m id
    rw [hbound, ← heq] at hlog
    have hread : p.readFrom k = true :=
      h.readFrom huse (State.mem_openPasses_of_deferred hdef) hsock
        (hok.told.queued p (hdef ▸ List.mem_cons_self ..))
    have hqueue : n'.queue k = n.queue k := by
      subst hl
      rcases hn.queue with ⟨result, hl, -⟩ | ⟨-, hsame⟩
      · cases hl
      · exact hsame
    have hcomplete : payloadsOn k n'.server.log ++
        (n'.server.passesOf k).map (·.combinedBuffer) ++ n'.queue k = n'.came k := by
      have hall := h.complete huse
      rw [hps, hread] at hall
      rw [hlog, payloadsOn_append, hqueue, hn.came, ← hall]
      simp [payloadsOn, Event.payloadOn]
    refine ⟨hharmless, hclean, fun _ => hcomplete, ?_, ?_⟩
    · rw [← hcomplete, List.append_assoc]
      exact List.prefix_append _ _
    · refine h.opened_append hlog fun m' packet status p' he => ?_
      obtain ⟨-, rfl, -, -⟩ := Event.sent.inj (List.mem_singleton.mp he)
      exact show packetData ≠ packetClose by decide
  | closed hl hb hsock => exact absurd hsock (h.not_closing hok hl hb)

/-- A datagram socket that is made. -/
theorem Bounded.socket (hn : Net.Served env k n l n') (hg : n.oneByOne k (.server l) = true)
    (hempty : n.queue k = [] ∧ n.came k = []) (h : SocketMade k n.server l n'.server) :
    Bounded k n' := by
  obtain ⟨fd, hl, -⟩ := h.call
  have hqueue : n'.queue k = [] := by
    rcases hn.queue with ⟨result, hread, -⟩ | ⟨-, hsame⟩
    · rw [hl] at hread
      cases hread
    · exact hsame.trans hempty.1
  have hcame : n'.came k = [] := by rw [hn.came, hempty.2]
  have hsent : payloadsOn k n'.server.log = [] :=
    List.filterMap_eq_nil_iff.mpr fun e he => payloadOn_of_foreign (h.foreign e he)
  refine ⟨fun p hp r hr hrk => absurd hrk (h.unread p hp r hr), fun _ => ?_, fun _ => ?_, ?_, ?_⟩
  · refine h.clean fun fd hl p hp hfd r hr => ?_
    subst hl
    simp only [Net.oneByOne, ← h.number, ne_eq, not_true_eq_false, decide_false, Bool.false_or,
      List.all_eq_true, Bool.or_eq_true, decide_eq_true_eq, List.isEmpty_iff] at hg
    have hnil := (hg p hp).resolve_left fun hne => hne hfd
    rw [hnil] at hr
    cases hr
  · rw [hsent, h.passesOf, hqueue, hcame]
    rfl
  · rw [hsent]
    exact List.nil_prefix
  · exact fun m packet status p he => absurd rfl (h.foreign _ he)

/-- A datagram comes. -/
theorem Bounded.datagram {d : Bytes} (h : Bounded k n) : Bounded k { n with
    queue := Function.update n.queue k (n.queue k ++ [d])
    came := Function.update n.came k (n.came k ++ [d]) } where
  harmless := h.harmless
  clean := h.clean
  complete huse := by
    simp only [Function.update_self, ← h.complete huse, List.append_assoc]
  inOrder := by
    simp only [Function.update_self]
    exact h.inOrder.trans (List.prefix_append _ _)
  opened := h.opened

theorem Delimited.step {a : NetLabel} (hs : n.step env a = some n') (hg : n.oneByOne k a = true)
    (h : Delimited k n) : Delimited k n' := by
  have hlt : ∀ {k}, n.isDatagram k = true → k < n.server.kernel.socks.length := by
    intro k hd
    rw [← h.aligned]
    exact (List.getElem?_eq_some_iff.mp (of_decide_eq_true hd)).1
  cases a with
  | datagram k' d =>
    rw [Net.step, Option.ite_none_right_eq_some] at hs
    obtain ⟨⟨hd, -⟩, hs⟩ := hs
    obtain rfl := Option.some.inj hs
    refine ⟨h.ok, h.aligned, h.unmade, fun hle => ?_, fun hdk => ?_⟩
    · have hne : k ≠ k' := by
        rintro rfl
        exact absurd (hlt hd) (Nat.not_lt.mpr hle)
      simp only [Function.update_of_ne hne]
      exact h.empty hle
    · by_cases hk : k' = k
      · subst hk
        exact (h.bounded hdk).datagram
      · have hold := h.bounded hdk
        refine ⟨hold.harmless, hold.clean, ?_, ?_, hold.opened⟩
        · simp only [Function.update_of_ne (Ne.symm hk)]
          exact hold.complete
        · simp only [Function.update_of_ne (Ne.symm hk)]
          exact hold.inOrder
  | server l =>
    have hn : Net.Served env k n l n' := Net.served hs
    have htable := step_tableMove hn.step h.ok.bound
    have haligned : n'.types.length = n'.server.kernel.socks.length := by
      rcases hn.types with ⟨hnot, htypes⟩ | ⟨c, -, htypes, hsocks⟩
      · rw [htypes, h.aligned]
        cases htable with
        | same _ hsocks | abandon _ _ hsocks | insert _ _ hsocks | close _ _ _ _ _ hsocks =>
          rw [hsocks]
        | socket => exact absurd rfl (hnot _)
      · rw [htypes, hsocks, List.length_append, List.length_append, h.aligned]
        rfl
    refine ⟨h.ok.step hn.step, haligned, h.unmade.step hn.step h.ok.bound h.ok.seated,
      fun hle => ?_, fun hd => ?_⟩
    · obtain ⟨hqueue, hcame⟩ := h.empty (Nat.le_trans htable.socks_le hle)
      refine ⟨?_, hn.came ▸ hcame⟩
      rcases hn.queue with ⟨-, -, -, -, htail⟩ | ⟨-, hsame⟩
      · rw [htail, hqueue]
        rfl
      · rw [hsame, hqueue]
    · by_cases hk : k < n.server.kernel.socks.length
      · have hdk : n.isDatagram k = true := by
          rcases hn.types with ⟨-, htypes⟩ | ⟨c, -, htypes, -⟩
          · rw [Net.isDatagram, ← htypes]
            exact hd
          · rw [Net.isDatagram, htypes, List.getElem?_append_left (h.aligned ▸ hk)] at hd
            exact hd
        exact (h.bounded hdk).step hn h.ok hk hdk hg
      · have hk' : k < n'.server.kernel.socks.length := by
          rw [← haligned]
          exact (List.getElem?_eq_some_iff.mp (of_decide_eq_true hd)).1
        have hmade := step_socketMade hn.step h.ok h.unmade (Nat.not_lt.mp hk) hk'
        exact .socket hn hg (h.empty (Nat.not_lt.mp hk)) hmade

end Step

theorem Delimited.initial (env : Env) : Delimited k { server := State.initial env } where
  ok := .initial env
  aligned := rfl
  unmade _ _ he := nomatch he
  empty _ := ⟨rfl, rfl⟩
  bounded hd := by cases hd

/-- **The boundaries of datagrams are kept** for a datagram socket, in every run in which
its passes find one datagram that fits, each, and no pass had read anything under its number
when it was made. -/
theorem boundaries_kept {n : Net}
    (h : (network env).Reaches (fun n a => n.oneByOne k a = true) n)
    (hd : n.isDatagram k = true) : BoundariesKept k n := by
  have hall : Delimited k n :=
    h.invariant (I := Delimited k) (.initial env) fun _ _ _ hg hst hI => hI.step hst hg
  have hbounded := hall.bounded hd
  exact ⟨hbounded.inOrder, fun m id hb => hbounded.complete (Or.inl ⟨m, id, hb⟩),
    hbounded.opened⟩

/-! ## Runs -/

/-- A CONNECT to a UDP target that succeeds, with descriptor 7. -/
def connectUdp : List Label :=
  [.loop .opened,
    .loop (.message 0 (WispPacket.serialize ⟨packetConnect, 1, [0x02, 53, 0, 97]⟩)),
    .loop (.socket (some 7)), .loop (.connect true), .loop (.pushFd true), .loop .resume]

/-- A pass of the watcher, and its closure. -/
def passAndClosure (results : List ReadResult) : List Label :=
  passLabels 7 results ++ [.loop .deferred]

/-- Two datagrams, one after the other is read. -/
def oneThenOne : List NetLabel :=
  connectUdp.map .server ++ .datagram 0 [104, 105] ::
    (passAndClosure [.bytes [104, 105], .again]).map .server ++ [.datagram 0 [33]]

theorem boundaries_kept_oneThenOne : BoundariesKept 0
    ((network {}).final (fun n a => n.oneByOne 0 a = true) oneThenOne) :=
  boundaries_kept (System.reaches_final _ _ _ (by decide +kernel)) (by decide +kernel)

/-- Two datagrams that are in the queue when the watcher reads. -/
def twoAtOnce : List NetLabel :=
  connectUdp.map .server ++ .datagram 0 [104, 105] :: .datagram 0 [33] ::
    (passAndClosure [.bytes [104, 105], .bytes [33], .again]).map .server

/-- **The merged datagrams**: `[104, 105]` and `[33]` are sent as `[104, 105, 33]`. -/
theorem merged_counterexample :
    ¬ ∀ (env : Env) (n : Net) (k : Nat), (network env).Reachable n → n.isDatagram k = true →
      BoundariesKept k n := by
  intro h
  have hkept := h {} _ 0 ((network {}).reaches_final (fun _ _ => True) twoAtOnce
    (by decide +kernel)) (by decide +kernel)
  exact absurd hkept.inOrder (by decide +kernel)

end Woeful
