import Woeful.Record

/-!
# Delivery in order

For every socket, what was sent on its stream, followed by what its pending closures
are going to send, is what was read from it (`InOrder.lossless`): a pass moves through the
queue of closures in one piece and is sent when its closure finds the stream, which it
does since the pass is on track. A DATA carries what was read from the socket its
stream is bound to (`InOrder.isolated`), and a CLOSE finds everything sent
(`InOrder.drained`), since it is the last closure for its descriptor that sends it.
-/

namespace Woeful

open Memory Transition Log

variable {env : Env} {s t : State} {m : Nat} {id : UInt32} {k : Nat}

/-! ## What was read, sent, and is pending -/

/-- The bytes an event takes from socket `k`. -/
def Event.arrived (k : Nat) : Event → Bytes
  | .read _ r => if r.sock = some k then r.result.data else []
  | _ => []

/-- The bytes an event sends on the stream that is bound to socket `k`; a frame that
`ws->send` drops is not sent. -/
def Event.delivered (k : Nat) : Event → Bytes
  | .sent _ packet status (.closure _ sock) =>
    if packet.packetType = packetData ∧ sock = some k ∧ status ≠ .dropped then packet.data else []
  | _ => []

/-- All bytes read from socket `k`. -/
def arrived (k : Nat) (log : List Event) : Bytes := log.flatMap (Event.arrived k)

/-- All bytes sent on the stream that is bound to socket `k`. -/
def delivered (k : Nat) (log : List Event) : Bytes := log.flatMap (Event.delivered k)

/-- What the closure of a pass is going to send, if the pass has read from socket `k`. -/
def Pass.payloadOf (k : Nat) (p : Pass) : Bytes :=
  if p.reads.any (fun r => r.sock = some k) then p.combinedBuffer else []

/-- What the pending closures of socket `k` are going to send. -/
def State.awaiting (s : State) (k : Nat) : Bytes := s.pendingPasses.flatMap (Pass.payloadOf k)

/-- Delivery from the targets to the clients. -/
structure InOrder (s : State) : Prop where
  /-- what was sent, and then what is pending, is what was read -/
  lossless : ∀ k, delivered k s.log ++ s.awaiting k = arrived k s.log
  /-- every byte is read from some socket -/
  sourced : ∀ fd r, .read fd r ∈ s.log → ∃ k, r.sock = some k
  /-- a DATA is sent by a closure, on the stream that is bound to the socket the bytes
  were read from -/
  isolated : ∀ pre m packet status origin post,
    s.log = pre ++ .sent m packet status origin :: post → packet.packetType = packetData →
    ∃ p k, origin = .closure p (some k) ∧ Live pre m packet.streamId k ∧
      packet.data = p.combinedBuffer ∧ ∀ r ∈ p.reads, r.sock = some k
  /-- when a CLOSE is sent, everything that is ever read from the socket was sent before -/
  drained : ∀ pre m packet status origin post,
    s.log = pre ++ .sent m packet status origin :: post → packet.packetType = packetClose →
    ∀ k, Live pre m packet.streamId k → delivered k pre = arrived k s.log

/-! ## One entry more -/

/-- The same, for a log, what is pending, and the sockets that are gone. -/
structure Delivered (log : List Event) (awaiting : Nat → Bytes) (gone : Nat → Prop) : Prop where
  /-- what was sent, and then what is pending, is what was read -/
  lossless : ∀ k, delivered k log ++ awaiting k = arrived k log
  /-- every byte is read from some socket -/
  sourced : ∀ fd r, .read fd r ∈ log → ∃ k, r.sock = some k
  /-- a DATA is sent on the stream that is bound to the socket the bytes were read from -/
  isolated : ∀ pre m packet status origin post,
    log = pre ++ .sent m packet status origin :: post → packet.packetType = packetData →
    ∃ p k, origin = .closure p (some k) ∧ Live pre m packet.streamId k ∧
      packet.data = p.combinedBuffer ∧ ∀ r ∈ p.reads, r.sock = some k
  /-- when a CLOSE is sent, everything was sent before, and nothing more will be read -/
  drained : ∀ pre m packet status origin post,
    log = pre ++ .sent m packet status origin :: post → packet.packetType = packetClose →
    ∀ k, Live pre m packet.streamId k → delivered k pre = arrived k log ∧ gone k

theorem arrived_append {log log' : List Event} :
    arrived k (log ++ log') = arrived k log ++ arrived k log' :=
  List.flatMap_append

theorem arrived_sent {packet : WispPacket} {status : SendStatus} {origin : Origin} :
    (Event.sent m packet status origin).arrived k = [] := rfl

theorem delivered_sent_close {packet : WispPacket} {status : SendStatus} {origin : Origin}
    (h : packet.packetType ≠ packetData) :
    (Event.sent m packet status origin).delivered k = [] := by
  rw [Event.delivered.eq_def]
  cases origin with
  | server => rfl
  | closure p sock => exact if_neg fun hd => h hd.1

namespace Delivered

variable {log : List Event} {awaiting awaiting' : Nat → Bytes} {gone gone' : Nat → Prop} {e : Event}

/-- The log before the first entry. -/
theorem nil (h : ∀ k, awaiting k = []) : Delivered [] awaiting gone where
  lossless k := h k
  sourced _ _ hr := nomatch hr
  isolated pre _ _ _ _ _ he :=
    absurd he.symm (List.append_ne_nil_of_right_ne_nil pre (List.cons_ne_nil _ _))
  drained pre _ _ _ _ _ he :=
    absurd he.symm (List.append_ne_nil_of_right_ne_nil pre (List.cons_ne_nil _ _))

/-- **One entry more.** Nothing is read from a socket that is gone; a DATA is sent where it
belongs; a CLOSE finds nothing pending. -/
theorem snoc (h : Delivered log awaiting gone)
    (hbytes : ∀ k, e.delivered k ++ awaiting' k = awaiting k ++ e.arrived k)
    (hgone : ∀ k, gone k → gone' k ∧ e.arrived k = [])
    (hsource : ∀ fd r, e = .read fd r → ∃ k, r.sock = some k)
    (hdata : ∀ m packet status origin, e = .sent m packet status origin →
      packet.packetType = packetData → ∃ p k, origin = .closure p (some k) ∧
        Live log m packet.streamId k ∧ packet.data = p.combinedBuffer ∧
        ∀ r ∈ p.reads, r.sock = some k)
    (hclose : ∀ m packet status origin, e = .sent m packet status origin →
      packet.packetType = packetClose → ∀ k, Live log m packet.streamId k →
        awaiting k = [] ∧ gone' k) :
    Delivered (log ++ [e]) awaiting' gone' where
  lossless k := by
    calc delivered k (log ++ [e]) ++ awaiting' k
        = delivered k log ++ (e.delivered k ++ awaiting' k) := by
          rw [delivered, List.flatMap_append, List.flatMap_singleton, List.append_assoc]
          rfl
      _ = (delivered k log ++ awaiting k) ++ e.arrived k := by rw [hbytes, List.append_assoc]
      _ = arrived k (log ++ [e]) := by
          rw [h.lossless, arrived_append, arrived, arrived, List.flatMap_singleton]
  sourced fd r hr := by
    rcases List.mem_append.mp hr with hr | hr
    · exact h.sourced fd r hr
    · exact hsource fd r (List.mem_singleton.mp hr).symm
  isolated pre m packet status origin post hlog hty := by
    rcases split_of_snoc hlog with ⟨rest, hold⟩ | ⟨rfl, he⟩
    · exact h.isolated pre m packet status origin rest hold hty
    · exact hdata m packet status origin he.symm hty
  drained pre m packet status origin post hlog hty k hlive := by
    rcases split_of_snoc hlog with ⟨rest, hold⟩ | ⟨rfl, he⟩
    · obtain ⟨hall, hg⟩ := h.drained pre m packet status origin rest hold hty k hlive
      obtain ⟨hg', hnone⟩ := hgone k hg
      refine ⟨?_, hg'⟩
      rw [arrived_append, hall, arrived, arrived, List.flatMap_singleton, hnone, List.append_nil]
    · obtain ⟨hnone, hg⟩ := hclose m packet status origin he.symm hty k hlive
      refine ⟨?_, hg⟩
      -- nothing is pending, so what was sent is what was read
      have hall := h.lossless k
      rw [hnone, List.append_nil] at hall
      rw [arrived_append, ← hall, ← he]
      exact (List.append_nil _).symm

/-- An entry about a descriptor moves no bytes. -/
theorem snoc_other (h : Delivered log awaiting gone) (hgone : ∀ k, gone k → gone' k)
    (hread : ∀ fd r, e ≠ .read fd r) (hsent : ∀ m packet status origin,
      e ≠ .sent m packet status origin) : Delivered (log ++ [e]) awaiting gone' := by
  have hbytes : ∀ k, e.delivered k = [] ∧ e.arrived k = [] := by
    intro k
    cases e with
    | sent m packet status origin => exact absurd rfl (hsent m packet status origin)
    | read fd r => exact absurd rfl (hread fd r)
    | _ => exact ⟨rfl, rfl⟩
  refine h.snoc (fun k => ?_) (fun k hk => ⟨hgone k hk, (hbytes k).2⟩) ?_ ?_ ?_
  · rw [(hbytes k).1, (hbytes k).2]
    exact (List.append_nil _).symm
  · exact fun fd r he => absurd he (hread fd r)
  · exact fun m packet status origin he => absurd he (hsent m packet status origin)
  · exact fun m packet status origin he => absurd he (hsent m packet status origin)

/-- More sockets are gone. -/
theorem mono (h : Delivered log awaiting gone) (hgone : ∀ k, gone k → gone' k) :
    Delivered log awaiting gone' where
  lossless := h.lossless
  sourced := h.sourced
  isolated := h.isolated
  drained pre m packet status origin post he hty k hk :=
    (h.drained pre m packet status origin post he hty k hk).imp_right (hgone k)

/-- More entries that do not matter. -/
theorem extends_idle {bound : Nat → UInt32 → Option Fd} {log' : List Event}
    (h : Delivered log awaiting gone) (hgone : ∀ k, gone k → gone' k)
    (hlive : ∀ m id k, Live log m id k → bound m id ≠ none)
    (hlog : Extends (Event.Idle bound) log log') : Delivered log' awaiting gone' := by
  obtain ⟨es, rfl, hes⟩ := hlog
  have hfirst := h.mono hgone
  clear h
  induction es generalizing log with
  | nil =>
    rw [List.append_nil]
    exact hfirst
  | cons e es ih =>
    have he : e.Idle bound := hes e (List.mem_cons_self ..)
    have hbytes : ∀ k, e.delivered k = [] ∧ e.arrived k = [] := by
      intro k
      cases e with
      | sent m packet status origin => exact ⟨delivered_sent_close he.1, rfl⟩
      | read => exact he.elim
      | _ => exact ⟨rfl, rfl⟩
    have hone : Delivered (log ++ [e]) awaiting gone' := by
      refine hfirst.snoc (fun k => ?_) (fun k hk => ⟨hk, (hbytes k).2⟩) ?_ ?_ ?_
      · rw [(hbytes k).1, (hbytes k).2]
        exact (List.append_nil _).symm
      · rintro fd r rfl
        exact he.elim
      · rintro m packet status origin rfl hty
        exact absurd hty he.1
      · rintro m packet status origin rfl hty k hk
        exact absurd (he.2 hty) (hlive m packet.streamId k hk)
    rw [show log ++ e :: es = (log ++ [e]) ++ es by rw [List.append_assoc]; rfl]
    refine ih (fun m id k hk => hlive m id k ?_)
      (fun e he => hes e (List.mem_cons_of_mem _ he)) hone
    exact (live_of_extends (.snoc he.unbinding)).mp hk

end Delivered

/-! ## The steps -/

/-- What a pass is going to send, if it has read from one socket only. -/
theorem Pass.payloadOf_eq {p : Pass} {sock : Option Nat} (h : ∀ r ∈ p.reads, r.sock = sock) :
    p.payloadOf k = if sock = some k then p.combinedBuffer else [] := by
  rw [payloadOf]
  by_cases hk : sock = some k
  · rw [if_pos hk]
    split
    · rfl
    · rename_i hany
      -- a pass that has read nothing has nothing to send
      have hnil : p.reads = [] := by
        refine List.eq_nil_iff_forall_not_mem.mpr fun r hr => hany ?_
        exact List.any_eq_true.mpr ⟨r, hr, decide_eq_true ((h r hr).trans hk)⟩
      rw [p.combined_eq, hnil]
      rfl
  · rw [if_neg hk, if_neg]
    intro hany
    obtain ⟨r, hr, hrk⟩ := List.any_eq_true.mp hany
    exact hk ((h r hr).symm.trans (of_decide_eq_true hrk))

/-- What a state has delivered. -/
abbrev State.Delivered (s : State) : Prop := Woeful.Delivered s.log s.awaiting (Gone s)

theorem awaiting_eq {pass : Option Pass} (h : s.watcher.phase.pass? = pass) :
    s.awaiting k = s.deferred.flatMap (Pass.payloadOf k) ++
      pass.toList.flatMap (Pass.payloadOf k) := by
  rw [State.awaiting, State.pendingPasses, List.flatMap_append, h]

theorem awaiting_of_pendingPasses (h : t.pendingPasses = s.pendingPasses) :
    t.awaiting = s.awaiting := by
  funext k
  rw [State.awaiting, State.awaiting, h]

/-- What a live stream's socket is. -/
theorem Recorded.binding_ne_none (h : Recorded s) (hk : Live s.log m id k) :
    s.binding m id ≠ none := by
  obtain ⟨fd, hb, -⟩ := State.boundSock_eq_some.mp ((h.live m id k).mp hk)
  rw [hb]
  exact Option.some_ne_none fd

theorem State.Delivered.of_eq (h : s.Delivered) (hgone : ∀ k, Gone s k → Gone t k)
    (hlog : t.log = s.log) (hawait : t.awaiting = s.awaiting) : t.Delivered := by
  rw [State.Delivered, hlog, hawait]
  exact Woeful.Delivered.mono h hgone

/-- The watcher moves bytes from a socket to the pass it is in. -/
theorem State.Delivered.watchMove (hs : WatchMove env s t) (hw : WellBound s)
    (hgone : ∀ k, Gone s k → Gone t k) (htrack : Tracked env s) (h : s.Delivered) :
    t.Delivered := by
  cases hs.passMove with
  | keep hpend hpasses hlog => exact h.of_eq hgone hlog (awaiting_of_pendingPasses hpend)
  | start hpend hpasses hlog =>
    refine h.of_eq hgone hlog ?_
    funext k
    -- a pass that has read nothing carries no bytes
    rw [State.awaiting, State.awaiting, hpend, List.flatMap_append]
    exact List.append_nil _
  | @read p r hr hpend hpend' hpasses hlog =>
    have hmem : p ∈ s.openPasses := by
      rw [State.openPasses, hpend]
      exact List.mem_append_right _ (List.mem_append_right _ (List.mem_singleton_self p))
    have htracked := htrack.passes p hmem
    -- all reads of the pass, with the new one, are from the same socket
    have hsame : ∀ r' ∈ (p.read r).reads, r'.sock = s.kernel.sockAt p.fd := by
      intro r' hr'
      rcases List.mem_append.mp hr' with hr' | hr'
      · exact htracked.current r' hr'
      · exact (congrArg Read.sock (List.mem_singleton.mp hr')).trans hr
    rw [State.Delivered, hlog]
    refine h.snoc (fun k => ?_) (fun k hk => ⟨hgone k hk, ?_⟩) ?_ ?_ ?_
    · rw [State.awaiting, State.awaiting, hpend, hpend', List.flatMap_append, List.flatMap_append,
        List.append_assoc]
      refine congrArg (s.deferred.flatMap (Pass.payloadOf k) ++ ·) ?_
      simp only [List.flatMap_singleton]
      rw [Pass.payloadOf_eq htracked.current, Pass.payloadOf_eq hsame, Event.arrived, hr]
      split
      · rfl
      · rfl
    · rw [Event.arrived, hr]
      exact if_neg (hk.2 p.fd)
    · rintro fd r' he
      obtain ⟨-, rfl⟩ := Event.read.inj he
      exact hr ▸ htracked.attached.sockAt hw
    · exact fun _ _ _ _ => Event.noConfusion
    · exact fun _ _ _ _ => Event.noConfusion

/-- **Every step delivers what it is to deliver.** -/
theorem State.Delivered.flowMove {l : Label} (hs : FlowMove env s t) (ht : TableMove s t l)
    (hw : WellBound s) (hstatus : ∀ n, env.status n ≠ .dropped) (hrec : Recorded s)
    (htrack : Tracked env s) (h : s.Delivered) : t.Delivered := by
  have hgone : ∀ k, Gone s k → Gone t k := fun k => Gone.tableMove ht
  have hlive : ∀ m id k, Live s.log m id k → s.binding m id ≠ none :=
    fun _ _ _ => hrec.binding_ne_none
  cases hs with
  | still hstill =>
    have hpending : t.pendingPasses = s.pendingPasses := by
      rw [State.pendingPasses, State.pendingPasses, hstill.deferred, hstill.phase]
    have hdelivered := Woeful.Delivered.extends_idle h hgone hlive hstill.log
    rw [← awaiting_of_pendingPasses hpending] at hdelivered
    exact hdelivered
  | socket hfree hl heq =>
    subst heq
    exact h.of_eq hgone rfl rfl
  | @abandon c fd hl hnone heq =>
    subst heq
    have hclosed : Woeful.Delivered (s.log ++ [.closed fd (s.kernel.sockAt fd)]) s.awaiting
        (Gone ((s.closeFd fd).refuse env c)) :=
      h.snoc_other hgone (fun _ _ => Event.noConfusion) (fun _ _ _ _ => Event.noConfusion)
    refine hclosed.snoc (fun k => (List.append_nil _).symm) (fun k hk => ⟨hk, rfl⟩)
      (fun _ _ => Event.noConfusion) (fun m packet status origin he hty => ?_)
      (fun m packet status origin he _ k hk => ?_)
    · obtain ⟨-, rfl, -, -⟩ := Event.sent.inj he
      exact absurd hty (show packetClose ≠ packetData by decide)
    · obtain ⟨rfl, rfl, -, -⟩ := Event.sent.inj he
      exact absurd hnone (hlive _ _ k (live_closed.mp hk).1)
  | register hl heq =>
    subst heq
    exact h.of_eq hgone rfl rfl
  | store hl hnone heq =>
    subst heq
    exact h.snoc_other hgone (fun _ _ => Event.noConfusion) (fun _ _ _ _ => Event.noConfusion)
  | watch hmove => exact h.watchMove hmove hw hgone htrack
  | skip hi hd hfree heq =>
    obtain ⟨m, id, hb⟩ := htrack.finds hi hd
    exact absurd hb (hfree m id)
  | @found p rest m id hi hd hb heq =>
    subst heq
    have hp := State.mem_openPasses_of_deferred hd
    have hbound : s.boundSock m id = s.kernel.sockAt p.fd := by
      rw [State.boundSock, hb]
      rfl
    -- the stream that is found is bound to the socket that was read from
    obtain ⟨k₀, hk₀⟩ := (htrack.passes p hp).attached.sockAt hw
    have hcurrent : ∀ r ∈ p.reads, r.sock = some k₀ := by
      intro r hr
      rw [← hk₀]
      exact (htrack.passes p hp).current r hr
    rw [State.Delivered, State.log_runFound, hbound, hk₀]
    refine h.snoc (fun k => ?_) (fun k hk => ⟨hgone k hk, rfl⟩) (fun _ _ => Event.noConfusion)
      (fun m' packet status origin he hty => ?_) (fun m' packet status origin he hty => ?_)
    · have hafter : (s.runFound env p rest m id).awaiting k =
          rest.flatMap (Pass.payloadOf k) ++
            s.watcher.phase.pass?.toList.flatMap (Pass.payloadOf k) := by
        rw [State.awaiting, State.pendingPasses, State.runFound_frame, List.flatMap_append]
      have hbefore : s.awaiting k = p.payloadOf k ++ (rest.flatMap (Pass.payloadOf k) ++
          s.watcher.phase.pass?.toList.flatMap (Pass.payloadOf k)) := by
        rw [awaiting_eq rfl, hd, List.flatMap_cons, List.append_assoc]
      rw [hafter, hbefore, Pass.payloadOf_eq hcurrent, Event.delivered, arrived_sent,
        List.append_nil]
      have hsent : s.sendStatus env ≠ .dropped := hstatus _
      simp [hsent]
    · obtain ⟨rfl, rfl, -, rfl⟩ := Event.sent.inj he
      refine ⟨p, k₀, rfl, ?_, rfl, hcurrent⟩
      rw [hrec.live, hbound, hk₀]
    · obtain ⟨-, rfl, -, -⟩ := Event.sent.inj he
      exact absurd hty (show packetData ≠ packetClose by decide)
  | @close p m id hl hb heq =>
    subst heq
    have hopen : s.openPasses = p :: s.pendingPasses := State.openPasses_of_loop hl
    have hclose : p.toClose = true := htrack.closing p (by rw [hl]; rfl)
    have hlast := htrack.last
    rw [hopen, List.pairwise_cons] at hlast
    -- no pass that is pending has read from the socket that is closed
    have hnone : ∀ k, s.kernel.sockAt p.fd = some k → s.awaiting k = [] := by
      intro k hk
      refine List.flatMap_eq_nil_iff.mpr fun q hq => ?_
      have hq' : q ∈ s.openPasses := hopen ▸ List.mem_cons_of_mem _ hq
      rw [Pass.payloadOf_eq (htrack.passes q hq').current, if_neg]
      intro hqk
      exact hlast.1 q hq hclose (Kernel.sockAt_inj hqk hk)
    rw [State.Delivered, log_closeFound hb]
    have hsent : Woeful.Delivered (s.log ++ [.sent m (closeFrame 0x02 id) (s.sendStatus env)
        (.closure p (s.boundSock m id))]) s.awaiting (Gone (s.closeFound env p m id)) := by
      refine h.snoc (fun k => ?_) (fun k hk => ⟨hgone k hk, rfl⟩) (fun _ _ => Event.noConfusion)
        (fun m' packet status origin he hty => ?_) (fun m' packet status origin he _ k hk => ?_)
      · rw [delivered_sent_close (show packetClose ≠ packetData by decide), arrived_sent]
        exact (List.append_nil _).symm
      · obtain ⟨-, rfl, -, -⟩ := Event.sent.inj he
        exact absurd hty (show packetClose ≠ packetData by decide)
      · obtain ⟨rfl, rfl, -, -⟩ := Event.sent.inj he
        have hk : s.kernel.sockAt p.fd = some k := by
          have hbound := (hrec.live m id k).mp hk
          rw [State.boundSock, hb] at hbound
          exact hbound
        exact ⟨hnone k hk, gone_of_close (State.sockAt_closeFound hb) State.socks_closeStream hk⟩
    exact hsent.snoc_other (fun _ hk => hk) (fun _ _ => Event.noConfusion)
      (fun _ _ _ _ => Event.noConfusion)

/-! ## The runs -/

/-- Everything that holds along the runs. -/
structure Delivering (env : Env) (s : State) : Prop where
  /-- the tables are consistent -/
  bound : WellBound s
  /-- the loop thread is in no close handler -/
  calm : Calm s
  /-- the passes are on track -/
  tracked : Tracked env s
  /-- the log is right about the bindings -/
  recorded : Recorded s
  /-- what was read is sent or pending -/
  delivered : s.Delivered

theorem Delivering.step {l : Label} (hs : s.step env l = some t)
    (hg : s.connectsUnused l = true) (hstatus : ∀ n, env.status n ≠ .dropped)
    (h : Delivering env s) : Delivering env t := by
  have htable := step_tableMove hs h.bound
  have hflow := step_flowMove hs h.bound hg h.calm
  exact ⟨h.bound.step hs, h.calm.step hs hg, h.tracked.flowMove hflow h.bound,
    h.recorded.flowMove hflow htable h.bound,
    h.delivered.flowMove hflow htable h.bound hstatus h.recorded h.tracked⟩

theorem Delivering.initial (env : Env) : Delivering env (State.initial env) where
  bound := .initial env
  calm := .initial env
  tracked := .initial env
  recorded := .initial env
  delivered := .nil fun _ => rfl

/-- **Delivery in order and without loss**, in every run in which no websocket closes,
CONNECTs are for ids that are not present, and `ws->send` drops nothing. -/
theorem delivers_in_order (hstatus : ∀ n, env.status n ≠ .dropped)
    (h : (server env).Reaches (fun s l => s.connectsUnused l = true) s) : InOrder s := by
  have hall : Delivering env s :=
    h.invariant (Delivering.initial env) fun _ _ _ hg hst hI => hI.step hst hg hstatus
  exact ⟨hall.delivered.lossless, hall.delivered.sourced, hall.delivered.isolated,
    fun pre m packet status origin post he hty k hk =>
      (hall.delivered.drained pre m packet status origin post he hty k hk).1⟩

/-- Bytes are read before the stream is stored, then EOF, and another client is given
the descriptor. -/
def reuseAfterDelivery : List Label :=
  [.loop .opened, .loop .opened] ++ (connectLabels 0 1 7).take 4 ++
    passLabels 7 [.bytes [104, 105], .again] ++ [.loop .resume] ++
    passLabels 7 [.bytes [33], .eof] ++
    .loop .deferred :: List.replicate 5 (.loop .resume) ++
    .loop .deferred :: List.replicate 6 (.loop .resume) ++
    connectLabels 1 5 7 ++ passLabels 7 [.bytes [98, 121, 101], .again]

theorem delivers_in_order_reuseAfterDelivery :
    InOrder ((server {}).final (fun s l => s.connectsUnused l = true) reuseAfterDelivery) :=
  @delivers_in_order {} _ (fun _ h => nomatch h) (System.reaches_final _ _ _ (by decide +kernel))

end Woeful
