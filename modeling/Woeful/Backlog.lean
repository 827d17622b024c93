import Woeful.Carriage
import Woeful.Conservation
import Woeful.Uploads

/-!
# The backlog of an upload

The payloads that were accepted for a socket and are still with the pool. Credit is all
that keeps a client from sending more, and it is renewed by what happens on the loop
thread; nothing there looks at the pool. So credit bounds how much is accepted between two
renewals, and not how much is unfinished: since the oldest unfinished payload was
accepted, a window and a window more for each CONTINUE (`backlog_bounded`). One renewal
while a target takes nothing exceeds the window (`overfull_counterexample`).

The proof reads the log as a meter (`Window.Metered`): it is set when a stream is stored,
and every step of the server keeps it as long as the stream is there; afterwards nothing is
accepted for its socket (`Retired`).
-/

namespace Woeful

open Memory Transition Window

variable {env : Env} {s t : State} {σ τ : Session} {m k : Nat} {id : UInt32} {l : Label}

/-! ## What is counted -/

/-- A DATA for socket `k` is accepted. -/
def Event.accepts (k : Nat) : Event → Bool
  | .accepted task => task.sock = some k
  | _ => false

/-- The DATA that an event accepts for socket `k`. -/
def Event.acceptedTask (k : Nat) : Event → Option WriteTask
  | .accepted task => if task.sock = some k then some task else none
  | _ => none

/-- A CONTINUE for stream `id` is sent to `m`. -/
def Event.grants (m : Nat) (id : UInt32) (e : Event) : Bool :=
  (e.frameTo m).any (·.is packetContinue id)

/-- The DATA accepted for socket `k`, in order. -/
def acceptedTasks (k : Nat) (log : List Event) : List WriteTask :=
  log.filterMap (Event.acceptedTask k)

/-- Those whose tasks have not finished. -/
def State.unfinishedTasks (s : State) (k : Nat) : List WriteTask :=
  s.pool.unfinished.filter (·.sock = some k)

/-- Their number. -/
def State.backlog (s : State) (k : Nat) : Nat := (s.unfinishedTasks k).length

/-- What credit does for the backlog of socket `k`, which was made for stream `id` of `m`. -/
structure BacklogBounded (m : Nat) (id : UInt32) (k : Nat) (s : State) : Prop where
  /-- what is unfinished was accepted, in this order -/
  accounted : (s.unfinishedTasks k).Sublist (acceptedTasks k s.log)
  /-- since any moment after which all of it was accepted -/
  bounded : ∀ before after, s.log = before ++ after →
    (s.unfinishedTasks k).Sublist (acceptedTasks k after) →
    s.backlog k ≤ window * (1 + after.countP (Event.grants m id))

/-! ## What a step logs -/

/-- The log only grows. -/
theorem step_log_prefix (hs : s.step env l = some t) (hw : WellBound s) : s.log <+: t.log := by
  cases step_wireMove hs hw with
  | quiet _ _ hlog =>
    obtain ⟨es, hlog, -⟩ := hlog
    exact ⟨es, hlog.symm⟩
  | refused _ _ _ _ hlog heq =>
    obtain ⟨es, rfl, -⟩ := hlog
    exact ⟨_, (heq.trans (List.append_assoc ..)).symm⟩
  | opened _ _ hlog => exact ⟨_, hlog.symm⟩
  | read _ _ _ hlog => exact ⟨_, hlog.symm⟩
  | stored _ _ hlog => exact ⟨_, hlog.symm⟩
  | closed _ _ _ hlog => exact ⟨_, hlog.symm⟩

/-- What a step logs that accepts nothing for the socket. -/
theorem accepts_eq_zero {es : List Event} (hlog : s.log ++ es = t.log)
    (hcount : t.log.countP (Event.accepts k) = s.log.countP (Event.accepts k)) :
    es.countP (Event.accepts k) = 0 ∧ es.tail.countP (Event.accepts k) = 0 := by
  have hnone : es.countP (Event.accepts k) = 0 := by
    rw [← hlog, List.countP_append] at hcount
    omega
  exact ⟨hnone, Nat.le_zero.mp (hnone ▸ (List.tail_sublist es).countP_le)⟩

theorem length_acceptedTasks {log : List Event} :
    (acceptedTasks k log).length = log.countP (Event.accepts k) := by
  rw [acceptedTasks, List.length_filterMap_eq_countP]
  refine List.countP_congr fun e _ => ?_
  cases e <;> simp [Event.accepts, Event.acceptedTask]

theorem acceptedTasks_append (log es : List Event) :
    acceptedTasks k (log ++ es) = acceptedTasks k log ++ acceptedTasks k es :=
  List.filterMap_append ..

theorem acceptedTasks_uploadLog : acceptedTasks k s.uploadLog = acceptedTasks k s.log := by
  rw [acceptedTasks, acceptedTasks, State.uploadLog, List.filterMap_filter]
  congr 1
  funext e
  cases e <;> simp [Event.acceptedTask, Event.ofTask]

/-- A worker accepts nothing. -/
theorem WorkerMove.acceptedTasks_eq {w : WorkerLabel} (hs : WorkerMove env s w t) :
    acceptedTasks k t.log = acceptedTasks k s.log := by
  rw [← acceptedTasks_uploadLog, ← acceptedTasks_uploadLog]
  cases hs with
  | begin hi hd =>
    rw [State.uploadLog_record rfl, acceptedTasks_append]
    exact List.append_nil _
  | fault hi hd =>
    rw [State.uploadLog_record rfl, acceptedTasks_append]
    exact List.append_nil _
  | write hi hn =>
    rw [State.uploadLog_record rfl, acceptedTasks_append]
    exact List.append_nil _
  | _ => rfl

theorem countP_grants :
    s.log.countP (Event.grants m id) = (s.sentTo m).countP (·.is packetContinue id) := by
  rw [State.sentTo, List.countP_filterMap]
  refine List.countP_congr fun e _ => ?_
  rw [Event.grants]
  cases e.frameTo m <;> rfl

/-- The log of `handle_data`: the DATA is accepted first. -/
theorem State.handleData_log {packet : WispPacket} {d : SocketStreamData}
    (hd : s.stream m packet.streamId = some d) :
    ∃ es, (s.handleData env m packet).2.log = s.log ++ .accepted (s.taskFor m packet) :: es ∧
      es.countP (Event.accepts k) = 0 := by
  rw [handleData, hd]
  dsimp only
  split
  · split
    · exact ⟨[_], List.append_assoc s.log [_] [_], rfl⟩
    · exact ⟨[], rfl, rfl⟩
  · exact ⟨[], rfl, rfl⟩

/-- What a step accepts for a socket: nothing, or a DATA for the stream that is bound to it. -/
inductive AcceptMove (k : Nat) (s : State) (l : Label) (t : State) : Prop where
  /-- nothing -/
  | quiet : t.log.countP (Event.accepts k) = s.log.countP (Event.accepts k) → AcceptMove k s l t
  /-- a DATA -/
  | accept {m : Nat} {view : Bytes} {packet : WispPacket} {task : WriteTask} {es : List Event} :
      l = .loop (.message m view) → s.loop = .idle →
      WispPacket.parse view (UInt64.ofNat view.length) = .ok packet →
      packet.packetType = packetData → s.boundSock m packet.streamId = some k →
      t.log = s.log ++ .accepted task :: es →
      task.sock = some k → es.countP (Event.accepts k) = 0 → AcceptMove k s l t

theorem step_acceptMove (hs : s.step env l = some t) : AcceptMove k s l t := by
  cases l with
  | loop l =>
    rcases (loopStep_cases hs).upload with ⟨-, hlog⟩ | ⟨m, view, packet, d, rfl, hi, hp, hty, hd,
        rfl⟩
    · refine .quiet ?_
      rw [← length_acceptedTasks, ← length_acceptedTasks, ← acceptedTasks_uploadLog, hlog,
        acceptedTasks_uploadLog]
    · have hsame := SameTable.endHandshake s m
      have hsock : (s.endHandshake m).boundSock m packet.streamId =
          s.boundSock m packet.streamId := by
        rw [hsame.boundSock]
      have hd' : (s.endHandshake m).stream m packet.streamId = some d := by
        simp [hd]
      obtain ⟨es, hlog, hes⟩ := @State.handleData_log env _ m k _ _ hd'
      have hlog : _ = s.log ++ _ :: es := hlog
      by_cases hk : s.boundSock m packet.streamId = some k
      · exact .accept rfl hi hp hty hk hlog (hsock.trans hk) hes
      · refine .quiet ?_
        have hnot : Event.accepts k (.accepted ((s.endHandshake m).taskFor m packet)) = false :=
          decide_eq_false fun h => hk (hsock.symm.trans h)
        rw [hlog, List.countP_append, List.countP_cons_of_neg (by simp [hnot]), hes]
        rfl
  | worker l =>
    have hmove : WorkerMove env s l t := workerStep_cases hs
    refine .quiet ?_
    rw [← length_acceptedTasks, ← length_acceptedTasks, hmove.acceptedTasks_eq]
  | watch l =>
    refine .quiet ?_
    rcases watchStep_log hs with hlog | ⟨p, result, -, -, hlog⟩
    · rw [hlog]
    · rw [hlog, List.countP_append]
      rfl
  | rehash m' streams =>
    rw [(State.rehash_frame hs).2]
    exact .quiet rfl
  | rehashSockets ms =>
    obtain ⟨-, -, rfl⟩ := State.rehashSockets_frame hs
    exact .quiet rfl

/-- What is accepted for a socket is for the one stream that is bound to it. -/
theorem AcceptMove.inUse (h : AcceptMove k s l t) (hnot : ¬ InUse s k) :
    t.log.countP (Event.accepts k) = s.log.countP (Event.accepts k) := by
  cases h with
  | quiet hcount => exact hcount
  | accept _ _ _ _ hk => exact absurd (Or.inl ⟨_, _, hk⟩) hnot

/-! ## A stream that is closed -/

/-- A stream that goes leaves its socket to nobody. -/
theorem TableMove.not_inUse (hs : TableMove s t l) (hk : s.boundSock m id = some k)
    (hnone : t.binding m id = none) : ¬ InUse t k := by
  obtain ⟨fd, hb, hsock⟩ := State.boundSock_eq_some.mp hk
  have hgone : t.binding ≠ s.binding := by
    intro hbind
    rw [hbind, hb] at hnone
    cases hnone
  intro huse
  cases hs with
  | same _ _ hbind => exact hgone hbind
  | socket _ _ _ _ hbind => exact hgone hbind
  | abandon _ _ _ hbind => exact hgone hbind
  | insert _ _ _ hbind =>
    rw [hbind] at hnone
    split at hnone
    · cases hnone
    · rw [hb] at hnone
      cases hnone
  | close _ hb' _ _ hsock' _ hbind =>
    rw [hbind] at hnone
    split at hnone
    · rename_i he
      rw [← he.1, ← he.2, hb] at hb'
      obtain rfl := Option.some.inj hb'
      obtain ⟨fd', hfd'⟩ := huse.opened
      rw [hsock', Function.update_apply] at hfd'
      split at hfd'
      · cases hfd'
      · rename_i hne
        exact hne (Kernel.sockAt_inj hfd' hsock)
    · rw [hb] at hnone
      cases hnone

/-! ## What a step does to the credit -/

section Credit

variable {d : SocketStreamData}

/-- A step of the server without a message of the client. -/
theorem ClientMove.buffer_le (h : ClientMove m s t) (hcall : NotCalling id (s.callOf m))
    (hd : s.stream m id = some d) :
    t.stream m id = none ∨ ∃ d' frames, t.stream m id = some d' ∧ d'.streamType = d.streamType ∧
      t.sentTo m = s.sentTo m ++ frames ∧
      d'.buffer.toNat ≤ d.buffer.toNat + window * frames.countP (·.is packetContinue id) := by
  have hsame : ∀ frames, t.stream m id = s.stream m id → t.sentTo m = s.sentTo m ++ frames →
      t.stream m id = none ∨ ∃ d' frames, t.stream m id = some d' ∧
        d'.streamType = d.streamType ∧ t.sentTo m = s.sentTo m ++ frames ∧
        d'.buffer.toNat ≤ d.buffer.toNat + window * frames.countP (·.is packetContinue id) :=
    fun frames hstream hsent =>
      Or.inr ⟨d, frames, hstream.trans hd, rfl, hsent, Nat.le_add_right _ _⟩
  cases h with
  | quiet hstream _ hsent => exact hsame _ (congrFun hstream id) hsent
  | opened _ _ hstream _ hsent => exact hsame _ (congrFun hstream id) hsent
  | refuse _ _ _ hstream hsent => exact hsame _ (congrFun hstream id) hsent
  | @insert c fd _ hc _ hstream hsent =>
    refine hsame [] ?_ (hsent.trans (List.append_nil _).symm)
    rw [hstream, if_neg (fun he => hcall c hc he.symm)]
  | @close id' reason _ _ hstream hsent =>
    by_cases he : id = id'
    · rw [hstream, if_pos he]
      exact Or.inl rfl
    · exact hsame _ ((hstream id).trans (if_neg he)) hsent
  | @renew frames _ _ hstream hsent hgrant hcount =>
    refine Or.inr ⟨d.renew, frames, by rw [hstream, hd]; rfl, ?_, hsent, ?_⟩
    · rw [SocketStreamData.renew]
      split <;> rfl
    · rw [SocketStreamData.renew]
      split
      · -- an exhausted stream is granted a window
        rename_i hzero
        have hone : frames.countP (·.is packetContinue id) = 1 := by
          rw [countP_grantFrame fun p hp => ?_]
          · exact hcount id d hd hzero
          · obtain ⟨id', hp, -⟩ := hgrant p hp
            exact ⟨id', hp⟩
        rw [hone]
        exact Nat.le_add_left _ _
      · exact Nat.le_add_right _ _

/-- The server takes a message of the client: what it accepts is covered. -/
theorem ReceiveMove.buffer_le {packet : WispPacket} (h : ReceiveMove m packet s t)
    (hd : s.stream m id = some d) (htcp : d.streamType = 0x01)
    (hpos : packet.packetType = packetData → packet.streamId = id → 0 < d.buffer.toNat) :
    ∃ d' frames, t.stream m id = some d' ∧ d'.streamType = d.streamType ∧
      t.sentTo m = s.sentTo m ++ frames ∧
      (if packet.packetType = packetData ∧ packet.streamId = id then 1 else 0) + d'.buffer.toNat ≤
        d.buffer.toNat + window * frames.countP (·.is packetContinue id) := by
  have hsame : ∀ frames, t.stream m id = s.stream m id → t.sentTo m = s.sentTo m ++ frames →
      ¬ (packet.packetType = packetData ∧ packet.streamId = id) →
      ∃ d' frames, t.stream m id = some d' ∧ d'.streamType = d.streamType ∧
        t.sentTo m = s.sentTo m ++ frames ∧
        (if packet.packetType = packetData ∧ packet.streamId = id then 1 else 0) +
          d'.buffer.toNat ≤ d.buffer.toNat + window * frames.countP (·.is packetContinue id) := by
    intro frames hstream hsent hnot
    refine ⟨d, frames, hstream.trans hd, rfl, hsent, ?_⟩
    rw [if_neg hnot, Nat.zero_add]
    exact Nat.le_add_right _ _
  cases h with
  | other hgone _ hstream _ hsent =>
    refine hsame [] (congrFun hstream id) (hsent.trans (List.append_nil _).symm) ?_
    rintro ⟨hty, rfl⟩
    rw [hgone hty] at hd
    cases hd
  | connect hty _ _ _ hstream hsent =>
    refine hsame [] (congrFun hstream id) (hsent.trans (List.append_nil _).symm) ?_
    rw [hty]
    rintro ⟨h, -⟩
    cases h
  | refuse hty _ hstream hsent =>
    refine hsame _ (congrFun hstream id) hsent ?_
    rw [hty]
    rintro ⟨h, -⟩
    cases h
  | @data d₀ renewed hty hd₀ hrenewed _ hstream hsent =>
    by_cases he : id = packet.streamId
    · subst he
      obtain rfl : d = d₀ := Option.some.inj (hd.symm.trans hd₀)
      have hcounts : d.streamType ≠ 0x02 := by
        rw [htcp]
        decide
      have hpos := hpos hty rfl
      have hsub : (d.buffer - 1).toNat = d.buffer.toNat - 1 := by
        rw [UInt32.toNat_sub_of_le]
        · rfl
        · exact UInt32.le_iff_toNat_le.mpr hpos
      have hstream := hstream packet.streamId
      rw [if_pos ⟨rfl, hcounts⟩] at hstream
      refine ⟨_, _, hstream, rfl, hsent, ?_⟩
      rw [if_pos ⟨hty, rfl⟩]
      cases renewed with
      | false =>
        change 1 + (d.buffer - 1).toNat ≤ _
        rw [hsub]
        omega
      | true =>
        have hgrant :
            [grantFrame packet.streamId].countP (·.is packetContinue packet.streamId) = 1 := by
          simp [WispPacket.is, grantFrame]
        have hboth : d.streamType ≠ 0x02 ∧ true = true := ⟨hcounts, rfl⟩
        rw [if_pos hboth, hgrant]
        change 1 + window ≤ _
        omega
    · refine hsame _ ((hstream id).trans (if_neg fun h => he h.1)) hsent fun h => he h.2.symm

end Credit

/-! ## The meter -/

/-- The log is a meter for socket `k` of stream `id` of `m`; it allows `b` more. -/
abbrev MeteredAt (m : Nat) (id : UInt32) (k b : Nat) (log : List Event) : Prop :=
  Metered (Event.accepts k) (Event.grants m id) window b log

/-- The stream is there, and its `buffer` is what the meter allows. -/
structure Metering (m : Nat) (id : UInt32) (k : Nat) (s : State) : Prop where
  /-- the stream is a TCP stream, and bound to the socket -/
  live : ∃ d, s.stream m id = some d ∧ d.streamType = 0x01 ∧ s.boundSock m id = some k ∧
    MeteredAt m id k d.buffer.toNat s.log

/-- The stream was there; nothing will be accepted for the socket any more. -/
structure Retired (m : Nat) (id : UInt32) (k : Nat) (s : State) : Prop where
  /-- the socket was made -/
  made : k < s.kernel.socks.length
  /-- and is not in use -/
  unused : ¬ InUse s k
  /-- what was accepted -/
  metered : MeteredAt m id k 0 s.log

theorem Retired.step (hs : s.step env l = some t) (hw : WellBound s) (h : Retired m id k s) :
    Retired m id k t := by
  have htable := step_tableMove hs hw
  obtain ⟨es, hlog⟩ := step_log_prefix hs hw
  obtain ⟨hnone, hfirst⟩ := accepts_eq_zero hlog ((step_acceptMove (k := k) hs).inUse h.unused)
  refine ⟨Nat.lt_of_lt_of_le h.made htable.socks_le,
    fun huse => h.unused (huse.of_step htable h.made), ?_⟩
  rw [← hlog]
  refine h.metered.append hfirst (Nat.zero_le _) ?_
  rw [hnone]
  exact Nat.zero_le _

/-- A socket is bound to one stream. -/
theorem WellBound.boundSock_unique {m' : Nat} {id' : UInt32} (hw : WellBound s)
    (hk : s.boundSock m id = some k) (hk' : s.boundSock m' id' = some k) : m' = m ∧ id' = id := by
  obtain ⟨fd, hb, hsock⟩ := State.boundSock_eq_some.mp hk
  obtain ⟨fd', hb', hsock'⟩ := State.boundSock_eq_some.mp hk'
  obtain rfl : fd' = fd := Kernel.sockAt_inj hsock' hsock
  exact hw.table.unique hb' hb

/-- A stream that stays is bound to its socket as before. -/
theorem boundSock_stays (hs : s.step env l = some t) (hw : WellBound s)
    (hcall : NotCalling id (s.callOf m)) (hk : s.boundSock m id = some k)
    (hstream : t.stream m id ≠ none) : t.boundSock m id = some k := by
  rcases (step_tableMove hs hw).keeps_boundTo hw.table (m, id) with hkeeps | ⟨-, c, fd, hl, he⟩
  · obtain ⟨fd, hb⟩ := Option.ne_none_iff_exists'.mp (State.binding_ne_none.mpr hstream)
    obtain ⟨n, hn, -⟩ := (hw.step hs).table.owner hb
    have hold : s.boundSock m id = some n := hkeeps n hn
    rw [hn, ← hk, hold]
  · obtain ⟨hm, hid⟩ := Prod.mk.inj he
    exact absurd hid.symm (hcall c (State.callOf_some hl rfl hm.symm))

section Step

variable {d d' : SocketStreamData} {frames : List WispPacket}

/-- The grants of a step are the CONTINUEs it sends. -/
theorem countP_grants_step {es : List Event} (hlog : s.log ++ es = t.log)
    (hsent : t.sentTo m = s.sentTo m ++ frames) :
    es.countP (Event.grants m id) = frames.countP (·.is packetContinue id) := by
  have hcount := @countP_grants t m id
  rw [← hlog, List.countP_append, @countP_grants s m id, hsent, List.countP_append] at hcount
  omega

/-- The stream stays. -/
theorem Metering.keep (hs : s.step env l = some t) (hw : WellBound s)
    (hcall : NotCalling id (s.callOf m)) (htcp : d.streamType = 0x01)
    (hk : s.boundSock m id = some k) (hmeter : MeteredAt m id k d.buffer.toNat s.log)
    (hd' : t.stream m id = some d') (htype : d'.streamType = d.streamType)
    (hle : d'.buffer ≤ bufferCount)
    (hsent : t.sentTo m = s.sentTo m ++ frames) {es : List Event} (hlog : s.log ++ es = t.log)
    (hfirst : es.tail.countP (Event.accepts k) = 0)
    (hsum : es.countP (Event.accepts k) + d'.buffer.toNat ≤
      d.buffer.toNat + window * frames.countP (·.is packetContinue id)) : Metering m id k t := by
  refine ⟨d', hd', htype.trans htcp, ?_, ?_⟩
  · exact boundSock_stays hs hw hcall hk (by rw [hd']; exact Option.some_ne_none _)
  · rw [← hlog]
    refine hmeter.append hfirst (UInt32.le_iff_toNat_le.mp hle) ?_
    rw [countP_grants_step hlog hsent]
    exact hsum

/-- What a step of a session is for the server: nothing, a step without a message of the
client, or the next message. -/
theorem Session.step_server {a : SessionLabel} (hs : (session env m).step σ a = some τ) :
    τ.server = σ.server ∨ (∃ l, l.notFrom m = true ∧ σ.server.step env l = some τ.server) ∨
      ∃ p rest, σ.up = p :: rest ∧
        σ.server.step env (.loop (.message m p.serialize)) = some τ.server := by
  change Session.step env m σ a = some τ at hs
  cases a with
  | server l =>
    obtain ⟨hnot, hs⟩ := Option.ite_none_right_eq_some.mp hs
    obtain ⟨t, ht, rfl⟩ := Option.map_eq_some_iff.mp hs
    exact Or.inr (Or.inl ⟨l, hnot, ht⟩)
  | deliver =>
    rw [Session.step] at hs
    split at hs
    · cases hs
    · rename_i p rest hup
      obtain ⟨t, ht, rfl⟩ := Option.map_eq_some_iff.mp hs
      exact Or.inr (Or.inr ⟨p, rest, hup, ht⟩)
  | receive =>
    rw [Session.step] at hs
    split at hs
    · cases hs
    · rename_i p rest hdown
      obtain rfl := Option.some.inj hs
      left
      change (σ.take p).server = σ.server
      rw [Session.take]
      split
      · split
        · rfl
        · split
          · rfl
          · split <;> rfl
      · split <;> rfl
  | connect id type destination =>
    change σ.sendConnect id type destination = some τ at hs
    rw [Session.sendConnect] at hs
    split at hs
    · obtain rfl := Option.some.inj hs
      exact Or.inl rfl
    · cases hs
  | data id payload =>
    change σ.sendData id payload = some τ at hs
    rw [Session.sendData] at hs
    split at hs
    · cases hs
    · dsimp only at hs
      split at hs
      · obtain rfl := Option.some.inj hs
        exact Or.inl rfl
      · obtain ⟨-, hs⟩ := Option.ite_none_right_eq_some.mp hs
        obtain rfl := Option.some.inj hs
        exact Or.inl rfl
  | other p =>
    obtain ⟨-, hs⟩ := Option.ite_none_right_eq_some.mp hs
    obtain rfl := Option.some.inj hs
    exact Or.inl rfl

/-- The server takes a step at most. -/
theorem Session.exists_step_server {a : SessionLabel}
    (hs : (session env m).step σ a = some τ) :
    τ.server = σ.server ∨ ∃ l, σ.server.step env l = some τ.server := by
  rcases step_server hs with hsame | ⟨l, -, hstep⟩ | ⟨p, -, -, hstep⟩
  · exact Or.inl hsame
  · exact Or.inr ⟨l, hstep⟩
  · exact Or.inr ⟨_, hstep⟩

theorem Phase.notCalling {stream : Option SocketStreamData} {call : Option ConnectCall}
    {client : Option ClientStream} {up down : List WispPacket}
    (h : Phase id stream call client up down) (hd : stream = some d) : NotCalling id call := by
  cases h with
  | unused hs => cases hs.symm.trans hd
  | requested hs => cases hs.symm.trans hd
  | calling hs => cases hs.symm.trans hd
  | live _ hcall => exact hcall
  | closing hs => cases hs.symm.trans hd

/-- A step of the server without a message of the client. -/
theorem Metering.server (hs : s.step env l = some t) (hw : WellBound s)
    (hnot : l.notFrom m = true) (hcall : NotCalling id (s.callOf m))
    (hle : ∀ d, t.stream m id = some d → d.streamType = 0x01 → d.buffer ≤ bufferCount)
    (h : Metering m id k s) : Metering m id k t ∨ Retired m id k t := by
  obtain ⟨d, hd, htcp, hk, hmeter⟩ := h.live
  obtain ⟨es, hlog⟩ := step_log_prefix hs hw
  have hcount : t.log.countP (Event.accepts k) = s.log.countP (Event.accepts k) := by
    cases step_acceptMove (k := k) hs with
    | quiet hcount => exact hcount
    | accept hl _ _ _ hk' =>
      -- another client's stream is bound to another socket
      subst hl
      exact absurd (hw.boundSock_unique hk hk').1 (of_decide_eq_true hnot)
  obtain ⟨hnone, hfirst⟩ := accepts_eq_zero hlog hcount
  rcases (step_clientMove hs hw hnot).buffer_le hcall hd with
    hgone | ⟨d', frames, hd', htype, hsent, hsum⟩
  · right
    have hunbound : t.binding m id = none := by rw [State.binding, hgone]; rfl
    refine ⟨?_, (step_tableMove hs hw).not_inUse hk hunbound, ?_⟩
    · exact Nat.lt_of_lt_of_le (InUse.lt (Or.inl ⟨m, id, hk⟩)) (step_tableMove hs hw).socks_le
    · rw [← hlog]
      refine hmeter.append hfirst (Nat.zero_le _) ?_
      rw [hnone]
      exact Nat.zero_le _
  · left
    refine Metering.keep hs hw hcall htcp hk hmeter hd' htype ?_ hsent hlog hfirst ?_
    · exact hle d' hd' (htype.trans htcp)
    · rw [hnone, Nat.zero_add]
      exact hsum

/-- The server takes a message of the client. -/
theorem Metering.receive {p : WispPacket}
    (hs : s.step env (.loop (.message m p.serialize)) = some t) (hw : WellBound s)
    (hcall : NotCalling id (s.callOf m))
    (hpos : p.is packetData id = true → ∀ d, s.stream m id = some d → d.streamType = 0x01 →
      0 < d.buffer.toNat)
    (hle : ∀ d, t.stream m id = some d → d.streamType = 0x01 → d.buffer ≤ bufferCount)
    (h : Metering m id k s) : Metering m id k t := by
  obtain ⟨d, hd, htcp, hk, hmeter⟩ := h.live
  have hloop : s.loopStep env (.message m p.serialize) = some t := hs
  obtain ⟨q, hq, -, -, hmove⟩ := (loopStep_cases hloop).receiveMove
  obtain ⟨hty, hid, -⟩ := WispPacket.parse_serialize hq
  obtain ⟨d', frames, hd', htype, hsent, hsum⟩ := hmove.buffer_le hd htcp fun hqty hqid =>
    hpos (WispPacket.is_iff.mpr ⟨hty ▸ hqty, hid ▸ hqid⟩) d hd htcp
  have hd'le := hle d' hd' (htype.trans htcp)
  have hkeep : ∀ es, s.log ++ es = t.log → es.tail.countP (Event.accepts k) = 0 →
      es.countP (Event.accepts k) ≤ (if q.packetType = packetData ∧ q.streamId = id then 1 else 0) →
      Metering m id k t := by
    intro es hlog hfirst hcount
    exact .keep hs hw hcall htcp hk hmeter hd' htype hd'le hsent hlog hfirst
      (Nat.le_trans (Nat.add_le_add_right hcount _) hsum)
  cases step_acceptMove (k := k) hs with
  | quiet hcount =>
    obtain ⟨es, hlog⟩ := step_log_prefix hs hw
    obtain ⟨hnone, hfirst⟩ := accepts_eq_zero hlog hcount
    refine hkeep es hlog hfirst ?_
    rw [hnone]
    exact Nat.zero_le _
  | @accept _ _ packet task es hl _ hp hpty hk' hlog hsock hes =>
    cases hl
    obtain rfl : q = packet := by
      rw [hq] at hp
      exact Except.ok.inj hp
    -- the DATA is for this stream
    have hqid : q.streamId = id := (hw.boundSock_unique hk hk').2
    refine hkeep _ hlog.symm hes ?_
    rw [if_pos ⟨hpty, hqid⟩, List.countP_cons, hes, Nat.zero_add]
    split <;> simp

end Step

/-- **A step of a session keeps the meter**, or the stream is gone. -/
theorem Metering.step {a : SessionLabel} (hs : (session env m).step σ a = some τ)
    (hσ : Conforming m σ) (h : Metering m id k σ.server) :
    Metering m id k τ.server ∨ Retired m id k τ.server := by
  obtain ⟨d, hd, -⟩ := h.live
  have hcall : NotCalling id (σ.server.callOf m) := (hσ.phase id).notCalling hd
  have hle : ∀ d, τ.server.stream m id = some d → d.streamType = 0x01 →
      d.buffer ≤ bufferCount := by
    intro d hd htcp
    obtain ⟨_, _, _, _, hle, _⟩ := (hσ.step hs).creditConserved id d hd htcp
    exact hle
  rcases Session.step_server hs with hsame | ⟨l, hnot, hstep⟩ | ⟨p, rest, hup, hstep⟩
  · rw [hsame]
    exact Or.inl h
  · exact h.server hstep hσ.bound hnot hcall hle
  · refine Or.inl (h.receive hstep hσ.bound hcall (fun hp d hd htcp => ?_) hle)
    obtain ⟨_, _, _, _, _, hpos⟩ := hσ.creditConserved id d hd htcp
    refine UInt32.lt_iff_toNat_lt.mp (hpos ?_)
    rw [Session.dataInFlight, hup, List.countP_cons_of_pos hp]
    exact Nat.succ_pos _

/-! ## How the meter is set -/

/-- Nothing is accepted while the loop thread is at something else. -/
theorem AcceptMove.busy (h : AcceptMove k s l t) (hl : s.loop ≠ .idle) :
    t.log.countP (Event.accepts k) = s.log.countP (Event.accepts k) := by
  cases h with
  | quiet hcount => exact hcount
  | accept _ hi => exact absurd hi hl

/-- What holds of socket `k` and stream `id` of `m` in every state. -/
structure MeterOk (m : Nat) (id : UInt32) (k : Nat) (s : State) : Prop where
  /-- nothing was accepted for a socket that is not made -/
  unmade : s.kernel.socks.length ≤ k → s.log.countP (Event.accepts k) = 0
  /-- nor for one that is about to be stored -/
  calling : ∀ fd, s.loop.fd? = some fd → s.kernel.sockAt fd = some k →
    s.log.countP (Event.accepts k) = 0
  /-- a TCP stream that is bound to it is metered -/
  live : ∀ d, s.stream m id = some d → d.streamType = 0x01 → s.boundSock m id = some k →
    MeteredAt m id k d.buffer.toNat s.log

/-- A stream that was not there is the one that a CONNECT stores. -/
theorem TableMove.stored (hs : TableMove s t l) (hnone : s.binding m id = none)
    (hk : t.boundSock m id = some k) :
    ∃ fd, s.loop.fd? = some fd ∧ s.kernel.sockAt fd = some k := by
  obtain ⟨fd, hb, hsock⟩ := State.boundSock_eq_some.mp hk
  have hstays : t.binding m id = s.binding m id → False := by
    intro hbind
    rw [hbind, hnone] at hb
    cases hb
  cases hs with
  | same _ _ hbind => exact (hstays (congrFun (congrFun hbind m) id)).elim
  | socket _ _ _ _ hbind => exact (hstays (congrFun (congrFun hbind m) id)).elim
  | abandon _ _ _ hbind => exact (hstays (congrFun (congrFun hbind m) id)).elim
  | insert hl hsock' _ hbind =>
    rw [hbind] at hb
    split at hb
    · obtain rfl := Option.some.inj hb
      exact ⟨_, by rw [hl]; rfl, hsock' ▸ hsock⟩
    · rw [hnone] at hb
      cases hb
  | close _ _ _ _ _ _ hbind =>
    rw [hbind] at hb
    split at hb
    · cases hb
    · rw [hnone] at hb
      cases hb

/-- A stream that stays keeps its type. -/
theorem streamType_stays {a : SessionLabel} {d d' : SocketStreamData}
    (hs : (session env m).step σ a = some τ) (hσ : Conforming m σ)
    (hd : σ.server.stream m id = some d) (hd' : τ.server.stream m id = some d') :
    d'.streamType = d.streamType := by
  rcases Session.step_server hs with hsame | ⟨l, hnot, hstep⟩ | ⟨p, rest, hup, hstep⟩
  · rw [hsame, hd] at hd'
    rw [Option.some.inj hd']
  · have hcall := (hσ.phase id).notCalling hd
    rcases (step_clientMove hstep hσ.bound hnot).buffer_le hcall hd with
      hgone | ⟨d'', _, hd'', htype, -, -⟩
    · rw [hgone] at hd'
      cases hd'
    · rw [hd''] at hd'
      exact Option.some.inj hd' ▸ htype
  · have hloop : σ.server.loopStep env (.message m p.serialize) = some τ.server := hstep
    obtain ⟨q, -, -, -, hmove⟩ := (loopStep_cases hloop).receiveMove
    have hsame : τ.server.stream m = σ.server.stream m → d'.streamType = d.streamType := by
      intro hstream
      rw [hstream, hd] at hd'
      rw [Option.some.inj hd']
    cases hmove with
    | other _ _ hstream => exact hsame hstream
    | connect _ _ _ _ hstream => exact hsame hstream
    | refuse _ _ hstream => exact hsame hstream
    | @data d₀ _ _ hd₀ _ _ hstream =>
      rw [hstream] at hd'
      split at hd'
      · rename_i he
        rw [← he.1, hd] at hd₀
        rw [← Option.some.inj hd', ← Option.some.inj hd₀]
      · rw [hd] at hd'
        rw [Option.some.inj hd']

/-- A loop thread that is about to store a socket takes no message. -/
theorem LoopState.ne_idle_of_fd? {loop : LoopState} {fd : Fd} (h : loop.fd? = some fd) :
    loop ≠ .idle := by
  rintro rfl
  cases h

theorem MeterOk.unmade_step (hs : s.step env l = some t) (h : MeterOk m id k s)
    (hle : s.kernel.socks.length ≤ k) : t.log.countP (Event.accepts k) = 0 := by
  rw [(step_acceptMove hs).inUse fun huse => absurd huse.lt (Nat.not_lt.mpr hle)]
  exact h.unmade hle

theorem MeterOk.calling_step {fd : Fd} (hs : s.step env l = some t) (hw : WellBound s)
    (h : MeterOk m id k s) (hfd : t.loop.fd? = some fd) (hsock : t.kernel.sockAt fd = some k) :
    t.log.countP (Event.accepts k) = 0 := by
  cases step_tableMove hs hw with
  | same hsock' _ _ hl =>
    rw [hl] at hfd
    rw [(step_acceptMove hs).busy (LoopState.ne_idle_of_fd? hfd)]
    exact h.calling fd hfd (hsock' ▸ hsock)
  | socket _ _ hsock' _ _ hl =>
    -- the socket is made by this step
    obtain rfl := Option.some.inj (hl.symm.trans hfd)
    rw [hsock', Function.update_self] at hsock
    exact h.unmade_step hs (Nat.le_of_eq (Option.some.inj hsock))
  | abandon _ _ _ _ hl | insert _ _ _ _ hl | close _ _ _ _ _ _ _ hl =>
    rw [hl] at hfd
    cases hfd

theorem MeterOk.live_step {a : SessionLabel} {d' : SocketStreamData}
    (hs : (session env m).step σ a = some τ) (hstep : σ.server.step env l = some τ.server)
    (hσ : Conforming m σ) (h : MeterOk m id k σ.server) (hd' : τ.server.stream m id = some d')
    (htcp : d'.streamType = 0x01) (hk : τ.server.boundSock m id = some k) :
    MeteredAt m id k d'.buffer.toNat τ.server.log := by
  cases hd : σ.server.stream m id with
  | none =>
    have hnone : σ.server.binding m id = none := by
      rw [State.binding, hd]
      rfl
    obtain ⟨fd, hfd, hsock⟩ := (step_tableMove hstep hσ.bound).stored hnone hk
    have huntouched : τ.server.log.countP (Event.accepts k) = 0 := by
      rw [(step_acceptMove hstep).busy (LoopState.ne_idle_of_fd? hfd)]
      exact h.calling fd hfd hsock
    obtain ⟨_, _, _, _, hle, _⟩ := (hσ.step hs).creditConserved id d' hd' htcp
    exact (Metered.of_untouched huntouched).mono (UInt32.le_iff_toNat_le.mp hle)
  | some d =>
    have htcp₀ : d.streamType = 0x01 := (streamType_stays hs hσ hd hd').symm.trans htcp
    have hb : σ.server.binding m id ≠ none := by
      rw [State.binding, hd]
      exact Option.some_ne_none _
    obtain ⟨fd, hb⟩ := Option.ne_none_iff_exists'.mp hb
    obtain ⟨n, hn, -⟩ := hσ.bound.table.owner hb
    have hstays := boundSock_stays hstep hσ.bound ((hσ.phase id).notCalling hd) hn
      (by rw [hd']; exact Option.some_ne_none _)
    obtain rfl : n = k := Option.some.inj (hstays.symm.trans hk)
    rcases Metering.step hs hσ ⟨d, hd, htcp₀, hn, h.live d hd htcp₀ hn⟩ with hmeter | hgone
    · obtain ⟨d'', hd'', -, -, hmeter⟩ := hmeter.live
      obtain rfl : d'' = d' := Option.some.inj (hd''.symm.trans hd')
      exact hmeter
    · exact absurd (Or.inl ⟨m, id, hk⟩) hgone.unused

theorem MeterOk.step {a : SessionLabel} (hs : (session env m).step σ a = some τ)
    (hσ : Conforming m σ) (h : MeterOk m id k σ.server) : MeterOk m id k τ.server := by
  rcases Session.exists_step_server hs with hsame | ⟨l, hstep⟩
  · rw [hsame]
    exact h
  · refine ⟨fun hle => h.unmade_step hstep ?_,
      fun _ hfd hsock => h.calling_step hstep hσ.bound hfd hsock,
      fun _ hd htcp hk => h.live_step hs hstep hσ hd htcp hk⟩
    exact Nat.le_trans (step_tableMove hstep hσ.bound).socks_le hle

theorem MeterOk.initial (env : Env) : MeterOk m id k (State.initial env) where
  unmade _ := rfl
  calling _ _ _ := rfl
  live _ hd := by cases hd

/-! ## The bound -/

/-- What is unfinished was accepted, in this order. -/
def Accounted (k : Nat) (s : State) : Prop :=
  (s.unfinishedTasks k).Sublist (acceptedTasks k s.log)

theorem Accounted.step (hs : s.step env l = some t) (h : Accounted k s) : Accounted k t := by
  rw [Accounted, State.unfinishedTasks] at h ⊢
  cases step_poolMove hs with
  | same hpool hlog =>
    rw [hpool, ← acceptedTasks_uploadLog, hlog, acceptedTasks_uploadLog]
    exact h
  | @submit _ m packet _ _ hpool hlog =>
    have hunfinished : t.pool.unfinished = s.pool.unfinished ++ [s.taskFor m packet] := by
      rw [hpool]
      exact (List.append_assoc ..).symm
    have hnew : [s.taskFor m packet].filter (·.sock = some k) =
        acceptedTasks k [.accepted (s.taskFor m packet)] := by
      by_cases hk : (s.taskFor m packet).sock = some k
      · simp [acceptedTasks, Event.acceptedTask, hk]
      · simp [acceptedTasks, Event.acceptedTask, hk]
    rw [hunfinished, List.filter_append, hnew, ← acceptedTasks_uploadLog, hlog,
      acceptedTasks_append, acceptedTasks_uploadLog]
    exact h.append (List.Sublist.refl _)
  | worker hmove =>
    rw [hmove.acceptedTasks_eq]
    exact (hmove.unfinished_sublist.filter _).trans h

theorem BacklogBounded.of_metered {b : Nat} (h : MeteredAt m id k b s.log) (ha : Accounted k s) :
    BacklogBounded m id k s where
  accounted := ha
  bounded before after hlog hsince := by
    have hmeter := h before after hlog
    have hle : s.backlog k ≤ after.countP (Event.accepts k) := by
      rw [← length_acceptedTasks]
      exact hsince.length_le
    omega

/-- A session, as far as socket `k` and stream `id` of `m` go. -/
structure SessionOk (m : Nat) (id : UInt32) (k : Nat) (σ : Session) : Prop where
  /-- the client conforms -/
  conforming : Conforming m σ
  /-- what is unfinished was accepted -/
  accounted : Accounted k σ.server
  /-- the log is a meter -/
  metered : MeterOk m id k σ.server

theorem SessionOk.step {a : SessionLabel} (hs : (session env m).step σ a = some τ)
    (h : SessionOk m id k σ) : SessionOk m id k τ where
  conforming := h.conforming.step hs
  accounted := by
    rcases Session.exists_step_server hs with hsame | ⟨l, hstep⟩
    · exact hsame ▸ h.accounted
    · exact h.accounted.step hstep
  metered := h.metered.step hs h.conforming

/-- **Credit bounds the backlog between renewals.** From the moment a TCP stream of a
conforming client is there, and also after it is gone, its unfinished DATA are at most a
window, and a window more for each CONTINUE since the oldest of them was accepted. -/
theorem backlog_bounded {d : SocketStreamData} {as : List SessionLabel}
    (h : (session env m).Reachable σ) (hd : σ.server.stream m id = some d)
    (htcp : d.streamType = 0x01) (hk : σ.server.boundSock m id = some k)
    (hrun : (session env m).Run (fun _ _ => True) σ as τ) : BacklogBounded m id k τ.server := by
  have hok : SessionOk m id k σ :=
    h.invariant (I := SessionOk m id k)
      ⟨.initial_session env m, List.nil_sublist _, .initial env⟩
      fun _ _ _ _ hs hI => hI.step hs
  have hstart : Metering m id k σ.server := ⟨d, hd, htcp, hk, hok.metered.live d hd htcp hk⟩
  have hrest : SessionOk m id k τ ∧ (Metering m id k τ.server ∨ Retired m id k τ.server) := by
    refine hrun.preserves (I := fun σ => SessionOk m id k σ ∧
      (Metering m id k σ.server ∨ Retired m id k σ.server)) (fun σ a τ _ hs hI => ?_)
      ⟨hok, Or.inl hstart⟩
    refine ⟨hI.1.step hs, ?_⟩
    rcases hI.2 with hmeter | hgone
    · exact hmeter.step hs hI.1.conforming
    · right
      rcases Session.exists_step_server hs with hsame | ⟨l, hstep⟩
      · rw [hsame]
        exact hgone
      · exact hgone.step hstep hI.1.conforming.bound
  obtain ⟨hτ, hmeter | hgone⟩ := hrest
  · obtain ⟨_, -, -, -, hmeter⟩ := hmeter.live
    exact .of_metered hmeter hτ.accounted
  · exact .of_metered hgone.metered hτ.accounted

/-- One more DATA, after a whole window that the closure of a pass has renewed. No worker
takes a step. -/
def oneMore : List SessionLabel := windowSession ++ [.data 1 [0], .deliver]

/-- It is a run, and where it ends. -/
theorem oneMore_final :
    ((session {} 0).replay (fun _ _ => True) (session {} 0).init oneMore).isSome = true ∧
      ((session {} 0).final (fun _ _ => True) oneMore).server.stream 0 1 =
        some ⟨0x01, 1, 7, 126⟩ ∧
      ((session {} 0).final (fun _ _ => True) oneMore).server.boundSock 0 1 = some 0 ∧
      ((session {} 0).final (fun _ _ => True) oneMore).server.backlog 0 = 128 := by
  decide +kernel

theorem backlog_bounded_oneMore :
    BacklogBounded 0 1 0 ((session {} 0).final (fun _ _ => True) oneMore).server := by
  obtain ⟨hrun, hd, hk, -⟩ := oneMore_final
  exact backlog_bounded (System.reaches_final _ _ _ hrun) hd rfl hk (.nil _)

/-- **The backlog outgrows the window**: 128 payloads are unfinished. -/
theorem overfull_counterexample :
    ¬ ∀ (env : Env) (m : Nat) (σ : Session) (id : UInt32) (d : SocketStreamData) (k : Nat),
      (session env m).Reachable σ → σ.server.stream m id = some d → d.streamType = 0x01 →
      σ.server.boundSock m id = some k → σ.server.backlog k ≤ window := by
  intro h
  obtain ⟨hrun, hd, hk, hbacklog⟩ := oneMore_final
  have hle := h {} 0 _ 1 _ 0 (System.reaches_final _ _ _ hrun) hd rfl hk
  rw [hbacklog] at hle
  exact absurd hle (by decide)

end Woeful
