import Woeful.Credit

/-!
# What a client sees

A client sees the server through the frames it is sent. `ClientMove` says, for one
websocket, what a step of the server does to its streams and which frames it sends:
the frames that matter for credit are CONTINUE and CLOSE, and each comes with a
change of exactly one stream (`renew` changes several and sends one for each).
`ReceiveMove` does the same for the step in which the server takes a message of
this websocket.
-/

namespace Woeful

open Memory Transition

variable {env : Env} {s t : State} {m m' : Nat} {id : UInt32}

/-! ## Frames -/

/-- The frame an event sends to the websocket of `m`. -/
def Event.frameTo (m : Nat) : Event → Option WispPacket
  | .sent m' packet _ _ => if m' = m then some packet else none
  | _ => none

/-- The CONTINUE for a full window. -/
def grantFrame (streamId : UInt32) : WispPacket :=
  ⟨packetContinue, streamId, ContinuePacket.serialize bufferCount⟩

/-- A CLOSE. -/
def closeFrame (reason : UInt8) (streamId : UInt32) : WispPacket :=
  ⟨packetClose, streamId, ClosePacket.serialize reason⟩

namespace State

/-- The frames sent to the websocket of `m`, in order. -/
def sentTo (s : State) (m : Nat) : List WispPacket := s.log.filterMap (Event.frameTo m)

theorem sentTo_of_log (h : t.log = s.log) : t.sentTo m = s.sentTo m := by
  rw [sentTo, sentTo, h]

theorem sentTo_record {e : Event} : (s.record e).sentTo m = s.sentTo m ++ (e.frameTo m).toList := by
  rw [sentTo, record, List.filterMap_append]
  cases h : e.frameTo m <;> simp [sentTo, h]

theorem sentTo_record_none {e : Event} (h : e.frameTo m = none) :
    (s.record e).sentTo m = s.sentTo m := by
  rw [sentTo_record, h]
  exact List.append_nil _

theorem sentTo_send_self {packet : WispPacket} {origin : Origin} :
    (s.send env m packet origin).sentTo m = s.sentTo m ++ [packet] := by
  rw [send, sentTo_record]
  simp [Event.frameTo]

theorem sentTo_send_ne {packet : WispPacket} {origin : Origin} (h : m' ≠ m) :
    (s.send env m' packet origin).sentTo m = s.sentTo m :=
  sentTo_record_none (by simp [Event.frameTo, h])

theorem sentTo_foldl_sendContinue_self {A : Type} (f : A → UInt32) (l : List A) :
    ∀ s : State, (l.foldl (fun s a => s.sendContinue env m bufferCount (f a)) s).sentTo m =
      s.sentTo m ++ l.map fun a => grantFrame (f a) := by
  induction l with
  | nil => simp
  | cons a l ih =>
    intro s
    rw [List.foldl_cons, ih, sendContinue, sentTo_send_self]
    simp [grantFrame]

theorem sentTo_foldl_sendContinue_ne {A : Type} (f : A → UInt32) (l : List A) (h : m' ≠ m) :
    ∀ s : State, (l.foldl (fun s a => s.sendContinue env m' bufferCount (f a)) s).sentTo m =
      s.sentTo m := by
  induction l with
  | nil => exact fun _ => rfl
  | cons a l ih =>
    intro s
    rw [List.foldl_cons, ih, sendContinue, sentTo_send_ne h]

theorem sentTo_closeFd (fd : Fd) : (s.closeFd fd).sentTo m = s.sentTo m :=
  sentTo_record_none (s := { s with kernel := s.kernel.close fd }) rfl

theorem sentTo_refuse_self (c : ConnectCall) :
    (s.refuse env c).sentTo c.manager = s.sentTo c.manager ++ [closeFrame 0x41 c.streamId] :=
  sentTo_send_self (s := { s with loop := .idle })

theorem sentTo_refuse_ne {c : ConnectCall} (h : c.manager ≠ m) :
    (s.refuse env c).sentTo m = s.sentTo m :=
  sentTo_send_ne (s := { s with loop := .idle }) h

/-- What `close_stream` logs. -/
theorem log_closeStream {removePoll : Bool} {origin : Origin} :
    ∃ fd sock, (s.closeStream env m id removePoll origin).log = s.log ++
      [.sent m (closeFrame 0x02 id) (s.sendStatus env) origin, .closed fd sock] := by
  cases removePoll <;>
    exact ⟨_, _, List.append_assoc s.log [_] [_]⟩

theorem sentTo_closeStream_self {removePoll : Bool} {origin : Origin} :
    (s.closeStream env m id removePoll origin).sentTo m =
      s.sentTo m ++ [closeFrame 0x02 id] := by
  cases removePoll <;>
    exact (sentTo_record_none rfl).trans (sentTo_send_self (s := s))

theorem sentTo_closeStream_ne {removePoll : Bool} {origin : Origin} (h : m' ≠ m) :
    (s.closeStream env m' id removePoll origin).sentTo m = s.sentTo m := by
  cases removePoll <;>
    exact (sentTo_record_none rfl).trans (sentTo_send_ne (s := s) h)

theorem sentTo_updateStreams_ne (h : m' ≠ m) : (s.updateStreams env m').sentTo m = s.sentTo m := by
  rw [updateStreams]
  split
  · rfl
  · split
    · rfl
    · exact sentTo_foldl_sendContinue_ne _ _ h s

theorem sentTo_handleData_ne {packet : WispPacket} (h : m' ≠ m) :
    (s.handleData env m' packet).2.sentTo m = s.sentTo m := by
  have hsubmit : ∀ task, (s.submitTask task).sentTo m = s.sentTo m :=
    fun _ => sentTo_record_none rfl
  rw [handleData]
  split
  · rfl
  · dsimp only
    split
    · split
      · exact (sentTo_send_ne (s := (s.submitTask _).setBuffer _ _ _) h).trans (hsubmit _)
      · exact hsubmit _
    · exact hsubmit _

theorem sentTo_runFound {p : Pass} {rest : List Pass} :
    (s.runFound env p rest m id).sentTo m' =
      s.sentTo m' ++ if m = m' then [⟨packetData, id, p.combinedBuffer⟩] else [] := by
  rw [sentTo, log_runFound, List.filterMap_append]
  by_cases h : m = m' <;> simp [Event.frameTo, sentTo, h]

/-! ### What `update_streams` sends -/

/-- The grant frames of `update_streams`: one for every exhausted stream. -/
theorem sentTo_updateStreams (h : s.renews m) :
    ∃ frames, (s.updateStreams env m).sentTo m = s.sentTo m ++ frames ∧
      (∀ p ∈ frames, ∃ id, p = grantFrame id ∧ ∃ d, s.stream m id = some d ∧ d.buffer = 0) ∧
      ∀ id d, s.stream m id = some d → d.buffer = 0 → frames.count (grantFrame id) = 1 := by
  have hinj : Function.Injective grantFrame := by
    intro id id' he
    exact congrArg WispPacket.streamId he
  rw [updateStreams, if_neg (guard_of_renews h)]
  split
  · rename_i hm
    refine ⟨[], (List.append_nil _).symm, (fun _ hp => absurd hp List.not_mem_nil),
      fun id d hd => ?_⟩
    rw [stream, hm] at hd
    cases hd
  · rename_i manager hm
    have hstream : ∀ id, s.stream m id = manager.streams.lookup id := by
      intro id
      rw [stream, hm]
      rfl
    let exhausted := manager.streams.entries.filter (·.2.buffer = 0)
    have hsent : (exhausted.foldl (fun s e => s.sendContinue env m bufferCount e.1) s).sentTo m =
        s.sentTo m ++ exhausted.map fun e => grantFrame e.1 :=
      sentTo_foldl_sendContinue_self Sigma.fst exhausted s
    refine ⟨_, hsent, ?_, ?_⟩
    · intro p hp
      obtain ⟨e, he, rfl⟩ := List.mem_map.mp hp
      obtain ⟨hmem, hzero⟩ := List.mem_filter.mp he
      refine ⟨e.1, rfl, e.2, ?_, of_decide_eq_true hzero⟩
      rw [hstream]
      exact AList.mem_lookup_iff.mpr hmem
    · intro id d hd hzero
      rw [hstream] at hd
      -- the ids are distinct, and so are their frames
      have hkeys : (exhausted.map Sigma.fst).Nodup :=
        (List.filter_sublist.map Sigma.fst).nodup manager.streams.keys_nodup
      have hmap : exhausted.map (fun e => grantFrame e.1) =
          (exhausted.map Sigma.fst).map grantFrame := by
        rw [List.map_map]
        rfl
      have hmem : (⟨id, d⟩ : (_ : UInt32) × SocketStreamData) ∈ exhausted :=
        List.mem_filter.mpr ⟨AList.mem_lookup_iff.mp hd, by simpa using hzero⟩
      rw [hmap]
      refine List.count_eq_one_of_mem (hkeys.map hinj) ?_
      exact List.mem_map_of_mem (List.mem_map_of_mem (f := Sigma.fst) hmem)

/-! ### What a DATA sends -/

/-- The DATA that uses the last credit is answered at once when it finds backpressure. -/
theorem sentTo_handleData {packet : WispPacket} {d : SocketStreamData}
    (hd : s.stream m packet.streamId = some d) :
    (s.handleData env m packet).2.sentTo m = s.sentTo m ++
      if d.streamType ≠ 0x02 ∧ d.buffer - 1 = 0 ∧ s.hasBackpressure m = true ∧
          s.watcher.sendQueueLen < maxQueue
      then [grantFrame packet.streamId] else [] := by
  have hsubmit : ∀ task, (s.submitTask task).sentTo m = s.sentTo m :=
    fun _ => sentTo_record_none rfl
  rw [handleData, hd]
  dsimp only
  by_cases htype : d.streamType = 0x02
  · rw [if_neg (fun h => h htype), if_neg (fun h => h.1 htype), List.append_nil]
    exact hsubmit _
  · rw [if_pos htype]
    split
    · rename_i hrenew
      rw [if_pos ⟨htype, hrenew⟩]
      refine (sentTo_send_self (s := (s.submitTask _).setBuffer _ _ _)).trans ?_
      rw [← hsubmit]
      rfl
    · rename_i hrenew
      rw [if_neg (fun h => hrenew h.2), List.append_nil]
      exact hsubmit _

end State

/-! ## What a step means for a client -/

/-- The CONNECT in progress. -/
def LoopState.call? : LoopState → Option ConnectCall
  | .socket c => some c
  | .connect c _ => some c
  | .pushFd c _ => some c
  | .insert c _ => some c
  | _ => none

/-- The CONNECT of manager `m` that is in progress. -/
def State.callOf (s : State) (m : Nat) : Option ConnectCall :=
  s.loop.call?.filter fun c => c.manager = m

/-- What a step of the server means for the client of `m`, unless it takes one of
the client's messages. -/
inductive ClientMove (m : Nat) (s t : State) : Prop where
  /-- nothing: at most DATA is sent -/
  | quiet {frames : List WispPacket} : t.stream m = s.stream m → t.callOf m = s.callOf m →
      t.sentTo m = s.sentTo m ++ frames → (∀ p ∈ frames, p.packetType = packetData) →
      (frames ≠ [] → m ∈ s.managers) → ClientMove m s t
  /-- its websocket opens -/
  | opened : s.id = m → t.id = m + 1 → t.stream m = s.stream m → t.callOf m = s.callOf m →
      t.sentTo m = s.sentTo m ++ [grantFrame 0] → ClientMove m s t
  /-- its CONNECT fails -/
  | refuse {c : ConnectCall} {reason : UInt8} : m ∈ s.managers → s.callOf m = some c →
      t.callOf m = none → t.stream m = s.stream m →
      t.sentTo m = s.sentTo m ++ [closeFrame reason c.streamId] → ClientMove m s t
  /-- its CONNECT succeeds -/
  | insert {c : ConnectCall} {fd : Fd} : m ∈ s.managers → s.callOf m = some c →
      t.callOf m = none →
      (∀ id, t.stream m id =
        if id = c.streamId then some ⟨c.streamType, c.streamId, fd, bufferCount⟩
        else s.stream m id) → t.sentTo m = s.sentTo m → ClientMove m s t
  /-- one of its streams is closed -/
  | close {id : UInt32} {reason : UInt8} : s.stream m id ≠ none → t.callOf m = s.callOf m →
      (∀ id', t.stream m id' = if id' = id then none else s.stream m id') →
      t.sentTo m = s.sentTo m ++ [closeFrame reason id] → ClientMove m s t
  /-- its exhausted streams are renewed -/
  | renew {frames : List WispPacket} : m ∈ s.managers → t.callOf m = s.callOf m →
      (∀ id, t.stream m id = (s.stream m id).map SocketStreamData.renew) →
      t.sentTo m = s.sentTo m ++ frames →
      (∀ p ∈ frames, ∃ id, p = grantFrame id ∧ ∃ d, s.stream m id = some d ∧ d.buffer = 0) →
      (∀ id d, s.stream m id = some d → d.buffer = 0 → frames.count (grantFrame id) = 1) →
      ClientMove m s t

/-- What it means that the server takes a message `packet` of the client of `m`. -/
inductive ReceiveMove (m : Nat) (packet : WispPacket) (s t : State) : Prop where
  /-- it does nothing -/
  | other : (packet.packetType = packetData → s.stream m packet.streamId = none) →
      packet.packetType ≠ packetConnect →
      t.stream m = s.stream m → t.callOf m = none → t.sentTo m = s.sentTo m →
      ReceiveMove m packet s t
  /-- a CONNECT passes the filter -/
  | connect {c : ConnectCall} : packet.packetType = packetConnect → t.callOf m = some c →
      c.streamId = packet.streamId → packet.data[0]? = some c.streamType →
      t.stream m = s.stream m → t.sentTo m = s.sentTo m → ReceiveMove m packet s t
  /-- a CONNECT does not -/
  | refuse {reason : UInt8} : packet.packetType = packetConnect → t.callOf m = none →
      t.stream m = s.stream m →
      t.sentTo m = s.sentTo m ++ [closeFrame reason packet.streamId] → ReceiveMove m packet s t
  /-- a DATA of a stream that counts: the credit is used, or used up and renewed -/
  | data {d : SocketStreamData} {renewed : Bool} : packet.packetType = packetData →
      s.stream m packet.streamId = some d → (renewed = true → d.buffer - 1 = 0) →
      t.callOf m = none →
      (∀ id, t.stream m id =
        if id = packet.streamId ∧ d.streamType ≠ 0x02 then
          some { d with buffer := if renewed then bufferCount else d.buffer - 1 }
        else s.stream m id) →
      t.sentTo m = s.sentTo m ++
        (if d.streamType ≠ 0x02 ∧ renewed then [grantFrame packet.streamId] else []) →
      ReceiveMove m packet s t

/-- A step that neither touches the streams of `m` nor sends it anything. -/
theorem ClientMove.of_same (hstream : t.stream m = s.stream m) (hcall : t.callOf m = s.callOf m)
    (hsent : t.sentTo m = s.sentTo m) : ClientMove m s t :=
  @ClientMove.quiet m s t [] hstream hcall (by rw [hsent, List.append_nil]) (fun _ hp => nomatch hp)
    (fun h => absurd rfl h)

namespace State

theorem callOf_of_call (h : t.loop.call? = s.loop.call?) : t.callOf m = s.callOf m := by
  rw [callOf, callOf, h]

theorem callOf_none {l : LoopState} (h : s.loop = l) (hl : l.call? = none) : s.callOf m = none := by
  rw [callOf, h, hl]
  rfl

theorem callOf_some {l : LoopState} {c : ConnectCall} (h : s.loop = l) (hl : l.call? = some c)
    (hm : c.manager = m) : s.callOf m = some c := by
  rw [callOf, h, hl]
  exact Option.filter_some_pos (by simpa using hm)

theorem callOf_other {l : LoopState} {c : ConnectCall} (h : s.loop = l) (hl : l.call? = some c)
    (hm : c.manager ≠ m) : s.callOf m = none := by
  rw [callOf, h, hl]
  exact Option.filter_some_neg (by simpa using hm)

/-- A stream is closed, and the others are not. -/
theorem stream_closeStream_self {removePoll : Bool} {origin : Origin} {id' : UInt32} :
    (s.closeStream env m id removePoll origin).stream m id' =
      if id' = id then none else s.stream m id' := by
  rw [stream_closeStream]
  simp

theorem stream_closeStream_ne {removePoll : Bool} {origin : Origin} (h : m' ≠ m) :
    (s.closeStream env m' id removePoll origin).stream m = s.stream m := by
  funext id'
  rw [stream_closeStream, if_neg (fun h' => h h'.1.symm)]

theorem stream_updateStreams_ne (h : m' ≠ m) : (s.updateStreams env m').stream m = s.stream m := by
  by_cases hr : s.renews m'
  · funext id'
    rw [stream_updateStreams hr, if_neg (Ne.symm h)]
  · rw [updateStreams_of_not_renews hr]

end State

/-- A stream is closed, for this client or for another one. -/
theorem ClientMove.of_closeStream {removePoll : Bool} {origin : Origin} {l : LoopState}
    (hb : s.binding m' id ≠ none) (hs : s.loop.call? = none) (hl : l.call? = none) :
    ClientMove m s { s.closeStream env m' id removePoll origin with loop := l } := by
  have hcall : State.callOf { s.closeStream env m' id removePoll origin with loop := l } m =
      s.callOf m :=
    (State.callOf_none rfl hl).trans (State.callOf_none rfl hs).symm
  by_cases h : m' = m
  · subst h
    have hstream : s.stream m' id ≠ none := by
      rw [State.binding] at hb
      intro hnone
      rw [hnone] at hb
      exact hb rfl
    exact .close hstream hcall (fun _ => State.stream_closeStream_self)
      State.sentTo_closeStream_self
  · exact .of_same (State.stream_closeStream_ne h) hcall (State.sentTo_closeStream_ne h)

/-- Credit is renewed, for this client or for another one. -/
theorem ClientMove.of_updateStreams {u : State} (halive : m' ∈ s.managers)
    (hstream : u.stream = s.stream) (hsent : u.sentTo m = s.sentTo m)
    (ht : t.stream = (u.updateStreams env m').stream) (ht' : t.log = (u.updateStreams env m').log)
    (hcall : t.callOf m = s.callOf m) : ClientMove m s t := by
  have hlog : t.sentTo m = (u.updateStreams env m').sentTo m := State.sentTo_of_log ht'
  by_cases h : m' = m
  · subst h
    by_cases hr : u.renews m'
    · obtain ⟨frames, hframes, hgrant, hcount⟩ := @State.sentTo_updateStreams env u m' hr
      rw [hstream] at hgrant hcount
      refine .renew halive hcall (fun id => ?_) (by rw [hlog, hframes, hsent]) hgrant hcount
      rw [ht, State.stream_updateStreams hr, if_pos rfl, hstream]
    · rw [State.updateStreams_of_not_renews hr] at ht hlog
      exact .of_same (by rw [ht, hstream]) hcall (hlog.trans hsent)
  · refine .of_same ?_ hcall ?_
    · rw [ht, State.stream_updateStreams_ne h, hstream]
    · rw [hlog, State.sentTo_updateStreams_ne h, hsent]

/-- A CONNECT fails, for this client or for another one. -/
theorem ClientMove.of_refuse {u : State} {c : ConnectCall} {l : LoopState}
    (halive : c.manager ∈ s.managers) (hl : s.loop = l) (hc : l.call? = some c)
    (hstream : u.stream = s.stream) (hsent : u.sentTo m = s.sentTo m) :
    ClientMove m s (u.refuse env c) := by
  by_cases h : c.manager = m
  · have hframe : (u.refuse env c).sentTo m = s.sentTo m ++ [closeFrame 0x41 c.streamId] := by
      subst h
      rw [State.sentTo_refuse_self, hsent]
    refine .refuse (h ▸ halive) (State.callOf_some hl hc h) rfl ?_ hframe
    rw [show (u.refuse env c).stream = u.stream from rfl, hstream]
  · refine .of_same ?_ ?_ ?_
    · rw [show (u.refuse env c).stream = u.stream from rfl, hstream]
    · rw [State.callOf_other hl hc h]
      rfl
    · rw [State.sentTo_refuse_ne h, hsent]

theorem LoopMove.clientMove {l : LoopLabel} (hs : LoopMove env s l t) (hw : WellBound s)
    (hmsg : ∀ view, l ≠ .message m view) : ClientMove m s t := by
  have hcall : ∀ {l l' : LoopState}, s.loop = l → l.call? = none → t.loop = l' → l'.call? = none →
      t.callOf m = s.callOf m :=
    fun hl hc hl' hc' => (State.callOf_none hl' hc').trans (State.callOf_none hl hc).symm
  have hhand : ∀ m', (s.endHandshake m').stream = s.stream := fun _ => State.stream_endHandshake
  have hne : ∀ {m' : Nat} {view : Bytes}, l = .message m' view → m' ≠ m := by
    rintro m' view rfl rfl
    exact hmsg view rfl
  obtain ⟨htab, hloop⟩ := hw
  cases hs with
  | opened hi =>
    have hfresh : s.id ∉ s.managers := fun hm => Nat.lt_irrefl _ (htab.fresh _ hm)
    have hstream : (s.construct env).stream = s.stream := State.stream_construct hfresh
    have hloops : (s.construct env).callOf m = s.callOf m := State.callOf_of_call rfl
    by_cases h : s.id = m
    · refine .opened h (h ▸ rfl) (by rw [hstream]) hloops ?_
      subst h
      exact State.sentTo_send_self (s := { s with id := s.id + 1, managers := _ })
    · refine .of_same (by rw [hstream]) hloops ?_
      exact State.sentTo_send_ne (s := { s with id := s.id + 1, managers := _ }) h
  | info hi hm hp hty => exact .of_same rfl rfl rfl
  | other hi hm hp hc hd => exact .of_same (by rw [hhand]) rfl rfl
  | @connect m' view packet c hi hm hp hty hcm hid =>
    refine .of_same (congrFun (hhand m') m) ?_ rfl
    rw [State.callOf_none hi rfl]
    exact State.callOf_other rfl rfl (hcm ▸ hne rfl)
  | @refuse m' view packet c hi hm hp hty hcm hid =>
    refine .of_same (congrFun (hhand m') m) (hcall hi rfl rfl rfl) ?_
    exact State.sentTo_refuse_ne (s := s.endHandshake m') (hcm ▸ hne rfl)
  | @data m' view packet hi hm hp hty =>
    have hother : ((s.endHandshake m').handleData env m' packet).2.stream m = s.stream m := by
      funext id
      cases hd : (s.endHandshake m').stream m' packet.streamId with
      | none =>
        rw [State.handleData, hd, hhand]
      | some d =>
        rw [State.stream_handleData hd, if_neg (fun h => hne rfl h.1.symm), hhand]
    refine .of_same hother ?_ (State.sentTo_handleData_ne (hne rfl))
    rw [State.handleData_frame]
    rfl
  | @drain m' hi hm =>
    refine .of_updateStreams hm (State.stream_setBackpressure (m := m') (s := s) (b := false))
      rfl rfl rfl ?_
    rw [State.drain_frame]
    rfl
  | close hi hm =>
    exact .of_same (congrFun State.stream_setBackpressure m) (hcall hi rfl rfl rfl) rfl
  | @deferred p rest hi hd =>
    rcases deferred_cases htab p rest rfl with ⟨heq, -⟩ | ⟨m', id, hb, heq⟩
    · rw [heq] at hcall ⊢
      exact .of_same rfl (hcall hi rfl rfl rfl) rfl
    · rw [heq] at hcall ⊢
      have hloops : (s.runFound env p rest m' id).callOf m = s.callOf m := by
        refine hcall hi rfl (by rw [State.runFound_frame]) ?_
        split <;> rfl
      refine .quiet (by simp) hloops State.sentTo_runFound ?_ ?_
      · intro q hq
        split at hq
        · obtain rfl := List.mem_singleton.mp hq
          rfl
        · cases hq
      · intro hframes
        split at hframes
        · rename_i he
          exact he ▸ State.mem_managers_of_binding hb
        · exact absurd rfl hframes
  | socketFail hl =>
    rw [hl] at hloop
    exact .of_refuse hloop hl rfl rfl rfl
  | socket hfd hl =>
    refine .of_same rfl (State.callOf_of_call ?_) rfl
    rw [hl]
    rfl
  | connected hl =>
    refine .of_same rfl (State.callOf_of_call ?_) rfl
    rw [hl]
    rfl
  | connectFail hl =>
    rw [hl] at hloop
    exact .of_refuse hloop.alive hl rfl rfl (State.sentTo_closeFd _)
  | pushFd hl =>
    refine .of_same rfl (State.callOf_of_call ?_) rfl
    rw [hl]
    rfl
  | @insert c fd hl hfree =>
    rw [hl] at hloop
    have hsent : (s.insertStream c fd).sentTo m = s.sentTo m :=
      State.sentTo_record_none (s := s.modifyManager c.manager _) rfl
    by_cases h : c.manager = m
    · have hstream : ∀ id, (s.insertStream c fd).stream m id =
          if id = c.streamId then some ⟨c.streamType, c.streamId, fd, bufferCount⟩
          else s.stream m id := by
        intro id
        rw [State.stream_insertStream hloop.alive]
        simp [h]
      exact .insert (h ▸ hloop.alive) (State.callOf_some hl rfl h) rfl hstream hsent
    · refine .of_same ?_ ?_ hsent
      · funext id
        rw [State.stream_insertStream hloop.alive, if_neg (fun he => h he.1.symm)]
      · rw [State.callOf_other hl rfl h]
        rfl
  | listIds hl hfree => exact .of_same rfl (hcall hl rfl rfl rfl) rfl
  | @closeNext m' id ids hl hfree =>
    rw [hl] at hloop
    have hid : s.binding m' id ≠ none := (hloop.2.2 id).mp (List.mem_cons_self ..)
    exact .of_closeStream hid (hl ▸ rfl) rfl
  | @destruct m' hl =>
    -- every stream of the manager was closed before
    rw [hl] at hloop
    refine .of_same ?_ (hcall hl rfl rfl rfl) rfl
    funext id
    rw [State.stream_destruct]
    split
    · rename_i he
      subst he
      by_contra hne
      refine List.not_mem_nil ((hloop.2.2 id).mpr fun hb => hne ?_)
      rw [State.binding, Option.map_eq_none_iff] at hb
      exact hb.symm
    · rfl
  | @closeFound p m' id hl hfree =>
    rw [hl] at hloop
    exact .of_closeStream (by rw [show s.binding m' id = some p.fd from hloop]; simp) (hl ▸ rfl) rfl
  | decrement hl => exact .of_same rfl (hcall hl rfl rfl rfl) rfl
  | check hl =>
    refine .of_same rfl (hcall hl rfl rfl ?_) rfl
    rw [State.checkQueue]
    dsimp only
    split <;> rfl
  | sweepDone hl => exact .of_same rfl (hcall hl rfl rfl rfl) rfl
  | sweep hl =>
    rw [hl] at hloop
    exact .of_updateStreams (hloop _ (List.mem_cons_self ..)) rfl rfl rfl rfl
      (hcall hl rfl rfl rfl)

/-- The watcher sends nothing. -/
theorem WatchMove.sentTo (hs : WatchMove env s t) : t.sentTo m = s.sentTo m := by
  cases hs with
  | read hp hr => exact State.sentTo_record_none (s := s.setPhase _) rfl
  | _ => rfl

/-- Nor do the workers. -/
theorem WorkerMove.sentTo {l : WorkerLabel} (hs : WorkerMove env s l t) :
    t.sentTo m = s.sentTo m := by
  cases hs with
  | begin hi hd => exact State.sentTo_record_none (s := s.setRunning _) rfl
  | fault hi hd => exact State.sentTo_record_none (s := { s with pool := _ }) rfl
  | write hi hn => exact State.sentTo_record_none (s := s.setRunning _) rfl
  | _ => rfl

/-- The label does not deliver a message of `m`. -/
def Label.notFrom (m : Nat) : Label → Bool
  | .loop (.message m' _) => m' ≠ m
  | _ => true

/-- **What a step of the server means for a client** that sends nothing meanwhile. -/
theorem step_clientMove {l : Label} (hs : s.step env l = some t) (hw : WellBound s)
    (hl : l.notFrom m = true) : ClientMove m s t := by
  cases l with
  | loop l =>
    refine (loopStep_cases hs).clientMove hw fun view he => ?_
    subst he
    exact of_decide_eq_true hl rfl
  | watch l =>
    have hmove := watchStep_cases hs
    exact .of_same (congrFun (State.stream_of_managers hmove.managers) m)
      (State.callOf_of_call (congrArg _ hmove.loop)) hmove.sentTo
  | worker l =>
    have hmove := workerStep_cases hs
    exact .of_same (congrFun (State.stream_of_managers hmove.managers) m)
      (State.callOf_of_call (congrArg _ hmove.loop)) hmove.sentTo
  | rehash m' streams =>
    have hframe := (State.rehash_frame hs).2
    refine .of_same (congrFun (State.stream_rehash hs) m) (State.callOf_of_call (by rw [hframe]))
      (State.sentTo_of_log (by rw [hframe]))
  | rehashSockets ms =>
    obtain ⟨-, -, rfl⟩ := State.rehashSockets_frame hs
    exact .of_same rfl rfl rfl

/-- **What a step of the server means for the client** whose message it takes. -/
theorem LoopMove.receiveMove {view : Bytes} (hs : LoopMove env s (.message m view) t) :
    ∃ packet, WispPacket.parse view (UInt64.ofNat view.length) = .ok packet ∧
      s.loop = .idle ∧ m ∈ s.managers ∧ ReceiveMove m packet s t := by
  have hhand : (s.endHandshake m).stream = s.stream := State.stream_endHandshake
  cases hs with
  | @info _ _ packet hi hm hp hty =>
    refine ⟨packet, hp, hi, hm, .other (fun h => ?_) ?_ rfl (State.callOf_none hi rfl) rfl⟩
    · rw [hty] at h
      cases h
    · rw [hty]
      decide
  | @other _ _ packet hi hm hp hc hd =>
    exact ⟨packet, hp, hi, hm, .other (fun h => absurd h hd) hc (congrFun hhand m)
      (State.callOf_none hi rfl) rfl⟩
  | @connect _ _ packet c hi hm hp hty hcm hid htype =>
    exact ⟨packet, hp, hi, hm, .connect hty (State.callOf_some rfl rfl hcm) hid htype
      (congrFun hhand m) rfl⟩
  | @refuse _ _ packet c hi hm hp hty hcm hid =>
    have hframe : ((s.endHandshake m).refuse env c).sentTo m =
        s.sentTo m ++ [closeFrame 0x41 packet.streamId] := by
      subst hcm
      rw [State.sentTo_refuse_self, hid]
      rfl
    exact ⟨packet, hp, hi, hm, .refuse hty rfl (congrFun hhand m) hframe⟩
  | @data _ _ packet hi hm hp hty =>
    have hcall : ((s.endHandshake m).handleData env m packet).2.callOf m = none := by
      rw [State.handleData_frame]
      exact State.callOf_none hi rfl
    refine ⟨packet, hp, hi, hm, ?_⟩
    cases hd : s.stream m packet.streamId with
    | none =>
      have hnone : (s.endHandshake m).stream m packet.streamId = none := by rw [hhand, hd]
      rw [State.handleData, hnone] at hcall ⊢
      refine .other (fun _ => hd) ?_ (congrFun hhand m) hcall rfl
      rw [hty]
      decide
    | some d =>
      have hsome : (s.endHandshake m).stream m packet.streamId = some d := by rw [hhand, hd]
      let renewed : Bool := decide (d.buffer - 1 = 0 ∧
        (s.endHandshake m).hasBackpressure m = true ∧ s.watcher.sendQueueLen < maxQueue)
      refine @ReceiveMove.data m packet s _ d renewed hty hd ?_ hcall (fun id => ?_) ?_
      · exact fun h => (of_decide_eq_true h).1
      · rw [State.stream_handleData hsome, hhand]
        simp [renewed]
        rfl
      · rw [State.sentTo_handleData hsome]
        simp [renewed]
        rfl

end Woeful
