import Woeful.Handlers

/-!
# All or nothing

A CONNECT can fail in the filter, in name resolution, in `socket` and in `connect`, and each
time what was opened is closed again and a CLOSE goes out (`Refused`). Otherwise the stream
is stored (`Established`). Between the two is `push_fd`, which does not look at what
`epoll_ctl` answers: where that is an error, the stream is stored all the same, and nothing
it sends will ever be read.

There is one more way to lose the registration: the watcher has read from the descriptor's
*number* before, while it stood for a socket that is closed by now, and takes it out of the
epoll set late. Both are excluded by `State.registers`, and nothing else goes wrong
(`connect_allOrNothing_iff`).
-/

namespace Woeful

open Memory Transition

variable {env : Env} {s t u : State} {c : ConnectCall} {fd : Fd} {fds : List Fd}

/-! ## What a CONNECT may come to -/

/-- The CONNECT was refused: there is a CLOSE, and nothing else. -/
structure Refused (c : ConnectCall) (s t : State) (fds : List Fd) : Prop where
  /-- one CLOSE is sent -/
  sentTo : ∀ m, t.sentTo m =
    s.sentTo m ++ if m = c.manager then [closeFrame 0x41 c.streamId] else []
  /-- the streams are as before -/
  stream : t.stream = s.stream
  /-- so are the descriptors -/
  files : t.kernel.files = s.kernel.files
  /-- so is the epoll set, but for what the watcher took out -/
  epoll : Remains s.kernel.epoll fds t.kernel.epoll

/-- The CONNECT has a socket. -/
structure Opened (c : ConnectCall) (fd : Fd) (s t : State) (fds : List Fd) : Prop where
  /-- the descriptor was not in use -/
  fresh : s.kernel.files fd = none
  /-- it is open, and the others are as before -/
  files : t.kernel.files =
    Function.update s.kernel.files fd (some (.sock s.kernel.socks.length))
  /-- the rest of the epoll set is as before, but for what the watcher took out -/
  epoll : ∀ fd' ≠ fd, fd' ∈ t.kernel.epoll ↔ fd' ∈ s.kernel.epoll ∧ fd' ∉ fds
  /-- nothing is sent -/
  sentTo : t.sentTo = s.sentTo

/-- The stream is stored, and the others are as before. -/
def Stored (c : ConnectCall) (fd : Fd) (s t : State) : Prop :=
  ∀ m id, t.stream m id = if m = c.manager ∧ id = c.streamId then
    some ⟨c.streamType, c.streamId, fd, bufferCount⟩ else s.stream m id

/-- The CONNECT succeeded: its socket is registered with epoll and its stream is stored. -/
structure Established (c : ConnectCall) (fd : Fd) (s t : State) (fds : List Fd) : Prop
    extends Opened c fd s t fds where
  /-- the descriptor is registered -/
  registered : fd ∈ t.kernel.epoll
  /-- the stream is stored -/
  stored : Stored c fd s t

/-- A CONNECT has its whole effect, or none. -/
def AllOrNothing (c : ConnectCall) (s t : State) (fds : List Fd) : Prop :=
  (∃ fd, Established c fd s t fds) ∨ Refused c s t fds

/-- The condition on a step: `epoll_ctl` does not fail, and while a stream is about to be
stored the watcher does not take its descriptor out of the epoll set. -/
def State.registers (s : State) : Label → Bool
  | .loop (.pushFd ok) => ok
  | .watch .erase =>
    match s.loop with
    | .insert _ fd => s.watcher.phase.pass?.all (·.fd ≠ fd)
    | _ => true
  | _ => true

/-! ## How far it is -/

namespace Kernel

variable {k : Kernel} {ok : Bool}

theorem epoll_pushFd (hopen : k.files fd ≠ none) (hnew : fd ∉ k.epoll) :
    (k.pushFd fd ok).epoll = if ok = true then fd :: k.epoll else k.epoll := by
  rw [pushFd]
  cases ok with
  | true => rw [dif_pos ⟨rfl, hopen, hnew⟩, if_pos rfl]
  | false => rw [dif_neg fun h => Bool.false_ne_true h.1, if_neg Bool.false_ne_true]

theorem mem_epoll_pushFd_self (hopen : k.files fd ≠ none) (hnew : fd ∉ k.epoll) :
    fd ∈ (k.pushFd fd ok).epoll ↔ ok = true := by
  rw [epoll_pushFd hopen hnew]
  cases ok <;> simp [hnew]

theorem mem_epoll_pushFd_ne {fd' : Fd} (hopen : k.files fd ≠ none) (hnew : fd ∉ k.epoll)
    (hne : fd' ≠ fd) : fd' ∈ (k.pushFd fd ok).epoll ↔ fd' ∈ k.epoll := by
  rw [epoll_pushFd hopen hnew]
  cases ok <;> simp [hne]

end Kernel

theorem Opened.aside (h : Opened c fd s t fds) {fds' : List Fd} (ha : Aside t u fds') :
    Opened c fd s u (fds ++ fds') where
  fresh := h.fresh
  files := by rw [ha.files, h.files]
  epoll fd' hne := by rw [ha.epoll fd', h.epoll fd' hne, List.mem_append, not_or, and_assoc]
  sentTo := by rw [ha.sentTo, h.sentTo]

theorem sentTo_refuse {m : Nat} : (s.refuse env c).sentTo m =
    s.sentTo m ++ if m = c.manager then [closeFrame 0x41 c.streamId] else [] := by
  split
  · rename_i hm
    subst hm
    exact State.sentTo_refuse_self c
  · rename_i hm
    rw [State.sentTo_refuse_ne (Ne.symm hm), List.append_nil]

/-- The socket is closed again. -/
theorem Opened.closeFd (h : Opened c fd s t fds) (hstream : t.stream = s.stream)
    (hnew : fd ∉ t.kernel.epoll) : Refused c s ((t.closeFd fd).refuse env c) fds where
  sentTo m := by rw [sentTo_refuse, State.sentTo_closeFd, h.sentTo]
  stream := hstream
  files := by
    change Function.update t.kernel.files fd none = _
    rw [h.files, Function.update_idem, ← h.fresh, Function.update_eq_self]
  epoll fd' := by
    have hold : fd ∉ s.kernel.epoll := fun hmem => s.kernel.epoll_open fd hmem h.fresh
    refine Kernel.mem_epoll_close.trans ?_
    by_cases hfd : fd' = fd
    · subst hfd
      exact ⟨fun h => absurd rfl h.2, fun h => absurd h.1 hold⟩
    · rw [h.epoll fd' hfd]
      exact and_iff_left hfd

/-- How far the CONNECT is. The watcher took `fds` out of the epoll set meanwhile, and `ok`
tells whether the condition was met. -/
inductive ConnectAt (c : ConnectCall) (s : State) (fds : List Fd) (ok : Prop) (t : State) :
    Prop where
  /-- it has no socket yet -/
  | socket : t.loop = .socket c → c.manager ∈ t.managers → t.stream = s.stream →
      t.kernel.files = s.kernel.files → t.kernel.socks = s.kernel.socks →
      Remains s.kernel.epoll fds t.kernel.epoll → t.sentTo = s.sentTo → ok →
      ConnectAt c s fds ok t
  /-- it has one, which is not registered yet -/
  | opened {fd : Fd} : t.loop = .connect c fd ∨ t.loop = .pushFd c fd →
      c.manager ∈ t.managers → t.stream = s.stream → Opened c fd s t fds →
      fd ∉ t.kernel.epoll → ok → ConnectAt c s fds ok t
  /-- its stream is to be stored -/
  | insert {fd : Fd} : t.loop = .insert c fd → c.manager ∈ t.managers → t.stream = s.stream →
      Opened c fd s t fds → (fd ∈ t.kernel.epoll ↔ ok) → ConnectAt c s fds ok t
  /-- its stream is stored -/
  | stored {fd : Fd} : t.loop = .idle → Stored c fd s t → Opened c fd s t fds →
      (fd ∈ t.kernel.epoll ↔ ok) → ConnectAt c s fds ok t
  /-- it is refused -/
  | refused : t.loop = .idle → Refused c s t fds → ok → ConnectAt c s fds ok t

/-! ## The steps -/

namespace LoopMove

variable {l : LoopLabel}

theorem of_socket (h : LoopMove env s l t) (hl : s.loop = .socket c) :
    (∀ ok, l ≠ .pushFd ok) ∧
      (t = s.refuse env c ∨ ∃ fd, ∃ hfd : s.kernel.files fd = none, t = { s with
        kernel := s.kernel.socket fd hfd (c.manager, c.streamId), loop := .connect c fd }) := by
  cases h
  case socketFail hl' =>
    obtain rfl := LoopState.socket.inj (hl.symm.trans hl')
    exact ⟨fun _ => LoopLabel.noConfusion, Or.inl rfl⟩
  case socket hfd hl' =>
    obtain rfl := LoopState.socket.inj (hl.symm.trans hl')
    exact ⟨fun _ => LoopLabel.noConfusion, Or.inr ⟨_, hfd, rfl⟩⟩
  all_goals simp_all

theorem of_connect (h : LoopMove env s l t) (hl : s.loop = .connect c fd) :
    (∀ ok, l ≠ .pushFd ok) ∧
      (t = { s with loop := .pushFd c fd } ∨ t = (s.closeFd fd).refuse env c) := by
  cases h
  case connected hl' =>
    obtain ⟨rfl, rfl⟩ := LoopState.connect.inj (hl.symm.trans hl')
    exact ⟨fun _ => LoopLabel.noConfusion, Or.inl rfl⟩
  case connectFail hl' =>
    obtain ⟨rfl, rfl⟩ := LoopState.connect.inj (hl.symm.trans hl')
    exact ⟨fun _ => LoopLabel.noConfusion, Or.inr rfl⟩
  all_goals simp_all

theorem of_pushFd (h : LoopMove env s l t) (hl : s.loop = .pushFd c fd) :
    ∃ ok, l = .pushFd ok ∧ t = s.pushFd c fd ok := by
  cases h
  case pushFd ok hl' =>
    obtain ⟨rfl, rfl⟩ := LoopState.pushFd.inj (hl.symm.trans hl')
    exact ⟨ok, rfl, rfl⟩
  all_goals simp_all

theorem of_insert (h : LoopMove env s l t) (hl : s.loop = .insert c fd) :
    l = .resume ∧ t = s.insertStream c fd := by
  cases h
  case insert hl' hfree =>
    obtain ⟨rfl, rfl⟩ := LoopState.insert.inj (hl.symm.trans hl')
    exact ⟨rfl, rfl⟩
  all_goals simp_all

/-- The message of a CONNECT. -/
theorem of_connectMessage {m : Nat} {view : Bytes} {packet : WispPacket}
    (h : LoopMove env s (.message m view) t)
    (hp : WispPacket.parse view (UInt64.ofNat view.length) = .ok packet)
    (hty : packet.packetType = packetConnect) (hm : c.manager = m)
    (hid : c.streamId = packet.streamId) (htype : packet.data[0]? = some c.streamType) :
    m ∈ s.managers ∧ (t = { s.endHandshake m with loop := .socket c } ∨
      t = (s.endHandshake m).refuse env c) := by
  cases h with
  | info hi halive hp' hty' =>
    obtain rfl := Except.ok.inj (hp.symm.trans hp')
    rw [hty] at hty'
    exact absurd hty' (by decide)
  | other hi halive hp' hc hd =>
    obtain rfl := Except.ok.inj (hp.symm.trans hp')
    exact absurd hty hc
  | data hi halive hp' hty' =>
    obtain rfl := Except.ok.inj (hp.symm.trans hp')
    rw [hty] at hty'
    exact absurd hty' (by decide)
  | @connect m view packet' c' hi halive hp' hty' hcm hcid hctype hsock =>
    obtain rfl := Except.ok.inj (hp.symm.trans hp')
    have hc : c' = c := by
      obtain ⟨m', id', ty'⟩ := c'
      obtain ⟨m, id, ty⟩ := c
      simp_all
    exact ⟨halive, Or.inl (by rw [hc])⟩
  | @refuse m view packet' c' hi halive hp' hty' hcm hcid =>
    obtain rfl := Except.ok.inj (hp.symm.trans hp')
    refine ⟨halive, Or.inr ?_⟩
    rw [State.refuse, State.refuse, hcm, hcid, hm, hid]

end LoopMove

variable {ok : Prop}

/-- Unless it registers a descriptor, the condition asks nothing of the loop thread. -/
theorem registers_loop {l : LoopLabel} (hl : ∀ ok, l ≠ .pushFd ok) :
    s.registers (.loop l) = true := by
  cases l with
  | pushFd ok => exact absurd rfl (hl ok)
  | _ => rfl

/-- Nor of the other threads, unless a stream is about to be stored. -/
theorem registers_of_not_insert {l : Label} (hl : ∀ l', l ≠ .loop l')
    (hloop : ∀ c fd, t.loop ≠ .insert c fd) : t.registers l = true := by
  cases l with
  | loop l' => exact absurd rfl (hl l')
  | watch w =>
    cases w with
    | erase =>
      rw [State.registers]
      split
      · rename_i c fd hinsert
        exact absurd hinsert (hloop c fd)
      · rfl
    | _ => rfl
  | _ => rfl

/-- If one is, the watcher must not take its descriptor out. -/
theorem registers_insert {l : Label} (hl : ∀ l', l ≠ .loop l') (hloop : t.loop = .insert c fd) :
    t.registers l = true ↔ fd ∉ (t.erases l).toList := by
  cases l with
  | loop l' => exact absurd rfl (hl l')
  | watch w =>
    cases w with
    | erase =>
      rw [State.registers, State.erases, hloop]
      cases t.watcher.phase.pass? with
      | none => simp
      | some p =>
        simp only [Option.all_some, Option.map_some, Option.toList_some, List.mem_singleton,
          decide_eq_true_iff]
        exact ne_comm
    | _ => simp [State.registers, State.erases]
  | _ => simp [State.registers, State.erases]

namespace ConnectAt

/-- The first step of the handler. -/
theorem first {view : Bytes} {packet : WispPacket}
    (hs : LoopMove env s (.message c.manager view) t)
    (hp : WispPacket.parse view (UInt64.ofNat view.length) = .ok packet)
    (hty : packet.packetType = packetConnect) (hid : c.streamId = packet.streamId)
    (htype : packet.data[0]? = some c.streamType) (hok : ok) : ConnectAt c s [] ok t := by
  obtain ⟨halive, rfl | rfl⟩ := hs.of_connectMessage hp hty rfl hid htype
  · refine .socket rfl ?_ State.stream_endHandshake rfl rfl (.refl _) rfl hok
    exact State.mem_modifyManager.mpr halive
  · exact .refused rfl ⟨fun _ => sentTo_refuse, State.stream_endHandshake, rfl, .refl _⟩ hok

/-- A further step of the loop thread. -/
theorem loopMove {l : LoopLabel} (h : ConnectAt c s fds ok t) (hbusy : t.loop ≠ .idle)
    (hs : LoopMove env t l u) : ConnectAt c s fds (ok ∧ t.registers (.loop l) = true) u := by
  cases h with
  | socket hl halive hstream hfiles hsocks hepoll hsent hok =>
    obtain ⟨hlabel, rfl | ⟨fd, hfd, rfl⟩⟩ := hs.of_socket hl
    · exact .refused rfl ⟨fun m => by rw [sentTo_refuse, hsent], hstream, hfiles, hepoll⟩
        ⟨hok, registers_loop hlabel⟩
    · refine .opened (Or.inl rfl) halive hstream ?_ ?_ ⟨hok, registers_loop hlabel⟩
      · refine ⟨hfiles ▸ hfd, ?_, fun fd' _ => hepoll fd', hsent⟩
        change Function.update t.kernel.files fd (some (.sock t.kernel.socks.length)) = _
        rw [hfiles, hsocks]
      · exact fun hmem => t.kernel.epoll_open fd hmem hfd
  | @opened fd hl halive hstream hopened hnew hok =>
    rcases hl with hl | hl
    · obtain ⟨hlabel, rfl | rfl⟩ := hs.of_connect hl
      · exact .opened (Or.inr rfl) halive hstream
          ⟨hopened.fresh, hopened.files, hopened.epoll, hopened.sentTo⟩ hnew
          ⟨hok, registers_loop hlabel⟩
      · exact .refused rfl (hopened.closeFd hstream hnew) ⟨hok, registers_loop hlabel⟩
    · obtain ⟨answer, rfl, rfl⟩ := hs.of_pushFd hl
      have hopen : t.kernel.files fd ≠ none := by
        rw [hopened.files, Function.update_self]
        exact Option.some_ne_none _
      refine .insert rfl halive hstream ⟨hopened.fresh,
        Kernel.files_pushFd.trans hopened.files, fun fd' hne => ?_, hopened.sentTo⟩ ?_
      · rw [← hopened.epoll fd' hne]
        exact Kernel.mem_epoll_pushFd_ne hopen hnew hne
      · exact (Kernel.mem_epoll_pushFd_self hopen hnew).trans (and_iff_right hok).symm
  | @insert fd hl halive hstream hopened hreg =>
    obtain ⟨rfl, rfl⟩ := hs.of_insert hl
    refine @ConnectAt.stored _ _ _ _ _ fd rfl (fun m id => ?_)
      ⟨hopened.fresh, hopened.files, hopened.epoll, ?_⟩ (hreg.trans (and_iff_left rfl).symm)
    · refine (State.stream_insertStream halive).trans ?_
      rw [hstream]
    · rw [← hopened.sentTo]
      funext m
      exact State.sentTo_record_none rfl
  | stored hl _ _ _ => exact absurd hl hbusy
  | refused hl _ _ => exact absurd hl hbusy

/-- A step of another thread. -/
theorem aside {l : Label} (h : ConnectAt c s fds ok t) (hbusy : t.loop ≠ .idle)
    (hl : ∀ l', l ≠ .loop l') (ha : Aside t u (t.erases l).toList) :
    ConnectAt c s (fds ++ (t.erases l).toList) (ok ∧ t.registers l = true) u := by
  have hstream : u.stream = t.stream := State.stream_of_managers ha.managers
  cases h with
  | socket hloop halive hs hfiles hsocks hepoll hsent hok =>
    exact .socket (ha.loop.trans hloop) (ha.managers ▸ halive) (hstream.trans hs)
      (ha.files.trans hfiles) (ha.socks.trans hsocks) (hepoll.trans ha.epoll)
      (ha.sentTo.trans hsent) ⟨hok, registers_of_not_insert hl (by simp [hloop])⟩
  | @opened fd hloop halive hs hopened hnew hok =>
    refine @ConnectAt.opened _ _ _ _ _ fd (ha.loop.symm ▸ hloop) (ha.managers ▸ halive)
      (hstream.trans hs) (hopened.aside ha) (fun hmem => hnew ((ha.epoll fd).mp hmem).1)
      ⟨hok, registers_of_not_insert hl ?_⟩
    rcases hloop with hloop | hloop <;> simp [hloop]
  | @insert fd hloop halive hs hopened hreg =>
    refine @ConnectAt.insert _ _ _ _ _ fd (ha.loop.trans hloop) (ha.managers ▸ halive)
      (hstream.trans hs) (hopened.aside ha) ?_
    rw [ha.epoll fd, hreg]
    exact and_congr_right' (registers_insert hl hloop).symm
  | stored hloop _ _ _ => exact absurd hloop hbusy
  | refused hloop _ _ => exact absurd hloop hbusy

/-- What the condition means for a CONNECT that is over. -/
theorem allOrNothing_iff (h : ConnectAt c s fds ok t) (hidle : t.loop = .idle) :
    AllOrNothing c s t fds ↔ ok := by
  cases h with
  | socket hloop _ _ _ _ _ _ _ => simp [hidle] at hloop
  | opened hloop _ _ _ _ _ => simp [hidle] at hloop
  | insert hloop _ _ _ _ => simp [hidle] at hloop
  | refused hloop hrefused hok => exact ⟨fun _ => hok, fun _ => Or.inr hrefused⟩
  | @stored fd hloop hstored hopened hreg =>
    rw [← hreg]
    refine ⟨fun hall => ?_, fun hmem => Or.inl ⟨fd, hopened, hmem, hstored⟩⟩
    rcases hall with ⟨fd', hestablished⟩ | hrefused
    · -- the stream is stored under one descriptor only
      have hfd := hestablished.stored c.manager c.streamId
      rw [hstored c.manager c.streamId, if_pos ⟨rfl, rfl⟩, if_pos ⟨rfl, rfl⟩] at hfd
      obtain rfl : fd = fd' := congrArg SocketStreamData.fd (Option.some.inj hfd)
      exact hestablished.registered
    · -- and no CLOSE was sent
      have hclose := hrefused.sentTo c.manager
      rw [hopened.sentTo, if_pos rfl] at hclose
      have hlen := congrArg List.length hclose
      simp at hlen

end ConnectAt

/-! ## The result -/

/-- **A CONNECT is all or nothing**, whatever the filter, name resolution, `socket` and
`connect` answer and whatever the other threads do, exactly if its registration with epoll
succeeds and lasts. -/
theorem connect_allOrNothing_iff {view : Bytes} {packet : WispPacket} {ls : List Label}
    (h : HandlerRun env s (.message c.manager view) ls t)
    (hp : WispPacket.parse view (UInt64.ofNat view.length) = .ok packet)
    (hty : packet.packetType = packetConnect) (hid : c.streamId = packet.streamId)
    (htype : packet.data[0]? = some c.streamType) :
    AllOrNothing c s t (s.erased env (.loop (.message c.manager view) :: ls)) ↔
      AllAlong env (fun s l => s.registers l = true) s
        (.loop (.message c.manager view) :: ls) := by
  have hat := h.invariant (P := fun s l => s.registers l = true) (I := ConnectAt c s)
    (fun u hs => .first hs hp hty hid htype rfl)
    (fun _ _ _ _ _ hI hbusy hs => hI.loopMove hbusy hs)
    (fun _ _ _ _ _ hI hbusy hl ha => hI.aside hbusy hl ha)
  exact hat.allOrNothing_iff h.idle

/-- A websocket is open. -/
def oneClient : State := (server {}).final (fun _ _ => True) [.loop .opened]

/-- The message of a CONNECT to `a`, port 80. -/
def connectMessage : Bytes := WispPacket.serialize ⟨packetConnect, 1, [0x01, 80, 0, 97]⟩

/-- What the calls of a CONNECT answer, `epoll_ctl` answering `ok`. -/
def connectAnswers (ok : Bool) : List Label :=
  [.loop (.socket (some 7)), .loop (.connect true), .loop (.pushFd ok), .loop .resume]

theorem connect_allOrNothing_iff_connectAnswers :
    AllOrNothing ⟨0, 1, 0x01⟩ oneClient
        (handlerEnd {} oneClient (.message 0 connectMessage) (connectAnswers true))
        (oneClient.erased {} (.loop (.message 0 connectMessage) :: connectAnswers true)) ↔
      AllAlong {} (fun s l => s.registers l = true) oneClient
        (.loop (.message 0 connectMessage) :: connectAnswers true) :=
  @connect_allOrNothing_iff {} oneClient _ ⟨0, 1, 0x01⟩ connectMessage
    ⟨packetConnect, 1, [0x01, 80, 0, 97]⟩ (connectAnswers true)
    (.of_replay (by decide +kernel) (by decide +kernel) (by decide +kernel)) (by decide +kernel)
    rfl rfl rfl

/-- **The stream that is stored and not registered**: `epoll_ctl` fails. -/
theorem unregistered_counterexample :
    ¬ ∀ (env : Env) (s t : State) (c : ConnectCall) (view : Bytes) (packet : WispPacket)
        (ls : List Label), (server env).Reachable s →
      WispPacket.parse view (UInt64.ofNat view.length) = .ok packet →
      packet.packetType = packetConnect → c.streamId = packet.streamId →
      packet.data[0]? = some c.streamType → s.stream c.manager c.streamId = none →
      HandlerRun env s (.message c.manager view) ls t →
      AllOrNothing c s t (s.erased env (.loop (.message c.manager view) :: ls)) := by
  intro h
  have hall := h {} oneClient _ ⟨0, 1, 0x01⟩ connectMessage
    ⟨packetConnect, 1, [0x01, 80, 0, 97]⟩ (connectAnswers false)
    ((server {}).reaches_final (fun _ _ => True) _ (by decide +kernel)) (by decide +kernel)
    rfl rfl rfl (by decide +kernel)
    (.of_replay (by decide +kernel) (by decide +kernel) (by decide +kernel))
  rcases hall with ⟨fd, hestablished⟩ | hrefused
  · have hstored := hestablished.stored 0 1
    rw [if_pos ⟨rfl, rfl⟩] at hstored
    obtain rfl : 7 = fd := by
      have hfd := congrArg (Option.map SocketStreamData.fd) hstored
      exact Option.some.inj ((by decide +kernel : some 7 = _).trans hfd)
    exact absurd hestablished.registered (by decide +kernel)
  · have hstream := congrFun (congrFun hrefused.stream 0) 1
    exact absurd (congrArg Option.isSome hstream) (by decide +kernel)

end Woeful
