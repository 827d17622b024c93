import Woeful.Steps

/-!
# What the functions do to the table

For each function of the loop thread: which descriptors, managers and bindings
it changes (none, for those with the frame `SameTable`), and what it appends to
the log.
-/

namespace Woeful

open Memory

variable {env : Env} {s t : State} {m m' : Nat} {streamId id : UInt32}

/-! ## Functions with the frame -/

namespace SameTable

theorem record (s : State) (e : Event) : SameTable s (s.record e) := of_eq rfl rfl rfl rfl

theorem setLoop (s : State) (l : LoopState) : SameTable s { s with loop := l } :=
  of_eq rfl rfl rfl rfl

theorem send (s : State) (m : Nat) (packet : WispPacket) (origin : Origin) :
    SameTable s (s.send env m packet origin) :=
  record s _

theorem refuse (s : State) (c : ConnectCall) : SameTable s (s.refuse env c) :=
  of_eq rfl rfl rfl rfl

theorem submitTask (s : State) (t : WriteTask) : SameTable s (s.submitTask t) :=
  of_eq rfl rfl rfl rfl

theorem setBackpressure (s : State) (m : Nat) (b : Bool) :
    SameTable s (s.setBackpressure m b) :=
  modifyManager s m fun _ _ => rfl

theorem forceClose (s : State) (m : Nat) : SameTable s (s.forceClose m) :=
  (setBackpressure s m false).trans (setLoop _ _)

theorem endHandshake (s : State) (m : Nat) : SameTable s (s.endHandshake m) := by
  refine modifyManager s m fun manager _ => ?_
  split <;> rfl

theorem setBuffer (s : State) (m : Nat) (streamId buffer : UInt32) :
    SameTable s (s.setBuffer m streamId buffer) := by
  refine modifyManager s m fun manager id => ?_
  by_cases h : id = streamId
  · subst h
    rw [AList.lookup_modify_self, Option.map_map]
    rfl
  · rw [AList.lookup_modify_ne h]

/-- A loop whose body has the frame has it. -/
theorem foldl {A : Type} {f : State → A → State} (hf : ∀ s a, SameTable s (f s a)) :
    ∀ (l : List A) (s : State), SameTable s (l.foldl f s) := by
  intro l
  induction l with
  | nil => exact refl
  | cons a l ih => exact fun s => (hf s a).trans (ih _)

theorem updateStreams (s : State) (m : Nat) : SameTable s (s.updateStreams env m) := by
  rw [State.updateStreams]
  split
  · exact refl s
  · split
    · exact refl s
    · refine (foldl (fun s e => ?_) _ s).trans (modifyManager _ m fun manager id => ?_)
      · exact send s _ _ _
      · rw [AList.lookup_mapWithKey, Option.map_map]
        congr 1
        funext d
        rw [Function.comp_apply, SocketStreamData.renew]
        split <;> rfl

theorem drain (s : State) (m : Nat) : SameTable s (s.drain env m) :=
  (setBackpressure s m false).trans (updateStreams _ m)

theorem handleData (s : State) (m : Nat) (packet : WispPacket) :
    SameTable s (s.handleData env m packet).2 := by
  rw [State.handleData]
  split
  · exact refl s
  · rename_i d hd
    dsimp only
    split
    · split
      · exact (submitTask s _).trans ((setBuffer _ _ _ _).trans (send _ _ _ _))
      · exact (submitTask s _).trans (setBuffer _ _ _ _)
    · exact submitTask s _

theorem deliver (s : State) (p : Pass) (h : Nat × UInt32) :
    SameTable s (s.deliver env p h) := by
  rw [State.deliver]
  split
  · exact (send s _ _ _).trans (setBackpressure _ _ _)
  · exact send s _ _ _

theorem deliverAll (s : State) (p : Pass) (l : List (Nat × UInt32)) :
    SameTable s (l.foldl (fun s h => s.deliver env p h) s) :=
  foldl (fun s h => deliver s p h) l s

theorem pushFd (s : State) (c : ConnectCall) (fd : Fd) (ok : Bool) :
    SameTable s (s.pushFd c fd ok) :=
  ⟨Kernel.files_pushFd, Kernel.socks_pushFd, rfl, fun _ => Iff.rfl, rfl, rfl⟩

end SameTable

/-! ## What the credit functions leave alone -/

namespace State

/-- An update that leaves the streams of its manager alone. -/
theorem stream_modifyManager {f : WebSocketManager → WebSocketManager}
    (hf : ∀ manager, (f manager).streams = manager.streams) :
    (s.modifyManager m f).stream = s.stream := by
  funext m' id
  by_cases h : m' = m
  · subst h
    rw [stream_modifyManager_self, stream]
    congr 1
    funext manager
    rw [hf]
  · exact stream_modifyManager_ne h f

@[simp] theorem stream_endHandshake : (s.endHandshake m).stream = s.stream := by
  refine stream_modifyManager fun manager => ?_
  split <;> rfl

/-- A map that changes its iteration order is the same map. -/
theorem stream_rehash {streams : AList fun _ : UInt32 => SocketStreamData}
    (h : s.rehash m streams = some t) : t.stream = s.stream := by
  rw [rehash] at h
  split at h
  · cases h
  · rename_i manager hm
    rw [Option.ite_none_right_eq_some] at h
    obtain ⟨⟨-, hperm⟩, h⟩ := h
    obtain rfl := Option.some.inj h
    funext m' id
    by_cases hne : m' = m
    · subst hne
      rw [stream_modifyManager_self, stream, hm]
      exact AList.lookup_of_perm hperm id
    · exact stream_modifyManager_ne hne _

theorem rehash_frame {streams : AList fun _ : UInt32 => SocketStreamData}
    (h : s.rehash m streams = some t) :
    SameTable s t ∧ t = { s with managers := t.managers } := by
  have hstream := stream_rehash h
  rw [rehash] at h
  split at h
  · cases h
  · rw [Option.ite_none_right_eq_some] at h
    obtain ⟨-, h⟩ := h
    obtain rfl := Option.some.inj h
    refine ⟨⟨rfl, rfl, ?_, fun _ => mem_modifyManager, rfl, rfl⟩, rfl⟩
    funext m' id
    rw [binding, hstream]
    rfl

theorem rehashSockets_frame {ms : List Nat} (h : s.rehashSockets ms = some t) :
    s.loop = .idle ∧ ms.Perm s.watcher.watchedSockets ∧
      t = { s with watcher := { s.watcher with watchedSockets := ms } } := by
  rw [rehashSockets, Option.ite_none_right_eq_some] at h
  exact ⟨h.1.1, h.1.2, (Option.some.inj h.2).symm⟩

/-- A loop of `send_continue` calls only writes to the log. -/
theorem foldl_sendContinue_frame {A : Type} (f : A → UInt32) (l : List A) :
    ∀ s : State, l.foldl (fun s a => s.sendContinue env m bufferCount (f a)) s =
      { s with log := (l.foldl (fun s a => s.sendContinue env m bufferCount (f a)) s).log } := by
  induction l with
  | nil => exact fun _ => rfl
  | cons a l ih =>
    intro s
    rw [List.foldl_cons, ih]
    rfl

theorem updateStreams_frame :
    s.updateStreams env m = { s with
      managers := (s.updateStreams env m).managers, log := (s.updateStreams env m).log } := by
  rw [updateStreams]
  split
  · rfl
  · split
    · rfl
    · dsimp only
      rw [foldl_sendContinue_frame]
      rfl

theorem drain_frame :
    s.drain env m = { s with
      managers := (s.drain env m).managers, log := (s.drain env m).log } := by
  rw [drain, updateStreams_frame]
  rfl

theorem handleData_frame (packet : WispPacket) :
    (s.handleData env m packet).2 = { s with
      managers := (s.handleData env m packet).2.managers
      pool := (s.handleData env m packet).2.pool
      log := (s.handleData env m packet).2.log } := by
  rw [handleData]
  split
  · rfl
  · dsimp only
    split
    · split <;> rfl
    · rfl

theorem foldl_deliver_frame (p : Pass) (l : List (Nat × UInt32)) :
    ∀ s : State, l.foldl (fun s h => s.deliver env p h) s =
      { s with
        managers := (l.foldl (fun s h => s.deliver env p h) s).managers
        log := (l.foldl (fun s h => s.deliver env p h) s).log } := by
  induction l with
  | nil => exact fun _ => rfl
  | cons h l ih =>
    intro s
    rw [List.foldl_cons, ih]
    rw [deliver]
    split <;> rfl

end State

/-! ## Functions without it -/

namespace State

theorem binding_construct (hm : s.id ∉ s.managers) :
    (s.construct env).binding = s.binding := by
  funext m' id
  change (((s.managers.insert s.id {}).lookup m').bind
    fun manager => manager.streams.lookup id).map (·.fd) = _
  by_cases h : m' = s.id
  · subst h
    have hnone : s.managers.lookup s.id = none := AList.lookup_eq_none.mpr hm
    rw [AList.lookup_insert, binding, stream, hnone]
    rfl
  · rw [AList.lookup_insert_ne h]
    rfl

@[simp] theorem mem_construct : m' ∈ (s.construct env).managers ↔ m' = s.id ∨ m' ∈ s.managers :=
  AList.mem_insert s.managers

@[simp] theorem binding_destruct :
    (s.destruct m).binding m' id = if m' = m then none else s.binding m' id := by
  change (((s.managers.erase m).lookup m').bind
    fun manager => manager.streams.lookup id).map (·.fd) = _
  split
  · rename_i h
    subst h
    rw [AList.lookup_erase]
    rfl
  · rename_i h
    rw [AList.lookup_erase_ne h]
    rfl

@[simp] theorem mem_destruct : m' ∈ (s.destruct m).managers ↔ m' ≠ m ∧ m' ∈ s.managers :=
  AList.mem_erase

theorem stream_insertStream {c : ConnectCall} {fd : Fd} (hm : c.manager ∈ s.managers) :
    (s.insertStream c fd).stream m' id =
      if m' = c.manager ∧ id = c.streamId then some ⟨c.streamType, c.streamId, fd, bufferCount⟩
      else s.stream m' id := by
  change (s.modifyManager c.manager _).stream m' id = _
  by_cases h : m' = c.manager
  · subst h
    obtain ⟨manager, hmanager⟩ := AList.mem_iff_lookup.mp hm
    rw [stream_modifyManager_self, stream, hmanager]
    change (manager.streams.insert c.streamId _).lookup id = _
    by_cases hid : id = c.streamId
    · subst hid
      rw [AList.lookup_insert, if_pos ⟨rfl, rfl⟩]
    · rw [AList.lookup_insert_ne hid, if_neg (fun h => hid h.2)]
      rfl
  · rw [stream_modifyManager_ne h, if_neg (fun h' => h h'.1)]

theorem binding_insertStream {c : ConnectCall} {fd : Fd} (hm : c.manager ∈ s.managers) :
    (s.insertStream c fd).binding m' id =
      if m' = c.manager ∧ id = c.streamId then some fd else s.binding m' id := by
  rw [binding, stream_insertStream hm]
  split <;> rfl

/-- The descriptor `close_stream` closes: 0 where the id is missing. -/
theorem fd_default (s : State) (m : Nat) (streamId : UInt32) :
    ((s.stream m streamId).getD {}).fd = (s.binding m streamId).getD 0 := by
  rw [binding]
  cases s.stream m streamId <;> rfl

@[simp] theorem stream_closeStream {removePoll : Bool} {origin : Origin} :
    (s.closeStream env m streamId removePoll origin).stream m' id =
      if m' = m ∧ id = streamId then none else s.stream m' id := by
  have hsame : ∀ b : Bool,
      (s.closeStream env m streamId b origin).stream m' id =
        (s.modifyManager m fun manager =>
          { manager with streams := manager.streams.erase streamId }).stream m' id := by
    intro b
    cases b <;> rfl
  rw [hsame]
  by_cases h : m' = m
  · subst h
    rw [stream_modifyManager_self, stream]
    cases s.managers.lookup m' with
    | none => simp
    | some manager =>
      change (manager.streams.erase streamId).lookup id = _
      by_cases hid : id = streamId
      · subst hid
        rw [AList.lookup_erase, if_pos ⟨rfl, rfl⟩]
      · rw [AList.lookup_erase_ne hid, if_neg (fun h => hid h.2)]
        rfl
  · rw [stream_modifyManager_ne h, if_neg (fun h' => h h'.1)]

@[simp] theorem binding_closeStream {removePoll : Bool} {origin : Origin} :
    (s.closeStream env m streamId removePoll origin).binding m' id =
      if m' = m ∧ id = streamId then none else s.binding m' id := by
  rw [binding, stream_closeStream]
  split <;> rfl

theorem files_closeStream {removePoll : Bool} {origin : Origin} :
    (s.closeStream env m streamId removePoll origin).kernel.files =
      (s.kernel.close ((s.binding m streamId).getD 0)).files := by
  rw [← fd_default]
  cases removePoll <;> rfl

theorem sockAt_closeStream {removePoll : Bool} {origin : Origin} :
    (s.closeStream env m streamId removePoll origin).kernel.sockAt =
      (s.kernel.close ((s.binding m streamId).getD 0)).sockAt :=
  Kernel.sockAt_congr files_closeStream

@[simp] theorem socks_closeStream {removePoll : Bool} {origin : Origin} :
    (s.closeStream env m streamId removePoll origin).kernel.socks = s.kernel.socks := by
  cases removePoll <;> rfl

theorem mem_epoll_closeStream {removePoll : Bool} {origin : Origin} {fd : Fd} :
    fd ∈ (s.closeStream env m streamId removePoll origin).kernel.epoll ↔
      fd ∈ s.kernel.epoll ∧ fd ≠ (s.binding m streamId).getD 0 := by
  rw [← fd_default]
  cases removePoll with
  | false => exact Kernel.mem_epoll_close
  | true =>
    refine (Kernel.mem_epoll_close.trans (and_congr_left' Kernel.mem_epoll_eraseFd)).trans ?_
    exact ⟨fun h => h.1, fun h => ⟨h, h.2⟩⟩

@[simp] theorem mem_closeStream {removePoll : Bool} {origin : Origin} :
    m' ∈ (s.closeStream env m streamId removePoll origin).managers ↔ m' ∈ s.managers := by
  cases removePoll <;> exact mem_modifyManager

end State

end Woeful
