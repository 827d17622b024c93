import Woeful.Closures

/-!
# How descriptors and ids are bound

Two tables give names a meaning: the kernel's, from descriptors to sockets, and
the managers' `streams`, from ids to descriptors. `TableMove` says what a step
does to them, with the program point of the loop thread that goes with it. There
are five kinds of steps: almost all leave both tables alone, `socket()` and the
failed `connect` open and close a descriptor that no stream holds, `insert` binds
an id, and `close_stream` closes a descriptor and unbinds the id that held it.
-/

namespace Woeful

open Memory Transition

variable {env : Env} {s t : State}

/-- The descriptor of the CONNECT in progress. -/
def LoopState.fd? : LoopState → Option Fd
  | .connect _ fd => some fd
  | .pushFd _ fd => some fd
  | .insert _ fd => some fd
  | _ => none

/-- What a step does to the two tables. -/
inductive TableMove (s t : State) : Label → Prop where
  /-- both are as they were -/
  | same {l : Label} : t.kernel.sockAt = s.kernel.sockAt → t.kernel.socks = s.kernel.socks →
      t.binding = s.binding → t.loop.fd? = s.loop.fd? → TableMove s t l
  /-- `socket()` opens a descriptor -/
  | socket {c : ConnectCall} {fd : Fd} : s.loop = .socket c → s.kernel.files fd = none →
      t.kernel.sockAt = Function.update s.kernel.sockAt fd (some s.kernel.socks.length) →
      t.kernel.socks = s.kernel.socks ++ [(c.manager, c.streamId)] →
      t.binding = s.binding → t.loop.fd? = some fd → TableMove s t (.loop (.socket (some fd)))
  /-- `connect` failed, and its descriptor is closed -/
  | abandon {l : Label} {fd : Fd} : s.loop.fd? = some fd →
      t.kernel.sockAt = Function.update s.kernel.sockAt fd none →
      t.kernel.socks = s.kernel.socks →
      t.binding = s.binding → t.loop.fd? = none → TableMove s t l
  /-- `handle_connect` stores a stream -/
  | insert {c : ConnectCall} {fd : Fd} : s.loop = .insert c fd →
      t.kernel.sockAt = s.kernel.sockAt → t.kernel.socks = s.kernel.socks →
      (∀ m id, t.binding m id =
        if m = c.manager ∧ id = c.streamId then some fd else s.binding m id) →
      t.loop.fd? = none → TableMove s t (.loop .resume)
  /-- `close_stream` closes a stream that is present -/
  | close {m : Nat} {id : UInt32} {fd : Fd} : s.closing? = some (m, id) →
      s.binding m id = some fd → s.lockFree m = true → s.loop.fd? = none →
      t.kernel.sockAt = Function.update s.kernel.sockAt fd none →
      t.kernel.socks = s.kernel.socks →
      (∀ m' id', t.binding m' id' = if m' = m ∧ id' = id then none else s.binding m' id') →
      t.loop.fd? = none → TableMove s t (.loop .resume)

/-- Sockets stay on record. -/
theorem TableMove.socks_prefix {l : Label} (hs : TableMove s t l) :
    s.kernel.socks <+: t.kernel.socks := by
  cases hs with
  | same _ hsocks => exact hsocks ▸ List.prefix_refl _
  | socket _ _ _ hsocks => exact hsocks ▸ List.prefix_append _ _
  | abandon _ _ hsocks => exact hsocks ▸ List.prefix_refl _
  | insert _ _ hsocks => exact hsocks ▸ List.prefix_refl _
  | close _ _ _ _ _ hsocks => exact hsocks ▸ List.prefix_refl _

/-- A step with the frame leaves both tables alone. -/
theorem SameTable.tableMove {l : Label} (h : SameTable s t) (hfd : t.loop.fd? = s.loop.fd?) :
    TableMove s t l :=
  .same h.sockAt h.socks h.binding hfd

theorem Kernel.sockAt_close {k : Kernel} {fd : Fd} :
    (k.close fd).sockAt = Function.update k.sockAt fd none := by
  funext fd'
  by_cases h : fd' = fd
  · subst h
    rw [Kernel.sockAt_close_self, Function.update_self]
  · rw [Kernel.sockAt_close_ne h, Function.update_of_ne h]

/-- What a closure closes. -/
theorem State.sockAt_closeFound {p : Pass} {m : Nat} {id : UInt32}
    (hb : s.binding m id = some p.fd) :
    (s.closeFound env p m id).kernel.sockAt = Function.update s.kernel.sockAt p.fd none := by
  refine State.sockAt_closeStream.trans ?_
  rw [hb]
  exact Kernel.sockAt_close

theorem Kernel.sockAt_socket {k : Kernel} {fd : Fd} (hfd : k.files fd = none)
    (owner : Nat × UInt32) :
    (k.socket fd hfd owner).sockAt = Function.update k.sockAt fd (some k.socks.length) := by
  funext fd'
  by_cases h : fd' = fd
  · subst h
    rw [Kernel.sockAt_socket_self, Function.update_self]
  · rw [Kernel.sockAt_socket_ne hfd h, Function.update_of_ne h]

/-- `close_stream` in the words of the two tables. -/
theorem TableMove.of_closeStream {m : Nat} {id : UInt32} {fd : Fd} {removePoll : Bool}
    {origin : Origin} {l : LoopState} (hc : s.closing? = some (m, id))
    (hb : s.binding m id = some fd) (hfree : s.lockFree m = true) (hs : s.loop.fd? = none)
    (hl : l.fd? = none) :
    TableMove s { s.closeStream env m id removePoll origin with loop := l } (.loop .resume) := by
  refine .close hc hb hfree hs ?_ State.socks_closeStream (fun _ _ => State.binding_closeStream) hl
  change (s.closeStream env m id removePoll origin).kernel.sockAt = _
  rw [State.sockAt_closeStream, hb]
  exact Kernel.sockAt_close

/-- A manager all of whose streams are closed takes no binding with it. -/
theorem State.binding_destruct_of_closed {m : Nat} (h : LoopOk s (.closing m [])) :
    (s.destruct m).binding = s.binding := by
  funext m' id
  rw [State.binding_destruct]
  split
  · rename_i he
    subst he
    by_contra hne
    exact List.not_mem_nil ((h.2.2 id).mpr fun hnone => hne hnone.symm)
  · rfl

theorem LoopMove.tableMove {l : LoopLabel} (hs : LoopMove env s l t) (h : WellBound s) :
    TableMove s t (.loop l) := by
  have hfd : ∀ {l : LoopState}, s.loop = l → l.fd? = none → s.loop.fd? = none :=
    fun hl hp => hl ▸ hp
  have hquiet : ∀ {l' : LoopState} {u : State}, s.loop = l' → l'.fd? = none → SameTable s u →
      u.loop.fd? = none → TableMove s u (.loop l) :=
    fun hl hp hsame hu => hsame.tableMove (hu.trans (hfd hl hp).symm)
  obtain ⟨htab, hloop⟩ := h
  cases hs with
  | opened hi =>
    refine .same rfl rfl (State.binding_construct fun hm => ?_) rfl
    exact Nat.lt_irrefl _ (htab.fresh _ hm)
  | info hi hm hp hty => exact hquiet hi rfl (.refl s) (hfd hi rfl)
  | other hi hm hp hc hd => exact hquiet hi rfl (.endHandshake s _) (hfd hi rfl)
  | connect hi hm hp hty hcm hid =>
    exact hquiet hi rfl ((SameTable.endHandshake s _).trans (.setLoop _ _)) rfl
  | refuse hi hm hp hty hcm hid =>
    exact hquiet hi rfl ((SameTable.endHandshake s _).trans (.refuse _ _)) rfl
  | data hi hm hp hty =>
    refine hquiet hi rfl ((SameTable.endHandshake s _).trans (.handleData _ _ _)) ?_
    rw [State.handleData_frame]
    exact hfd hi rfl
  | drain hi hm =>
    refine hquiet hi rfl (.drain s _) ?_
    rw [State.drain_frame]
    exact hfd hi rfl
  | close hi hm => exact hquiet hi rfl (.forceClose s _) rfl
  | @deferred p rest hi hd =>
    have hpop : SameTable s { s with deferred := rest } := .of_eq rfl rfl rfl rfl
    refine hquiet hi rfl ((hpop.trans (.deliverAll _ p _)).trans (.setLoop _ _)) ?_
    change (State.afterDeliver p _).fd? = none
    rw [State.afterDeliver]
    split
    · rfl
    · split <;> rfl
  | socketFail hl => exact hquiet hl rfl (.refuse s _) rfl
  | socket hnone hl => exact .socket hl hnone (Kernel.sockAt_socket hnone _) rfl rfl rfl
  | connected hl => exact (SameTable.setLoop s _).tableMove (hl ▸ rfl)
  | connectFail hl => exact .abandon (hl ▸ rfl) Kernel.sockAt_close rfl rfl rfl
  | pushFd hl => exact (SameTable.pushFd s _ _ _).tableMove (hl ▸ rfl)
  | insert hl hfree =>
    rw [hl] at hloop
    exact .insert hl rfl rfl (fun _ _ => State.binding_insertStream hloop.alive) rfl
  | listIds hl hfree => exact hquiet hl rfl (.setLoop s _) rfl
  | @closeNext m id ids hl hfree =>
    rw [hl] at hloop
    have hid : s.binding m id ≠ none := (hloop.2.2 id).mp (List.mem_cons_self ..)
    obtain ⟨fd, hb⟩ := Option.ne_none_iff_exists'.mp hid
    exact .of_closeStream (by rw [State.closing?, hl]) hb hfree (hfd hl rfl) rfl
  | @destruct m hl =>
    rw [hl] at hloop
    exact .same rfl rfl (State.binding_destruct_of_closed hloop) (hfd hl rfl).symm
  | @closeFound p m id hl hfree =>
    rw [hl] at hloop
    exact .of_closeStream (by rw [State.closing?, hl]) hloop hfree (hfd hl rfl) rfl
  | decrement hl => exact hquiet hl rfl (.of_eq rfl rfl rfl rfl) rfl
  | check hl =>
    refine hquiet hl rfl (.of_eq rfl rfl rfl rfl) ?_
    rw [State.checkQueue]
    dsimp only
    split <;> rfl
  | sweepDone hl => exact hquiet hl rfl (.setLoop s _) rfl
  | sweep hl => exact hquiet hl rfl ((SameTable.updateStreams s _).trans (.setLoop _ _)) rfl

/-- **What a step does to the two tables.** -/
theorem step_tableMove {l : Label} (hs : s.step env l = some t) (h : WellBound s) :
    TableMove s t l := by
  cases l with
  | loop l => exact (loopStep_cases hs).tableMove h
  | watch l => exact (watchStep_cases hs).sameTable.tableMove (by rw [(watchStep_cases hs).loop])
  | worker l =>
    exact (workerStep_cases hs).sameTable.tableMove (by rw [(workerStep_cases hs).loop])
  | rehash m streams =>
    obtain ⟨hsame, hframe⟩ := State.rehash_frame hs
    exact hsame.tableMove (by rw [hframe])
  | rehashSockets ms =>
    obtain ⟨-, -, rfl⟩ := State.rehashSockets_frame hs
    exact .same rfl rfl rfl rfl

end Woeful
