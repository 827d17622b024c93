import Woeful.Effects

/-!
# The connection table

The invariant under everything else: every stored descriptor is open, and the
socket it stands for was made for exactly the manager and the stream id it is
stored under (`TableOk.owned`). A socket has one descriptor and was made for one
stream, so no two entries share a descriptor (`TableOk.unique`), and the search
of a deferred closure finds at most one entry (`holders_eq`).

`LoopOk` says what the loop thread may rely on at each of its program points; in
particular `force_close` and the closure call `close_stream` with ids that are
present. Both are kept by every step (`WellBound.step`), whatever the clients,
the targets, the watcher and the workers do.
-/

namespace Woeful

open Memory Transition

variable {env : Env} {s t : State}

/-! ## The invariant -/

/-- The table of managers, streams and descriptors is consistent. -/
structure TableOk (s : State) : Prop where
  /-- the watched sockets are the managers that exist -/
  watched : ∀ m, m ∈ s.watcher.watchedSockets ↔ m ∈ s.managers
  /-- each is watched once -/
  nodup : s.watcher.watchedSockets.Nodup
  /-- ids are not reused -/
  fresh : ∀ m ∈ s.managers, m < s.id
  /-- a stored descriptor is open, and stands for a socket made for that stream -/
  owned : ∀ m id fd, s.binding m id = some fd →
    ∃ n, s.kernel.sockAt fd = some n ∧ s.kernel.socks[n]? = some (m, id)

/-- A CONNECT between `socket()` and the insertion: its descriptor is open and
stored nowhere yet. -/
structure Connecting (s : State) (c : ConnectCall) (fd : Fd) : Prop where
  /-- the manager exists -/
  alive : c.manager ∈ s.managers
  /-- the descriptor stands for a socket made for this CONNECT -/
  opened : ∃ n, s.kernel.sockAt fd = some n ∧ s.kernel.socks[n]? = some (c.manager, c.streamId)
  /-- no stream holds it -/
  free : ∀ m id, s.binding m id ≠ some fd

/-- What the loop thread may rely on where it stands. -/
def LoopOk (s : State) : LoopState → Prop
  | .idle => True
  | .socket c => c.manager ∈ s.managers
  | .connect c fd => Connecting s c fd
  | .pushFd c fd => Connecting s c fd
  | .insert c fd => Connecting s c fd
  | .forceClose m => m ∈ s.managers
  | .closing m ids => m ∈ s.managers ∧ ids.Nodup ∧ ∀ id, id ∈ ids ↔ s.binding m id ≠ none
  | .closeFound p m id => s.binding m id = some p.fd
  | .decrement => True
  | .check => True
  | .sweep ms => ∀ m ∈ ms, m ∈ s.managers

/-- The table is consistent and the loop thread stands where it may. -/
structure WellBound (s : State) : Prop where
  /-- the table -/
  table : TableOk s
  /-- the loop thread -/
  loop : LoopOk s s.loop

/-! ## Consequences -/

/-- A descriptor is stored at most once. -/
theorem TableOk.unique (h : TableOk s) {m m' : Nat} {id id' : UInt32} {fd : Fd}
    (hb : s.binding m id = some fd) (hb' : s.binding m' id' = some fd) : m = m' ∧ id = id' := by
  obtain ⟨n, hn, ho⟩ := h.owned m id fd hb
  obtain ⟨n', hn', ho'⟩ := h.owned m' id' fd hb'
  obtain rfl : n = n' := Option.some.inj (hn.symm.trans hn')
  exact Prod.mk.inj (Option.some.inj (ho.symm.trans ho'))

/-- The socket a stream is bound to was made for it. -/
theorem TableOk.owner (h : TableOk s) {m : Nat} {id : UInt32} {fd : Fd}
    (hb : s.binding m id = some fd) :
    ∃ n, s.boundSock m id = some n ∧ s.kernel.sockAt fd = some n ∧
      s.kernel.socks[n]? = some (m, id) := by
  obtain ⟨n, hn, ho⟩ := h.owned m id fd hb
  refine ⟨n, ?_, hn, ho⟩
  rw [State.boundSock, hb]
  exact hn

theorem mem_holdersOf {fd : Fd} {m m' : Nat} {id : UInt32} :
    (m', id) ∈ s.holdersOf fd m ↔ m' = m ∧ s.binding m id = some fd := by
  rw [State.holdersOf, State.binding, State.stream]
  cases s.managers.lookup m with
  | none => simp
  | some manager =>
    rw [Option.bind_some, Option.map_eq_some_iff]
    constructor
    · intro hmem
      obtain ⟨e, he, heq⟩ := List.mem_map.mp hmem
      obtain ⟨rfl, rfl⟩ := Prod.mk.inj heq
      obtain ⟨he, hfd⟩ := List.mem_filter.mp he
      exact ⟨rfl, e.2, AList.mem_lookup_iff.mpr he, by simpa using hfd⟩
    · rintro ⟨rfl, d, hd, hfd⟩
      have he : (⟨id, d⟩ : (_ : UInt32) × SocketStreamData) ∈ manager.streams.entries :=
        AList.mem_lookup_iff.mp hd
      exact List.mem_map.mpr ⟨⟨id, d⟩, List.mem_filter.mpr ⟨he, by simpa using hfd⟩, rfl⟩

theorem mem_holders {fd : Fd} {m : Nat} {id : UInt32} :
    (m, id) ∈ s.holders fd ↔ m ∈ s.watcher.watchedSockets ∧ s.binding m id = some fd := by
  rw [State.holders, List.mem_flatMap]
  constructor
  · rintro ⟨m', hm', hmem⟩
    obtain ⟨rfl, hb⟩ := mem_holdersOf.mp hmem
    exact ⟨hm', hb⟩
  · rintro ⟨hm, hb⟩
    exact ⟨m, hm, mem_holdersOf.mpr ⟨rfl, hb⟩⟩

theorem nodup_holdersOf (fd : Fd) (m : Nat) : (s.holdersOf fd m).Nodup := by
  rw [State.holdersOf]
  cases s.managers.lookup m with
  | none => exact List.nodup_nil
  | some manager =>
    have hkeys : ((manager.streams.entries.filter (·.2.fd = fd)).map Sigma.fst).Nodup :=
      (List.filter_sublist.map Sigma.fst).nodup manager.streams.keys_nodup
    have hmap : ((manager.streams.entries.filter (·.2.fd = fd)).map fun e => (m, e.1)) =
        ((manager.streams.entries.filter (·.2.fd = fd)).map Sigma.fst).map (Prod.mk m) := by
      rw [List.map_map]
      rfl
    change ((manager.streams.entries.filter (·.2.fd = fd)).map fun e => (m, e.1)).Nodup
    rw [hmap]
    exact hkeys.map fun _ _ he => (Prod.mk.inj he).2

theorem nodup_holders (h : TableOk s) (fd : Fd) : (s.holders fd).Nodup := by
  rw [State.holders, List.nodup_flatMap]
  refine ⟨fun m _ => nodup_holdersOf fd m, h.nodup.imp ?_⟩
  intro m m' hne x hx hx'
  have hm := (mem_holdersOf.mp hx).1
  have hm' := (mem_holdersOf.mp hx').1
  exact hne (hm.symm.trans hm')

/-- The closure finds the one stream that holds the descriptor, or none. -/
theorem holders_eq (h : TableOk s) (fd : Fd) :
    (s.holders fd = [] ∧ ∀ m id, s.binding m id ≠ some fd) ∨
      ∃ m id, s.holders fd = [(m, id)] ∧ s.binding m id = some fd := by
  cases hl : s.holders fd with
  | nil =>
    refine Or.inl ⟨rfl, fun m id hb => ?_⟩
    have hm := (h.watched m).mpr (State.mem_managers_of_binding hb)
    have : (m, id) ∈ s.holders fd := mem_holders.mpr ⟨hm, hb⟩
    rw [hl] at this
    cases this
  | cons x xs =>
    obtain ⟨m, id⟩ := x
    have hb : s.binding m id = some fd := (mem_holders.mp (by rw [hl]; simp)).2
    refine Or.inr ⟨m, id, ?_, hb⟩
    cases xs with
    | nil => rfl
    | cons y ys =>
      obtain ⟨m', id'⟩ := y
      have hb' : s.binding m' id' = some fd := (mem_holders.mp (by rw [hl]; simp)).2
      obtain ⟨rfl, rfl⟩ := h.unique hb hb'
      have hnodup := nodup_holders h fd
      rw [hl] at hnodup
      exact absurd (by simp) (List.nodup_cons.mp hnodup).1

/-! ## Steps with the frame -/

theorem TableOk.congr (h : TableOk s) (hf : SameTable s t) : TableOk t where
  watched m := by rw [hf.watched, hf.alive, h.watched]
  nodup := by
    rw [hf.watched]
    exact h.nodup
  fresh m hm := by
    rw [hf.id]
    exact h.fresh m ((hf.alive m).mp hm)
  owned m id fd hb := by
    rw [hf.binding] at hb
    rw [hf.sockAt, hf.socks]
    exact h.owned m id fd hb

theorem Connecting.congr {c : ConnectCall} {fd : Fd} (h : Connecting s c fd)
    (hf : SameTable s t) : Connecting t c fd where
  alive := (hf.alive _).mpr h.alive
  opened := by
    rw [hf.sockAt, hf.socks]
    exact h.opened
  free m id := by
    rw [hf.binding]
    exact h.free m id

theorem LoopOk.congr {l : LoopState} (h : LoopOk s l) (hf : SameTable s t) : LoopOk t l := by
  cases l with
  | idle => trivial
  | socket c => exact (hf.alive _).mpr h
  | connect c fd => exact Connecting.congr h hf
  | pushFd c fd => exact Connecting.congr h hf
  | insert c fd => exact Connecting.congr h hf
  | forceClose m => exact (hf.alive _).mpr h
  | closing m ids =>
    refine ⟨(hf.alive _).mpr h.1, h.2.1, fun id => ?_⟩
    rw [hf.binding]
    exact h.2.2 id
  | closeFound p m id =>
    change t.binding m id = some p.fd
    rw [hf.binding]
    exact h
  | decrement => trivial
  | check => trivial
  | sweep ms => exact fun m hm => (hf.alive m).mpr (h m hm)

/-- A step with the frame that leaves the loop thread where it is. -/
theorem WellBound.congr (h : WellBound s) (hf : SameTable s t) (hl : t.loop = s.loop) :
    WellBound t where
  table := h.table.congr hf
  loop := by
    rw [hl]
    exact h.loop.congr hf

/-! ## Steps without it -/

theorem TableOk.construct (h : TableOk s) : TableOk (s.construct env) where
  watched m := by
    have hw := h.watched m
    rw [State.mem_construct]
    change m ∈ s.id :: s.watcher.watchedSockets.filter (· ≠ s.id) ↔ _
    rw [List.mem_cons, List.mem_filter]
    by_cases hm : m = s.id
    · simp [hm]
    · simp [hm, hw]
  nodup := by
    change (s.id :: s.watcher.watchedSockets.filter (· ≠ s.id)).Nodup
    exact List.nodup_cons.mpr ⟨by simp, h.nodup.filter _⟩
  fresh m hm := by
    rcases State.mem_construct.mp hm with rfl | hm
    · exact Nat.lt_succ_self _
    · exact Nat.lt_succ_of_lt (h.fresh m hm)
  owned m id fd hb := by
    rw [State.binding_construct (fun hm => Nat.lt_irrefl _ (h.fresh _ hm))] at hb
    exact h.owned m id fd hb

/-- A new socket touches no stored descriptor. -/
theorem TableOk.socket (h : TableOk s) {c : ConnectCall} {fd : Fd}
    (hfd : s.kernel.files fd = none) (l : LoopState) :
    TableOk { s with kernel := s.kernel.socket fd hfd (c.manager, c.streamId), loop := l } where
  watched := h.watched
  nodup := h.nodup
  fresh := h.fresh
  owned m id fd' hb := by
    obtain ⟨n, hn, ho⟩ := h.owned m id fd' hb
    refine ⟨n, (Kernel.sockAt_socket_old hfd (Kernel.sockAt_lt hn)).mpr hn, ?_⟩
    rw [Kernel.socks_socket, List.getElem?_append_left (Kernel.sockAt_lt hn)]
    exact ho

theorem Connecting.socket (h : TableOk s) {c : ConnectCall} {fd : Fd}
    (hc : c.manager ∈ s.managers) (hfd : s.kernel.files fd = none) (l : LoopState) :
    Connecting { s with kernel := s.kernel.socket fd hfd (c.manager, c.streamId), loop := l }
      c fd where
  alive := hc
  opened := by
    refine ⟨s.kernel.socks.length, Kernel.sockAt_socket_self hfd, ?_⟩
    rw [Kernel.socks_socket]
    exact List.getElem?_concat_length
  free m id hb := by
    obtain ⟨n, hn, -⟩ := h.owned m id fd hb
    exact Kernel.files_of_sockAt hn hfd

/-- Closing a descriptor that no stream holds. -/
theorem TableOk.closeFd (h : TableOk s) {fd : Fd} (hfree : ∀ m id, s.binding m id ≠ some fd) :
    TableOk (s.closeFd fd) where
  watched := h.watched
  nodup := h.nodup
  fresh := h.fresh
  owned m id fd' hb := by
    obtain ⟨n, hn, ho⟩ := h.owned m id fd' hb
    refine ⟨n, ?_, ho⟩
    have hne : fd' ≠ fd := fun he => hfree m id (he ▸ hb)
    exact (Kernel.sockAt_close_ne hne).trans hn

theorem TableOk.insertStream (h : TableOk s) {c : ConnectCall} {fd : Fd}
    (hc : Connecting s c fd) : TableOk (s.insertStream c fd) where
  watched m := (h.watched m).trans State.mem_modifyManager.symm
  nodup := h.nodup
  fresh m hm := h.fresh m (State.mem_modifyManager.mp hm)
  owned m id fd' hb := by
    rw [State.binding_insertStream hc.alive] at hb
    split at hb
    · rename_i hkey
      obtain ⟨rfl, rfl⟩ := hkey
      obtain rfl := Option.some.inj hb
      exact hc.opened
    · exact h.owned m id fd' hb

/-- Closing a stream that is present. -/
theorem TableOk.closeStream (h : TableOk s) {m : Nat} {id : UInt32} {fd : Fd} {removePoll : Bool}
    {origin : Origin} (hb : s.binding m id = some fd) :
    TableOk (s.closeStream env m id removePoll origin) where
  watched m' := by
    rw [State.mem_closeStream]
    exact (show _ ↔ m' ∈ s.watcher.watchedSockets by cases removePoll <;> rfl).trans (h.watched m')
  nodup := by
    cases removePoll <;> exact h.nodup
  fresh m' hm := by
    have := h.fresh m' (State.mem_closeStream.mp hm)
    cases removePoll <;> exact this
  owned m' id' fd' hb' := by
    rw [State.binding_closeStream] at hb'
    split at hb'
    · cases hb'
    · rename_i hkey
      obtain ⟨n, hn, ho⟩ := h.owned m' id' fd' hb'
      refine ⟨n, ?_, ?_⟩
      · have hne : fd' ≠ fd := fun he => hkey (h.unique (he ▸ hb') hb)
        rw [State.sockAt_closeStream, hb]
        exact (Kernel.sockAt_close_ne hne).trans hn
      · rw [State.socks_closeStream]
        exact ho

theorem TableOk.destruct (h : TableOk s) {m : Nat} : TableOk (s.destruct m) where
  watched m' := by
    rw [State.mem_destruct, ← h.watched m']
    change m' ∈ s.watcher.watchedSockets.filter (· ≠ m) ↔ _
    rw [List.mem_filter]
    simp [and_comm]
  nodup := h.nodup.filter _
  fresh m' hm := h.fresh m' (State.mem_destruct.mp hm).2
  owned m' id fd hb := by
    rw [State.binding_destruct] at hb
    split at hb
    · cases hb
    · exact h.owned m' id fd hb

theorem TableOk.initial (env : Env) : TableOk (State.initial env) where
  watched _ := Iff.rfl
  nodup := List.nodup_nil
  fresh m hm := absurd hm (AList.notMem_empty m)
  owned m id fd hb := by cases hb

/-! ## The ids of `force_close` -/

theorem mem_ids {m : Nat} {id : UInt32} :
    id ∈ (s.managers.lookup m).elim [] (·.streams.keys) ↔ s.binding m id ≠ none := by
  rw [State.binding, State.stream]
  cases s.managers.lookup m with
  | none => simp
  | some manager =>
    rw [Option.bind_some, Option.elim_some, ← AList.mem_keys, ← AList.lookup_isSome]
    cases manager.streams.lookup id <;> simp

theorem nodup_ids {m : Nat} : ((s.managers.lookup m).elim [] (·.streams.keys)).Nodup := by
  cases s.managers.lookup m with
  | none => exact List.nodup_nil
  | some manager => exact manager.streams.keys_nodup

/-- Closing one stream of the list leaves the others on it. -/
theorem LoopOk.closeNext {m : Nat} {id : UInt32} {ids : List UInt32}
    (h : LoopOk s (.closing m (id :: ids))) :
    LoopOk (s.closeNext env m id ids) (.closing m ids) := by
  obtain ⟨hm, hnodup, hids⟩ := h
  obtain ⟨hid, hnodup⟩ := List.nodup_cons.mp hnodup
  refine ⟨State.mem_closeStream.mpr hm, hnodup, fun id' => ?_⟩
  change _ ↔ (s.closeStream env m id true .server).binding m id' ≠ none
  rw [State.binding_closeStream]
  by_cases he : id' = id
  · simp [he, hid]
  · rw [if_neg (fun h => he h.2), ← hids id', List.mem_cons]
    simp [he]

/-! ## Every step -/

/-- **The loop thread keeps the table consistent.** -/
theorem WellBound.loopMove {l : LoopLabel} (hs : LoopMove env s l t) (h : WellBound s) :
    WellBound t := by
  obtain ⟨htab, hloop⟩ := h
  cases hs with
  | opened hi =>
    refine ⟨htab.construct, ?_⟩
    rw [show (s.construct env).loop = s.loop from rfl, hi]
    trivial
  | info hi hm hp hty => exact ⟨htab, hloop⟩
  | other hi hm hp hc hd => exact ⟨htab.congr (.endHandshake s _), hloop.congr (.endHandshake s _)⟩
  | connect hi hm hp hty hcm hid =>
    refine ⟨htab.congr ((SameTable.endHandshake s _).trans (.setLoop _ _)), ?_⟩
    change _ ∈ (s.endHandshake _).managers
    rw [(SameTable.endHandshake s _).alive, hcm]
    exact hm
  | refuse hi hm hp hty hcm hid =>
    exact ⟨htab.congr ((SameTable.endHandshake s _).trans (.refuse _ _)), trivial⟩
  | data hi hm hp hty =>
    refine ⟨htab.congr ((SameTable.endHandshake s _).trans (.handleData _ _ _)), ?_⟩
    rw [State.handleData_frame, show (s.endHandshake _).loop = s.loop from rfl, hi]
    trivial
  | drain hi hm =>
    refine ⟨htab.congr (.drain s _), ?_⟩
    rw [State.drain_frame, hi]
    trivial
  | close hi hm =>
    refine ⟨htab.congr (.forceClose s _), ?_⟩
    exact ((SameTable.forceClose s _).alive _).mpr hm
  | @deferred p rest hi hd =>
    have hpop : SameTable s { s with deferred := rest } := .of_eq rfl rfl rfl rfl
    have hsame : SameTable s ((s.holders p.fd).foldl (fun s h => s.deliver env p h)
        { s with deferred := rest }) := hpop.trans (.deliverAll _ p _)
    refine ⟨htab.congr (hsame.trans (.setLoop _ _)), ?_⟩
    refine LoopOk.congr ?_ (hsame.trans (.setLoop _ _))
    rw [State.afterDeliver]
    split
    · trivial
    · rename_i h hlast
      split
      · -- the stream to be closed is one that the search found
        exact (mem_holders.mp (List.mem_of_getLast? hlast)).2
      · trivial
  | socketFail hl => exact ⟨htab.congr (.refuse s _), trivial⟩
  | socket hfd hl =>
    rw [hl] at hloop
    exact ⟨htab.socket hfd _, Connecting.socket htab hloop hfd _⟩
  | connected hl =>
    rw [hl] at hloop
    exact ⟨htab.congr (.setLoop s _), Connecting.congr hloop (.setLoop s _)⟩
  | connectFail hl =>
    rw [hl] at hloop
    exact ⟨(htab.closeFd hloop.free).congr (.refuse _ _), trivial⟩
  | pushFd hl =>
    rw [hl] at hloop
    exact ⟨htab.congr (.pushFd s _ _ _), Connecting.congr hloop (.pushFd s _ _ _)⟩
  | insert hl hfree =>
    rw [hl] at hloop
    exact ⟨htab.insertStream hloop, trivial⟩
  | listIds hl hfree =>
    rw [hl] at hloop
    exact ⟨htab.congr (.setLoop s _), hloop, nodup_ids, fun id => mem_ids⟩
  | @closeNext m id ids hl hfree =>
    -- what was listed is still there, as only this loop closes streams of the manager
    rw [hl] at hloop
    have hid : s.binding m id ≠ none := (hloop.2.2 id).mp (List.mem_cons_self ..)
    obtain ⟨fd, hfd⟩ := Option.ne_none_iff_exists'.mp hid
    exact ⟨(htab.closeStream hfd).congr (.setLoop _ _), hloop.closeNext⟩
  | destruct hl => exact ⟨htab.destruct, trivial⟩
  | closeFound hl hfree =>
    rw [hl] at hloop
    exact ⟨(htab.closeStream hloop).congr (.setLoop _ _), trivial⟩
  | decrement hl => exact ⟨htab.congr (.of_eq rfl rfl rfl rfl), trivial⟩
  | check hl =>
    refine ⟨htab.congr (.of_eq rfl rfl rfl rfl), ?_⟩
    rw [State.checkQueue]
    dsimp only
    split
    · exact fun m hm => (htab.watched m).mp hm
    · trivial
  | sweepDone hl => exact ⟨htab.congr (.setLoop s _), trivial⟩
  | sweep hl =>
    rw [hl] at hloop
    refine ⟨htab.congr ((SameTable.updateStreams s _).trans (.setLoop _ _)), ?_⟩
    refine LoopOk.congr (l := .sweep _) ?_ ((SameTable.updateStreams s _).trans (.setLoop _ _))
    exact fun m hm => hloop m (List.mem_cons_of_mem _ hm)

/-- **Every step of the program keeps the table consistent.** -/
theorem WellBound.step {l : Label} (hs : s.step env l = some t) (h : WellBound s) :
    WellBound t := by
  cases l with
  | loop l => exact h.loopMove (loopStep_cases hs)
  | watch l => exact h.congr (watchStep_cases hs).sameTable (watchStep_cases hs).loop
  | worker l => exact h.congr (workerStep_cases hs).sameTable (workerStep_cases hs).loop
  | rehash m streams =>
    obtain ⟨hsame, hframe⟩ := State.rehash_frame hs
    exact h.congr hsame (by rw [hframe])
  | rehashSockets ms =>
    obtain ⟨hi, hperm, rfl⟩ := State.rehashSockets_frame hs
    refine ⟨⟨fun m => ?_, ?_, h.table.fresh, h.table.owned⟩, ?_⟩
    · exact hperm.mem_iff.trans (h.table.watched m)
    · exact hperm.nodup_iff.mpr h.table.nodup
    · rw [hi]
      trivial

theorem WellBound.initial (env : Env) : WellBound (State.initial env) :=
  ⟨.initial env, trivial⟩

/-- **The table is consistent in every state**, whatever the runs. -/
theorem WellBound.of_reaches {guard : State → Label → Prop} (h : (server env).Reaches guard s) :
    WellBound s :=
  h.invariant (.initial env) fun _ _ _ _ hst hw => hw.step hst

end Woeful
