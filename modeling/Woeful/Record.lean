import Woeful.Tracking

/-!
# The log is right about the bindings

Which socket a stream is bound to is said by two kinds of entries of the log alone
(`Live`): `handle_connect` stored it, and `close` did not close it since. `Recorded`
says that this agrees with the tables, in the runs of `Calm`, where no stream is stored
over another one.
-/

namespace Woeful

open Memory Transition Log

variable {env : Env} {s t : State} {m : Nat} {id : UInt32} {k : Nat}

/-! ## What the log says -/

/-- Stream `id` of manager `m` is bound to socket `k`: `handle_connect` stored it, and
the socket was not closed since. -/
def Live (log : List Event) (m : Nat) (id : UInt32) (k : Nat) : Prop :=
  .connected m id (some k) ∈ log ∧ ∀ fd, .closed fd (some k) ∉ log

/-- Socket `k` was closed. -/
def Gone (s : State) (k : Nat) : Prop :=
  k < s.kernel.socks.length ∧ ∀ fd, s.kernel.sockAt fd ≠ some k

/-- A socket does not come back. -/
theorem Gone.tableMove {l : Label} (hs : TableMove s t l) (h : Gone s k) : Gone t k := by
  obtain ⟨hlt, hnot⟩ := h
  refine ⟨Nat.lt_of_lt_of_le hlt hs.socks_prefix.length_le, fun fd hfd => ?_⟩
  cases hs with
  | same hsock => exact hnot fd (hsock ▸ hfd)
  | socket _ _ hsock =>
    rw [hsock, Function.update_apply] at hfd
    split at hfd
    · exact absurd hlt (by rw [Option.some.inj hfd]; exact Nat.lt_irrefl _)
    · exact hnot fd hfd
  | abandon _ hsock =>
    rw [hsock, Function.update_apply] at hfd
    split at hfd
    · cases hfd
    · exact hnot fd hfd
  | insert _ hsock => exact hnot fd (hsock ▸ hfd)
  | close _ _ _ _ hsock =>
    rw [hsock, Function.update_apply] at hfd
    split at hfd
    · cases hfd
    · exact hnot fd hfd

/-- What the log says is what the tables say. -/
structure Recorded (s : State) : Prop where
  /-- about the streams -/
  live : ∀ m id k, Live s.log m id k ↔ s.boundSock m id = some k
  /-- and about the sockets -/
  shut : ∀ fd k, .closed fd (some k) ∈ s.log → Gone s k

/-- An event that is not about a binding. -/
def Event.Unbinding (e : Event) : Prop :=
  (∀ m id sock, e ≠ .connected m id sock) ∧ ∀ fd sock, e ≠ .closed fd sock

theorem unbinding_sent {packet : WispPacket} {status : SendStatus} {origin : Origin} :
    (Event.sent m packet status origin).Unbinding :=
  ⟨fun _ _ _ => Event.noConfusion, fun _ _ => Event.noConfusion⟩

theorem Event.Idle.unbinding {bound : Nat → UInt32 → Option Fd} {e : Event} (h : e.Idle bound) :
    e.Unbinding := by
  refine ⟨?_, ?_⟩
  · rintro m id sock rfl
    exact h
  · rintro fd sock rfl
    exact h

/-- The log grows by nothing about the bindings. -/
theorem live_of_extends {log log' : List Event} (h : Extends Event.Unbinding log log') :
    Live log' m id k ↔ Live log m id k := by
  constructor
  · rintro ⟨hc, hn⟩
    exact ⟨(h.mem hc).resolve_right fun hp => hp.1 _ _ _ rfl, fun fd hfd => hn fd (h.subset hfd)⟩
  · rintro ⟨hc, hn⟩
    exact ⟨h.subset hc, fun fd hfd => hn fd ((h.mem hfd).resolve_right fun hp => hp.2 _ _ rfl)⟩

/-- A socket is closed. -/
theorem live_closed {log : List Event} {fd : Fd} {sock : Option Nat} :
    Live (log ++ [.closed fd sock]) m id k ↔ Live log m id k ∧ sock ≠ some k := by
  constructor
  · rintro ⟨hc, hn⟩
    refine ⟨⟨?_, fun fd' hfd' => hn fd' (List.mem_append_left _ hfd')⟩, ?_⟩
    · rcases List.mem_append.mp hc with hc | hc
      · exact hc
      · cases List.mem_singleton.mp hc
    · rintro rfl
      exact hn fd (List.mem_append_right _ (List.mem_singleton_self _))
  · rintro ⟨⟨hc, hn⟩, hne⟩
    refine ⟨List.mem_append_left _ hc, fun fd' hfd' => ?_⟩
    rcases List.mem_append.mp hfd' with hfd' | hfd'
    · exact hn fd' hfd'
    · exact hne (Event.closed.inj (List.mem_singleton.mp hfd')).2.symm

/-- A stream is stored. -/
theorem live_connected {log : List Event} {m₀ : Nat} {id₀ : UInt32} {k₀ : Nat}
    (hopen : ∀ fd, .closed fd (some k₀) ∉ log) :
    Live (log ++ [.connected m₀ id₀ (some k₀)]) m id k ↔
      Live log m id k ∨ m = m₀ ∧ id = id₀ ∧ k = k₀ := by
  have hclosed : ∀ fd sock, .closed fd sock ∈ log ++ [.connected m₀ id₀ (some k₀)] →
      .closed fd sock ∈ log := by
    intro fd sock hmem
    refine (List.mem_append.mp hmem).resolve_right fun hmem => ?_
    cases List.mem_singleton.mp hmem
  constructor
  · rintro ⟨hc, hn⟩
    have hn : ∀ fd, .closed fd (some k) ∉ log := fun fd hfd => hn fd (List.mem_append_left _ hfd)
    rcases List.mem_append.mp hc with hc | hc
    · exact Or.inl ⟨hc, hn⟩
    · obtain ⟨rfl, rfl, hk⟩ := Event.connected.inj (List.mem_singleton.mp hc)
      exact Or.inr ⟨rfl, rfl, Option.some.inj hk⟩
  · rintro (⟨hc, hn⟩ | ⟨rfl, rfl, rfl⟩)
    · exact ⟨List.mem_append_left _ hc, fun fd hfd => hn fd (hclosed _ _ hfd)⟩
    · exact ⟨List.mem_append_right _ (List.mem_singleton_self _),
        fun fd hfd => hopen fd (hclosed _ _ hfd)⟩

theorem log_closeFound {p : Pass} (hb : s.binding m id = some p.fd) :
    (s.closeFound env p m id).log = (s.log ++ [.sent m (closeFrame 0x02 id) (s.sendStatus env)
      (.closure p (s.boundSock m id))]) ++ [.closed p.fd (s.kernel.sockAt p.fd)] := by
  have hfd : ((s.stream m id).getD {}).fd = p.fd := by rw [State.fd_default, hb]; rfl
  rw [← hfd]
  rfl

/-- A descriptor is closed, and no stream but the one that held it is unbound. -/
theorem boundSock_of_close {fd : Fd}
    (hsock : t.kernel.sockAt = Function.update s.kernel.sockAt fd none)
    (hold : ∀ m id fd', t.binding m id = some fd' → s.binding m id = some fd')
    (hkeep : ∀ m id fd', fd' ≠ fd → s.binding m id = some fd' → t.binding m id = some fd') :
    t.boundSock m id = some k ↔ s.boundSock m id = some k ∧ s.kernel.sockAt fd ≠ some k := by
  rw [State.boundSock_eq_some, State.boundSock_eq_some, hsock]
  constructor
  · rintro ⟨fd', hb, hk⟩
    rw [Function.update_apply] at hk
    split at hk
    · cases hk
    · rename_i hne
      exact ⟨⟨fd', hold m id fd' hb, hk⟩, fun hfd => hne (Kernel.sockAt_inj hk hfd)⟩
  · rintro ⟨⟨fd', hb, hk⟩, hne⟩
    have hfd : fd' ≠ fd := fun he => hne (he ▸ hk)
    refine ⟨fd', hkeep m id fd' hfd hb, ?_⟩
    rw [Function.update_of_ne hfd]
    exact hk

/-- The socket of a descriptor that is closed is gone. -/
theorem gone_of_close {fd : Fd} (hsock : t.kernel.sockAt = Function.update s.kernel.sockAt fd none)
    (hsocks : t.kernel.socks = s.kernel.socks) (hk : s.kernel.sockAt fd = some k) : Gone t k := by
  refine ⟨hsocks ▸ Kernel.sockAt_lt hk, fun fd' hfd' => ?_⟩
  rw [hsock, Function.update_apply] at hfd'
  split at hfd'
  · cases hfd'
  · rename_i hne
    exact hne (Kernel.sockAt_inj hfd' hk)

namespace Recorded

/-- The log grows by nothing about the bindings, and streams are bound as they were. -/
theorem of_same (h : Recorded s) (hlog : Extends Event.Unbinding s.log t.log)
    (hbound : t.boundSock = s.boundSock) (hgone : ∀ k, Gone s k → Gone t k) : Recorded t where
  live m id k := by
    rw [live_of_extends hlog, hbound]
    exact h.live m id k
  shut fd k hfd := hgone k (h.shut fd k ((hlog.mem hfd).resolve_right fun hp => hp.2 _ _ rfl))

/-- A descriptor is closed, which the log says, among other things. -/
theorem of_close {fd : Fd} {log : List Event} (h : Recorded s)
    (hsock : t.kernel.sockAt = Function.update s.kernel.sockAt fd none)
    (hsocks : t.kernel.socks = s.kernel.socks)
    (hold : ∀ m id fd', t.binding m id = some fd' → s.binding m id = some fd')
    (hkeep : ∀ m id fd', fd' ≠ fd → s.binding m id = some fd' → t.binding m id = some fd')
    (hgone : ∀ k, Gone s k → Gone t k) (hbefore : Extends Event.Unbinding s.log log)
    (hafter : Extends Event.Unbinding (log ++ [.closed fd (s.kernel.sockAt fd)]) t.log) :
    Recorded t where
  live m id k := by
    rw [live_of_extends hafter, live_closed, live_of_extends hbefore, h.live,
      boundSock_of_close hsock hold hkeep]
  shut fd' k hmem := by
    rcases List.mem_append.mp ((hafter.mem hmem).resolve_right fun hp => hp.2 _ _ rfl)
      with hmem | hmem
    · exact hgone k (h.shut fd' k ((hbefore.mem hmem).resolve_right fun hp => hp.2 _ _ rfl))
    · exact gone_of_close hsock hsocks (Event.closed.inj (List.mem_singleton.mp hmem)).2.symm

/-- **Every step keeps the log right.** -/
theorem flowMove {l : Label} (hs : FlowMove env s t) (ht : TableMove s t l) (hw : WellBound s)
    (h : Recorded s) : Recorded t := by
  have hgone : ∀ k, Gone s k → Gone t k := fun k => Gone.tableMove ht
  obtain ⟨htab, hloop⟩ := hw
  cases hs with
  | still hstill =>
    refine h.of_same (hstill.log.mono fun _ => Event.Idle.unbinding) ?_ hgone
    funext m id
    rw [State.boundSock, State.boundSock, hstill.binding, hstill.kernel]
  | @socket c fd hfree hl heq =>
    subst heq
    refine h.of_same (.refl _ _) ?_ hgone
    funext m id
    change (s.binding m id).bind _ = (s.binding m id).bind _
    cases hb : s.binding m id with
    | none => rfl
    | some fd' =>
      obtain ⟨n, hn, -⟩ := htab.owned m id fd' hb
      refine Kernel.sockAt_socket_ne hfree fun he => ?_
      rw [he, Kernel.sockAt_of_none hfree] at hn
      cases hn
  | @abandon c fd hl hnone heq =>
    subst heq
    exact h.of_close (@Kernel.sockAt_close _ fd) rfl (fun _ _ _ => id) (fun _ _ _ _ => id) hgone
      (.refl _ _) (.snoc unbinding_sent)
  | @register c fd ok hl heq =>
    subst heq
    exact h.of_same (.refl _ _) (SameTable.pushFd s c fd ok).boundSock hgone
  | @store c fd hl hnone heq =>
    subst heq
    rw [hl] at hloop
    obtain ⟨k₀, hk₀, -⟩ := hloop.opened
    have hlog : (s.insertStream c fd).log =
        s.log ++ [.connected c.manager c.streamId (some k₀)] :=
      congrArg (fun sock => s.log ++ [Event.connected c.manager c.streamId sock]) hk₀
    have hopen : ∀ fd, .closed fd (some k₀) ∉ s.log :=
      fun fd' hfd' => (h.shut fd' k₀ hfd').2 fd hk₀
    refine ⟨fun m id k => ?_, fun fd' k hmem => hgone k (h.shut fd' k ?_)⟩
    · -- the id was unused, so what is live under it is the new socket only
      have hbound : (s.insertStream c fd).boundSock m id =
          if m = c.manager ∧ id = c.streamId then some k₀ else s.boundSock m id := by
        rw [State.boundSock, State.binding_insertStream hloop.alive]
        split
        · exact hk₀
        · rfl
      rw [hlog, live_connected hopen, h.live, hbound]
      split
      · rename_i he
        obtain ⟨rfl, rfl⟩ := he
        rw [State.boundSock, hnone]
        constructor
        · rintro (hk | ⟨-, -, rfl⟩)
          · cases hk
          · rfl
        · exact fun hk => Or.inr ⟨rfl, rfl, (Option.some.inj hk).symm⟩
      · rename_i hne
        exact or_iff_left fun he => hne ⟨he.1, he.2.1⟩
    · rw [hlog] at hmem
      refine (List.mem_append.mp hmem).resolve_right fun hmem => ?_
      cases List.mem_singleton.mp hmem
  | watch hmove =>
    refine h.of_same ?_ hmove.sameTable.boundSock hgone
    cases hmove with
    | read => exact .snoc ⟨fun _ _ _ => Event.noConfusion, fun _ _ => Event.noConfusion⟩
    | _ => exact .refl _ _
  | skip hi hd hfree heq =>
    subst heq
    exact h.of_same (.refl _ _) rfl hgone
  | found hi hd hb heq =>
    subst heq
    refine h.of_same ?_ State.sameTable_runFound.boundSock hgone
    rw [State.log_runFound]
    exact .snoc unbinding_sent
  | @close p m streamId hl hb heq =>
    subst heq
    have hbinding : ∀ m' id', (s.closeFound env p m streamId).binding m' id' =
        if m' = m ∧ id' = streamId then none else s.binding m' id' :=
      fun _ _ => State.binding_closeStream
    refine h.of_close (State.sockAt_closeFound hb) State.socks_closeStream
      (fun m' id' fd' hb' => ?_) (fun m' id' fd' hne hb' => ?_) hgone (.snoc unbinding_sent)
      (.of_eq (log_closeFound hb))
    · rw [hbinding] at hb'
      split at hb'
      · cases hb'
      · exact hb'
    · rw [hbinding, if_neg]
      · exact hb'
      · rintro ⟨rfl, rfl⟩
        exact hne (Option.some.inj (hb'.symm.trans hb))

theorem initial (env : Env) : Recorded (State.initial env) where
  live m id k := by
    constructor
    · rintro ⟨hc, -⟩
      cases hc
    · intro hb
      cases hb
  shut _ _ hmem := nomatch hmem

end Recorded

end Woeful
