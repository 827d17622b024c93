import Woeful.Bindings

/-!
# Who owns a descriptor

Every open socket is either held by a stream or in the hands of the CONNECT in
progress (`Held`). Of all steps only one can lose a descriptor: the insertion of
a stream over another one, which overwrites the only place its descriptor is
kept in. `State.insertsFresh` says that a step does not do that; in runs of such
steps nothing leaks (`no_leak`), and `leak_counterexample` is what a client that
sends CONNECT twice on one id gets.
-/

namespace Woeful

open Memory Transition

variable {env : Env} {s t : State}

/-- The condition on a step: a stream is stored only under an id that is not in
`streams`. -/
def State.insertsFresh (s : State) : Label → Bool
  | .loop .resume =>
    match s.loop with
    | .insert c _ => (s.stream c.manager c.streamId).isNone
    | _ => true
  | _ => true

/-- Every open socket has an owner. -/
def Held (s : State) : Prop :=
  ∀ fd n, s.kernel.sockAt fd = some n → (∃ m id, s.binding m id = some fd) ∨ s.loop.fd? = some fd

/-- **A step that overwrites no stream loses no descriptor.** -/
theorem Held.step {l : Label} (hs : s.step env l = some t) (hw : WellBound s)
    (hg : s.insertsFresh l = true) (h : Held s) : Held t := by
  intro fd n hfd
  cases step_tableMove hs hw with
  | same hsock hsocks hbind hloop =>
    rw [hbind, hloop]
    rw [hsock] at hfd
    exact h fd n hfd
  | socket hl hnone hsock hsocks hbind hloop =>
    rw [hsock, Function.update_apply] at hfd
    split at hfd
    · rename_i he
      exact Or.inr (he ▸ hloop)
    · rw [hbind]
      refine Or.inl ((h fd n hfd).resolve_right ?_)
      rw [hl]
      exact Option.some_ne_none fd ∘ Eq.symm
  | abandon hl hsock hsocks hbind hloop =>
    rw [hsock, Function.update_apply] at hfd
    split at hfd
    · cases hfd
    · rename_i hne
      rw [hbind]
      refine Or.inl ((h fd n hfd).resolve_right fun he => hne ?_)
      exact Option.some.inj (he.symm.trans hl)
  | @insert c fd' hl hsock hsocks hbind hloop =>
    rw [hsock] at hfd
    rcases h fd n hfd with ⟨m, id, hb⟩ | he
    · refine Or.inl ⟨m, id, ?_⟩
      rw [hbind, if_neg]
      · exact hb
      · rintro ⟨rfl, rfl⟩
        -- the guard: the entry that held `fd` would be the overwritten one
        rw [State.insertsFresh, hl] at hg
        rw [State.binding, Option.isNone_iff_eq_none.mp hg] at hb
        cases hb
    · rw [hl] at he
      obtain rfl := Option.some.inj he
      refine Or.inl ⟨c.manager, c.streamId, ?_⟩
      rw [hbind, if_pos ⟨rfl, rfl⟩]
  | @close m id fd' hc hb hfree hl hsock hsocks hbind hloop =>
    rw [hsock, Function.update_apply] at hfd
    split at hfd
    · cases hfd
    · rename_i hne
      rw [← hl] at hloop
      rcases h fd n hfd with ⟨m', id', hb'⟩ | he
      · refine Or.inl ⟨m', id', ?_⟩
        rw [hbind, if_neg]
        · exact hb'
        · rintro ⟨rfl, rfl⟩
          exact hne (Option.some.inj (hb'.symm.trans hb))
      · exact Or.inr (hloop ▸ he)

theorem Held.initial (env : Env) : Held (State.initial env) := by
  intro fd n h
  have hfiles := Kernel.sockAt_eq_some.mp h
  change Function.update (fun _ => none) env.pipes0 (some File.pipe) fd = _ at hfiles
  rw [Function.update_apply] at hfiles
  split at hfiles <;> cases hfiles

/-! ## No leak -/

/-- What having no leak means of a state. -/
structure NoLeak (s : State) : Prop where
  /-- between two events, an open socket is the descriptor of a stream -/
  held : s.loop = .idle → ∀ fd n, s.kernel.sockAt fd = some n →
    ∃ m ∈ s.managers, ∃ id d, s.stream m id = some d ∧ d.fd = fd
  /-- once a websocket's close handler has run, every socket made for it is closed -/
  gone : ∀ m < s.id, m ∉ s.managers → ∀ fd n id, s.kernel.socks[n]? = some (m, id) →
    s.kernel.sockAt fd ≠ some n
  /-- and what is registered with epoll is the wake pipe or the descriptor of a stream -/
  registered : s.loop = .idle → ∀ fd ∈ s.kernel.epoll, s.kernel.files fd = some .pipe ∨
    ∃ m ∈ s.managers, ∃ id d, s.stream m id = some d ∧ d.fd = fd

theorem NoLeak.of_held (hw : WellBound s) (h : Held s) : NoLeak s := by
  have hheld : s.loop = .idle → ∀ fd n, s.kernel.sockAt fd = some n →
      ∃ m ∈ s.managers, ∃ id d, s.stream m id = some d ∧ d.fd = fd := by
    intro hi fd n hfd
    rcases h fd n hfd with ⟨m, id, hb⟩ | he
    · obtain ⟨d, hd, hdfd⟩ := State.binding_eq_some.mp hb
      exact ⟨m, State.mem_managers_of_binding hb, id, d, hd, hdfd⟩
    · rw [hi] at he
      cases he
  refine ⟨hheld, ?_, ?_⟩
  · intro m _ hm fd n id howner hfd
    have halive : ∀ m' id', s.kernel.socks[n]? = some (m', id') → m' ∈ s.managers → False := by
      intro m' id' howner' hm'
      obtain ⟨rfl, -⟩ := Prod.mk.inj (Option.some.inj (howner.symm.trans howner'))
      exact hm hm'
    have hconnecting : ∀ c, Connecting s c fd → False := by
      intro c hc
      obtain ⟨n', hn', ho'⟩ := hc.opened
      obtain rfl : n = n' := Option.some.inj (hfd.symm.trans hn')
      exact halive _ _ ho' hc.alive
    rcases h fd n hfd with ⟨m', id', hb⟩ | he
    · obtain ⟨n', hn', ho'⟩ := hw.table.owned m' id' fd hb
      obtain rfl : n = n' := Option.some.inj (hfd.symm.trans hn')
      exact halive _ _ ho' (State.mem_managers_of_binding hb)
    · have hloop := hw.loop
      cases hl : s.loop with
      | connect c fd' | pushFd c fd' | insert c fd' =>
        rw [hl] at he hloop
        obtain rfl := Option.some.inj he
        exact hconnecting c hloop
      | _ =>
        rw [hl] at he
        cases he
  · intro hi fd hfd
    cases hf : s.kernel.files fd with
    | none => exact absurd hf (s.kernel.epoll_open fd hfd)
    | some file =>
      cases file with
      | pipe => exact Or.inl rfl
      | sock n => exact Or.inr (hheld hi fd n (Kernel.sockAt_eq_some.mpr hf))

/-- **No descriptor leak**, in every run in which no CONNECT stores its stream
over another one. -/
theorem no_leak (h : (server env).Reaches (fun s l => s.insertsFresh l = true) s) : NoLeak s := by
  have hheld : Held s :=
    h.invariant_of (fun _ => WellBound.of_reaches) (.initial env)
      fun _ _ _ hg hst hw hh => hh.step hst hw hg
  exact .of_held (.of_reaches h) hheld

/-- Two streams of one client, and the second closed by its target. -/
def twoStreams : List Label :=
  [.loop .opened] ++ connectLabels 0 1 7 ++ connectLabels 0 2 8 ++ passLabels 8 [.eof] ++
    [.loop .deferred, .loop .resume, .loop .resume, .loop .resume]

theorem no_leak_twoStreams :
    NoLeak ((server {}).final (fun s l => s.insertsFresh l = true) twoStreams) :=
  no_leak (System.reaches_final _ _ _ (by decide +kernel))

/-- CONNECT twice on one id, then the websocket closes. -/
def overwrite : List Label :=
  [.loop .opened] ++ connectLabels 0 1 7 ++ connectLabels 0 1 8 ++ closeLabels 0 1

/-- **The leak**: a stream stored over another one leaves the descriptor of the
first open for ever, here 7. -/
theorem leak_counterexample : ¬ ∀ (env : Env) (s : State), (server env).Reachable s → NoLeak s := by
  intro h
  have hleak := h {} _
    ((server {}).reaches_final (fun _ _ => True) overwrite
      (by decide +kernel))
  exact hleak.gone 0 (by decide +kernel) (by decide +kernel) 7 0 1 (by decide +kernel)
    (by decide +kernel)

end Woeful
