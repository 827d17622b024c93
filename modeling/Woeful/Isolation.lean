import Woeful.Lib.Names
import Woeful.Bindings

/-!
# Isolation between targets and clients

A deferred closure captures a descriptor number and looks for the stream that
holds it when it runs. The number is a name in the sense of `Woeful.Lib.Names`:
a pass looks it up with every `read`, and the closure once more. As long as all
pending passes are `Current`, the stream a closure finds is bound to the very
socket its bytes were read from.

Only `socket()` gives a number to a new object. Where it returns one that a
pending pass has read from, the closure of that pass is misrouted
(`misrouted_counterexample`); where it never does, closures are isolated
(`closures_isolated`).
-/

namespace Woeful

open Memory Transition Names

variable {env : Env} {s t : State}

/-! ## What a pass refers to -/

/-- Whether a read leaves anything in the closure: bytes, or `to_close`. -/
def Read.matters (r : Read) : Bool := !r.result.data.isEmpty || r.result.closes

/-- The sockets a closure was built from. -/
def Pass.sources (p : Pass) : List (Option Nat) := (p.reads.filter Read.matters).map (·.sock)

/-- A pass as a reference to its descriptor. -/
def Pass.ref (p : Pass) : Ref Fd Nat := ⟨p.fd, p.sources⟩

/-- One more read looks the descriptor up once more, if at all. -/
theorem Pass.current_read {sockAt : Fd → Option Nat} {p : Pass} (h : Current sockAt p.ref)
    (result : ReadResult) : Current sockAt (p.read ⟨sockAt p.fd, result⟩).ref := by
  have hsources : (p.read ⟨sockAt p.fd, result⟩).sources = p.sources ++
      if Read.matters ⟨sockAt p.fd, result⟩ then [sockAt p.fd] else [] := by
    rw [Pass.sources, Pass.sources, Pass.read, List.filter_append, List.map_append,
      List.filter_singleton]
    cases Read.matters ⟨sockAt p.fd, result⟩ <;> rfl
  rw [Pass.ref, hsources]
  split
  · exact h.look
  · rw [List.append_nil]
    exact h

/-- What the watcher does to the passes: it starts one, or reads once more. -/
theorem WatchMove.mem_openPasses (hs : WatchMove env s t) {p : Pass} (hp : p ∈ t.openPasses) :
    p ∈ s.openPasses ∨ p.reads = [] ∨
      ∃ p' ∈ s.openPasses, ∃ result, p = p'.read ⟨s.kernel.sockAt p'.fd, result⟩ ∧
        t.log = s.log ++ [.read p'.fd ⟨s.kernel.sockAt p'.fd, result⟩] := by
  rw [State.openPasses, hs.loop] at hp
  rw [State.openPasses]
  cases hs.passMove with
  | keep hpend hpasses hlog => exact Or.inl (hpend ▸ hp)
  | start hpend hpasses hlog =>
    rw [hpend, ← List.append_assoc] at hp
    rcases List.mem_append.mp hp with hp | hp
    · exact Or.inl hp
    · obtain rfl := List.mem_singleton.mp hp
      exact Or.inr (Or.inl rfl)
  | @read p' r hr hpend hpend' hpasses hlog =>
    rw [hpend', ← List.append_assoc] at hp
    rw [hpend, ← List.append_assoc]
    rcases List.mem_append.mp hp with hp | hp
    · exact Or.inl (List.mem_append_left _ hp)
    · obtain rfl := List.mem_singleton.mp hp
      refine Or.inr (Or.inr ⟨p', List.mem_append_right _ (List.mem_singleton_self p'), r.result,
        ?_⟩)
      rw [← hr]
      exact ⟨rfl, hlog⟩

/-- The loop thread only takes passes away. -/
theorem ClosureMove.mem_openPasses (hs : ClosureMove env s t) {p : Pass} (hp : p ∈ t.openPasses) :
    p ∈ s.openPasses := by
  cases hs with
  | quiet hq => exact hq.openPasses ▸ hp
  | skip hi hd hfree heq =>
    subst heq
    rw [State.openPasses, State.pendingPasses, hi, hd]
    exact List.mem_cons_of_mem _ hp
  | @found p' rest m id hi hd hb heq =>
    subst heq
    rw [State.runFound_frame, State.openPasses, State.pendingPasses] at hp
    rw [State.openPasses, State.pendingPasses, hi, hd]
    rcases List.mem_append.mp hp with hp | hp
    · dsimp only at hp
      split at hp
      · obtain rfl := List.mem_singleton.mp hp
        exact List.mem_cons_self ..
      · cases hp
    · exact List.mem_cons_of_mem _ hp
  | close hl hb heq =>
    subst heq
    exact List.mem_append_right _ hp

/-- **Where the passes after a step come from**: only the watcher starts them and reads. -/
theorem step_mem_openPasses {l : Label} (hs : s.step env l = some t) (hw : WellBound s) {p : Pass}
    (hp : p ∈ t.openPasses) : p ∈ s.openPasses ∨ p.reads = [] ∨
      t.kernel.sockAt = s.kernel.sockAt ∧
        ∃ p' ∈ s.openPasses, ∃ result, p = p'.read ⟨s.kernel.sockAt p'.fd, result⟩ ∧
          t.log = s.log ++ [.read p'.fd ⟨s.kernel.sockAt p'.fd, result⟩] := by
  cases l with
  | loop l => exact Or.inl (((loopStep_cases hs).closureMove hw).mem_openPasses hp)
  | watch l =>
    have hmove := watchStep_cases hs
    exact (hmove.mem_openPasses hp).imp_right (Or.imp_right (⟨hmove.sameTable.sockAt, ·⟩))
  | worker l => exact Or.inl ((workerStep_cases hs).pendingPasses.2 ▸ hp)
  | rehash m streams =>
    rw [(State.rehash_frame hs).2] at hp
    exact Or.inl hp
  | rehashSockets ms =>
    obtain ⟨-, -, rfl⟩ := State.rehashSockets_frame hs
    exact Or.inl hp

/-! ## Isolation -/

/-- The condition on a step: `socket()` does not return a number under which a
pending pass has read anything. -/
def State.opensFresh (s : State) : Label → Bool
  | .loop (.socket (some fd)) => s.pendingPasses.all fun p => p.fd ≠ fd || p.sources.isEmpty
  | _ => true

/-- A frame that the closure of pass `p` sent on a stream of `m` whose descriptor
stood for `sock` is the business of that stream. -/
structure Isolated (socks : List (Nat × UInt32)) (m : Nat) (packet : WispPacket) (p : Pass)
    (sock : Option Nat) : Prop where
  /-- the stream is bound to a socket that was made for it -/
  own : ∃ n, sock = some n ∧ socks[n]? = some (m, packet.streamId)
  /-- whatever the closure was built from was read from this socket -/
  source : ∀ k ∈ p.sources, k = sock
  /-- the frame carries the bytes, or it closes because of one of the reads -/
  frame : packet.packetType = packetData ∧ packet.data = p.combinedBuffer ∨
    packet.packetType = packetClose ∧ ∃ r ∈ p.reads, r.result.closes = true ∧ r.sock = sock

/-- All frames that closures sent were isolated. -/
def ClosuresIsolated (s : State) : Prop :=
  ∀ m packet status p sock, .sent m packet status (.closure p sock) ∈ s.log →
    Isolated s.kernel.socks m packet p sock

/-- The invariant: pending passes are current, and what was sent was isolated. -/
structure Routed (s : State) : Prop where
  /-- a descriptor stands for nothing but what the passes read from -/
  current : AllCurrent s.kernel.sockAt (s.openPasses.map Pass.ref)
  /-- the closure that is about to close was told to -/
  closing : ∀ p, s.loop.pass? = some p → p.toClose = true
  /-- what was sent was isolated -/
  sent : ∀ m packet status p sock, .sent m packet status (.closure p sock) ∈ s.closureLog →
    Isolated s.kernel.socks m packet p sock

theorem Isolated.mono {socks socks' : List (Nat × UInt32)} {m : Nat} {packet : WispPacket}
    {p : Pass} {sock : Option Nat} (h : Isolated socks m packet p sock) (hle : socks <+: socks') :
    Isolated socks' m packet p sock := by
  obtain ⟨⟨n, hn, ho⟩, hsource, hframe⟩ := h
  obtain ⟨rest, rfl⟩ := hle
  refine ⟨⟨n, hn, ?_⟩, hsource, hframe⟩
  rw [List.getElem?_append_left (List.getElem?_eq_some_iff.mp ho).1]
  exact ho

/-- Only `socket()` makes a descriptor stand for something new. -/
theorem TableMove.keeps_sockAt {l : Label} (hs : TableMove s t l) (fd : Fd) :
    Keeps s.kernel.sockAt t.kernel.sockAt fd ∨
      l = .loop (.socket (some fd)) ∧ ∃ c, s.loop = .socket c := by
  cases hs with
  | same hsock => exact Or.inl (.of_eq (congrFun hsock fd))
  | @socket c fd' hl hnone hsock =>
    by_cases he : fd = fd'
    · exact Or.inr ⟨he ▸ rfl, c, hl⟩
    · exact Or.inl (.of_bind he hsock)
  | abandon _ hsock => exact Or.inl (.of_unbind _ hsock)
  | insert _ hsock => exact Or.inl (.of_eq (congrFun hsock fd))
  | close _ _ _ _ hsock => exact Or.inl (.of_unbind _ hsock)

/-- What the stream found by a closure is bound to, if the pass is current. -/
theorem Routed.bound {p : Pass} {m : Nat} {id : UInt32} (hw : WellBound s) (h : Routed s)
    (hp : p ∈ s.openPasses) (hb : s.binding m id = some p.fd) :
    (∃ n, s.boundSock m id = some n ∧ s.kernel.socks[n]? = some (m, id)) ∧
      ∀ k ∈ p.sources, k = s.boundSock m id := by
  obtain ⟨n, hbound, hn, ho⟩ := hw.table.owner hb
  refine ⟨⟨n, hbound, ho⟩, fun k hk => ?_⟩
  rw [hbound]
  exact h.current p.ref (List.mem_map_of_mem hp) n hn k hk

/-- The DATA of a closure. -/
theorem Routed.isolated_data {p : Pass} {m : Nat} {id : UInt32} (hw : WellBound s) (h : Routed s)
    (hp : p ∈ s.openPasses) (hb : s.binding m id = some p.fd) :
    Isolated s.kernel.socks m ⟨packetData, id, p.combinedBuffer⟩ p (s.boundSock m id) := by
  obtain ⟨hown, hsource⟩ := h.bound hw hp hb
  exact ⟨hown, hsource, Or.inl ⟨rfl, rfl⟩⟩

/-- The CLOSE of a closure. -/
theorem Routed.isolated_close {p : Pass} {m : Nat} {id : UInt32} {data : Bytes}
    (hw : WellBound s) (h : Routed s) (hl : s.loop.pass? = some p)
    (hb : s.binding m id = some p.fd) :
    Isolated s.kernel.socks m ⟨packetClose, id, data⟩ p (s.boundSock m id) := by
  have hp : p ∈ s.openPasses := List.mem_append_left _ (by rw [hl]; exact List.mem_singleton_self p)
  obtain ⟨hown, hsource⟩ := h.bound hw hp hb
  obtain ⟨r, hr, hcloses⟩ := List.any_eq_true.mp (p.toClose_eq ▸ h.closing p hl)
  refine ⟨hown, hsource, Or.inr ⟨rfl, r, hr, hcloses, hsource _ ?_⟩⟩
  refine List.mem_map_of_mem (List.mem_filter.mpr ⟨hr, ?_⟩)
  rw [Read.matters, hcloses, Bool.or_true]

theorem Routed.sent_mono {socks : List (Nat × UInt32)} (h : Routed s)
    (hle : s.kernel.socks <+: socks) (m : Nat) (packet : WispPacket) (status : SendStatus)
    (p : Pass) (sock : Option Nat)
    (he : .sent m packet status (.closure p sock) ∈ s.closureLog) :
    Isolated socks m packet p sock :=
  (h.sent m packet status p sock he).mono hle

/-- **A step whose `socket()` returns no number in use by a pass keeps closures
isolated.** -/
theorem Routed.step {l : Label} (hs : s.step env l = some t) (hw : WellBound s)
    (hg : s.opensFresh l = true) (h : Routed s) : Routed t := by
  have htable := step_tableMove hs hw
  -- no descriptor that a pass has read from gets a new meaning
  have hkeep : ∀ r ∈ s.openPasses.map Pass.ref, r.seen ≠ [] →
      Keeps s.kernel.sockAt t.kernel.sockAt r.name := by
    intro r hr hseen
    obtain ⟨p, hp, rfl⟩ := List.mem_map.mp hr
    rcases htable.keeps_sockAt p.fd with hkeeps | ⟨rfl, c, hl⟩
    · exact hkeeps
    · rw [State.openPasses, hl] at hp
      have hp := List.all_eq_true.mp hg p hp
      rcases (Bool.or_eq_true _ _).mp hp with hne | hnil
      · exact absurd rfl (of_decide_eq_true hne)
      · exact absurd (List.isEmpty_iff.mp hnil) hseen
  have hcurrent : AllCurrent t.kernel.sockAt (t.openPasses.map Pass.ref) := by
    refine h.current.step (fun r hr => ?_) hkeep
    obtain ⟨p, hp, rfl⟩ := List.mem_map.mp hr
    rcases step_mem_openPasses hs hw hp with hold | hnil | ⟨hsock, p', hp', result, rfl, -⟩
    · exact Or.inl (List.mem_map_of_mem hold)
    · refine Or.inr (.of_seen_nil ?_)
      simp [Pass.ref, Pass.sources, hnil]
    · rw [hsock]
      exact Or.inr (Pass.current_read (h.current p'.ref (List.mem_map_of_mem hp')) result)
  cases l with
  | watch l =>
    have hmove := watchStep_cases hs
    refine ⟨hcurrent, ?_, ?_⟩
    · rw [hmove.loop]
      exact h.closing
    · rw [hmove.closureLog]
      exact h.sent_mono htable.socks_prefix
  | worker l =>
    have hmove := workerStep_cases hs
    refine ⟨hcurrent, ?_, ?_⟩
    · rw [hmove.loop]
      exact h.closing
    · rw [hmove.closureLog]
      exact h.sent_mono htable.socks_prefix
  | rehash m streams =>
    have hframe := (State.rehash_frame hs).2
    refine ⟨hcurrent, ?_, ?_⟩
    · rw [hframe]
      exact h.closing
    · rw [show t.closureLog = s.closureLog by rw [hframe]; rfl]
      exact h.sent_mono htable.socks_prefix
  | rehashSockets ms =>
    obtain ⟨-, -, rfl⟩ := State.rehashSockets_frame hs
    exact ⟨hcurrent, h.closing, h.sent⟩
  | loop l =>
    have hmove := (loopStep_cases hs).closureMove hw
    have hmono := h.sent_mono htable.socks_prefix
    cases hmove with
    | quiet hq =>
      refine ⟨hcurrent, fun p hp => ?_, ?_⟩
      · rw [hq.after] at hp
        cases hp
      · rw [hq.closureLog]
        exact hmono
    | skip hi hd hfree heq =>
      subst heq
      exact ⟨hcurrent, (fun _ hp => absurd hp (Option.some_ne_none _).symm), hmono⟩
    | @found p rest m id hi hd hb heq =>
      subst heq
      refine ⟨hcurrent, fun p' hp' => ?_, ?_⟩
      · rw [State.runFound_frame] at hp'
        dsimp only at hp'
        split at hp'
        · rename_i hclose
          exact Option.some.inj hp' ▸ hclose
        · cases hp'
      · intro m' packet status p' sock he
        rw [State.closureLog_runFound] at he
        rcases List.mem_append.mp he with he | he
        · exact hmono _ _ _ _ _ he
        · obtain ⟨rfl, rfl, -, ⟨rfl, rfl⟩⟩ := by simpa using he
          have hp := State.mem_openPasses_of_deferred hd
          exact (h.isolated_data hw hp hb).mono htable.socks_prefix
    | @close p m id hl hb heq =>
      subst heq
      refine ⟨hcurrent, (fun _ hp => absurd hp (Option.some_ne_none _).symm), ?_⟩
      intro m' packet status p' sock he
      rw [State.closureLog_closeFound] at he
      rcases List.mem_append.mp he with he | he
      · exact hmono _ _ _ _ _ he
      · obtain ⟨rfl, rfl, -, ⟨rfl, rfl⟩⟩ := by simpa using he
        exact (h.isolated_close hw (by rw [hl]; rfl) hb).mono htable.socks_prefix

theorem Routed.initial (env : Env) : Routed (State.initial env) where
  current _ hr := nomatch hr
  closing _ hp := nomatch hp
  sent _ _ _ _ _ he := nomatch he

/-- **Isolation**, in every run in which `socket()` returns no number under which
a pending pass has read anything. -/
theorem closures_isolated (h : (server env).Reaches (fun s l => s.opensFresh l = true) s) :
    ClosuresIsolated s := by
  have hrouted : Routed s :=
    h.invariant_of (fun _ => WellBound.of_reaches) (.initial env)
      fun _ _ _ hg hst hw hr => hr.step hst hw hg
  intro m packet status p sock he
  exact hrouted.sent m packet status p sock (List.mem_filter.mpr ⟨he, rfl⟩)

/-- Bytes and then EOF from the target of a stream, and a CONNECT that is given the
number of its descriptor afterwards. -/
def reuseAfterEof : List Label :=
  [.loop .opened, .loop .opened] ++ connectLabels 0 1 7 ++
    passLabels 7 [.bytes [104, 105], .again] ++ passLabels 7 [.eof] ++
    [.loop .deferred, .loop .resume, .loop .resume, .loop .resume, .loop .resume, .loop .resume,
      .loop .deferred, .loop .resume] ++
    List.replicate 5 (.loop .resume) ++ connectLabels 1 5 7

theorem closures_isolated_reuseAfterEof :
    ClosuresIsolated ((server {}).final (fun s l => s.opensFresh l = true) reuseAfterEof) :=
  closures_isolated (System.reaches_final _ _ _ (by decide +kernel))

/-- Bytes are read for a client, its websocket closes, another client is given the
number of the descriptor, and only then the closure runs. -/
def reuseBeforeClosure : List Label :=
  [.loop .opened, .loop .opened] ++ connectLabels 0 1 7 ++
    passLabels 7 [.bytes [104, 105], .again] ++ closeLabels 0 1 ++ connectLabels 1 5 7 ++
    [.loop .deferred]

/-- **The misrouted closure**: the bytes read for stream 1 of the first client are
sent to the second client, on its stream 5. -/
theorem misrouted_counterexample :
    ¬ ∀ (env : Env) (s : State), (server env).Reachable s → ClosuresIsolated s := by
  intro h
  have hisolated := h {} _
    ((server {}).reaches_final (fun _ _ => True) reuseBeforeClosure
      (by decide +kernel))
  let p : Pass := ⟨7, [104, 105], false, 0,
    [⟨some 0, .bytes [104, 105]⟩, ⟨some 0, .again⟩], rfl, rfl⟩
  have hsent := hisolated 1 ⟨packetData, 5, [104, 105]⟩ .success p (some 1) (by decide +kernel)
  exact absurd (hsent.source (some 0) (by decide)) (by decide)

end Woeful
