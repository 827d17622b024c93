import Woeful.Frames

/-!
# The sweep at the end of a closure

A deferred closure ends by decrementing `send_queue_len`, and if that leaves it below
`MAX_QUEUE` it calls `update_streams` of every manager. `send_queue_len` is read again in
each of these calls while the watcher goes on incrementing it; but nothing decrements it
meanwhile, so a closure that ends with it below `MAX_QUEUE` has read it below `MAX_QUEUE`
every time. `Sweeping` says how far the sweep is: the managers that are still on its list
are as they were, and the others have been renewed.
-/

namespace Woeful

open Memory Transition

variable {env : Env} {s t u : State} {m : Nat} {l : Label}

/-! ## One manager -/

/-- The exhausted streams of `m` were renewed since `s`, each with one CONTINUE, and
nothing else was sent. -/
structure Renewed (m : Nat) (s t : State) : Prop where
  /-- the streams are those of `s`, renewed -/
  stream : ∀ id, t.stream m id = (s.stream m id).map SocketStreamData.renew
  /-- and what was sent tells which -/
  sent : ∃ frames, t.sentTo m = s.sentTo m ++ frames ∧
    (∀ p ∈ frames, ∃ id d, p = grantFrame id ∧ s.stream m id = some d ∧ d.buffer = 0) ∧
    ∀ id d, s.stream m id = some d → d.buffer = 0 → frames.count (grantFrame id) = 1

/-- Nothing happened to `m` since `s`. -/
structure Untouched (m : Nat) (s t : State) : Prop where
  /-- its streams are the same -/
  stream : t.stream m = s.stream m
  /-- nothing was sent -/
  sent : t.sentTo m = s.sentTo m

/-- What a whole sweep does to `m`: it passes a manager with backpressure over. -/
def Swept (m : Nat) (s t : State) : Prop :=
  if s.hasBackpressure m = true then Untouched m s t else Renewed m s t

theorem Untouched.trans (h : Untouched m s t) (h' : Untouched m t u) : Untouched m s u :=
  ⟨h'.stream.trans h.stream, h'.sent.trans h.sent⟩

theorem Swept.trans (h : Swept m s t) (h' : Untouched m t u) : Swept m s u := by
  rw [Swept] at h ⊢
  split
  · rename_i hb
    rw [if_pos hb] at h
    exact h.trans h'
  · rename_i hb
    rw [if_neg hb] at h
    refine ⟨fun id => ?_, ?_⟩
    · rw [h'.stream]
      exact h.stream id
    · rw [h'.sent]
      exact h.sent

theorem Untouched.setLoop (l : LoopState) : Untouched m s { s with loop := l } := ⟨rfl, rfl⟩

theorem Swept.of_untouched (h : Untouched m s t)
    (hback : t.hasBackpressure m = s.hasBackpressure m) (h' : Swept m t u) : Swept m s u := by
  rw [Swept] at h' ⊢
  rw [hback] at h'
  split
  · rename_i hb
    rw [if_pos hb] at h'
    exact h.trans h'
  · rename_i hb
    rw [if_neg hb] at h'
    obtain ⟨hstream, frames, hsent, hgrant, hcount⟩ := h'
    rw [h.stream] at hstream hgrant hcount
    exact ⟨hstream, frames, by rw [hsent, h.sent], hgrant, hcount⟩

/-- A manager that does not exist has nothing to renew. -/
theorem Swept.of_absent (hm : m ∉ s.managers) : Swept m s s := by
  have hnone : ∀ id, s.stream m id = none := by
    intro id
    by_contra hne
    obtain ⟨d, hd⟩ := Option.ne_none_iff_exists'.mp hne
    exact hm (State.mem_managers_of_stream hd)
  rw [Swept]
  split
  · exact ⟨rfl, rfl⟩
  · refine ⟨fun id => by rw [hnone id]; rfl, [], (List.append_nil _).symm, ?_, fun id d hd => ?_⟩
    · exact fun p hp => absurd hp List.not_mem_nil
    · rw [hnone id] at hd
      cases hd

/-- `update_streams` sweeps its manager, while `send_queue_len` is not too large. -/
theorem Swept.updateStreams (hq : s.watcher.sendQueueLen < maxQueue) :
    Swept m s (s.updateStreams env m) := by
  rw [Swept]
  split
  · rename_i hb
    rw [State.updateStreams_of_not_renews fun hr => by rw [hr.1] at hb; cases hb]
    exact ⟨rfl, rfl⟩
  · rename_i hb
    have hr : s.renews m := ⟨by simpa using hb, Nat.le_of_lt hq⟩
    refine ⟨fun id => ?_, ?_⟩
    · rw [State.stream_updateStreams hr, if_pos rfl]
    · obtain ⟨frames, hsent, hgrant, hcount⟩ := @State.sentTo_updateStreams env s m hr
      refine ⟨frames, hsent, fun p hp => ?_, hcount⟩
      obtain ⟨id, hid, d, hd, hzero⟩ := hgrant p hp
      exact ⟨id, d, hid, hd, hzero⟩

theorem Untouched.updateStreams {m' : Nat} (h : m' ≠ m) :
    Untouched m s (s.updateStreams env m') :=
  ⟨State.stream_updateStreams_ne h, State.sentTo_updateStreams_ne h⟩

/-! ## How far the sweep is -/

/-- Since `s` the managers have been swept that are not in `ms`. -/
structure Sweeping (s t : State) (ms : List Nat) : Prop where
  /-- no backpressure came or went -/
  back : ∀ m, t.hasBackpressure m = s.hasBackpressure m
  /-- what is on the list is to be done -/
  todo : ∀ m ∈ ms, Untouched m s t
  /-- and the rest is done -/
  done : ∀ m ∉ ms, Swept m s t
  /-- nothing is on the list twice -/
  nodup : ms.Nodup

/-- What is known after the closure has read `send_queue_len` for the first time, unless
the watcher has filled the queue meanwhile. -/
def AfterCheck (s t : State) : Prop :=
  match t.loop with
  | .check => t.watcher.watchedSockets = s.watcher.watchedSockets ∧
      (∀ m, t.hasBackpressure m = s.hasBackpressure m) ∧ ∀ m, Untouched m s t
  | .sweep ms => t.watcher.sendQueueLen < maxQueue → Sweeping s t ms
  | .idle => t.watcher.sendQueueLen < maxQueue → Sweeping s t []
  | _ => False

/-- The step changes nothing of what the sweep is about. -/
theorem AfterCheck.of_untouched (h : AfterCheck s t) (hloop : u.loop = t.loop)
    (hwatched : u.watcher.watchedSockets = t.watcher.watchedSockets)
    (hqueue : t.watcher.sendQueueLen ≤ u.watcher.sendQueueLen)
    (hback : ∀ m, u.hasBackpressure m = t.hasBackpressure m)
    (hsame : ∀ m, Untouched m t u) : AfterCheck s u := by
  have hkeep : ∀ {ms}, (t.watcher.sendQueueLen < maxQueue → Sweeping s t ms) →
      u.watcher.sendQueueLen < maxQueue → Sweeping s u ms := by
    intro ms hsweep hq
    obtain ⟨hb, htodo, hdone, hnodup⟩ := hsweep (Nat.lt_of_le_of_lt hqueue hq)
    exact ⟨fun m => (hback m).trans (hb m), fun m hm => (htodo m hm).trans (hsame m),
      fun m hm => (hdone m hm).trans (hsame m), hnodup⟩
  rw [AfterCheck] at h ⊢
  rw [hloop]
  split at h
  · obtain ⟨hw, hb, hall⟩ := h
    exact ⟨hwatched.trans hw, fun m => (hback m).trans (hb m), fun m => (hall m).trans (hsame m)⟩
  · exact hkeep h
  · exact hkeep h
  · exact h

/-- The loop thread starts the sweep, or goes on to the next manager. -/
theorem AfterCheck.loopStep {l : LoopLabel} (hs : t.loopStep env l = some u)
    (hbusy : t.loop ≠ .idle) (hstart : TableOk s) (h : AfterCheck s t) : AfterCheck s u := by
  rw [AfterCheck] at h
  split at h
  · -- every manager that exists is on the list
    rename_i hl
    obtain rfl : u = t.checkQueue := by
      cases l <;> simp [State.loopStep, State.resume, hl] at hs
      exact hs.symm
    obtain ⟨hw, hb, hall⟩ := h
    rw [AfterCheck, State.checkQueue]
    dsimp only
    by_cases hq : t.watcher.sendQueueLen < maxQueue
    · rw [if_pos hq]
      refine fun _ => ⟨hb, fun m _ => (hall m).trans (.setLoop _), fun m hm => ?_, ?_⟩
      · have hm : m ∉ s.managers := fun halive => hm (hw ▸ (hstart.watched m).mpr halive)
        exact (Swept.of_absent hm).trans ((hall m).trans (.setLoop _))
      · rw [hw]
        exact hstart.nodup
    · rw [if_neg hq]
      exact fun hq' => absurd hq' hq
  · rename_i ms hl
    obtain rfl : u = t.sweepNext env ms := by
      cases l <;> simp [State.loopStep, State.resume, hl] at hs
      exact hs.symm
    cases ms with
    | nil =>
      intro hq
      obtain ⟨hb, -, hdone, -⟩ := h hq
      exact ⟨hb, fun m hm => absurd hm List.not_mem_nil,
        fun m hm => (hdone m hm).trans (.setLoop _), List.nodup_nil⟩
    | cons m ms =>
      have hqueue : (t.updateStreams env m).watcher = t.watcher := by
        rw [State.updateStreams_frame]
      intro hq
      change (t.updateStreams env m).watcher.sendQueueLen < maxQueue at hq
      rw [hqueue] at hq
      obtain ⟨hb, htodo, hdone, hnodup⟩ := h hq
      obtain ⟨hnot, hnodup⟩ := List.nodup_cons.mp hnodup
      refine ⟨fun m' => State.hasBackpressure_updateStreams.trans (hb m'), fun m' hm' => ?_,
        fun m' hm' => ?_, hnodup⟩
      · have hne : m ≠ m' := fun he => hnot (he ▸ hm')
        exact ((htodo m' (List.mem_cons_of_mem _ hm')).trans (.updateStreams hne)).trans
          (.setLoop _)
      · by_cases he : m = m'
        · -- it was as at the start, and is swept now
          subst he
          exact (Swept.of_untouched (htodo m (List.mem_cons_self ..)) (hb m)
            (.updateStreams hq)).trans (.setLoop _)
        · have hmem : m' ∉ m :: ms := by
            rw [List.mem_cons, not_or]
            exact ⟨Ne.symm he, hm'⟩
          exact ((hdone m' hmem).trans (.updateStreams he)).trans (.setLoop _)
  · rename_i hl
    exact absurd hl hbusy
  · exact h.elim

/-- **Every step of the program** before the closure ends leads on. -/
theorem AfterCheck.step {l : Label} (hs : t.step env l = some u) (hbusy : t.loop ≠ .idle)
    (hstart : TableOk s) (h : AfterCheck s t) : AfterCheck s u := by
  cases l with
  | loop l => exact h.loopStep hs hbusy hstart
  | watch l =>
    have hmove := watchStep_cases hs
    refine h.of_untouched hmove.loop hmove.sameTable.watched hmove.sendQueueLen_le
      (fun m => State.hasBackpressure_of_managers hmove.managers) fun m => ⟨?_, hmove.sentTo⟩
    rw [State.stream_of_managers hmove.managers]
  | worker l =>
    have hmove := workerStep_cases hs
    refine h.of_untouched hmove.loop hmove.sameTable.watched ?_
      (fun m => State.hasBackpressure_of_managers hmove.managers) fun m => ⟨?_, hmove.sentTo⟩
    · rw [hmove.frame]
    · rw [State.stream_of_managers hmove.managers]
  | rehash m streams =>
    rw [State.step, State.rehash] at hs
    split at hs
    · cases hs
    · obtain ⟨⟨hi, -⟩, -⟩ := Option.ite_none_right_eq_some.mp hs
      exact absurd hi hbusy
  | rehashSockets ms =>
    obtain ⟨⟨hi, -⟩, -⟩ := Option.ite_none_right_eq_some.mp hs
    exact absurd hi hbusy

/-! ## The closure ends -/

/-- What a sweep from `s` to `t` leaves: credit for every stream of every manager without
backpressure, one CONTINUE for each of those that had none, and no other. -/
structure Replenished (s t : State) : Prop where
  /-- every stream has credit -/
  credit : ∀ m, t.hasBackpressure m = false → ∀ id d, t.stream m id = some d → 0 < d.buffer
  /-- the streams that had none were sent a CONTINUE, once; nothing else was sent -/
  sent : ∀ m, ∃ frames, t.sentTo m = s.sentTo m ++ frames ∧
    (∀ p ∈ frames, ∃ id d, p = grantFrame id ∧ s.hasBackpressure m = false ∧
      s.stream m id = some d ∧ d.buffer = 0) ∧
    (s.hasBackpressure m = false → ∀ id d, s.stream m id = some d → d.buffer = 0 →
      frames.count (grantFrame id) = 1)

theorem Sweeping.replenished (h : Sweeping s t []) : Replenished s t where
  credit m hb id d hd := by
    have hswept := h.done m List.not_mem_nil
    rw [Swept, ← h.back m, if_neg (by simp [hb])] at hswept
    rw [hswept.stream, Option.map_eq_some_iff] at hd
    obtain ⟨d', -, rfl⟩ := hd
    exact UInt32.pos_iff_ne_zero.mpr (Awaited.renew_ne_zero d')
  sent m := by
    have hswept := h.done m List.not_mem_nil
    rw [Swept] at hswept
    split at hswept
    · rename_i hb
      refine ⟨[], by rw [hswept.sent, List.append_nil], fun p hp => absurd hp List.not_mem_nil, ?_⟩
      rw [hb]
      exact fun hf => absurd hf (by decide)
    · rename_i hb
      obtain ⟨frames, hsent, hgrant, hcount⟩ := hswept.sent
      refine ⟨frames, hsent, fun p hp => ?_, fun _ => hcount⟩
      obtain ⟨id, d, hp, hd, hzero⟩ := hgrant p hp
      exact ⟨id, d, hp, by simpa using hb, hd, hzero⟩

/-- **Queue accounting and the sweep**, for any interleaving: `send_queue_len` counts the
closures that were announced and have not decremented it, so that there is one to take off
when a closure decrements it; and if the closure ends with `send_queue_len` below
`MAX_QUEUE`, its sweep has renewed all there was to renew. -/
theorem queue_and_sweep (h : (server env).Reachable s) :
    s.watcher.sendQueueLen = s.watcher.phase.counted + s.deferred.length + s.loop.counted ∧
    (s.loop = .decrement → 0 < s.watcher.sendQueueLen) ∧
    ∀ ls t, s.loop = .check → (server env).Run (fun u _ => u.loop ≠ .idle) s ls t →
      t.loop = .idle → t.watcher.sendQueueLen < maxQueue → Replenished s t := by
  have hw : WellBound s := .of_reaches h
  have hcount := sendQueueLen_eq h
  refine ⟨hcount, fun hl => ?_, fun ls t hl hrun hend hq => ?_⟩
  · rw [hcount, hl]
    exact Nat.succ_pos _
  · have hbegin : AfterCheck s s := by
      rw [AfterCheck, hl]
      exact ⟨rfl, fun _ => rfl, fun _ => ⟨rfl, rfl⟩⟩
    have hafter : AfterCheck s t :=
      hrun.preserves (fun _ _ _ hbusy hst ha => ha.step hst hbusy hw.table) hbegin
    rw [AfterCheck, hend] at hafter
    exact (hafter hq).replenished

/-- A download, and an upload that uses up its credit before the closure of the download
reads `send_queue_len`. -/
def exhaustedAtCheck : List Label :=
  [.loop .opened] ++ connectLabels 0 1 7 ++ passLabels 7 [.bytes [104, 105], .again] ++
    List.replicate 127 (dataLabel 0 1 [0]) ++ [.loop .deferred, .loop .resume]

theorem queue_and_sweep_exhaustedAtCheck :
    Replenished ((server {}).final (fun _ _ => True) exhaustedAtCheck)
      (((server {}).replay (fun u _ => u.loop ≠ .idle)
        ((server {}).final (fun _ _ => True) exhaustedAtCheck)
        [.loop .resume, .watch (.wait []), .loop .resume, .loop .resume]).getD
          ((server {}).final (fun _ _ => True) exhaustedAtCheck)) :=
  (queue_and_sweep (System.reaches_final _ _ _ (by decide +kernel))).2.2 _ _ (by decide +kernel)
    (System.Run.of_replay_getD (by decide +kernel)) (by decide +kernel) (by decide +kernel)

end Woeful
