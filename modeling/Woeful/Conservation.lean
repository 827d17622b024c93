import Woeful.Client

/-!
# Credit is conserved

The invariant of a session: every stream id stands somewhere (`Phase`), the first
frame of the websocket is the CONTINUE of the constructor, and every CONTINUE is for
a whole window. `Advance` says what a step of the server does to the phases, whether
it takes a message of the client or not; the client's own steps are the transitions
of `Phase` themselves.
-/

namespace Woeful

open Memory Transition Window

variable {env : Env} {s t : State} {σ τ : Session} {m : Nat} {id : UInt32}

/-! ## The greeting -/

/-- A websocket is sent the initial CONTINUE when it opens, and nothing before. -/
structure Greeted (m : Nat) (s : State) : Prop where
  /-- it is not open yet -/
  before : s.id ≤ m → s.sentTo m = []
  /-- it was opened -/
  after : m < s.id → (s.sentTo m).head? = some (grantFrame 0)

namespace Greeted

theorem of_append {frames : List WispPacket} (h : Greeted m s) (hid : t.id = s.id)
    (hsent : t.sentTo m = s.sentTo m ++ frames) (hframes : s.id ≤ m → frames = []) :
    Greeted m t where
  before hm := by
    rw [hid] at hm
    rw [hsent, h.before hm, hframes hm]
    rfl
  after hm := by
    rw [hid] at hm
    rw [hsent, List.head?_append, h.after hm]
    rfl

theorem construct (h : Greeted m s) : Greeted m (s.construct env) := by
  by_cases hm : s.id = m
  · subst hm
    have hsent : (s.construct env).sentTo s.id = s.sentTo s.id ++ [grantFrame 0] :=
      State.sentTo_send_self (s := { s with id := s.id + 1, managers := _ })
    refine ⟨fun hle => absurd hle (Nat.not_succ_le_self s.id), fun _ => ?_⟩
    rw [hsent, h.before (Nat.le_refl _)]
    rfl
  · have hsent : (s.construct env).sentTo m = s.sentTo m :=
      State.sentTo_send_ne (s := { s with id := s.id + 1, managers := _ }) hm
    refine ⟨fun hle => ?_, fun hlt => ?_⟩
    · rw [hsent]
      exact h.before (Nat.le_of_succ_le hle)
    · rw [hsent]
      exact h.after (Nat.lt_of_le_of_ne (Nat.le_of_lt_succ hlt) (Ne.symm hm))

theorem ne_nil (h : Greeted m s) (hm : m < s.id) : s.sentTo m ≠ [] := by
  intro hnil
  have hhead := h.after hm
  rw [hnil] at hhead
  cases hhead

theorem initial (env : Env) : Greeted m (State.initial env) :=
  ⟨fun _ => rfl, fun h => absurd h (Nat.not_lt_zero m)⟩

end Greeted

/-- Only opening a websocket uses an id up. -/
theorem LoopMove.id_eq {l : LoopLabel} (hs : LoopMove env s l t) :
    t.id = s.id ∨ t = s.construct env := by
  cases hs with
  | opened hi => exact .inr rfl
  | data hi hm hp hty =>
    rw [State.handleData_frame]
    exact .inl rfl
  | drain hi hm =>
    rw [State.drain_frame]
    exact .inl rfl
  | deferred hi hd =>
    rw [State.foldl_deliver_frame]
    exact .inl rfl
  | sweep hl =>
    rw [State.updateStreams_frame]
    exact .inl rfl
  | _ => exact .inl rfl

theorem step_id {l : Label} (hs : s.step env l = some t) : t.id = s.id ∨ t = s.construct env := by
  cases l with
  | loop l => exact (loopStep_cases hs).id_eq
  | watch l => exact .inl (watchStep_cases hs).sameTable.id
  | worker l => exact .inl (workerStep_cases hs).sameTable.id
  | rehash m' streams =>
    rw [(State.rehash_frame hs).2]
    exact .inl rfl
  | rehashSockets ms =>
    obtain ⟨-, -, rfl⟩ := State.rehashSockets_frame hs
    exact .inl rfl

/-! ## What the server's steps mean for the phases -/

/-- A CONTINUE is for a whole window. -/
def WholeWindow (p : WispPacket) : Prop :=
  p.packetType = packetContinue → p.data = ContinuePacket.serialize bufferCount

/-- What a step of the server sends to the client, and where it leaves each stream.
The greeting concerns no stream. -/
structure Advance (m : Nat) (s t : State) (up up' frames : List WispPacket) : Prop where
  /-- these are the frames it sends -/
  sent : t.sentTo m = s.sentTo m ++ frames
  /-- only an open websocket is sent any, unless it opens now -/
  alive : frames ≠ [] → m < s.id ∨ s.id = m ∧ t.id = m + 1 ∧ frames = [grantFrame 0]
  /-- each CONTINUE is for a whole window -/
  whole : ∀ p ∈ frames, WholeWindow p
  /-- the phases go on -/
  phase : ∀ {id client down},
    Phase id (s.stream m id) (s.callOf m) client up down →
    Phase id (t.stream m id) (t.callOf m) client up' (down ++ if m < s.id then frames else [])

theorem wholeWindow_grantFrame : WholeWindow (grantFrame id) := fun _ => rfl

theorem wholeWindow_of_type_ne {p : WispPacket} (h : p.packetType ≠ packetContinue) :
    WholeWindow p :=
  fun hp => absurd hp h

theorem is_closeFrame {reason : UInt8} : (closeFrame reason id).is packetClose id = true :=
  WispPacket.is_iff.mpr ⟨rfl, rfl⟩

/-- A frame about one stream says nothing about another. -/
theorem Silent.of_id_ne {p : WispPacket} (h : p.streamId ≠ id) : Silent id [p] := by
  intro q hq
  obtain rfl := List.mem_singleton.mp hq
  exact ⟨WispPacket.is_of_id_ne h, WispPacket.is_of_id_ne h⟩

/-- The grant frames of `update_streams`, as one stream sees them. -/
theorem countP_grantFrame {frames : List WispPacket}
    (hgrant : ∀ p ∈ frames, ∃ id, p = grantFrame id) :
    frames.countP (·.is packetContinue id) = frames.count (grantFrame id) := by
  rw [List.count]
  refine List.countP_congr fun p hp => ?_
  obtain ⟨id', rfl⟩ := hgrant p hp
  rw [WispPacket.is_iff, beq_iff_eq]
  constructor
  · rintro ⟨-, h⟩
    exact congrArg grantFrame h
  · intro h
    exact ⟨rfl, congrArg WispPacket.streamId h⟩

/-- A step of the server without a message of the client. -/
theorem ClientMove.advance {up : List WispPacket} (h : ClientMove m s t) (hw : WellBound s) :
    ∃ frames, Advance m s t up up frames := by
  have hopen : ∀ {m}, m ∈ s.managers → m < s.id := fun hm => hw.table.fresh _ hm
  cases h with
  | @quiet frames hstream hcall hsent hdata halive =>
    have hne : ∀ {type : UInt8}, packetData ≠ type → ∀ p ∈ frames, p.packetType ≠ type := by
      intro type h p hp he
      exact h ((hdata p hp).symm.trans he)
    refine ⟨frames, hsent, fun hf => .inl (hopen (halive hf)),
      fun p hp => wholeWindow_of_type_ne (hne (by decide) p hp), fun {id client down} hphase => ?_⟩
    rw [hstream, hcall]
    refine hphase.append_down fun p hp => ?_
    split at hp
    · exact ⟨WispPacket.is_of_type_ne (hne (by decide) p hp),
        WispPacket.is_of_type_ne (hne (by decide) p hp)⟩
    · cases hp
  | opened hid hid' hstream hcall hsent =>
    refine ⟨_, hsent, fun _ => .inr ⟨hid, hid', rfl⟩, ?_, fun {id client down} hphase => ?_⟩
    · intro p hp
      obtain rfl := List.mem_singleton.mp hp
      exact wholeWindow_grantFrame
    · rw [if_neg (hid ▸ Nat.lt_irrefl _), List.append_nil, hstream, hcall]
      exact hphase
  | @refuse c reason halive hcall hcall' hstream hsent =>
    refine ⟨_, hsent, fun _ => .inl (hopen halive), ?_, fun {id client down} hphase => ?_⟩
    · intro p hp
      obtain rfl := List.mem_singleton.mp hp
      exact wholeWindow_of_type_ne (show packetClose ≠ packetContinue by decide)
    · rw [if_pos (hopen halive), hstream, hcall']
      rw [hcall] at hphase
      by_cases hid : c.streamId = id
      · exact hphase.refused hid (hid ▸ is_closeFrame)
      · refine (hphase.change_call ?_ notCalling_none).append_down (.of_id_ne hid)
        rintro c' hc
        exact Option.some.inj hc ▸ hid
  | @insert c fd halive hcall hcall' hstream hsent =>
    refine ⟨[], by rw [hsent, List.append_nil], fun h => absurd rfl h, (fun _ h => nomatch h),
      fun {id client down} hphase => ?_⟩
    rw [ite_self, List.append_nil, hstream, hcall']
    rw [hcall] at hphase
    by_cases hid : id = c.streamId
    · rw [if_pos hid]
      exact hphase.stored hid.symm
    · rw [if_neg hid]
      refine hphase.change_call ?_ notCalling_none
      rintro c' hc
      exact Option.some.inj hc ▸ Ne.symm hid
  | @close id₀ reason hpresent hcall hstream hsent =>
    have halive : m < s.id := by
      obtain ⟨d, hd⟩ := Option.ne_none_iff_exists'.mp hpresent
      exact hopen (State.mem_managers_of_stream hd)
    refine ⟨_, hsent, fun _ => .inl halive, ?_, fun {id client down} hphase => ?_⟩
    · intro p hp
      obtain rfl := List.mem_singleton.mp hp
      exact wholeWindow_of_type_ne (show packetClose ≠ packetContinue by decide)
    · rw [if_pos halive, hstream, hcall]
      by_cases hid : id = id₀
      · subst hid
        obtain ⟨d, hd⟩ := Option.ne_none_iff_exists'.mp hpresent
        rw [hd] at hphase
        rw [if_pos rfl]
        exact hphase.close is_closeFrame
      · rw [if_neg hid]
        exact hphase.append_down (.of_id_ne (Ne.symm hid))
  | @renew frames halive hcall hstream hsent hgrant hcount =>
    have hgrants : ∀ p ∈ frames, ∃ id, p = grantFrame id := by
      intro p hp
      obtain ⟨id, hid, -⟩ := hgrant p hp
      exact ⟨id, hid⟩
    refine ⟨frames, hsent, fun _ => .inl (hopen halive), ?_, fun {id client down} hphase => ?_⟩
    · intro p hp
      obtain ⟨id, rfl⟩ := hgrants p hp
      exact wholeWindow_grantFrame
    · rw [if_pos (hopen halive), hstream, hcall]
      refine hphase.renew ?_ ?_
      · intro p hp
        obtain ⟨id', rfl⟩ := hgrants p hp
        exact WispPacket.is_of_type_ne (show packetContinue ≠ packetClose by decide)
      · -- one frame for each exhausted stream, so `id` gets one exactly if it is exhausted
        rw [countP_grantFrame hgrants]
        by_cases hz : ∃ d, s.stream m id = some d ∧ d.buffer = 0
        · obtain ⟨d, hd, hzero⟩ := hz
          rw [hcount id d hd hzero, hd]
          simp [hzero]
        · rw [List.count_eq_zero.mpr ?_, if_neg ?_]
          · rw [Option.any_eq_true]
            rintro ⟨d, hd, hzero⟩
            exact hz ⟨d, hd, of_decide_eq_true hzero⟩
          · intro hmem
            obtain ⟨id', he, hd⟩ := hgrant _ hmem
            rw [show id = id' from congrArg WispPacket.streamId he] at hz
            exact hz hd

/-- The server takes a message of the client. -/
theorem ReceiveMove.advance {p q : WispPacket} {up : List WispPacket}
    (h : ReceiveMove m q s t) (hw : WellBound s) (halive : m ∈ s.managers) (hi : s.loop = .idle)
    (htype : q.packetType = p.packetType) (hid : q.streamId = p.streamId)
    (hdata : q.data <+: p.data) : ∃ frames, Advance m s t (p :: up) up frames := by
  have hopen : m < s.id := hw.table.fresh _ halive
  have hcall₀ : s.callOf m = none := State.callOf_none hi rfl
  have hpass : ∀ {id : UInt32} {client : Option ClientStream} {down : List WispPacket},
      p.streamId ≠ id ∨ p.packetType ≠ packetConnect ∧ p.packetType ≠ packetData →
      Phase id (s.stream m id) none client (p :: up) down →
      Phase id (s.stream m id) none client up down := by
    rintro id client down (hne | ⟨hc, hd⟩) hphase
    · exact hphase.pop_up (WispPacket.is_of_id_ne hne) (WispPacket.is_of_id_ne hne)
    · exact hphase.pop_up (WispPacket.is_of_type_ne hc) (WispPacket.is_of_type_ne hd)
  cases h with
  | other hgone hc hstream hcall hsent =>
    refine ⟨[], by rw [hsent, List.append_nil], fun h => absurd rfl h, (fun _ h => nomatch h),
      fun {id client down} hphase => ?_⟩
    rw [hcall₀] at hphase
    rw [ite_self, List.append_nil, hstream, hcall]
    by_cases hdat : p.packetType = packetData
    · -- DATA that the server ignores is for a stream it does not know
      by_cases he : p.streamId = id
      · have hnone : s.stream m id = none := by
          rw [← he, ← hid]
          exact hgone (htype.trans hdat)
        rw [hnone] at hphase ⊢
        exact hphase.ignored (WispPacket.is_iff.mpr ⟨hdat, he⟩)
      · exact hpass (.inl he) hphase
    · exact hpass (.inr ⟨htype ▸ hc, hdat⟩) hphase
  | @connect c hty hcall hcid hctype hstream hsent =>
    -- nothing is sent yet; the stream type is the first byte of what the client sent
    refine ⟨[], by rw [hsent, List.append_nil], fun h => absurd rfl h, (fun _ h => nomatch h),
      fun {id client down} hphase => ?_⟩
    rw [hcall₀] at hphase
    rw [ite_self, List.append_nil, hstream, hcall]
    rw [htype] at hty
    rw [hid] at hcid
    by_cases he : p.streamId = id
    · refine hphase.called (WispPacket.is_iff.mpr ⟨hty, he⟩) (hcid.trans he) ?_
      obtain ⟨tail, htail⟩ := hdata
      rw [← htail, List.getElem?_append_left]
      · exact hctype
      · exact (List.getElem?_eq_some_iff.mp hctype).1
    · refine (hpass (.inl he) hphase).change_call notCalling_none ?_
      rintro c' hc
      obtain rfl := Option.some.inj hc
      exact hcid ▸ he
  | @refuse reason hty hcall hstream hsent =>
    rw [htype] at hty
    rw [hid] at hsent
    refine ⟨_, hsent, fun _ => .inl hopen, ?_, fun {id client down} hphase => ?_⟩
    · intro q' hq
      obtain rfl := List.mem_singleton.mp hq
      exact wholeWindow_of_type_ne (show packetClose ≠ packetContinue by decide)
    · rw [hcall₀] at hphase
      rw [if_pos hopen, hstream, hcall]
      by_cases he : p.streamId = id
      · exact hphase.called_refused (WispPacket.is_iff.mpr ⟨hty, he⟩) (he ▸ is_closeFrame)
      · exact (hpass (.inl he) hphase).append_down (.of_id_ne he)
  | @data d renewed hty hd hrenewed hcall hstream hsent =>
    rw [htype] at hty
    rw [hid] at hd hstream hsent
    refine ⟨_, hsent, fun _ => .inl hopen, ?_, fun {id client down} hphase => ?_⟩
    · intro q' hq
      split at hq
      · obtain rfl := List.mem_singleton.mp hq
        exact wholeWindow_grantFrame
      · cases hq
    · rw [hcall₀] at hphase
      rw [if_pos hopen, hstream, hcall]
      by_cases he : p.streamId = id
      · subst he
        rw [hd] at hphase
        have htaken := hphase.taken (WispPacket.is_iff.mpr ⟨hty, rfl⟩) hrenewed
        by_cases htcp : d.streamType = 0x02
        · simpa [htcp, hd] using htaken
        · simpa [htcp] using htaken
      · rw [if_neg (fun h => he h.1.symm)]
        refine (hpass (.inl he) hphase).append_down ?_
        split
        · exact .of_id_ne he
        · exact fun _ h => nomatch h

/-! ## The invariant -/

/-- A session with a conforming client. -/
structure Conforming (m : Nat) (σ : Session) : Prop where
  /-- the server's tables are consistent -/
  bound : WellBound σ.server
  /-- the websocket was greeted -/
  greeted : Greeted m σ.server
  /-- the server grants whole windows only -/
  whole : ∀ p ∈ σ.server.sentTo m, WholeWindow p
  /-- the client has received frames that were sent -/
  received : σ.received ≤ (σ.server.sentTo m).length
  /-- it knows the credit of a fresh stream once it has received the greeting -/
  initial : σ.initial = if σ.received = 0 then none else some window
  /-- and uses no stream before -/
  fresh : σ.received = 0 → ∀ id, σ.streams id = none
  /-- every id stands somewhere -/
  phase : ∀ id, Phase id (σ.server.stream m id) (σ.server.callOf m) (σ.streams id) σ.up
    ((σ.server.sentTo m).drop (max 1 σ.received))

namespace Conforming

theorem initial_session (env : Env) (m : Nat) : Conforming m (session env m).init where
  bound := WellBound.initial env
  greeted := Greeted.initial env
  whole _ hp := nomatch hp
  received := Nat.le_refl _
  initial := rfl
  fresh _ _ := rfl
  phase _ := .unused rfl notCalling_none rfl (fun _ h => nomatch h) (fun _ h => nomatch h)

theorem greeted_step {l : Label} {up up' frames : List WispPacket} (h : Greeted m s)
    (hs : s.step env l = some t) (ha : Advance m s t up up' frames) : Greeted m t := by
  rcases step_id hs with hid | rfl
  · refine h.of_append hid ha.sent fun hle => ?_
    by_contra hf
    rcases ha.alive hf with hlt | ⟨hm, hid', -⟩
    · exact absurd hlt (Nat.not_lt.mpr hle)
    · rw [hid, hm] at hid'
      exact absurd hid' (Nat.succ_ne_self m).symm
  · exact h.construct

/-- The server moves, and takes `up` down to `up'`. -/
theorem advance {l : Label} {up' frames : List WispPacket} (h : Conforming m σ)
    (hs : σ.server.step env l = some t) (ha : Advance m σ.server t σ.up up' frames) :
    Conforming m { σ with server := t, up := up' } := by
  have hlen := h.received
  -- the greeting is not among the frames that matter
  have hdrop : (t.sentTo m).drop (max 1 σ.received) =
      (σ.server.sentTo m).drop (max 1 σ.received) ++
        if m < σ.server.id then frames else [] := by
    rw [ha.sent]
    by_cases hm : m < σ.server.id
    · have hpos := List.length_pos_iff.mpr (h.greeted.ne_nil hm)
      rw [if_pos hm, List.drop_append_of_le_length (by omega)]
    · have hnil := h.greeted.before (Nat.not_lt.mp hm)
      rw [hnil] at hlen ⊢
      rw [if_neg hm, Nat.le_zero.mp hlen]
      by_cases hf : frames = []
      · rw [hf]
        rfl
      · obtain ⟨-, -, rfl⟩ := (ha.alive hf).resolve_left hm
        rfl
  refine ⟨h.bound.step hs, greeted_step h.greeted hs ha, fun p hp => ?_, ?_, h.initial, h.fresh,
    fun id => ?_⟩
  · rw [ha.sent] at hp
    rcases List.mem_append.mp hp with hp | hp
    · exact h.whole p hp
    · exact ha.whole p hp
  · rw [ha.sent, List.length_append]
    exact Nat.le_trans hlen (Nat.le_add_right _ _)
  · rw [hdrop]
    exact ha.phase (h.phase id)

/-! ### The client moves -/

/-- The client sends a packet, which changes at most what it knows about one stream. -/
theorem sends {p : WispPacket} {streams : UInt32 → Option ClientStream} (h : Conforming m σ)
    (hr : σ.received ≠ 0)
    (hphase : ∀ id, Phase id (σ.server.stream m id) (σ.server.callOf m) (streams id) (σ.up ++ [p])
      ((σ.server.sentTo m).drop (max 1 σ.received))) :
    Conforming m { σ with streams := streams, up := σ.up ++ [p] } :=
  ⟨h.bound, h.greeted, h.whole, h.received, h.initial, fun h0 => absurd h0 hr, hphase⟩

theorem received_ne_zero {n : Nat} (h : Conforming m σ) (hi : σ.initial = some n) :
    σ.received ≠ 0 := by
  intro h0
  rw [h.initial, if_pos h0] at hi
  cases hi

theorem sendConnect {type : UInt8} {destination : Bytes} (h : Conforming m σ)
    (hs : σ.sendConnect id type destination = some τ) : Conforming m τ := by
  rw [Session.sendConnect] at hs
  split at hs
  · rename_i n hn hnone
    obtain rfl := Option.some.inj hs
    have hr := h.received_ne_zero hn
    rw [h.initial, if_neg hr] at hn
    obtain rfl := Option.some.inj hn
    refine h.sends hr fun id' => ?_
    have hphase := h.phase id'
    by_cases he : id' = id
    · subst he
      rw [hnone] at hphase
      rw [Function.update_self]
      exact hphase.connect (WispPacket.is_iff.mpr ⟨rfl, rfl⟩) rfl
    · rw [Function.update_of_ne he]
      exact hphase.append_up (WispPacket.is_of_id_ne (Ne.symm he))
        (WispPacket.is_of_id_ne (Ne.symm he))
  · cases hs

theorem sendData {payload : Bytes} (h : Conforming m σ)
    (hs : σ.sendData id payload = some τ) : Conforming m τ := by
  rw [Session.sendData] at hs
  split at hs
  · cases hs
  · rename_i c hc
    have hr : σ.received ≠ 0 := by
      intro h0
      rw [h.fresh h0] at hc
      cases hc
    have hother : ∀ {id' client}, id' ≠ id →
        Phase id' (σ.server.stream m id') (σ.server.callOf m) client σ.up
          ((σ.server.sentTo m).drop (max 1 σ.received)) →
        Phase id' (σ.server.stream m id') (σ.server.callOf m) client
          (σ.up ++ [⟨packetData, id, payload⟩]) ((σ.server.sentTo m).drop (max 1 σ.received)) :=
      fun he hphase => hphase.append_up (WispPacket.is_of_id_ne (Ne.symm he))
        (WispPacket.is_of_id_ne (Ne.symm he))
    have hself := h.phase id
    rw [hc] at hself
    dsimp only at hs
    split at hs
    · rename_i hudp
      obtain rfl := Option.some.inj hs
      refine h.sends hr fun id' => ?_
      by_cases he : id' = id
      · subst he
        rw [hc]
        exact hself.data (WispPacket.is_iff.mpr ⟨rfl, rfl⟩) rfl fun h => absurd hudp h
      · exact hother he (h.phase id')
    · rw [Option.ite_none_right_eq_some] at hs
      obtain ⟨hcredit, hs⟩ := hs
      obtain rfl := Option.some.inj hs
      refine h.sends hr fun id' => ?_
      by_cases he : id' = id
      · subst he
        rw [Function.update_self]
        refine hself.data (WispPacket.is_iff.mpr ⟨rfl, rfl⟩) rfl fun _ => ?_
        exact (Nat.succ_pred_eq_of_pos hcredit).symm
      · rw [Function.update_of_ne he]
        exact hother he (h.phase id')

theorem sendOther {p : WispPacket} (h : Conforming m σ) (hc : p.packetType ≠ packetConnect)
    (hd : p.packetType ≠ packetData) : Conforming m { σ with up := σ.up ++ [p] } :=
  ⟨h.bound, h.greeted, h.whole, h.received, h.initial, h.fresh, fun id =>
    (h.phase id).append_up (WispPacket.is_of_type_ne hc) (WispPacket.is_of_type_ne hd)⟩

/-! ### The client receives -/

theorem take_greeting (hs : σ.streams 0 = none) (hi : σ.initial = none) :
    σ.take (grantFrame 0) = { σ with initial := some window } := by
  simp [Session.take, grantFrame, ContinuePacket.parse_serialize, hs, hi]

theorem take_grant {p : WispPacket} {c : ClientStream} (hp : WholeWindow p)
    (htype : p.packetType = packetContinue) (hc : σ.streams p.streamId = some c) :
    σ.take p = σ.setStream p.streamId (some { c with credit := window }) := by
  simp [Session.take, htype, hp htype, ContinuePacket.parse_serialize, hc]

theorem take_close {p : WispPacket} (htype : p.packetType = packetClose) :
    σ.take p = σ.setStream p.streamId none := by
  have hne : packetClose ≠ packetContinue := by decide
  rw [Session.take, htype, if_neg hne, if_pos rfl]

theorem take_other {p : WispPacket} (hg : p.packetType ≠ packetContinue)
    (hc : p.packetType ≠ packetClose) : σ.take p = σ := by
  simp [Session.take, hg, hc]

/-- The first frame is the greeting. -/
theorem receive_greeting {p : WispPacket} {rest : List WispPacket} (h : Conforming m σ)
    (hr : σ.received = 0) (hsent : σ.server.sentTo m = p :: rest) :
    Conforming m { σ.take p with received := σ.received + 1 } := by
  have hp : p = grantFrame 0 := by
    have hopen : m < σ.server.id := by
      by_contra hm
      rw [h.greeted.before (Nat.not_lt.mp hm)] at hsent
      cases hsent
    have hhead := h.greeted.after hopen
    rw [hsent] at hhead
    exact Option.some.inj hhead
  have hi : σ.initial = none := by rw [h.initial, if_pos hr]
  rw [hp, take_greeting (h.fresh hr 0) hi, hr]
  have hlen : 0 + 1 ≤ (σ.server.sentTo m).length := by
    rw [hsent]
    exact Nat.succ_le_succ (Nat.zero_le _)
  have hphase := h.phase
  rw [hr] at hphase
  exact ⟨h.bound, h.greeted, h.whole, hlen, rfl, fun h => absurd h (Nat.succ_ne_zero 0), hphase⟩

/-- What is received later may set what the client knows about one stream. -/
theorem receive_later {p : WispPacket} {rest : List WispPacket} (h : Conforming m σ)
    (hr : σ.received ≠ 0) (hdown : σ.down m = p :: rest) :
    Conforming m { σ.take p with received := σ.received + 1 } := by
  have hsplit : (σ.server.sentTo m).drop (max 1 σ.received) = p :: rest := by
    rw [max_eq_right (Nat.one_le_iff_ne_zero.mpr hr)]
    exact hdown
  have hrest : (σ.server.sentTo m).drop (max 1 (σ.received + 1)) = rest := by
    rw [max_eq_right (Nat.le_add_left 1 _), ← List.drop_drop, ← Session.down, hdown]
    rfl
  have hlen : σ.received + 1 ≤ (σ.server.sentTo m).length := by
    by_contra hlt
    rw [Session.down, List.drop_eq_nil_of_le (Nat.le_of_lt_succ (Nat.not_le.mp hlt))] at hdown
    cases hdown
  have hp : WholeWindow p :=
    h.whole p (List.mem_of_mem_drop (show p ∈ σ.down m from hdown ▸ List.mem_cons_self ..))
  have hinit : σ.initial = some window := by rw [h.initial, if_neg hr]
  have hphase := h.phase
  rw [hsplit] at hphase
  have hkeep : ∀ {streams : UInt32 → Option ClientStream},
      (∀ id, Phase id (σ.server.stream m id) (σ.server.callOf m) (streams id) σ.up rest) →
      Conforming m { σ with streams := streams, received := σ.received + 1 } := by
    intro streams hstreams
    refine ⟨h.bound, h.greeted, h.whole, hlen, hinit, fun h => absurd h (Nat.succ_ne_zero _), ?_⟩
    intro id
    rw [hrest]
    exact hstreams id
  have hother : ∀ id, p.streamId ≠ id →
      Phase id (σ.server.stream m id) (σ.server.callOf m) (σ.streams id) σ.up rest :=
    fun id he => (hphase id).pop_down (WispPacket.is_of_id_ne he) (WispPacket.is_of_id_ne he)
  have hset : ∀ {c : Option ClientStream},
      Phase p.streamId (σ.server.stream m p.streamId) (σ.server.callOf m) c σ.up rest →
      Conforming m { σ.setStream p.streamId c with received := σ.received + 1 } := by
    intro c hc
    refine @hkeep (Function.update σ.streams p.streamId c) fun id => ?_
    by_cases he : id = p.streamId
    · rw [he, Function.update_self]
      exact hc
    · rw [Function.update_of_ne he]
      exact hother id (Ne.symm he)
  by_cases hg : p.packetType = packetContinue
  · obtain ⟨c, hc, hgranted⟩ := (hphase p.streamId).grant (WispPacket.is_iff.mpr ⟨hg, rfl⟩)
    rw [take_grant hp hg hc]
    exact hset hgranted
  · by_cases hcl : p.packetType = packetClose
    · rw [take_close hcl]
      exact hset ((hphase p.streamId).closed (WispPacket.is_iff.mpr ⟨hcl, rfl⟩))
    · rw [take_other hg hcl]
      exact hkeep fun id =>
        (hphase id).pop_down (WispPacket.is_of_type_ne hg) (WispPacket.is_of_type_ne hcl)

/-- **Every step of a session keeps the invariant.** -/
theorem step {l : SessionLabel} (hs : (session env m).step σ l = some τ) (h : Conforming m σ) :
    Conforming m τ := by
  change Session.step env m σ l = some τ at hs
  cases l with
  | server l =>
    obtain ⟨hnot, hs⟩ := Option.ite_none_right_eq_some.mp hs
    obtain ⟨t, ht, rfl⟩ := Option.map_eq_some_iff.mp hs
    obtain ⟨frames, ha⟩ := @ClientMove.advance _ _ _ σ.up (step_clientMove ht h.bound hnot) h.bound
    exact h.advance ht ha
  | deliver =>
    rw [Session.step] at hs
    split at hs
    · cases hs
    · rename_i p rest hup
      obtain ⟨t, ht, rfl⟩ := Option.map_eq_some_iff.mp hs
      have hloop : σ.server.loopStep env (.message m p.serialize) = some t := ht
      obtain ⟨q, hq, hi, halive, hmove⟩ := (loopStep_cases hloop).receiveMove
      obtain ⟨htype, hid, hdata⟩ := WispPacket.parse_serialize hq
      obtain ⟨frames, ha⟩ :=
        @ReceiveMove.advance _ _ _ _ _ rest hmove h.bound halive hi htype hid hdata
      exact h.advance ht (hup ▸ ha)
  | receive =>
    rw [Session.step] at hs
    split at hs
    · cases hs
    · rename_i p rest hdown
      obtain rfl := Option.some.inj hs
      by_cases hr : σ.received = 0
      · rw [Session.down, hr] at hdown
        exact h.receive_greeting hr hdown
      · exact h.receive_later hr hdown
  | connect id type destination => exact h.sendConnect hs
  | data id payload => exact h.sendData hs
  | other p =>
    obtain ⟨⟨hc, hd⟩, hs⟩ := Option.ite_none_right_eq_some.mp hs
    obtain rfl := Option.some.inj hs
    exact h.sendOther hc hd

/-- What the invariant says about the credit. -/
theorem creditConserved (h : Conforming m σ) : CreditConserved m σ := by
  intro id d hd htype
  have hphase := h.phase id
  rw [hd] at hphase
  cases hphase with
  | unused hs => cases hs
  | requested hs => cases hs
  | calling hs => cases hs
  | @live c _ hs _ hc hctype _ _ hlink =>
    obtain rfl := Option.some.inj hs
    have hr : σ.received ≠ 0 := by
      intro h0
      rw [h.fresh h0] at hc
      cases hc
    rw [max_eq_right (Nat.one_le_iff_ne_zero.mpr hr)] at hlink
    have hlink := hlink (by rw [← hctype, htype]; decide)
    exact ⟨c, hc, hlink.balance, hlink.grants_le_one (by decide),
      UInt32.le_iff_toNat_le.mpr hlink.bounded, fun hpos =>
        UInt32.lt_iff_toNat_lt.mpr (hlink.buffer_pos hpos)⟩
  | closing hs => cases hs

end Conforming

/-- **Credit is conserved** between the server and a conforming client, whatever the
order of their steps, the other clients, the targets and the drains. -/
theorem credit_conserved (h : (session env m).Reachable σ) : CreditConserved m σ := by
  have hinv : Conforming m σ :=
    h.invariant (Conforming.initial_session env m) fun _ _ _ _ hs hi => hi.step hs
  exact hinv.creditConserved

/-- A client that uploads a whole window while a closure is pending, and then receives
the CONTINUE that the end of the closure sends. -/
def windowSession : List SessionLabel :=
  [.server (.loop .opened), .receive, .connect 1 0x01 [80, 0, 97], .deliver] ++
    [Label.loop (.socket (some 7)), .loop (.connect true), .loop (.pushFd true),
      .loop .resume].map .server ++
    List.replicate 127 (.data 1 [0]) ++
    (passLabels 7 [.bytes [104, 105], .again]).map .server ++
    List.replicate 127 .deliver ++
    (Label.loop .deferred :: List.replicate 4 (.loop .resume)).map .server ++
    [.receive, .receive]

theorem credit_conserved_windowSession :
    CreditConserved 0 ((session {} 0).final (fun _ _ => True) windowSession) :=
  credit_conserved (System.reaches_final _ _ _ (by decide +kernel))

end Woeful
