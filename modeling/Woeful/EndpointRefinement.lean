import Woeful.Finality
import Woeful.Lib.Endpoint
import Woeful.Lib.Refinement
import Woeful.Teardown

/-!
# What a websocket is for

All that the threads and handlers do for one websocket comes to an endpoint that serves streams
to one peer (`Multiplex.endpoint`). `State.endpoint` reads it off the state: the phase off
`managers` and `id`, the streams off `streams`, and the request off the CONNECT in progress.
`State.passed` is what passes over the websocket in a step, both ways and in order, and every
run of the server is one of the endpoint in which the same passes (`endpoint_refines`).

So what holds of all endpoints holds of the server, whatever its clients send: no frame is about
a stream that the client did not ask for (`frames_solicited`), and for every window that is
granted a window of DATA was taken (`grants_paid`).
-/

namespace Woeful

open Memory Transition Multiplex

variable {env : Env} {s t : State} {m : Nat} {id : UInt32} {l : Label} {ls : List Label}
  {packet : WispPacket} {frames : List WispPacket}

/-- How the server counts credit. -/
def wispRules : Rules UInt8 UInt32 where
  counts streamType := streamType ≠ 0x02
  window := bufferCount
  use buffer := buffer - 1
  spent := 0

/-- What happens between the server and a client. -/
abbrev WispAct := Act UInt32 UInt8 Bytes UInt8

/-- What the server is to a client. -/
noncomputable abbrev wisp : System (Endpoint UInt32 UInt8 UInt32) WispAct :=
  Multiplex.endpoint wispRules

/-- A stream as the client has to do with it. -/
def SocketStreamData.served (d : SocketStreamData) : Channel UInt8 UInt32 :=
  ⟨d.streamType, d.buffer⟩

namespace State

/-- How far the server is with the client of `m`. -/
def clientPhase (s : State) (m : Nat) : Standing :=
  if m ∈ s.managers then .serving else if m < s.id then .gone else .fresh

/-- The endpoint of the websocket of `m`. -/
def endpoint (s : State) (m : Nat) : Endpoint UInt32 UInt8 UInt32 where
  phase := s.clientPhase m
  live id := (s.stream m id).map SocketStreamData.served
  request := (s.callOf m).map fun c => (c.streamId, c.streamType)

end State

/-! ## What passes over a websocket -/

/-- What passes over a websocket. -/
inductive Passed where
  /-- a CONNECT arrives -/
  | connect (streamId : UInt32) (streamType : UInt8)
  /-- a DATA arrives -/
  | data (streamId : UInt32) (payload : Bytes)
  /-- a frame is sent -/
  | sent (packet : WispPacket)
  deriving DecidableEq, Repr

/-- What passes in an act. -/
def WispAct.passed : WispAct → Option Passed
  | .greet => some (.sent (grantFrame 0))
  | .request id streamType => some (.connect id streamType)
  | .accept _ _ => none
  | .refuse id reason => some (.sent (closeFrame reason id))
  | .upload id payload => some (.data id payload)
  | .download id payload => some (.sent ⟨packetData, id, payload⟩)
  | .grant id => some (.sent (grantFrame id))
  | .close id reason => some (.sent (closeFrame reason id))
  | .leave => none

/-- What a packet of the client is to the server, which ignores all but CONNECT and DATA. -/
def WispPacket.arrives (packet : WispPacket) : List Passed :=
  if packet.packetType = packetConnect then [.connect packet.streamId (packet.data.headD 0)]
  else if packet.packetType = packetData then [.data packet.streamId packet.data]
  else []

/-- The packet of the client of `m` that is taken in a step. -/
def Label.received (m : Nat) : Label → Option WispPacket
  | .loop (.message m' view) =>
    if m' = m then (WispPacket.parse view (UInt64.ofNat view.length)).toOption else none
  | _ => none

/-- What passes over the websocket of `m` in a step: what is received, then what is sent. -/
def State.passed (env : Env) (m : Nat) (s : State) (l : Label) : List Passed :=
  (l.received m).elim [] WispPacket.arrives ++
    (s.step env l).elim [] fun t => ((t.sentTo m).drop (s.sentTo m).length).map .sent

/-- What passes over the websocket of `m` in a run from the start. -/
def exchange (env : Env) (m : Nat) (ls : List Label) : List Passed :=
  ((server env).trail (State.passed env m) (State.initial env) ls).flatten

theorem State.passed_of_step (hs : s.step env l = some t)
    (hsent : t.sentTo m = s.sentTo m ++ frames) :
    s.passed env m l = (l.received m).elim [] WispPacket.arrives ++ frames.map .sent := by
  rw [passed, hs, Option.elim_some, hsent, List.drop_left]

/-! ## The managers that exist -/

/-- A step with the frame leaves the managers that exist. -/
theorem SameTable.stays (h : SameTable s t) :
    t.id = s.id ∧ ∀ m, m ∈ t.managers ↔ m ∈ s.managers :=
  ⟨h.id, h.alive⟩

/-- Managers come with a websocket, and go with the destructor. -/
theorem LoopMove.managers_cases {l : LoopLabel} (hs : LoopMove env s l t) :
    (t.id = s.id ∧ ∀ m, m ∈ t.managers ↔ m ∈ s.managers) ∨
      (l = .opened ∧ t = s.construct env) ∨
        ∃ m, s.loop = .closing m [] ∧ l = .resume ∧ t = s.destruct m := by
  cases hs with
  | opened hi => exact Or.inr (Or.inl ⟨rfl, rfl⟩)
  | info hi hm hp hty => exact Or.inl (SameTable.refl s).stays
  | other hi hm hp hc hd => exact Or.inl (SameTable.endHandshake s _).stays
  | connect hi hm hp hty hcm hid =>
    exact Or.inl ((SameTable.endHandshake s _).trans (.setLoop _ _)).stays
  | refuse hi hm hp hty hcm hid =>
    exact Or.inl ((SameTable.endHandshake s _).trans (.refuse _ _)).stays
  | data hi hm hp hty =>
    exact Or.inl ((SameTable.endHandshake s _).trans (.handleData _ _ _)).stays
  | drain hi hm => exact Or.inl (SameTable.drain s _).stays
  | close hi hm => exact Or.inl (SameTable.forceClose s _).stays
  | @deferred p rest hi hd =>
    have hpop : SameTable s { s with deferred := rest } := .of_eq rfl rfl rfl rfl
    exact Or.inl ((hpop.trans (.deliverAll _ p _)).trans (.setLoop _ _)).stays
  | socketFail hl => exact Or.inl (SameTable.refuse s _).stays
  | socket hfd hl => exact Or.inl ⟨rfl, fun _ => Iff.rfl⟩
  | connected hl => exact Or.inl ⟨rfl, fun _ => Iff.rfl⟩
  | connectFail hl => exact Or.inl ⟨rfl, fun _ => Iff.rfl⟩
  | pushFd hl => exact Or.inl (SameTable.pushFd s _ _ _).stays
  | insert hl hfree => exact Or.inl ⟨rfl, fun _ => State.mem_modifyManager⟩
  | listIds hl hfree => exact Or.inl ⟨rfl, fun _ => Iff.rfl⟩
  | closeNext hl hfree => exact Or.inl ⟨rfl, fun _ => State.mem_closeStream⟩
  | destruct hl => exact Or.inr (Or.inr ⟨_, hl, rfl, rfl⟩)
  | closeFound hl hfree => exact Or.inl ⟨rfl, fun _ => State.mem_closeStream⟩
  | decrement hl => exact Or.inl ⟨rfl, fun _ => Iff.rfl⟩
  | check hl => exact Or.inl ⟨rfl, fun _ => Iff.rfl⟩
  | sweepDone hl => exact Or.inl ⟨rfl, fun _ => Iff.rfl⟩
  | sweep hl => exact Or.inl ((SameTable.updateStreams s _).trans (.setLoop _ _)).stays

namespace State

theorem clientPhase_of_stays (h : t.id = s.id ∧ ∀ m, m ∈ t.managers ↔ m ∈ s.managers) :
    t.clientPhase m = s.clientPhase m := by
  simp only [clientPhase, h.1, h.2]

theorem clientPhase_alive (h : m ∈ s.managers) : s.clientPhase m = .serving := if_pos h

theorem clientPhase_construct_ne (h : m ≠ s.id) :
    (s.construct env).clientPhase m = s.clientPhase m := by
  have hid : m < (s.construct env).id ↔ m < s.id := by
    rw [show (s.construct env).id = s.id + 1 from rfl]
    omega
  simp only [clientPhase, mem_construct, hid, h, false_or]

theorem clientPhase_destruct_ne {m' : Nat} (h : m ≠ m') :
    (s.destruct m').clientPhase m = s.clientPhase m := by
  have hid : (s.destruct m').id = s.id := rfl
  simp only [clientPhase, mem_destruct, hid, h, ne_eq, not_false_eq_true, true_and]

end State

/-- The phase changes when the websocket opens, and when its manager is destroyed. -/
theorem step_clientPhase (hs : s.step env l = some t) (m : Nat) :
    t.clientPhase m = s.clientPhase m ∨
      (s.id = m ∧ l = .loop .opened ∧ t = s.construct env) ∨
        s.loop = .closing m [] ∧ l = .loop .resume ∧ t = s.destruct m := by
  cases l with
  | loop l =>
    rcases (loopStep_cases hs).managers_cases with h | ⟨rfl, rfl⟩ | ⟨m', hl, rfl, rfl⟩
    · exact Or.inl (State.clientPhase_of_stays h)
    · by_cases h : s.id = m
      · exact Or.inr (Or.inl ⟨h, rfl, rfl⟩)
      · exact Or.inl (State.clientPhase_construct_ne (Ne.symm h))
    · by_cases h : m' = m
      · subst h
        exact Or.inr (Or.inr ⟨hl, rfl, rfl⟩)
      · exact Or.inl (State.clientPhase_destruct_ne (Ne.symm h))
  | watch w => exact Or.inl (State.clientPhase_of_stays (watchStep_cases hs).sameTable.stays)
  | worker w => exact Or.inl (State.clientPhase_of_stays (workerStep_cases hs).sameTable.stays)
  | rehash m' streams => exact Or.inl (State.clientPhase_of_stays (State.rehash_frame hs).1.stays)
  | rehashSockets ms =>
    obtain ⟨-, -, rfl⟩ := State.rehashSockets_frame hs
    exact Or.inl rfl

/-! ## The acts of a step -/

/-- From `s` to `t` the endpoint acts, and `passing` is what passes. -/
def Acts (m : Nat) (s t : State) (passing : List Passed) : Prop :=
  ∃ as, wisp.Run (fun _ _ => True) (s.endpoint m) as (t.endpoint m) ∧
    as.filterMap WispAct.passed = passing

/-- The endpoint does one thing. -/
theorem Acts.single {a : WispAct} (hallows : (s.endpoint m).allows wispRules a)
    (hafter : t.endpoint m = (s.endpoint m).after wispRules a) :
    Acts m s t a.passed.toList := by
  refine ⟨[a], hafter ▸ run_act hallows, ?_⟩
  cases h : WispAct.passed a <;> simp [h]

/-- A packet takes credit, except where the streams are datagrams. -/
theorem SocketStreamData.used_served (d : SocketStreamData) : d.served.used wispRules =
    if d.streamType = 0x02 then d.served else ⟨d.streamType, d.buffer - 1⟩ := by
  by_cases h : d.streamType = 0x02 <;> simp [Channel.used, wispRules, served, h]

namespace State

theorem live_endpoint_congr (h : t.stream m = s.stream m) :
    (t.endpoint m).live = (s.endpoint m).live := by
  rw [endpoint, endpoint, h]

theorem request_endpoint_congr (h : t.callOf m = s.callOf m) :
    (t.endpoint m).request = (s.endpoint m).request := by
  rw [endpoint, endpoint, h]

theorem endpoint_eq (hphase : t.clientPhase m = s.clientPhase m) (hstream : t.stream m = s.stream m)
    (hcall : t.callOf m = s.callOf m) : t.endpoint m = s.endpoint m :=
  Endpoint.ext hphase (live_endpoint_congr hstream) (request_endpoint_congr hcall)

/-- One stream is another one, or gone. -/
theorem endpoint_put {d : Option SocketStreamData} (hphase : t.clientPhase m = s.clientPhase m)
    (hstream : ∀ id', t.stream m id' = if id' = id then d else s.stream m id') :
    t.endpoint m = { s.endpoint m with
      request := (t.endpoint m).request }.put id (d.map SocketStreamData.served) := by
  refine Endpoint.ext hphase (funext fun id' => ?_) rfl
  rw [Endpoint.live_put]
  change (t.stream m id').map _ = _
  rw [hstream]
  split <;> rfl

theorem live_endpoint {d : SocketStreamData} (h : s.stream m id = some d) :
    (s.endpoint m).live id = some d.served := by
  change (s.stream m id).map _ = _
  rw [h]
  rfl

theorem live_endpoint_ne_none (h : s.stream m id ≠ none) : (s.endpoint m).live id ≠ none := by
  obtain ⟨d, hd⟩ := Option.ne_none_iff_exists'.mp h
  rw [live_endpoint hd]
  exact Option.some_ne_none _

theorem request_endpoint {c : ConnectCall} (h : s.callOf m = some c) :
    (s.endpoint m).request = some (c.streamId, c.streamType) := by
  change (s.callOf m).map _ = _
  rw [h]
  rfl

theorem request_endpoint_none (h : s.callOf m = none) : (s.endpoint m).request = none := by
  change (s.callOf m).map _ = _
  rw [h]
  rfl

end State

/-- DATA is sent over streams that are there. -/
theorem run_downloads {e : Endpoint UInt32 UInt8 UInt32} (frames : List WispPacket)
    (h : ∀ p ∈ frames, p.packetType = packetData ∧ e.live p.streamId ≠ none) :
    ∃ as, wisp.Run (fun _ _ => True) e as e ∧
      as.filterMap WispAct.passed = frames.map .sent := by
  induction frames with
  | nil => exact ⟨[], .nil e, rfl⟩
  | cons p frames ih =>
    obtain ⟨htype, hlive⟩ := h p (List.mem_cons_self ..)
    obtain ⟨as, hrun, has⟩ := ih fun q hq => h q (List.mem_cons_of_mem _ hq)
    have hpassed : WispAct.passed (.download p.streamId p.data) = some (.sent p) := by
      rw [WispAct.passed, ← htype]
    refine ⟨.download p.streamId p.data :: as,
      .cons trivial (step_eq_some.mpr ⟨hlive, rfl⟩) hrun, ?_⟩
    rw [List.filterMap_cons_some hpassed, has]
    rfl

/-- The grant frames of a sweep are for the exhausted streams, one for each. -/
theorem streamIds_of_grants
    (hgrants : ∀ p ∈ frames, ∃ id, p = grantFrame id ∧ ∃ d, s.stream m id = some d ∧ d.buffer = 0)
    (hcount : ∀ id d, s.stream m id = some d → d.buffer = 0 → frames.count (grantFrame id) = 1) :
    (frames.map WispPacket.streamId).Nodup ∧ ∀ id, id ∈ frames.map WispPacket.streamId ↔
      ∃ d, s.stream m id = some d ∧ d.buffer = 0 := by
  constructor
  · refine List.Nodup.map_on (fun p hp q hq he => ?_) (List.nodup_iff_count_le_one.mpr fun p => ?_)
    · obtain ⟨id, rfl, -⟩ := hgrants p hp
      obtain ⟨id', rfl, -⟩ := hgrants q hq
      exact congrArg grantFrame he
    · by_cases hp : p ∈ frames
      · obtain ⟨id, rfl, d, hd, hzero⟩ := hgrants p hp
        exact Nat.le_of_eq (hcount id d hd hzero)
      · rw [List.count_eq_zero_of_not_mem hp]
        exact Nat.zero_le 1
  · intro id
    constructor
    · intro hid
      obtain ⟨p, hp, rfl⟩ := List.mem_map.mp hid
      obtain ⟨id, rfl, hd⟩ := hgrants p hp
      exact hd
    · rintro ⟨d, hd, hzero⟩
      have hframe : grantFrame id ∈ frames :=
        List.count_pos_iff.mp (by rw [hcount id d hd hzero]; exact Nat.one_pos)
      exact List.mem_map.mpr ⟨_, hframe, rfl⟩

/-- Every exhausted stream gets a window. -/
theorem Acts.renew (hphase : t.clientPhase m = s.clientPhase m) (hcall : t.callOf m = s.callOf m)
    (hstream : ∀ id, t.stream m id = (s.stream m id).map SocketStreamData.renew)
    (hgrants : ∀ p ∈ frames, ∃ id, p = grantFrame id ∧ ∃ d, s.stream m id = some d ∧ d.buffer = 0)
    (hcount : ∀ id d, s.stream m id = some d → d.buffer = 0 → frames.count (grantFrame id) = 1) :
    Acts m s t (frames.map .sent) := by
  obtain ⟨hnodup, hmem⟩ := streamIds_of_grants hgrants hcount
  have hrun := run_grants (R := wispRules) (e := s.endpoint m) (β := Bytes) (ρ := UInt8) hnodup
    fun id hid => by
      obtain ⟨d, hd, hzero⟩ := (hmem id).mp hid
      exact ⟨d.served, State.live_endpoint hd, hzero⟩
  have hend : t.endpoint m =
      (s.endpoint m).renewAll wispRules (frames.map WispPacket.streamId) := by
    refine Endpoint.ext hphase (funext fun id => ?_) (State.request_endpoint_congr hcall)
    change (t.stream m id).map _ =
      if _ then ((s.stream m id).map _).map _ else (s.stream m id).map _
    rw [hstream]
    split
    · rename_i hid
      obtain ⟨d, hd, hzero⟩ := (hmem id).mp hid
      simp only [hd, Option.map_some, SocketStreamData.renew, if_pos hzero]
      rfl
    · rename_i hid
      cases hd : s.stream m id with
      | none => rfl
      | some d =>
        have hne : d.buffer ≠ 0 := fun hzero => hid ((hmem id).mpr ⟨d, hd, hzero⟩)
        simp only [Option.map_some, SocketStreamData.renew, if_neg hne]
  refine ⟨_, hend ▸ hrun, ?_⟩
  rw [List.map_map, List.filterMap_map, ← List.filterMap_eq_map]
  refine List.filterMap_congr fun p hp => ?_
  obtain ⟨id, rfl, -⟩ := hgrants p hp
  rfl

/-- **What the server does for a client** that sends nothing meanwhile. -/
theorem ClientMove.acts (h : ClientMove m s t) (hphase : t.clientPhase m = s.clientPhase m)
    (hid : s.id = m → m ∉ s.managers)
    (hdata : ∀ frames, t.sentTo m = s.sentTo m ++ frames →
      ∀ p ∈ frames, p.packetType = packetData → s.stream m p.streamId ≠ none) :
    ∃ frames, t.sentTo m = s.sentTo m ++ frames ∧ Acts m s t (frames.map .sent) := by
  cases h with
  | @quiet frames hstream hcall hsent htype _ =>
    refine ⟨frames, hsent, ?_⟩
    obtain ⟨as, hrun, has⟩ := run_downloads (e := s.endpoint m) frames fun p hp =>
      ⟨htype p hp, State.live_endpoint_ne_none (hdata frames hsent p hp (htype p hp))⟩
    refine ⟨as, ?_, has⟩
    rwa [State.endpoint_eq hphase hstream hcall]
  | opened hs ht _ _ _ =>
    -- the phase would change
    have hfresh : s.clientPhase m = .fresh := by
      rw [State.clientPhase, if_neg (hid hs), if_neg (by omega)]
    rw [hfresh, State.clientPhase] at hphase
    split at hphase
    · cases hphase
    · rw [if_pos (by omega)] at hphase
      cases hphase
  | @refuse c reason hm hcall hnone hstream hsent =>
    refine ⟨_, hsent, Acts.single (a := .refuse c.streamId reason) ?_ ?_⟩
    · exact ⟨State.clientPhase_alive hm, c.streamType, State.request_endpoint hcall⟩
    · exact Endpoint.ext hphase (State.live_endpoint_congr hstream)
        (State.request_endpoint_none hnone)
  | @insert c fd hm hcall hnone hstream hsent =>
    refine ⟨[], by rw [hsent, List.append_nil],
      Acts.single (a := .accept c.streamId c.streamType) ?_ ?_⟩
    · exact ⟨State.clientPhase_alive hm, State.request_endpoint hcall⟩
    · rw [State.endpoint_put hphase hstream, State.request_endpoint_none hnone]
      rfl
  | @close id reason hne hcall hstream hsent =>
    refine ⟨_, hsent, Acts.single (a := .close id reason) ?_ ?_⟩
    · exact State.live_endpoint_ne_none hne
    · rw [State.endpoint_put hphase hstream, State.request_endpoint_congr hcall]
      rfl
  | @renew frames hm hcall hstream hsent hgrants hcount =>
    exact ⟨frames, hsent, .renew hphase hcall hstream hgrants hcount⟩

/-- A DATA is a packet of the peer. -/
theorem WispPacket.arrives_data (h : packet.packetType = packetData) :
    packet.arrives = [.data packet.streamId packet.data] := by
  have hne : packet.packetType ≠ packetConnect := by
    rw [h]
    decide
  rw [arrives, if_neg hne, if_pos h]

/-- A CONNECT is a request. -/
theorem WispPacket.arrives_connect {streamType : UInt8} (h : packet.packetType = packetConnect)
    (htype : packet.data[0]? = some streamType) :
    packet.arrives = [.connect packet.streamId streamType] := by
  rw [arrives, if_pos h]
  cases hdata : packet.data with
  | nil =>
    rw [hdata] at htype
    cases htype
  | cons b rest =>
    rw [hdata] at htype
    rw [Option.some.inj htype]
    rfl

/-- A DATA for a stream that is there. -/
theorem Acts.data {d : SocketStreamData} {payload : Bytes} {renewed : Bool}
    (hphase : t.clientPhase m = s.clientPhase m) (hm : m ∈ s.managers)
    (hcall : s.callOf m = none) (hcall' : t.callOf m = none) (hd : s.stream m id = some d)
    (hzero : renewed = true → d.buffer - 1 = 0)
    (hstream : ∀ id', t.stream m id' = if id' = id ∧ d.streamType ≠ 0x02 then
      some { d with buffer := if renewed then bufferCount else d.buffer - 1 }
      else s.stream m id') :
    Acts m s t (.data id payload ::
      (if d.streamType ≠ 0x02 ∧ renewed then [grantFrame id] else []).map .sent) := by
  have hupload : (s.endpoint m).allows wispRules (.upload id payload : WispAct) :=
    ⟨State.clientPhase_alive hm, State.request_endpoint_none hcall⟩
  have hlive := State.live_endpoint hd
  by_cases htype : d.streamType = 0x02
  · -- datagrams use no credit
    rw [if_neg (fun h => h.1 htype)]
    refine Acts.single (a := .upload id payload) hupload ?_
    have hused : d.served.used wispRules = d.served := by rw [d.used_served, if_pos htype]
    have heq : t.endpoint m = s.endpoint m := by
      refine State.endpoint_eq hphase (funext fun id' => ?_) (hcall'.trans hcall.symm)
      rw [hstream, if_neg (fun h => h.2 htype)]
    rw [heq, Endpoint.after, hlive, Option.map_some, hused, Endpoint.put_of_eq hlive]
  · have hput : t.endpoint m = (s.endpoint m).put id
        (some ⟨d.streamType, if renewed then bufferCount else d.buffer - 1⟩) := by
      have hone : ∀ id', t.stream m id' = if id' = id then
          some { d with buffer := if renewed then bufferCount else d.buffer - 1 }
          else s.stream m id' := by
        intro id'
        rw [hstream]
        simp [htype]
      rw [State.endpoint_put hphase hone,
        State.request_endpoint_congr (hcall'.trans hcall.symm)]
      rfl
    have hafter : (s.endpoint m).after wispRules (.upload id payload : WispAct) =
        (s.endpoint m).put id (some ⟨d.streamType, d.buffer - 1⟩) := by
      rw [Endpoint.after, hlive, Option.map_some, d.used_served, if_neg htype]
    cases renewed with
    | false =>
      rw [if_neg (fun h => Bool.noConfusion h.2)]
      refine Acts.single (a := .upload id payload) hupload ?_
      rw [hafter, hput]
      rfl
    | true =>
      -- the last credit is renewed at once
      rw [if_pos ⟨htype, rfl⟩]
      refine ⟨[.upload id payload, .grant id],
        .cons trivial (step_eq_some.mpr ⟨hupload, hafter⟩) ?_, rfl⟩
      have hspent : ((s.endpoint m).put id (some ⟨d.streamType, d.buffer - 1⟩)).live id =
          some ⟨d.streamType, d.buffer - 1⟩ := Endpoint.live_put_self
      refine .single trivial (step_eq_some.mpr ⟨⟨_, hspent, hzero rfl⟩, ?_⟩)
      rw [Endpoint.after, hspent, Endpoint.put_put, hput]
      rfl

/-- **What the server does for the client** whose packet it takes. -/
theorem ReceiveMove.acts (h : ReceiveMove m packet s t) (hphase : t.clientPhase m = s.clientPhase m)
    (hm : m ∈ s.managers) (hcall : s.callOf m = none) :
    ∃ frames, t.sentTo m = s.sentTo m ++ frames ∧
      Acts m s t (packet.arrives ++ frames.map .sent) := by
  have hserving : (s.endpoint m).phase = .serving := State.clientPhase_alive hm
  have hnone : (s.endpoint m).request = none := State.request_endpoint_none hcall
  cases h with
  | other hd hc hstream hcall' hsent =>
    have heq : t.endpoint m = s.endpoint m :=
      State.endpoint_eq hphase hstream (hcall'.trans hcall.symm)
    refine ⟨[], by rw [hsent, List.append_nil], ?_⟩
    by_cases hty : packet.packetType = packetData
    · -- the stream is not there
      rw [WispPacket.arrives_data hty]
      refine Acts.single (a := .upload packet.streamId packet.data) ⟨hserving, hnone⟩ ?_
      have hlive : (s.endpoint m).live packet.streamId = none := by
        change (s.stream m _).map _ = none
        rw [hd hty]
        rfl
      rw [heq, Endpoint.after, hlive, Option.map_none, Endpoint.put_of_eq hlive]
    · rw [WispPacket.arrives, if_neg hc, if_neg hty]
      exact ⟨[], heq ▸ .nil _, rfl⟩
  | @connect c hty hcall' hid htype hstream hsent =>
    refine ⟨[], by rw [hsent, List.append_nil], ?_⟩
    rw [WispPacket.arrives_connect hty htype]
    refine Acts.single (a := .request packet.streamId c.streamType) ⟨hserving, hnone⟩ ?_
    refine Endpoint.ext hphase (State.live_endpoint_congr hstream) ?_
    rw [State.request_endpoint hcall', hid]
    rfl
  | @refuse reason hty hcall' hstream hsent =>
    refine ⟨_, hsent, [.request packet.streamId (packet.data.headD 0),
      .refuse packet.streamId reason], ?_, ?_⟩
    · refine .cons trivial (step_eq_some.mpr ⟨⟨hserving, hnone⟩, rfl⟩) ?_
      refine .single trivial (step_eq_some.mpr ⟨⟨hserving, _, rfl⟩, ?_⟩)
      refine Endpoint.ext hphase.symm (State.live_endpoint_congr hstream).symm ?_
      exact (State.request_endpoint_none hcall').symm
    · rw [WispPacket.arrives, if_pos hty]
      rfl
  | data hty hd hzero hcall' hstream hsent =>
    rw [WispPacket.arrives_data hty]
    exact ⟨_, hsent, .data hphase hm hcall hcall' hd hzero hstream⟩

/-! ## Every step is the endpoint's -/

/-- DATA goes to a stream that is there. -/
theorem ServesPresent.data (h : ServesPresent s t) (hsent : t.sentTo m = s.sentTo m ++ frames) :
    ∀ p ∈ frames, p.packetType = packetData → s.stream m p.streamId ≠ none := by
  obtain ⟨es, hlog, hserves⟩ := h
  have hframes : frames = es.filterMap (Event.frameTo m) := by
    rw [State.sentTo, hlog, List.filterMap_append] at hsent
    exact (List.append_cancel_left hsent).symm
  intro p hp hdata
  rw [hframes] at hp
  obtain ⟨e, he, hframe⟩ := List.mem_filterMap.mp hp
  cases e with
  | sent m' packet status origin =>
    obtain ⟨rfl, hsome⟩ := Option.ite_none_right_eq_some.mp hframe
    obtain rfl := Option.some.inj hsome
    rcases hserves _ _ _ _ he (Or.inl hdata) with ⟨hne, -⟩ | ⟨-, rfl⟩
    · exact hne
    · exact absurd hdata (show packetContinue ≠ packetData by decide)
  | _ => cases hframe

/-- A websocket opens. -/
theorem acts_construct (hfresh : s.id ∉ s.managers) :
    Acts s.id s (s.construct env) [.sent (grantFrame 0)] := by
  refine Acts.single (a := .greet) ?_ ?_
  · change s.clientPhase s.id = .fresh
    rw [State.clientPhase, if_neg hfresh, if_neg (Nat.lt_irrefl _)]
  · refine Endpoint.ext ?_ ?_ ?_
    · exact State.clientPhase_alive (State.mem_construct.mpr (Or.inl rfl))
    · exact State.live_endpoint_congr (congrFun (State.stream_construct hfresh) _)
    · exact State.request_endpoint_congr (State.callOf_of_call rfl)

/-- The manager of a websocket is destroyed. -/
theorem acts_destruct (hl : s.loop = .closing m []) (hw : WellBound s) :
    Acts m s (s.destruct m) [] := by
  obtain ⟨hm, -, hids⟩ : LoopOk s (.closing m []) := hl ▸ hw.loop
  have hlt : m < s.id := hw.table.fresh m hm
  have hempty : ∀ id, s.stream m id = none := by
    intro id
    by_contra hne
    exact List.not_mem_nil ((hids id).mpr (State.binding_ne_none.mpr hne))
  have hcall : s.callOf m = none := State.callOf_none hl rfl
  refine Acts.single (a := .leave) ⟨State.clientPhase_alive hm, State.request_endpoint_none hcall,
    fun id => ?_⟩ ?_
  · change (s.stream m id).map _ = none
    rw [hempty]
    rfl
  · have hgone : m ∉ (s.destruct m).managers := fun h => (State.mem_destruct.mp h).1 rfl
    have hstream : (s.destruct m).stream m = s.stream m := by
      funext id
      rw [State.stream_destruct, if_pos rfl, hempty]
    refine Endpoint.ext ?_ (State.live_endpoint_congr hstream) ?_
    · change (s.destruct m).clientPhase m = .gone
      rw [State.clientPhase, if_neg hgone, if_pos (show m < (s.destruct m).id from hlt)]
    · exact State.request_endpoint_congr ((State.callOf_none rfl rfl).trans hcall.symm)

/-- **What a step of the server is to the client of `m`.** -/
theorem step_acts (hs : s.step env l = some t) (hw : WellBound s) (m : Nat) :
    Acts m s t (s.passed env m l) := by
  have hfresh : s.id = m → m ∉ s.managers :=
    fun h hm => Nat.lt_irrefl m (h ▸ hw.table.fresh m hm)
  rcases step_clientPhase hs m with hphase | ⟨rfl, rfl, rfl⟩ | ⟨hl, rfl, rfl⟩
  · cases hl : l.notFrom m with
    | true =>
      -- no message of the client is taken
      have hnone : l.received m = none := by
        cases l with
        | loop l =>
          cases l with
          | message m' view => exact if_neg (of_decide_eq_true hl)
          | _ => rfl
        | _ => rfl
      have hpresent := (step_wireMove hs hw).servesPresent hw
      obtain ⟨frames, hsent, hacts⟩ := (step_clientMove hs hw hl).acts hphase hfresh
        fun _ hsent => hpresent.data hsent
      rw [State.passed_of_step hs hsent, hnone]
      exact hacts
    | false =>
      cases l with
      | loop l =>
        cases l with
        | message m' view =>
          obtain rfl : m' = m := by simpa [Label.notFrom] using hl
          have hloop : s.loopStep env (.message m' view) = some t := hs
          obtain ⟨packet, hp, hi, hm, hmove⟩ := (loopStep_cases hloop).receiveMove
          obtain ⟨frames, hsent, hacts⟩ := hmove.acts hphase hm (State.callOf_none hi rfl)
          have hreceived : Label.received m' (.loop (.message m' view)) = some packet := by
            rw [Label.received, if_pos rfl, hp]
            rfl
          rw [State.passed_of_step hs hsent, hreceived]
          exact hacts
        | _ => cases hl
      | _ => cases hl
  · have hsent : (s.construct env).sentTo s.id = s.sentTo s.id ++ [grantFrame 0] :=
      State.sentTo_send_self (s := { s with id := s.id + 1, managers := _ })
    rw [State.passed_of_step hs hsent]
    exact acts_construct (hfresh rfl)
  · rw [State.passed_of_step hs (show (s.destruct m).sentTo m = s.sentTo m ++ [] from
      (List.append_nil _).symm)]
    exact acts_destruct hl hw

theorem endpoint_initial (env : Env) (m : Nat) : (State.initial env).endpoint m = {} :=
  Endpoint.ext rfl rfl rfl

/-- **A websocket is an endpoint**: what passes over it in a run of the server passes in a run
of the endpoint, which ends where the server's state says. -/
theorem endpoint_refines (hrun : (server env).Run (fun _ _ => True) (State.initial env) ls s)
    (m : Nat) : ∃ as, wisp.Run (fun _ _ => True) {} as (s.endpoint m) ∧
      as.filterMap WispAct.passed = exchange env m ls := by
  rw [← endpoint_initial env m]
  exact @System.Run.refines_trail _ _ _ _ (server env) wisp _ (fun _ _ => True)
    (fun s => s.endpoint m) WellBound _ _ _ _ (State.passed env m) WispAct.passed
    (fun _ _ _ _ hs hw => WellBound.step hs hw) (fun _ _ _ _ hs hw => step_acts hs hw m) hrun
    (WellBound.initial env)

theorem endpoint_refines_uploadWithDownload : ∃ as, wisp.Run (fun _ _ => True) {} as
    (((server {}).final (fun _ _ => True) uploadWithDownload).endpoint 0) ∧
      as.filterMap WispAct.passed = exchange {} 0 uploadWithDownload :=
  endpoint_refines (System.Run.of_replay_getD (by decide +kernel)) 0

/-! ## What that means for the client -/

/-- A frame that is sent is about a stream, or the greeting. -/
theorem WispAct.of_sent {a : WispAct} (h : WispAct.passed a = some (.sent packet)) :
    a = .greet ∧ packet = grantFrame 0 ∨ a.about = some packet.streamId := by
  cases a with
  | greet => exact Or.inl ⟨rfl, (Passed.sent.inj (Option.some.inj h)).symm⟩
  | refuse id reason =>
    obtain rfl := Passed.sent.inj (Option.some.inj h)
    exact Or.inr rfl
  | download id payload =>
    obtain rfl := Passed.sent.inj (Option.some.inj h)
    exact Or.inr rfl
  | grant id =>
    obtain rfl := Passed.sent.inj (Option.some.inj h)
    exact Or.inr rfl
  | close id reason =>
    obtain rfl := Passed.sent.inj (Option.some.inj h)
    exact Or.inr rfl
  | _ => cases h

/-- **No frame is unasked for**: the first thing a client gets is the greeting, and every other
frame is about a stream for which it has sent a CONNECT before. -/
theorem frames_solicited
    (hrun : (server env).Run (fun _ _ => True) (State.initial env) ls s) (m : Nat)
    {before after : List Passed} (h : exchange env m ls = before ++ .sent packet :: after) :
    before = [] ∧ packet = grantFrame 0 ∨
      ∃ streamType, .connect packet.streamId streamType ∈ before := by
  obtain ⟨as, has, hpassed⟩ := endpoint_refines hrun m
  rw [h, List.filterMap_eq_append_iff] at hpassed
  obtain ⟨pre, rest, rfl, hpre, hrest⟩ := hpassed
  obtain ⟨silent, a, post, rfl, hsilent, ha, -⟩ := List.filterMap_eq_cons_iff.mp hrest
  rw [← List.append_assoc] at has
  rcases WispAct.of_sent ha with ⟨rfl, rfl⟩ | habout
  · -- a greeting can only be the first act
    obtain ⟨acts, heq, hnot⟩ := Multiplex.Run.greeted has (List.append_ne_nil_of_right_ne_nil _
      (List.cons_ne_nil _ _))
    cases pre with
    | nil => exact Or.inl ⟨hpre.symm, rfl⟩
    | cons b pre =>
      obtain ⟨-, rfl⟩ := List.cons.inj heq
      exact absurd (List.mem_append_right _ (List.mem_cons_self ..)) hnot
  · obtain ⟨streamType, hmem⟩ := Multiplex.Run.solicited has habout
    have hold : .request packet.streamId streamType ∈ pre := by
      rcases List.mem_append.mp hmem with hmem | hmem
      · exact hmem
      · cases hsilent _ hmem
    right
    exact ⟨streamType, hpre ▸ List.mem_filterMap.mpr ⟨_, hold, rfl⟩⟩

/-- A stream is opened, and its target sends something. -/
def openAndDownload : List Label :=
  [.loop .opened] ++ connectLabels 0 1 7 ++ passLabels 7 [.bytes [104, 105], .again] ++
    [.loop .deferred]

theorem frames_solicited_openAndDownload :
    [Passed.sent (grantFrame 0), .connect 1 1] = [] ∧
        (⟨packetData, 1, [104, 105]⟩ : WispPacket) = grantFrame 0 ∨
      ∃ streamType, .connect 1 streamType ∈ [Passed.sent (grantFrame 0), .connect 1 1] :=
  frames_solicited (show (server {}).Run (fun _ _ => True) (State.initial {}) openAndDownload _ from
      System.Run.of_replay_getD (by decide +kernel)) 0
    (show exchange {} 0 openAndDownload = [Passed.sent (grantFrame 0), .connect 1 1] ++
      .sent ⟨packetData, 1, [104, 105]⟩ :: [] by decide +kernel)

/-- A DATA for stream `id` arrives. -/
def Passed.isData (id : UInt32) : Passed → Bool
  | .data id' _ => id' = id
  | _ => false

/-- A window lasts for as many packets as it has. -/
theorem iterate_use {n : Nat} (h : n ≤ bufferCount.toNat) :
    (wispRules.use^[n] wispRules.window).toNat = bufferCount.toNat - n := by
  induction n with
  | zero => rfl
  | succ n ih =>
    have hn := ih (Nat.le_of_succ_le h)
    have hpos : 1 ≤ wispRules.use^[n] wispRules.window := by
      rw [UInt32.le_iff_toNat_le, hn]
      exact Nat.le_sub_of_add_le' h
    rw [Function.iterate_succ_apply']
    change (wispRules.use^[n] wispRules.window - 1).toNat = _
    rw [UInt32.toNat_sub_of_le _ _ hpos, hn, Nat.sub_sub]
    rfl

theorem window_le {n : Nat} (h : wispRules.use^[n] wispRules.window = wispRules.spent) :
    bufferCount.toNat ≤ n := by
  by_contra hlt
  have hn := iterate_use (Nat.le_of_not_le hlt)
  rw [h] at hn
  change 0 = _ at hn
  omega

/-- A CONTINUE is the greeting, or grants a window. -/
theorem WispAct.of_grant {a : WispAct} (h : WispAct.passed a = some (.sent (grantFrame id))) :
    a = .greet ∨ a = .grant id := by
  cases a with
  | greet => exact Or.inl rfl
  | grant id' =>
    have heq := Passed.sent.inj (Option.some.inj h)
    exact Or.inr (congrArg _ (congrArg WispPacket.streamId heq))
  | refuse id' reason =>
    have heq := congrArg WispPacket.packetType (Passed.sent.inj (Option.some.inj h))
    exact absurd heq (show packetClose ≠ packetContinue by decide)
  | download id' payload =>
    have heq := congrArg WispPacket.packetType (Passed.sent.inj (Option.some.inj h))
    exact absurd heq (show packetData ≠ packetContinue by decide)
  | close id' reason =>
    have heq := congrArg WispPacket.packetType (Passed.sent.inj (Option.some.inj h))
    exact absurd heq (show packetClose ≠ packetContinue by decide)
  | _ => cases h

/-- **Every window was used up**: apart from the greeting, a client gets a CONTINUE for a stream
at most once for every `BUFFER_COUNT` DATA that it sends over it. -/
theorem grants_paid (hrun : (server env).Run (fun _ _ => True) (State.initial env) ls s)
    (m : Nat) (id : UInt32) :
    bufferCount.toNat * (exchange env m ls).tail.count (.sent (grantFrame id)) ≤
      (exchange env m ls).countP (Passed.isData id) := by
  obtain ⟨as, has, hpassed⟩ := endpoint_refines hrun m
  have hdata : (exchange env m ls).countP (Passed.isData id) = as.countP (Act.uploads id) := by
    rw [← hpassed, List.countP_filterMap]
    refine List.countP_congr fun a _ => ?_
    cases a <;> rfl
  have hgrants : (exchange env m ls).tail.count (.sent (grantFrame id)) ≤
      as.countP (Act.grants id) := by
    cases as with
    | nil =>
      rw [← hpassed]
      exact Nat.zero_le _
    | cons a as =>
      obtain ⟨acts, heq, hnot⟩ := Multiplex.Run.greeted has (List.cons_ne_nil _ _)
      obtain ⟨rfl, rfl⟩ := List.cons.inj heq
      rw [← hpassed, List.filterMap_cons_some (show WispAct.passed .greet = some _ from rfl),
        List.tail_cons, List.count, List.countP_filterMap]
      refine Nat.le_trans (List.countP_mono_left fun a ha hp => ?_)
        (List.sublist_cons_self _ _).countP_le
      cases hpassed' : WispAct.passed a with
      | none =>
        rw [hpassed'] at hp
        cases hp
      | some p =>
        rw [hpassed'] at hp
        obtain rfl : p = .sent (grantFrame id) := by simpa using hp
        rcases WispAct.of_grant hpassed' with rfl | rfl
        · exact absurd ha hnot
        · exact decide_eq_true rfl
  rw [hdata]
  refine Nat.le_trans (Nat.mul_le_mul_left _ hgrants) ?_
  exact Multiplex.Run.grants_le (fun _ => window_le) has id

theorem grants_paid_uploadWithDownload :
    bufferCount.toNat * (exchange {} 0 uploadWithDownload).tail.count (.sent (grantFrame 1)) ≤
      (exchange {} 0 uploadWithDownload).countP (Passed.isData 1) :=
  grants_paid (System.Run.of_replay_getD (by decide +kernel)) 0 1

end Woeful
