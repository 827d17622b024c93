import Woeful.Lib.Window
import Woeful.Frames

/-!
# The credit of a conforming client

One websocket with the client at its other end. The client takes the credit of a
fresh stream from the first frame it is sent, sends DATA on a TCP stream only while
it has credit, and does not reuse an id before it has received the CLOSE for it. Its
messages reach the server in order, and so do the frames the other way. Everything
else about the server is left open: other clients, targets, workers, drains, the
websocket closing at any time.

For one stream this is a link of `Woeful.Lib.Window` between the client's credit and
the server's `buffer`. The link exists from the CONNECT on and outlives the stream
until its CLOSE is received; `Phase` says where it stands in between, and the
messages on their way say the rest.
-/

namespace Woeful

open Memory Transition Window

/-! ## The two ends -/

/-- What the client knows about a stream. -/
structure ClientStream where
  /-- the type it asked for -/
  streamType : UInt8
  /-- how many DATA it may still send -/
  credit : Nat
  deriving DecidableEq, Repr

/-- The server, the client of one websocket, and what is under way between them. -/
structure Session where
  /-- the server -/
  server : State
  /-- how many of the frames sent to it the client has received -/
  received : Nat := 0
  /-- the credit of a fresh stream, once it is known -/
  initial : Option Nat := none
  /-- the streams the client uses -/
  streams : UInt32 → Option ClientStream := fun _ => none
  /-- the packets on their way to the server -/
  up : List WispPacket := []

/-- What can happen. -/
inductive SessionLabel where
  /-- the server moves, without a message of this client -/
  | server (l : Label)
  /-- the server takes the next message of this client -/
  | deliver
  /-- the client receives the next frame -/
  | receive
  /-- the client sends CONNECT -/
  | connect (id : UInt32) (streamType : UInt8) (destination : Bytes)
  /-- the client sends DATA -/
  | data (id : UInt32) (payload : Bytes)
  /-- the client sends anything else -/
  | other (packet : WispPacket)

namespace Session

variable (env : Env) (m : Nat)

/-- The frames on their way to the client. -/
def down (σ : Session) : List WispPacket := (σ.server.sentTo m).drop σ.received

/-- Change what the client knows about a stream. -/
def setStream (σ : Session) (id : UInt32) (c : Option ClientStream) : Session :=
  { σ with streams := Function.update σ.streams id c }

/-- The client takes a frame: CONTINUE sets the credit of its stream, the first one
that of fresh streams; CLOSE ends its stream. -/
def take (σ : Session) (packet : WispPacket) : Session :=
  if packet.packetType = packetContinue then
    match ContinuePacket.parse packet.data with
    | .error _ => σ
    | .ok n =>
      match σ.streams packet.streamId with
      | some c => σ.setStream packet.streamId (some { c with credit := n.toNat })
      | none =>
        if packet.streamId = 0 ∧ σ.initial = none then { σ with initial := some n.toNat } else σ
  else if packet.packetType = packetClose then σ.setStream packet.streamId none
  else σ

/-- The client sends DATA: TCP needs credit for it, UDP does not. -/
def sendData (σ : Session) (id : UInt32) (payload : Bytes) : Option Session :=
  match σ.streams id with
  | none => none
  | some c =>
    let σ : Session := { σ with up := σ.up ++ [⟨packetData, id, payload⟩] }
    if c.streamType = 0x02 then some σ
    else if 0 < c.credit then some (σ.setStream id (some { c with credit := c.credit - 1 }))
    else none

/-- The client sends CONNECT, on an id it does not use. -/
def sendConnect (σ : Session) (id : UInt32) (streamType : UInt8) (destination : Bytes) :
    Option Session :=
  match σ.initial, σ.streams id with
  | some n, none =>
    let σ : Session := { σ with up := σ.up ++ [⟨packetConnect, id, streamType :: destination⟩] }
    some (σ.setStream id (some ⟨streamType, n⟩))
  | _, _ => none

/-- One step of the whole. -/
def step (σ : Session) : SessionLabel → Option Session
  | .server l =>
    if l.notFrom m then (σ.server.step env l).map fun t => { σ with server := t } else none
  | .deliver =>
    match σ.up with
    | [] => none
    | p :: rest => (σ.server.step env (.loop (.message m p.serialize))).map
        fun t => { σ with server := t, up := rest }
  | .receive =>
    match σ.down m with
    | [] => none
    | p :: _ => some { σ.take p with received := σ.received + 1 }
  | .connect id streamType destination => σ.sendConnect id streamType destination
  | .data id payload => σ.sendData id payload
  | .other packet =>
    if packet.packetType ≠ packetConnect ∧ packet.packetType ≠ packetData then
      some { σ with up := σ.up ++ [packet] }
    else none

end Session

/-- The server with a conforming client at websocket `m`. -/
def session (env : Env) (m : Nat) : System Session SessionLabel where
  init := { server := State.initial env }
  step := Session.step env m

/-! ## What is under way -/

/-- Whether a packet is of type `type` and about stream `id`. -/
def WispPacket.is (type : UInt8) (id : UInt32) (p : WispPacket) : Bool :=
  p.packetType = type && p.streamId = id

namespace Session

/-- The DATA for stream `id` on their way to the server. -/
def dataInFlight (σ : Session) (id : UInt32) : Nat := σ.up.countP (·.is packetData id)

/-- The CONTINUE for stream `id` on their way to the client. -/
def continuesInFlight (σ : Session) (m : Nat) (id : UInt32) : Nat :=
  (σ.down m).countP (·.is packetContinue id)

end Session

/-- Credit is conserved: the server's count of a TCP stream is what the client may
send, what is on its way, and what was granted. -/
def CreditConserved (m : Nat) (σ : Session) : Prop :=
  ∀ id d, σ.server.stream m id = some d → d.streamType = 0x01 →
    ∃ c, σ.streams id = some c ∧
      d.buffer.toNat = c.credit + σ.dataInFlight id +
        bufferCount.toNat * σ.continuesInFlight m id ∧
      σ.continuesInFlight m id ≤ 1 ∧ d.buffer ≤ bufferCount ∧
      (0 < σ.dataInFlight id → 0 < d.buffer)

/-! ## Where a stream stands -/

variable {env : Env} {m : Nat} {id : UInt32}

/-- No CONNECT for `id` is among the packets. -/
def NoConnect (id : UInt32) (up : List WispPacket) : Prop :=
  ∀ p ∈ up, p.is packetConnect id = false

/-- No CLOSE for `id` is among the frames. -/
def NoClose (id : UInt32) (down : List WispPacket) : Prop :=
  ∀ p ∈ down, p.is packetClose id = false

/-- Neither CONTINUE nor CLOSE for `id` is among the frames. -/
def Silent (id : UInt32) (down : List WispPacket) : Prop :=
  ∀ p ∈ down, p.is packetContinue id = false ∧ p.is packetClose id = false

/-- The CONNECT in progress is not for `id`. -/
def NotCalling (id : UInt32) (call : Option ConnectCall) : Prop :=
  ∀ c, call = some c → c.streamId ≠ id

/-- The window of a stream. -/
abbrev window : Nat := bufferCount.toNat

/-- Where stream `id` stands, by what the server has of it, the CONNECT in progress,
what the client has of it, and the packets and frames on their way. -/
inductive Phase (id : UInt32) (stream : Option SocketStreamData) (call : Option ConnectCall)
    (client : Option ClientStream) (up down : List WispPacket) : Prop where
  /-- nobody uses the id -/
  | unused : stream = none → NotCalling id call → client = none → NoConnect id up →
      Silent id down → Phase id stream call client up down
  /-- the CONNECT is on its way; what precedes it is left from a stream before -/
  | requested {c : ClientStream} {p : WispPacket} {pre post : List WispPacket} :
      stream = none → NotCalling id call → client = some c → up = pre ++ p :: post →
      p.is packetConnect id = true → p.data[0]? = some c.streamType →
      NoConnect id pre → NoConnect id post → Silent id down →
      (c.streamType ≠ 0x02 → c.credit + post.countP (·.is packetData id) = window) →
      Phase id stream call client up down
  /-- the server is working on the CONNECT -/
  | calling {c : ClientStream} {call' : ConnectCall} :
      stream = none → call = some call' → call'.streamId = id → client = some c →
      call'.streamType = c.streamType → NoConnect id up → Silent id down →
      (c.streamType ≠ 0x02 → c.credit + up.countP (·.is packetData id) = window) →
      Phase id stream call client up down
  /-- the stream is there, at both ends -/
  | live {c : ClientStream} {d : SocketStreamData} :
      stream = some d → NotCalling id call → client = some c → d.streamType = c.streamType →
      NoConnect id up → NoClose id down →
      (c.streamType ≠ 0x02 → Balanced window ⟨c.credit, up.countP (·.is packetData id),
        down.countP (·.is packetContinue id), d.buffer.toNat⟩) →
      Phase id stream call client up down
  /-- the CLOSE is on its way -/
  | closing {c : ClientStream} {p : WispPacket} {pre post : List WispPacket} :
      stream = none → NotCalling id call → client = some c → NoConnect id up →
      down = pre ++ p :: post → p.is packetClose id = true → NoClose id pre → Silent id post →
      Phase id stream call client up down

theorem notCalling_none : NotCalling id none := fun _ h => nomatch h

theorem WispPacket.is_iff {p : WispPacket} {type : UInt8} :
    p.is type id = true ↔ p.packetType = type ∧ p.streamId = id := by
  rw [WispPacket.is, Bool.and_eq_true, decide_eq_true_iff, decide_eq_true_iff]

theorem WispPacket.is_of_type_ne {p : WispPacket} {type : UInt8} (h : p.packetType ≠ type) :
    p.is type id = false := by
  simp [WispPacket.is, h]

theorem WispPacket.is_of_id_ne {p : WispPacket} {type : UInt8} (h : p.streamId ≠ id) :
    p.is type id = false := by
  simp [WispPacket.is, h]

/-- A packet of one type is not of another. -/
theorem WispPacket.is_other {p : WispPacket} {type type' : UInt8} (h : p.is type id = true)
    (hne : type ≠ type') : p.is type' id = false :=
  is_of_type_ne ((is_iff.mp h).1 ▸ hne)

theorem Silent.noClose {down : List WispPacket} (h : Silent id down) : NoClose id down :=
  fun p hp => (h p hp).2

theorem Silent.countP {down : List WispPacket} (h : Silent id down) :
    down.countP (·.is packetContinue id) = 0 :=
  List.countP_eq_zero.mpr fun p hp => by simp [(h p hp).1]

namespace Phase

variable {stream : Option SocketStreamData} {call call' : Option ConnectCall}
  {client : Option ClientStream} {up down frames : List WispPacket} {p : WispPacket}

/-! ### Steps about something else -/

/-- Frames that are not about `id` are sent, and the CONNECT in progress changes, but
it is about another stream before and after. -/
theorem append_down (h : Phase id stream call client up down) (hf : Silent id frames) :
    Phase id stream call client up (down ++ frames) := by
  have hsilent : ∀ {l}, Silent id l → Silent id (l ++ frames) := by
    intro l hl p hp
    rcases List.mem_append.mp hp with hp | hp
    · exact hl p hp
    · exact hf p hp
  cases h with
  | unused hs hcall hc hup hdown => exact .unused hs hcall hc hup (hsilent hdown)
  | requested hs hcall hc hup hp htype hpre hpost hdown hcredit =>
    exact .requested hs hcall hc hup hp htype hpre hpost (hsilent hdown) hcredit
  | calling hs hcall hid hc htype hup hdown hcredit =>
    exact .calling hs hcall hid hc htype hup (hsilent hdown) hcredit
  | live hs hcall hc htype hup hdown hlink =>
    refine .live hs hcall hc htype hup (fun p hp => ?_) fun htcp => ?_
    · rcases List.mem_append.mp hp with hp | hp
      · exact hdown p hp
      · exact (hf p hp).2
    · rw [List.countP_append, Silent.countP hf, Nat.add_zero]
      exact hlink htcp
  | @closing c p pre post hs hcall hc hup hdown hp hpre hpost =>
    subst hdown
    exact .closing hs hcall hc hup (by rw [List.append_assoc]; rfl) hp hpre (hsilent hpost)

theorem change_call (h : Phase id stream call client up down) (hcall : NotCalling id call)
    (hcall' : NotCalling id call') : Phase id stream call' client up down := by
  cases h with
  | unused hs _ hc hup hdown => exact .unused hs hcall' hc hup hdown
  | requested hs _ hc hup hp htype hpre hpost hdown hcredit =>
    exact .requested hs hcall' hc hup hp htype hpre hpost hdown hcredit
  | calling hs hcall₁ hid hc htype hup hdown hcredit => exact absurd hid (hcall _ hcall₁)
  | live hs _ hc htype hup hdown hlink => exact .live hs hcall' hc htype hup hdown hlink
  | closing hs _ hc hup hdown hp hpre hpost => exact .closing hs hcall' hc hup hdown hp hpre hpost

theorem noConnect_append {l l' : List WispPacket} (h : NoConnect id l) (h' : NoConnect id l') :
    NoConnect id (l ++ l') := by
  intro p hp
  rcases List.mem_append.mp hp with hp | hp
  · exact h p hp
  · exact h' p hp

/-- The client sends a packet that is not about `id`, or neither CONNECT nor DATA. -/
theorem append_up (h : Phase id stream call client up down) (hp : p.is packetConnect id = false)
    (hp' : p.is packetData id = false) : Phase id stream call client (up ++ [p]) down := by
  have hnone : NoConnect id [p] := fun q hq => List.mem_singleton.mp hq ▸ hp
  have hcount : [p].countP (·.is packetData id) = 0 := by simp [hp']
  cases h with
  | unused hs hcall hc hup hdown => exact .unused hs hcall hc (noConnect_append hup hnone) hdown
  | @requested c q pre post hs hcall hc hup hq htype hpre hpost hdown hcredit =>
    subst hup
    refine .requested hs hcall hc (by rw [List.append_assoc]; rfl) hq htype hpre
      (noConnect_append hpost hnone) hdown fun htcp => ?_
    rw [List.countP_append, hcount]
    exact hcredit htcp
  | calling hs hcall hid hc htype hup hdown hcredit =>
    refine .calling hs hcall hid hc htype (noConnect_append hup hnone) hdown fun htcp => ?_
    rw [List.countP_append, hcount]
    exact hcredit htcp
  | live hs hcall hc htype hup hdown hlink =>
    refine .live hs hcall hc htype (noConnect_append hup hnone) hdown fun htcp => ?_
    rw [List.countP_append, hcount]
    exact hlink htcp
  | closing hs hcall hc hup hdown hq hpre hpost =>
    exact .closing hs hcall hc (noConnect_append hup hnone) hdown hq hpre hpost

/-- The server takes a packet that is not about `id`, or neither CONNECT nor DATA. -/
theorem pop_up (h : Phase id stream call client (p :: up) down)
    (hp : p.is packetConnect id = false) (hp' : p.is packetData id = false) :
    Phase id stream call client up down := by
  have htail : ∀ {l}, NoConnect id (p :: l) → NoConnect id l :=
    fun hl q hq => hl q (List.mem_cons_of_mem _ hq)
  have hcount : (p :: up).countP (·.is packetData id) = up.countP (·.is packetData id) :=
    List.countP_cons_of_neg (by simp [hp'])
  cases h with
  | unused hs hcall hc hup hdown => exact .unused hs hcall hc (htail hup) hdown
  | @requested c q pre post hs hcall hc hup hq htype hpre hpost hdown hcredit =>
    cases pre with
    | nil =>
      obtain ⟨rfl, -⟩ := List.cons.inj hup
      rw [hp] at hq
      cases hq
    | cons q' pre =>
      obtain ⟨rfl, hrest⟩ := List.cons.inj hup
      exact .requested hs hcall hc hrest hq htype (htail hpre) hpost hdown hcredit
  | calling hs hcall hid hc htype hup hdown hcredit =>
    rw [hcount] at hcredit
    exact .calling hs hcall hid hc htype (htail hup) hdown hcredit
  | live hs hcall hc htype hup hdown hlink =>
    rw [hcount] at hlink
    exact .live hs hcall hc htype (htail hup) hdown hlink
  | closing hs hcall hc hup hdown hq hpre hpost =>
    exact .closing hs hcall hc (htail hup) hdown hq hpre hpost

/-- The client receives a frame that is not about `id`, or neither CONTINUE nor CLOSE. -/
theorem pop_down (h : Phase id stream call client up (p :: down))
    (hp : p.is packetContinue id = false) (hp' : p.is packetClose id = false) :
    Phase id stream call client up down := by
  have htail : ∀ {l}, Silent id (p :: l) → Silent id l :=
    fun hl q hq => hl q (List.mem_cons_of_mem _ hq)
  cases h with
  | unused hs hcall hc hup hdown => exact .unused hs hcall hc hup (htail hdown)
  | requested hs hcall hc hup hq htype hpre hpost hdown hcredit =>
    exact .requested hs hcall hc hup hq htype hpre hpost (htail hdown) hcredit
  | calling hs hcall hid hc htype hup hdown hcredit =>
    exact .calling hs hcall hid hc htype hup (htail hdown) hcredit
  | live hs hcall hc htype hup hdown hlink =>
    refine .live hs hcall hc htype hup (fun q hq => hdown q (List.mem_cons_of_mem _ hq)) ?_
    rw [List.countP_cons_of_neg (by simp [hp])] at hlink
    exact hlink
  | @closing c q pre post hs hcall hc hup hdown hq hpre hpost =>
    cases pre with
    | nil =>
      obtain ⟨rfl, -⟩ := List.cons.inj hdown
      rw [hp'] at hq
      cases hq
    | cons q' pre =>
      obtain ⟨rfl, hrest⟩ := List.cons.inj hdown
      exact .closing hs hcall hc hup hrest hq (fun q hq => hpre q (List.mem_cons_of_mem _ hq)) hpost

/-! ### The client moves -/

/-- The client sends CONNECT. -/
theorem connect {type : UInt8} (h : Phase id stream call none up down)
    (hp : p.is packetConnect id = true) (hdata : p.data[0]? = some type) :
    Phase id stream call (some ⟨type, window⟩) (up ++ [p]) down := by
  cases h with
  | unused hs hcall _ hup hdown =>
    exact .requested hs hcall rfl rfl hp hdata hup (fun _ hq => nomatch hq) hdown fun _ => rfl
  | requested _ _ hc => cases hc
  | calling _ _ _ hc => cases hc
  | live _ _ hc => cases hc
  | closing _ _ hc => cases hc

/-- The client sends DATA, and uses a credit where these count. -/
theorem data {c c' : ClientStream} (h : Phase id stream call (some c) up down)
    (hp : p.is packetData id = true) (htype : c'.streamType = c.streamType)
    (hcredit : c.streamType ≠ 0x02 → c.credit = c'.credit + 1) :
    Phase id stream call (some c') (up ++ [p]) down := by
  have hnone : NoConnect id [p] :=
    fun q hq => List.mem_singleton.mp hq ▸ WispPacket.is_other hp (by decide)
  have hcount : ∀ l : List WispPacket,
      (l ++ [p]).countP (·.is packetData id) = l.countP (·.is packetData id) + 1 := by
    intro l
    rw [List.countP_append]
    simp [hp]
  cases h with
  | unused _ _ hc => cases hc
  | @requested c₁ q pre post hs hcall hc hup hq hqtype hpre hpost hdown hbalance =>
    obtain rfl := Option.some.inj hc
    subst hup
    refine .requested hs hcall rfl (by rw [List.append_assoc]; rfl) hq (htype ▸ hqtype) hpre
      (noConnect_append hpost hnone) hdown fun htcp => ?_
    have hsum := hbalance (htype ▸ htcp)
    have hused := hcredit (htype ▸ htcp)
    rw [hcount]
    omega
  | calling hs hcall hid hc hctype hup hdown hbalance =>
    obtain rfl := Option.some.inj hc
    refine .calling hs hcall hid rfl (hctype.trans htype.symm) (noConnect_append hup hnone) hdown
      fun htcp => ?_
    have hsum := hbalance (htype ▸ htcp)
    have hused := hcredit (htype ▸ htcp)
    rw [hcount]
    omega
  | live hs hcall hc hctype hup hdown hlink =>
    obtain rfl := Option.some.inj hc
    refine .live hs hcall rfl (hctype.trans htype.symm) (noConnect_append hup hnone) hdown
      fun htcp => ?_
    have hlink := hlink (htype ▸ htcp)
    rw [hcredit (htype ▸ htcp)] at hlink
    rw [hcount]
    exact hlink.step .send
  | closing hs hcall hc hup hdown hq hpre hpost =>
    exact .closing hs hcall rfl (noConnect_append hup hnone) hdown hq hpre hpost

/-- The client receives a CONTINUE for `id`: the stream is there, or was closed since. -/
theorem grant (h : Phase id stream call client up (p :: down))
    (hp : p.is packetContinue id = true) :
    ∃ c, client = some c ∧
      Phase id stream call (some { c with credit := window }) up down := by
  have hsilent : ¬ Silent id (p :: down) := by
    intro hs
    rw [(hs p (List.mem_cons_self ..)).1] at hp
    cases hp
  cases h with
  | unused _ _ _ _ hdown => exact absurd hdown hsilent
  | requested _ _ _ _ _ _ _ _ hdown => exact absurd hdown hsilent
  | calling _ _ _ _ _ _ hdown => exact absurd hdown hsilent
  | @live c _ hs hcall hc htype hup hdown hlink =>
    refine ⟨c, hc, .live hs hcall rfl htype hup (fun q hq => hdown q (List.mem_cons_of_mem _ hq))
      fun htcp => ?_⟩
    have hlink := hlink htcp
    rw [List.countP_cons_of_pos hp] at hlink
    exact hlink.step .grant
  | @closing c q pre post hs hcall hc hup hdown hq hpre hpost =>
    cases pre with
    | nil =>
      obtain ⟨rfl, -⟩ := List.cons.inj hdown
      rw [WispPacket.is_other hp (by decide)] at hq
      cases hq
    | cons q' pre =>
      obtain ⟨rfl, hrest⟩ := List.cons.inj hdown
      exact ⟨c, hc, .closing hs hcall rfl hup hrest hq
        (fun q hq => hpre q (List.mem_cons_of_mem _ hq)) hpost⟩

/-- The client receives the CLOSE for `id`. -/
theorem closed (h : Phase id stream call client up (p :: down))
    (hp : p.is packetClose id = true) : Phase id stream call none up down := by
  have hclose : ¬ NoClose id (p :: down) := by
    intro hn
    rw [hn p (List.mem_cons_self ..)] at hp
    cases hp
  cases h with
  | unused _ _ _ _ hdown => exact absurd hdown.noClose hclose
  | requested _ _ _ _ _ _ _ _ hdown => exact absurd hdown.noClose hclose
  | calling _ _ _ _ _ _ hdown => exact absurd hdown.noClose hclose
  | live _ _ _ _ _ hdown => exact absurd hdown hclose
  | @closing c q pre post hs hcall hc hup hdown hq hpre hpost =>
    cases pre with
    | nil =>
      obtain ⟨rfl, rfl⟩ := List.cons.inj hdown
      exact .unused hs hcall rfl hup hpost
    | cons q' pre =>
      obtain ⟨rfl, -⟩ := List.cons.inj hdown
      rw [hpre _ (List.mem_cons_self ..)] at hp
      cases hp

/-! ### The server moves -/

/-- The CONNECT in progress is for `id`, and fails. -/
theorem refused {c : ConnectCall} (h : Phase id stream (some c) client up down)
    (hid : c.streamId = id) (hp : p.is packetClose id = true) :
    Phase id stream none client up (down ++ [p]) := by
  cases h with
  | unused _ hcall => exact absurd hid (hcall c rfl)
  | requested _ hcall => exact absurd hid (hcall c rfl)
  | calling hs _ _ hc _ hup hdown _ =>
    exact .closing hs notCalling_none hc hup rfl hp hdown.noClose (fun _ hq => nomatch hq)
  | live _ hcall => exact absurd hid (hcall c rfl)
  | closing _ hcall => exact absurd hid (hcall c rfl)

/-- The CONNECT in progress is for `id`, and its stream is stored. -/
theorem stored {c : ConnectCall} {fd : Fd} (h : Phase id stream (some c) client up down)
    (hid : c.streamId = id) :
    Phase id (some ⟨c.streamType, c.streamId, fd, bufferCount⟩) none client up down := by
  cases h with
  | unused _ hcall => exact absurd hid (hcall c rfl)
  | requested _ hcall => exact absurd hid (hcall c rfl)
  | calling _ hcall _ hc htype hup hdown hbalance =>
    obtain rfl := Option.some.inj hcall
    refine .live rfl notCalling_none hc htype hup hdown.noClose fun htcp => ?_
    have hsum := (hbalance htcp).symm
    rw [hdown.countP]
    exact ⟨hsum, Nat.le_refl _⟩
  | live _ hcall => exact absurd hid (hcall c rfl)
  | closing _ hcall => exact absurd hid (hcall c rfl)

/-- The stream is closed. -/
theorem close {d : SocketStreamData} (h : Phase id (some d) call client up down)
    (hp : p.is packetClose id = true) : Phase id none call client up (down ++ [p]) := by
  cases h with
  | unused hs => cases hs
  | requested hs => cases hs
  | calling hs => cases hs
  | live _ hcall hc _ hup hdown _ =>
    exact .closing rfl hcall hc hup rfl hp hdown (fun _ hq => nomatch hq)
  | closing hs => cases hs

/-- Exhausted streams are renewed, `id` among them if it is one. -/
theorem renew (h : Phase id stream call client up down) (hclose : NoClose id frames)
    (hcount : frames.countP (·.is packetContinue id) =
      if stream.any (·.buffer = 0) then 1 else 0) :
    Phase id (stream.map SocketStreamData.renew) call client up (down ++ frames) := by
  have hgone : stream = none → Phase id (stream.map SocketStreamData.renew) call client up
      (down ++ frames) := by
    rintro rfl
    refine h.append_down fun p hp => ⟨?_, hclose p hp⟩
    simpa using List.countP_eq_zero.mp hcount p hp
  cases h with
  | unused hs => exact hgone hs
  | requested hs => exact hgone hs
  | calling hs => exact hgone hs
  | @live c d hs hcall hc htype hup hdown hlink =>
    subst hs
    refine .live rfl hcall hc ?_ hup (fun p hp => ?_) fun htcp => ?_
    · rw [SocketStreamData.renew]
      split <;> exact htype
    · rcases List.mem_append.mp hp with hp | hp
      · exact hdown p hp
      · exact hclose p hp
    · have hlink := hlink htcp
      rw [List.countP_append, hcount, SocketStreamData.renew]
      by_cases hzero : d.buffer = 0
      · rw [hzero] at hlink
        simp only [Option.any_some, hzero, decide_true, if_true]
        exact hlink.step .renew
      · simpa [hzero] using hlink
  | closing hs => exact hgone hs

/-- The server takes the CONNECT for `id` and goes on with it. -/
theorem called {c : ConnectCall} (h : Phase id stream none client (p :: up) down)
    (hp : p.is packetConnect id = true) (hid : c.streamId = id)
    (htype : p.data[0]? = some c.streamType) :
    Phase id stream (some c) client up down := by
  have hhead : ¬ NoConnect id (p :: up) := by
    intro hn
    rw [hn p (List.mem_cons_self ..)] at hp
    cases hp
  cases h with
  | unused _ _ _ hup => exact absurd hup hhead
  | @requested c₁ q pre post hs hcall hc hup hq hqtype hpre hpost hdown hbalance =>
    cases pre with
    | nil =>
      obtain ⟨rfl, rfl⟩ := List.cons.inj hup
      exact .calling hs rfl hid hc (Option.some.inj (htype.symm.trans hqtype)) hpost hdown hbalance
    | cons q' pre =>
      obtain ⟨rfl, -⟩ := List.cons.inj hup
      rw [hpre _ (List.mem_cons_self ..)] at hp
      cases hp
  | calling _ hcall => cases hcall
  | live _ _ _ _ hup => exact absurd hup hhead
  | closing _ _ _ hup => exact absurd hup hhead

/-- The server takes the CONNECT for `id` and refuses it. -/
theorem called_refused {q : WispPacket} (h : Phase id stream none client (p :: up) down)
    (hp : p.is packetConnect id = true) (hq : q.is packetClose id = true) :
    Phase id stream none client up (down ++ [q]) := by
  -- as if it went on with some call and refused that
  have hcall : ∃ c : ClientStream, p.data[0]? = some c.streamType := by
    cases h with
    | unused _ _ _ hup => exact absurd hp (by rw [hup p (List.mem_cons_self ..)]; decide)
    | @requested c _ pre _ _ _ _ hup _ hqtype hpre =>
      cases pre with
      | nil =>
        obtain ⟨rfl, -⟩ := List.cons.inj hup
        exact ⟨c, hqtype⟩
      | cons q' pre =>
        obtain ⟨rfl, -⟩ := List.cons.inj hup
        exact absurd hp (by rw [hpre _ (List.mem_cons_self ..)]; decide)
    | calling _ hcall => cases hcall
    | live _ _ _ _ hup => exact absurd hp (by rw [hup p (List.mem_cons_self ..)]; decide)
    | closing _ _ _ hup => exact absurd hp (by rw [hup p (List.mem_cons_self ..)]; decide)
  obtain ⟨c, hc⟩ := hcall
  exact (h.called (c := ⟨0, id, c.streamType⟩) hp rfl hc).refused rfl hq

/-- The server takes DATA for `id`, which it does not know. -/
theorem ignored (h : Phase id none none client (p :: up) down) (hp : p.is packetData id = true) :
    Phase id none none client up down := by
  have htail : ∀ {l}, NoConnect id (p :: l) → NoConnect id l :=
    fun hl q hq => hl q (List.mem_cons_of_mem _ hq)
  cases h with
  | unused hs hcall hc hup hdown => exact .unused hs hcall hc (htail hup) hdown
  | @requested c q pre post hs hcall hc hup hq htype hpre hpost hdown hcredit =>
    cases pre with
    | nil =>
      obtain ⟨rfl, -⟩ := List.cons.inj hup
      rw [WispPacket.is_other hp (by decide)] at hq
      cases hq
    | cons q' pre =>
      obtain ⟨rfl, hrest⟩ := List.cons.inj hup
      exact .requested hs hcall hc hrest hq htype (htail hpre) hpost hdown hcredit
  | calling _ hcall => cases hcall
  | live hs => cases hs
  | closing hs hcall hc hup hdown hq hpre hpost =>
    exact .closing hs hcall hc (htail hup) hdown hq hpre hpost

/-- The server takes DATA for `id`: it counts, and where the count runs out it may grant
a window at once. -/
theorem taken {d : SocketStreamData} {renewed : Bool}
    (h : Phase id (some d) call client (p :: up) down) (hp : p.is packetData id = true)
    (hrenewed : renewed = true → d.buffer - 1 = 0) :
    Phase id (some (if d.streamType ≠ 0x02 then
        { d with buffer := if renewed then bufferCount else d.buffer - 1 } else d)) call client up
      (down ++ if d.streamType ≠ 0x02 ∧ renewed then [grantFrame id] else []) := by
  cases h with
  | unused hs => cases hs
  | requested hs => cases hs
  | calling hs => cases hs
  | @live c _ hs hcall hc htype hup hdown hlink =>
    obtain rfl := Option.some.inj hs
    have hup : NoConnect id up := fun q hq => hup q (List.mem_cons_of_mem _ hq)
    by_cases htcp : d.streamType = 0x02
    · rw [if_neg (fun h => h htcp), if_neg (fun h => h.1 htcp), List.append_nil]
      exact .live rfl hcall hc htype hup hdown fun h => absurd (htype ▸ htcp) h
    · have hlink := hlink (htype ▸ htcp)
      rw [List.countP_cons_of_pos hp] at hlink
      -- the DATA was covered by credit, so the counter does not wrap
      have hpos : 0 < d.buffer.toNat := hlink.buffer_pos (Nat.succ_pos _)
      have hsub : (d.buffer - 1).toNat = d.buffer.toNat - 1 := by
        rw [UInt32.toNat_sub_of_le]
        · rfl
        · exact UInt32.le_iff_toNat_le.mpr hpos
      have htook := hlink.step .receive
      cases renewed with
      | false =>
        have hneither : ¬ (d.streamType ≠ 0x02 ∧ false = true) := fun h => nomatch h.2
        rw [if_pos htcp, if_neg hneither, List.append_nil]
        refine .live rfl hcall hc htype hup hdown fun _ => ?_
        rw [← hsub] at htook
        exact htook
      | true =>
        have hzero : d.buffer.toNat - 1 = 0 := by
          rw [← hsub, hrenewed rfl]
          rfl
        have hboth : d.streamType ≠ 0x02 ∧ true = true := ⟨htcp, rfl⟩
        rw [if_pos htcp, if_pos hboth]
        refine .live rfl hcall hc htype hup (fun q hq => ?_) fun _ => ?_
        · rcases List.mem_append.mp hq with hq | hq
          · exact hdown q hq
          · obtain rfl := List.mem_singleton.mp hq
            exact WispPacket.is_of_type_ne (show packetContinue ≠ packetClose by decide)
        · rw [hzero] at htook
          rw [List.countP_append]
          have hgrant : [grantFrame id].countP (·.is packetContinue id) = 1 := by
            simp [WispPacket.is, grantFrame]
          rw [hgrant]
          exact htook.step .renew
  | closing hs => cases hs

end Phase

end Woeful
