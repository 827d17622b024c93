import Woeful.Frames

/-!
# The counter of a stream

What one step does to the `buffer` of one stream (`step_stream`): it stays, it is set to
`BUFFER_COUNT`, or a DATA for this very stream takes one off. The last is done without
looking, so a DATA that finds the counter at 0 makes it wrap (`step_wraps`): a client
that respects its credit never sends one, but nothing stops a client that does not
(`wrapped_counterexample`).
-/

namespace Woeful

open Memory Transition

variable {env : Env} {s t : State} {m : Nat} {id : UInt32} {l : Label}

/-! ## What a step does to a stream -/

/-- The manager and the stream that a DATA is for. -/
def Label.dataFor : Label → Option (Nat × UInt32)
  | .loop (.message m view) =>
    match WispPacket.parse view (UInt64.ofNat view.length) with
    | .ok packet => if packet.packetType = packetData then some (m, packet.streamId) else none
    | .error _ => none
  | _ => none

theorem Label.dataFor_message {view : Bytes} {packet : WispPacket}
    (hp : WispPacket.parse view (UInt64.ofNat view.length) = .ok packet)
    (hty : packet.packetType = packetData) :
    (Label.loop (.message m view)).dataFor = some (m, packet.streamId) := by
  rw [dataFor, hp]
  exact if_pos hty

theorem Label.dataFor_eq_some (h : l.dataFor = some (m, id)) :
    ∃ view packet, l = .loop (.message m view) ∧
      WispPacket.parse view (UInt64.ofNat view.length) = .ok packet ∧
      packet.packetType = packetData ∧ packet.streamId = id := by
  rw [dataFor.eq_def] at h
  split at h
  · rename_i m' view
    split at h
    · rename_i packet hp
      obtain ⟨hty, h⟩ := Option.ite_none_right_eq_some.mp h
      obtain ⟨rfl, rfl⟩ := Prod.mk.inj (Option.some.inj h)
      exact ⟨view, packet, rfl, hp, hty, rfl⟩
    · cases h
  · cases h

theorem Label.notFrom_eq_false (h : ¬ l.notFrom m = true) :
    ∃ view, l = .loop (.message m view) := by
  rw [notFrom.eq_def] at h
  split at h
  · rename_i m' view
    obtain rfl : m' = m := by simpa using h
    exact ⟨view, rfl⟩
  · exact absurd rfl h

/-- **What a step does to a stream**: nothing, it starts or is renewed with full credit,
or a DATA for it takes one packet off. -/
theorem step_stream (hs : s.step env l = some t) (hw : WellBound s) {d : SocketStreamData}
    (hd : t.stream m id = some d) : s.stream m id = some d ∨ d.buffer = bufferCount ∨
      l.dataFor = some (m, id) ∧ ∃ d', s.stream m id = some d' ∧ d'.streamType ≠ 0x02 ∧
        d = { d' with buffer := d'.buffer - 1 } := by
  have hsame : t.stream m = s.stream m → s.stream m id = some d := fun h => h ▸ hd
  by_cases hfrom : l.notFrom m = true
  · cases step_clientMove hs hw hfrom with
    | quiet hstream => exact Or.inl (hsame hstream)
    | opened _ _ hstream => exact Or.inl (hsame hstream)
    | refuse _ _ _ hstream => exact Or.inl (hsame hstream)
    | insert _ _ _ hstream =>
      rw [hstream] at hd
      split at hd
      · exact Or.inr (Or.inl (Option.some.inj hd ▸ rfl))
      · exact Or.inl hd
    | close _ _ hstream =>
      rw [hstream] at hd
      split at hd
      · cases hd
      · exact Or.inl hd
    | renew _ _ hstream =>
      rw [hstream, Option.map_eq_some_iff] at hd
      obtain ⟨d', hd', rfl⟩ := hd
      rw [SocketStreamData.renew]
      split
      · exact Or.inr (Or.inl rfl)
      · exact Or.inl hd'
  · obtain ⟨view, rfl⟩ := Label.notFrom_eq_false hfrom
    have hloop : s.loopStep env (.message m view) = some t := hs
    obtain ⟨packet, hp, -, -, hmove⟩ := (loopStep_cases hloop).receiveMove
    cases hmove with
    | other _ _ hstream => exact Or.inl (hsame hstream)
    | connect _ _ _ _ hstream => exact Or.inl (hsame hstream)
    | refuse _ _ hstream => exact Or.inl (hsame hstream)
    | @data d' renewed hty hd' hrenew _ hstream =>
      have hvalue := (hstream id).symm.trans hd
      split at hvalue
      · rename_i hkey
        obtain ⟨rfl, htype⟩ := hkey
        obtain rfl := Option.some.inj hvalue
        cases renewed with
        | true => exact Or.inr (Or.inl rfl)
        | false => exact Or.inr (Or.inr ⟨Label.dataFor_message hp hty, d', hd', htype, rfl⟩)
      · exact Or.inl hvalue

/-- A DATA that finds no credit takes one packet off all the same. -/
theorem step_wraps (hs : s.step env l = some t) (hl : l.dataFor = some (m, id))
    {d : SocketStreamData} (hd : s.stream m id = some d) (htype : d.streamType ≠ 0x02)
    (hzero : d.buffer = 0) : t.stream m id = some { d with buffer := d.buffer - 1 } := by
  obtain ⟨view, packet, rfl, hp, hty, rfl⟩ := Label.dataFor_eq_some hl
  have hloop : s.loopStep env (.message m view) = some t := hs
  obtain ⟨packet', hp', -, -, hmove⟩ := (loopStep_cases hloop).receiveMove
  obtain rfl : packet = packet' := Except.ok.inj (hp.symm.trans hp')
  cases hmove with
  | other hnone =>
    rw [hnone hty] at hd
    cases hd
  | connect hc =>
    rw [hty] at hc
    cases hc
  | refuse hc =>
    rw [hty] at hc
    cases hc
  | @data d' renewed _ hd' hrenew _ hstream =>
    obtain rfl : d = d' := Option.some.inj (hd.symm.trans hd')
    have hkept : renewed = false := by
      cases renewed with
      | false => rfl
      | true =>
        rw [hzero] at hrenew
        exact absurd (hrenew rfl) (by decide)
    rw [hstream, if_pos ⟨rfl, htype⟩, hkept]
    rfl

/-! ## The counter stays in its bounds -/

/-- Every `buffer` is between 0 and `BUFFER_COUNT`. -/
def BufferBounded (s : State) : Prop :=
  ∀ m id d, s.stream m id = some d → d.buffer ≤ bufferCount

/-- The condition on a step: a DATA for a stream that counts finds credit. -/
def State.dataCredited (s : State) (l : Label) : Bool :=
  l.dataFor.all fun k => (s.stream k.1 k.2).all fun d => d.streamType = 0x02 || d.buffer ≠ 0

theorem State.dataCredited_eq_false (h : ¬ s.dataCredited l = true) :
    ∃ m id d, l.dataFor = some (m, id) ∧ s.stream m id = some d ∧ d.streamType ≠ 0x02 ∧
      d.buffer = 0 := by
  rw [dataCredited] at h
  cases hl : l.dataFor with
  | none =>
    rw [hl] at h
    exact absurd rfl h
  | some k =>
    rw [hl, Option.all_some] at h
    cases hd : s.stream k.1 k.2 with
    | none =>
      rw [hd] at h
      exact absurd rfl h
    | some d =>
      rw [hd, Option.all_some] at h
      have hno : d.streamType ≠ 0x02 ∧ d.buffer = 0 := by simpa using h
      exact ⟨k.1, k.2, d, rfl, hd, hno⟩

theorem State.dataCredited_ne_zero (hg : s.dataCredited l = true) (hl : l.dataFor = some (m, id))
    {d : SocketStreamData} (hd : s.stream m id = some d) (htype : d.streamType ≠ 0x02) :
    d.buffer ≠ 0 := by
  rw [dataCredited, hl, Option.all_some, hd, Option.all_some] at hg
  simpa [htype] using hg

/-- **A step keeps the counters in their bounds exactly when its DATA finds credit.** -/
theorem BufferBounded.step_iff (hs : s.step env l = some t) (hw : WellBound s)
    (h : BufferBounded s) : BufferBounded t ↔ s.dataCredited l = true := by
  constructor
  · intro ht
    by_contra hg
    obtain ⟨m, id, d, hl, hd, htype, hzero⟩ := State.dataCredited_eq_false hg
    have hbound : d.buffer - 1 ≤ bufferCount := ht m id _ (step_wraps hs hl hd htype hzero)
    rw [hzero] at hbound
    exact absurd hbound (by decide)
  · intro hg m id d hd
    rcases step_stream hs hw hd with hold | hfull | ⟨hl, d', hd', htype, rfl⟩
    · exact h m id d hold
    · exact UInt32.le_of_eq hfull
    · have hpos := State.dataCredited_ne_zero hg hl hd' htype
      have hle := UInt32.le_iff_toNat_le.mp (h m id d' hd')
      have hone : 1 ≤ d'.buffer :=
        UInt32.le_iff_toNat_le.mpr (UInt32.lt_iff_toNat_lt.mp (UInt32.pos_iff_ne_zero.mpr hpos))
      rw [UInt32.le_iff_toNat_le]
      change (d'.buffer - 1).toNat ≤ _
      rw [UInt32.toNat_sub_of_le _ _ hone]
      exact Nat.le_trans (Nat.sub_le _ _) hle

/-- **The credit counter never wraps** in a run in which every DATA for a stream that
counts finds credit, and wraps with the first one that does not. -/
theorem buffers_bounded (h : (server env).Reaches (fun s l => s.dataCredited l = true) s) :
    BufferBounded s ∧
      ∀ l t, s.step env l = some t → (BufferBounded t ↔ s.dataCredited l = true) := by
  have hw : WellBound s := .of_reaches h
  have hbounded : BufferBounded s :=
    h.invariant_of (fun _ => WellBound.of_reaches) (fun _ _ _ hd => nomatch hd)
      fun _ _ _ hg hst hw hb => (hb.step_iff hst hw).mpr hg
  exact ⟨hbounded, fun l t hs => hbounded.step_iff hs hw⟩

/-- An upload that uses up its credit, and a drain that renews it. -/
def uploadAndDrain : List Label :=
  [.loop .opened] ++ connectLabels 0 1 7 ++ List.replicate 127 (dataLabel 0 1 [0]) ++
    [.loop (.drain 0), dataLabel 0 1 [0]]

theorem buffers_bounded_uploadAndDrain :
    BufferBounded ((server {}).final (fun s l => s.dataCredited l = true) uploadAndDrain) ∧
      ∀ l t, ((server {}).final (fun s l => s.dataCredited l = true) uploadAndDrain).step {} l =
        some t → (BufferBounded t ↔
          ((server {}).final (fun s l => s.dataCredited l = true) uploadAndDrain).dataCredited l =
            true) :=
  buffers_bounded (System.reaches_final _ _ _ (by decide +kernel))

/-- One DATA more than the client has credit for. -/
def uploadTooMuch : List Label :=
  [.loop .opened] ++ connectLabels 0 1 7 ++ List.replicate 128 (dataLabel 0 1 [0])

/-- **The wrapped counter**: after 128 packets in a row the stream has 2^32 - 1. -/
theorem wrapped_counterexample :
    ¬ ∀ (env : Env) (s : State), (server env).Reachable s → BufferBounded s := by
  intro h
  have hbounded := h {} _ ((server {}).reaches_final (fun _ _ => True) uploadTooMuch
    (by decide +kernel))
  have hle := hbounded 0 1 ⟨1, 1, 7, 4294967295⟩ (by decide +kernel)
  exact absurd hle (by decide)

end Woeful
