import Mathlib.Logic.Function.Basic
import Mathlib.Logic.Function.Iterate
import Woeful.Lib.Run

/-!
# An endpoint that serves streams to one peer

The peer asks for streams and sends packets over them. The endpoint sends packets back, grants
the peer the credit for more, and closes streams when it likes to. Streams have identifiers in
`ι`, which the peer chooses, and a kind in `κ`; credit is counted in `γ`, and a reason for closing
is a `ρ`. `Rules` says how credit is counted.

What holds of all runs is proved here once: the endpoint says nothing about a stream that the
peer did not ask for (`Run.solicited`), and it grants no more windows than were used up
(`Run.grants_le`).
-/

namespace Multiplex

open Transition

universe u v w x y

/-- How credit is counted. -/
structure Rules (κ : Type v) (γ : Type w) where
  /-- streams of this kind use credit -/
  counts : κ → Bool
  /-- a full window -/
  window : γ
  /-- the credit that is left after one packet -/
  use : γ → γ
  /-- no credit -/
  spent : γ

/-- A stream. -/
structure Channel (κ : Type v) (γ : Type w) where
  /-- its kind -/
  kind : κ
  /-- the packets that the peer may still send -/
  credit : γ

/-- How far the endpoint is with its peer. -/
inductive Standing where
  /-- the peer is not there yet -/
  | fresh
  /-- the peer is served -/
  | serving
  /-- the peer has left -/
  | gone
  deriving DecidableEq

/-- The endpoint. -/
@[ext] structure Endpoint (ι : Type u) (κ : Type v) (γ : Type w) where
  /-- how far it is -/
  phase : Standing := .fresh
  /-- the streams that are open -/
  live : ι → Option (Channel κ γ) := fun _ => none
  /-- the request that is not answered yet -/
  request : Option (ι × κ) := none

/-- What happens between the endpoint and its peer. -/
inductive Act (ι : Type u) (κ : Type v) (β : Type x) (ρ : Type y) where
  /-- the endpoint greets the peer -/
  | greet
  /-- the peer asks for a stream -/
  | request (id : ι) (kind : κ)
  /-- the endpoint opens the stream -/
  | accept (id : ι) (kind : κ)
  /-- it does not -/
  | refuse (id : ι) (reason : ρ)
  /-- the peer sends a packet -/
  | upload (id : ι) (payload : β)
  /-- the endpoint sends a packet -/
  | download (id : ι) (payload : β)
  /-- it grants a window -/
  | grant (id : ι)
  /-- it closes a stream -/
  | close (id : ι) (reason : ρ)
  /-- the peer leaves -/
  | leave
  deriving DecidableEq

variable {ι : Type u} {κ : Type v} {γ : Type w} {β : Type x} {ρ : Type y}
  {R : Rules κ γ} {e e' : Endpoint ι κ γ} {a : Act ι κ β ρ} {as : List (Act ι κ β ρ)}
  {id id' : ι} {d : Option (Channel κ γ)}

namespace Channel

/-- A stream after a packet of the peer. -/
def used (R : Rules κ γ) (d : Channel κ γ) : Channel κ γ :=
  if R.counts d.kind then { d with credit := R.use d.credit } else d

/-- A stream with a full window. -/
def renewed (R : Rules κ γ) (d : Channel κ γ) : Channel κ γ := { d with credit := R.window }

end Channel

/-! ## What can happen -/

/-- The stream that the endpoint speaks about. -/
def Act.about : Act ι κ β ρ → Option ι
  | .refuse id _ => some id
  | .download id _ => some id
  | .grant id => some id
  | .close id _ => some id
  | _ => none

/-- When it can happen. -/
def Endpoint.allows (R : Rules κ γ) (e : Endpoint ι κ γ) : Act ι κ β ρ → Prop
  | .greet => e.phase = .fresh
  | .request _ _ => e.phase = .serving ∧ e.request = none
  | .accept id kind => e.phase = .serving ∧ e.request = some (id, kind)
  | .refuse id _ => e.phase = .serving ∧ ∃ kind, e.request = some (id, kind)
  | .upload _ _ => e.phase = .serving ∧ e.request = none
  | .download id _ => e.live id ≠ none
  | .grant id => ∃ d, e.live id = some d ∧ d.credit = R.spent
  | .close id _ => e.live id ≠ none
  | .leave => e.phase = .serving ∧ e.request = none ∧ ∀ id, e.live id = none

/-- What was asked for, given the acts so far. -/
structure Asked (as : List (Act ι κ β ρ)) (e : Endpoint ι κ γ) : Prop where
  /-- nothing happened before the greeting -/
  fresh : e.phase = .fresh → as = []
  /-- the greeting came first -/
  greeted : e.phase ≠ .fresh → ∃ rest, as = .greet :: rest ∧ .greet ∉ rest
  /-- open streams were asked for -/
  live : ∀ id, e.live id ≠ none → ∃ kind, .request id kind ∈ as
  /-- the request was made -/
  request : ∀ id kind, e.request = some (id, kind) → .request id kind ∈ as

theorem asked_nil : Asked ([] : List (Act ι κ β ρ)) ({} : Endpoint ι κ γ) where
  fresh _ := rfl
  greeted h := absurd rfl h
  live _ h := absurd rfl h
  request _ _ h := by cases h

/-- Before the greeting nothing but the greeting can happen. -/
theorem Asked.phase_ne_fresh (h : Asked as e) (hallows : e.allows R a) (ha : a ≠ .greet) :
    e.phase ≠ .fresh := by
  intro hfresh
  have hnil := h.fresh hfresh
  have hlive : ∀ id, e.live id = none := by
    intro id
    by_contra hne
    obtain ⟨kind, hmem⟩ := h.live id hne
    rw [hnil] at hmem
    exact List.not_mem_nil hmem
  have hserving : e.phase ≠ .serving := by
    rw [hfresh]
    decide
  cases a with
  | greet => exact ha rfl
  | request id kind => exact hserving hallows.1
  | accept id kind => exact hserving hallows.1
  | refuse id reason => exact hserving hallows.1
  | upload id payload => exact hserving hallows.1
  | download id payload => exact hallows (hlive id)
  | grant id =>
    obtain ⟨d, hd, -⟩ := hallows
    rw [hlive] at hd
    cases hd
  | close id reason => exact hallows (hlive id)
  | leave => exact hserving hallows.1

/-! ## What is then -/

variable [DecidableEq ι] {guard : Endpoint ι κ γ → Act ι κ β ρ → Prop}

namespace Endpoint

/-- The endpoint with `d` for stream `id`. -/
def put (e : Endpoint ι κ γ) (id : ι) (d : Option (Channel κ γ)) : Endpoint ι κ γ :=
  { e with live := Function.update e.live id d }

@[simp] theorem live_put_self : (e.put id d).live id = d := Function.update_self ..

theorem live_put_ne (h : id' ≠ id) : (e.put id d).live id' = e.live id' :=
  Function.update_of_ne h ..

@[simp] theorem put_put {d' : Option (Channel κ γ)} : (e.put id d).put id d' = e.put id d' :=
  Endpoint.ext rfl (Function.update_idem ..) rfl

theorem put_of_eq (h : e.live id = d) : e.put id d = e := by
  subst h
  exact Endpoint.ext rfl (Function.update_eq_self ..) rfl

theorem live_put : (e.put id d).live id' = if id' = id then d else e.live id' := by
  by_cases h : id' = id
  · subst h
    rw [if_pos rfl, live_put_self]
  · rw [if_neg h, live_put_ne h]

/-- The endpoint after an act. -/
def after (R : Rules κ γ) (e : Endpoint ι κ γ) : Act ι κ β ρ → Endpoint ι κ γ
  | .greet => { e with phase := .serving }
  | .request id kind => { e with request := some (id, kind) }
  | .accept id kind => { e with request := none }.put id (some ⟨kind, R.window⟩)
  | .refuse _ _ => { e with request := none }
  | .upload id _ => e.put id ((e.live id).map (.used R))
  | .download _ _ => e
  | .grant id => e.put id ((e.live id).map (.renewed R))
  | .close id _ => e.put id none
  | .leave => { e with phase := .gone }

end Endpoint

open Classical in
/-- The endpoint as a machine. -/
noncomputable def endpoint (R : Rules κ γ) : System (Endpoint ι κ γ) (Act ι κ β ρ) where
  init := {}
  step e a := if e.allows R a then some (e.after R a) else none

theorem step_eq_some :
    (endpoint R).step e a = some e' ↔ e.allows R a ∧ e.after R a = e' := by
  rw [endpoint, Option.ite_none_right_eq_some, Option.some.injEq]

/-- One act. -/
theorem run_act (h : e.allows R a) :
    (endpoint R).Run (fun _ _ => True) e [a] (e.after R a) :=
  .single trivial (step_eq_some.mpr ⟨h, rfl⟩)

/-! ## Nothing is said unasked -/

/-- An act leaves no stream open that was neither open nor asked for. -/
theorem live_after (hallows : e.allows R a) (h : (e.after R a).live id ≠ none) :
    e.live id ≠ none ∨ ∃ kind, e.request = some (id, kind) := by
  have hput : ∀ {id' : ι} {d : Option (Channel κ γ)}, (d ≠ none → e.live id' ≠ none) →
      (e.put id' d).live id ≠ none → e.live id ≠ none := by
    intro id' d hd hne
    by_cases hid : id = id'
    · subst hid
      rw [Endpoint.live_put_self] at hne
      exact hd hne
    · rwa [Endpoint.live_put_ne hid] at hne
  have hmap : ∀ {id' : ι} {f : Channel κ γ → Channel κ γ}, (e.live id').map f ≠ none →
      e.live id' ≠ none :=
    fun hne hnone => hne (by rw [hnone, Option.map_none])
  cases a with
  | accept id' kind =>
    by_cases hid : id = id'
    · subst hid
      exact Or.inr ⟨kind, hallows.2⟩
    · rw [Endpoint.after, Endpoint.live_put_ne hid] at h
      exact Or.inl h
  | upload id' payload => exact Or.inl (hput hmap h)
  | grant id' => exact Or.inl (hput hmap h)
  | close id' reason => exact Or.inl (hput (fun hne => absurd rfl hne) h)
  | _ => exact Or.inl h

/-- A request is made, or it was there. -/
theorem request_after {kind : κ} (h : (e.after R a).request = some (id, kind)) :
    a = .request id kind ∨ e.request = some (id, kind) := by
  cases a with
  | request id' kind' =>
    obtain ⟨rfl, rfl⟩ := Prod.mk.inj (Option.some.inj h)
    exact Or.inl rfl
  | accept id' kind' => cases h
  | refuse id' reason => cases h
  | _ => exact Or.inr h

theorem Asked.step (h : Asked as e) (hs : (endpoint R).step e a = some e') :
    Asked (as ++ [a]) e' := by
  obtain ⟨hallows, rfl⟩ := step_eq_some.mp hs
  have hold : ∀ {id kind}, .request id kind ∈ as → .request id kind ∈ as ++ [a] :=
    fun hmem => List.mem_append_left _ hmem
  constructor
  case fresh =>
    intro hfresh
    cases a with
    | greet => cases hfresh
    | leave => cases hfresh
    | _ => exact absurd hfresh (h.phase_ne_fresh hallows (by simp))
  case greeted =>
    intro _
    by_cases ha : a = .greet
    · subst ha
      rw [h.fresh hallows]
      exact ⟨[], rfl, List.not_mem_nil⟩
    · obtain ⟨rest, rfl, hrest⟩ := h.greeted (h.phase_ne_fresh hallows ha)
      refine ⟨rest ++ [a], rfl, fun hmem => ?_⟩
      rcases List.mem_append.mp hmem with hmem | hmem
      · exact hrest hmem
      · exact ha (List.mem_singleton.mp hmem).symm
  case live =>
    intro id hne
    rcases live_after hallows hne with hlive | ⟨kind, hreq⟩
    · obtain ⟨kind, hmem⟩ := h.live id hlive
      exact ⟨kind, hold hmem⟩
    · exact ⟨kind, hold (h.request id kind hreq)⟩
  case request =>
    intro id kind hreq
    rcases request_after hreq with rfl | hreq
    · exact List.mem_append_right _ (List.mem_singleton_self _)
    · exact hold (h.request id kind hreq)

theorem asked (h : (endpoint R).Run guard {} as e) : Asked as e :=
  h.preserves_labels (I := Asked) (fun _ _ _ _ _ hs hI => hI.step hs) asked_nil

/-- **The greeting comes first, and once.** -/
theorem Run.greeted (h : (endpoint R).Run guard {} as e) (has : as ≠ []) :
    ∃ rest, as = .greet :: rest ∧ .greet ∉ rest :=
  (asked h).greeted fun hfresh => has ((asked h).fresh hfresh)

/-- **Nothing is said about a stream that was not asked for.** -/
theorem Run.solicited {pre post : List (Act ι κ β ρ)}
    (h : (endpoint R).Run guard {} (pre ++ a :: post) e) (ha : a.about = some id) :
    ∃ kind, .request id kind ∈ pre := by
  obtain ⟨u, v, hpre, -, hs, -⟩ := h.split
  have hasked := asked hpre
  obtain ⟨hallows, -⟩ := step_eq_some.mp hs
  cases a with
  | refuse id' reason =>
    obtain rfl := Option.some.inj ha
    obtain ⟨-, kind, hreq⟩ := hallows
    exact ⟨kind, hasked.request _ _ hreq⟩
  | download id' payload =>
    obtain rfl := Option.some.inj ha
    exact hasked.live _ hallows
  | grant id' =>
    obtain rfl := Option.some.inj ha
    obtain ⟨d, hd, -⟩ := hallows
    exact hasked.live _ (by rw [hd]; exact Option.some_ne_none d)
  | close id' reason =>
    obtain rfl := Option.some.inj ha
    exact hasked.live _ hallows
  | _ => cases ha

/-! ## No window is granted that was not used up -/

namespace Act

/-- A window for stream `id`. -/
def grants (id : ι) : Act ι κ β ρ → Bool
  | grant id' => id' = id
  | _ => false

/-- A packet from the peer for stream `id`. -/
def uploads (id : ι) : Act ι κ β ρ → Bool
  | upload id' _ => id' = id
  | _ => false

end Act

variable {W : Nat}

/-- The windows granted for stream `id` were used up, and what is used of the present one was
used after that. -/
structure Paid (R : Rules κ γ) (W : Nat) (id : ι) (as : List (Act ι κ β ρ))
    (e : Endpoint ι κ γ) : Prop where
  /-- every window was used up -/
  windows : W * as.countP (Act.grants id) ≤ as.countP (Act.uploads id)
  /-- the credit is what was not used of the present one -/
  credit : ∀ d, e.live id = some d → ∃ n, d.credit = R.use^[n] R.window ∧
    W * as.countP (Act.grants id) + n ≤ as.countP (Act.uploads id)

/-- A stream with its window is paid for. -/
theorem Paid.of_full (hwindows : W * as.countP (Act.grants id) ≤ as.countP (Act.uploads id))
    (hlive : ∀ d, e.live id = some d → d.credit = R.window) : Paid R W id as e where
  windows := hwindows
  credit d hd := ⟨0, hlive d hd, hwindows⟩

/-- An act that is neither a window nor a packet for the stream, and leaves its credit. -/
theorem Paid.other (h : Paid R W id as e) (hgrants : a.grants id = false)
    (huploads : a.uploads id = false) (hlive : e'.live id = e.live id) :
    Paid R W id (as ++ [a]) e' := by
  have hg : (as ++ [a]).countP (Act.grants id) = as.countP (Act.grants id) := by simp [hgrants]
  have hu : (as ++ [a]).countP (Act.uploads id) = as.countP (Act.uploads id) := by simp [huploads]
  constructor
  · rw [hg, hu]
    exact h.windows
  · rw [hg, hu, hlive]
    exact h.credit

/-- Such an act after which the stream has its window, or is gone. -/
theorem Paid.anew (h : Paid R W id as e) (hgrants : a.grants id = false)
    (huploads : a.uploads id = false) (hlive : ∀ d, e'.live id = some d → d.credit = R.window) :
    Paid R W id (as ++ [a]) e' := by
  refine .of_full ?_ hlive
  simpa [hgrants, huploads] using h.windows

theorem Paid.step (hW : ∀ n, R.use^[n] R.window = R.spent → W ≤ n) (h : Paid R W id as e)
    (hs : (endpoint R).step e a = some e') : Paid R W id (as ++ [a]) e' := by
  obtain ⟨hallows, rfl⟩ := step_eq_some.mp hs
  cases a with
  | accept id' kind =>
    by_cases hid : id = id'
    · subst hid
      refine h.anew rfl rfl fun d hd => ?_
      rw [Endpoint.after, Endpoint.live_put_self] at hd
      exact congrArg Channel.credit (Option.some.inj hd).symm
    · exact h.other rfl rfl (Endpoint.live_put_ne hid)
  | upload id' payload =>
    by_cases hid : id = id'
    · subst hid
      have hg : (as ++ [Act.upload id payload]).countP (Act.grants id) =
          as.countP (Act.grants id) := by simp [Act.grants]
      have hu : (as ++ [Act.upload id payload]).countP (Act.uploads id) =
          as.countP (Act.uploads id) + 1 := by simp [Act.uploads]
      constructor
      · rw [hg, hu]
        exact Nat.le_succ_of_le h.windows
      · intro d hd
        rw [Endpoint.after, Endpoint.live_put_self, Option.map_eq_some_iff] at hd
        obtain ⟨d, hd, rfl⟩ := hd
        obtain ⟨n, hn, hle⟩ := h.credit d hd
        rw [hg, hu, Channel.used]
        split
        · refine ⟨n + 1, ?_, Nat.succ_le_succ hle⟩
          rw [Function.iterate_succ_apply', ← hn]
        · exact ⟨n, hn, Nat.le_succ_of_le hle⟩
    · exact h.other rfl (decide_eq_false (Ne.symm hid)) (Endpoint.live_put_ne hid)
  | grant id' =>
    by_cases hid : id = id'
    · subst hid
      -- the window that is over was used up
      obtain ⟨d, hd, hspent⟩ := hallows
      obtain ⟨n, hn, hle⟩ := h.credit d hd
      have hused := hW n (hn.symm.trans hspent)
      have hg : (as ++ [Act.grant id]).countP (Act.grants id) =
          as.countP (Act.grants id) + 1 := by simp [Act.grants]
      have hu : (as ++ [Act.grant id]).countP (Act.uploads id) =
          as.countP (Act.uploads id) := by simp [Act.uploads]
      refine .of_full ?_ fun d hd => ?_
      · rw [hg, hu, Nat.mul_succ]
        exact Nat.le_trans (Nat.add_le_add_left hused _) hle
      · rw [Endpoint.after, Endpoint.live_put_self, Option.map_eq_some_iff] at hd
        obtain ⟨d, -, rfl⟩ := hd
        rfl
    · exact h.other (decide_eq_false (Ne.symm hid)) rfl (Endpoint.live_put_ne hid)
  | close id' reason =>
    by_cases hid : id = id'
    · subst hid
      refine h.anew rfl rfl fun d hd => ?_
      rw [Endpoint.after, Endpoint.live_put_self] at hd
      cases hd
    · exact h.other rfl rfl (Endpoint.live_put_ne hid)
  | _ => exact h.other rfl rfl rfl

/-- **No window is granted that was not used up.** -/
theorem Run.grants_le (hW : ∀ n, R.use^[n] R.window = R.spent → W ≤ n)
    (h : (endpoint R).Run guard {} as e) (id : ι) :
    W * as.countP (Act.grants id) ≤ as.countP (Act.uploads id) := by
  have hnil : Paid R W id ([] : List (Act ι κ β ρ)) ({} : Endpoint ι κ γ) :=
    .of_full (Nat.le_refl _) fun d hd => by cases hd
  have hpaid : Paid R W id ([] ++ as) e :=
    h.preserves_labels (fun _ _ _ _ _ hs hI => hI.step hW hs) hnil
  exact hpaid.windows

/-! ## Several windows at once -/

/-- The endpoint after a window for every one of `ids`. -/
def Endpoint.renewAll (R : Rules κ γ) (e : Endpoint ι κ γ) (ids : List ι) : Endpoint ι κ γ :=
  { e with live := fun id => if id ∈ ids then (e.live id).map (.renewed R) else e.live id }

theorem renewAll_cons {ids : List ι} (h : id ∉ ids) :
    (e.put id ((e.live id).map (.renewed R))).renewAll R ids = e.renewAll R (id :: ids) := by
  have hlive : ∀ id', ((e.put id ((e.live id).map (.renewed R))).renewAll R ids).live id' =
      (e.renewAll R (id :: ids)).live id' := by
    intro id'
    by_cases he : id' = id
    · subst he
      simp [Endpoint.renewAll, h]
    · simp [Endpoint.renewAll, he, Endpoint.live_put_ne he]
  exact congrArg (fun live => { e with live := live }) (funext hlive)

/-- Every one of the streams `ids` can get a window, one after the other. -/
theorem run_grants {ids : List ι} (hnodup : ids.Nodup)
    (hspent : ∀ id ∈ ids, ∃ d, e.live id = some d ∧ d.credit = R.spent) :
    (endpoint R).Run (fun _ _ => True) e (ids.map fun id => (.grant id : Act ι κ β ρ))
      (e.renewAll R ids) := by
  induction ids generalizing e with
  | nil => exact .nil e
  | cons id ids ih =>
    obtain ⟨hid, hnodup⟩ := List.nodup_cons.mp hnodup
    rw [← renewAll_cons hid]
    refine .cons trivial (step_eq_some.mpr ⟨hspent id (List.mem_cons_self ..), rfl⟩) ?_
    refine ih hnodup fun id' hid' => ?_
    have hne : id' ≠ id := fun he => hid (he ▸ hid')
    rw [Endpoint.after, Endpoint.live_put_ne hne]
    exact hspent id' (List.mem_cons_of_mem _ hid')

end Multiplex
