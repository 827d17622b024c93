import Woeful.Bounds

/-!
# The hostname of a CONNECT

`ConnectPacket` copies what follows the port into a buffer of its own and makes sure that
it ends with a 0. Whether it has to add one it finds out from the last byte of the
*payload*: that is the last byte of the hostname, unless there is no hostname. Then it is
the upper byte of the port, and for a port below 256 the buffer is empty
(`unterminated_counterexample`). Every other payload gets the string it asks for
(`connects_decode_iff`).
-/

namespace Woeful

open Memory

/-- What `ConnectPacket` is to make of a payload. -/
structure ConnectPacket.DecodedFrom (src : Bytes) (p : ConnectPacket) : Prop where
  /-- the first byte is the stream type -/
  streamType : src[0]? = some p.streamType
  /-- the next two are the port, low byte first -/
  destinationPort : ∃ b0 b1, src[1]? = some b0 ∧ src[2]? = some b1 ∧
    p.destinationPort.toNat = b0.toNat + 256 * b1.toNat
  /-- the buffer of the hostname is terminated -/
  terminated : 0 ∈ p.destinationHostname
  /-- and denotes the rest, up to its first 0 if it has one -/
  hostname : cString p.destinationHostname = .ok ((src.drop 3).takeWhile (· ≠ 0))

/-- What the constructor adds to the hostname. -/
def ConnectPacket.terminator (last : UInt8) : Bytes := if last = 0 then [] else [0]

/-- The last byte of a payload: the last one of the hostname, or else of the port. -/
theorem ConnectPacket.readU8_last {type b0 b1 : UInt8} {hostname : Bytes}
    (hsize : ([type, b0, b1] ++ hostname).length < 2 ^ 63) :
    readU8 ([type, b0, b1] ++ hostname)
      (UInt64.ofNat ([type, b0, b1] ++ hostname).length - 1).toNat =
        .ok (hostname.getLast?.getD b1) := by
  rw [toNat_ofNat_sub (by simp) (by omega), readU8_eq_ok]
  cases hlast : hostname.getLast? with
  | none =>
    rw [List.getLast?_eq_none_iff.mp hlast]
    rfl
  | some last =>
    obtain ⟨front, rfl⟩ := List.getLast?_eq_some_iff.mp hlast
    rw [← List.append_assoc, List.length_append]
    exact List.getElem?_concat_length

theorem ofLE16_toNat (b0 b1 : UInt8) : (ofLE16 b0 b1).toNat = b0.toNat + 256 * b1.toNat := by
  have h0 := b0.toNat_lt
  have h1 := b1.toNat_lt
  rw [ofLE16, UInt16.toNat_ofNat', Nat.mod_eq_of_lt (by omega)]
  rfl

/-- **What the constructor does**, the hostname being what follows the port. -/
theorem ConnectPacket.parse_append {type b0 b1 : UInt8} {hostname : Bytes}
    (hsize : ([type, b0, b1] ++ hostname).length < 2 ^ 63) :
    ConnectPacket.parse ([type, b0, b1] ++ hostname)
      (UInt64.ofNat ([type, b0, b1] ++ hostname).length) =
        .ok ⟨type, ofLE16 b0 b1, hostname ++ terminator (hostname.getLast?.getD b1)⟩ := by
  have hlen : (hostnameLen (UInt64.ofNat ([type, b0, b1] ++ hostname).length)).toNat =
      hostname.length := toNat_lengthField hsize rfl
  have halloc : ∀ last, allocate (hostnameLen (UInt64.ofNat ([type, b0, b1] ++ hostname).length) +
      UInt64.ofNat (terminator last).length) = .ok () := by
    intro last
    have hofNat : (UInt64.ofNat (terminator last).length).toNat ≤ 1 := by
      rw [terminator]
      split <;> decide
    rw [List.length_append, List.length_cons, List.length_cons, List.length_cons] at hsize
    rw [allocate, if_pos]
    rw [UInt64.toNat_add, hlen]
    omega
  rw [parse]
  refine andThen_eq_ok.mpr ⟨type, rfl, andThen_eq_ok.mpr ⟨ofLE16 b0 b1,
    readU16_eq_ok.mpr ⟨b0, b1, rfl, rfl, rfl⟩, andThen_eq_ok.mpr ⟨_, readU8_last hsize,
      andThen_eq_ok.mpr ⟨(), halloc _, andThen_eq_ok.mpr ⟨hostname, ?_, rfl⟩⟩⟩⟩⟩
  rw [hlen]
  exact memcpy_append rfl

theorem takeWhile_snoc_zero (bs : Bytes) :
    (bs ++ [0]).takeWhile (· ≠ 0) = bs.takeWhile (· ≠ 0) := by
  induction bs with
  | nil => rfl
  | cons b bs ih =>
    rw [List.cons_append, List.takeWhile_cons, List.takeWhile_cons, ih]

/-- The terminator does not change the string. -/
theorem ConnectPacket.cString_terminator {hostname : Bytes} {last : UInt8}
    (h : 0 ∈ hostname ++ terminator last) :
    cString (hostname ++ terminator last) = .ok (hostname.takeWhile (· ≠ 0)) := by
  rw [cString, if_pos h, terminator]
  split
  · rw [List.append_nil]
  · rw [takeWhile_snoc_zero]

/-- The buffer is terminated, unless there is neither a hostname nor a nonzero byte before
it. -/
theorem ConnectPacket.mem_terminator_iff {b1 : UInt8} {hostname : Bytes} :
    0 ∈ hostname ++ terminator (hostname.getLast?.getD b1) ↔ ¬ (hostname = [] ∧ b1 = 0) := by
  rw [List.mem_append, terminator]
  cases hlast : hostname.getLast? with
  | none =>
    obtain rfl := List.getLast?_eq_none_iff.mp hlast
    by_cases hb : b1 = 0 <;> simp [hb]
  | some last =>
    have hmem := List.mem_of_getLast? hlast
    have hne : hostname ≠ [] := List.ne_nil_of_mem hmem
    by_cases hzero : last = 0
    · subst hzero
      simp [hmem, hne]
    · simp [hzero, hne]

/-- **A CONNECT is decoded** exactly if it has a hostname, or else a port of 256 or more. -/
theorem connects_decode_iff {src : Bytes} (h3 : 3 ≤ src.length) (hn : src.length < 2 ^ 63) :
    (∃ p, ConnectPacket.parse src (UInt64.ofNat src.length) = .ok p ∧ p.DecodedFrom src) ↔
      ¬ (src.length = 3 ∧ src[2]? = some 0) := by
  match src, h3 with
  | type :: b0 :: b1 :: hostname, _ =>
    have hparse := @ConnectPacket.parse_append type b0 b1 hostname hn
    have hempty : (type :: b0 :: b1 :: hostname).length = 3 ∧
        (type :: b0 :: b1 :: hostname)[2]? = some 0 ↔ hostname = [] ∧ b1 = 0 := by simp
    rw [hempty, ← ConnectPacket.mem_terminator_iff]
    constructor
    · rintro ⟨p, hp, hdecoded⟩
      obtain rfl := Except.ok.inj (hparse.symm.trans hp)
      exact hdecoded.terminated
    · intro hzero
      exact ⟨_, hparse, rfl, ⟨b0, b1, rfl, rfl, ofLE16_toNat b0 b1⟩, hzero,
        ConnectPacket.cString_terminator hzero⟩

/-- A CONNECT to `a`, port 80, without a terminator. -/
theorem connects_decode_iff_unterminated :
    (∃ p, ConnectPacket.parse [0x01, 80, 0, 97] (UInt64.ofNat 4) = .ok p ∧
        p.DecodedFrom [0x01, 80, 0, 97]) ↔
      ¬ (([0x01, 80, 0, 97] : Bytes).length = 3 ∧ ([0x01, 80, 0, 97] : Bytes)[2]? = some 0) :=
  connects_decode_iff (by decide) (by decide)

/-- **The buffer without a terminator**: a CONNECT to port 80 with an empty hostname. -/
theorem unterminated_counterexample :
    ¬ ∀ src : Bytes, 3 ≤ src.length → src.length < 2 ^ 63 →
      ∃ p, ConnectPacket.parse src (UInt64.ofNat src.length) = .ok p ∧ p.DecodedFrom src := by
  intro h
  obtain ⟨p, hp, hdecoded⟩ := h [0x01, 80, 0] (by decide) (by decide)
  have hparse : ConnectPacket.parse [0x01, 80, 0] (UInt64.ofNat 3) = .ok ⟨0x01, 80, []⟩ := by
    decide +kernel
  obtain rfl := Except.ok.inj (hparse.symm.trans hp)
  cases hdecoded.terminated

end Woeful
