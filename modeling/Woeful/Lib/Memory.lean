import Mathlib.Algebra.Group.Nat.Defs
import Mathlib.Data.List.Basic

/-!
# Bounded memory and little-endian integers

A block of memory is its bytes, and reading outside it is a fault rather than
a value, so "the code reads only inside the block" is "the code ends without a
fault". Machine sizes are `UInt64`: subtraction wraps, as `size_t` does.
-/

namespace Memory

/-- A block of memory, or what it holds. -/
abbrev Bytes := List UInt8

/-- What stops a program that has no defined behaviour from there on. -/
inductive Fault where
  /-- a read or a write outside the block -/
  | outOfBounds
  /-- an allocation no address space can serve -/
  | badAlloc
  deriving DecidableEq, Repr

/-- Read one byte. -/
def readU8 (src : Bytes) (off : Nat) : Except Fault UInt8 :=
  match src[off]? with
  | some b => .ok b
  | none => .error .outOfBounds

/-- Copy `n` bytes out of the block. -/
def memcpy (src : Bytes) (off n : Nat) : Except Fault Bytes :=
  if off + n ≤ src.length then .ok ((src.drop off).take n) else .error .outOfBounds

/-- The integer two bytes denote, low byte first. -/
def ofLE16 (b0 b1 : UInt8) : UInt16 := UInt16.ofNat (b0.toNat + 2 ^ 8 * b1.toNat)

/-- The integer four bytes denote, low byte first. -/
def ofLE32 (b0 b1 b2 b3 : UInt8) : UInt32 :=
  UInt32.ofNat (b0.toNat + 2 ^ 8 * b1.toNat + 2 ^ 16 * b2.toNat + 2 ^ 24 * b3.toNat)

/-- Byte number `i` of an integer. -/
def byteAt (n : UInt32) (i : Nat) : UInt8 := UInt8.ofNat (n.toNat / 2 ^ (8 * i))

/-- The four bytes of an integer, low byte first. -/
def toLE32 (n : UInt32) : Bytes := [byteAt n 0, byteAt n 1, byteAt n 2, byteAt n 3]

/-- Read a 16-bit integer. -/
def readU16 (src : Bytes) (off : Nat) : Except Fault UInt16 := do
  let b0 ← readU8 src off
  let b1 ← readU8 src (off + 1)
  return ofLE16 b0 b1

/-- Read a 32-bit integer. -/
def readU32 (src : Bytes) (off : Nat) : Except Fault UInt32 := do
  let b0 ← readU8 src off
  let b1 ← readU8 src (off + 1)
  let b2 ← readU8 src (off + 2)
  let b3 ← readU8 src (off + 3)
  return ofLE32 b0 b1 b2 b3

/-- Allocate `n` bytes: sizes of `2^63` and more are refused by every allocator. -/
def allocate (n : UInt64) : Except Fault Unit :=
  if n.toNat < 2 ^ 63 then .ok () else .error .badAlloc

/-- Overwrite the bytes from `off` on. -/
def store (build : Bytes) (off : Nat) (bs : Bytes) : Bytes :=
  build.take off ++ bs ++ build.drop (off + bs.length)

/-! ## When an access is in bounds -/

theorem readU8_eq_ok {src : Bytes} {off : Nat} {b : UInt8} :
    readU8 src off = .ok b ↔ src[off]? = some b := by
  rw [readU8]
  cases src[off]? <;> simp

theorem readU8_isOk {src : Bytes} {off : Nat} (h : off < src.length) :
    readU8 src off = .ok src[off] := by
  rw [readU8_eq_ok, List.getElem?_eq_getElem h]

theorem memcpy_eq_ok {src bs : Bytes} {off n : Nat} :
    memcpy src off n = .ok bs ↔ off + n ≤ src.length ∧ (src.drop off).take n = bs := by
  rw [memcpy]
  by_cases h : off + n ≤ src.length
  · simp [h]
  · simp [h]

theorem length_of_memcpy {src bs : Bytes} {off n : Nat} (h : memcpy src off n = .ok bs) :
    bs.length = n := by
  obtain ⟨hle, rfl⟩ := memcpy_eq_ok.mp h
  rw [List.length_take, List.length_drop]
  omega

/-- A sequence of accesses succeeds exactly when each of them does. -/
theorem andThen_eq_ok {E A B : Type} {m : Except E A} {k : A → Except E B} {r : B} :
    m >>= k = .ok r ↔ ∃ v, m = .ok v ∧ k v = .ok r := by
  constructor
  · intro h
    cases hm : m with
    | error e =>
      rw [hm] at h
      cases h
    | ok v =>
      rw [hm] at h
      exact ⟨v, rfl, h⟩
  · rintro ⟨v, rfl, hk⟩
    exact hk

theorem readU16_eq_ok {src : Bytes} {off : Nat} {n : UInt16} :
    readU16 src off = .ok n ↔
      ∃ b0 b1, src[off]? = some b0 ∧ src[off + 1]? = some b1 ∧ ofLE16 b0 b1 = n := by
  simp only [readU16, andThen_eq_ok, readU8_eq_ok, pure, Except.pure, Except.ok.injEq]
  constructor
  · rintro ⟨b0, h0, b1, h1, hn⟩
    exact ⟨b0, b1, h0, h1, hn⟩
  · rintro ⟨b0, b1, h0, h1, hn⟩
    exact ⟨b0, h0, b1, h1, hn⟩

theorem readU32_eq_ok {src : Bytes} {off : Nat} {n : UInt32} :
    readU32 src off = .ok n ↔
      ∃ b0 b1 b2 b3, src[off]? = some b0 ∧ src[off + 1]? = some b1 ∧ src[off + 2]? = some b2 ∧
        src[off + 3]? = some b3 ∧ ofLE32 b0 b1 b2 b3 = n := by
  simp only [readU32, andThen_eq_ok, readU8_eq_ok, pure, Except.pure, Except.ok.injEq]
  constructor
  · rintro ⟨b0, h0, b1, h1, b2, h2, b3, h3, hn⟩
    exact ⟨b0, b1, b2, b3, h0, h1, h2, h3, hn⟩
  · rintro ⟨b0, b1, b2, b3, h0, h1, h2, h3, hn⟩
    exact ⟨b0, h0, b1, h1, b2, h2, b3, h3, hn⟩

theorem readU16_isOk {src : Bytes} {off : Nat} (h : off + 1 < src.length) :
    ∃ n, readU16 src off = .ok n :=
  ⟨_, readU16_eq_ok.mpr ⟨src[off], src[off + 1], by simp, by simp, rfl⟩⟩

theorem readU32_isOk {src : Bytes} {off : Nat} (h : off + 3 < src.length) :
    ∃ n, readU32 src off = .ok n :=
  ⟨_, readU32_eq_ok.mpr ⟨src[off], src[off + 1], src[off + 2], src[off + 3],
    by simp, by simp, by simp, by simp, rfl⟩⟩

theorem readU16_lt {src : Bytes} {off : Nat} {n : UInt16} (h : readU16 src off = .ok n) :
    off + 1 < src.length := by
  obtain ⟨_, b1, -, h1, -⟩ := readU16_eq_ok.mp h
  exact (List.getElem?_eq_some_iff.mp h1).1

theorem readU32_lt {src : Bytes} {off : Nat} {n : UInt32} (h : readU32 src off = .ok n) :
    off + 3 < src.length := by
  obtain ⟨_, _, _, b3, -, -, -, h3, -⟩ := readU32_eq_ok.mp h
  exact (List.getElem?_eq_some_iff.mp h3).1

/-- A subtraction of sizes that does not wrap. -/
theorem toNat_ofNat_sub {n : Nat} {k : UInt64} (hk : k.toNat ≤ n) (hn : n < 2 ^ 64) :
    (UInt64.ofNat n - k).toNat = n - k.toNat := by
  have hofNat : (UInt64.ofNat n).toNat = n := UInt64.toNat_ofNat_of_lt' hn
  rw [UInt64.toNat_sub_of_le _ _ (by rw [UInt64.le_iff_toNat_le, hofNat]; exact hk), hofNat]

/-! ## Little-endian round trip -/

theorem byteAt_toNat (n : UInt32) (i : Nat) :
    (byteAt n i).toNat = n.toNat / 2 ^ (8 * i) % 2 ^ 8 := by
  rw [byteAt, UInt8.toNat_ofNat']

theorem ofLE32_byteAt (n : UInt32) :
    ofLE32 (byteAt n 0) (byteAt n 1) (byteAt n 2) (byteAt n 3) = n := by
  have hlt : n.toNat < 2 ^ 32 := n.toNat_lt
  apply UInt32.toNat_inj.mp
  rw [ofLE32, UInt32.toNat_ofNat']
  simp only [byteAt_toNat]
  omega

theorem toLE32_ofLE32 (b0 b1 b2 b3 : UInt8) : toLE32 (ofLE32 b0 b1 b2 b3) = [b0, b1, b2, b3] := by
  have hval : (ofLE32 b0 b1 b2 b3).toNat =
      b0.toNat + 2 ^ 8 * b1.toNat + 2 ^ 16 * b2.toNat + 2 ^ 24 * b3.toNat := by
    have h0 := b0.toNat_lt
    have h1 := b1.toNat_lt
    have h2 := b2.toNat_lt
    have h3 := b3.toNat_lt
    rw [ofLE32, UInt32.toNat_ofNat', Nat.mod_eq_of_lt (by omega)]
  have hbyte : ∀ (i : Nat) (b : UInt8),
      (ofLE32 b0 b1 b2 b3).toNat / 2 ^ (8 * i) % 2 ^ 8 = b.toNat →
      byteAt (ofLE32 b0 b1 b2 b3) i = b :=
    fun i b h => UInt8.toNat_inj.mp ((byteAt_toNat _ i).trans h)
  have h0 := b0.toNat_lt
  have h1 := b1.toNat_lt
  have h2 := b2.toNat_lt
  have h3 := b3.toNat_lt
  rw [toLE32, hbyte 0 b0 (by rw [hval]; omega), hbyte 1 b1 (by rw [hval]; omega),
    hbyte 2 b2 (by rw [hval]; omega), hbyte 3 b3 (by rw [hval]; omega)]

/-! ## Formats -/

/-- A format that loses nothing: parsing what was serialized gives it back, and so does
serializing what was parsed from a block of an admissible size. No block has `2^63` bytes. -/
structure RoundTrips {A : Type} (serialize : A → Bytes) (parse : Bytes → UInt64 → Except Fault A)
    (admissible : Nat → Prop) : Prop where
  /-- parsing undoes serializing -/
  decode : ∀ a, (serialize a).length < 2 ^ 63 →
    parse (serialize a) (UInt64.ofNat (serialize a).length) = .ok a
  /-- serializing undoes parsing -/
  encode : ∀ src, src.length < 2 ^ 63 → admissible src.length →
    ∃ a, parse src (UInt64.ofNat src.length) = .ok a ∧ serialize a = src

/-- The length of what follows the header. -/
theorem toNat_lengthField {header : UInt64} {front back : Bytes}
    (hsize : (front ++ back).length < 2 ^ 63) (hfront : front.length = header.toNat) :
    (UInt64.ofNat (front ++ back).length - header).toNat = back.length := by
  rw [List.length_append] at hsize ⊢
  rw [toNat_ofNat_sub (by omega) (by omega)]
  omega

/-- Copying what follows the header. -/
theorem memcpy_append {header : Nat} {front back : Bytes} (hfront : front.length = header) :
    memcpy (front ++ back) header back.length = .ok back := by
  subst hfront
  simp [memcpy_eq_ok]

/-- Writing a whole prefix, then the rest, of a block leaves nothing of what was there. -/
theorem store_append {a b build : Bytes} (h : build.length = a.length + b.length) :
    store (store build 0 a) a.length b = a ++ b := by
  have hdrop : (build.drop a.length).drop b.length = [] := by
    rw [List.drop_drop]
    exact List.drop_eq_nil_of_le (by omega)
  simp [store, List.drop_append, hdrop]

end Memory
