import Woeful.Filter

/-!
# Hostnames and letter case

A resolver does not look at the case of letters, `std::string::operator==` does. So the filter
and the resolver agree on what a name is only as far as the lists spell it in every way it can
be spelled, or the port alone decides (`sameDecision_iff`, `caseBlind_iff`).
-/

namespace Woeful

open Memory SystemInterface

/-- Upper case letters of ASCII to lower case. -/
def asciiLower (c : UInt8) : UInt8 := if 0x41 ≤ c ∧ c ≤ 0x5A then c + 0x20 else c

/-- The same name to a resolver: the two differ in the case of letters at most. -/
def SameName (h₁ h₂ : Bytes) : Prop := h₁.map asciiLower = h₂.map asciiLower

instance (h₁ h₂ : Bytes) : Decidable (SameName h₁ h₂) :=
  inferInstanceAs (Decidable (h₁.map asciiLower = h₂.map asciiLower))

/-- `open_stream` decides on two names alike if they are the same. -/
def SameDecision (conf : WoefulConfig) (h₁ h₂ : Bytes) (type : UInt8) (port : UInt16) : Prop :=
  SameName h₁ h₂ → passesFilter conf h₁ type port = passesFilter conf h₂ type port

/-- The port is listed. -/
def ListsPortNumber (conf : WoefulConfig) (port : UInt16) : Prop :=
  .port port.toUInt32 ∈ conf.blockMembers

/-- The hostname is listed, in this spelling. -/
def ListsSpelling (conf : WoefulConfig) (hostname : Bytes) : Prop :=
  .hostname hostname ∈ conf.blockMembers

/-- What is decided before the hostname is: the type is unknown, or nothing is blocked, or the
port is enough to deny. -/
inductive Foregone (conf : WoefulConfig) (type : UInt8) (port : UInt16) : Prop where
  /-- there is no socket of this type -/
  | type : sockType type = none → Foregone conf type port
  /-- there is no list -/
  | none : conf.blockType = .none → Foregone conf type port
  /-- the port is in the blacklist -/
  | black : conf.blockType = .black → ListsPortNumber conf port → Foregone conf type port
  /-- the port is not in the whitelist -/
  | white : conf.blockType = .white → ¬ListsPortNumber conf port → Foregone conf type port

variable {conf : WoefulConfig} {h₁ h₂ hostname : Bytes} {type : UInt8} {port : UInt16}

theorem passesFilter_iff : passesFilter conf hostname type port = true ↔
    sockType type ≠ none ∧ (conf.blockType = .none ∨
      (conf.blockType = .black ∧ ¬ListsSpelling conf hostname ∧ ¬ListsPortNumber conf port) ∨
      (conf.blockType = .white ∧ ListsSpelling conf hostname ∧ ListsPortNumber conf port)) := by
  rw [passesFilter_eq, Bool.and_eq_true, filter_iff, Option.isSome_iff_ne_none]
  rfl

/-- Where that is so, the hostname does not matter. -/
theorem Foregone.passesFilter_eq (h : Foregone conf type port) :
    passesFilter conf h₁ type port = passesFilter conf h₂ type port := by
  rw [Bool.eq_iff_iff, passesFilter_iff, passesFilter_iff]
  cases h with
  | type htype => simp [htype]
  | none hblock => simp [hblock]
  | black hblock hport => simp [hblock, hport]
  | white hblock hport => simp [hblock, hport]

/-- Where it is not, the hostname is all that matters. -/
theorem passesFilter_of_not_foregone (h : ¬Foregone conf type port) :
    passesFilter conf hostname type port = true ↔
      (ListsSpelling conf hostname ↔ conf.blockType = .white) := by
  have htype : sockType type ≠ none := fun ht => h (.type ht)
  rw [passesFilter_iff]
  cases hblock : conf.blockType with
  | none => exact absurd (.none hblock) h
  | black =>
    have hport : ¬ListsPortNumber conf port := fun hp => h (.black hblock hp)
    simp [htype, hport]
  | white =>
    have hport : ListsPortNumber conf port := by
      by_contra hp
      exact h (.white hblock hp)
    simp [htype, hport]

/-- Two names are decided on alike exactly when the hostname does not matter, or both are
listed, or neither is. -/
theorem passesFilter_eq_iff : passesFilter conf h₁ type port = passesFilter conf h₂ type port ↔
    Foregone conf type port ∨ (ListsSpelling conf h₁ ↔ ListsSpelling conf h₂) := by
  by_cases h : Foregone conf type port
  · exact iff_of_true h.passesFilter_eq (Or.inl h)
  · rw [Bool.eq_iff_iff, passesFilter_of_not_foregone h, passesFilter_of_not_foregone h]
    tauto

/-- Letter case is no way around the lists exactly where the hostname does not matter, or the
two spellings are both listed or both not. -/
theorem sameDecision_iff (conf : WoefulConfig) (h₁ h₂ : Bytes) (type : UInt8) (port : UInt16) :
    SameDecision conf h₁ h₂ type port ↔ Foregone conf type port ∨ ¬SameName h₁ h₂ ∨
      (ListsSpelling conf h₁ ↔ ListsSpelling conf h₂) := by
  rw [SameDecision, passesFilter_eq_iff]
  tauto

/-- Where a name is listed in one spelling, it is listed in all of them. -/
def ListsEverySpelling (conf : WoefulConfig) : Prop :=
  ∀ h₁ h₂, SameName h₁ h₂ → ListsSpelling conf h₁ → ListsSpelling conf h₂

/-- **Over all connections**: letter case is no way around the lists of a configuration exactly
when every name is listed in every spelling, or no connection depends on its hostname. -/
theorem caseBlind_iff : (∀ h₁ h₂ type port, SameDecision conf h₁ h₂ type port) ↔
    ListsEverySpelling conf ∨ ∀ type port, Foregone conf type port := by
  constructor
  · intro h
    by_cases hforegone : ∀ type port, Foregone conf type port
    · exact Or.inr hforegone
    · simp only [not_forall] at hforegone
      obtain ⟨type, port, hopen⟩ := hforegone
      refine Or.inl fun h₁ h₂ hsame hlisted => ?_
      exact ((passesFilter_eq_iff.mp (h h₁ h₂ type port hsame)).resolve_left hopen).mp hlisted
  · rintro (hevery | hforegone) h₁ h₂ type port hsame
    · exact passesFilter_eq_iff.mpr (Or.inr ⟨hevery h₁ h₂ hsame, hevery h₂ h₁ hsame.symm⟩)
    · exact (hforegone type port).passesFilter_eq

/-- The blacklist of the tests stops `example.com` and lets `EXAMPLE.COM` through. -/
theorem letterCase_counterexample : ¬∀ (conf : WoefulConfig) (h₁ h₂ : Bytes) (type : UInt8)
    (port : UInt16), conf.blockType = .black ∨ conf.blockType = .white →
      SameDecision conf h₁ h₂ type port := by
  intro h
  have hsame := h blacklistConf (lit "example.com") (lit "EXAMPLE.COM") 0x01 80 (Or.inl rfl)
    (by decide)
  revert hsame
  decide

end Woeful
