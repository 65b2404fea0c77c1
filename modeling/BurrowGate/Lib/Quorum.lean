import Mathlib.Data.Finset.Card
import Mathlib.Order.Basic

/-!
# Majorities and single-vote elections

Any two majorities of one finite electorate share a member. A voter that keeps
one durable register, raised only to a later term or to the candidate it already
names, votes for at most one candidate a term; with majorities this makes the
winner of a term unique. Nothing here depends on how votes are exchanged.
-/

namespace BurrowGate.Lib.Quorum

variable {N : Type*} {members : Finset N}

/-- `⌊n / 2⌋ + 1`. -/
def majority (members : Finset N) : Nat := members.card / 2 + 1

/-- Two majorities of one electorate meet. -/
theorem majorities_meet [DecidableEq N] {A B : Finset N} (hA : A ⊆ members) (hB : B ⊆ members)
    (hcA : majority members ≤ A.card) (hcB : majority members ≤ B.card) :
    ∃ u, u ∈ A ∧ u ∈ B := by
  have hsum : members.card < A.card + B.card := by
    unfold majority at hcA hcB; omega
  obtain ⟨u, hu⟩ := Finset.inter_nonempty_of_card_lt_card_add_card hA hB hsum
  exact ⟨u, (Finset.mem_inter.mp hu).1, (Finset.mem_inter.mp hu).2⟩

theorem exists_mem_of_majority {A : Finset N} (hc : majority members ≤ A.card) :
    ∃ u, u ∈ A := by
  have hpos : 0 < A.card := by unfold majority at hc; omega
  exact Finset.card_pos.mp hpos

/-- A voter's register: the last term it voted in and the candidate it named. -/
abbrev Register (N : Type*) := Option (Nat × N)

/-- The register accounts for a vote: it has reached the vote's term, and names
the same candidate while it is still at that term. -/
def Covers (r : Register N) (term : Nat) (candidate : N) : Prop :=
  ∃ t c, r = some (t, c) ∧ term ≤ t ∧ (term = t → candidate = c)

/-- A register may be set to `(term, candidate)`. -/
def MaySet (r : Register N) (term : Nat) (candidate : N) : Prop :=
  ∀ t c, r = some (t, c) → t < term ∨ t = term ∧ c = candidate

theorem covers_self (term : Nat) (candidate : N) : Covers (some (term, candidate)) term candidate :=
  ⟨term, candidate, rfl, le_rfl, fun _ => rfl⟩

/-- Setting the register loses no vote it accounted for. -/
theorem covers_set {r : Register N} {term t : Nat} {candidate c : N}
    (hmay : MaySet r term candidate) (h : Covers r t c) : Covers (some (term, candidate)) t c := by
  obtain ⟨t', c', hr, hle, heq⟩ := h
  rcases hmay t' c' hr with hlt | ⟨rfl, rfl⟩
  · exact ⟨term, candidate, rfl, by omega, fun h => absurd h (by omega)⟩
  · exact ⟨t', c', rfl, hle, heq⟩

/-- One register accounts for one candidate a term. -/
theorem covers_unique {r : Register N} {t : Nat} {c d : N} (hmay : MaySet r t d)
    (h : Covers r t c) : c = d := by
  obtain ⟨t', c', hr, hle, heq⟩ := h
  rcases hmay t' c' hr with hlt | ⟨rfl, rfl⟩
  · omega
  · exact heq rfl

/-- `candidate` holds the votes of a majority in `term`. -/
def Won (members : Finset N) (voted : N → Nat → N → Prop) (term : Nat) (candidate : N) : Prop :=
  ∃ Q, Q ⊆ members ∧ majority members ≤ Q.card ∧ ∀ u ∈ Q, voted u term candidate

/-- No voter votes for two candidates in one term. -/
def OneVote (voted : N → Nat → N → Prop) : Prop :=
  ∀ u t c d, voted u t c → voted u t d → c = d

theorem Won.mono {voted voted' : N → Nat → N → Prop} {t : Nat} {c : N}
    (h : Won members voted t c) (hsub : ∀ u t c, voted u t c → voted' u t c) :
    Won members voted' t c := by
  obtain ⟨Q, hQ, hcard, hv⟩ := h
  exact ⟨Q, hQ, hcard, fun u hu => hsub u t c (hv u hu)⟩

/-- A term has one winner. -/
theorem won_unique [DecidableEq N] {voted : N → Nat → N → Prop} (hone : OneVote voted) {t : Nat} {c d : N}
    (hc : Won members voted t c) (hd : Won members voted t d) : c = d := by
  obtain ⟨A, hA, hcA, hvA⟩ := hc
  obtain ⟨B, hB, hcB, hvB⟩ := hd
  obtain ⟨u, huA, huB⟩ := majorities_meet hA hB hcA hcB
  exact hone u t c d (hvA u huA) (hvB u huB)

end BurrowGate.Lib.Quorum
