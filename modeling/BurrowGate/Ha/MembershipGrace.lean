import Mathlib.Data.List.Basic

/-!
# The membership-shrink grace window

`trackedMemberCount` of `ha-election-service.ts`, its durable counterpart of
`repository.ts` and the count `prepareForRuntimeAtBoot` decides with. One maximum and
one timestamp stand for a window of observed counts. A boot starts a process with a
maximum of its own; the row outlives it. Times are milliseconds.
-/

namespace BurrowGate.Ha.MembershipGrace

def MEMBERSHIP_SHRINK_GRACE_MS : Int := 120000

/-- The two fields of the election service. -/
structure Tracker where
  recentMaxMemberCount : Nat
  recentMaxMemberCountAt : Int
  deriving DecidableEq

def trackedMemberCount (s : Tracker) (currentCount : Nat) (now : Int) : Tracker × Nat :=
  if s.recentMaxMemberCount ≤ currentCount ∨
      MEMBERSHIP_SHRINK_GRACE_MS ≤ now - s.recentMaxMemberCountAt then
    ({ recentMaxMemberCount := currentCount, recentMaxMemberCountAt := now }, currentCount)
  else (s, s.recentMaxMemberCount)

/-- The two columns of `ha_cluster_config`. -/
structure ConfigRow where
  recentMaxMemberCount : Option Nat
  recentMaxMemberCountAt : Option Int
  deriving DecidableEq

def applyRecentMaxMemberCount (row : ConfigRow) (count : Nat) (now : Int) : ConfigRow :=
  if row.recentMaxMemberCount.all (· ≤ count) = true ∨
      MEMBERSHIP_SHRINK_GRACE_MS ≤ now - row.recentMaxMemberCountAt.getD 0 then
    { recentMaxMemberCount := some count, recentMaxMemberCountAt := some now }
  else row

/-- `effectiveMemberCount` of `prepareForRuntimeAtBoot`. -/
def bootMemberCount (row : ConfigRow) (registered : Nat) (now : Int) : Nat :=
  match row.recentMaxMemberCount, row.recentMaxMemberCountAt with
  | some recentMax, some recentMaxAt =>
      if now - recentMaxAt < MEMBERSHIP_SHRINK_GRACE_MS then max registered recentMax
      else registered
  | _, _ => registered

/-! ## Sequences of observations -/

/-- A tick feeds both counterparts; a boot reads the durable one. -/
inductive Kind
  | tick
  | boot
  deriving DecidableEq

structure Observation where
  kind : Kind
  count : Nat
  now : Int

/-- The counts of ticks with their times, the newest first. -/
abbrev Counts : Type := List (Nat × Int)

/-- At least every count observed within the last grace window. -/
def Covers (seen : Counts) (now : Int) (effective : Nat) : Prop :=
  ∀ c ∈ seen, now - c.2 < MEMBERSHIP_SHRINK_GRACE_MS → c.1 ≤ effective

instance (seen : Counts) (now : Int) (effective : Nat) : Decidable (Covers seen now effective) :=
  inferInstanceAs (Decidable (∀ c ∈ seen, _ → _))

/-- The election service of a process after its ticks. -/
def trackerAfter : Counts → Tracker
  | [] => { recentMaxMemberCount := 0, recentMaxMemberCountAt := 0 }
  | (count, now) :: seen => (trackedMemberCount (trackerAfter seen) count now).1

/-- The row after the ticks of all processes. -/
def rowAfter : Counts → ConfigRow
  | [] => { recentMaxMemberCount := none, recentMaxMemberCountAt := none }
  | (count, now) :: seen => applyRecentMaxMemberCount (rowAfter seen) count now

/-- What a tick is decided with covers the counts of its process. What a boot is decided with, or
would be with the row that a tick leaves, covers those of every process. A boot begins a process
that has seen none. -/
def GraceKept : Counts → Counts → List Observation → Prop
  | _, _, [] => True
  | own, seen, ⟨.tick, count, now⟩ :: os =>
      (Covers ((count, now) :: own) now (trackedMemberCount (trackerAfter own) count now).2 ∧
        Covers ((count, now) :: seen) now
          (bootMemberCount (rowAfter ((count, now) :: seen)) count now)) ∧
      GraceKept ((count, now) :: own) ((count, now) :: seen) os
  | _, seen, ⟨.boot, count, now⟩ :: os =>
      Covers ((count, now) :: seen) now (bootMemberCount (rowAfter seen) count now) ∧
      GraceKept [] seen os

/-- A peak and, within a grace window of it, only smaller counts: the peak is older than the
window by now, and one of the smaller counts is younger and above the present one. -/
def ForgetsPeak (seen : Counts) (count : Nat) (now : Int) : Prop :=
  ∃ later peak before, seen = later ++ peak :: before ∧
    (∀ c ∈ later, c.1 < peak.1 ∧ c.2 - peak.2 < MEMBERSHIP_SHRINK_GRACE_MS) ∧
    MEMBERSHIP_SHRINK_GRACE_MS ≤ now - peak.2 ∧
    ∃ c ∈ later, now - c.2 < MEMBERSHIP_SHRINK_GRACE_MS ∧ count < c.1

/-- No observation forgets a peak of the ticks before it. -/
def NeverForgetsPeak : Counts → List Observation → Prop
  | _, [] => True
  | seen, o :: os =>
      ¬ ForgetsPeak seen o.count o.now ∧
        NeverForgetsPeak (if o.kind = .tick then (o.count, o.now) :: seen else seen) os

/-! ## One maximum, fed a list of counts -/

theorem trackedMemberCount_cases (t : Tracker) (c : Nat) (now : Int) :
    ((t.recentMaxMemberCount ≤ c ∨ MEMBERSHIP_SHRINK_GRACE_MS ≤ now - t.recentMaxMemberCountAt) ∧
      trackedMemberCount t c now =
        ({ recentMaxMemberCount := c, recentMaxMemberCountAt := now }, c)) ∨
    (c < t.recentMaxMemberCount ∧ now - t.recentMaxMemberCountAt < MEMBERSHIP_SHRINK_GRACE_MS ∧
      trackedMemberCount t c now = (t, t.recentMaxMemberCount)) := by
  unfold trackedMemberCount
  split
  · rename_i h
    exact .inl ⟨h, rfl⟩
  · rename_i h
    exact .inr ⟨by omega, by omega, rfl⟩

/-- The maximum is one of the counts, and those since are smaller and within the window of it. -/
theorem trackerAfter_peak {seen : Counts} (hne : seen ≠ []) : ∃ later peak before,
    seen = later ++ peak :: before ∧
      trackerAfter seen =
        { recentMaxMemberCount := peak.1, recentMaxMemberCountAt := peak.2 } ∧
      ∀ c ∈ later, c.1 < peak.1 ∧ c.2 - peak.2 < MEMBERSHIP_SHRINK_GRACE_MS := by
  induction seen with
  | nil => exact absurd rfl hne
  | cons o seen ih =>
      rw [trackerAfter]
      rcases trackedMemberCount_cases (trackerAfter seen) o.1 o.2 with
        ⟨-, heq⟩ | ⟨hlt, hyoung, heq⟩
      · rw [heq]
        exact ⟨[], o, seen, rfl, rfl, fun c hc => (by cases hc)⟩
      · rw [heq]
        have hseen : seen ≠ [] := by
          rintro rfl
          exact absurd hlt (Nat.not_lt_zero _)
        obtain ⟨later, peak, before, rfl, hpeak, hlater⟩ := ih hseen
        rw [hpeak] at hlt hyoung
        exact ⟨o :: later, peak, before, rfl, hpeak,
          List.forall_mem_cons.mpr ⟨⟨hlt, hyoung⟩, hlater⟩⟩

theorem Covers.mono {seen : Counts} {now now' : Int} {effective : Nat}
    (h : Covers seen now effective) (hle : now ≤ now') : Covers seen now' effective := by
  intro c hc hwindow
  apply h c hc
  omega

theorem Covers.cons {seen : Counts} {now t : Int} {count effective : Nat}
    (h : Covers seen now effective) (hle : count ≤ effective) :
    Covers ((count, t) :: seen) now effective := by
  intro c hc hwindow
  rcases List.mem_cons.mp hc with rfl | hin
  · exact hle
  · exact h c hin hwindow

/-- As of the newest count, the maximum covers the window. -/
def MaxCovers (seen : Counts) : Prop :=
  ∀ c ∈ seen.head?, Covers seen c.2 (trackerAfter seen).recentMaxMemberCount

abbrev Sorted (seen : Counts) : Prop := seen.Pairwise fun later before => before.2 ≤ later.2

section Fed

variable {seen : Counts} {count : Nat} {now : Int}

theorem MaxCovers.at_now (h : MaxCovers seen) (hnow : ∀ c ∈ seen, c.2 ≤ now) :
    Covers seen now (trackerAfter seen).recentMaxMemberCount := by
  intro c hc
  cases seen with
  | nil => cases hc
  | cons newest seen => exact (h newest rfl).mono (hnow newest List.mem_cons_self) c hc

/-- The count that is fed covers the window unless a peak is forgotten. -/
theorem covers_of_not_forgets (hsorted : Sorted seen) (hnow : ∀ c ∈ seen, c.2 ≤ now)
    (hmax : MaxCovers seen) (h : ¬ ForgetsPeak seen count now) :
    Covers ((count, now) :: seen) now (trackedMemberCount (trackerAfter seen) count now).2 := by
  have hcovers := hmax.at_now hnow
  rcases trackedMemberCount_cases (trackerAfter seen) count now with ⟨hreset, heq⟩ | ⟨hlt, -, heq⟩
  · rw [heq]
    refine Covers.cons (fun c hc hwindow => ?_) (Nat.le_refl count)
    have hle := hcovers c hc hwindow
    by_contra hgt
    obtain ⟨later, peak, before, hsplit, hpeak, hlater⟩ :=
      trackerAfter_peak (List.ne_nil_of_mem hc)
    rw [hpeak] at hreset hle
    dsimp only at hreset hle
    have hold : MEMBERSHIP_SHRINK_GRACE_MS ≤ now - peak.2 := by omega
    apply h
    refine ⟨later, peak, before, hsplit, hlater, hold, c, ?_, hwindow, by omega⟩
    -- what is not after the peak is as old as it
    rw [hsplit] at hc hsorted
    rcases List.mem_append.mp hc with hc | hc
    · exact hc
    · rcases List.mem_cons.mp hc with rfl | hc
      · omega
      · have hbefore := (List.pairwise_cons.mp (List.pairwise_append.mp hsorted).2.1).1 c hc
        omega
  · rw [heq]
    exact Covers.cons hcovers (Nat.le_of_lt hlt)

theorem not_covers_of_forgets (hsorted : Sorted seen) (hmax : MaxCovers seen)
    (h : ForgetsPeak seen count now) :
    ¬ Covers ((count, now) :: seen) now (trackedMemberCount (trackerAfter seen) count now).2 := by
  obtain ⟨later, peak, before, hsplit, hlater, hold, c, hc, hwindow, hlt⟩ := h
  have hmem : c ∈ seen := by
    rw [hsplit]
    exact List.mem_append_left _ hc
  obtain ⟨later', top, before', hsplit', htop, -⟩ := trackerAfter_peak (List.ne_nil_of_mem hmem)
  -- the peak was in the window of the newest count, so the maximum is no smaller
  have hpeak : peak.1 ≤ top.1 := by
    cases later with
    | nil => cases hc
    | cons newest later =>
        have hcovers := hmax newest (by rw [hsplit]; rfl)
        rw [htop] at hcovers
        apply hcovers peak
        · rw [hsplit]
          exact List.mem_append_right _ List.mem_cons_self
        · exact (hlater newest List.mem_cons_self).2
  -- and it is none of the smaller counts since
  have hage : top.2 ≤ peak.2 := by
    have hin : top ∈ later ++ peak :: before := by
      rw [← hsplit, hsplit']
      exact List.mem_append_right _ List.mem_cons_self
    rcases List.mem_append.mp hin with hin | hin
    · have hsmall := (hlater _ hin).1
      omega
    · rcases List.mem_cons.mp hin with rfl | hin
      · exact Int.le_refl _
      · rw [hsplit] at hsorted
        exact (List.pairwise_cons.mp (List.pairwise_append.mp hsorted).2.1).1 _ hin
  have hbelow := (hlater c hc).1
  intro hcovers
  have hle := hcovers c (List.mem_cons_of_mem _ hmem) hwindow
  rw [htop] at hle
  rcases trackedMemberCount_cases ⟨top.1, top.2⟩ count now with ⟨-, heq⟩ | ⟨-, hyoung, -⟩
  · rw [heq] at hle
    dsimp only at hle
    omega
  · dsimp only at hyoung
    omega

/-- A count that covers the window leaves a maximum that does. -/
theorem maxCovers_cons (h : Covers ((count, now) :: seen) now
    (trackedMemberCount (trackerAfter seen) count now).2) : MaxCovers ((count, now) :: seen) := by
  intro c hc
  obtain rfl := Option.some.inj hc
  rw [trackerAfter]
  rcases trackedMemberCount_cases (trackerAfter seen) count now with ⟨-, heq⟩ | ⟨-, -, heq⟩
  · rw [heq] at h ⊢
    exact h
  · rw [heq] at h ⊢
    exact h

/-- More counts before them leave a forgotten peak forgotten. -/
theorem ForgetsPeak.append (h : ForgetsPeak seen count now) (older : Counts) :
    ForgetsPeak (seen ++ older) count now := by
  obtain ⟨later, peak, before, rfl, hrest⟩ := h
  exact ⟨later, peak, before ++ older, by rw [List.append_assoc, List.cons_append], hrest⟩

end Fed

/-! ## The row -/

/-- The row holds what a maximum fed the same counts holds. -/
def RowMatches (row : ConfigRow) (t : Tracker) : Prop :=
  (row.recentMaxMemberCount = none ∧ t.recentMaxMemberCount = 0) ∨
    (row.recentMaxMemberCount = some t.recentMaxMemberCount ∧
      row.recentMaxMemberCountAt = some t.recentMaxMemberCountAt)

section Row

variable {row : ConfigRow} {t : Tracker}

theorem rowMatches_apply (h : RowMatches row t) (count : Nat) (now : Int) :
    RowMatches (applyRecentMaxMemberCount row count now) (trackedMemberCount t count now).1 := by
  -- both take the same branch of their conditions
  have hiff : (row.recentMaxMemberCount.all (· ≤ count) = true ∨
      MEMBERSHIP_SHRINK_GRACE_MS ≤ now - row.recentMaxMemberCountAt.getD 0) ↔
      (t.recentMaxMemberCount ≤ count ∨
        MEMBERSHIP_SHRINK_GRACE_MS ≤ now - t.recentMaxMemberCountAt) := by
    rcases h with ⟨hnone, hzero⟩ | ⟨hcount, hat⟩
    · rw [hnone, hzero]
      simp
    · rw [hcount, hat]
      simp
  unfold applyRecentMaxMemberCount trackedMemberCount
  by_cases hreset : t.recentMaxMemberCount ≤ count ∨
      MEMBERSHIP_SHRINK_GRACE_MS ≤ now - t.recentMaxMemberCountAt
  · rw [if_pos (hiff.mpr hreset), if_pos hreset]
    exact .inr ⟨rfl, rfl⟩
  · rw [if_neg fun hrow => hreset (hiff.mp hrow), if_neg hreset]
    exact h

/-- A boot decides with what a tick would return. -/
theorem bootMemberCount_eq (h : RowMatches row t) (registered : Nat) (now : Int) :
    bootMemberCount row registered now = (trackedMemberCount t registered now).2 := by
  unfold bootMemberCount
  rcases h with ⟨hnone, hzero⟩ | ⟨hcount, hat⟩
  · rw [hnone]
    rcases trackedMemberCount_cases t registered now with ⟨-, heq⟩ | ⟨hlt, -⟩
    · rw [heq]
    · omega
  · rw [hcount, hat]
    dsimp only
    rcases trackedMemberCount_cases t registered now with ⟨hreset, heq⟩ | ⟨hlt, hyoung, heq⟩
    · rw [heq]
      split
      · exact Nat.max_eq_left (by omega)
      · rfl
    · rw [heq, if_pos hyoung]
      exact Nat.max_eq_right (Nat.le_of_lt hlt)

theorem rowMatches_after (seen : Counts) : RowMatches (rowAfter seen) (trackerAfter seen) := by
  induction seen with
  | nil => exact .inl ⟨rfl, rfl⟩
  | cons o seen ih => exact rowMatches_apply ih o.1 o.2

/-- A boot at a tick decides with what the tick returns to one process of all counts. -/
theorem bootMemberCount_after (seen : Counts) (count : Nat) (now : Int) :
    bootMemberCount (rowAfter ((count, now) :: seen)) count now =
      (trackedMemberCount (trackerAfter seen) count now).2 := by
  rw [bootMemberCount_eq (rowMatches_after _), trackerAfter]
  rcases trackedMemberCount_cases (trackerAfter seen) count now with ⟨-, heq⟩ | ⟨-, -, heq⟩
  · rw [heq]
    exact congrArg Prod.snd (if_pos (.inl (Nat.le_refl count)))
  · rw [heq]
    exact congrArg Prod.snd heq

end Row

/-! ## Whole sequences -/

/-- A process has seen the newest of all counts, and both maxima cover what they were fed. -/
structure Covered (own older : Counts) (os : List Observation) : Prop where
  process : MaxCovers own
  all : MaxCovers (own ++ older)
  sorted : Sorted (own ++ older)
  later : ∀ o ∈ os, ∀ c ∈ own ++ older, c.2 ≤ o.now

theorem Covered.graceKept_iff {own older : Counts} {os : List Observation}
    (h : Covered own older os) (hsorted : os.Pairwise (·.now ≤ ·.now)) :
    GraceKept own (own ++ older) os ↔ NeverForgetsPeak (own ++ older) os := by
  induction os generalizing own older with
  | nil => exact Iff.rfl
  | cons o os ih =>
      obtain ⟨hlater, hrest⟩ := List.pairwise_cons.mp hsorted
      have hnow := h.later o List.mem_cons_self
      have hkept : Covers ((o.count, o.now) :: (own ++ older)) o.now
          (trackedMemberCount (trackerAfter (own ++ older)) o.count o.now).2 ↔
            ¬ ForgetsPeak (own ++ older) o.count o.now :=
        ⟨fun hcovers hforgets => not_covers_of_forgets h.sorted h.all hforgets hcovers,
          covers_of_not_forgets h.sorted hnow h.all⟩
      obtain ⟨kind, count, now⟩ := o
      cases kind with
      | tick =>
          rw [GraceKept, NeverForgetsPeak, if_pos rfl, bootMemberCount_after]
          -- a peak that the process forgets is forgotten by the row too
          have hown : ¬ ForgetsPeak (own ++ older) count now → Covers ((count, now) :: own) now
              (trackedMemberCount (trackerAfter own) count now).2 := by
            intro hnot
            apply covers_of_not_forgets (List.pairwise_append.mp h.sorted).1 _ h.process
            · exact fun hforgets => hnot (hforgets.append older)
            · exact fun c hc => hnow c (List.mem_append_left _ hc)
          rw [and_iff_right_of_imp fun hcovers => hown (hkept.mp hcovers), hkept]
          refine and_congr_right fun hnot => ih ⟨?_, ?_, ?_, ?_⟩ hrest
          · exact maxCovers_cons (hown hnot)
          · exact maxCovers_cons (hkept.mpr hnot)
          · exact List.pairwise_cons.mpr ⟨hnow, h.sorted⟩
          · intro o ho c hc
            rcases List.mem_cons.mp hc with rfl | hc
            · exact hlater o ho
            · exact h.later o (List.mem_cons_of_mem _ ho) c hc
      | boot =>
          rw [GraceKept, NeverForgetsPeak, if_neg Kind.noConfusion,
            bootMemberCount_eq (rowMatches_after _), hkept]
          refine and_congr_right fun _ => @ih [] (own ++ older) ⟨?_, h.all, h.sorted, ?_⟩ hrest
          · exact fun c hc => (by cases hc)
          · exact fun o ho => h.later o (List.mem_cons_of_mem _ ho)

/-- The counts that decisions are made with, on ticks and at boots, cover the grace window
exactly when no tick or boot comes a window after a peak and within one of a smaller count that
followed it and is above its own. -/
theorem membership_grace (os : List Observation) (hsorted : os.Pairwise (·.now ≤ ·.now)) :
    GraceKept [] [] os ↔ NeverForgetsPeak [] os := by
  refine @Covered.graceKept_iff [] [] os ⟨?_, ?_, .nil, ?_⟩ hsorted
  · exact fun c hc => (by cases hc)
  · exact fun c hc => (by cases hc)
  · exact fun o _ c hc => (by cases hc)

/-- A shrink from three members to two, a boot in the window, and the ticks of its process. -/
theorem membership_grace_oneShrink :
    GraceKept [] []
      [⟨.tick, 3, 0⟩, ⟨.tick, 2, 2000⟩, ⟨.boot, 2, 60000⟩, ⟨.tick, 2, 62000⟩,
        ⟨.tick, 2, 130000⟩] := by
  refine (membership_grace _ ?_).mpr ?_
  · simp
  · -- no count of a tick is above that of a later observation but the peak itself
    have hnot : ∀ {seen : Counts} {now : Int}, (∀ c ∈ seen.dropLast, c.1 ≤ 2) →
        ¬ ForgetsPeak seen 2 now := by
      rintro seen now hsmall ⟨later, peak, before, rfl, -, -, c, hc, -, hlt⟩
      have hle := hsmall c (by
        rw [List.dropLast_append_of_ne_nil (List.cons_ne_nil _ _)]
        exact List.mem_append_left _ hc)
      omega
    refine ⟨?_, hnot ?_, hnot ?_, hnot ?_, hnot ?_, trivial⟩
    · rintro ⟨later, peak, before, hsplit, -⟩
      exact absurd hsplit.symm (by simp)
    · simp
    · simp
    · simp
    · simp

/-- Two shrinks: when three ages out, the two of a second ago is forgotten with it. -/
theorem second_shrink_uncovered :
    ¬ ∀ os : List Observation, os.Pairwise (·.now ≤ ·.now) → GraceKept [] [] os := by
  intro h
  have hkept := h [⟨.tick, 3, 0⟩, ⟨.tick, 2, 119000⟩, ⟨.tick, 1, 120000⟩] (by simp)
  obtain ⟨-, -, ⟨hcovers, -⟩, -⟩ := hkept
  revert hcovers
  decide

end BurrowGate.Ha.MembershipGrace
