import BurrowGate.Lib.OrderedMap
import BurrowGate.Lib.Run

/-!
# `challenge-failure-ban-service.ts`

The streaks of failed challenges, one for each site and address, and the bans that they
trigger. The calls are kept as a history, newest first.
-/

namespace BurrowGate.FailureBan

open Lib Lib.Run

abbrev Text : Type := List Char

structure FailureStreak where
  count : Nat
  banned : Bool
  lastFailureAt : Nat
  deriving DecidableEq

/-- The settings of a site, within the bounds of `parseChallengeAutoBan`. -/
structure ChallengeAutoBan where
  enabled : Bool
  maxFailures : Nat
  banSeconds : Nat
  maxFailuresBound : 1 ≤ maxFailures ∧ maxFailures ≤ 1000
  banSecondsBound : 1 ≤ banSeconds

/-- The address of a client, or `unknown`. -/
structure ClientIp where
  text : Text
  noDash : '-' ∉ text
  deriving DecidableEq

def staleEntryMs : Nat := 2 * 60 * 60 * 1000

abbrev Streaks : Type := OrderedMap Text FailureStreak

/-- The arguments of `banIpForChallengeFailures`. -/
structure BanCall where
  site : Text
  ip : ClientIp
  failureCount : Nat
  banSeconds : Nat
  deriving DecidableEq

def key (siteId : Text) (ip : ClientIp) : Text := siteId ++ '-' :: ip.text

/-- A failure of this site and address counts. -/
def records (settings : Text → ChallengeAutoBan) (site : Text) (ip : ClientIp) : Bool :=
  (settings site).enabled && ip.text ≠ "unknown".toList

def recordChallengeFailure (settings : Text → ChallengeAutoBan) (site : Text) (ip : ClientIp)
    (now : Nat) (streaks : Streaks) : Streaks × Option BanCall :=
  if records settings site ip then
    let entry := (streaks.get? (key site ip)).getD ⟨0, false, now⟩
    let count := entry.count + 1
    if !entry.banned && (settings site).maxFailures ≤ count then
      (streaks.set (key site ip) ⟨count, true, now⟩,
        some ⟨site, ip, count, (settings site).banSeconds⟩)
    else (streaks.set (key site ip) ⟨count, entry.banned, now⟩, none)
  else (streaks, none)

def recordChallengeSuccess (site : Text) (ip : ClientIp) (streaks : Streaks) : Streaks :=
  streaks.erase (key site ip)

def pruneStaleChallengeFailureEntries (now : Nat) (streaks : Streaks) : Streaks :=
  streaks.filter fun entry => ¬staleEntryMs < now - entry.2.lastFailureAt

/-! ## The calls in order -/

/-- A call as the history keeps it. Only a failure that counts is kept. -/
inductive Entry
  | failure (site : Text) (ip : ClientIp) (time : Nat) (ban : Option BanCall)
  | success (site : Text) (ip : ClientIp)
  | prune (time : Nat)
  deriving DecidableEq

structure BanState where
  now : Nat
  streaks : Streaks
  history : List Entry

inductive BanAction
  | failure (site : Text) (ip : ClientIp) (now : Nat)
  | success (site : Text) (ip : ClientIp)
  | prune (now : Nat)

/-- A call. It is refused when its time lies before that of an earlier one. -/
def banStep (settings : Text → ChallengeAutoBan) (s : BanState) : BanAction → Option BanState
  | .failure site ip now =>
      if now < s.now then none
      else
        let result := recordChallengeFailure settings site ip now s.streaks
        some ⟨now, result.1, if records settings site ip then
          .failure site ip now result.2 :: s.history else s.history⟩
  | .success site ip =>
      some { s with
        streaks := recordChallengeSuccess site ip s.streaks
        history := .success site ip :: s.history }
  | .prune now =>
      if now < s.now then none
      else some ⟨now, pruneStaleChallengeFailureEntries now s.streaks, .prune now :: s.history⟩

def Started (s : BanState) : Prop := s.streaks = OrderedMap.empty ∧ s.history = []

/-! ## The law -/

section History

variable (site : Text) (ip : ClientIp)

/-- When the address last failed on the site. -/
def lastFailure : List Entry → Option Nat
  | [] => none
  | .failure site' ip' time _ :: rest =>
      if site' = site ∧ ip' = ip then some time else lastFailure rest
  | .success .. :: rest | .prune _ :: rest => lastFailure rest

/-- The failures since the last success, or since the last prune that found the streak stale. -/
def failuresSince : List Entry → Nat
  | [] => 0
  | .failure site' ip' _ _ :: rest =>
      if site' = site ∧ ip' = ip then failuresSince rest + 1 else failuresSince rest
  | .success site' ip' :: rest => if site' = site ∧ ip' = ip then 0 else failuresSince rest
  | .prune time :: rest =>
      if (lastFailure site ip rest).all (staleEntryMs < time - ·) then 0 else failuresSince rest

/-- The failures before one at `next`, back to a success or a gap above the stale limit. -/
def unbroken (next : Nat) : List Entry → Nat
  | [] => 0
  | .failure site' ip' time _ :: rest =>
      if site' = site ∧ ip' = ip then
        if staleEntryMs < next - time then 0 else unbroken time rest + 1
      else unbroken next rest
  | .success site' ip' :: rest => if site' = site ∧ ip' = ip then 0 else unbroken next rest
  | .prune _ :: rest => unbroken next rest

/-- A ban of the address on the site has not ended. -/
def banInForce (now : Nat) (history : List Entry) : Bool :=
  history.any fun entry =>
    match entry with
    | .failure site' ip' time (some ban) =>
        site' = site && ip' = ip && now < time + ban.banSeconds * 1000
    | _ => false

end History

structure BansInTime (settings : Text → ChallengeAutoBan) (history : List Entry) : Prop where
  /-- A failure that completes a streak triggers a ban, unless one is in force. -/
  triggered : ∀ later site ip time ban before,
    history = later ++ .failure site ip time ban :: before →
    (settings site).maxFailures ≤ unbroken site ip time before + 1 →
    banInForce site ip time before = false → ban.isSome = true
  /-- No ban comes early. -/
  earned : ∀ later site ip time ban before,
    history = later ++ .failure site ip time (some ban) :: before →
    (settings site).maxFailures ≤ failuresSince site ip before + 1

/-- No failure counts for an address whose streak is marked as banned after its ban has ended. -/
def stillBanned (settings : Text → ChallengeAutoBan) (s : BanState) : BanAction → Bool
  | .failure site ip now =>
      !(records settings site ip && (s.streaks.get? (key site ip)).any (·.banned)) ||
        banInForce site ip now s.history
  | _ => true

def StillBanned (settings : Text → ChallengeAutoBan) (s : BanState) (a : BanAction) : Prop :=
  stillBanned settings s a = true

instance (settings : Text → ChallengeAutoBan) (s : BanState) (a : BanAction) :
    Decidable (StillBanned settings s a) :=
  inferInstanceAs (Decidable (_ = true))

variable {settings : Text → ChallengeAutoBan} {s t : BanState} {site : Text} {ip : ClientIp}
variable {history : List Entry}

/-! ## The history -/

theorem unbroken_eq_zero {next : Nat}
    (h : (lastFailure site ip history).all (staleEntryMs < next - ·) = true) :
    unbroken site ip next history = 0 := by
  induction history with
  | nil => rfl
  | cons entry rest ih =>
      cases entry with
      | failure site' ip' time ban =>
          rw [lastFailure] at h
          rw [unbroken]
          split
          · rename_i hsame
            rw [if_pos hsame] at h
            exact if_pos (of_decide_eq_true h)
          · rename_i hother
            rw [if_neg hother] at h
            exact ih h
      | success site' ip' =>
          rw [unbroken]
          split
          · rfl
          · exact ih h
      | prune time => exact ih h

theorem key_inj {site' : Text} {ip' : ClientIp} (h : key site ip = key site' ip') :
    site = site' ∧ ip = ip' := by
  have hcut : ∀ (siteId : Text) (client : ClientIp),
      (key siteId client).reverse.takeWhile (· ≠ '-') = client.text.reverse := by
    intro siteId client
    have hplain : ∀ c ∈ client.text.reverse, decide (c ≠ '-') = true := by
      intro c hc
      exact decide_eq_true fun heq => client.noDash (heq ▸ List.mem_reverse.mp hc)
    rw [key, List.reverse_append, List.reverse_cons, List.append_assoc, List.singleton_append,
      List.takeWhile_append_of_pos hplain, List.takeWhile_cons_of_neg (by simp), List.append_nil]
  have htext : ip.text = ip'.text := by
    have hboth := (hcut site ip).symm.trans ((congrArg _ (congrArg _ h)).trans (hcut site' ip'))
    exact List.reverse_injective hboth
  have hip : ip = ip' := by
    cases ip
    cases ip'
    cases htext
    rfl
  subst hip
  exact ⟨List.append_cancel_right h, rfl⟩

/-! ## One step -/

/-- What a failure that counts does. -/
theorem recordChallengeFailure_spec (hrecords : records settings site ip = true) (now : Nat)
    (streaks : Streaks) :
    let before := streaks.get? (key site ip)
    let count := before.elim 0 (·.count) + 1
    let result := recordChallengeFailure settings site ip now streaks
    (∃ banned, result.1.get? (key site ip) = some ⟨count, banned, now⟩) ∧
      (∀ other, other ≠ key site ip → result.1.get? other = streaks.get? other) ∧
      (result.2.isSome = true ↔
        before.any (·.banned) = false ∧ (settings site).maxFailures ≤ count) := by
  have hbefore : ((streaks.get? (key site ip)).getD ⟨0, false, now⟩).count =
        (streaks.get? (key site ip)).elim 0 (·.count) ∧
      ((streaks.get? (key site ip)).getD ⟨0, false, now⟩).banned =
        (streaks.get? (key site ip)).any (·.banned) := by
    cases streaks.get? (key site ip) with
    | none => exact ⟨rfl, rfl⟩
    | some entry => exact ⟨rfl, rfl⟩
  dsimp only
  rw [recordChallengeFailure, if_pos hrecords]
  dsimp only
  rw [hbefore.1, hbefore.2]
  split
  · rename_i hban
    obtain ⟨hnew, hmax⟩ := Bool.and_eq_true_iff.mp hban
    refine ⟨⟨true, OrderedMap.get?_set_self ..⟩, fun other hother =>
      OrderedMap.get?_set_ne _ _ hother, ?_⟩
    exact ⟨fun _ => ⟨(Bool.not_eq_true' _).mp hnew, of_decide_eq_true hmax⟩, fun _ => rfl⟩
  · rename_i hban
    refine ⟨⟨_, OrderedMap.get?_set_self ..⟩, fun other hother =>
      OrderedMap.get?_set_ne _ _ hother, ?_⟩
    constructor
    · intro h
      cases h
    · rintro ⟨hnew, hmax⟩
      exact absurd (Bool.and_eq_true_iff.mpr ⟨(Bool.not_eq_true' _).mpr hnew,
        decide_eq_true hmax⟩) hban

/-- What the streaks hold of the history of an address on a site. -/
structure Tracks (s : BanState) (site : Text) (ip : ClientIp) : Prop where
  absent : s.streaks.get? (key site ip) = none → failuresSince site ip s.history = 0
  counted : ∀ entry, s.streaks.get? (key site ip) = some entry →
    entry.count = failuresSince site ip s.history ∧
      lastFailure site ip s.history = some entry.lastFailureAt
  bounded : ∀ next, s.now ≤ next →
    unbroken site ip next s.history ≤ failuresSince site ip s.history

theorem Tracks.count_eq (h : Tracks s site ip) :
    (s.streaks.get? (key site ip)).elim 0 (·.count) = failuresSince site ip s.history := by
  cases hentry : s.streaks.get? (key site ip) with
  | none => exact (h.absent hentry).symm
  | some entry => exact (h.counted entry hentry).1

theorem Tracks.failure {site' : Text} {ip' : ClientIp} {now : Nat} (h : Tracks s site' ip')
    (hnow : s.now ≤ now) (hrecords : records settings site ip = true) (ban : Option BanCall) :
    Tracks ⟨now, (recordChallengeFailure settings site ip now s.streaks).1,
      .failure site ip now ban :: s.history⟩ site' ip' := by
  obtain ⟨⟨banned, hself⟩, hothers, -⟩ := recordChallengeFailure_spec hrecords now s.streaks
  by_cases hsame : site = site' ∧ ip = ip'
  · obtain ⟨rfl, rfl⟩ := hsame
    rw [h.count_eq] at hself
    refine ⟨fun hnone => ?_, fun entry hentry => ?_, fun next hnext => ?_⟩
    · exact absurd (hself.symm.trans hnone) (by simp)
    · obtain rfl := Option.some.inj (hself.symm.trans hentry)
      rw [failuresSince, lastFailure, if_pos ⟨rfl, rfl⟩, if_pos ⟨rfl, rfl⟩]
      exact ⟨rfl, rfl⟩
    · have hself : site = site ∧ ip = ip := ⟨rfl, rfl⟩
      rw [unbroken, failuresSince, if_pos hself, if_pos hself]
      have hbefore := h.bounded now hnow
      split
      · exact Nat.zero_le _
      · omega
  · have hkey : key site' ip' ≠ key site ip := by
      intro heq
      obtain ⟨rfl, rfl⟩ := key_inj heq
      exact hsame ⟨rfl, rfl⟩
    refine ⟨fun hnone => ?_, fun entry hentry => ?_, fun next hnext => ?_⟩
    · rw [failuresSince, if_neg hsame]
      exact h.absent ((hothers _ hkey).symm.trans hnone)
    · rw [failuresSince, lastFailure, if_neg hsame, if_neg hsame]
      exact h.counted entry ((hothers _ hkey).symm.trans hentry)
    · rw [unbroken, failuresSince, if_neg hsame, if_neg hsame]
      exact h.bounded next (Nat.le_trans hnow hnext)

theorem Tracks.success {site' : Text} {ip' : ClientIp} (h : Tracks s site' ip')
    (site : Text) (ip : ClientIp) :
    Tracks { s with
      streaks := recordChallengeSuccess site ip s.streaks
      history := .success site ip :: s.history } site' ip' := by
  by_cases hsame : site = site' ∧ ip = ip'
  · obtain ⟨rfl, rfl⟩ := hsame
    have hnone : (recordChallengeSuccess site ip s.streaks).get? (key site ip) = none :=
      OrderedMap.get?_erase_self ..
    refine ⟨fun _ => ?_, fun entry hentry => ?_, fun next _ => ?_⟩
    · rw [failuresSince, if_pos ⟨rfl, rfl⟩]
    · exact absurd (hnone.symm.trans hentry) (by simp)
    · rw [unbroken, if_pos ⟨rfl, rfl⟩]
      exact Nat.zero_le _
  · have hkey : key site' ip' ≠ key site ip := by
      intro heq
      obtain ⟨rfl, rfl⟩ := key_inj heq
      exact hsame ⟨rfl, rfl⟩
    have hothers : (recordChallengeSuccess site ip s.streaks).get? (key site' ip') =
        s.streaks.get? (key site' ip') := OrderedMap.get?_erase_ne _ hkey
    refine ⟨fun hnone => ?_, fun entry hentry => ?_, fun next hnext => ?_⟩
    · rw [failuresSince, if_neg hsame]
      exact h.absent (hothers.symm.trans hnone)
    · rw [failuresSince, lastFailure, if_neg hsame]
      exact h.counted entry (hothers.symm.trans hentry)
    · rw [unbroken, failuresSince, if_neg hsame, if_neg hsame]
      exact h.bounded next hnext

theorem Tracks.prune {now : Nat} (h : Tracks s site ip) (hnow : s.now ≤ now) :
    Tracks ⟨now, pruneStaleChallengeFailureEntries now s.streaks, .prune now :: s.history⟩
      site ip := by
  have hget : (pruneStaleChallengeFailureEntries now s.streaks).get? (key site ip) =
      (s.streaks.get? (key site ip)).filter fun entry =>
        ¬staleEntryMs < now - entry.lastFailureAt := OrderedMap.get?_filter ..
  refine ⟨fun hnone => ?_, fun entry hentry => ?_, fun next hnext => ?_⟩
  · rw [failuresSince]
    split
    · rfl
    · rename_i hfresh
      apply h.absent
      by_contra hsome
      obtain ⟨entry, hentry⟩ := Option.ne_none_iff_exists'.mp hsome
      rw [(h.counted entry hentry).2, Option.all_some] at hfresh
      rw [hentry, hnone] at hget
      simp [Option.filter] at hget hfresh
      omega
  · rw [hget] at hentry
    obtain ⟨hbefore, hfresh⟩ := Option.filter_eq_some_iff.mp hentry
    obtain ⟨hcount, hlast⟩ := h.counted entry hbefore
    rw [failuresSince, lastFailure, hlast, Option.all_some, if_neg (by simpa using hfresh)]
    exact ⟨hcount, rfl⟩
  · rw [unbroken, failuresSince]
    split
    · rename_i hstale
      apply Nat.le_of_eq
      apply unbroken_eq_zero
      cases hlast : lastFailure site ip s.history with
      | none => rfl
      | some last =>
          rw [hlast] at hstale
          simp only [Option.all_some, decide_eq_true_eq] at hstale ⊢
          have hle : now ≤ next := hnext
          omega
    · exact h.bounded next (Nat.le_trans hnow hnext)

/-! ## The law on runs -/

/-- The invariant of a run. -/
structure InTime (settings : Text → ChallengeAutoBan) (s : BanState) : Prop where
  tracks : ∀ site ip, Tracks s site ip
  law : BansInTime settings s.history

/-- A call that is no failure adds nothing that the law speaks of. -/
theorem BansInTime.other (h : BansInTime settings history) {entry : Entry}
    (hentry : ∀ site ip time ban, entry ≠ .failure site ip time ban) :
    BansInTime settings (entry :: history) := by
  have hlater : ∀ {later site ip time ban before},
      entry :: history = later ++ .failure site ip time ban :: before →
        ∃ rest, history = rest ++ .failure site ip time ban :: before := by
    intro later site ip time ban before heq
    cases later with
    | nil => exact absurd (List.cons.inj heq).1 (hentry site ip time ban)
    | cons first rest => exact ⟨rest, (List.cons.inj heq).2⟩
  constructor
  · intro later site ip time ban before heq
    obtain ⟨rest, hrest⟩ := hlater heq
    exact h.triggered rest site ip time ban before hrest
  · intro later site ip time ban before heq
    obtain ⟨rest, hrest⟩ := hlater heq
    exact h.earned rest site ip time ban before hrest

theorem BansInTime.failure (h : BansInTime settings history) {time : Nat} {ban : Option BanCall}
    (htriggered : (settings site).maxFailures ≤ unbroken site ip time history + 1 →
      banInForce site ip time history = false → ban.isSome = true)
    (hearned : ban.isSome = true →
      (settings site).maxFailures ≤ failuresSince site ip history + 1) :
    BansInTime settings (.failure site ip time ban :: history) := by
  constructor
  · intro later site' ip' time' ban' before heq
    cases later with
    | nil =>
        cases heq
        exact htriggered
    | cons first rest => exact h.triggered rest site' ip' time' ban' before (List.cons.inj heq).2
  · intro later site' ip' time' ban' before heq
    cases later with
    | nil =>
        cases heq
        exact hearned rfl
    | cons first rest => exact h.earned rest site' ip' time' ban' before (List.cons.inj heq).2

theorem InTime.step {a : BanAction} (h : InTime settings s) (hstill : StillBanned settings s a)
    (hstep : banStep settings s a = some t) : InTime settings t := by
  cases a with
  | success site ip =>
      cases hstep
      exact ⟨fun site' ip' => (h.tracks site' ip').success site ip,
        h.law.other fun _ _ _ _ heq => by cases heq⟩
  | prune now =>
      rw [banStep] at hstep
      split at hstep
      · cases hstep
      · rename_i hnow
        cases hstep
        exact ⟨fun site ip => (h.tracks site ip).prune (Nat.le_of_not_lt hnow),
          h.law.other fun _ _ _ _ heq => by cases heq⟩
  | failure site ip now =>
      rw [banStep] at hstep
      split at hstep
      · cases hstep
      · rename_i hnow
        have hnow := Nat.le_of_not_lt hnow
        cases hstep
        by_cases hrecords : records settings site ip = true
        · rw [if_pos hrecords]
          refine ⟨fun site' ip' => (h.tracks site' ip').failure hnow hrecords _, ?_⟩
          obtain ⟨-, -, hban⟩ := recordChallengeFailure_spec hrecords now s.streaks
          have htracks := h.tracks site ip
          rw [htracks.count_eq] at hban
          apply h.law.failure
          · intro hmax hended
            have hbounded := htracks.bounded now hnow
            apply hban.mpr
            refine ⟨?_, by omega⟩
            have hcases : (!(records settings site ip &&
                (s.streaks.get? (key site ip)).any (·.banned)) ||
                  banInForce site ip now s.history) = true := hstill
            rw [hrecords, hended, Bool.true_and, Bool.or_false, Bool.not_eq_true'] at hcases
            exact hcases
          · intro hsome
            exact (hban.mp hsome).2
        · have hsame : recordChallengeFailure settings site ip now s.streaks =
              (s.streaks, none) := by
            rw [recordChallengeFailure, if_neg hrecords]
          rw [if_neg hrecords, hsame]
          refine ⟨fun site' ip' => ?_, h.law⟩
          have htracks := h.tracks site' ip'
          exact ⟨htracks.absent, htracks.counted, fun next hnext =>
            htracks.bounded next (Nat.le_trans hnow hnext)⟩

/-- While no failure counts for a streak whose ban has ended, every streak that is due is
banned, and none before. -/
theorem repeated_failures_ban (settings : Text → ChallengeAutoBan)
    (h : Reach (banStep settings) (StillBanned settings) Started s) :
    BansInTime settings s.history := by
  have hinTime : InTime settings s := by
    apply h.invariant
    · rintro s ⟨hstreaks, hhistory⟩
      constructor
      · intro site ip
        refine ⟨fun _ => ?_, fun entry hentry => ?_, fun next _ => ?_⟩
        · rw [hhistory]
          rfl
        · rw [hstreaks] at hentry
          cases hentry
        · rw [hhistory]
          exact Nat.le_refl _
      · constructor
        · intro later site ip time ban before heq
          rw [hhistory] at heq
          simp at heq
        · intro later site ip time ban before heq
          rw [hhistory] at heq
          simp at heq
    · intro s a s' _ hs hstill hstep
      exact hs.step hstill hstep
  exact hinTime.law

/-! ## Runs -/

def exampleSettings : Text → ChallengeAutoBan :=
  fun _ => ⟨true, 2, 3600, by decide, by decide⟩

def exampleIp : ClientIp := ⟨"198.51.100.1".toList, by decide⟩

def exampleStart : BanState := ⟨0, OrderedMap.empty, []⟩

/-- Two failures, a third while the ban is in force, then silence until the streak is stale and
two failures again. -/
def bannedTwice : List BanAction :=
  [.failure "site".toList exampleIp 0, .failure "site".toList exampleIp 1000,
    .failure "site".toList exampleIp 2000, .prune 9000000,
    .failure "site".toList exampleIp 9001000, .failure "site".toList exampleIp 9002000]

theorem repeated_failures_ban_twice :
    ∃ s, execIf (banStep exampleSettings) (StillBanned exampleSettings) exampleStart
        bannedTwice = some s ∧ BansInTime exampleSettings s.history := by
  have hrun : (execIf (banStep exampleSettings) (StillBanned exampleSettings) exampleStart
      bannedTwice).isSome = true := by decide +kernel
  obtain ⟨s, hs⟩ := Option.isSome_iff_exists.mp hrun
  exact ⟨s, hs, repeated_failures_ban exampleSettings
    (execIf_reach (.start ⟨rfl, rfl⟩) hs)⟩

/-- The client comes back when the ban of one hour has ended, and is never banned again. -/
def bannedOnce : List BanAction :=
  [.failure "site".toList exampleIp 0, .failure "site".toList exampleIp 1000,
    .failure "site".toList exampleIp 3602000]

theorem ended_ban_is_the_last :
    ¬ ∀ (settings : Text → ChallengeAutoBan) (s : BanState),
      Reach (banStep settings) Any Started s → BansInTime settings s.history := by
  intro h
  have hrun : (exec (banStep exampleSettings) exampleStart bannedOnce).any (fun s =>
      s.history = [.failure "site".toList exampleIp 3602000 none,
        .failure "site".toList exampleIp 1000 (some ⟨"site".toList, exampleIp, 2, 3600⟩),
        .failure "site".toList exampleIp 0 none]) = true := by decide +kernel
  obtain ⟨s, hs, hhistory⟩ := (Option.any_eq_true ..).mp hrun
  have hlaw := h exampleSettings s (exec_reach (.start ⟨rfl, rfl⟩) hs)
  have hban := hlaw.triggered [] _ _ _ _ _ (of_decide_eq_true hhistory) (by decide +kernel)
    (by decide +kernel)
  cases hban

end BurrowGate.FailureBan
