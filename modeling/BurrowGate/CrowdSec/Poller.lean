import BurrowGate.CrowdSec.DecisionStore
import BurrowGate.Lib.Run

/-!
# `crowdsec-service.ts`: the poller

The service between its suspension points: a reload is suspended before
`applyTimer`, a poll before each of its awaits. What polls record for the status
page is left out. `version` counts the reloads; `synced` says that a snapshot
fetched with the present settings is in the store since the last request for one.
-/

namespace BurrowGate.CrowdSec

open Lib.Run

/-- The columns the poller reads; `unknownRemediation` is none for `ignore`. -/
structure CrowdSecSettings where
  enabled : Int
  lapiUrl : Option (List Char)
  apiKeyEncrypted : Option (List Char)
  pollIntervalSeconds : ℚ
  fullSyncIntervalSeconds : ℚ
  unknownRemediation : Option Remediation
  deriving DecidableEq

/-- The configuration and the built-ins the poller uses. -/
structure PollerEnv where
  enabled : Bool
  maxDecisions : Nat
  toUpperCase : List Char → List Char
  dateParse : List Char → Option ℚ

/-- Where `runPoll` is suspended. -/
inductive PollStage
  | apiKey
  | fetching (startup : Bool)
  | reading (startup : Bool)
  | rebuilding (capped : List RawCrowdSecDecision) (now : ℚ)
  | adopted
  | recording
  | failed

structure Poll where
  settings : CrowdSecSettings
  version : Nat
  stage : PollStage

structure CrowdSecService where
  settings : Option CrowdSecSettings := none
  needsFullSync : Bool := true
  lastFullSyncAt : ℚ := 0
  timer : Option ℚ := none
  inFlight : Option Poll := none
  /-- Reloads suspended in `refreshAppSecConnection`. -/
  reloading : Nat := 0
  store : CrowdSecDecisionStore := .clear
  version : Nat := 0
  synced : Bool := false

section Service

variable (env : PollerEnv)

/-- `active(settings)`; an empty text is falsy. -/
def activeSettings (settings : CrowdSecSettings) : Bool :=
  env.enabled && settings.enabled = 1 && settings.lapiUrl.any (· ≠ []) &&
    settings.apiKeyEncrypted.any (· ≠ [])

def active (settings : Option CrowdSecSettings) : Bool := settings.any (activeSettings env)

/-- A call made while a poll is in flight joins it. -/
def poll (s : CrowdSecService) : CrowdSecService :=
  if s.inFlight.isSome then s
  else
    match s.settings.filter (activeSettings env) with
    | none => s
    | some settings => { s with inFlight := some { settings, version := s.version, stage := .apiKey } }

def applyTimer (s : CrowdSecService) : CrowdSecService :=
  match s.settings.filter (activeSettings env) with
  | none => { s with timer := none, store := .clear }
  | some settings =>
      if s.timer = some settings.pollIntervalSeconds then s
      else poll env { s with timer := some settings.pollIntervalSeconds }

/-- `reload`, up to the end of `refreshAppSecConnection`. -/
def reload (s : CrowdSecService) (settings : CrowdSecSettings) : CrowdSecService :=
  { s with
    settings := some settings
    needsFullSync := true
    reloading := s.reloading + 1
    version := s.version + 1
    synced := false }

def refreshNow (s : CrowdSecService) : CrowdSecService :=
  poll env { s with needsFullSync := true, synced := false }

def cap (decisions : List RawCrowdSecDecision) : List RawCrowdSecDecision :=
  decisions.take env.maxDecisions

inductive PollerAction
  | reload (settings : CrowdSecSettings)
  | applyTimer
  | refreshNow
  | tick
  | apiKey (now : ℚ)
  | response
  | body (new deleted : List RawCrowdSecDecision) (now : ℚ)
  | adopt
  | resume (now : ℚ)
  | fail
  | finish
  | sweepExpired (now : ℚ)
  | lookup (ip : List Char) (countryCode : Option (List Char)) (asn : Option Nat) (now : ℚ)

def atStage (s : CrowdSecService) (p : Poll) (stage : PollStage) : CrowdSecService :=
  { s with inFlight := some { p with stage } }

/-- The continuations of `runPoll`. A full sync swaps the rebuilt snapshot in and yields before it
clears `needsFullSync`; a delta does both at once. -/
def pollStep (s : CrowdSecService) (p : Poll) : PollerAction → Option CrowdSecService
  | .apiKey now =>
      match p.stage with
      | .apiKey =>
          let dueForFullSync :=
            decide (p.settings.fullSyncIntervalSeconds * 1000 ≤ now - s.lastFullSyncAt)
          some (atStage s p (.fetching (s.needsFullSync || dueForFullSync)))
      | _ => none
  | .response =>
      match p.stage with
      | .fetching startup => some (atStage s p (.reading startup))
      | _ => none
  | .body new deleted now =>
      match p.stage with
      | .reading true => some (atStage s p (.rebuilding (cap env new) now))
      | .reading false =>
          let throws := deltaThrows new deleted p.settings.unknownRemediation
          some
            { atStage s p (if throws then .failed else .recording) with
              store := applyDelta env.toUpperCase env.dateParse s.store new deleted now
                p.settings.unknownRemediation
              needsFullSync := throws }
      | _ => none
  | .adopt =>
      match p.stage with
      | .rebuilding capped now =>
          match applySnapshot env.toUpperCase env.dateParse capped now
              p.settings.unknownRemediation with
          | none => some { atStage s p .failed with needsFullSync := true }
          | some store =>
              some
                { atStage s p .adopted with
                  store
                  synced := s.synced || p.version = s.version }
      | _ => none
  | .resume now =>
      match p.stage with
      | .adopted => some { atStage s p .recording with lastFullSyncAt := now, needsFullSync := false }
      | _ => none
  | .fail =>
      match p.stage with
      | .failed => none
      | _ => some { atStage s p .failed with needsFullSync := true }
  | .finish =>
      match p.stage with
      | .recording | .failed => some { s with inFlight := none }
      | _ => none
  | _ => none

def pollerStep (s : CrowdSecService) : PollerAction → Option CrowdSecService
  | .reload settings => some (reload s settings)
  | .applyTimer =>
      if s.reloading = 0 then none
      else some (applyTimer env { s with reloading := s.reloading - 1 })
  | .refreshNow => some (refreshNow env s)
  | .tick => if s.timer.isSome then some (poll env s) else none
  | .sweepExpired now => some { s with store := sweepExpired env.toUpperCase s.store now }
  | .lookup ip countryCode asn now =>
      some { s with store := (lookup env.toUpperCase s.store ip countryCode asn now).1 }
  | a => s.inFlight.bind fun p => pollStep env s p a

/-- `start` has loaded the settings, restored a snapshot if they are active, and is suspended
before `applyTimer` as a reload is. -/
def Started (s : CrowdSecService) : Prop :=
  ∃ settings store, s = { settings, store, reloading := 1 } ∧
    (active env settings = false → store = .clear)

end Service

variable {env : PollerEnv} {s s' : CrowdSecService} {p : Poll} {a : PollerAction}

/-! ## A poll that nothing overtakes -/

/-- A delta is used only if the settings it was asked with are still in place and no full sync was
requested since, a snapshot is swapped in only if its settings are still in place, and it counts
only if no full sync was requested after the swap. -/
def undisturbed (s : CrowdSecService) (a : PollerAction) : Bool :=
  s.inFlight.all fun p =>
    match a, p.stage with
    | .body .., .reading false => p.version = s.version && !s.needsFullSync
    | .adopt, _ => p.version = s.version
    | .resume _, _ => s.synced
    | _, _ => true

def Undisturbed (s : CrowdSecService) (a : PollerAction) : Prop := undisturbed s a = true

instance (s : CrowdSecService) (a : PollerAction) : Decidable (Undisturbed s a) :=
  inferInstanceAs (Decidable (_ = _))

/-- The action applies the response of a poll that asked for a delta. -/
def appliesDelta (s : CrowdSecService) (a : PollerAction) : Bool :=
  s.inFlight.any fun p =>
    match a, p.stage with
    | .body .., .reading false => true
    | _, _ => false

structure Follows (env : PollerEnv) (s : CrowdSecService) : Prop where
  older : ∀ p, s.inFlight = some p → p.version ≤ s.version
  current : ∀ p, s.inFlight = some p → p.version = s.version →
    s.settings = some p.settings ∧ activeSettings env p.settings = true
  cleared : active env s.settings = false → s.reloading = 0 → s.store = .clear
  synced : s.needsFullSync = false → s.synced = true

theorem filter_active_eq_some {settings : CrowdSecSettings}
    (h : s.settings.filter (activeSettings env) = some settings) :
    s.settings = some settings ∧ activeSettings env settings = true := by
  obtain ⟨hsome, hactive⟩ := Option.filter_eq_some_iff.mp h
  exact ⟨hsome, hactive⟩

theorem Follows.start (h : Started env s) : Follows env s := by
  obtain ⟨settings, store, rfl, -⟩ := h
  refine ⟨?_, ?_, ?_, ?_⟩
  · intro p hp
    cases hp
  · intro p hp
    cases hp
  · intro _ hzero
    cases hzero
  · intro hfalse
    cases hfalse

theorem poll_follows (h : Follows env s) : Follows env (poll env s) := by
  unfold poll
  split
  · exact h
  · split
    · exact h
    · rename_i settings hsettings
      refine ⟨fun p hp => ?_, fun p hp _ => ?_, h.cleared, h.synced⟩
      · obtain rfl := Option.some.inj hp
        exact Nat.le_refl _
      · obtain rfl := Option.some.inj hp
        exact filter_active_eq_some hsettings

theorem applyTimer_follows (h : Follows env { s with reloading := 1 }) :
    Follows env (applyTimer env s) := by
  unfold applyTimer
  split
  · refine ⟨h.older, h.current, fun _ _ => rfl, h.synced⟩
  · rename_i settings hsettings
    obtain ⟨hsome, hactive⟩ := filter_active_eq_some hsettings
    have hkept : Follows env s := by
      refine ⟨h.older, h.current, fun hinactive _ => ?_, h.synced⟩
      rw [hsome] at hinactive
      have : activeSettings env settings = false := by simpa [active] using hinactive
      rw [hactive] at this
      cases this
    split
    · exact hkept
    · exact poll_follows ⟨hkept.older, hkept.current, hkept.cleared, hkept.synced⟩

theorem clear_sweepExpired (toUpperCase : List Char → List Char) (now : ℚ) :
    sweepExpired toUpperCase .clear now = .clear := rfl

theorem clear_lookup (toUpperCase : List Char → List Char) (ip : List Char)
    (countryCode : Option (List Char)) (asn : Option Nat) (now : ℚ) :
    (lookup toUpperCase .clear ip countryCode asn now).1 = .clear := rfl

/-- A poll that moves to another stage keeps its settings. -/
theorem atStage_follows (stage : PollStage) (h : Follows env s) (hp : s.inFlight = some p) :
    Follows env (atStage s p stage) := by
  refine ⟨fun q hq => ?_, fun q hq hversion => ?_, h.cleared, h.synced⟩
  · obtain rfl := Option.some.inj hq
    exact h.older p hp
  · obtain rfl := Option.some.inj hq
    exact h.current p hp hversion

theorem pollStep_follows (h : Follows env s) (hp : s.inFlight = some p) (hc : Undisturbed s a)
    (hs : pollStep env s p a = some s') : Follows env s' := by
  -- a poll with the present settings finds them active
  have hactive : p.version = s.version → active env s.settings = true := by
    intro hversion
    obtain ⟨hsettings, hact⟩ := h.current p hp hversion
    rw [hsettings]
    exact hact
  unfold Undisturbed undisturbed at hc
  rw [hp, Option.all_some] at hc
  cases a with
  | apiKey now =>
      dsimp only [pollStep] at hs
      split at hs
      · obtain rfl := Option.some.inj hs
        exact atStage_follows _ h hp
      · cases hs
  | response =>
      dsimp only [pollStep] at hs
      split at hs
      · obtain rfl := Option.some.inj hs
        exact atStage_follows _ h hp
      · cases hs
  | body new deleted now =>
      dsimp only [pollStep] at hs
      split at hs
      · obtain rfl := Option.some.inj hs
        exact atStage_follows _ h hp
      · rename_i hstage
        rw [hstage] at hc
        obtain ⟨hversion, hsync⟩ := (Bool.and_eq_true _ _).mp hc
        obtain rfl := Option.some.inj hs
        have hat : Follows env (atStage s p (if deltaThrows new deleted
            p.settings.unknownRemediation then .failed else .recording)) := atStage_follows _ h hp
        refine ⟨hat.older, hat.current, fun hinactive => ?_, fun _ => h.synced (by simpa using hsync)⟩
        rw [show active env s.settings = false from hinactive] at hactive
        cases hactive (of_decide_eq_true hversion)
      · cases hs
  | adopt =>
      dsimp only [pollStep] at hs
      split at hs
      · split at hs
        · obtain rfl := Option.some.inj hs
          have hat := atStage_follows .failed h hp
          refine ⟨hat.older, hat.current, hat.cleared, fun hfalse => ?_⟩
          cases hfalse
        · obtain rfl := Option.some.inj hs
          have hversion : p.version = s.version := of_decide_eq_true hc
          have hat := atStage_follows .adopted h hp
          refine ⟨hat.older, hat.current, fun hinactive => ?_, fun _ => ?_⟩
          · rw [show active env s.settings = false from hinactive] at hactive
            cases hactive hversion
          · show (s.synced || decide (p.version = s.version)) = true
            rw [decide_eq_true hversion, Bool.or_true]
      · cases hs
  | resume now =>
      dsimp only [pollStep] at hs
      split at hs
      · obtain rfl := Option.some.inj hs
        have hat := atStage_follows .recording h hp
        exact ⟨hat.older, hat.current, hat.cleared, fun _ => hc⟩
      · cases hs
  | fail =>
      dsimp only [pollStep] at hs
      split at hs
      · cases hs
      · obtain rfl := Option.some.inj hs
        have hat := atStage_follows .failed h hp
        refine ⟨hat.older, hat.current, hat.cleared, fun hfalse => ?_⟩
        cases hfalse
  | finish =>
      have hidle : Follows env { s with inFlight := none } :=
        ⟨fun q hq => (Option.some_ne_none q hq.symm).elim,
          fun q hq => (Option.some_ne_none q hq.symm).elim, h.cleared, h.synced⟩
      dsimp only [pollStep] at hs
      split at hs
      · exact Option.some.inj hs ▸ hidle
      · exact Option.some.inj hs ▸ hidle
      · cases hs
  | _ => cases hs

theorem pollerStep_follows (h : Follows env s) (hc : Undisturbed s a)
    (hs : pollerStep env s a = some s') : Follows env s' := by
  have hpoll : ∀ {a}, Undisturbed s a → (s.inFlight.bind fun p => pollStep env s p a) = some s' →
      Follows env s' := by
    intro a hc hs
    obtain ⟨p, hp, hstep⟩ := Option.bind_eq_some_iff.mp hs
    exact pollStep_follows h hp hc hstep
  cases a with
  | reload settings =>
      obtain rfl := Option.some.inj hs
      refine ⟨fun p hp => Nat.le_succ_of_le (h.older p hp), fun p hp hversion => ?_, ?_, ?_⟩
      · have hle := h.older p hp
        replace hversion : p.version = s.version + 1 := hversion
        omega
      · intro _ hzero
        cases hzero
      · intro hfalse
        cases hfalse
  | applyTimer =>
      dsimp only [pollerStep] at hs
      split at hs
      · cases hs
      · obtain rfl := Option.some.inj hs
        refine applyTimer_follows ⟨h.older, h.current, fun _ hone => ?_, h.synced⟩
        cases hone
  | refreshNow =>
      obtain rfl := Option.some.inj hs
      refine poll_follows ⟨h.older, h.current, h.cleared, fun hfalse => ?_⟩
      cases hfalse
  | tick =>
      dsimp only [pollerStep] at hs
      split at hs
      · obtain rfl := Option.some.inj hs
        exact poll_follows h
      · cases hs
  | sweepExpired now =>
      obtain rfl := Option.some.inj hs
      refine ⟨h.older, h.current, fun hinactive hzero => ?_, h.synced⟩
      show sweepExpired env.toUpperCase s.store now = .clear
      rw [h.cleared hinactive hzero]
      exact clear_sweepExpired _ _
  | lookup ip countryCode asn now =>
      obtain rfl := Option.some.inj hs
      refine ⟨h.older, h.current, fun hinactive hzero => ?_, h.synced⟩
      show (lookup env.toUpperCase s.store ip countryCode asn now).1 = .clear
      rw [h.cleared hinactive hzero]
      exact clear_lookup _ _ _ _ _
  | _ => exact hpoll hc hs

/-- In a run whose polls are undisturbed the store is empty once the integration is inactive, and
no delta is applied before a snapshot fetched with the present settings. -/
theorem poller_follows_settings (env : PollerEnv) {s : CrowdSecService}
    (h : Reach (pollerStep env) Undisturbed (Started env) s) :
    (active env s.settings = false → s.inFlight.isNone → s.reloading = 0 → s.store = .clear) ∧
      ∀ a, Undisturbed s a → appliesDelta s a = true → s.synced = true := by
  have hinv : Follows env s := h.invariant (fun _ hs => Follows.start hs)
    fun _ _ _ _ hinv hc hs => pollerStep_follows hinv hc hs
  refine ⟨fun hinactive _ hzero => hinv.cleared hinactive hzero, fun a hc hdelta => ?_⟩
  obtain ⟨p, hp, hmatch⟩ := (Option.any_eq_true _ _).mp hdelta
  unfold Undisturbed undisturbed at hc
  rw [hp, Option.all_some] at hc
  split at hmatch
  · rename_i hstage
    rw [hstage] at hc
    obtain ⟨-, hsync⟩ := (Bool.and_eq_true _ _).mp hc
    exact hinv.synced (by simpa using hsync)
  · cases hmatch

/-! ## Disabling during a poll -/

def pollerEnv : PollerEnv :=
  { enabled := true, maxDecisions := 10, toUpperCase := id, dateParse := fun _ => none }

def enabledSettings : CrowdSecSettings :=
  { enabled := 1
    lapiUrl := some ['u']
    apiKeyEncrypted := some ['k']
    pollIntervalSeconds := 10
    fullSyncIntervalSeconds := 1800
    unknownRemediation := some .ban }

def pollerStart : CrowdSecService := { settings := some enabledSettings, reloading := 1 }

theorem pollerStart_started : Started pollerEnv pollerStart :=
  ⟨some enabledSettings, .clear, rfl, fun _ => rfl⟩

/-- A ban without an expiry. -/
def lastingBan : RawCrowdSecDecision :=
  { id := .string ['1']
    type := .string "ban".toList
    scope := .string "ip".toList
    value := .string "192.0.2.7".toList }

/-- The first poll loads a snapshot and the second asks for a delta, which then follows it. -/
theorem poller_follows_settings_delta :
    ∃ s, Reach (pollerStep pollerEnv) Undisturbed (Started pollerEnv) s ∧
      appliesDelta s (.body [] [] 0) = true ∧ s.synced = true := by
  have hrun : ((execIf (pollerStep pollerEnv) Undisturbed pollerStart
      [.applyTimer, .apiKey 0, .response, .body [lastingBan] [] 0, .adopt, .resume 0, .finish, .tick,
        .apiKey 0, .response]).map fun s =>
          (undisturbed s (.body [] [] 0), appliesDelta s (.body [] [] 0))) = some (true, true) := by
    decide +kernel
  obtain ⟨s, hexec, hs⟩ := Option.map_eq_some_iff.mp hrun
  obtain ⟨hc, hdelta⟩ := Prod.mk.inj hs
  have hreach := execIf_reach (.start pollerStart_started) hexec
  exact ⟨s, hreach, hdelta, (poller_follows_settings pollerEnv hreach).2 _ hc hdelta⟩

/-- The integration is disabled while the first poll is in flight; the store is cleared, and the
poll then swaps its snapshot in. -/
theorem poller_enforces_disabled :
    ∃ s, Reach (pollerStep pollerEnv) Any (Started pollerEnv) s ∧
      active pollerEnv s.settings = false ∧ s.inFlight.isNone ∧ s.reloading = 0 ∧
      s.store ≠ .clear := by
  have hrun : ((exec (pollerStep pollerEnv) pollerStart
      [.applyTimer, .apiKey 0, .reload { enabledSettings with enabled := 0 }, .applyTimer, .response,
        .body [lastingBan] [] 0, .adopt, .resume 0, .finish]).map fun s =>
          (active pollerEnv s.settings, s.inFlight.isNone, s.reloading, s.store.isEmpty)) =
      some (false, true, 0, false) := by
    decide +kernel
  obtain ⟨s, hexec, hs⟩ := Option.map_eq_some_iff.mp hrun
  simp only [Prod.mk.injEq] at hs
  obtain ⟨hinactive, hidle, hzero, hstore⟩ := hs
  refine ⟨s, exec_reach (.start pollerStart_started) hexec, hinactive, hidle, hzero, ?_⟩
  intro hclear
  rw [hclear] at hstore
  cases hstore

end BurrowGate.CrowdSec
