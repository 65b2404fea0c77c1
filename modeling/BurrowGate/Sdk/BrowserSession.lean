import BurrowGate.Lib.Run
import Mathlib.Algebra.Order.Field.Rat
import Mathlib.Data.List.Basic

/-!
# `BrowserSessionAssertionClient`

The assertion manager of `burrowgate-auth/src/mod.ts`. A request and what waits for it are
settled in separate steps, as promises are: its `then` callback, the last block of the `refresh`
that issued it, and the handler of each background refresh whose request was rejected. Times
are rationals in place of doubles.
-/

namespace BurrowGate.Sdk.BrowserSession

open Lib.Run

structure ClientOptions where
  refreshAheadMs : ℚ
  retryDelayMs : ℚ
  notNegative : 0 ≤ refreshAheadMs
  positive : 0 < retryDelayMs

inductive RequestStatus
  | pending
  | fulfilled
  | rejected
  deriving DecidableEq

/-- A request with the generation it was issued in. `background` and `whileRunning` are history:
whether `runBackgroundRefresh` issued it, and whether the client was running then. -/
structure AssertionRequest where
  generation : Nat
  status : RequestStatus
  background : Bool
  whileRunning : Bool
  deriving DecidableEq

/-- An assertion is known by the request that it answers. -/
structure BrowserSessionAssertion where
  request : Nat
  expiresAt : ℚ
  deriving DecidableEq

structure Timer where
  id : Nat
  delay : ℚ
  deriving DecidableEq

/-- `background` holds, for each background refresh, the request that it waits for, and `settled`
the requests whose `refresh` has yet to run its last block. `clearedAt` is the number of requests
that were issued before the last `clear`. -/
structure Client where
  now : ℚ
  assertion : Option BrowserSessionAssertion
  refreshPromise : Option Nat
  refreshTimer : Option Nat
  running : Bool
  generation : Nat
  timers : List Timer
  nextTimer : Nat
  requests : List AssertionRequest
  background : List Nat
  settled : List Nat
  clearedAt : Nat

/-- The methods of the client, as far as they run before they wait. -/
inductive Call
  | start
  | stop
  | clear
  | logout
  | refresh
  | getAssertion
  deriving DecidableEq

/-! ## The methods -/

def currentAssertion (s : Client) : Option BrowserSessionAssertion :=
  s.assertion.filter (s.now < ·.expiresAt)

def clearTimer (s : Client) : Client :=
  { s with
    timers := s.timers.filter (some ·.id ≠ s.refreshTimer)
    refreshTimer := none }

def setTimer (s : Client) (delay : ℚ) : Client :=
  { s with
    timers := s.timers ++ [⟨s.nextTimer, delay⟩]
    refreshTimer := some s.nextTimer
    nextTimer := s.nextTimer + 1 }

def scheduleRefresh (options : ClientOptions) (s : Client) (expiresAt : ℚ) : Client :=
  if s.running then
    let remaining := max 0 (expiresAt - s.now)
    let effectiveRefreshAhead := min options.refreshAheadMs (max 1000 (remaining / 5))
    setTimer (clearTimer s) (max 1000 (remaining - effectiveRefreshAhead))
  else s

def scheduleRetry (options : ClientOptions) (s : Client) : Client :=
  if s.running then setTimer (clearTimer s) options.retryDelayMs else s

/-- A refresh shares the request under way. -/
def refresh (background : Bool) (s : Client) : Client :=
  match s.refreshPromise with
  | some request =>
      if background then { s with background := s.background ++ [request] } else s
  | none =>
      let request := s.requests.length
      { s with
        requests := s.requests ++ [⟨s.generation, .pending, background, s.running⟩]
        refreshPromise := some request
        background := if background then s.background ++ [request] else s.background }

def runBackgroundRefresh (s : Client) : Client :=
  if s.running then refresh true { s with refreshTimer := none } else s

def start (s : Client) : Client :=
  if s.running then s else runBackgroundRefresh { s with running := true }

def stop (s : Client) : Client := clearTimer { s with running := false }

/-- `clear` without the background refresh at its end. -/
def forget (s : Client) : Client :=
  clearTimer { s with
    generation := s.generation + 1
    assertion := none
    refreshPromise := none
    clearedAt := s.requests.length }

def clear (s : Client) : Client := runBackgroundRefresh (forget s)

/-- The request of `logout` changes nothing here. -/
def logout (s : Client) : Client := clear (stop s)

def call (s : Client) : Call → Client
  | .start => start s
  | .stop => stop s
  | .clear => clear s
  | .logout => logout s
  | .refresh => refresh false s
  | .getAssertion => if (currentAssertion s).isSome then s else refresh false s

/-! ## The callbacks -/

/-- What becomes of a request, with the calls that `onUpdate` makes and whether it throws. -/
inductive Outcome
  | answered (expiresAt : ℚ) (onUpdate : List Call) (throws : Bool)
  | failed

def settle (request : Nat) (status : RequestStatus) (s : Client) : Client :=
  { s with
    requests := s.requests.modify request fun row => { row with status }
    settled := s.settled ++ [request] }

/-- The `then` callback of a request, which was issued in `generation`. -/
def respond (options : ClientOptions) (s : Client) (request generation : Nat) : Outcome → Client
  | .failed => settle request .rejected s
  | .answered expiresAt onUpdate throws =>
      if generation ≠ s.generation then settle request .rejected s
      else if expiresAt ≤ s.now then settle request .rejected s
      else
        let updated := onUpdate.foldl call { s with assertion := some ⟨request, expiresAt⟩ }
        if throws then settle request .rejected updated
        else settle request .fulfilled (scheduleRefresh options updated expiresAt)

/-- The handler of a background refresh whose request was rejected. -/
def reportError (options : ClientOptions) (s : Client) (onError : List Call) (throws : Bool) :
    Client :=
  if s.running then
    let reported := onError.foldl call s
    if throws then reported else scheduleRetry options reported
  else s

def Client.hasStatus (s : Client) (status : RequestStatus) (request : Nat) : Bool :=
  s.requests[request]?.any (·.status = status)

/-- No callback of a promise waits, so a timer may fire. -/
def idle (s : Client) : Bool :=
  s.settled.isEmpty && s.background.all (!s.hasStatus .rejected ·)

inductive Action
  | call (c : Call)
  | fire (timer : Nat)
  | complete (request : Nat) (outcome : Outcome)
  /-- The last block of `refresh`. -/
  | settled (request : Nat)
  | report (request : Nat) (onError : List Call) (throws : Bool)
  | tick (now : ℚ)

def clientStep (options : ClientOptions) (s : Client) : Action → Option Client
  | .call c => some (call s c)
  | .fire timer =>
      if idle s && (s.timers.map (·.id)).contains timer then
        some (runBackgroundRefresh { s with timers := s.timers.filter (·.id ≠ timer) })
      else none
  | .complete request outcome =>
      s.requests[request]?.bind fun row =>
        if row.status = .pending then some (respond options s request row.generation outcome)
        else none
  | .settled request =>
      if s.settled.contains request then
        some { s with
          settled := s.settled.erase request
          refreshPromise := if s.refreshPromise = some request then none else s.refreshPromise }
      else none
  | .report request onError throws =>
      if s.background.contains request && s.hasStatus .rejected request then
        some (reportError options { s with background := s.background.erase request } onError
          throws)
      else none
  | .tick now => if s.now ≤ now then some { s with now } else none

/-- A new client that is not started. -/
def newClient (now : ℚ) : Client where
  now := now
  assertion := none
  refreshPromise := none
  refreshTimer := none
  running := false
  generation := 0
  timers := []
  nextTimer := 0
  requests := []
  background := []
  settled := []
  clearedAt := 0

def Created (s : Client) : Prop := ∃ now, s = newClient now

/-! ## The law -/

/-- A background refresh waits for a request of this generation, or has yet to handle its
rejection. -/
def Refreshing (s : Client) : Prop :=
  ∃ request ∈ s.background, ∃ row, s.requests[request]? = some row ∧
    row.generation = s.generation ∧ row.status ≠ .fulfilled

structure AssertionManaged (s : Client) : Prop where
  fresh : ∀ assertion, s.assertion = some assertion → s.clearedAt ≤ assertion.request
  oneTimer : s.timers.length ≤ 1
  maintained : s.running = true → s.timers ≠ [] ∨ Refreshing s
  stopped : s.running = false → s.timers = []
  /-- Whatever the background issued was issued between a `start` and the next `stop`. -/
  quiet : ∀ row ∈ s.requests, row.background = true → row.whileRunning = true

/-- `start` finds no request that is fulfilled while its `refresh` has yet to finish, and
`onError` throws only when the client is not running. -/
def orderly (s : Client) : Action → Bool
  | .call .start => s.running || !s.refreshPromise.any (s.hasStatus .fulfilled)
  | .report _ _ throws => !(throws && s.running)
  | _ => true

def Orderly (s : Client) (a : Action) : Prop := orderly s a = true

instance (s : Client) (a : Action) : Decidable (Orderly s a) :=
  inferInstanceAs (Decidable (_ = true))

variable {options : ClientOptions} {s t : Client}

/-! ## The invariant of the fields -/

structure Consistent (s : Client) : Prop where
  timers : s.timers.map (·.id) = s.refreshTimer.toList
  stopped : s.running = false → s.refreshTimer = none
  promise : ∀ request, s.refreshPromise = some request →
    ∃ row, s.requests[request]? = some row ∧ row.generation = s.generation ∧
      (row.status ≠ .pending → request ∈ s.settled)
  current : ∀ request row, s.requests[request]? = some row → row.generation = s.generation →
    s.clearedAt ≤ request ∧ (row.status = .pending → s.refreshPromise = some request)
  past : ∀ row ∈ s.requests, row.generation ≤ s.generation
  cleared : s.clearedAt ≤ s.requests.length
  done : ∀ request ∈ s.settled, ∃ row, s.requests[request]? = some row ∧ row.status ≠ .pending
  fresh : ∀ assertion, s.assertion = some assertion → s.clearedAt ≤ assertion.request
  quiet : ∀ row ∈ s.requests, row.background = true → row.whileRunning = true

theorem Consistent.clearTimer_timers (h : Consistent s) : (clearTimer s).timers = [] := by
  have htimers := h.timers
  rw [clearTimer]
  apply List.filter_eq_nil_iff.mpr
  intro timer htimer
  have hid : timer.id ∈ s.refreshTimer.toList := htimers ▸ List.mem_map_of_mem htimer
  simpa using (Option.mem_toList.mp hid).symm

theorem Consistent.setTimer (h : Consistent s) (hrunning : s.running = true) (delay : ℚ) :
    Consistent (setTimer (BrowserSession.clearTimer s) delay) := by
  refine ⟨?_, fun hstopped => ?_, h.promise, h.current, h.past, h.cleared, h.done,
    h.fresh, h.quiet⟩
  · rw [BrowserSession.setTimer, h.clearTimer_timers]
    rfl
  · exact absurd (hrunning.symm.trans hstopped) (by decide)

theorem Consistent.scheduleRefresh (h : Consistent s) (expiresAt : ℚ) :
    Consistent (scheduleRefresh options s expiresAt) := by
  rw [BrowserSession.scheduleRefresh]
  split
  · exact h.setTimer ‹_› _
  · exact h

theorem Consistent.scheduleRetry (h : Consistent s) :
    Consistent (scheduleRetry options s) := by
  rw [BrowserSession.scheduleRetry]
  split
  · exact h.setTimer ‹_› _
  · exact h

theorem getElem?_append_new {row new : AssertionRequest} {rows : List AssertionRequest}
    {request : Nat} (h : (rows ++ [new])[request]? = some row) :
    rows[request]? = some row ∨ (request = rows.length ∧ row = new) := by
  by_cases hlt : request < rows.length
  · rw [List.getElem?_append_left hlt] at h
    exact .inl h
  · rw [List.getElem?_append_right (Nat.le_of_not_lt hlt)] at h
    obtain ⟨hindex, hrow⟩ := List.getElem?_eq_some_iff.mp h
    rw [List.length_singleton] at hindex
    rw [List.getElem_singleton] at hrow
    exact .inr ⟨by omega, hrow.symm⟩

theorem mem_append_new {row new : AssertionRequest} {rows : List AssertionRequest}
    (h : row ∈ rows ++ [new]) : row ∈ rows ∨ row = new :=
  (List.mem_append.mp h).imp_right List.mem_singleton.mp

theorem Consistent.refresh (h : Consistent s) {background : Bool}
    (hrunning : background = true → s.running = true) :
    Consistent (refresh background s) := by
  rw [BrowserSession.refresh]
  split
  · split
    · exact ⟨h.timers, h.stopped, h.promise, h.current, h.past, h.cleared, h.done,
    h.fresh, h.quiet⟩
    · exact h
  · rename_i hnone
    refine ⟨h.timers, h.stopped, ?_, ?_, ?_, ?_, ?_, h.fresh, ?_⟩
    · intro request hrequest
      obtain rfl := Option.some.inj hrequest
      exact ⟨_, List.getElem?_concat_length .., rfl, fun hpending => absurd rfl hpending⟩
    · intro request row hrow hgeneration
      rcases getElem?_append_new hrow with hold | ⟨rfl, rfl⟩
      · obtain ⟨hcleared, hpending⟩ := h.current request row hold hgeneration
        refine ⟨hcleared, fun hstatus => ?_⟩
        rw [hnone] at hpending
        cases hpending hstatus
      · exact ⟨h.cleared, fun _ => rfl⟩
    · intro row hrow
      rcases mem_append_new hrow with hold | rfl
      · exact h.past row hold
      · exact Nat.le_refl _
    · rw [List.length_append]
      exact Nat.le_trans h.cleared (Nat.le_add_right ..)
    · intro request hrequest
      obtain ⟨row, hrow, hstatus⟩ := h.done request hrequest
      refine ⟨row, ?_, hstatus⟩
      rw [List.getElem?_append_left (List.getElem?_eq_some_iff.mp hrow).1]
      exact hrow
    · intro row hrow hbackground
      rcases mem_append_new hrow with hold | rfl
      · exact h.quiet row hold hbackground
      · exact hrunning hbackground

/-- The timer is gone, as after it has fired. -/
theorem Consistent.disarmed (h : Consistent s) :
    Consistent { s with timers := [], refreshTimer := none } :=
  ⟨rfl, fun _ => rfl, h.promise, h.current, h.past, h.cleared, h.done, h.fresh, h.quiet⟩

theorem Consistent.timers_of_stopped (h : Consistent s) (hstopped : s.running = false) :
    s.timers = [] := by
  have hids := h.timers
  rw [h.stopped hstopped] at hids
  exact List.map_eq_nil_iff.mp hids

/-- The state in which `start` begins its first refresh. -/
theorem Consistent.started (h : Consistent s) (hstopped : s.running = false) :
    Consistent { s with running := true, refreshTimer := none } := by
  refine ⟨?_, fun _ => rfl, h.promise, h.current, h.past, h.cleared, h.done, h.fresh, h.quiet⟩
  rw [h.timers_of_stopped hstopped]
  rfl

theorem Consistent.start (h : Consistent s) : Consistent (start s) := by
  rw [BrowserSession.start]
  split
  · exact h
  · rename_i hstopped
    rw [runBackgroundRefresh, if_pos rfl]
    exact (h.started (Bool.eq_false_of_not_eq_true hstopped)).refresh fun _ => rfl

theorem Consistent.stop (h : Consistent s) : Consistent (stop s) := by
  refine ⟨?_, fun _ => rfl, h.promise, h.current, h.past, h.cleared, h.done, h.fresh, h.quiet⟩
  have hempty := h.clearTimer_timers
  show (BrowserSession.clearTimer s).timers.map (·.id) = []
  rw [hempty]
  rfl

theorem Consistent.forget (h : Consistent s) : Consistent (forget s) := by
  refine ⟨?_, fun _ => rfl, fun _ hrequest => (by cases hrequest), ?_, ?_, Nat.le_refl _,
    h.done, fun _ hassertion => (by cases hassertion), h.quiet⟩
  · have hempty := h.clearTimer_timers
    show (BrowserSession.clearTimer s).timers.map (·.id) = []
    rw [hempty]
    rfl
  · intro request row hrow hgeneration
    have hpast := h.past row (List.mem_of_getElem? hrow)
    have hnew : row.generation = s.generation + 1 := hgeneration
    omega
  · intro row hrow
    exact Nat.le_succ_of_le (h.past row hrow)

theorem Consistent.clear (h : Consistent s) : Consistent (clear s) := by
  rw [BrowserSession.clear, runBackgroundRefresh]
  split
  · -- `forget` has set the timer to none already.
    exact h.forget.refresh fun _ => ‹_›
  · exact h.forget

theorem Consistent.call (h : Consistent s) (c : Call) : Consistent (call s c) := by
  cases c with
  | start => exact h.start
  | stop => exact h.stop
  | clear => exact h.clear
  | logout => exact h.stop.clear
  | refresh => exact h.refresh fun hfalse => (by cases hfalse)
  | getAssertion =>
      rw [BrowserSession.call]
      split
      · exact h
      · exact h.refresh fun hfalse => (by cases hfalse)

theorem Consistent.calls (h : Consistent s) (calls : List Call) :
    Consistent (calls.foldl BrowserSession.call s) := by
  induction calls generalizing s with
  | nil => exact h
  | cons c calls ih => exact ih (h.call c)

theorem getElem?_modify_status {rows : List AssertionRequest} {request other : Nat}
    {row : AssertionRequest} {status : RequestStatus}
    (h : (rows.modify request fun row => { row with status })[other]? = some row) :
    ∃ old, rows[other]? = some old ∧ row.generation = old.generation ∧
      row.background = old.background ∧ row.whileRunning = old.whileRunning ∧
        row.status = if other = request then status else old.status := by
  rw [List.getElem?_modify] at h
  obtain ⟨old, hold, rfl⟩ := Option.map_eq_some_iff.mp h
  refine ⟨old, hold, ?_⟩
  by_cases hsame : request = other
  · rw [if_pos hsame, if_pos hsame.symm]
    exact ⟨rfl, rfl, rfl, rfl⟩
  · rw [if_neg hsame, if_neg fun heq => hsame heq.symm]
    exact ⟨rfl, rfl, rfl, rfl⟩

theorem settle_getElem? (request : Nat) (status : RequestStatus) {other : Nat}
    {row : AssertionRequest} (hrow : s.requests[other]? = some row) :
    ∃ new, (settle request status s).requests[other]? = some new ∧
      new.generation = row.generation ∧
        new.status = if other = request then status else row.status := by
  have hnew : (settle request status s).requests[other]? =
      some (if request = other then { row with status } else row) := by
    rw [settle, List.getElem?_modify, hrow]
    rfl
  refine ⟨_, hnew, ?_⟩
  by_cases hsame : request = other
  · rw [if_pos hsame, if_pos hsame.symm]
    exact ⟨rfl, rfl⟩
  · rw [if_neg hsame, if_neg fun heq => hsame heq.symm]
    exact ⟨rfl, rfl⟩

theorem Consistent.settle (h : Consistent s) {request : Nat} {status : RequestStatus}
    (hstatus : status ≠ .pending) (hrequest : request < s.requests.length) :
    Consistent (settle request status s) := by
  refine ⟨h.timers, h.stopped, ?_, ?_, ?_, ?_, ?_, h.fresh, ?_⟩
  · intro other hother
    obtain ⟨row, hrow, hgeneration, hsettled⟩ := h.promise other hother
    obtain ⟨new, hnew, hkept, hbecomes⟩ := settle_getElem? request status hrow
    refine ⟨new, hnew, hkept.trans hgeneration, fun hdone => ?_⟩
    by_cases hsame : other = request
    · exact List.mem_append_right _ (List.mem_singleton.mpr hsame)
    · rw [hbecomes, if_neg hsame] at hdone
      exact List.mem_append_left _ (hsettled hdone)
  · intro other row hrow hgeneration
    obtain ⟨old, hold, hkept, -, -, hbecomes⟩ := getElem?_modify_status hrow
    obtain ⟨hcleared, hpending⟩ := h.current other old hold (hkept.symm.trans hgeneration)
    refine ⟨hcleared, fun hstill => hpending ?_⟩
    rw [hbecomes] at hstill
    split at hstill
    · exact absurd hstill hstatus
    · exact hstill
  · intro row hrow
    obtain ⟨other, hother⟩ := List.getElem?_of_mem hrow
    obtain ⟨old, hold, hkept, -⟩ := getElem?_modify_status hother
    rw [hkept]
    exact h.past old (List.mem_of_getElem? hold)
  · rw [BrowserSession.settle, List.length_modify]
    exact h.cleared
  · intro other hother
    rcases List.mem_append.mp hother with hold | hnew
    · obtain ⟨row, hrow, hdone⟩ := h.done other hold
      obtain ⟨new, hnew, -, hbecomes⟩ := settle_getElem? request status hrow
      refine ⟨new, hnew, ?_⟩
      rw [hbecomes]
      split
      · exact hstatus
      · exact hdone
    · obtain rfl := List.mem_singleton.mp hnew
      obtain ⟨new, hnew, -, hbecomes⟩ :=
        settle_getElem? other status (List.getElem?_eq_getElem hrequest)
      rw [if_pos rfl] at hbecomes
      exact ⟨new, hnew, hbecomes ▸ hstatus⟩
  · intro row hrow hbackground
    obtain ⟨other, hother⟩ := List.getElem?_of_mem hrow
    obtain ⟨old, hold, -, hissued, hwhile, -⟩ := getElem?_modify_status hother
    rw [hwhile]
    exact h.quiet old (List.mem_of_getElem? hold) (hissued.symm.trans hbackground)

/-! ## The background refresh -/

/-- While the client runs, a timer is armed or a background refresh is under way. -/
def Maintained (s : Client) : Prop := s.running = true → s.timers ≠ [] ∨ Refreshing s

/-- No request is fulfilled while its `refresh` has yet to finish. -/
def Unfulfilled (s : Client) : Prop :=
  ∀ request row, s.refreshPromise = some request → s.requests[request]? = some row →
    row.status ≠ .fulfilled

theorem refreshing_refresh_true (h : Consistent s) (hfree : Unfulfilled s) :
    Refreshing (refresh true s) := by
  rw [refresh]
  split
  · rename_i request hrequest
    obtain ⟨row, hrow, hgeneration, -⟩ := h.promise request hrequest
    exact ⟨request, List.mem_append_right _ List.mem_cons_self, row, hrow, hgeneration,
      hfree request row hrequest hrow⟩
  · exact ⟨s.requests.length, List.mem_append_right _ List.mem_cons_self, _,
      List.getElem?_concat_length .., rfl, fun heq => (by cases heq)⟩

theorem Refreshing.refresh_false (h : Refreshing s) : Refreshing (refresh false s) := by
  rw [refresh]
  split
  · exact h
  · obtain ⟨request, hmem, row, hrow, hrest⟩ := h
    refine ⟨request, hmem, row, ?_, hrest⟩
    rw [List.getElem?_append_left (List.getElem?_eq_some_iff.mp hrow).1]
    exact hrow

theorem refresh_running (background : Bool) (s : Client) :
    (refresh background s).running = s.running ∧ (refresh background s).timers = s.timers := by
  rw [refresh]
  split
  · split
    · exact ⟨rfl, rfl⟩
    · exact ⟨rfl, rfl⟩
  · exact ⟨rfl, rfl⟩

theorem Maintained.refresh_false (h : Maintained s) : Maintained (refresh false s) := by
  obtain ⟨hrunning, htimers⟩ := refresh_running false s
  intro hruns
  rw [htimers]
  exact (h (hrunning ▸ hruns)).imp_right Refreshing.refresh_false

theorem Unfulfilled.refresh (h : Unfulfilled s) (background : Bool) :
    Unfulfilled (refresh background s) := by
  rw [BrowserSession.refresh]
  split
  · split
    · exact h
    · exact h
  · intro request row hrequest hrow
    obtain rfl := Option.some.inj hrequest
    rw [List.getElem?_concat_length] at hrow
    rw [← Option.some.inj hrow]
    exact fun heq => (by cases heq)

theorem maintained_start (hc : Consistent s) (h : Maintained s)
    (hfree : s.running = false → Unfulfilled s) : Maintained (start s) := by
  rw [start]
  split
  · exact h
  · rename_i hstopped
    intro _
    right
    rw [runBackgroundRefresh, if_pos rfl]
    have hstopped := Bool.eq_false_of_not_eq_true hstopped
    exact refreshing_refresh_true (hc.started hstopped) (hfree hstopped)

theorem maintained_clear (hc : Consistent s) : Maintained (clear s) := by
  rw [clear, runBackgroundRefresh]
  split
  · intro _
    right
    exact refreshing_refresh_true hc.forget fun _ _ hrequest => (by cases hrequest)
  · rename_i hstopped
    exact fun hruns => absurd hruns hstopped

theorem maintained_call (hc : Consistent s) (h : Maintained s) {c : Call}
    (hfree : c = .start → s.running = false → Unfulfilled s) : Maintained (call s c) := by
  cases c with
  | start => exact maintained_start hc h (hfree rfl)
  | stop => exact fun hruns => (by cases hruns)
  | clear => exact maintained_clear hc
  | logout => exact maintained_clear hc.stop
  | refresh => exact h.refresh_false
  | getAssertion =>
      rw [call]
      split
      · exact h
      · exact h.refresh_false

theorem Unfulfilled.clear (s : Client) : Unfulfilled (clear s) := by
  have hnone : Unfulfilled (forget s) := fun _ _ hrequest => (by cases hrequest)
  rw [BrowserSession.clear, runBackgroundRefresh]
  split
  · exact hnone.refresh true
  · exact hnone

theorem Unfulfilled.call (h : Unfulfilled s) (c : Call) : Unfulfilled (call s c) := by
  cases c with
  | start =>
      rw [BrowserSession.call, start]
      split
      · exact h
      · have hrunning : Unfulfilled { s with running := true, refreshTimer := none } := h
        exact hrunning.refresh true
  | stop => exact h
  | clear => exact .clear s
  | logout => exact .clear (stop s)
  | refresh => exact h.refresh false
  | getAssertion =>
      rw [BrowserSession.call]
      split
      · exact h
      · exact h.refresh false

theorem maintained_calls (hc : Consistent s) (h : Maintained s) (hfree : Unfulfilled s)
    (calls : List Call) : Maintained (calls.foldl call s) := by
  induction calls generalizing s with
  | nil => exact h
  | cons c calls ih =>
      exact ih (hc.call c) (maintained_call hc h fun _ _ => hfree) (hfree.call c)

theorem length_call (s : Client) (c : Call) :
    s.requests.length ≤ (call s c).requests.length := by
  have hrefresh : ∀ background (s : Client),
      s.requests.length ≤ (refresh background s).requests.length := by
    intro background s
    rw [refresh]
    split
    · split
      · exact Nat.le_refl _
      · exact Nat.le_refl _
    · rw [List.length_append]
      exact Nat.le_add_right ..
  have hclear : ∀ s : Client, s.requests.length ≤ (clear s).requests.length := by
    intro s
    rw [clear, runBackgroundRefresh]
    split
    · exact hrefresh true { forget s with refreshTimer := none }
    · exact Nat.le_refl _
  cases c with
  | start =>
      rw [call, start]
      split
      · exact Nat.le_refl _
      · exact hrefresh true { s with running := true, refreshTimer := none }
  | stop => exact Nat.le_refl _
  | clear => exact hclear s
  | logout => exact hclear (stop s)
  | refresh => exact hrefresh false s
  | getAssertion =>
      rw [call]
      split
      · exact Nat.le_refl _
      · exact hrefresh false s

theorem length_calls (s : Client) (calls : List Call) :
    s.requests.length ≤ (calls.foldl call s).requests.length := by
  induction calls generalizing s with
  | nil => exact Nat.le_refl _
  | cons c calls ih => exact Nat.le_trans (length_call s c) (ih (call s c))

/-! ## The callbacks keep both -/

theorem maintained_reject (h : Maintained s) (request : Nat) :
    Maintained (settle request .rejected s) := by
  intro hruns
  refine (h hruns).imp_right ?_
  rintro ⟨other, hother, row, hrow, hgeneration, hstatus⟩
  obtain ⟨new, hnew, hkept, hbecomes⟩ := settle_getElem? request .rejected hrow
  refine ⟨other, hother, new, hnew, hkept.trans hgeneration, ?_⟩
  rw [hbecomes]
  split
  · exact fun heq => (by cases heq)
  · exact hstatus

theorem scheduleRefresh_timers (expiresAt : ℚ)
    (hruns : (scheduleRefresh options s expiresAt).running = true) :
    (scheduleRefresh options s expiresAt).timers ≠ [] := by
  rw [scheduleRefresh] at hruns ⊢
  split
  · simp [setTimer]
  · rename_i hstopped
    rw [if_neg hstopped] at hruns
    exact absurd hruns hstopped

theorem scheduleRetry_timers (hruns : (scheduleRetry options s).running = true) :
    (scheduleRetry options s).timers ≠ [] := by
  rw [scheduleRetry] at hruns ⊢
  split
  · simp [setTimer]
  · rename_i hstopped
    rw [if_neg hstopped] at hruns
    exact absurd hruns hstopped

theorem scheduleRefresh_requests (expiresAt : ℚ) :
    (scheduleRefresh options s expiresAt).requests = s.requests := by
  rw [scheduleRefresh]
  split
  · rfl
  · rfl

theorem respond_keeps (hc : Consistent s) (h : Maintained s) {request : Nat}
    {row : AssertionRequest} (hrow : s.requests[request]? = some row)
    (hpending : row.status = .pending) (outcome : Outcome) :
    Consistent (respond options s request row.generation outcome) ∧
      Maintained (respond options s request row.generation outcome) := by
  have hlength := (List.getElem?_eq_some_iff.mp hrow).1
  have hreject : Consistent (settle request .rejected s) ∧
      Maintained (settle request .rejected s) :=
    ⟨hc.settle (by decide) hlength, maintained_reject h request⟩
  cases outcome with
  | failed => exact hreject
  | answered expiresAt onUpdate throws =>
      rw [respond]
      split
      · exact hreject
      · rename_i hgeneration
        have hgeneration := Decidable.of_not_not hgeneration
        split
        · exact hreject
        · obtain ⟨hcleared, hshared⟩ := hc.current request row hrow hgeneration
          have hstored : Consistent { s with assertion := some ⟨request, expiresAt⟩ } := by
            refine ⟨hc.timers, hc.stopped, hc.promise, hc.current, hc.past, hc.cleared, hc.done,
              fun assertion hassertion => ?_, hc.quiet⟩
            rw [← Option.some.inj hassertion]
            exact hcleared
          have hfree : Unfulfilled { s with assertion := some ⟨request, expiresAt⟩ } := by
            intro other found hother hfound
            obtain rfl := Option.some.inj ((hshared hpending).symm.trans hother)
            obtain rfl := Option.some.inj (hrow.symm.trans hfound)
            rw [hpending]
            exact fun heq => (by cases heq)
          have hmaintained : Maintained { s with assertion := some ⟨request, expiresAt⟩ } := h
          have hupdated := hstored.calls onUpdate
          have hlong := Nat.lt_of_lt_of_le hlength
            (length_calls { s with assertion := some ⟨request, expiresAt⟩ } onUpdate)
          dsimp only
          split
          · exact ⟨hupdated.settle (by decide) hlong,
              maintained_reject (maintained_calls hstored hmaintained hfree onUpdate) request⟩
          · refine ⟨(hupdated.scheduleRefresh expiresAt).settle (by decide) ?_, fun hruns => ?_⟩
            · rw [scheduleRefresh_requests]
              exact hlong
            · exact .inl (scheduleRefresh_timers expiresAt hruns)

theorem reportError_keeps (hc : Consistent s) {onError : List Call} {throws : Bool}
    (hthrows : throws = true → s.running = false) :
    Consistent (reportError options s onError throws) ∧
      Maintained (reportError options s onError throws) := by
  rw [reportError]
  split
  · rename_i hruns
    cases throws with
    | true => exact absurd (hthrows rfl) (by rw [hruns]; decide)
    | false =>
        exact ⟨(hc.calls onError).scheduleRetry, fun hstill => .inl (scheduleRetry_timers hstill)⟩
  · rename_i hstopped
    exact ⟨hc, fun hruns => absurd hruns hstopped⟩

theorem Consistent.withoutHandler (h : Consistent s) (request : Nat) :
    Consistent { s with background := s.background.erase request } :=
  ⟨h.timers, h.stopped, h.promise, h.current, h.past, h.cleared, h.done, h.fresh, h.quiet⟩

theorem unfulfilled_of_idle (hc : Consistent s) (hidle : idle s = true) : Unfulfilled s := by
  have hsettled : s.settled = [] :=
    List.isEmpty_iff.mp (Bool.and_eq_true_iff.mp hidle).1
  intro request row hrequest hrow hfulfilled
  obtain ⟨found, hfound, -, hdone⟩ := hc.promise request hrequest
  obtain rfl := Option.some.inj (hrow.symm.trans hfound)
  have hmem := hdone (by rw [hfulfilled]; exact fun heq => (by cases heq))
  rw [hsettled] at hmem
  cases hmem

theorem fire_keeps (hc : Consistent s) (hidle : idle s = true) {timer : Nat}
    (htimer : timer ∈ s.timers.map (·.id)) :
    Consistent (runBackgroundRefresh { s with timers := s.timers.filter (·.id ≠ timer) }) ∧
      Maintained (runBackgroundRefresh { s with timers := s.timers.filter (·.id ≠ timer) }) := by
  have harmed : s.refreshTimer = some timer := by
    rw [hc.timers] at htimer
    exact Option.mem_toList.mp htimer
  have hruns : s.running = true := by
    by_contra hstopped
    have hnone := hc.stopped (Bool.eq_false_of_not_eq_true hstopped)
    rw [harmed] at hnone
    cases hnone
  have hfired : s.timers.filter (·.id ≠ timer) = [] := by
    have hempty := hc.clearTimer_timers
    rw [clearTimer, harmed] at hempty
    simpa using hempty
  rw [runBackgroundRefresh, if_pos hruns, hfired]
  have hfree : Unfulfilled { s with timers := [], refreshTimer := none } := by
    have hpending := unfulfilled_of_idle hc hidle
    exact hpending
  exact ⟨hc.disarmed.refresh fun _ => hruns,
    fun _ => .inr (refreshing_refresh_true hc.disarmed hfree)⟩

theorem settled_keeps (hc : Consistent s) (h : Maintained s) {request : Nat}
    (hsettled : request ∈ s.settled) :
    Consistent { s with
        settled := s.settled.erase request
        refreshPromise := if s.refreshPromise = some request then none else s.refreshPromise } ∧
      Maintained { s with
        settled := s.settled.erase request
        refreshPromise :=
          if s.refreshPromise = some request then none else s.refreshPromise } := by
  refine ⟨⟨hc.timers, hc.stopped, ?_, ?_, hc.past, hc.cleared, ?_, hc.fresh, hc.quiet⟩, h⟩
  · intro other hother
    dsimp only at hother
    split at hother
    · cases hother
    · rename_i hdifferent
      obtain ⟨row, hrow, hgeneration, hdone⟩ := hc.promise other hother
      have hne : other ≠ request := fun heq => hdifferent (heq ▸ hother)
      exact ⟨row, hrow, hgeneration, fun hstatus =>
        (List.mem_erase_of_ne hne).mpr (hdone hstatus)⟩
  · intro other row hrow hgeneration
    obtain ⟨hcleared, hshared⟩ := hc.current other row hrow hgeneration
    refine ⟨hcleared, fun hpending => ?_⟩
    have hne : other ≠ request := by
      rintro rfl
      obtain ⟨found, hfound, hdone⟩ := hc.done other hsettled
      obtain rfl := Option.some.inj (hrow.symm.trans hfound)
      exact hdone hpending
    dsimp only
    rw [hshared hpending, if_neg fun heq => hne (Option.some.inj heq)]
  · intro other hother
    exact hc.done other (List.mem_of_mem_erase hother)

theorem hasStatus_iff {status : RequestStatus} {request : Nat} :
    s.hasStatus status request = true ↔
      ∃ row, s.requests[request]? = some row ∧ row.status = status := by
  simp only [Client.hasStatus, Option.any_eq_true, decide_eq_true_eq]

theorem Orderly.start (h : Orderly s (.call .start)) (hstopped : s.running = false) :
    Unfulfilled s := by
  intro request row hrequest hrow hfulfilled
  have hstatus : s.hasStatus .fulfilled request = true := hasStatus_iff.mpr ⟨row, hrow, hfulfilled⟩
  simp [Orderly, orderly, hstopped, hrequest, hstatus] at h

theorem Orderly.report {request : Nat} {onError : List Call} {throws : Bool}
    (h : Orderly s (.report request onError throws)) (hthrows : throws = true) :
    s.running = false := by
  subst hthrows
  simpa [Orderly, orderly] using h

theorem clientStep_keeps (hc : Consistent s) (h : Maintained s) {a : Action} (ha : Orderly s a)
    (hstep : clientStep options s a = some t) : Consistent t ∧ Maintained t := by
  cases a with
  | call c =>
      obtain rfl := Option.some.inj hstep
      refine ⟨hc.call c, maintained_call hc h fun hstart hstopped => ?_⟩
      subst hstart
      exact ha.start hstopped
  | fire timer =>
      rw [clientStep] at hstep
      split at hstep
      · rename_i hready
        obtain ⟨hidle, htimer⟩ := Bool.and_eq_true_iff.mp hready
        obtain rfl := Option.some.inj hstep
        exact fire_keeps hc hidle (List.contains_iff_mem.mp htimer)
      · cases hstep
  | complete request outcome =>
      obtain ⟨row, hrow, hanswer⟩ := Option.bind_eq_some_iff.mp hstep
      split at hanswer
      · rename_i hpending
        obtain rfl := Option.some.inj hanswer
        exact respond_keeps hc h hrow hpending outcome
      · cases hanswer
  | settled request =>
      rw [clientStep] at hstep
      split at hstep
      · rename_i hsettled
        obtain rfl := Option.some.inj hstep
        exact settled_keeps hc h (List.contains_iff_mem.mp hsettled)
      · cases hstep
  | report request onError throws =>
      rw [clientStep] at hstep
      split at hstep
      · obtain rfl := Option.some.inj hstep
        exact reportError_keeps (hc.withoutHandler request) ha.report
      · cases hstep
  | tick now =>
      rw [clientStep] at hstep
      split at hstep
      · obtain rfl := Option.some.inj hstep
        exact ⟨⟨hc.timers, hc.stopped, hc.promise, hc.current, hc.past, hc.cleared, hc.done,
          hc.fresh, hc.quiet⟩, h⟩
      · cases hstep

theorem consistent_newClient (now : ℚ) : Consistent (newClient now) where
  timers := rfl
  stopped _ := rfl
  promise _ hrequest := (by cases hrequest)
  current _ _ hrow := (by cases hrow)
  past _ hrow := (by cases hrow)
  cleared := Nat.le_refl 0
  done _ hrequest := (by cases hrequest)
  fresh _ hassertion := (by cases hassertion)
  quiet _ hrow := (by cases hrow)

theorem assertionManaged_of (hc : Consistent s) (h : Maintained s) : AssertionManaged s where
  fresh := hc.fresh
  oneTimer := by
    have hlength := congrArg List.length hc.timers
    rw [List.length_map] at hlength
    rw [hlength]
    cases s.refreshTimer with
    | none => decide
    | some timer => exact Nat.le_refl 1
  maintained := h
  stopped := hc.timers_of_stopped
  quiet := hc.quiet

/-- Whatever is called, answered and fired in whatever order, the assertion is managed in every
run whose steps are orderly. -/
theorem assertion_managed (options : ClientOptions) (s : Client)
    (h : Reach (clientStep options) Orderly Created s) : AssertionManaged s := by
  have hkept : Consistent s ∧ Maintained s := by
    apply h.invariant
    · rintro t ⟨now, rfl⟩
      exact ⟨consistent_newClient now, fun hruns => (by cases hruns)⟩
    · intro t a t' _ hinv ha hstep
      exact clientStep_keeps hinv.1 hinv.2 ha hstep
  exact assertionManaged_of hkept.1 hkept.2

/-- A client that is started gets an assertion, is cleared, and retries after a failure. -/
def exampleOptions : ClientOptions := ⟨30000, 5000, by decide, by decide⟩

def retried : List Action :=
  [.call .start, .complete 0 (.answered 600000 [.getAssertion] false), .settled 0, .tick 1000,
    .call .clear, .complete 1 .failed, .settled 1, .report 1 [] false, .fire 1]

theorem assertion_managed_retried :
    ∃ s, execIf (clientStep exampleOptions) Orderly (newClient 0) retried = some s ∧
      s.running = true ∧ s.timers = [] ∧ AssertionManaged s := by
  have hsome : (execIf (clientStep exampleOptions) Orderly (newClient 0) retried).any
      (fun s => s.running && s.timers.isEmpty) = true := by
    decide +kernel
  obtain ⟨s, hs, hrest⟩ := (Option.any_eq_true ..).mp hsome
  obtain ⟨hruns, htimers⟩ := Bool.and_eq_true_iff.mp hrest
  exact ⟨s, hs, hruns, List.isEmpty_iff.mp htimers,
    assertion_managed exampleOptions s (execIf_reach (.start ⟨0, rfl⟩) hs)⟩

/-- `start` shares a request that is fulfilled but not finished, as when `onUpdate` has queued a
microtask that starts the client. -/
def startedTooEarly : List Action :=
  [.call .refresh, .complete 0 (.answered 600000 [] false), .call .start, .settled 0]

theorem started_too_early :
    ¬ ∀ (options : ClientOptions) (s : Client),
      Reach (clientStep options) Any Created s → AssertionManaged s := by
  intro hall
  have hsome : (exec (clientStep exampleOptions) (newClient 0) startedTooEarly).any
      (fun s => s.running && s.timers.isEmpty &&
        s.background.all (s.hasStatus .fulfilled ·)) = true := by
    decide +kernel
  obtain ⟨s, hs, hrest⟩ := (Option.any_eq_true ..).mp hsome
  obtain ⟨hfirst, hbackground⟩ := Bool.and_eq_true_iff.mp hrest
  obtain ⟨hruns, htimers⟩ := Bool.and_eq_true_iff.mp hfirst
  rcases (hall exampleOptions s (exec_reach (.start ⟨0, rfl⟩) hs)).maintained hruns with
    harmed | ⟨request, hmem, row, hrow, -, hstatus⟩
  · exact harmed (List.isEmpty_iff.mp htimers)
  · obtain ⟨found, hfound, hfulfilled⟩ :=
      hasStatus_iff.mp (List.all_eq_true.mp hbackground request hmem)
    obtain rfl := Option.some.inj (hrow.symm.trans hfound)
    exact hstatus hfulfilled

end BurrowGate.Sdk.BrowserSession
