import BurrowGate.Js.Value
import BurrowGate.Lib.OrderedMap
import BurrowGate.Lib.Run
import Mathlib.Data.List.Dedup
import Mathlib.Data.List.Perm.Subperm

/-!
# `access-list-service.ts`: `LoginFailureTracker` and `authenticateAccessUser`

Every `await` of `authenticateAccessUser` is a suspension point, so an attempt that
passed the check and has not recorded its outcome is an element of `attempts`. The
clock is `Date.now()`. `history` is the record of all password verifications, the
first one first; no step reads it.
-/

namespace BurrowGate.Access

open Js
open Lib

abbrev Key : Type := List Char

structure FailureEntry where
  count : Nat
  resetAt : Nat
  deriving DecidableEq

/-- The readonly members of the tracker. -/
structure TrackerLimits where
  maxKeys : Nat
  windowMs : Nat
  maxFailures : Nat

structure LoginFailureTracker where
  entries : OrderedMap Key FailureEntry
  lastSweepAt : Nat

def LoginFailureTracker.new : LoginFailureTracker := ⟨.empty, 0⟩

/-- `LOGIN_WINDOW_MS` and `LOGIN_MAX_FAILURES` -/
def loginLimits (accessLoginMaxFailureKeys : Nat) : TrackerLimits :=
  { maxKeys := accessLoginMaxFailureKeys, windowMs := 60000, maxFailures := 8 }

/-- `LOGIN_SWEEP_INTERVAL_MS` -/
def loginSweepIntervalMs : Nat := 10000

/-! ## The tracker -/

/-- The loop of `status` from `retryAfter` on. -/
def statusFrom (L : TrackerLimits) (now : Nat) :
    Nat → OrderedMap Key FailureEntry → List Key → Nat × OrderedMap Key FailureEntry
  | retryAfter, m, [] => (retryAfter, m)
  | retryAfter, m, key :: keys =>
      match m.get? key with
      | none => statusFrom L now retryAfter m keys
      | some entry =>
          if entry.resetAt ≤ now then statusFrom L now retryAfter (m.erase key) keys
          else if L.maxFailures ≤ entry.count then
            statusFrom L now (max retryAfter ((entry.resetAt - now + 999) / 1000)) m keys
          else statusFrom L now retryAfter m keys

def status (L : TrackerLimits) (t : LoginFailureTracker) (keys : List Key) (now : Nat) :
    Nat × LoginFailureTracker :=
  let (retryAfter, entries) := statusFrom L now 0 t.entries keys
  (retryAfter, { t with entries })

def sweep (t : LoginFailureTracker) (now : Nat) : LoginFailureTracker :=
  if now < t.lastSweepAt + loginSweepIntervalMs then t
  else { entries := t.entries.filter fun e => now < e.2.resetAt, lastSweepAt := now }

/-- The oldest keys leave while the map is full. -/
def evict (maxKeys : Nat) : Nat → OrderedMap Key FailureEntry → OrderedMap Key FailureEntry
  | 0, m => m
  | fuel + 1, m =>
      if maxKeys ≤ m.size then
        if m.size = 0 then m else evict maxKeys fuel (m.drop 1)
      else m

def recordKey (L : TrackerLimits) (now : Nat) (m : OrderedMap Key FailureEntry) (key : Key) :
    OrderedMap Key FailureEntry :=
  let first : FailureEntry := { count := 1, resetAt := now + L.windowMs }
  match m.get? key with
  | some entry =>
      if now < entry.resetAt then m.set key { entry with count := entry.count + 1 }
      else (evict L.maxKeys m.size m).set key first
  | none => (evict L.maxKeys m.size m).set key first

def record (L : TrackerLimits) (t : LoginFailureTracker) (keys : List Key) (now : Nat) :
    LoginFailureTracker :=
  let t := sweep t now
  { t with entries := keys.foldl (recordKey L now) t.entries }

/-- `clear(keys)` -/
def clear (t : LoginFailureTracker) (keys : List Key) : LoginFailureTracker :=
  { t with entries := keys.foldl OrderedMap.erase t.entries }

/-! ### What the operations do to an entry -/

section Tracker

variable {L : TrackerLimits} {m : OrderedMap Key FailureEntry} {now : Nat}

theorem statusFrom_get? (keys : List Key) (retryAfter : Nat) (k : Key) (e : FailureEntry) :
    (statusFrom L now retryAfter m keys).2.get? k = some e ↔
      m.get? k = some e ∧ (k ∈ keys → now < e.resetAt) := by
  induction keys generalizing retryAfter m with
  | nil => simp [statusFrom]
  | cons key keys ih =>
      rw [statusFrom]
      cases hkey : m.get? key with
      | none =>
          rw [ih]
          refine and_congr_right fun hk => ?_
          have hne : k ≠ key := fun h => by rw [h, hkey] at hk; cases hk
          simp [hne]
      | some entry =>
          by_cases hle : entry.resetAt ≤ now
          · simp only [hle, if_true]
            rw [ih]
            by_cases hk : k = key
            · subst hk
              rw [OrderedMap.get?_erase_self, hkey]
              simp only [reduceCtorEq, false_and, Option.some.injEq, List.mem_cons_self,
                forall_const, false_iff, not_and, not_lt]
              rintro rfl
              exact hle
            · rw [OrderedMap.get?_erase_ne m hk, List.mem_cons, or_iff_right hk]
          · have hrest : ∀ r, (statusFrom L now r m keys).2.get? k = some e ↔
                m.get? k = some e ∧ (k ∈ key :: keys → now < e.resetAt) := by
              intro r
              rw [ih]
              refine and_congr_right fun hk => ?_
              rw [List.mem_cons]
              refine ⟨fun h hor => hor.elim (fun heq => ?_) h, fun h hmem => h (.inr hmem)⟩
              rw [heq, hkey] at hk
              obtain rfl := Option.some.inj hk
              omega
            simp only [hle, if_false]
            split
            · exact hrest _
            · exact hrest _

theorem statusFrom_refuses {keys : List Key} {retryAfter : Nat}
    (h : retryAfter < (statusFrom L now retryAfter m keys).1) :
    ∃ k ∈ keys, ∃ e, m.get? k = some e ∧ now < e.resetAt ∧ L.maxFailures ≤ e.count := by
  induction keys generalizing retryAfter m with
  | nil => exact absurd h (lt_irrefl _)
  | cons key keys ih =>
      rw [statusFrom] at h
      cases hkey : m.get? key with
      | none =>
          rw [hkey] at h
          obtain ⟨k, hk, rest⟩ := ih h
          exact ⟨k, List.mem_cons_of_mem _ hk, rest⟩
      | some entry =>
          rw [hkey] at h
          by_cases hle : entry.resetAt ≤ now
          · simp only [hle, if_true] at h
            obtain ⟨k, hk, e, he, rest⟩ := ih h
            refine ⟨k, List.mem_cons_of_mem _ hk, e, ?_, rest⟩
            by_cases heq : k = key
            · rw [heq, OrderedMap.get?_erase_self] at he
              cases he
            · rwa [OrderedMap.get?_erase_ne m heq] at he
          · by_cases hmax : L.maxFailures ≤ entry.count
            · exact ⟨key, List.mem_cons_self, entry, hkey, Nat.lt_of_not_le hle, hmax⟩
            · simp only [hle, hmax, if_false] at h
              obtain ⟨k, hk, rest⟩ := ih h
              exact ⟨k, List.mem_cons_of_mem _ hk, rest⟩

theorem statusFrom_size_le (keys : List Key) (retryAfter : Nat) :
    (statusFrom L now retryAfter m keys).2.size ≤ m.size := by
  induction keys generalizing retryAfter m with
  | nil => exact le_refl _
  | cons key keys ih =>
      rw [statusFrom]
      split
      · exact ih _
      · split
        · exact (ih _).trans (OrderedMap.size_erase_le m key)
        · split
          · exact ih _
          · exact ih _

theorem sweep_get? {t : LoginFailureTracker} {k : Key} {e : FailureEntry}
    (h : (sweep t now).entries.get? k = some e) : t.entries.get? k = some e := by
  rw [sweep] at h
  split at h
  · exact h
  · rw [OrderedMap.get?_filter] at h
    exact (Option.filter_eq_some_iff.mp h).1

theorem sweep_get?_of_lt {t : LoginFailureTracker} {k : Key} {e : FailureEntry}
    (h : t.entries.get? k = some e) (hlive : now < e.resetAt) :
    (sweep t now).entries.get? k = some e := by
  rw [sweep]
  split
  · exact h
  · rw [OrderedMap.get?_filter, h]
    simp [hlive]

theorem sweep_size_le (t : LoginFailureTracker) : (sweep t now).entries.size ≤ t.entries.size := by
  rw [sweep]
  split
  · exact le_refl _
  · exact OrderedMap.size_filter_le _ _

theorem evict_eq_self {maxKeys : Nat} (h : m.size < maxKeys) (fuel : Nat) :
    evict maxKeys fuel m = m := by
  cases fuel with
  | zero => rfl
  | succ fuel => rw [evict, if_neg (by omega)]

theorem evict_get? {maxKeys fuel : Nat} {k : Key} {e : FailureEntry}
    (h : (evict maxKeys fuel m).get? k = some e) : m.get? k = some e := by
  induction fuel generalizing m with
  | zero => exact h
  | succ fuel ih =>
      rw [evict] at h
      split at h
      · split at h
        · exact h
        · exact OrderedMap.get?_drop_eq_some (ih h)
      · exact h

theorem evict_size_lt {maxKeys fuel : Nat} (hmax : 1 ≤ maxKeys) (hfuel : m.size ≤ fuel) :
    (evict maxKeys fuel m).size < maxKeys := by
  induction fuel generalizing m with
  | zero => rw [evict]; omega
  | succ fuel ih =>
      rw [evict]
      split
      · split
        · omega
        · exact ih (by rw [OrderedMap.size_drop]; omega)
      · omega

/-- A failure at `now` counts into the window that runs at `now`, or opens one. -/
def counted (L : TrackerLimits) (now : Nat) : Option FailureEntry → FailureEntry
  | some e => if now < e.resetAt then { e with count := e.count + 1 } else ⟨1, now + L.windowMs⟩
  | none => ⟨1, now + L.windowMs⟩

theorem recordKey_get?_self (key : Key) :
    (recordKey L now m key).get? key = some (counted L now (m.get? key)) := by
  rw [recordKey]
  cases h : m.get? key with
  | none => simp [counted]
  | some e => by_cases hlt : now < e.resetAt <;> simp [counted, hlt]

theorem recordKey_get?_other {key k : Key} {e : FailureEntry} (hne : k ≠ key)
    (h : (recordKey L now m key).get? k = some e) : m.get? k = some e := by
  rw [recordKey] at h
  split at h
  · split at h
    · rwa [OrderedMap.get?_set_ne _ _ hne] at h
    · rw [OrderedMap.get?_set_ne _ _ hne] at h
      exact evict_get? h
  · rw [OrderedMap.get?_set_ne _ _ hne] at h
    exact evict_get? h

/-- Below the limit nothing is evicted. -/
theorem recordKey_get?_fits {key k : Key} (hfit : m.size < L.maxKeys) (hne : k ≠ key) :
    (recordKey L now m key).get? k = m.get? k := by
  simp only [recordKey, evict_eq_self hfit]
  split
  · split <;> exact OrderedMap.get?_set_ne m _ hne
  · exact OrderedMap.get?_set_ne m _ hne

theorem recordKey_size_le (hmax : 1 ≤ L.maxKeys) (h : m.size ≤ L.maxKeys) (key : Key) :
    (recordKey L now m key).size ≤ L.maxKeys := by
  have hevict := evict_size_lt (m := m) hmax (le_refl m.size)
  rw [recordKey]
  split
  · next e he =>
    split
    · have hmem : key ∈ m.keys := OrderedMap.mem_keys.mpr ⟨e, he⟩
      rw [OrderedMap.size_set, if_pos hmem]
      exact h
    · exact (OrderedMap.size_set_le _ key _).trans hevict
  · exact (OrderedMap.size_set_le _ key _).trans hevict

theorem recordKey_keys_subset {U : List Key} {key : Key} (hm : m.keys ⊆ U) (hkey : key ∈ U) :
    (recordKey L now m key).keys ⊆ U := by
  intro k hk
  by_cases heq : k = key
  · exact heq ▸ hkey
  · obtain ⟨e, he⟩ := OrderedMap.mem_keys.mp hk
    exact hm (OrderedMap.mem_keys.mpr ⟨e, recordKey_get?_other heq he⟩)

theorem foldl_recordKey_size_le (hmax : 1 ≤ L.maxKeys) (keys : List Key)
    (h : m.size ≤ L.maxKeys) : (keys.foldl (recordKey L now) m).size ≤ L.maxKeys := by
  induction keys generalizing m with
  | nil => exact h
  | cons key keys ih => exact ih (recordKey_size_le hmax h key)

/-- While all keys in use fit, a failure touches its own keys only. -/
theorem foldl_recordKey_fits {U : List Key} (hU : U.length < L.maxKeys) {keys : List Key}
    (hnodup : keys.Nodup) (hkeys : keys ⊆ U) (hm : m.keys ⊆ U) (k : Key) :
    (keys.foldl (recordKey L now) m).get? k =
      if k ∈ keys then some (counted L now (m.get? k)) else m.get? k := by
  induction keys generalizing m with
  | nil => simp
  | cons key keys ih =>
      obtain ⟨hhead, htail⟩ := List.nodup_cons.mp hnodup
      have hsize : m.size < L.maxKeys := by
        have hsub := (List.subperm_of_subset m.nodup hm).length_le
        have hlen : m.keys.length = m.size := List.length_map _
        change m.keys.length ≤ U.length at hsub
        omega
      have hkey : key ∈ U := hkeys List.mem_cons_self
      rw [List.foldl_cons, ih htail (fun x hx => hkeys (List.mem_cons_of_mem _ hx))
        (recordKey_keys_subset hm hkey)]
      by_cases heq : k = key
      · subst heq
        rw [if_neg hhead, if_pos List.mem_cons_self, recordKey_get?_self]
      · rw [recordKey_get?_fits hsize heq]
        simp [heq]

/-- With eviction too an entry after a failure is a new window of the failure's keys, a
window of them with one more failure, or an entry of another key. -/
theorem foldl_recordKey_cases {keys : List Key} {k : Key} {e : FailureEntry}
    (hnodup : keys.Nodup) (h : (keys.foldl (recordKey L now) m).get? k = some e) :
    (k ∈ keys ∧ e = ⟨1, now + L.windowMs⟩) ∨
      (k ∈ keys ∧ ∃ old, m.get? k = some old ∧ e = { old with count := old.count + 1 }) ∨
        (k ∉ keys ∧ m.get? k = some e) := by
  induction keys generalizing m with
  | nil => exact .inr (.inr ⟨List.not_mem_nil, h⟩)
  | cons key keys ih =>
      obtain ⟨hhead, htail⟩ := List.nodup_cons.mp hnodup
      rcases ih htail h with ⟨hk, he⟩ | ⟨hk, old, hold, he⟩ | ⟨hk, he⟩
      · exact .inl ⟨List.mem_cons_of_mem _ hk, he⟩
      · have hne : k ≠ key := fun heq => hhead (heq ▸ hk)
        exact .inr (.inl ⟨List.mem_cons_of_mem _ hk, old, recordKey_get?_other hne hold, he⟩)
      · by_cases heq : k = key
        · subst heq
          rw [recordKey_get?_self] at he
          obtain rfl := Option.some.inj he
          cases hm : m.get? k with
          | none => exact .inl ⟨List.mem_cons_self, rfl⟩
          | some old =>
              by_cases hlt : now < old.resetAt
              · exact .inr (.inl ⟨List.mem_cons_self, old, rfl, by simp [counted, hlt]⟩)
              · exact .inl ⟨List.mem_cons_self, by simp [counted, hlt]⟩
        · exact .inr (.inr ⟨by simp [heq, hk], recordKey_get?_other heq he⟩)

theorem foldl_erase_get? (keys : List Key) (k : Key) :
    (keys.foldl OrderedMap.erase m).get? k = if k ∈ keys then none else m.get? k := by
  induction keys generalizing m with
  | nil => simp
  | cons key keys ih =>
      rw [List.foldl_cons, ih]
      by_cases heq : k = key
      · subst heq
        simp
      · simp [heq, OrderedMap.get?_erase_ne m heq]

theorem foldl_erase_size_le (keys : List Key) :
    (keys.foldl OrderedMap.erase m).size ≤ m.size := by
  induction keys generalizing m with
  | nil => exact le_refl _
  | cons key keys ih => exact ih.trans (OrderedMap.size_erase_le m key)

end Tracker

/-! ## `authenticateAccessUser` -/

/-- What is not in the repository. `toLowerCase` is `String.prototype.toLowerCase`,
`passwordVerify` is `Bun.password.verify`. -/
structure LoginEnv where
  toLowerCase : List Char → List Char
  passwordVerify : List Char → List Char → Bool
  dummyHash : List Char

/-- The members of the record that a login reads. -/
structure AccessUserRecord where
  passwordHash : List Char
  enabled : Nat

/-- `[a-z0-9]` -/
def isUsernameStart (c : Char) : Bool := ('a' ≤ c && c ≤ 'z') || ('0' ≤ c && c ≤ '9')

def isUsernamePart (c : Char) : Bool :=
  isUsernameStart c || c = '.' || c = '_' || c = '@' || c = '+' || c = '-'

/-- `none` where the source throws. -/
def normalizeAccessUsername (env : LoginEnv) (value : JsValue) : Option (List Char) :=
  let username := env.toLowerCase (trim (value.orElse (.string [])).toText)
  match username with
  | [] => none
  | c :: cs =>
      if 255 < utf16Length username then none
      else if isUsernameStart c && cs.all isUsernamePart then some username
      else none

def failureKeys (siteId ip username : List Char) : List Key :=
  ["site:".toList ++ siteId ++ ":ip:".toList ++ ip,
    "site:".toList ++ siteId ++ ":user:".toList ++ username]

/-- Which `await` an attempt is suspended at. -/
inductive AttemptStage
  | lookup
  | verify (user : Option AccessUserRecord)

structure Attempt where
  keys : List Key
  password : List Char
  now : Nat
  stage : AttemptStage

/-- A password that was verified at `verifiedAt`; `now` is the clock at which the attempt came in,
`opened` the keys for which the tracker started a window. -/
structure Verification where
  keys : List Key
  verifiedAt : Nat
  now : Nat
  correct : Bool
  opened : List Key

structure LoginSystem where
  clock : Nat
  loginFailures : LoginFailureTracker
  attempts : List Attempt
  history : List Verification

def LoginSystem.Initial (s : LoginSystem) : Prop :=
  s.loginFailures = .new ∧ s.attempts = [] ∧ s.history = []

/-- `failed`: the repository or the password hash throws, and with it the attempt. -/
inductive LoginAction
  | tick (ms : Nat)
  | call (siteId ip : List Char) (usernameInput passwordInput : JsValue)
  | lookedUp (i : Nat) (user : Option AccessUserRecord)
  | verified (i : Nat)
  | failed (i : Nat)

def callKeys (env : LoginEnv) (siteId ip : List Char) (usernameInput : JsValue) : List Key :=
  failureKeys siteId ip ((normalizeAccessUsername env usernameInput).getD "invalid".toList)

/-- `suppliedPassword.length <= 1024 ? suppliedPassword : ""` -/
def callPassword (passwordInput : JsValue) : List Char :=
  let suppliedPassword := (passwordInput.orElse (.string [])).toText
  if utf16Length suppliedPassword ≤ 1024 then suppliedPassword else []

/-- The part up to the user lookup. -/
def beginAttempt (env : LoginEnv) (L : TrackerLimits) (s : LoginSystem) (siteId ip : List Char)
    (usernameInput passwordInput : JsValue) : LoginSystem :=
  let keys := callKeys env siteId ip usernameInput
  let (retryAfterSeconds, loginFailures) := status L s.loginFailures keys s.clock
  if 0 < retryAfterSeconds then { s with loginFailures }
  else
    { s with
      loginFailures
      attempts := s.attempts ++
        [{ keys, password := callPassword passwordInput, now := s.clock, stage := .lookup }] }

/-- `valid && user && user.enabled === 1` -/
def accepted (env : LoginEnv) (password : List Char) (user : Option AccessUserRecord) : Bool :=
  env.passwordVerify password ((user.map (·.passwordHash)).getD env.dummyHash) &&
    user.any (·.enabled = 1)

/-- The keys with a window that has one failure. -/
def openedKeys (t : LoginFailureTracker) (keys : List Key) : List Key :=
  keys.filter fun k => (t.entries.get? k).any (·.count = 1)

/-- The part after the password verification. -/
def finishAttempt (env : LoginEnv) (L : TrackerLimits) (s : LoginSystem) (a : Attempt)
    (user : Option AccessUserRecord) : LoginSystem :=
  if accepted env a.password user then
    { s with
      loginFailures := clear s.loginFailures a.keys
      history := s.history ++
        [{ keys := a.keys, verifiedAt := s.clock, now := a.now, correct := true, opened := [] }] }
  else
    let loginFailures := record L s.loginFailures a.keys a.now
    { s with
      loginFailures
      history := s.history ++
        [{ keys := a.keys, verifiedAt := s.clock, now := a.now, correct := false,
           opened := openedKeys loginFailures a.keys }] }

def loginStep (env : LoginEnv) (L : TrackerLimits) (s : LoginSystem) :
    LoginAction → Option LoginSystem
  | .tick ms => some { s with clock := s.clock + ms }
  | .call siteId ip usernameInput passwordInput =>
      some (beginAttempt env L s siteId ip usernameInput passwordInput)
  | .lookedUp i user =>
      match s.attempts[i]? with
      | some a =>
          match a.stage with
          | .lookup => some { s with attempts := s.attempts.set i { a with stage := .verify user } }
          | .verify _ => none
      | none => none
  | .verified i =>
      match s.attempts[i]? with
      | some a =>
          match a.stage with
          | .lookup => none
          | .verify user =>
              some (finishAttempt env L { s with attempts := s.attempts.eraseIdx i } a user)
      | none => none
  | .failed i =>
      if i < s.attempts.length then some { s with attempts := s.attempts.eraseIdx i } else none

end BurrowGate.Access
