import BurrowGate.Acme.Issuance
import BurrowGate.Lib.Run

/-!
# Issuances, renewals and the lock of a site

Any number of issuances and renewals run next to each other, each from one answer to the next. The
issuance of a renewal starts in the stretch in which the renewal calls for it, and the renewal goes
on at some time behind the end of that.
-/

namespace BurrowGate.Acme

open Lib.Run Lib.Lists Lib.Async

structure Issuance where
  siteId : Text
  program : Program Unit

/-- Past the check of the lock, and not settled: what the check refuses is done at once. -/
def Issuance.running (issuance : Issuance) : Bool := !issuance.program.isDone

abbrev Entry : Type := Process.Entry Text Text Call Result

abbrev History : Type := List Entry

structure Renewal where
  history : History
  program : Program Unit
  /-- The issuance that the renewal waits for. -/
  issuance : Option Nat

structure State where
  issuanceLocks : List Text
  issuances : List Issuance
  renewals : List Renewal
  challenges : List (Program Unit)

def State.start : State := ⟨[], [], [], []⟩

local instance : LawfulBEq Text := inferInstanceAs (LawfulBEq (List Char))

def siteCertificateIssuanceActive (s : State) (siteId : Text) : Bool :=
  siteId ∈ s.issuanceLocks

/-- What the world may answer, whatever is called. -/
abbrev Reply : Type := ∀ c, Except Text (Result c)

inductive Event
  | issue (site : SiteRecord) (input : IssueInput)
  | renew
  | issuance (i : Nat) (reply : Reply)
  | renewal (j : Nat) (reply : Reply)
  /-- The client calls one of the two functions that an issuance has given it. -/
  | challenge (i : Nat) (create : Bool) (challenge : Challenge) (keyAuthorization : Text)
  | challengeStep (k : Nat) (reply : Reply)

variable (env : Env)

def issue (site : SiteRecord) (input : IssueInput) (s : State) : State :=
  let stretch := (issueLetsEncryptCertificate env site input).settle s.issuanceLocks
  { s with
    issuanceLocks := stretch.locks
    issuances := s.issuances ++ [⟨site.id, stretch.rest⟩] }

/-- The next stretch of an issuance. -/
def advanceIssuance (i : Nat) (issuance : Issuance) (program : Program Unit) (s : State) : State :=
  let stretch := program.settle s.issuanceLocks
  { s with
    issuanceLocks := stretch.locks
    issuances := s.issuances.set i { issuance with program := stretch.rest } }

/-- The next stretch of a renewal; `put` stores it. -/
def advanceRenewal (put : Renewal → List Renewal) (history : History) (program : Program Unit)
    (s : State) : State :=
  let stretch := program.settle s.issuanceLocks
  let history := history ++ stretch.entries
  let s := { s with issuanceLocks := stretch.locks }
  match stretch.rest with
  | .call (.issue site settings) _ =>
      { issue env site (renewalInput settings) s with
        renewals := put ⟨history, stretch.rest, some s.issuances.length⟩ }
  | _ => { s with renewals := put ⟨history, stretch.rest, none⟩ }

/-- How the issuance that a renewal waits for has come to its end. -/
def Renewal.outcome (renewal : Renewal) (s : State) : Option (Except Text Unit) :=
  match renewal.issuance.bind fun i => s.issuances[i]? with
  | some ⟨_, .done outcome⟩ => some outcome
  | _ => none

/-- The answer that a renewal gets for its call, when there is one. -/
def Renewal.answer (renewal : Renewal) (s : State) (reply : Reply) (c : Call) :
    Option (Except Text (Result c)) :=
  match c with
  | .issue _ _ => renewal.outcome s
  | c => some (reply c)

def stepRenewal (j : Nat) (reply : Reply) (s : State) : State :=
  match s.renewals[j]? with
  | none => s
  | some renewal =>
      match renewal.program with
      | .call c next =>
          match renewal.answer s reply c with
          | none => s
          | some r =>
              advanceRenewal env (s.renewals.set j) (renewal.history ++ [Process.Entry.answered c r]) (next r) s
      | _ => s

def stepChallenge (i : Nat) (create : Bool) (challenge : Challenge) (keyAuthorization : Text)
    (s : State) : State :=
  match s.issuances[i]? with
  | none => s
  | some issuance =>
      match issuance.program with
      | .call (.auto _ _ _ _ _ context) _ =>
          let program :=
            if create then challengeCreateFn env context challenge keyAuthorization
            else challengeRemoveFn env context challenge keyAuthorization
          let stretch := program.settle s.issuanceLocks
          { s with
            issuanceLocks := stretch.locks
            challenges := s.challenges ++ [stretch.rest] }
      | _ => s

def step (s : State) : Event → State
  | .issue site input => issue env site input s
  | .renew =>
      advanceRenewal env (s.renewals ++ [·]) [] (renewDueCertificates env) s
  | .issuance i reply =>
      match s.issuances[i]? with
      | none => s
      | some issuance =>
          match issuance.program with
          | .call c next => advanceIssuance i issuance (next (reply c)) s
          | _ => s
  | .renewal j reply => stepRenewal env j reply s
  | .challenge i create challenge keyAuthorization =>
      stepChallenge env i create challenge keyAuthorization s
  | .challengeStep k reply =>
      match s.challenges[k]? with
      | some (.call c next) =>
          let stretch := (next (reply c)).settle s.issuanceLocks
          { s with
            issuanceLocks := stretch.locks
            challenges := s.challenges.set k stretch.rest }
      | _ => s

/-! ## The law -/

/-- No two issuances of a site are past the check of its lock. -/
def Exclusive (issuances : List Issuance) : Prop :=
  ∀ (i j : Nat) (a b : Issuance), issuances[i]? = some a → issuances[j]? = some b →
    a.running = true → b.running = true → a.siteId = b.siteId → i = j

def RunningOf (issuances : List Issuance) (siteId : Text) : Prop :=
  ∃ a ∈ issuances, a.running = true ∧ a.siteId = siteId

/-- What a renewal does about a certificate that is due: an issuance that fails is one of its
attempts. -/
inductive Visit (record : CertificateRecord) : History → Prop
  | gone : Visit record [.answered (.siteById record.siteId) (.ok none)]
  | running (site : SiteRecord) :
      Visit record
        [.answered (.siteById record.siteId) (.ok (some site)), .looked site.id true]
  | attempted (site : SiteRecord) (settings : SiteTlsSettingsRecord) (r : Except Text Unit) :
      Visit record
        [.answered (.siteById record.siteId) (.ok (some site)), .looked site.id false,
          .answered (.ensureTlsSettings site.id) (.ok settings),
          .answered (.issue site settings) r]

inductive Visits : List CertificateRecord → History → Prop
  | nil : Visits [] []
  | cons {record : CertificateRecord} {records : List CertificateRecord} {first rest : History} :
      Visit record first → Visits records rest → Visits (record :: records) (first ++ rest)

/-- A renewal that has come to its end. -/
inductive Complete : History → Except Text Unit → Prop
  | replica : env.config.replica = true → Complete [] (.ok ())
  | unread (e : Text) : Complete [.answered .dueAcmeCertificates (.error e)] (.error e)
  | visited (records : List CertificateRecord) (history : History) :
      Visits records history →
      Complete (.answered .dueAcmeCertificates (.ok records) :: history) (.ok ())

structure Lawful (s : State) : Prop where
  exclusive : Exclusive s.issuances
  active : ∀ siteId, siteCertificateIssuanceActive s siteId = true ↔ RunningOf s.issuances siteId
  complete : ∀ renewal ∈ s.renewals, ∀ outcome, renewal.program = .done outcome →
    Complete env renewal.history outcome

/-- The answer to a read that no `try` protects is not an error. -/
def Answers (c : Call) (r : Except Text (Result c)) : Prop := c.unprotected = true → r.isOk = true

instance (c : Call) (r : Except Text (Result c)) : Decidable (Answers c r) :=
  inferInstanceAs (Decidable (c.unprotected = true → r.isOk = true))

/-- The answer to what the program waits for is an allowed one. -/
def AnswersNext (allowed : ∀ c, Except Text (Result c) → Prop) (program : Program Unit)
    (reply : Reply) : Prop :=
  match program with
  | .call c _ => allowed c (reply c)
  | _ => True

instance (program : Program Unit) (reply : Reply) :
    Decidable (AnswersNext Answers program reply) :=
  match program with
  | .call c _ => inferInstanceAs (Decidable (Answers c (reply c)))
  | .done _ | .has _ _ | .add _ _ | .delete _ _ => isTrue trivial

/-- An issuance is called with text, and no read that no `try` protects fails. -/
def Orderly (s : State) : Event → Prop
  | .issue _ input => input.textual = true
  | .issuance i reply => ∀ a ∈ s.issuances[i]?, AnswersNext Answers a.program reply
  | .renewal j reply => ∀ r ∈ s.renewals[j]?, AnswersNext Answers r.program reply
  | .renew | .challenge _ _ _ _ | .challengeStep _ _ => True

instance (s : State) (e : Event) : Decidable (Orderly s e) :=
  match e with
  | .issue _ input => inferInstanceAs (Decidable (input.textual = true))
  | .issuance i reply =>
      inferInstanceAs (Decidable (∀ a ∈ s.issuances[i]?, AnswersNext Answers a.program reply))
  | .renewal j reply =>
      inferInstanceAs (Decidable (∀ r ∈ s.renewals[j]?, AnswersNext Answers r.program reply))
  | .renew | .challenge _ _ _ _ | .challengeStep _ _ => isTrue trivial

/-! ## Locks and issuances -/

section Locked

variable {env} {allowed : ∀ c, Except Text (Result c) → Prop} {leaks : Prop}
variable {issuances : List Issuance} {locks : List Text}

/-- Each issuance that runs has the lock of its site. Where no lock leaks, each lock is held. -/
structure Locked (allowed : ∀ c, Except Text (Result c) → Prop) (leaks : Prop)
    (issuances : List Issuance) (locks : List Text) : Prop where
  exclusive : Exclusive issuances
  holds : ∀ (i : Nat) (a : Issuance), issuances[i]? = some a → a.running = true →
    a.program.Holds allowed leaks a.siteId ∧ a.siteId ∈ locks
  held : ¬leaks → ∀ x ∈ locks, RunningOf issuances x

theorem locked_nil : Locked allowed leaks [] [] :=
  ⟨fun _ _ _ _ h => (by cases h), fun _ _ h => (by cases h), fun _ _ h => (by cases h)⟩

theorem runningOf_iff {x : Text} : RunningOf issuances x ↔
    ∃ (i : Nat) (a : Issuance), issuances[i]? = some a ∧ a.running = true ∧ a.siteId = x := by
  constructor
  · rintro ⟨a, ha, hrunning⟩
    obtain ⟨i, hi⟩ := List.mem_iff_getElem?.mp ha
    exact ⟨i, a, hi, hrunning⟩
  · rintro ⟨i, a, hi, hrunning⟩
    exact ⟨a, List.mem_of_getElem? hi, hrunning⟩

/-- A call that is refused leaves no trace. -/
theorem Locked.refused (h : Locked allowed leaks issuances locks) {new : Issuance}
    (hdone : new.running = false) : Locked allowed leaks (issuances ++ [new]) locks := by
  have hold : ∀ {i : Nat} {a : Issuance}, (issuances ++ [new])[i]? = some a →
      a.running = true → issuances[i]? = some a := by
    intro i a hi hrunning
    rcases getElem?_concat_cases hi with hi | ⟨-, rfl⟩
    · exact hi
    · rw [hdone] at hrunning
      cases hrunning
  refine ⟨?_, ?_, ?_⟩
  · intro i j a b hi hj ha hb hsame
    exact h.exclusive i j a b (hold hi ha) (hold hj hb) ha hb hsame
  · intro i a hi ha
    exact h.holds i a (hold hi ha) ha
  · intro hleaks x hx
    obtain ⟨a, ha, hrunning⟩ := h.held hleaks x hx
    exact ⟨a, List.mem_append_left _ ha, hrunning⟩

/-- A call that finds the lock free takes it. -/
theorem Locked.taken (h : Locked allowed leaks issuances locks) {new : Issuance}
    (hfree : new.siteId ∉ locks) (hrunning : new.running = true)
    (hholds : new.program.Holds allowed leaks new.siteId) :
    Locked allowed leaks (issuances ++ [new]) (locks ++ [new.siteId]) := by
  have hother : ∀ {i : Nat} {a : Issuance}, issuances[i]? = some a → a.running = true →
      a.siteId ≠ new.siteId :=
    fun hi ha hsame => hfree (hsame ▸ (h.holds _ _ hi ha).2)
  refine ⟨?_, ?_, ?_⟩
  · intro i j a b hi hj ha hb hsame
    rcases getElem?_concat_cases hi with hia | ⟨hilast, hanew⟩
    · rcases getElem?_concat_cases hj with hjb | ⟨-, hbnew⟩
      · exact h.exclusive i j a b hia hjb ha hb hsame
      · exact absurd (hsame.trans (congrArg _ hbnew)) (hother hia ha)
    · rcases getElem?_concat_cases hj with hjb | ⟨hjlast, -⟩
      · exact absurd (hsame.symm.trans (congrArg _ hanew)) (hother hjb hb)
      · exact hilast.trans hjlast.symm
  · intro i a hi ha
    rcases getElem?_concat_cases hi with hi | ⟨-, rfl⟩
    · obtain ⟨hprogram, hmem⟩ := h.holds i a hi ha
      exact ⟨hprogram, List.mem_append_left _ hmem⟩
    · exact ⟨hholds, List.mem_append_right _ (List.mem_singleton_self _)⟩
  · intro hleaks x hx
    rcases List.mem_snoc.mp hx with hx | rfl
    · obtain ⟨a, ha, hheld⟩ := h.held hleaks x hx
      exact ⟨a, List.mem_append_left _ ha, hheld⟩
    · exact ⟨new, List.mem_append_right _ (List.mem_singleton_self _), hrunning, rfl⟩

/-- An issuance goes on to wait with its lock. -/
theorem Locked.waits (h : Locked allowed leaks issuances locks) {i : Nat} {a : Issuance}
    (hi : issuances[i]? = some a) (ha : a.running = true) {program : Program Unit}
    (hholds : program.Holds allowed leaks a.siteId) (hwait : program.isDone = false) :
    Locked allowed leaks (issuances.set i { a with program }) locks := by
  have hold : ∀ {j : Nat} {b : Issuance},
      (issuances.set i { a with program })[j]? = some b → b.running = true →
      ∃ before, issuances[j]? = some before ∧ before.running = true ∧
        before.siteId = b.siteId := by
    intro j b hj hb
    rcases getElem?_set_cases hj with ⟨rfl, rfl⟩ | ⟨-, hj⟩
    · exact ⟨a, hi, ha, rfl⟩
    · exact ⟨b, hj, hb, rfl⟩
  refine ⟨?_, ?_, ?_⟩
  · intro j k b c hj hk hb hc hsame
    obtain ⟨b', hj', hb', hbsite⟩ := hold hj hb
    obtain ⟨c', hk', hc', hcsite⟩ := hold hk hc
    exact h.exclusive j k b' c' hj' hk' hb' hc' (hbsite.trans (hsame.trans hcsite.symm))
  · intro j b hj hb
    rcases getElem?_set_cases hj with ⟨rfl, rfl⟩ | ⟨-, hj⟩
    · exact ⟨hholds, (h.holds j a hi ha).2⟩
    · exact h.holds j b hj hb
  · intro hleaks x hx
    obtain ⟨j, b, hj, hb, hsite⟩ := runningOf_iff.mp (h.held hleaks x hx)
    rw [runningOf_iff]
    by_cases hij : j = i
    · obtain rfl := hij
      obtain rfl := Option.some.inj (hi.symm.trans hj)
      refine ⟨j, { a with program }, ?_, ?_, hsite⟩
      · exact List.getElem?_set_self (List.getElem?_eq_some_iff.mp hi).1
      · rw [Issuance.running, hwait]
        rfl
    · refine ⟨j, b, ?_, hb, hsite⟩
      rw [List.getElem?_set_ne fun h => hij h.symm]
      exact hj

/-- An issuance comes to its end, and its lock goes or leaks. -/
theorem Locked.ends (h : Locked allowed leaks issuances locks) {i : Nat} {a : Issuance}
    (hi : issuances[i]? = some a) (ha : a.running = true) {program : Program Unit}
    (hdone : program.isDone = true) {after : List Text}
    (hafter : after = locks.filter (· ≠ a.siteId) ∨ leaks ∧ after = locks) :
    Locked allowed leaks (issuances.set i { a with program }) after := by
  have hold : ∀ {j : Nat} {b : Issuance},
      (issuances.set i { a with program })[j]? = some b → b.running = true →
      j ≠ i ∧ issuances[j]? = some b := by
    intro j b hj hb
    rcases getElem?_set_cases hj with ⟨-, rfl⟩ | hj
    · rw [Issuance.running, hdone] at hb
      cases hb
    · exact hj
  refine ⟨?_, ?_, ?_⟩
  · intro j k b c hj hk hb hc hsame
    exact h.exclusive j k b c (hold hj hb).2 (hold hk hc).2 hb hc hsame
  · intro j b hj hb
    obtain ⟨hij, hj⟩ := hold hj hb
    obtain ⟨hprogram, hmem⟩ := h.holds j b hj hb
    refine ⟨hprogram, ?_⟩
    rcases hafter with rfl | ⟨-, rfl⟩
    · refine List.mem_filter.mpr ⟨hmem, decide_eq_true fun hsame => hij ?_⟩
      exact h.exclusive j i b a hj hi hb ha hsame
    · exact hmem
  · intro hleaks x hx
    rcases hafter with rfl | ⟨hleak, -⟩
    · obtain ⟨hx, hne⟩ := List.mem_filter.mp hx
      obtain ⟨j, b, hj, hb, hsite⟩ := runningOf_iff.mp (h.held hleaks x hx)
      refine runningOf_iff.mpr ⟨j, b, ?_, hb, hsite⟩
      rw [List.getElem?_set_ne]
      · exact hj
      · rintro rfl
        obtain rfl := Option.some.inj (hi.symm.trans hj)
        exact of_decide_eq_true hne hsite.symm
    · exact absurd hleak hleaks

/-- The next stretch of an issuance that runs. -/
theorem Locked.advanced (h : Locked allowed leaks issuances locks) {i : Nat} {a : Issuance}
    (hi : issuances[i]? = some a) (ha : a.running = true) {program : Program Unit}
    (hholds : program.Holds allowed leaks a.siteId) :
    Locked allowed leaks (issuances.set i { a with program := (program.settle locks).rest })
      (program.settle locks).locks := by
  rcases hholds.settle locks with ⟨hwait, hlocks, hrest⟩ | ⟨hdone, hlocks⟩
  · rw [hlocks]
    exact h.waits hi ha hrest hwait
  · exact h.ends hi ha hdone hlocks

/-- The first stretch of a call. -/
theorem Locked.issued (h : Locked allowed leaks issuances locks) (site : SiteRecord)
    {input : IssueInput}
    (hholds : (runIssuance env site input).Holds allowed leaks site.id) :
    Locked allowed leaks
      (issuances ++ [⟨site.id, ((issueLetsEncryptCertificate env site input).settle locks).rest⟩])
      ((issueLetsEncryptCertificate env site input).settle locks).locks := by
  rw [issueLetsEncryptCertificate]
  split
  · apply h.refused
    rfl
  · by_cases hactive : site.id ∈ locks
    · rw [Process.settle_has_of_mem hactive]
      apply h.refused
      rfl
    · let new : Issuance := ⟨site.id, runIssuance env site input⟩
      have htaken : Locked allowed leaks (issuances ++ [new]) (locks ++ [site.id]) :=
        h.taken hactive rfl hholds
      rw [Process.settle_has_of_not_mem hactive]
      dsimp only
      rw [if_neg Bool.false_ne_true, Process.settle_add_of_not_mem hactive]
      exact htaken

end Locked

/-! ## The renewals -/

section Renewals

variable {env} {allowed : ∀ c, Except Text (Result c) → Prop} {leaks : Prop} {s : State}

/-- Where the reads of the sites and of the settings do not fail, every certificate is visited. -/
theorem visits_of_path {records : List CertificateRecord} {history : History}
    {outcome : Except Text Unit}
    (h : Process.Path (renewCertificates records) history (.done outcome))
    (hallowed : ∀ e ∈ history, e.Allowed Answers) :
    outcome = .ok () ∧ Visits records history := by
  induction records generalizing history with
  | nil =>
      obtain ⟨hok, rfl⟩ := Process.path_done h
      exact ⟨hok, .nil⟩
  | cons record records ih =>
      obtain ⟨r, afterSite, rfl, hsite⟩ := Process.path_call h
      rw [List.forall_mem_cons] at hallowed
      rcases r with e | - | site
      · cases hallowed.1 rfl
      · obtain ⟨hok, hvisits⟩ := ih hsite hallowed.2
        exact ⟨hok, .cons .gone hvisits⟩
      · obtain ⟨running, afterLook, rfl, hlook⟩ := Process.path_has hsite
        rw [List.forall_mem_cons] at hallowed
        cases running with
        | true =>
            obtain ⟨hok, hvisits⟩ := ih hlook hallowed.2.2
            exact ⟨hok, .cons (.running site) hvisits⟩
        | false =>
            obtain ⟨r, afterRead, rfl, hread⟩ := Process.path_call hlook
            rw [List.forall_mem_cons] at hallowed
            rcases r with e | settings
            · cases hallowed.2.2.1 rfl
            · obtain ⟨r, tail, rfl, hissue⟩ := Process.path_call hread
              rw [List.forall_mem_cons] at hallowed
              -- an issuance that fails is caught
              have hnext : Process.Path (renewCertificates records) tail (.done outcome) := by
                cases r with
                | ok u => exact hissue
                | error e => exact hissue
              obtain ⟨hok, hvisits⟩ := ih hnext hallowed.2.2.2.2
              exact ⟨hok, .cons (.attempted site settings r) hvisits⟩

theorem complete_of_path {history : History} {outcome : Except Text Unit}
    (h : Process.Path (renewDueCertificates env) history (.done outcome))
    (hallowed : ∀ e ∈ history, e.Allowed Answers) : Complete env history outcome := by
  rw [renewDueCertificates] at h
  split at h
  · rename_i hreplica
    obtain ⟨rfl, rfl⟩ := Process.path_done h
    exact .replica hreplica
  · obtain ⟨r, tail, rfl, hread⟩ := Process.path_call h
    rw [List.forall_mem_cons] at hallowed
    rcases r with e | records
    · obtain ⟨rfl, rfl⟩ := Process.path_done hread
      exact .unread e
    · obtain ⟨rfl, hvisits⟩ := visits_of_path hread hallowed.2
      exact .visited records tail hvisits

structure Renewed (env : Env) (allowed : ∀ c, Except Text (Result c) → Prop)
    (renewal : Renewal) : Prop where
  path : Process.Path (renewDueCertificates env) renewal.history renewal.program
  allowed : ∀ e ∈ renewal.history, e.Allowed allowed

/-! ## Every run -/

/-- What may be answered, and whether a lock may leak. -/
structure Regime (allowed : ∀ c, Except Text (Result c) → Prop) (leaks : Prop) : Prop where
  read : ∀ (c : Call) (e : Text), c.unprotected = true → allowed c (.error e) → leaks
  free : ∀ (c : Call) (r : Except Text (Result c)), c.unprotected = false → allowed c r

theorem regime_any : Regime (fun _ _ => True) True := ⟨fun _ _ _ _ => trivial, fun _ _ _ => trivial⟩

theorem regime_answers : Regime Answers False := by
  refine ⟨?_, ?_⟩
  · intro c e hc he
    cases he hc
  · intro c r hc hunprotected
    rw [hc] at hunprotected
    cases hunprotected

structure Inv (env : Env) (allowed : ∀ c, Except Text (Result c) → Prop) (leaks : Prop)
    (s : State) : Prop where
  locked : Locked allowed leaks s.issuances s.issuanceLocks
  renewals : ∀ renewal ∈ s.renewals, Renewed env allowed renewal
  challenges : ∀ program ∈ s.challenges, program.Lockless fun _ _ => True

theorem inv_start : Inv env allowed leaks .start :=
  ⟨locked_nil, fun _ h => (by cases h), fun _ h => (by cases h)⟩

theorem Inv.issue (h : Inv env allowed leaks s) (regime : Regime allowed leaks) (site : SiteRecord)
    {input : IssueInput} (hinput : leaks ∨ input.textual = true) :
    Inv env allowed leaks (issue env site input s) :=
  ⟨h.locked.issued site (runIssuance_holds site regime.read hinput), h.renewals, h.challenges⟩

theorem renewalInput_textual (settings : SiteTlsSettingsRecord) :
    (renewalInput settings).textual = true :=
  Bool.and_eq_true_iff.mpr ⟨all_isText_map _, all_isText_map _⟩

theorem Inv.advanceRenewal (h : Inv env allowed leaks s) (regime : Regime allowed leaks)
    {put : Renewal → List Renewal}
    (hput : ∀ new, ∀ renewal ∈ put new, renewal = new ∨ renewal ∈ s.renewals)
    {history : History} {program : Program Unit}
    (hpath : Process.Path (renewDueCertificates env) history program)
    (hallowed : ∀ e ∈ history, e.Allowed allowed) :
    Inv env allowed leaks (advanceRenewal env put history program s) := by
  have hlockless := lockless_renewDueCertificates.path hpath hallowed
  have hlocks := hlockless.settle_locks s.issuanceLocks
  have hnew : ∀ issuance, Renewed env allowed
      ⟨history ++ (program.settle s.issuanceLocks).entries, (program.settle s.issuanceLocks).rest,
        issuance⟩ := by
    intro issuance
    refine ⟨hpath.trans (Process.path_settle program s.issuanceLocks), ?_⟩
    intro e he
    rcases List.mem_append.mp he with he | he
    · exact hallowed e he
    · exact Process.Stretch.entries_allowed _ e he
  have hrenewals : ∀ issuance, ∀ renewal ∈ put
      ⟨history ++ (program.settle s.issuanceLocks).entries, (program.settle s.issuanceLocks).rest,
        issuance⟩, Renewed env allowed renewal := by
    intro issuance renewal hmem
    rcases hput _ renewal hmem with rfl | hmem
    · exact hnew issuance
    · exact h.renewals renewal hmem
  rw [Acme.advanceRenewal]
  dsimp only
  rw [hlocks]
  split
  · rename_i site settings next heq
    have hissued := h.issue regime site (.inr (renewalInput_textual settings))
    exact ⟨hissued.locked, hrenewals _, hissued.challenges⟩
  · exact ⟨h.locked, hrenewals _, h.challenges⟩

theorem Inv.renew (h : Inv env allowed leaks s) (regime : Regime allowed leaks) :
    Inv env allowed leaks (step env s .renew) := by
  change Inv env allowed leaks
    (Acme.advanceRenewal env (s.renewals ++ [·]) [] (renewDueCertificates env) s)
  apply h.advanceRenewal regime
  case hpath => exact .refl _
  case hallowed => exact fun e he => (by cases he)
  intro new renewal hmem
  rcases List.mem_snoc.mp hmem with hmem | hmem
  · exact .inr hmem
  · exact .inl hmem

theorem Inv.issuance (h : Inv env allowed leaks s) {i : Nat} {reply : Reply}
    (hreply : ∀ a ∈ s.issuances[i]?, AnswersNext allowed a.program reply) :
    Inv env allowed leaks (step env s (.issuance i reply)) := by
  rw [Acme.step]
  cases hi : s.issuances[i]? with
  | none => exact h
  | some a =>
      obtain ⟨siteId, program⟩ := a
      rw [hi] at hreply
      cases program with
      | call c next =>
          obtain ⟨hholds, -⟩ := h.locked.holds i _ hi rfl
          exact ⟨h.locked.advanced hi rfl (hholds _ (hreply _ rfl)), h.renewals, h.challenges⟩
      | done outcome => exact h
      | has x next => exact h
      | add x next => exact h
      | delete x next => exact h

theorem answer_cases {renewal : Renewal} {reply : Reply} {c : Call} {r : Except Text (Result c)}
    (h : renewal.answer s reply c = some r) : r = reply c ∨ c.unprotected = false := by
  cases c with
  | issue site settings => exact .inr rfl
  | _ => exact .inl (Option.some.inj h).symm

theorem Inv.renewal (h : Inv env allowed leaks s) (regime : Regime allowed leaks) {j : Nat}
    {reply : Reply} (hreply : ∀ r ∈ s.renewals[j]?, AnswersNext allowed r.program reply) :
    Inv env allowed leaks (step env s (.renewal j reply)) := by
  rw [Acme.step, stepRenewal]
  cases hj : s.renewals[j]? with
  | none => exact h
  | some renewal =>
      obtain ⟨history, program, issuance⟩ := renewal
      rw [hj] at hreply
      have hrenewed := h.renewals _ (List.mem_of_getElem? hj)
      cases program with
      | call c next =>
          dsimp only
          split
          · exact h
          · rename_i r hanswer
            have hr : allowed c r := by
              rcases answer_cases hanswer with rfl | hprotected
              · exact hreply _ rfl
              · exact regime.free c r hprotected
            refine h.advanceRenewal regime ?_ (hrenewed.path.trans (.call (.refl _))) ?_
            · intro new other hmem
              rcases List.mem_or_eq_of_mem_set hmem with hmem | heq
              · exact .inr hmem
              · exact .inl heq
            · intro e he
              rcases List.mem_snoc.mp he with he | rfl
              · exact hrenewed.allowed e he
              · exact hr
      | done outcome => exact h
      | has x next => exact h
      | add x next => exact h
      | delete x next => exact h

theorem Inv.challenge (h : Inv env allowed leaks s) (i : Nat) (create : Bool)
    (challenge : Challenge) (keyAuthorization : Text) :
    Inv env allowed leaks (step env s (.challenge i create challenge keyAuthorization)) := by
  rw [Acme.step, stepChallenge]
  split
  · exact h
  · split
    · rename_i context _ _
      have hlockless : ∀ program : Program Unit, (program.Lockless fun _ _ => True) →
          Inv env allowed leaks
            { s with
              issuanceLocks := (program.settle s.issuanceLocks).locks
              challenges := s.challenges ++ [(program.settle s.issuanceLocks).rest] } := by
        intro program hprogram
        rw [hprogram.settle_locks]
        refine ⟨h.locked, h.renewals, ?_⟩
        intro other hmem
        rcases List.mem_snoc.mp hmem with hmem | rfl
        · exact h.challenges other hmem
        · exact hprogram.settle_rest _
      apply hlockless
      split
      · exact lockless_challengeCreateFn _ _ _
      · exact lockless_challengeRemoveFn _ _ _
    · exact h

theorem Inv.challengeStep (h : Inv env allowed leaks s) (k : Nat) (reply : Reply) :
    Inv env allowed leaks (step env s (.challengeStep k reply)) := by
  rw [Acme.step]
  split
  · rename_i c next hk
    have hprogram := h.challenges _ (List.mem_of_getElem? hk) (reply c) trivial
    dsimp only
    rw [hprogram.settle_locks]
    refine ⟨h.locked, h.renewals, ?_⟩
    intro other hmem
    rcases List.mem_or_eq_of_mem_set hmem with hmem | rfl
    · exact h.challenges other hmem
    · exact hprogram.settle_rest _
  · exact h

theorem Inv.step (h : Inv env allowed leaks s) (regime : Regime allowed leaks) (e : Event)
    (hissue : ∀ site input, e = .issue site input → leaks ∨ input.textual = true)
    (hissuance : ∀ i reply, e = .issuance i reply →
      ∀ a ∈ s.issuances[i]?, AnswersNext allowed a.program reply)
    (hrenewal : ∀ j reply, e = .renewal j reply →
      ∀ r ∈ s.renewals[j]?, AnswersNext allowed r.program reply) :
    Inv env allowed leaks (step env s e) := by
  cases e with
  | issue site input => exact h.issue regime site (hissue site input rfl)
  | renew => exact h.renew regime
  | issuance i reply => exact h.issuance (hissuance i reply rfl)
  | renewal j reply => exact h.renewal regime (hrenewal j reply rfl)
  | challenge i create challenge keyAuthorization =>
      exact h.challenge i create challenge keyAuthorization
  | challengeStep k reply => exact h.challengeStep k reply

theorem answersNext_any (program : Program Unit) (reply : Reply) :
    AnswersNext (fun _ _ => True) program reply := by
  unfold AnswersNext
  split
  · exact trivial
  · exact trivial

theorem Inv.step_any (h : Inv env (fun _ _ => True) True s) (e : Event) :
    Inv env (fun _ _ => True) True (Acme.step env s e) := by
  apply h.step regime_any
  · exact fun _ _ _ => .inl trivial
  · exact fun _ _ _ _ _ => answersNext_any _ _
  · exact fun _ _ _ _ _ => answersNext_any _ _

theorem Inv.step_orderly (h : Inv env Answers False s) {e : Event} (he : Orderly s e) :
    Inv env Answers False (Acme.step env s e) := by
  apply h.step regime_answers
  · rintro site input rfl
    exact .inr he
  · rintro i reply rfl
    exact he
  · rintro j reply rfl
    exact he

theorem Inv.lawful (h : Inv env Answers False s) : Lawful env s := by
  refine ⟨h.locked.exclusive, fun siteId => ⟨?_, ?_⟩, ?_⟩
  · intro hactive
    exact h.locked.held id siteId (of_decide_eq_true hactive)
  · intro hrunning
    obtain ⟨i, a, hi, ha, rfl⟩ := runningOf_iff.mp hrunning
    exact decide_eq_true (h.locked.holds i a hi ha).2
  · intro renewal hmem outcome hdone
    obtain ⟨hpath, hallowed⟩ := h.renewals renewal hmem
    rw [hdone] at hpath
    exact complete_of_path hpath hallowed

end Renewals

/-- In every run at most one issuance of a site is past its lock check. Where every call is given
text and no read ahead of the protected parts fails, the lock of a site is taken just while an
issuance of it runs, and a renewal that has read what is due visits it all. -/
theorem issuance_blocks_nothing (events : List Event) :
    Always (step env) (fun s => Exclusive s.issuances) .start events ∧
      (Meets (step env) Orderly .start events → Always (step env) (Lawful env) .start events) := by
  refine ⟨?_, fun horderly => ?_⟩
  · have hmeets : Meets (step env) (fun _ _ => True) .start events :=
      meets_of_forall (fun _ _ => trivial) _ _
    exact always_of_meets (fun _ h => h.locked.exclusive) (fun _ e h _ => h.step_any e) inv_start
      hmeets
  · exact always_of_meets (fun _ h => h.lawful) (fun _ _ h he => h.step_orderly he) inv_start
      horderly

def publicEnv : Env :=
  { config :=
      { replica := false
        httpEnabled := true
        httpPublicPort := 80
        acmeEmail := some "ops@example.com".toList
        acmeDirectoryUrl := "https://acme.example/directory".toList
        skipInternalChallengeVerification := false }
    parseUrl := fun value =>
      if value = "https://acme.example/directory".toList then
        some ⟨"https:".toList, "acme.example".toList, []⟩
      else if value = "http://a.example.com".toList then
        some ⟨"http:".toList, "a.example.com".toList, []⟩
      else none
    toLowerCase := (·.map Char.toLower) }

/-- Two certificates are due. -/
def working : Reply := fun c =>
  match c with
  | .certificateBySite _ => .ok none
  | .ensureTlsSettings _ => .ok ⟨1, none, none, none, none⟩
  | .siteById id => .ok (some ⟨id, "a.example.com".toList⟩)
  | .dueAcmeCertificates => .ok [⟨['c'], ['a'], 1, []⟩, ⟨['d'], ['b'], 2, []⟩]
  | .dnsProviderById _ | .acmeAccount _ => .ok none
  | .decryptSecret _ | .encryptSecret _ | .createPrivateEcdsaKey | .getAccountUrl _ => .ok []
  | .createCsr _ => .ok ([], [])
  | .auto _ _ _ _ _ _ => .ok []
  | .saveCertificate siteId _ _ => .ok ⟨['e'], siteId, 3, []⟩
  | .sha256Bytes _ => .ok []
  | .assertSecretEncryptionConfigured | .recordCertificateEvent _ | .importAcmeClient
  | .updateAccount _ _ | .createAccount _ _ | .saveAcmeAccount _ | .updateTlsSettings _ _ _ _ _ _
  | .deleteAcmeChallengesForSite _ | .requestTlsReload | .updateCertificateAttempt _ _
  | .saveAcmeChallenge _ | .deleteAcmeChallenge _ | .createTxtRecord _ _ _ | .deleteTxtRecord _ _ _
  | .issue _ _ => .ok ()

def failing : Reply := fun _ => .error "database is locked".toList

/-- The first certificate fails at every call of the protected part, the second one is renewed. -/
def renewalEvents : List Event :=
  Event.renew :: List.replicate 3 (Event.renewal 0 working) ++
    List.replicate 2 (Event.issuance 0 working) ++ List.replicate 3 (Event.issuance 0 failing) ++
    List.replicate 3 (Event.renewal 0 working) ++ List.replicate 20 (Event.issuance 1 working) ++
    [Event.renewal 0 working]

theorem issuance_blocks_nothing_renewal :
    (renewalEvents.foldl (step publicEnv) .start).renewals.map (·.program.isDone) = [true] ∧
      (renewalEvents.foldl (step publicEnv) .start).issuances.map (·.running) = [false, false] ∧
      Always (step publicEnv) (Lawful publicEnv) .start renewalEvents :=
  ⟨by decide +kernel, by decide +kernel,
    (issuance_blocks_nothing publicEnv renewalEvents).2 (by decide +kernel)⟩

/-- The read of the certificate fails behind the lock. -/
def leakEvents : List Event :=
  [.issue ⟨['a'], "a.example.com".toList⟩ (renewalInput ⟨1, none, none, none, none⟩),
    .issuance 0 failing]

/-- A failed read leaves the lock taken for ever. -/
theorem failed_read_leaks :
    ¬∀ (env : Env) (events : List Event), Always (step env) (Lawful env) .start events := by
  intro h
  have hlawful := (h publicEnv leakEvents).last
  obtain ⟨a, ha, hrunning, -⟩ := (hlawful.active ['a']).mp (by decide +kernel)
  have hsettled : (leakEvents.foldl (step publicEnv) .start).issuances.all (!·.running) := by
    decide +kernel
  have hdone := List.all_eq_true.mp hsettled a ha
  rw [hrunning] at hdone
  cases hdone

end BurrowGate.Acme
