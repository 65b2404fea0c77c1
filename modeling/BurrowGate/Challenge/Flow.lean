import BurrowGate.Lib.Calls
import BurrowGate.Lib.Table
import Mathlib.Data.List.Basic

/-!
# `challenge-service.ts`: one challenge flow

`currentStep` and `verifyFlow` over the rows of one flow. A call is suspended at every
repository call and at the provider's `create` and `verify`; a repository call that throws ends
it. The answers that a provider accepted and rejected are kept as a history.
-/

namespace BurrowGate.Challenge

open Lib.Run Lib.Calls

abbrev Text : Type := List Char

/-- `config.maxChallengeAttempts` within the bounds of its environment variable. -/
structure ChallengeConfig where
  maxChallengeAttempts : Nat
  atLeastOne : 1 ≤ maxChallengeAttempts
  atMostHundred : maxChallengeAttempts ≤ 100

structure ChallengePolicyStep where
  provider : Text
  config : Text
  deriving DecidableEq

inductive FlowStatus
  | pending
  | completed
  deriving DecidableEq

/-- `policy_json` is parsed. -/
structure ChallengeFlowRecord where
  id : Text
  siteId : Text
  returnPath : Text
  clientIp : Text
  userAgentHash : Text
  currentStep : Nat
  policy : List ChallengePolicyStep
  status : FlowStatus
  expiresAt : Nat
  completedAt : Option Nat
  deriving DecidableEq

structure ChallengeStepRecord where
  id : Nat
  stepIndex : Nat
  provider : Text
  config : Text
  status : FlowStatus
  attempts : Nat
  createdAt : Nat
  expiresAt : Nat
  completedAt : Option Nat
  deriving DecidableEq

structure ChallengeConsumption where
  stepId : Nat
  consumedAt : Nat
  deriving DecidableEq

/-- What `createAccessSession` is given. -/
structure AccessSession where
  siteId : Text
  clientIp : Text
  userAgentHash : Text
  providers : List Text
  createdAt : Nat
  deriving DecidableEq

/-- The rows of one flow. `accepted` and `rejected` are the history of the answers, by step. -/
structure ChallengeStore where
  now : Nat
  flow : ChallengeFlowRecord
  steps : List ChallengeStepRecord
  consumptions : List ChallengeConsumption
  sessions : List AccessSession
  nextId : Nat
  accepted : List ChallengeConsumption
  rejected : List Nat

/-- Who awaits `currentStep`. -/
inductive CurrentStepCaller
  | page
  | verify
  | next
  deriving DecidableEq

/-- Where a call is suspended, with the rows it has read. -/
inductive ChallengeCall
  | flow (caller : CurrentStepCaller)
  | site (flow : ChallengeFlowRecord)
  | step (flow : ChallengeFlowRecord) (caller : CurrentStepCaller)
  | create (flow : ChallengeFlowRecord) (spec : ChallengePolicyStep) (caller : CurrentStepCaller)
  | insertStep (flow : ChallengeFlowRecord) (step : ChallengeStepRecord)
      (caller : CurrentStepCaller)
  | evaluate (flow : ChallengeFlowRecord) (step : ChallengeStepRecord)
  | failStepAttempt (step : ChallengeStepRecord)
  | consumeStep (flow : ChallengeFlowRecord) (step : ChallengeStepRecord) (consumedAt : Nat)
  | completeStep (flow : ChallengeFlowRecord) (step : ChallengeStepRecord) (consumedAt : Nat)
  | updateFlowStep (flow : ChallengeFlowRecord)
  | completeFlow (flow : ChallengeFlowRecord)
  | createAccessSession (flow : ChallengeFlowRecord)
  | done
  deriving DecidableEq

inductive ChallengeEvent
  /-- What the call waits for is there. -/
  | resolves
  /-- It throws, or the site is gone. -/
  | throws
  /-- The provider's verification of the answer. -/
  | verified (success : Bool)
  deriving DecidableEq

/-! ## The rows -/

def stepAt (steps : List ChallengeStepRecord) (index : Nat) : Option ChallengeStepRecord :=
  steps.find? (·.stepIndex = index)

/-- `UPDATE challenge_steps … WHERE id = …` -/
def updateStep (id : Nat) (f : ChallengeStepRecord → ChallengeStepRecord)
    (steps : List ChallengeStepRecord) : List ChallengeStepRecord :=
  Lib.Table.updateWhere (·.id) id f steps

def ChallengeStepRecord.failed (step : ChallengeStepRecord) : ChallengeStepRecord :=
  { step with attempts := step.attempts + 1 }

def ChallengeStepRecord.completed (now : Nat) (step : ChallengeStepRecord) : ChallengeStepRecord :=
  if step.status = .pending then { step with status := .completed, completedAt := some now }
  else step

def ChallengeFlowRecord.completed (now : Nat) (flow : ChallengeFlowRecord) :
    ChallengeFlowRecord :=
  if flow.status = .pending then { flow with status := .completed, completedAt := some now }
  else flow

/-- The row that `currentStep` inserts. -/
def newStep (store : ChallengeStore) (flow : ChallengeFlowRecord) (spec : ChallengePolicyStep) :
    ChallengeStepRecord where
  id := store.nextId
  stepIndex := flow.currentStep
  provider := spec.provider
  config := spec.config
  status := .pending
  attempts := 0
  createdAt := store.now
  expiresAt := flow.expiresAt
  completedAt := none

/-! ## The calls -/

/-- `currentStep` has returned `step`. -/
def withStep (config : ChallengeConfig) (flow : ChallengeFlowRecord) (step : ChallengeStepRecord) :
    CurrentStepCaller → ChallengeCall
  | .page | .next => .done
  | .verify => if config.maxChallengeAttempts ≤ step.attempts then .done else .evaluate flow step

/-- What follows when the awaited call resolves. -/
def resolveCall (config : ChallengeConfig) (store : ChallengeStore) :
    ChallengeCall → Option (ChallengeStore × ChallengeCall)
  | .flow caller =>
      let flow := store.flow
      if flow.status ≠ .pending ∨ flow.expiresAt ≤ store.now then some (store, .done)
      else some (store, if caller = .verify then .site flow else .step flow caller)
  | .site flow => some (store, .step flow .verify)
  | .step flow caller =>
      some (store, match stepAt store.steps flow.currentStep with
        | some existing => withStep config flow existing caller
        | none => (flow.policy[flow.currentStep]?).elim .done fun spec => .create flow spec caller)
  | .create flow spec caller =>
      some ({ store with nextId := store.nextId + 1 },
        .insertStep flow (newStep store flow spec) caller)
  | .insertStep flow step caller =>
      -- UNIQUE(flow_id, step_index)
      if (stepAt store.steps step.stepIndex).isSome then some (store, .done)
      else some ({ store with steps := store.steps ++ [step] }, withStep config flow step caller)
  | .evaluate .. => none
  | .failStepAttempt step =>
      some ({ store with steps := updateStep step.id (·.failed) store.steps }, .done)
  | .consumeStep flow step consumedAt =>
      if (store.consumptions.any (·.stepId = step.id)) then some (store, .done)
      else some ({ store with consumptions := store.consumptions ++ [⟨step.id, consumedAt⟩] },
        .completeStep flow step consumedAt)
  | .completeStep flow step consumedAt =>
      some ({ store with steps := updateStep step.id (·.completed consumedAt) store.steps },
        if flow.currentStep + 1 < flow.policy.length then .updateFlowStep flow
        else .completeFlow flow)
  | .updateFlowStep flow =>
      some ({ store with flow := { store.flow with currentStep := flow.currentStep + 1 } },
        .step { flow with currentStep := flow.currentStep + 1 } .next)
  | .completeFlow flow =>
      some ({ store with flow := store.flow.completed store.now }, .createAccessSession flow)
  | .createAccessSession flow =>
      some ({ store with sessions := store.sessions ++
        [⟨flow.siteId, flow.clientIp, flow.userAgentHash, flow.policy.map (·.provider),
          store.now⟩] }, .done)
  | .done => none

/-- The provider has verified the answer. -/
def answerCall (store : ChallengeStore) (success : Bool) :
    ChallengeCall → Option (ChallengeStore × ChallengeCall)
  | .evaluate flow step =>
      if success then some ({ store with accepted := store.accepted ++ [⟨step.id, store.now⟩] },
        .consumeStep flow step store.now)
      else some ({ store with rejected := store.rejected ++ [step.id] }, .failStepAttempt step)
  | _ => none

def challengeCall (config : ChallengeConfig) (store : ChallengeStore) (call : ChallengeCall) :
    ChallengeEvent → Option (ChallengeStore × ChallengeCall)
  | .resolves => resolveCall config store call
  | .throws => if call = .done then none else some (store, .done)
  | .verified success => answerCall store success call

/-- Time passes. -/
def passTime (store : ChallengeStore) (ms : Nat) : ChallengeStore :=
  { store with now := store.now + ms }

/-- A call of `verifyFlow`, or of `currentStep` by a route that has yet to read the flow. -/
def startsFlow (call : ChallengeCall) : Bool := call = .flow .page || call = .flow .verify

abbrev ChallengeSystem : Type := System ChallengeStore ChallengeCall

abbrev ChallengeAction : Type := Action ChallengeCall ChallengeEvent Nat

def challengeStep (config : ChallengeConfig) :
    ChallengeSystem → ChallengeAction → Option ChallengeSystem :=
  step startsFlow (challengeCall config) passTime

/-- A flow as `createFlow` inserts it. -/
structure StartsFlow (s : ChallengeSystem) : Prop where
  pending : s.store.flow.status = .pending
  first : s.store.flow.currentStep = 0
  noRows : s.store.steps = [] ∧ s.store.consumptions = [] ∧ s.store.sessions = []
  history : s.store.accepted = [] ∧ s.store.rejected = []
  idle : s.calls = []

/-! ## The law -/

/-- The remaining steps can be completed: some run from here creates a session. -/
def Completable (config : ChallengeConfig) (s : ChallengeSystem) : Prop :=
  ∃ t, Reach (challengeStep config) Any (· = s) t ∧ t.store.sessions ≠ []

/-- Every step of the policy was consumed in order by an answer accepted in time. -/
structure Earned (store : ChallengeStore) : Prop where
  steps : store.steps.map (·.stepIndex) = List.range store.flow.policy.length
  consumed : store.consumptions.map (·.stepId) = store.steps.map (·.id)
  accepted : ∀ c ∈ store.consumptions, c ∈ store.accepted ∧ c.consumedAt < store.flow.expiresAt

structure SingleUse (config : ChallengeConfig) (s : ChallengeSystem) : Prop where
  once : s.store.sessions.length ≤ 1
  earned : s.store.sessions ≠ [] → Earned s.store
  bounded : ∀ step ∈ s.store.steps,
    s.store.rejected.count step.id ≤ config.maxChallengeAttempts
  /-- Unless the attempts of the current step are used up or the flow has expired. -/
  completable : s.store.flow.policy ≠ [] → s.store.now < s.store.flow.expiresAt →
    (∀ step, stepAt s.store.steps s.store.flow.currentStep = some step →
      step.attempts < config.maxChallengeAttempts ∨
        s.store.consumptions.any (·.stepId = step.id) = true) →
    Completable config s

/-! ## The condition -/

/-- The call evaluates an answer for the step, or has yet to count its rejection. -/
def ChallengeCall.attempting (id : Nat) : ChallengeCall → Bool
  | .evaluate _ row | .failStepAttempt row => row.id = id
  | _ => false

/-- The call has consumed a step and has not moved the flow on, or has a rejection to count. -/
def ChallengeCall.mustGoOn : ChallengeCall → Bool
  | .failStepAttempt _ | .completeStep .. | .updateFlowStep _ | .completeFlow _
  | .createAccessSession _ => true
  | _ => false

/-- An evaluation begins while the attempts and the evaluations under way leave room for it, an
answer is accepted before the flow expires, and no repository call throws after an answer was
consumed or rejected. -/
def answersInTime (config : ChallengeConfig) (s : ChallengeSystem) (call : ChallengeCall) :
    ChallengeEvent → Bool
  | .resolves =>
      match call with
      | .step flow .verify => (stepAt s.store.steps flow.currentStep).all fun step =>
          step.attempts + s.calls.countP (·.attempting step.id) < config.maxChallengeAttempts ||
            config.maxChallengeAttempts ≤ step.attempts
      | _ => true
  | .verified true =>
      match call with
      | .evaluate flow _ => s.store.now < flow.expiresAt
      | _ => true
  | .verified false => true
  | .throws => !call.mustGoOn

def AnswersInTime (config : ChallengeConfig) (s : ChallengeSystem) : ChallengeAction → Prop
  | .call i e => (s.calls[i]?.all fun call => answersInTime config s call e) = true
  | _ => True

instance (config : ChallengeConfig) (s : ChallengeSystem) :
    ∀ a, Decidable (AnswersInTime config s a)
  | .call .. => inferInstanceAs (Decidable (_ = true))
  | .start _ | .world _ => isTrue trivial

end BurrowGate.Challenge
