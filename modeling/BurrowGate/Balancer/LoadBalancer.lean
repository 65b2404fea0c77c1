import BurrowGate.Health.OriginHealth
import BurrowGate.Js.Text
import BurrowGate.Lib.OrderedMap

/-!
# `load-balancer-service.ts`: `LoadBalancer`

`Date.now()` is read once for a whole call, which never waits before it has selected.
`health` is `originHealthManager.originState`. The call that stores the selection in the
session is what the result has besides the origin.
-/

namespace BurrowGate.Balancer

open Health (OriginHealthState)
open Js
open Lib

abbrev OriginId : Type := List Char

inductive LoadBalancingAlgorithm
  | failover
  | roundRobin
  | weightedRoundRobin
  deriving DecidableEq

inductive HealthCheckFailureMode
  | monitor
  | maintenance
  deriving DecidableEq

/-- The columns that selection reads. -/
structure SiteOriginRecord where
  id : OriginId
  enabled : Int
  draining : Int
  priority : Int
  weight : Int
  isPrimary : Int
  createdAt : Int
  deriving DecidableEq

structure SiteRecord where
  id : List Char
  loadBalancingAlgorithm : Option LoadBalancingAlgorithm
  loadBalancingAffinity : Option Int
  healthCheckFailureMode : Option HealthCheckFailureMode

structure AccessSessionRecord where
  id : List Char
  originId : Option OriginId

structure LoadBalancer where
  originsBySite : OrderedMap (List Char) (List SiteOriginRecord)
  roundRobinCursor : OrderedMap (List Char) Nat
  smoothWeights : OrderedMap (List Char) Int
  passiveQuarantine : OrderedMap OriginId Nat

/-- `localeCompare left right` is the sign of `left.localeCompare(right)`. -/
structure BalancerEnv where
  health : OriginId → OriginHealthState
  localeCompare : List Char → List Char → Ordering

/-! ## Choosing among candidates -/

/-- The 32-bit FNV-1a hash over the UTF-16 code units. -/
def stableHash (value : List Char) : UInt32 :=
  (value.flatMap utf16Units).foldl (fun hash unit => (hash ^^^ unit) * 16777619) 2166136261

def byPriority (origins : List SiteOriginRecord) : List SiteOriginRecord :=
  if origins.length < 2 then origins
  else
    match (origins.map (·.priority)).min? with
    | some priority => origins.filter (·.priority = priority)
    | none => []

/-- The loop over the weights; `none` is that it ran through. -/
def bucketOrigin : Int → List SiteOriginRecord → Option SiteOriginRecord
  | _, [] => none
  | bucket, origin :: rest =>
      let bucket := bucket - max 1 origin.weight
      if bucket < 0 then some origin else bucketOrigin bucket rest

def ipAffinityOrigin (env : BalancerEnv) (origins : List SiteOriginRecord) (ip : List Char)
    (weighted : Bool) : Option SiteOriginRecord :=
  if origins.length = 0 then none
  else
    let ordered := origins.mergeSort fun left right => env.localeCompare left.id right.id != .gt
    let hash := (stableHash ip).toNat
    if !weighted then ordered[hash % ordered.length]?
    else
      let total := ordered.foldl (fun sum origin => sum + max 1 origin.weight) 0
      match bucketOrigin (hash % total) ordered with
      | some origin => some origin
      | none => ordered[ordered.length - 1]?

/-- The comparison of the failover order, `left` not after `right`. -/
def failoverLe (left right : SiteOriginRecord) : Bool :=
  if left.priority ≠ right.priority then left.priority < right.priority
  else if right.isPrimary ≠ left.isPrimary then right.isPrimary < left.isPrimary
  else left.createdAt ≤ right.createdAt

def smoothKey (site : SiteRecord) (origin : SiteOriginRecord) : List Char :=
  site.id ++ ':' :: origin.id

/-- The loop of the smooth weighted round robin: the selection with its weight, the sum of the
weights, the stored weights. -/
def smoothLoop (site : SiteRecord) :
    List SiteOriginRecord → Option (SiteOriginRecord × Int) → Int → OrderedMap (List Char) Int →
      Option (SiteOriginRecord × Int) × Int × OrderedMap (List Char) Int
  | [], selected, total, weights => (selected, total, weights)
  | origin :: rest, selected, total, weights =>
      let weight := max 1 origin.weight
      let current := (weights.get? (smoothKey site origin)).getD 0 + weight
      let weights := weights.set (smoothKey site origin) current
      let selected :=
        match selected with
        | none => some (origin, current)
        | some (best, bestWeight) =>
            if bestWeight < current then some (origin, current) else some (best, bestWeight)
      smoothLoop site rest selected (total + weight) weights

/-- `site.load_balancing_affinity !== 0` -/
def affinityOf (site : SiteRecord) : Bool := site.loadBalancingAffinity ≠ some 0

def algorithmOf (site : SiteRecord) : LoadBalancingAlgorithm :=
  site.loadBalancingAlgorithm.getD .failover

def nextByAlgorithm (lb : LoadBalancer) (site : SiteRecord) (origins : List SiteOriginRecord) :
    Option SiteOriginRecord × LoadBalancer :=
  if origins.length = 0 then (none, lb)
  else
    match algorithmOf site with
    | .failover => ((origins.mergeSort failoverLe).head?, lb)
    | .roundRobin =>
        let cursor := (lb.roundRobinCursor.get? site.id).getD 0
        (origins[cursor % origins.length]?,
          { lb with roundRobinCursor := lb.roundRobinCursor.set site.id (cursor + 1) })
    | .weightedRoundRobin =>
        match smoothLoop site origins none 0 lb.smoothWeights with
        | (some (selected, _), total, weights) =>
            let key := smoothKey site selected
            (some selected,
              { lb with smoothWeights := weights.set key ((weights.get? key).getD 0 - total) })
        | (none, _, weights) => (none, { lb with smoothWeights := weights })

/-! ## Candidates -/

def origins (lb : LoadBalancer) (siteId : List Char) : List SiteOriginRecord :=
  (lb.originsBySite.get? siteId).getD []

/-- What `originAvailable` answers, and the quarantine table after it. -/
def originAvailable (env : BalancerEnv) (now : Nat) (quarantine : OrderedMap OriginId Nat)
    (origin : SiteOriginRecord) (existingAffinity : Bool) (excluded : List OriginId)
    (allowUnhealthy allowPassiveQuarantine : Bool) : Bool × OrderedMap OriginId Nat :=
  if origin.enabled ≠ 1 || excluded.contains origin.id then (false, quarantine)
  else if !existingAffinity && origin.draining = 1 then (false, quarantine)
  else if !allowUnhealthy && env.health origin.id = .unhealthy then (false, quarantine)
  else
    let quarantinedUntil := (quarantine.get? origin.id).getD 0
    if now < quarantinedUntil then (allowPassiveQuarantine, quarantine)
    else if 0 < quarantinedUntil then (true, quarantine.erase origin.id)
    else (true, quarantine)

/-- `filter` with `originAvailable`. -/
def filterAvailable (env : BalancerEnv) (now : Nat) (excluded : List OriginId)
    (allowPassiveQuarantine : Bool) :
    List SiteOriginRecord → OrderedMap OriginId Nat → List SiteOriginRecord × OrderedMap OriginId Nat
  | [], quarantine => ([], quarantine)
  | origin :: rest, quarantine =>
      let (available, quarantine) :=
        originAvailable env now quarantine origin false excluded true allowPassiveQuarantine
      let (eligible, quarantine) :=
        filterAvailable env now excluded allowPassiveQuarantine rest quarantine
      (if available then origin :: eligible else eligible, quarantine)

/-- What `candidates` makes of the eligible origins. -/
def preferred (env : BalancerEnv) (site : SiteRecord) (eligible : List SiteOriginRecord) :
    List SiteOriginRecord :=
  let healthy := eligible.filter fun origin => env.health origin.id = .healthy
  let notUnhealthy := eligible.filter fun origin => env.health origin.id ≠ .unhealthy
  if 0 < healthy.length then healthy
  else if 0 < notUnhealthy.length then notUnhealthy
  else if site.healthCheckFailureMode = some .monitor then eligible
  else []

def candidates (env : BalancerEnv) (now : Nat) (lb : LoadBalancer) (site : SiteRecord)
    (excluded : List OriginId) (allowPassiveQuarantine : Bool) :
    List SiteOriginRecord × LoadBalancer :=
  let (eligible, passiveQuarantine) :=
    filterAvailable env now excluded allowPassiveQuarantine (origins lb site.id) lb.passiveQuarantine
  let chosen := preferred env site eligible
  (if algorithmOf site = .failover then byPriority chosen else chosen,
    { lb with passiveQuarantine })

/-! ## `selectOrigin` -/

/-- The origin, the assignment that is stored in the session, and the balancer after it. -/
structure Selection where
  origin : Option SiteOriginRecord
  assigned : Option (List Char × OriginId)
  balancer : LoadBalancer

/-- `session?.origin_id` if it is not empty. -/
def sessionOrigin (session : Option AccessSessionRecord) : Option OriginId :=
  (session.bind (·.originId)).filter fun id => !id.isEmpty

/-- The session's own assignment, if it can be used. -/
def assignedOrigin (env : BalancerEnv) (now : Nat) (lb : LoadBalancer) (site : SiteRecord)
    (session : Option AccessSessionRecord) (excluded : List OriginId) :
    Option SiteOriginRecord × LoadBalancer :=
  match sessionOrigin session with
  | none => (none, lb)
  | some originId =>
      match (origins lb site.id).find? (·.id = originId) with
      | none => (none, lb)
      | some assigned =>
          let (available, passiveQuarantine) :=
            originAvailable env now lb.passiveQuarantine assigned true excluded false false
          (if available then some assigned else none, { lb with passiveQuarantine })

/-- The part after the session's own assignment was found unusable. -/
def selectCandidate (env : BalancerEnv) (now : Nat) (lb : LoadBalancer) (site : SiteRecord)
    (session : Option AccessSessionRecord) (ip : List Char) (excluded : List OriginId) : Selection :=
  let affinity := affinityOf site
  let (first, lb) := candidates env now lb site excluded false
  let (chosen, lb) := if first.length = 0 then candidates env now lb site excluded true else (first, lb)
  let (selected, lb) :=
    if affinity && session.isNone then
      (ipAffinityOrigin env chosen ip (algorithmOf site = .weightedRoundRobin), lb)
    else nextByAlgorithm lb site chosen
  let assigned :=
    match session, selected with
    | some session, some selected =>
        if affinity && session.originId ≠ some selected.id then some (session.id, selected.id) else none
    | _, _ => none
  { origin := selected, assigned, balancer := lb }

def selectOrigin (env : BalancerEnv) (now : Nat) (lb : LoadBalancer) (site : SiteRecord)
    (session : Option AccessSessionRecord) (ip : List Char) (excluded : List OriginId) : Selection :=
  if affinityOf site then
    let (assigned, lb) := assignedOrigin env now lb site session excluded
    match assigned with
    | some origin => { origin := some origin, assigned := none, balancer := lb }
    | none => selectCandidate env now lb site session ip excluded
  else selectCandidate env now lb site session ip excluded

end BurrowGate.Balancer
