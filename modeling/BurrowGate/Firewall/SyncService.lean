import BurrowGate.Firewall.NeverBan
import BurrowGate.Lib.Run
import BurrowGate.Lib.Table

/-!
# `firewall-sync-service.ts`: pushing the ban list

The provider rows, the ban rules and the whitelist, the targets that the providers push to, and
the calls of `tick`, `syncNow` and `updateFirewallSyncProvider`, each suspended at every read,
push and write. What a push leaves at a target is observed by the model only.
-/

namespace BurrowGate.Firewall

open Lib.Run Lib.Lists Lib.Table

inductive FirewallSyncProviderType
  | unifi
  | nftables
  | ovh
  | awsNacl
  deriving DecidableEq

inductive FirewallSyncStatus
  | ok
  | error
  deriving DecidableEq

structure FirewallSyncProviderRecord where
  id : List Char
  name : List Char
  type : FirewallSyncProviderType
  enabled : Bool
  maxEntries : Int
  configJson : List Char
  acknowledgedNoWhitelist : Bool
  lastCheckedAt : Option Nat
  lastSyncedAt : Option Nat
  lastSyncStatus : Option FirewallSyncStatus
  lastSyncError : Option (List Char)
  lastAppliedCount : Nat
  lastAppliedHash : Option (List Char)
  deriving DecidableEq

/-- A row of `ip_rules` or `stream_ip_rules`. -/
structure IpRuleRow where
  networkCidr : List Char
  createdAt : Int
  blocks : Bool
  expiresAt : Option Nat

/-- A field that is `none` was not sent. -/
structure FirewallSyncProviderInput where
  name : Option (List Char)
  enabled : Option Bool
  maxEntries : Option Int
  acknowledgedNoWhitelist : Option Bool
  config : Option (List Char)

/-- What `updateFirewallSyncProviderConfig` writes. -/
structure ProviderConfig where
  name : List Char
  enabled : Bool
  maxEntries : Int
  configJson : List Char
  acknowledgedNoWhitelist : Bool

/-- The digest, the adapters' configuration parsers, and the target that a configuration
names. -/
structure FirewallSyncAdapters (Target : Type) where
  sha256Hex : List Char → List Char
  buildConfigJson : FirewallSyncProviderType → List Char → List Char → Option (List Char)
  targetOf : FirewallSyncProviderType → List Char → Target

/-- Where a call is suspended. `checkedAt` is read before the branch is taken. -/
inductive SyncStage
  | providers
  | provider (id : List Char)
  /-- The two reads of `aggregateBannedCidrs`. -/
  | bans (readAt : Nat) (rows : Option (List BannedCidrRow)) (whitelist : Option (List (List Char)))
  | reconcile (desired : List (List Char))
  /-- The hash is the recorded one, the row is about to be written. -/
  | keep (desired : List (List Char)) (checkedAt : Nat)
  | push (desired capped : List (List Char)) (checkedAt : Nat)
  | record (desired capped : List (List Char)) (checkedAt : Nat)
  | fail (desired : List (List Char)) (message : List Char) (checkedAt : Nat)
  | done

/-- A call of `tick`, or of `syncNow` when `force` is set. `todo` are the rows it has read and
not finished with, the first one is being reconciled. -/
structure SyncCall where
  force : Bool
  todo : List FirewallSyncProviderRecord
  stage : SyncStage

/-- A call of `updateFirewallSyncProvider` that has read the row. -/
structure SyncUpdate where
  existing : FirewallSyncProviderRecord
  input : FirewallSyncProviderInput

/-- A push that was skipped, and what the provider's target held then. -/
structure SkippedPush where
  capped : List (List Char)
  held : List (List Char)

structure FirewallSyncState (Target : Type) where
  now : Nat
  ipRules : List IpRuleRow
  streamIpRules : List IpRuleRow
  whitelist : List (List Char)
  providers : List FirewallSyncProviderRecord
  targets : Target → List (List Char)
  running : Bool
  calls : List SyncCall
  updates : List SyncUpdate
  skipped : List SkippedPush

inductive FirewallSyncAction
  | pass (ms : Nat)
  | setRules (ipRules streamIpRules : List IpRuleRow)
  | setWhitelist (whitelist : List (List Char))
  | tick
  | syncNow (id : List Char)
  | readBans (i : Nat)
  | readWhitelist (i : Nat)
  /-- What the call waits for succeeds. -/
  | advance (i : Nat)
  /-- What the call waits for throws; a push leaves `left` at its target. -/
  | reject (i : Nat) (message : List Char) (left : List (List Char))
  | update (id : List Char) (input : FirewallSyncProviderInput)
  | save (i : Nat)

/-! ## The desired list -/

def activeBannedCidrRows (ipRules streamIpRules : List IpRuleRow) (now : Nat) :
    List BannedCidrRow :=
  ((ipRules ++ streamIpRules).filter fun rule => rule.blocks && rule.expiresAt.all (now < ·)).map
    fun rule => ⟨rule.networkCidr, rule.createdAt⟩

/-- `aggregateBannedCidrs` on what its two reads returned. -/
def aggregateBannedCidrs (rows : List BannedCidrRow) (whitelist : List (List Char)) :
    List (List Char) :=
  filterBannableCidrs (dedupeCidrsByRecency rows) whitelist

def cappedList (maxEntries : Int) (desired : List (List Char)) : List (List Char) :=
  desired.take (max 0 maxEntries).toNat

/-- `sha256Hex(capped.join(","))` -/
def listHash {Target : Type} (adapters : FirewallSyncAdapters Target) (capped : List (List Char)) :
    List Char :=
  adapters.sha256Hex ([','].intercalate capped)

variable {Target : Type} [DecidableEq Target]

/-- The desired list of the rules as they are. -/
def FirewallSyncState.desired (s : FirewallSyncState Target) : List (List Char) :=
  aggregateBannedCidrs (activeBannedCidrRows s.ipRules s.streamIpRules s.now) s.whitelist

/-- The target that the row's configuration names. -/
def FirewallSyncProviderRecord.target (adapters : FirewallSyncAdapters Target)
    (row : FirewallSyncProviderRecord) : Target :=
  adapters.targetOf row.type row.configJson

/-! ## `updateFirewallSyncProvider` -/

def OVH_MAX_RULES : Int := 20

def AWS_NACL_MAX_RULES : Int := 20

def clampMaxEntries (type : FirewallSyncProviderType) (requested : Int) : Int :=
  match type with
  | .ovh => min requested OVH_MAX_RULES
  | .awsNacl => min requested AWS_NACL_MAX_RULES
  | _ => requested

/-- What the call writes, `none` when it throws. -/
def SyncUpdate.written (adapters : FirewallSyncAdapters Target) (whitelist : List (List Char))
    (u : SyncUpdate) : Option ProviderConfig :=
  let name := u.input.name.elim u.existing.name Js.trim
  let enabled := u.input.enabled.getD u.existing.enabled
  let acknowledged := u.input.acknowledgedNoWhitelist.getD u.existing.acknowledgedNoWhitelist
  if name = [] then none
  else if enabled && !acknowledged && whitelist.isEmpty then none
  else
    (match u.input.config with
    | none => some u.existing.configJson
    | some raw => adapters.buildConfigJson u.existing.type raw u.existing.configJson).map
      fun configJson =>
        { name
          enabled
          maxEntries := clampMaxEntries u.existing.type
            (u.input.maxEntries.getD u.existing.maxEntries)
          configJson
          acknowledgedNoWhitelist := acknowledged }

/-- `updateFirewallSyncProviderConfig` -/
def FirewallSyncProviderRecord.configured (config : ProviderConfig)
    (row : FirewallSyncProviderRecord) : FirewallSyncProviderRecord :=
  { row with
    name := config.name
    enabled := config.enabled
    maxEntries := config.maxEntries
    configJson := config.configJson
    acknowledgedNoWhitelist := config.acknowledgedNoWhitelist }

def writeConfig (rows : List FirewallSyncProviderRecord) (id : List Char)
    (config : ProviderConfig) : List FirewallSyncProviderRecord :=
  updateWhere (·.id) id (·.configured config) rows

/-! ## The calls -/

/-- `updateFirewallSyncProviderResult` -/
def FirewallSyncProviderRecord.withResult (checkedAt : Nat) (syncedAt : Option Nat)
    (status : Option FirewallSyncStatus) (error : Option (List Char)) (count : Nat)
    (hash : Option (List Char)) (row : FirewallSyncProviderRecord) : FirewallSyncProviderRecord :=
  { row with
    lastCheckedAt := some checkedAt
    lastSyncedAt := syncedAt
    lastSyncStatus := status
    lastSyncError := error
    lastAppliedCount := count
    lastAppliedHash := hash }

def FirewallSyncState.goOn (s : FirewallSyncState Target) (i : Nat) (c : SyncCall) :
    FirewallSyncState Target :=
  { s with calls := s.calls.set i c }

/-- The call ends; a tick clears `running`. -/
def FirewallSyncState.finish (s : FirewallSyncState Target) (i : Nat) (c : SyncCall) :
    FirewallSyncState Target :=
  { s.goOn i { c with todo := [], stage := .done } with running := c.force && s.running }

/-- The result is written and the loop goes on to the next provider. -/
def FirewallSyncState.writeResult (s : FirewallSyncState Target) (i : Nat) (c : SyncCall)
    (desired : List (List Char)) (id : List Char)
    (f : FirewallSyncProviderRecord → FirewallSyncProviderRecord) : FirewallSyncState Target :=
  { s.goOn i { c with todo := c.todo.tail, stage := .reconcile desired } with
    providers := updateWhere (·.id) id f s.providers }

/-- What the target of the provider holds, by the row as it is. -/
def FirewallSyncState.held (adapters : FirewallSyncAdapters Target) (s : FirewallSyncState Target)
    (id : List Char) : List (List Char) :=
  (s.providers.find? (·.id = id)).elim [] fun row => s.targets (row.target adapters)

/-- `reconcileProvider` up to its first suspension. -/
def reconcileProvider (adapters : FirewallSyncAdapters Target) (s : FirewallSyncState Target)
    (i : Nat) (c : SyncCall) (provider : FirewallSyncProviderRecord)
    (desired : List (List Char)) : FirewallSyncState Target :=
  let capped := cappedList provider.maxEntries desired
  if !c.force && provider.lastAppliedHash = some (listHash adapters capped) then
    { s.goOn i { c with stage := .keep desired s.now } with
      skipped := s.skipped ++ [⟨capped, s.held adapters provider.id⟩] }
  else s.goOn i { c with stage := .push desired capped s.now }

/-- What the call waits for succeeds. -/
def advanceSync (adapters : FirewallSyncAdapters Target) (s : FirewallSyncState Target) (i : Nat)
    (c : SyncCall) : Option (FirewallSyncState Target) :=
  match c.stage, c.todo with
  | .providers, _ =>
      let providers := s.providers.filter (·.enabled)
      if providers = [] then some (s.finish i c)
      else some (s.goOn i { c with todo := providers, stage := .bans s.now none none })
  | .provider id, _ =>
      some ((s.providers.find? (·.id = id)).elim (s.finish i c) fun provider =>
        s.goOn i { c with todo := [provider], stage := .bans s.now none none })
  | .bans _ (some rows) (some whitelist), _ =>
      some (s.goOn i { c with stage := .reconcile (aggregateBannedCidrs rows whitelist) })
  | .reconcile _, [] => some (s.finish i c)
  | .reconcile desired, provider :: _ => some (reconcileProvider adapters s i c provider desired)
  | .keep desired checkedAt, provider :: _ =>
      some (s.writeResult i c desired provider.id (·.withResult checkedAt provider.lastSyncedAt
        provider.lastSyncStatus provider.lastSyncError provider.lastAppliedCount
        provider.lastAppliedHash))
  | .push desired capped checkedAt, provider :: _ =>
      some { s.goOn i { c with stage := .record desired capped checkedAt } with
        targets := Function.update s.targets (provider.target adapters) capped }
  | .record desired capped checkedAt, provider :: _ =>
      some (s.writeResult i c desired provider.id (·.withResult checkedAt (some checkedAt)
        (some .ok) none capped.length (some (listHash adapters capped))))
  | .fail desired message checkedAt, provider :: _ =>
      some (s.writeResult i c desired provider.id (·.withResult checkedAt provider.lastSyncedAt
        (some .error) (some (message.take 1000)) provider.lastAppliedCount
        provider.lastAppliedHash))
  | _, _ => none

/-- What the call waits for throws. A result that cannot be written ends the provider's turn. -/
def rejectSync (adapters : FirewallSyncAdapters Target) (s : FirewallSyncState Target) (i : Nat)
    (c : SyncCall) (message : List Char) (left : List (List Char)) :
    Option (FirewallSyncState Target) :=
  match c.stage, c.todo with
  | .providers, _ | .provider _, _ | .bans .., _ => some (s.finish i c)
  | .keep desired _, _ :: rest | .fail desired _ _, _ :: rest =>
      some (s.goOn i { c with todo := rest, stage := .reconcile desired })
  | .push desired _ checkedAt, provider :: _ =>
      some { s.goOn i { c with stage := .fail desired message checkedAt } with
        targets := Function.update s.targets (provider.target adapters) left }
  | .record desired _ checkedAt, _ :: _ =>
      some (s.goOn i { c with stage := .fail desired message checkedAt })
  | _, _ => none

def firewallSyncStep (adapters : FirewallSyncAdapters Target) (s : FirewallSyncState Target) :
    FirewallSyncAction → Option (FirewallSyncState Target)
  | .pass ms => some { s with now := s.now + ms }
  | .setRules ipRules streamIpRules => some { s with ipRules, streamIpRules }
  | .setWhitelist whitelist => some { s with whitelist }
  | .tick =>
      if s.running then none
      else some { s with running := true, calls := s.calls ++ [⟨false, [], .providers⟩] }
  | .syncNow id => some { s with calls := s.calls ++ [⟨true, [], .provider id⟩] }
  | .readBans i =>
      s.calls[i]?.bind fun c =>
        match c.stage with
        | .bans readAt none whitelist => some (s.goOn i { c with
            stage := .bans readAt (some (activeBannedCidrRows s.ipRules s.streamIpRules readAt))
              whitelist })
        | _ => none
  | .readWhitelist i =>
      s.calls[i]?.bind fun c =>
        match c.stage with
        | .bans readAt rows none =>
            some (s.goOn i { c with stage := .bans readAt rows (some s.whitelist) })
        | _ => none
  | .advance i => s.calls[i]?.bind (advanceSync adapters s i)
  | .reject i message left => s.calls[i]?.bind fun c => rejectSync adapters s i c message left
  | .update id input =>
      (s.providers.find? (·.id = id)).map fun existing =>
        { s with updates := s.updates ++ [⟨existing, input⟩] }
  | .save i =>
      s.updates[i]?.map fun u =>
        { s with
          updates := s.updates.eraseIdx i
          providers := (u.written adapters s.whitelist).elim s.providers
            (writeConfig s.providers u.existing.id) }

/-- Any providers that were never pushed to, no rule yet and no call. -/
structure StartsSync (s : FirewallSyncState Target) : Prop where
  ids : (s.providers.map (·.id)).Nodup
  fresh : ∀ row ∈ s.providers, row.lastAppliedHash = none
  rules : s.ipRules = [] ∧ s.streamIpRules = []
  idle : s.calls = [] ∧ s.updates = [] ∧ s.skipped = []

/-! ## The law -/

/-- A row that says ok and records the current list tells what its target holds, and no push
that was needed has been skipped. -/
structure SyncTruth (adapters : FirewallSyncAdapters Target) (s : FirewallSyncState Target) :
    Prop where
  held : ∀ row ∈ s.providers, row.lastSyncStatus = some .ok →
    row.lastAppliedHash = some (listHash adapters (cappedList row.maxEntries s.desired)) →
    s.targets (row.target adapters) = cappedList row.maxEntries s.desired
  needed : ∀ skip ∈ s.skipped, skip.held = skip.capped

/-! ## The condition -/

/-- The list a call has pushed and not recorded yet. -/
def SyncCall.unrecorded? (c : SyncCall) : Option (List Char × List (List Char)) :=
  match c.stage, c.todo with
  | .record _ capped _, provider :: _ => some (provider.id, capped)
  | _, _ => none

/-- A row whose push waits to be recorded records the current list only when that is the list
pushed. -/
def Unmistaken (adapters : FirewallSyncAdapters Target)
    (pushed : List (List Char × List (List Char))) (rows : List FirewallSyncProviderRecord)
    (desired : List (List Char)) : Prop :=
  ∀ e ∈ pushed, ∀ row ∈ rows, row.id = e.1 →
    row.lastAppliedHash = some (listHash adapters (cappedList row.maxEntries desired)) →
    e.2 = cappedList row.maxEntries desired

instance (adapters : FirewallSyncAdapters Target) (pushed : List (List Char × List (List Char)))
    (rows : List FirewallSyncProviderRecord) (desired : List (List Char)) :
    Decidable (Unmistaken adapters pushed rows desired) :=
  inferInstanceAs (Decidable (∀ e ∈ pushed, ∀ row ∈ rows, row.id = e.1 →
    row.lastAppliedHash = some (listHash adapters (cappedList row.maxEntries desired)) →
    e.2 = cappedList row.maxEntries desired))

def FirewallSyncState.unrecorded (s : FirewallSyncState Target) :
    List (List Char × List (List Char)) :=
  s.calls.filterMap SyncCall.unrecorded?

/-- A call has read the provider's row and is not finished with it. -/
def FirewallSyncState.holds (s : FirewallSyncState Target) (id : List Char) : Bool :=
  s.calls.any fun c => c.todo.any (·.id = id)

/-- A new configuration names the same target, or the provider was never pushed to and is not
being reconciled. -/
def movesFresh (adapters : FirewallSyncAdapters Target) (s : FirewallSyncState Target)
    (id : List Char) (config : ProviderConfig) : Bool :=
  s.providers.all fun row => row.id ≠ id ||
    (row.configured config).target adapters = row.target adapters ||
      (row.lastAppliedHash = none && !s.holds id)

/-- The row is read while no other call holds it, and a push goes to a target that no other
provider names. -/
def reconcilesAlone (adapters : FirewallSyncAdapters Target) (s : FirewallSyncState Target)
    (c : SyncCall) : Bool :=
  match c.stage, c.todo with
  | .providers, _ => s.providers.all fun row => !row.enabled || !s.holds row.id
  | .provider id, _ => !s.holds id
  | .push _ capped _, provider :: _ =>
      (s.providers.all fun row =>
        row.id = provider.id || row.target adapters ≠ provider.target adapters) &&
          Unmistaken adapters [(provider.id, capped)] s.providers s.desired
  | _, _ => true

/-- A push that fails leaves its target as it was, and a push that succeeds is recorded. -/
def failsCleanly (adapters : FirewallSyncAdapters Target) (s : FirewallSyncState Target)
    (left : List (List Char)) (c : SyncCall) : Bool :=
  match c.stage, c.todo with
  | .push .., provider :: _ => left = s.targets (provider.target adapters)
  | .record .., _ => false
  | _, _ => true

/-- The rules, the whitelist and the clock change only so that no unrecorded push is mistaken,
and a ban's text has no comma. -/
def RecordsWhatItPushed (adapters : FirewallSyncAdapters Target) (s : FirewallSyncState Target) :
    FirewallSyncAction → Prop
  | .pass ms => Unmistaken adapters s.unrecorded s.providers { s with now := s.now + ms }.desired
  | .setRules ipRules streamIpRules =>
      ((ipRules ++ streamIpRules).all fun rule =>
        !(rule.blocks && rule.networkCidr.contains ',')) = true ∧
        Unmistaken adapters s.unrecorded s.providers { s with ipRules, streamIpRules }.desired
  | .setWhitelist whitelist =>
      Unmistaken adapters s.unrecorded s.providers { s with whitelist }.desired
  | .advance i => (s.calls[i]?.all (reconcilesAlone adapters s)) = true
  | .reject i _ left => (s.calls[i]?.all (failsCleanly adapters s left)) = true
  | .save i =>
      (s.updates[i]?.all fun u => (u.written adapters s.whitelist).all fun config =>
        movesFresh adapters s u.existing.id config && Unmistaken adapters s.unrecorded
          (writeConfig s.providers u.existing.id config) s.desired) = true
  | _ => True

instance (adapters : FirewallSyncAdapters Target) (s : FirewallSyncState Target) :
    ∀ a, Decidable (RecordsWhatItPushed adapters s a)
  | .pass _ | .setWhitelist _ => inferInstanceAs (Decidable (Unmistaken ..))
  | .setRules .. => inferInstanceAs (Decidable (_ ∧ _))
  | .advance _ | .reject .. | .save _ => inferInstanceAs (Decidable (_ = true))
  | .tick | .syncNow _ | .readBans _ | .readWhitelist _ | .update .. => isTrue trivial

end BurrowGate.Firewall
