import BurrowGate.Lib.Calls

/-!
# `stream-proxy-service.ts`: the listeners of the streams

`start`, `apply`, `remove` and `reloadTlsStreams` as calls over the maps of runtimes. `apply` and
`remove` wait for their turn in the promise chain `mutations`, a ticket each; the other two run
`applyNow` at once.
-/

namespace BurrowGate.StreamProxy

open Lib Lib.Run

inductive StreamProtocol
  | tcp
  | udp
  deriving DecidableEq

/-- The columns that the listeners depend on. -/
structure StreamRecord where
  id : Nat
  incoming_port : Nat
  tcp_enabled : Bool
  udp_enabled : Bool
  forward_host : List Char
  forward_port : Nat
  certificate_id : Option (List Char)
  proxy_protocol : List Char
  incoming_proxy_protocol : Bool
  proxy_protocol_trusted_cidrs_json : List Char
  deriving DecidableEq

/-- The columns that `JSON.stringify` writes in order. -/
structure Fingerprint where
  incoming_port : Nat
  forward_host : List Char
  forward_port : Nat
  proxy_protocol : List Char
  /-- Of a TCP listener only. -/
  tcp : Option (Option (List Char) × Bool × List Char)
  deriving DecidableEq

def tcpFingerprint (record : StreamRecord) : Fingerprint :=
  ⟨record.incoming_port, record.forward_host, record.forward_port, record.proxy_protocol,
    some (record.certificate_id, record.incoming_proxy_protocol,
      record.proxy_protocol_trusted_cidrs_json)⟩

def udpFingerprint (record : StreamRecord) : Fingerprint :=
  ⟨record.incoming_port, record.forward_host, record.forward_port, record.proxy_protocol, none⟩

def StreamProtocol.fingerprint : StreamProtocol → StreamRecord → Fingerprint
  | .tcp => tcpFingerprint
  | .udp => udpFingerprint

def StreamRecord.enabled (record : StreamRecord) : StreamProtocol → Bool
  | .tcp => record.tcp_enabled
  | .udp => record.udp_enabled

/-- A TCP listener or a UDP socket; `handle` tells those of one stream apart. -/
structure Listener where
  handle : Nat
  protocol : StreamProtocol
  stream : Nat
  deriving DecidableEq

structure Runtime where
  record : StreamRecord
  fingerprint : Fingerprint
  listener : Listener
  deriving DecidableEq

/-- `apply` or `remove` was called, and has this place in the chain. -/
structure Request where
  removal : Bool
  ticket : Nat
  deriving DecidableEq

/-- `runtimes` are `tcpRuntimes` and `udpRuntimes`, `listening` what is open; `serving` is the
operation of the chain that may run, `lastRequest` the last call for a stream. -/
structure ProxyStore where
  runtimes : StreamProtocol → Nat → Option Runtime
  listening : List Listener
  nextHandle : Nat
  serving : Nat
  nextTicket : Nat
  lastRequest : Nat → Option Request

/-! ## Starting and stopping -/

def ProxyStore.setRuntime (d : ProxyStore) (p : StreamProtocol) (id : Nat)
    (runtime : Option Runtime) : ProxyStore :=
  { d with
    runtimes := fun q other => if q = p ∧ other = id then runtime else d.runtimes q other }

/-- `stopTcp` and `stopUdp` -/
def stop (d : ProxyStore) (p : StreamProtocol) (id : Nat) : ProxyStore :=
  match d.runtimes p id with
  | none => d
  | some runtime =>
      { d.setRuntime p id none with listening := d.listening.filter (· ≠ runtime.listener) }

def register (d : ProxyStore) (p : StreamProtocol) (record : StreamRecord) (listener : Listener) :
    ProxyStore :=
  d.setRuntime p record.id (some ⟨record, p.fingerprint record, listener⟩)

/-- The listener that is opened next. -/
def ProxyStore.next (d : ProxyStore) (p : StreamProtocol) (record : StreamRecord) : Listener :=
  ⟨d.nextHandle, p, record.id⟩

def openListener (d : ProxyStore) (p : StreamProtocol) (record : StreamRecord) : ProxyStore :=
  { d with listening := d.listening ++ [d.next p record], nextHandle := d.nextHandle + 1 }

/-- Where `startTcp` or `startUdp` is suspended. -/
inductive StartStage
  /-- For the certificate, or for the address of the forward host. -/
  | prepare
  /-- For the UDP socket. -/
  | create
  /-- The listener is open, and `ingress.start()` is awaited. -/
  | ingress (listener : Listener)
  /-- The promise is settled and `applyNow` has not gone on. -/
  | settled (succeeded : Bool)
  deriving DecidableEq

/-- `startTcp` from `listen` on. -/
def listenTcp (d : ProxyStore) (record : StreamRecord) (succeeds : Bool) :
    ProxyStore × StartStage :=
  if !succeeds then (d, .settled false)
  else if record.incoming_proxy_protocol then
    (openListener d .tcp record, .ingress (d.next .tcp record))
  else (register (openListener d .tcp record) .tcp record (d.next .tcp record), .settled true)

def startTcp (d : ProxyStore) (record : StreamRecord) (succeeds : Bool) :
    ProxyStore × StartStage :=
  if record.certificate_id.isSome then (d, .prepare) else listenTcp d record succeeds

/-- What the start awaits succeeds or throws. -/
def startStep (d : ProxyStore) (record : StreamRecord) (succeeds : Bool) :
    StreamProtocol → StartStage → Option (ProxyStore × StartStage)
  | .tcp, .prepare => some (listenTcp d record succeeds)
  | .udp, .prepare => some (d, if succeeds then .create else .settled false)
  | .udp, .create =>
      if !succeeds then some (d, .settled false)
      else some (register (openListener d .udp record) .udp record (d.next .udp record),
        .settled true)
  | .tcp, .ingress listener =>
      if succeeds then some (register d .tcp record listener, .settled true)
      else some ({ d with listening := d.listening.filter (· ≠ listener) }, .settled false)
  | _, _ => none

/-! ## `applyNow` -/

inductive ActivationPhase
  /-- `startTcp` or `startUdp` is awaited, for the record or in the rollback. -/
  | starting (rollback : Bool) (p : StreamProtocol) (stage : StartStage)
  /-- The error of the activation is thrown. -/
  | rejecting
  deriving DecidableEq

/-- `previous` are `previousTcp` and `previousUdp`, `changed` `tcpChanged` and `udpChanged`;
`failed` tells which start of the rollback failed. -/
structure Activation where
  record : StreamRecord
  previous : StreamProtocol → Option StreamRecord
  changed : StreamProtocol → Bool
  failed : StreamProtocol → Bool
  phase : ActivationPhase

/-- The call of `applyNow` goes on, or its promise is settled. -/
inductive Outcome
  | pending (act : Activation)
  | settled (succeeded : Bool)

def syncRuntime (record : StreamRecord) (runtime : Runtime) : Runtime :=
  { runtime with record }

def syncRecord (d : ProxyStore) (record : StreamRecord) : ProxyStore :=
  { d with
    runtimes := fun q other =>
      if other = record.id then (d.runtimes q other).map (syncRuntime record)
      else d.runtimes q other }

def Activation.starting (act : Activation) (rollback : Bool) (p : StreamProtocol)
    (stage : StartStage) : Activation :=
  { act with phase := .starting rollback p stage }

/-- The UDP part of the activation. -/
def applyUdp (d : ProxyStore) (act : Activation) : ProxyStore × Outcome :=
  if !act.record.udp_enabled then
    (syncRecord (stop d .udp act.record.id) act.record, .settled true)
  else if act.changed .udp then
    (stop d .udp act.record.id, .pending (act.starting false .udp .prepare))
  else (syncRecord d act.record, .settled true)

def applyTcp (d : ProxyStore) (act : Activation) (succeeds : Bool) : ProxyStore × Outcome :=
  if !act.record.tcp_enabled then applyUdp (stop d .tcp act.record.id) act
  else if act.changed .tcp then
    let r := startTcp (stop d .tcp act.record.id) act.record succeeds
    (r.1, .pending (act.starting false .tcp r.2))
  else applyUdp d act

def applyNow (d : ProxyStore) (record : StreamRecord) (forceTls succeeds : Bool) :
    ProxyStore × Outcome :=
  let runtime (p : StreamProtocol) := d.runtimes p record.id
  let changed (p : StreamProtocol) : Bool :=
    !record.enabled p || (p = .tcp && forceTls) ||
      (runtime p).map (·.fingerprint) ≠ some (p.fingerprint record)
  applyTcp d
    { record, previous := fun p => (runtime p).map (·.record), changed, failed := fun _ => false,
      phase := .rejecting } succeeds

/-- The UDP part of the rollback. -/
def rollbackUdp (d : ProxyStore) (act : Activation) : ProxyStore × Outcome :=
  if act.changed .udp then
    let d := stop d .udp act.record.id
    match act.previous .udp with
    | some _ => (d, .pending (act.starting true .udp .prepare))
    | none => (d, .pending { act with phase := .rejecting })
  else (d, .pending { act with phase := .rejecting })

def rollbackTcp (d : ProxyStore) (act : Activation) (succeeds : Bool) : ProxyStore × Outcome :=
  if act.changed .tcp then
    let d := stop d .tcp act.record.id
    match act.previous .tcp with
    | some previous =>
        let r := startTcp d previous succeeds
        (r.1, .pending (act.starting true .tcp r.2))
    | none => rollbackUdp d act
  else rollbackUdp d act

def Activation.restarted (act : Activation) (p : StreamProtocol) (succeeded : Bool) : Activation :=
  { act with failed := fun q => if q = p then !succeeded else act.failed q }

/-- The awaited start has succeeded or thrown. -/
def resume (d : ProxyStore) (act : Activation) (succeeds : Bool) :
    Bool → StreamProtocol → Bool → ProxyStore × Outcome
  | false, .tcp, true => applyUdp d act
  | false, .udp, true => (syncRecord d act.record, .settled true)
  | false, _, false => rollbackTcp d act succeeds
  | true, .tcp, succeeded => rollbackUdp d (act.restarted .tcp succeeded)
  | true, .udp, succeeded =>
      (d, .pending { act.restarted .udp succeeded with phase := .rejecting })

/-- The record that a start is for. -/
def Activation.target (act : Activation) (rollback : Bool) (p : StreamProtocol) : StreamRecord :=
  if rollback then (act.previous p).getD act.record else act.record

def activationStep (d : ProxyStore) (act : Activation) (succeeds : Bool) :
    Option (ProxyStore × Outcome) :=
  match act.phase with
  | .rejecting => some (d, .settled false)
  | .starting rollback p (.settled succeeded) => some (resume d act succeeds rollback p succeeded)
  | .starting rollback p stage =>
      (startStep d (act.target rollback p) succeeds p stage).map fun r =>
        (r.1, .pending (act.starting rollback p r.2))

/-! ## The calls -/

inductive Mutation
  | apply (record : StreamRecord)
  | remove (id : Nat)

def Mutation.stream : Mutation → Nat
  | .apply record => record.id
  | .remove id => id

def Mutation.removal : Mutation → Bool
  | .apply _ => false
  | .remove _ => true

/-- Who runs `applyNow`: the chain, or the loop of `start` or `reloadTlsStreams`. -/
inductive Owner
  | chain (ticket : Nat)
  | loop (rest : List StreamRecord) (forceTls : Bool)

inductive StreamCall
  /-- `apply` or `remove` -/
  | mutation (operation : Mutation)
  | queued (ticket : Nat) (operation : Mutation)
  /-- `start`, or `reloadTlsStreams`, awaits `allStreams`. -/
  | all (forceTls : Bool)
  | loop (records : List StreamRecord) (forceTls : Bool)
  | applying (owner : Owner) (act : Activation)
  | done

inductive StreamEvent
  /-- What the call awaits succeeds or throws, and so does the `listen` that follows it. -/
  | proceed (succeeds : Bool)
  | listed (records : List StreamRecord)

def StreamCall.starts : StreamCall → Bool
  | .mutation _ | .all _ => true
  | _ => false

def enqueue (d : ProxyStore) (operation : Mutation) : ProxyStore × StreamCall :=
  ({ d with
      nextTicket := d.nextTicket + 1
      lastRequest := fun id =>
        if id = operation.stream then some ⟨operation.removal, d.nextTicket⟩
        else d.lastRequest id },
    .queued d.nextTicket operation)

/-- The caller of `applyNow` goes on; an error ends `reloadTlsStreams`. -/
def settle (owner : Owner) : ProxyStore × Outcome → ProxyStore × StreamCall
  | (d, .pending act) => (d, .applying owner act)
  | (d, .settled succeeded) =>
      match owner with
      | .chain ticket => ({ d with serving := ticket + 1 }, .done)
      | .loop rest forceTls => (d, if !succeeded && forceTls then .done else .loop rest forceTls)

def removeNow (d : ProxyStore) (id ticket : Nat) : ProxyStore :=
  { stop (stop d .tcp id) .udp id with serving := ticket + 1 }

/-- `reloadTlsStreams` leaves out the streams without TLS. -/
def listed (forceTls : Bool) (record : StreamRecord) : Bool :=
  !forceTls || (record.tcp_enabled && record.certificate_id.isSome)

def callStep (d : ProxyStore) : StreamCall → StreamEvent → Option (ProxyStore × StreamCall)
  | .mutation operation, .proceed _ => some (enqueue d operation)
  | .queued ticket operation, .proceed succeeds =>
      if d.serving ≠ ticket then none
      else match operation with
        | .apply record => some (settle (.chain ticket) (applyNow d record false succeeds))
        | .remove id => some (removeNow d id ticket, .done)
  | .all forceTls, .listed records => some (d, .loop records forceTls)
  | .all _, .proceed false => some (d, .done)
  | .loop [] _, .proceed _ => some (d, .done)
  | .loop (record :: rest) forceTls, .proceed succeeds =>
      if listed forceTls record then
        some (settle (.loop rest forceTls) (applyNow d record forceTls succeeds))
      else some (d, .loop rest forceTls)
  | .applying owner act, .proceed succeeds => (activationStep d act succeeds).map (settle owner)
  | _, _ => none

abbrev ProxyState : Type := Calls.System ProxyStore StreamCall

/-- No event but those of the calls changes the store. -/
abbrev ProxyAction : Type := Calls.Action StreamCall StreamEvent Empty

def proxyStep : ProxyState → ProxyAction → Option ProxyState :=
  Calls.step StreamCall.starts callStep fun d _ => d

/-- Nothing listens and no call was made. -/
structure StartsProxy (s : ProxyState) : Prop where
  runtimes : ∀ p id, s.store.runtimes p id = none
  listening : s.store.listening = []
  chain : s.store.serving = s.store.nextTicket
  requests : ∀ id, s.store.lastRequest id = none
  calls : s.calls = []

/-! ## The law -/

/-- The last request for the stream was `remove`, and it has run. -/
def ProxyStore.removed (d : ProxyStore) (id : Nat) : Bool :=
  (d.lastRequest id).any fun r => r.removal && r.ticket < d.serving

def StreamCall.activation : StreamCall → Option Activation
  | .applying _ act => some act
  | _ => none

/-- The listener whose ingress the call starts. -/
def Activation.opening (act : Activation) : Option Listener :=
  match act.phase with
  | .starting _ _ (.ingress listener) => some listener
  | _ => none

def ProxyStore.registered (d : ProxyStore) (listener : Listener) (p : StreamProtocol) (id : Nat) :
    Prop :=
  (d.runtimes p id).map (·.listener) = some listener

structure ListenersMatch (s : ProxyState) : Prop where
  /-- A listener stands in one entry, unless its ingress is being started. -/
  entry : ∀ listener ∈ s.store.listening,
    (∃ p id, s.store.registered listener p id) ∨
      ∃ c ∈ s.calls, (c.activation.bind Activation.opening) = some listener
  unique : ∀ listener p id q other, s.store.registered listener p id →
    s.store.registered listener q other → p = q ∧ id = other
  /-- An entry is of an open listener of its stream. -/
  live : ∀ listener p id, s.store.registered listener p id →
    listener ∈ s.store.listening ∧ listener.protocol = p ∧ listener.stream = id
  one : ∀ p id, (s.store.listening.filter fun listener =>
    listener.protocol = p ∧ listener.stream = id).length ≤ 1
  removed : ∀ id, s.store.removed id = true → ∀ listener ∈ s.store.listening, listener.stream ≠ id
  /-- A rejected activation leaves the earlier record active, if it could be started again. -/
  kept : ∀ c ∈ s.calls, ∀ act, c.activation = some act → act.phase = .rejecting →
    ∀ p previous, act.previous p = some previous → act.failed p = false →
      ∃ runtime, s.store.runtimes p act.record.id = some runtime ∧ runtime.record = previous

/-! ## The condition -/

/-- The stream that the call activates or removes with its next event. -/
def StreamCall.begins (d : ProxyStore) : StreamCall → Option Nat
  | .queued ticket operation => if d.serving = ticket then some operation.stream else none
  | .loop (record :: _) forceTls => if listed forceTls record then some record.id else none
  | _ => none

def StreamCall.loops : StreamCall → Bool
  | .loop .. => true
  | _ => false

/-- No call activates the stream. -/
def Quiet (s : ProxyState) (id : Nat) : Bool :=
  s.calls.all fun c => c.activation.all fun act => act.record.id ≠ id

/-- An activation or a removal begins while none of the stream is under way, and `start` and
`reloadTlsStreams` do not activate a stream that was removed. -/
def BeginsAlone (s : ProxyState) : ProxyAction → Prop
  | .call i _ =>
      (s.calls[i]?.all fun c => (c.begins s.store).all fun id =>
        Quiet s id && !(c.loops && s.store.removed id)) = true
  | _ => True

instance (s : ProxyState) : ∀ a, Decidable (BeginsAlone s a)
  | .call _ _ => inferInstanceAs (Decidable (_ = true))
  | .start _ => isTrue trivial
  | .world w => w.elim

end BurrowGate.StreamProxy
