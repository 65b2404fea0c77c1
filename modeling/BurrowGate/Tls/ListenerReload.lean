import BurrowGate.Lib.Run
import Mathlib.Data.List.Basic

/-!
# `tls-listener-service.ts`: reloading the HTTPS listener

The certificate store, `reloadHttps` with its suspensions, the calls of `requestTlsReload`
that wait for it, and the listeners. `version` counts the changes committed to the store. A
listener counts as open from the moment `serve` has returned it.
-/

namespace BurrowGate.Tls

open Lib.Run

structure TlsCertificateOption where
  serverName : List Char
  key : List Char
  cert : List Char
  deriving DecidableEq

/-- `managedAt` and `bootstrapAt` are the versions of the store that were read. -/
structure StoppableServer where
  id : Nat
  tls : List TlsCertificateOption
  managedAt : Nat
  bootstrapAt : Nat
  deriving DecidableEq

/-- Where `replaceHttpsListener` is suspended. -/
inductive ReloadStage
  | managedCertificates
  | bootstrapCertificate (managed : List TlsCertificateOption) (managedAt : Nat)
  | serve (tls : List TlsCertificateOption) (managedAt bootstrapAt : Nat)
      (previous : Option StoppableServer)
  /-- The promise is settled and `finally` has not run yet. -/
  | settled (succeeded : Bool)

/-- A call of `requestTlsReload` that resolved: the version of the store when it started and
the listener that is active when it resolves. -/
structure ResolvedReload where
  startedAt : Nat
  active : Option StoppableServer
  deriving DecidableEq

/-- A replacement that could not be started: the listener before and after. -/
structure FailedReplacement where
  previous : Option StoppableServer
  active : Option StoppableServer
  deriving DecidableEq

/-- `waiting` are the calls that wait for the reload, by the version at their start;
`resolved` and `failed` are the history. -/
structure TlsState where
  managed : List TlsCertificateOption
  bootstrap : Option TlsCertificateOption
  version : Nat
  httpsServer : Option StoppableServer
  drainingServers : List StoppableServer
  openServers : List StoppableServer
  reloading : Option ReloadStage
  waiting : List Nat
  nextId : Nat
  resolved : List ResolvedReload
  failed : List FailedReplacement

inductive TlsAction
  /-- A change of the certificates is committed. -/
  | change (managed : List TlsCertificateOption) (bootstrap : Option TlsCertificateOption)
  | requestTlsReload
  /-- The certificates are read, or the read throws. -/
  | managedCertificates (succeeds : Bool)
  | bootstrapCertificate (succeeds : Bool)
  /-- `serve` returns the replacement or throws. -/
  | serve (succeeds : Bool)
  /-- `finally` runs and the calls that waited go on. -/
  | settle
  /-- `stop(false)` of a draining listener resolves or rejects. -/
  | stopped (server : StoppableServer) (succeeds : Bool)

def TlsState.drainServer (s : TlsState) (previous : Option StoppableServer) : TlsState :=
  { s with drainingServers := s.drainingServers ++ previous.toList }

/-- `reloadHttps`: a call joins the reload that is running. -/
def reloadHttps (s : TlsState) : TlsState :=
  { s with
    reloading := s.reloading.or (some .managedCertificates)
    waiting := s.waiting ++ [s.version] }

/-- `replaceHttpsListener` from the certificates on. -/
def withCertificates (s : TlsState) (managed : List TlsCertificateOption) (managedAt : Nat) :
    TlsState :=
  let tls := s.bootstrap.toList ++ managed
  if tls = [] then
    { s with httpsServer := none, reloading := some (.settled true) }.drainServer s.httpsServer
  else { s with reloading := some (.serve tls managedAt s.version s.httpsServer) }

def activate (s : TlsState) (tls : List TlsCertificateOption) (managedAt bootstrapAt : Nat)
    (previous : Option StoppableServer) : TlsState :=
  let replacement : StoppableServer := ⟨s.nextId, tls, managedAt, bootstrapAt⟩
  { s with
    httpsServer := some replacement
    openServers := s.openServers ++ [replacement]
    nextId := s.nextId + 1
    reloading := some (.settled true) }.drainServer previous

/-- The calls that waited for the reload go on. -/
def settle (s : TlsState) (succeeded : Bool) : TlsState :=
  { s with
    reloading := none
    waiting := []
    resolved := s.resolved ++
      (if succeeded then s.waiting.map fun startedAt => ⟨startedAt, s.httpsServer⟩ else []) }

def tlsStep (s : TlsState) : TlsAction → Option TlsState
  | .change managed bootstrap => some { s with managed, bootstrap, version := s.version + 1 }
  | .requestTlsReload => some (reloadHttps s)
  | .managedCertificates succeeds =>
      match s.reloading with
      | some .managedCertificates =>
          if succeeds then
            some { s with reloading := some (.bootstrapCertificate s.managed s.version) }
          else some { s with reloading := some (.settled false) }
      | _ => none
  | .bootstrapCertificate succeeds =>
      match s.reloading with
      | some (.bootstrapCertificate managed managedAt) =>
          if succeeds then some (withCertificates s managed managedAt)
          else some { s with reloading := some (.settled false) }
      | _ => none
  | .serve succeeds =>
      match s.reloading with
      | some (.serve tls managedAt bootstrapAt previous) =>
          if succeeds then some (activate s tls managedAt bootstrapAt previous)
          else some
            { s with
              reloading := some (.settled false)
              failed := s.failed ++ [⟨previous, s.httpsServer⟩] }
      | _ => none
  | .settle =>
      match s.reloading with
      | some (.settled succeeded) => some (settle s succeeded)
      | _ => none
  | .stopped server succeeds =>
      if s.drainingServers.contains server then
        some
          { s with
            drainingServers := s.drainingServers.filter (· ≠ server)
            -- After a rejected stop the listener may still accept connections.
            openServers := if succeeds then s.openServers.filter (· ≠ server) else s.openServers }
      else none

def StartsTls (s : TlsState) : Prop :=
  s.httpsServer = none ∧ s.drainingServers = [] ∧ s.openServers = [] ∧ s.reloading = none ∧
    s.waiting = [] ∧ s.resolved = [] ∧ s.failed = []

/-! ## The property -/

/-- What resolved reloads, failed replacements and open listeners promise. Without certificates a
reload leaves no active listener, and then `reloaded` has nothing to say. -/
structure ListenersCurrent (s : TlsState) : Prop where
  reloaded : ∀ r ∈ s.resolved, ∀ server, r.active = some server →
    r.startedAt ≤ server.managedAt ∧ r.startedAt ≤ server.bootstrapAt
  kept : ∀ f ∈ s.failed, f.active = f.previous
  accounted : ∀ server ∈ s.openServers,
    s.httpsServer = some server ∨ server ∈ s.drainingServers

/-- What the reload has read, or is yet to read, are the certificates of the store. -/
def ReadsCurrent (s : TlsState) : ReloadStage → Bool
  | .managedCertificates => true
  | .bootstrapCertificate _ managedAt => managedAt = s.version
  | .serve _ managedAt _ _ => managedAt = s.version
  | .settled _ => s.httpsServer.all fun server => server.managedAt = s.version

/-- A request joins a reload only while the certificates that it has read are current, and no
draining listener fails to stop. -/
def JoinsCurrentReload (s : TlsState) : TlsAction → Prop
  | .requestTlsReload => s.reloading.all (ReadsCurrent s)
  | .stopped _ succeeds => succeeds = true
  | _ => True

instance (s : TlsState) : ∀ a, Decidable (JoinsCurrentReload s a)
  | .requestTlsReload => inferInstanceAs (Decidable (_ = true))
  | .stopped _ _ => inferInstanceAs (Decidable (_ = true))
  | .change .. | .managedCertificates _ | .bootstrapCertificate _ | .serve _ | .settle =>
      isTrue trivial

variable {s s' : TlsState} {a : TlsAction}

/-! ## The invariant -/

/-- The listener was built from certificates read at a version or later. -/
def StoppableServer.ReadSince (server : StoppableServer) (startedAt : Nat) : Prop :=
  startedAt ≤ server.managedAt ∧ startedAt ≤ server.bootstrapAt

/-- What a call that waits may expect of the reload at its stage. -/
def Expects (s : TlsState) (startedAt : Nat) : ReloadStage → Prop
  | .managedCertificates => True
  | .bootstrapCertificate _ managedAt => startedAt ≤ managedAt
  | .serve _ managedAt _ _ => startedAt ≤ managedAt
  | .settled succeeded =>
      succeeded = true → ∀ server, s.httpsServer = some server → server.ReadSince startedAt

/-- The bootstrap certificate is read after the managed ones, both in the past. -/
def ReloadStage.Ordered (version : Nat) : ReloadStage → Prop
  | .bootstrapCertificate _ managedAt => managedAt ≤ version
  | .serve _ managedAt bootstrapAt _ => managedAt ≤ bootstrapAt ∧ bootstrapAt ≤ version
  | _ => True

structure Reloads (s : TlsState) : Prop where
  current : ListenersCurrent s
  started : ∀ startedAt ∈ s.waiting, startedAt ≤ s.version
  idle : s.reloading = none → s.waiting = []
  expected : ∀ stage, s.reloading = some stage → ∀ startedAt ∈ s.waiting, Expects s startedAt stage
  ordered : ∀ stage, s.reloading = some stage → stage.Ordered s.version
  active : ∀ server, s.httpsServer = some server → server.managedAt ≤ server.bootstrapAt
  previous : ∀ tls managedAt bootstrapAt previous,
    s.reloading = some (.serve tls managedAt bootstrapAt previous) → previous = s.httpsServer

/-- A call that joins a reload that reads the current certificates may expect them. -/
theorem Reloads.expects_version (h : Reloads s) {stage : ReloadStage}
    (hstage : s.reloading = some stage) (hcurrent : ReadsCurrent s stage = true) :
    Expects s s.version stage := by
  cases stage with
  | managedCertificates => exact trivial
  | bootstrapCertificate managed managedAt => exact Nat.le_of_eq (of_decide_eq_true hcurrent).symm
  | serve tls managedAt bootstrapAt previous =>
      exact Nat.le_of_eq (of_decide_eq_true hcurrent).symm
  | settled succeeded =>
      intro _ server hserver
      rw [ReadsCurrent, hserver, Option.all_some, decide_eq_true_iff] at hcurrent
      have hread := h.active server hserver
      exact ⟨by omega, by omega⟩

theorem Reloads.requestTlsReload (h : Reloads s)
    (hc : JoinsCurrentReload s .requestTlsReload) : Reloads (reloadHttps s) := by
  have hstages : ∀ stage, (reloadHttps s).reloading = some stage →
      stage = .managedCertificates ∧ s.waiting = [] ∨ s.reloading = some stage := by
    intro stage hstage
    cases hreloading : s.reloading with
    | none =>
        rw [reloadHttps, hreloading, Option.none_or] at hstage
        exact .inl ⟨(Option.some.inj hstage).symm, h.idle hreloading⟩
    | some running =>
        rw [reloadHttps, hreloading, Option.some_or] at hstage
        exact .inr hstage
  refine ⟨⟨h.current.reloaded, h.current.kept, h.current.accounted⟩, ?_, ?_, ?_, ?_, h.active, ?_⟩
  · intro startedAt hmem
    rcases List.mem_snoc.mp hmem with hold | hnew
    · exact h.started startedAt hold
    · exact Nat.le_of_eq hnew
  · intro hidle
    cases hreloading : s.reloading with
    | none => simp [reloadHttps, hreloading] at hidle
    | some stage => simp [reloadHttps, hreloading] at hidle
  · intro stage hstage startedAt hmem
    rcases hstages stage hstage with ⟨rfl, -⟩ | hrunning
    · exact trivial
    · rcases List.mem_snoc.mp hmem with hold | rfl
      · exact h.expected stage hrunning startedAt hold
      · rw [JoinsCurrentReload, hrunning, Option.all_some] at hc
        exact h.expects_version hrunning hc
  · intro stage hstage
    rcases hstages stage hstage with ⟨rfl, -⟩ | hrunning
    · exact trivial
    · exact h.ordered stage hrunning
  · intro tls managedAt bootstrapAt previous hstage
    rcases hstages _ hstage with ⟨hstage, -⟩ | hrunning
    · cases hstage
    · exact h.previous _ _ _ _ hrunning

theorem Reloads.change (h : Reloads s) (managed : List TlsCertificateOption)
    (bootstrap : Option TlsCertificateOption) :
    Reloads { s with managed, bootstrap, version := s.version + 1 } where
  current := ⟨h.current.reloaded, h.current.kept, h.current.accounted⟩
  started startedAt hmem := Nat.le_succ_of_le (h.started startedAt hmem)
  idle := h.idle
  expected stage hstage startedAt hmem := by
    have hold := h.expected stage hstage startedAt hmem
    cases stage <;> exact hold
  ordered stage hstage := by
    have hold := h.ordered stage hstage
    cases stage with
    | managedCertificates => exact trivial
    | bootstrapCertificate managed managedAt => exact Nat.le_succ_of_le hold
    | serve tls managedAt bootstrapAt previous => exact ⟨hold.1, Nat.le_succ_of_le hold.2⟩
    | settled succeeded => exact trivial
  active := h.active
  previous := h.previous

/-- A reload that goes on to a stage with the listeners as they are. -/
theorem Reloads.goOn {stage stage' : ReloadStage} (h : Reloads s)
    (hstage : s.reloading = some stage)
    (hexpected : ∀ startedAt, startedAt ≤ s.version → Expects s startedAt stage →
      Expects s startedAt stage')
    (hordered : stage'.Ordered s.version)
    (hprevious : ∀ tls managedAt bootstrapAt previous,
      stage' = .serve tls managedAt bootstrapAt previous → previous = s.httpsServer) :
    Reloads { s with reloading := some stage' } where
  current := ⟨h.current.reloaded, h.current.kept, h.current.accounted⟩
  started := h.started
  idle hidle := by cases hidle
  expected next hnext startedAt hmem := by
    obtain rfl := Option.some.inj hnext
    have hold := hexpected startedAt (h.started startedAt hmem)
      (h.expected stage hstage startedAt hmem)
    cases stage' <;> exact hold
  ordered next hnext := by
    obtain rfl := Option.some.inj hnext
    exact hordered
  active := h.active
  previous tls managedAt bootstrapAt previous hnext := by
    exact hprevious tls managedAt bootstrapAt previous (Option.some.inj hnext)

/-- A reload that throws leaves the listeners as they are. -/
theorem Reloads.fail {stage : ReloadStage} (h : Reloads s) (hstage : s.reloading = some stage) :
    Reloads { s with reloading := some (.settled false) } := by
  refine h.goOn hstage ?_ trivial ?_
  · intro _ _ _ hsucceeded
    cases hsucceeded
  · intro _ _ _ _ hserve
    cases hserve

/-- Draining the listener that was active leaves every open listener accounted for. -/
theorem accounted_drain
    (h : ∀ server ∈ s.openServers, s.httpsServer = some server ∨ server ∈ s.drainingServers)
    {server : StoppableServer} (hmem : server ∈ s.openServers) :
    server ∈ s.drainingServers ++ s.httpsServer.toList := by
  rw [List.mem_append]
  rcases h server hmem with hactive | hdraining
  · rw [hactive]
    exact .inr (List.mem_singleton.mpr rfl)
  · exact .inl hdraining

theorem Reloads.withCertificates {managed : List TlsCertificateOption} {managedAt : Nat}
    (h : Reloads s) (hstage : s.reloading = some (.bootstrapCertificate managed managedAt)) :
    Reloads (withCertificates s managed managedAt) := by
  rw [Tls.withCertificates]
  split
  · refine ⟨⟨h.current.reloaded, h.current.kept, fun server hmem => .inr ?_⟩, h.started,
      (fun hidle => by cases hidle), ?_, ?_, (fun _ hserver => by cases hserver), ?_⟩
    · exact accounted_drain h.current.accounted hmem
    · intro stage hnext _ _
      obtain rfl := Option.some.inj hnext
      intro _ server hserver
      cases hserver
    · intro stage hnext
      obtain rfl := Option.some.inj hnext
      exact trivial
    · intro _ _ _ _ hnext
      cases hnext
  · refine h.goOn hstage (fun _ _ hold => hold) ⟨h.ordered _ hstage, Nat.le_refl _⟩ ?_
    intro tls managedAt bootstrapAt previous hserve
    injection hserve with _ _ _ hprevious
    exact hprevious.symm

theorem Reloads.activate {tls : List TlsCertificateOption} {managedAt bootstrapAt : Nat}
    {previous : Option StoppableServer} (h : Reloads s)
    (hstage : s.reloading = some (.serve tls managedAt bootstrapAt previous)) :
    Reloads (activate s tls managedAt bootstrapAt previous) := by
  obtain rfl := h.previous _ _ _ _ hstage
  obtain ⟨hordered, -⟩ := h.ordered _ hstage
  refine ⟨⟨h.current.reloaded, h.current.kept, fun server hmem => ?_⟩, h.started,
    (fun hidle => by cases hidle), ?_, ?_, ?_, ?_⟩
  · rcases List.mem_snoc.mp hmem with hold | rfl
    · exact .inr (accounted_drain h.current.accounted hold)
    · exact .inl rfl
  · intro stage hnext startedAt hmem
    obtain rfl := Option.some.inj hnext
    intro _ server hserver
    obtain rfl := Option.some.inj hserver
    have hstarted : startedAt ≤ managedAt := h.expected _ hstage startedAt hmem
    exact ⟨hstarted, Nat.le_trans hstarted hordered⟩
  · intro stage hnext
    obtain rfl := Option.some.inj hnext
    exact trivial
  · intro server hserver
    obtain rfl := Option.some.inj hserver
    exact hordered
  · intro _ _ _ _ hnext
    cases hnext

theorem Reloads.settle {succeeded : Bool} (h : Reloads s)
    (hstage : s.reloading = some (.settled succeeded)) : Reloads (settle s succeeded) := by
  refine ⟨⟨fun r hr server hserver => ?_, h.current.kept, h.current.accounted⟩,
    (fun _ hmem => by cases hmem), fun _ => rfl, (fun _ hnext => by cases hnext),
    (fun _ hnext => by cases hnext), h.active, (fun _ _ _ _ hnext => by cases hnext)⟩
  rcases List.mem_append.mp hr with hold | hnew
  · exact h.current.reloaded r hold server hserver
  · split at hnew
    · rename_i hsucceeded
      obtain ⟨startedAt, hmem, rfl⟩ := List.mem_map.mp hnew
      exact h.expected _ hstage startedAt hmem hsucceeded server hserver
    · cases hnew

theorem Reloads.step (h : Reloads s) (hc : JoinsCurrentReload s a) (hstep : tlsStep s a = some s') :
    Reloads s' := by
  cases a with
  | change managed bootstrap =>
      obtain rfl := Option.some.inj hstep
      exact h.change managed bootstrap
  | requestTlsReload =>
      obtain rfl := Option.some.inj hstep
      exact h.requestTlsReload hc
  | managedCertificates succeeds =>
      simp only [tlsStep] at hstep
      split at hstep
      case h_2 => cases hstep
      rename_i hstage
      cases succeeds with
      | true =>
          obtain rfl := Option.some.inj hstep
          refine h.goOn hstage (fun _ hstarted _ => hstarted) (Nat.le_refl _) ?_
          intro _ _ _ _ hserve
          cases hserve
      | false =>
          obtain rfl := Option.some.inj hstep
          exact h.fail hstage
  | bootstrapCertificate succeeds =>
      simp only [tlsStep] at hstep
      split at hstep
      case h_2 => cases hstep
      rename_i hstage
      cases succeeds with
      | true =>
          obtain rfl := Option.some.inj hstep
          exact h.withCertificates hstage
      | false =>
          obtain rfl := Option.some.inj hstep
          exact h.fail hstage
  | serve succeeds =>
      simp only [tlsStep] at hstep
      split at hstep
      case h_2 => cases hstep
      rename_i hstage
      cases succeeds with
      | true =>
          obtain rfl := Option.some.inj hstep
          exact h.activate hstage
      | false =>
          obtain rfl := Option.some.inj hstep
          have hfailed := h.fail hstage
          refine ⟨⟨hfailed.current.reloaded, fun f hf => ?_, hfailed.current.accounted⟩,
            hfailed.started, hfailed.idle, ?_, hfailed.ordered, hfailed.active, hfailed.previous⟩
          · rcases List.mem_snoc.mp hf with hold | rfl
            · exact h.current.kept f hold
            · exact (h.previous _ _ _ _ hstage).symm
          · intro stage hnext startedAt hmem
            obtain rfl := Option.some.inj hnext
            intro hsucceeded
            cases hsucceeded
  | settle =>
      simp only [tlsStep] at hstep
      split at hstep
      case h_2 => cases hstep
      rename_i hstage
      obtain rfl := Option.some.inj hstep
      exact h.settle hstage
  | stopped server succeeds =>
      obtain rfl : succeeds = true := hc
      simp only [tlsStep] at hstep
      split at hstep
      case isFalse => cases hstep
      obtain rfl := Option.some.inj hstep
      refine ⟨⟨h.current.reloaded, h.current.kept, fun other hmem => ?_⟩, h.started, h.idle, ?_,
        h.ordered, h.active, h.previous⟩
      · obtain ⟨hopen, hne⟩ := List.mem_filter.mp hmem
        rcases h.current.accounted other hopen with hactive | hdraining
        · exact .inl hactive
        · exact .inr (List.mem_filter.mpr ⟨hdraining, hne⟩)
      · intro stage hstage startedAt hmem
        have hold := h.expected stage hstage startedAt hmem
        cases stage <;> exact hold

/-- A resolved reload has activated certificates that are no older than the request, a failed
replacement leaves the listener, and every open listener is active or draining. -/
theorem certificate_reload_kept
    (h : Reach tlsStep JoinsCurrentReload StartsTls s) : ListenersCurrent s := by
  have hreloads : Reloads s := by
    refine h.invariant (I := Reloads) ?_ ?_
    · rintro s ⟨hserver, hdraining, hopen, hreloading, hwaiting, hresolved, hfailed⟩
      refine ⟨⟨?_, ?_, ?_⟩, ?_, fun _ => hwaiting, ?_, ?_, ?_, ?_⟩
      · rw [hresolved]
        exact fun _ hr => (by cases hr)
      · rw [hfailed]
        exact fun _ hf => (by cases hf)
      · rw [hopen]
        exact fun _ hmem => (by cases hmem)
      · rw [hwaiting]
        exact fun _ hmem => (by cases hmem)
      · rw [hreloading]
        exact fun _ hstage => (by cases hstage)
      · rw [hreloading]
        exact fun _ hstage => (by cases hstage)
      · rw [hserver]
        exact fun _ hactive => (by cases hactive)
      · rw [hreloading]
        exact fun _ _ _ _ hstage => (by cases hstage)
    · intro s a s' _ hs hc hstep
      exact hs.step hc hstep
  exact hreloads.current

/-! ## Runs -/

def exampleCertificate (serverName : List Char) : TlsCertificateOption :=
  ⟨serverName, "key".toList, "cert".toList⟩

def exampleStart : TlsState where
  managed := [exampleCertificate "a.example".toList]
  bootstrap := none
  version := 0
  httpsServer := none
  drainingServers := []
  openServers := []
  reloading := none
  waiting := []
  nextId := 0
  resolved := []
  failed := []

/-- A second request joins a reload that has not read yet; the third replaces the listener. -/
def reloadedTwice : List TlsAction :=
  [.requestTlsReload, .change [exampleCertificate "b.example".toList] none, .requestTlsReload,
    .managedCertificates true, .bootstrapCertificate true, .serve true, .settle,
    .change [exampleCertificate "c.example".toList] none, .requestTlsReload,
    .managedCertificates true, .bootstrapCertificate true, .serve true, .settle,
    .stopped ⟨0, [exampleCertificate "b.example".toList], 1, 1⟩ true]

theorem certificate_reload_kept_twice :
    ∃ s, execIf tlsStep JoinsCurrentReload exampleStart reloadedTwice = some s ∧
      s.resolved.length = 3 ∧ s.openServers.length = 1 ∧ ListenersCurrent s := by
  obtain ⟨s, hs, hcounts⟩ := (Option.any_eq_true ..).mp
    (show (execIf tlsStep JoinsCurrentReload exampleStart reloadedTwice).any
      (fun s => s.resolved.length = 3 ∧ s.openServers.length = 1) = true by decide +kernel)
  obtain ⟨hresolved, hopen⟩ := of_decide_eq_true hcounts
  exact ⟨s, hs, hresolved, hopen, certificate_reload_kept
    (execIf_reach (.start ⟨rfl, rfl, rfl, rfl, rfl, rfl, rfl⟩) hs)⟩

/-- A certificate is changed while the replacement starts, and its reload joins. -/
def changedWhileStarting : List TlsAction :=
  [.requestTlsReload, .managedCertificates true, .bootstrapCertificate true,
    .change [exampleCertificate "b.example".toList] none, .requestTlsReload, .serve true, .settle]

theorem stale_certificate_served :
    ¬ ∀ s, Reach tlsStep Any StartsTls s → ListenersCurrent s := by
  intro h
  obtain ⟨s, hs, hstale⟩ := (Option.any_eq_true ..).mp
    (show (exec tlsStep exampleStart changedWhileStarting).any
      (fun s => s.resolved.any fun r => r.active.any fun server => server.managedAt < r.startedAt)
        = true by decide +kernel)
  obtain ⟨r, hr, hactive⟩ := List.any_eq_true.mp hstale
  have hcurrent := h s (exec_reach (.start ⟨rfl, rfl, rfl, rfl, rfl, rfl, rfl⟩) hs)
  cases hserver : r.active with
  | none =>
      rw [hserver] at hactive
      cases hactive
  | some server =>
      rw [hserver] at hactive
      exact absurd (hcurrent.reloaded r hr server hserver).1
        (Nat.not_le.mpr (of_decide_eq_true hactive))

end BurrowGate.Tls
