import BurrowGate.Stream.ConnectionLimits

/-!
# What `enforceNetworkPolicy` leaves open

Every connection is listed when the sweep begins or evaluated under the new rules. UDP peers
are listed after the TCP loop, and an admission that was evaluated under the old rules may
insert its peer after that. `Covered` excludes this and what would make an evaluation see
something else than the new rules: a load that fails, and a rule that expires.
-/

namespace BurrowGate.Stream

open Lib
open Lib.Run Lib.Lists
open Network

variable {geo : GeoIp} {config : StreamsConfig} {stream : StreamRecord} {s s' : StreamState}
  {a : StreamAction} {T now : Int} {ip : List Char} {rules : NetworkRules StreamRuleAction}
  {defaults : NetworkDefaults} {evaluation : Evaluation} {r r' : UdpRuntime}

/-! ## Time -/

/-- The same rules are unexpired at both times. -/
def SameActive (rules : NetworkRules StreamRuleAction) (now T : Int) : Prop :=
  (∀ rule ∈ rules.ipRules, active rule.expiresAt now = active rule.expiresAt T) ∧
    (∀ rule ∈ rules.countryRules, active rule.expiresAt now = active rule.expiresAt T) ∧
      ∀ rule ∈ rules.asnRules, active rule.expiresAt now = active rule.expiresAt T
  deriving Decidable

theorem filter_congr_option {α : Type*} {x : Option α} {q q' : α → Bool}
    (h : ∀ y ∈ x, q y = q' y) : x.filter q = x.filter q' := by
  cases x with
  | none => rfl
  | some y => rw [Option.filter_some, Option.filter_some, h y rfl]

theorem mem_of_mem_cachedIpRules {item : CachedIpRule StreamRuleAction}
    (h : item ∈ cachedIpRules rules) : item.rule ∈ rules.ipRules := by
  rw [cachedIpRules, List.mem_mergeSort] at h
  obtain ⟨rule, hrule, hparsed⟩ := List.mem_filterMap.mp h
  obtain ⟨cidr, _, rfl⟩ := Option.map_eq_some_iff.mp hparsed
  exact hrule

theorem matchNetwork_congr {policy : NetworkPolicy StreamRuleAction}
    (h : SameActive policy.rules now T) (ip : List Char) (located : Located) :
    matchNetwork policy now ip located = matchNetwork policy T ip located := by
  obtain ⟨hip, hcountry, hasn⟩ := h
  have hfind : findIpRule policy.rules now ip = findIpRule policy.rules T ip := by
    have hitems : (cachedIpRules policy.rules).filter (applies now ip) =
        (cachedIpRules policy.rules).filter (applies T ip) := by
      refine List.filter_congr fun item hitem => ?_
      rw [applies, applies, hip item.rule (mem_of_mem_cachedIpRules hitem)]
    rw [findIpRule, findIpRule, ← List.head?_filter, hitems, List.head?_filter]
  have hfindAsn : ∀ asn, findAsnRule policy.rules now asn = findAsnRule policy.rules T asn := by
    intro asn
    refine filter_congr_option fun rule hrule => hasn rule ?_
    exact List.mem_reverse.mp (List.mem_of_find?_eq_some hrule)
  have hfindCountry : ∀ code,
      findCountryRule policy.rules now code = findCountryRule policy.rules T code := by
    intro code
    refine filter_congr_option fun rule hrule => hcountry rule ?_
    exact List.mem_reverse.mp (List.mem_of_find?_eq_some hrule)
  have hmatchCountry : matchCountry policy now = matchCountry policy T := by
    funext code
    rw [matchCountry, matchCountry, hfindCountry]
  rw [matchNetwork, matchNetwork, hfind, hmatchCountry]
  simp only [hfindAsn]

theorem evaluateStreamIp_congr {policy : NetworkPolicy StreamRuleAction}
    (h : SameActive policy.rules now T) (ip : List Char) :
    evaluateStreamIp geo policy now ip = evaluateStreamIp geo policy T ip := by
  rw [evaluateStreamIp, evaluateStreamIp, matchNetwork_congr h]

/-- `evaluateStreamIp` blocks the address under the rules and the record of the state. -/
def Blocked (geo : GeoIp) (stream : StreamRecord) (T : Int) (s : StreamState)
    (ip : List Char) : Prop :=
  (evaluateStreamIp geo (policyOf stream s.rules s.defaults) T ip).action = some .block
  deriving Decidable

/-! ## The condition -/

/-- No admission from before the sweep is under way for an address that is now blocked. -/
def NoneInFlight (geo : GeoIp) (stream : StreamRecord) (T : Int) (s : StreamState) : Prop :=
  (∀ creation ∈ s.creations, creation.state = .connecting →
    ¬ Blocked geo stream T s creation.key.1) ∧
  ∀ admission ∈ s.admissions, admission.evaluated = false →
    admission.evaluation.current = false → ¬ Blocked geo stream T s admission.clientIp
  deriving Decidable

/-- After `enforceNetworkPolicy` took over the record, no load of the new rules fails and no
rule is seen that is expired at `T` or the other way; when the UDP peers are listed no old
admission of a blocked address is under way. -/
def Covered (geo : GeoIp) (stream : StreamRecord) (T : Int) (s : StreamState) :
    StreamAction → Prop
  | .loadFails l => s.sweep.started = true → l < s.firstLoad
  | .nextTarget now => SameActive s.rules now T ∧
      (s.sweep = .tcp [] none → NoneInFlight geo stream T s)
  | .openTcp _ now => s.sweep.started = true → SameActive s.rules now T
  | .arriveUdp _ _ now => s.sweep.started = true → SameActive s.rules now T
  | _ => True

instance (geo : GeoIp) (stream : StreamRecord) (T : Int) (s : StreamState) :
    ∀ a, Decidable (Covered geo stream T s a)
  | .loadFails l => inferInstanceAs (Decidable (s.sweep.started = true → l < s.firstLoad))
  | .nextTarget now => inferInstanceAs (Decidable (SameActive s.rules now T ∧
      (s.sweep = .tcp [] none → NoneInFlight geo stream T s)))
  | .openTcp _ now => inferInstanceAs
      (Decidable (s.sweep.started = true → SameActive s.rules now T))
  | .arriveUdp _ _ now => inferInstanceAs
      (Decidable (s.sweep.started = true → SameActive s.rules now T))
  | .readRows .. | .changeRules .. | .syncRecord .. | .enforceNetworkPolicy .. |
    .targetEvaluated .. | .admitTcp .. | .finishTcp .. | .handleUdpData .. | .peerCreated .. |
    .peerFailed .. | .peerSettled .. | .traffic .. => isTrue trivial

/-! ## Evaluations see the new rules -/

/-- The loads since the last change have read nothing else, and the cache has one of them. -/
structure LoadsFresh (s : StreamState) : Prop where
  rows : ∀ l load, s.loads[l]? = some load → s.firstLoad ≤ l →
    (∀ rows ∈ load.ipRows, rows = s.rules) ∧ (∀ rows ∈ load.countryRows, rows = s.rules) ∧
      ∀ rows ∈ load.asnRows, rows = s.rules
  cached : ∀ l ∈ s.ruleCache, s.firstLoad ≤ l ∧
    ∃ load, s.loads[l]? = some load ∧ load.failed = false

/-- A call made since the sweep began waits for the new rules and has the new record. -/
def Current (T : Int) (s : StreamState) (evaluation : Evaluation) : Prop :=
  evaluation.current = true → s.sweep.started = true ∧ evaluation.defaults = s.defaults ∧
    SameActive s.rules evaluation.now T ∧ s.firstLoad ≤ evaluation.load ∧
      ∃ load, s.loads[evaluation.load]? = some load ∧ load.failed = false

theorem rules_of_rows {load : RuleLoad} {loaded : NetworkRules StreamRuleAction}
    (hip : ∀ rows ∈ load.ipRows, rows = rules) (hcountry : ∀ rows ∈ load.countryRows, rows = rules)
    (hasn : ∀ rows ∈ load.asnRows, rows = rules) (h : load.rules = some loaded) :
    loaded = rules := by
  rw [RuleLoad.rules] at h
  split at h
  · rename_i ip country asn hipRows hcountryRows hasnRows
    obtain rfl := hip ip hipRows
    obtain rfl := hcountry country hcountryRows
    obtain rfl := hasn asn hasnRows
    obtain rfl := Option.some.inj h
    rfl
  · cases h

/-- What a call since the sweep began lets through is not blocked. -/
theorem not_blocked_of_current (hloads : LoadsFresh s) (hcurrent : Current T s evaluation)
    (hnow : evaluation.current = true) {decision : Option StreamNetworkDecision} {other : Bool}
    (hdecision : s.decision geo stream evaluation ip = some decision)
    (hpassed : networkBlocked decision other = false) : ¬ Blocked geo stream T s ip := by
  obtain ⟨_, hdefaults, hsame, hfirst, load, hload, hfailed⟩ := hcurrent hnow
  obtain ⟨hip, hcountry, hasn⟩ := hloads.rows evaluation.load load hload hfirst
  rw [StreamState.decision, hload] at hdecision
  dsimp only at hdecision
  rw [hfailed] at hdecision
  obtain ⟨loaded, hloaded, rfl⟩ := Option.map_eq_some_iff.mp hdecision
  obtain rfl := rules_of_rows hip hcountry hasn hloaded
  intro hblocked
  rw [networkBlocked, Bool.or_eq_false_iff] at hpassed
  refine of_decide_eq_false hpassed.1 ?_
  have hsameDecision : evaluateStreamIp geo (policyOf stream s.rules s.defaults) evaluation.now ip =
      evaluateStreamIp geo (policyOf stream s.rules s.defaults) T ip :=
    evaluateStreamIp_congr hsame ip
  rw [hdefaults, hsameDecision]
  exact hblocked

/-! ## Loads -/

theorem rulesForStream_policy (s : StreamState) : s.rulesForStream.rules = s.rules ∧
    s.rulesForStream.defaults = s.defaults ∧ s.rulesForStream.firstLoad = s.firstLoad ∧
      s.rulesForStream.sweep = s.sweep ∧ s.rulesForStream.tcpConnections = s.tcpConnections ∧
        s.rulesForStream.admissions = s.admissions := by
  rw [StreamState.rulesForStream]
  split
  · exact ⟨rfl, rfl, rfl, rfl, rfl, rfl⟩
  · exact ⟨rfl, rfl, rfl, rfl, rfl, rfl⟩

theorem rulesForStream_loads (s : StreamState) {l : Nat} {load : RuleLoad}
    (h : s.loads[l]? = some load) : s.rulesForStream.loads[l]? = some load := by
  rw [StreamState.rulesForStream]
  split
  · exact h
  · exact (List.getElem?_append_left (List.getElem?_eq_some_iff.mp h).1).trans h

/-- The loads that are counted before the last change exist. -/
def FirstLoadWithin (s : StreamState) : Prop := s.firstLoad ≤ s.loads.length

theorem loadsFresh_rulesForStream (hfirst : FirstLoadWithin s) (h : LoadsFresh s) :
    LoadsFresh s.rulesForStream := by
  rw [StreamState.rulesForStream]
  split
  · exact h
  · constructor
    · intro l load hload hl
      rcases getElem?_concat_cases hload with hold | ⟨rfl, rfl⟩
      · exact h.rows l load hold hl
      · exact ⟨fun _ h => (by cases h), fun _ h => (by cases h), fun _ h => (by cases h)⟩
    · intro l hl
      obtain rfl := Option.some.inj hl
      exact ⟨hfirst, .start, List.getElem?_concat_length, rfl⟩

theorem RuleLoad.read_failed (load : RuleLoad) (rows : NetworkRules StreamRuleAction)
    (table : RuleTable) : (load.read rows table).failed = load.failed := by
  cases table with
  | ipRules => rfl
  | countryRules => rfl
  | asnRules => rfl

theorem mem_orElse {α : Type*} {x y : Option α} {z : α} (h : z ∈ (x <|> y)) : z ∈ x ∨ z ∈ y := by
  cases x with
  | none => exact Or.inr h
  | some _ => exact Or.inl h

theorem LoadsFresh.read (h : LoadsFresh s) {l : Nat} {load : RuleLoad}
    (hload : s.loads[l]? = some load) (table : RuleTable) :
    LoadsFresh { s with loads := s.loads.set l (load.read s.rules table) } := by
  constructor
  · intro k other hk hfirst
    rcases getElem?_set_cases hk with ⟨rfl, rfl⟩ | ⟨_, hold⟩
    · obtain ⟨hip, hcountry, hasn⟩ := h.rows k load hload hfirst
      cases table with
      | ipRules =>
          refine ⟨fun rows hrows => ?_, hcountry, hasn⟩
          rcases mem_orElse hrows with hold | hnew
          · exact hip rows hold
          · exact (Option.some.inj hnew).symm
      | countryRules =>
          refine ⟨hip, fun rows hrows => ?_, hasn⟩
          rcases mem_orElse hrows with hold | hnew
          · exact hcountry rows hold
          · exact (Option.some.inj hnew).symm
      | asnRules =>
          refine ⟨hip, hcountry, fun rows hrows => ?_⟩
          rcases mem_orElse hrows with hold | hnew
          · exact hasn rows hold
          · exact (Option.some.inj hnew).symm
    · exact h.rows k other hold hfirst
  · intro k hk
    obtain ⟨hfirst, other, hother, hfailed⟩ := h.cached k hk
    refine ⟨hfirst, ?_⟩
    rcases eq_or_ne l k with rfl | hne
    · obtain rfl := Option.some.inj (hload.symm.trans hother)
      exact ⟨load.read s.rules table, List.getElem?_set_self (List.getElem?_eq_some_iff.mp hload).1,
        (load.read_failed s.rules table).trans hfailed⟩
    · exact ⟨other, (List.getElem?_set_ne hne).trans hother, hfailed⟩

theorem loadsFresh_step (hfirst : FirstLoadWithin s) (h : LoadsFresh s)
    (hs : StreamStep geo config stream s a s') : LoadsFresh s' := by
  have hrules := loadsFresh_rulesForStream hfirst h
  cases hs with
  | tcpTargeted => exact ⟨hrules.rows, hrules.cached⟩
  | udpTargeted => exact ⟨hrules.rows, hrules.cached⟩
  | tcpOpened => exact ⟨hrules.rows, hrules.cached⟩
  | udpArrived => exact ⟨hrules.rows, hrules.cached⟩
  | rowsRead l table load hload => exact h.read hload table
  | loadFailed l load _ hload =>
      refine ⟨fun k other hk hle => ?_, nofun⟩
      rcases getElem?_set_cases hk with ⟨rfl, rfl⟩ | ⟨_, hold⟩
      · exact h.rows k load hload hle
      · exact h.rows k other hold hle
  | rulesChanged rules =>
      refine ⟨fun k other hk hle => ?_, nofun⟩
      have hlt := (List.getElem?_eq_some_iff.mp hk).1
      exact absurd hlt (Nat.not_lt.mpr hle)
  | _ => exact ⟨h.rows, h.cached⟩

theorem firstLoadWithin_step (h : FirstLoadWithin s)
    (hs : StreamStep geo config stream s a s') : FirstLoadWithin s' := by
  have hrules : FirstLoadWithin s.rulesForStream := by
    rw [StreamState.rulesForStream]
    split
    · exact h
    · exact h.trans (List.length_append ▸ Nat.le_add_right _ _)
  cases hs with
  | tcpTargeted => exact hrules
  | udpTargeted => exact hrules
  | tcpOpened => exact hrules
  | udpArrived => exact hrules
  | rowsRead l table load => exact h.trans (List.length_set ▸ le_refl _)
  | loadFailed l load => exact h.trans (List.length_set ▸ le_refl _)
  | rulesChanged rules => exact le_refl s.loads.length
  | _ => exact h

/-! ## Calls -/

def Sweep.pending : Sweep → Option Evaluation
  | .tcp _ evaluation => evaluation
  | .udp _ evaluation => evaluation
  | _ => none

/-- A call of `evaluateStreamIp` that a connection, an admission or the sweep waits for. -/
def Waiting (s : StreamState) (evaluation : Evaluation) : Prop :=
  (∃ connection ∈ s.tcpConnections, connection.phase = .evaluating evaluation) ∨
    (∃ admission ∈ s.admissions, admission.evaluation = evaluation) ∨
      s.sweep.pending = some evaluation

/-- The new policy stays and its loads go on. -/
structure Keeps (s s' : StreamState) : Prop where
  rules : s'.rules = s.rules
  defaults : s'.defaults = s.defaults
  firstLoad : s'.firstLoad = s.firstLoad
  started : s.sweep.started = true → s'.sweep.started = true
  loads : ∀ l load, s.firstLoad ≤ l → s.loads[l]? = some load → load.failed = false →
    ∃ load', s'.loads[l]? = some load' ∧ load'.failed = false

theorem Keeps.current (h : Keeps s s') (hc : Current T s evaluation) :
    Current T s' evaluation := by
  intro hnow
  obtain ⟨hstarted, hdefaults, hsame, hfirst, load, hload, hfailed⟩ := hc hnow
  refine ⟨h.started hstarted, hdefaults.trans h.defaults.symm, ?_, ?_, ?_⟩
  · rw [h.rules]
    exact hsame
  · rw [h.firstLoad]
    exact hfirst
  · exact h.loads evaluation.load load hfirst hload hfailed

theorem keeps_of_same (hrules : s'.rules = s.rules) (hdefaults : s'.defaults = s.defaults)
    (hfirst : s'.firstLoad = s.firstLoad) (hloads : s'.loads = s.loads)
    (hstarted : s.sweep.started = true → s'.sweep.started = true) : Keeps s s' :=
  ⟨hrules, hdefaults, hfirst, hstarted, fun _ load _ hload hfailed =>
    ⟨load, by rw [hloads, hload], hfailed⟩⟩

theorem keeps_of_rulesForStream (s' : StreamState) (hrules : s'.rules = s.rulesForStream.rules)
    (hdefaults : s'.defaults = s.rulesForStream.defaults)
    (hfirst : s'.firstLoad = s.rulesForStream.firstLoad)
    (hloads : s'.loads = s.rulesForStream.loads)
    (hstarted : s.sweep.started = true → s'.sweep.started = true) : Keeps s s' := by
  obtain ⟨hr, hd, hf, _⟩ := rulesForStream_policy s
  refine ⟨hrules.trans hr, hdefaults.trans hd, hfirst.trans hf, hstarted, ?_⟩
  intro l load _ hload hfailed
  rw [hloads]
  exact ⟨load, rulesForStream_loads s hload, hfailed⟩

/-- After `enforceNetworkPolicy` has begun. -/
theorem keeps_step (hstarted : s.sweep.started = true) (hcovered : Covered geo stream T s a)
    (hs : StreamStep geo config stream s a s') : Keeps s s' := by
  obtain ⟨_, _, _, hsweep, _, _⟩ := rulesForStream_policy s
  cases hs with
  | rowsRead l table load hload =>
      refine ⟨rfl, rfl, rfl, id, fun k other _ hk hfailed => ?_⟩
      rcases eq_or_ne l k with rfl | hne
      · obtain rfl := Option.some.inj (hload.symm.trans hk)
        exact ⟨load.read s.rules table,
          List.getElem?_set_self (List.getElem?_eq_some_iff.mp hload).1,
          (load.read_failed s.rules table).trans hfailed⟩
      · exact ⟨other, (List.getElem?_set_ne hne).trans hk, hfailed⟩
  | loadFailed l load ha hload =>
      subst ha
      have hold : l < s.firstLoad := hcovered hstarted
      refine ⟨rfl, rfl, rfl, id, fun k other hle hk hfailed => ?_⟩
      have hne : l ≠ k := by omega
      exact ⟨other, (List.getElem?_set_ne hne).trans hk, hfailed⟩
  | rulesChanged rules hidle => rw [hstarted] at hidle; cases hidle
  | recordSynced defaults hidle => rw [hstarted] at hidle; cases hidle
  | enforced defaults hidle => rw [hstarted] at hidle; cases hidle
  | tcpTargeted => exact keeps_of_rulesForStream _ rfl rfl rfl rfl fun _ => rfl
  | udpTargeted => exact keeps_of_rulesForStream _ rfl rfl rfl rfl fun _ => rfl
  | tcpOpened clientIp now =>
      refine keeps_of_rulesForStream _ rfl rfl rfl rfl fun _ => ?_
      show s.rulesForStream.sweep.started = true
      rw [hsweep]
      exact hstarted
  | udpArrived clientIp clientPort now =>
      refine keeps_of_rulesForStream _ rfl rfl rfl rfl fun _ => ?_
      show s.rulesForStream.sweep.started = true
      rw [hsweep]
      exact hstarted
  | udpListed => exact keeps_of_same rfl rfl rfl rfl fun _ => rfl
  | tcpSkipped => exact keeps_of_same rfl rfl rfl rfl fun _ => rfl
  | tcpRemoved => exact keeps_of_same rfl rfl rfl rfl fun _ => rfl
  | tcpSpared => exact keeps_of_same rfl rfl rfl rfl fun _ => rfl
  | udpSkipped => exact keeps_of_same rfl rfl rfl rfl fun _ => rfl
  | udpRemoved => exact keeps_of_same rfl rfl rfl rfl fun _ => rfl
  | udpSpared => exact keeps_of_same rfl rfl rfl rfl fun _ => rfl
  | swept => exact keeps_of_same rfl rfl rfl rfl fun _ => rfl
  | _ => exact keeps_of_same rfl rfl rfl rfl id

/-- A call that begins now waits for the load in the cache. -/
theorem current_evaluation (hloads : LoadsFresh s.rulesForStream)
    (hsame : s.sweep.started = true → SameActive s.rules now T) :
    Current T s.rulesForStream (s.evaluation now) := by
  obtain ⟨hrules, hdefaults, _, hsweep, _, _⟩ := rulesForStream_policy s
  intro hstarted
  have hcache : s.rulesForStream.ruleCache = some (s.evaluation now).load := by
    rw [StreamState.rulesForStream, StreamState.evaluation]
    split
    · rename_i l hl
      rw [hl]
      rfl
    · rename_i hl
      rw [hl]
      rfl
  obtain ⟨hfirst, hload⟩ := hloads.cached _ hcache
  refine ⟨?_, hdefaults.symm, ?_, hfirst, hload⟩
  · rw [hsweep]
    exact hstarted
  · rw [hrules]
    exact hsame hstarted

theorem Waiting.of_parts (hw : Waiting s' evaluation)
    (htcp : ∀ connection ∈ s'.tcpConnections, connection.phase = .evaluating evaluation →
      Waiting s evaluation)
    (hudp : ∀ admission ∈ s'.admissions, admission.evaluation = evaluation → Waiting s evaluation)
    (hsweep : s'.sweep.pending = none ∨ s'.sweep.pending = s.sweep.pending) :
    Waiting s evaluation := by
  rcases hw with ⟨connection, hmem, heq⟩ | ⟨admission, hmem, heq⟩ | hpending
  · exact htcp connection hmem heq
  · exact hudp admission hmem heq
  · rcases hsweep with hnone | hsame
    · rw [hnone] at hpending
      cases hpending
    · rw [hsame] at hpending
      exact Or.inr (Or.inr hpending)

theorem waiting_tcp (s : StreamState) (evaluation : Evaluation) (connection : TcpConnection)
    (hmem : connection ∈ s.tcpConnections) (heq : connection.phase = .evaluating evaluation) :
    Waiting s evaluation :=
  Or.inl ⟨connection, hmem, heq⟩

theorem waiting_udp (s : StreamState) (evaluation : Evaluation) (admission : UdpAdmission)
    (hmem : admission ∈ s.admissions) (heq : admission.evaluation = evaluation) :
    Waiting s evaluation :=
  Or.inr (Or.inl ⟨admission, hmem, heq⟩)

theorem waiting_tcp_set {i : Nat} {connection new : TcpConnection}
    (hget : s.tcpConnections[i]? = some connection)
    (hphase : new.phase = connection.phase ∨ new.phase = .admitted) (other : TcpConnection)
    (hother : other ∈ s.tcpConnections.set i new) (heq : other.phase = .evaluating evaluation) :
    Waiting s evaluation := by
  rcases List.mem_or_eq_of_mem_set hother with hold | rfl
  · exact waiting_tcp s evaluation other hold heq
  · rcases hphase with hsame | hadmitted
    · exact waiting_tcp s evaluation connection (List.mem_of_getElem? hget) (hsame.symm.trans heq)
    · rw [hadmitted] at heq
      cases heq

theorem waiting_evaluatedAt {i : Nat} {admission : UdpAdmission}
    (hget : s.admissions[i]? = some admission) (other : UdpAdmission)
    (hother : other ∈ evaluatedAt s i admission) (heq : other.evaluation = evaluation) :
    Waiting s evaluation := by
  rcases List.mem_or_eq_of_mem_set hother with hold | rfl
  · exact waiting_udp s evaluation other hold heq
  · exact waiting_udp s evaluation admission (List.mem_of_getElem? hget) heq

/-- What is waited for after a step was waited for before, or has begun with it. -/
theorem waiting_step (hs : StreamStep geo config stream s a s') (hw : Waiting s' evaluation) :
    Waiting s evaluation ∨ ∃ now, evaluation = s.evaluation now ∧
      ((∃ clientIp, a = .openTcp clientIp now) ∨
        (∃ clientIp clientPort, a = .arriveUdp clientIp clientPort now) ∨ a = .nextTarget now) ∧
      Keeps s.rulesForStream s' := by
  obtain ⟨_, _, _, hsweep, htcp, hudp⟩ := rulesForStream_policy s
  have holdTcp := waiting_tcp s evaluation
  have holdUdp := waiting_udp s evaluation
  cases hs with
  | enforced => exact Or.inl (hw.of_parts holdTcp holdUdp (Or.inl rfl))
  | udpListed => exact Or.inl (hw.of_parts holdTcp holdUdp (Or.inl rfl))
  | tcpSkipped => exact Or.inl (hw.of_parts holdTcp holdUdp (Or.inl rfl))
  | tcpSpared => exact Or.inl (hw.of_parts holdTcp holdUdp (Or.inl rfl))
  | udpSkipped => exact Or.inl (hw.of_parts holdTcp holdUdp (Or.inl rfl))
  | udpRemoved => exact Or.inl (hw.of_parts holdTcp holdUdp (Or.inl rfl))
  | udpSpared => exact Or.inl (hw.of_parts holdTcp holdUdp (Or.inl rfl))
  | swept => exact Or.inl (hw.of_parts holdTcp holdUdp (Or.inl rfl))
  | tcpRemoved i rest call connection _ hget =>
      exact Or.inl (hw.of_parts (waiting_tcp_set hget (Or.inl rfl)) holdUdp (Or.inl rfl))
  | tcpFinished i connection hget =>
      exact Or.inl (hw.of_parts (waiting_tcp_set hget (Or.inl rfl)) holdUdp (Or.inr rfl))
  | tcpAdmitted i connection call decision other hget =>
      exact Or.inl (hw.of_parts (waiting_tcp_set hget (Or.inr rfl)) holdUdp (Or.inr rfl))
  | udpBlocked i admission hget =>
      exact Or.inl (hw.of_parts holdTcp (waiting_evaluatedAt hget) (Or.inr rfl))
  | udpCharged i admission goesOn hpass =>
      exact Or.inl (hw.of_parts holdTcp (waiting_evaluatedAt hpass.pending.1) (Or.inr rfl))
  | udpCreating i admission hpass =>
      exact Or.inl (hw.of_parts holdTcp (waiting_evaluatedAt hpass.pending.1) (Or.inr rfl))
  | tcpTargeted i rest now ha =>
      rcases hw with ⟨connection, hmem, heq⟩ | ⟨admission, hmem, heq⟩ | hpending
      · exact Or.inl (holdTcp connection (htcp ▸ hmem) heq)
      · exact Or.inl (holdUdp admission (hudp ▸ hmem) heq)
      · refine Or.inr ⟨now, (Option.some.inj hpending).symm, Or.inr (Or.inr ha), ?_⟩
        exact keeps_of_same rfl rfl rfl rfl fun _ => rfl
  | udpTargeted p rest now ha =>
      rcases hw with ⟨connection, hmem, heq⟩ | ⟨admission, hmem, heq⟩ | hpending
      · exact Or.inl (holdTcp connection (htcp ▸ hmem) heq)
      · exact Or.inl (holdUdp admission (hudp ▸ hmem) heq)
      · refine Or.inr ⟨now, (Option.some.inj hpending).symm, Or.inr (Or.inr ha), ?_⟩
        exact keeps_of_same rfl rfl rfl rfl fun _ => rfl
  | tcpOpened clientIp now ha =>
      rcases hw with ⟨connection, hmem, heq⟩ | ⟨admission, hmem, heq⟩ | hpending
      · rcases List.mem_snoc.mp hmem with hold | rfl
        · exact Or.inl (holdTcp connection hold heq)
        · refine Or.inr ⟨now, (TcpPhase.evaluating.inj heq).symm, Or.inl ⟨clientIp, ha⟩, ?_⟩
          exact keeps_of_same rfl rfl rfl rfl id
      · exact Or.inl (holdUdp admission (hudp ▸ hmem) heq)
      · exact Or.inl (Or.inr (Or.inr (hsweep ▸ hpending)))
  | udpArrived clientIp clientPort now ha =>
      rcases hw with ⟨connection, hmem, heq⟩ | ⟨admission, hmem, heq⟩ | hpending
      · exact Or.inl (holdTcp connection (htcp ▸ hmem) heq)
      · rcases List.mem_snoc.mp hmem with hold | rfl
        · exact Or.inl (holdUdp admission hold heq)
        · refine Or.inr ⟨now, heq.symm, Or.inr (Or.inl ⟨clientIp, clientPort, ha⟩), ?_⟩
          exact keeps_of_same rfl rfl rfl rfl id
      · exact Or.inl (Or.inr (Or.inr (hsweep ▸ hpending)))
  | _ => exact Or.inl (hw.of_parts holdTcp holdUdp (Or.inr rfl))

/-- Every call that is waited for since the sweep began sees the new rules. -/
def CallsCurrent (T : Int) (s : StreamState) : Prop :=
  ∀ evaluation, Waiting s evaluation → Current T s evaluation

theorem callsCurrent_step (hfirst : FirstLoadWithin s) (hloads : LoadsFresh s)
    (hcalls : CallsCurrent T s) (hcovered : Covered geo stream T s a)
    (hs : StreamStep geo config stream s a s') : CallsCurrent T s' := by
  intro evaluation hw
  rcases waiting_step hs hw with hold | ⟨now, rfl, ha, hkeeps⟩
  · intro hnow
    have hcurrent := hcalls evaluation hold
    exact (keeps_step (hcurrent hnow).1 hcovered hs).current hcurrent hnow
  · refine hkeeps.current (current_evaluation (loadsFresh_rulesForStream hfirst hloads) ?_)
    intro hstarted
    rcases ha with ⟨clientIp, rfl⟩ | ⟨clientIp, clientPort, rfl⟩ | rfl
    · exact hcovered hstarted
    · exact hcovered hstarted
    · exact hcovered.1

/-- The sweep waits for calls of its own only. -/
def SweepCalls (s : StreamState) : Prop :=
  ∀ evaluation, s.sweep.pending = some evaluation → evaluation.current = true

theorem sweepCalls_step (h : SweepCalls s) (hs : StreamStep geo config stream s a s') :
    SweepCalls s' := by
  obtain ⟨_, _, _, hsweep, _, _⟩ := rulesForStream_policy s
  have hrules : SweepCalls s.rulesForStream := by
    rw [SweepCalls, hsweep]
    exact h
  cases hs with
  | tcpTargeted i rest now _ hold =>
      intro evaluation hpending
      obtain rfl := Option.some.inj hpending
      rw [StreamState.evaluation, hold]
      rfl
  | udpTargeted p rest now _ hold =>
      intro evaluation hpending
      obtain rfl := Option.some.inj hpending
      rw [StreamState.evaluation, hold]
      rfl
  | tcpOpened => exact hrules
  | udpArrived => exact hrules
  | enforced => exact nofun
  | udpListed => exact nofun
  | tcpSkipped => exact nofun
  | tcpRemoved => exact nofun
  | tcpSpared => exact nofun
  | udpSkipped => exact nofun
  | udpRemoved => exact nofun
  | udpSpared => exact nofun
  | swept => exact nofun
  | _ => exact h

/-! ## What the sweep covers -/

def Sweep.tcpLeft : Sweep → List Nat
  | .tcp targets _ => targets
  | _ => []

def Sweep.udpLeft : Sweep → List Nat
  | .udp targets _ => targets
  | _ => []

/-- The list of UDP peers has been taken. -/
def Sweep.udpListed : Sweep → Bool
  | .udp _ _ => true
  | .done => true
  | _ => false

theorem started_of_udpListed {sweep : Sweep} (h : sweep.udpListed = true) :
    sweep.started = true := by
  cases sweep with
  | idle => cases h
  | tcp => rfl
  | udp => rfl
  | done => rfl

/-- The connection was admitted, or is evaluated since before the sweep. -/
def TcpConnection.settled (connection : TcpConnection) : Bool :=
  match connection.phase with
  | .evaluating evaluation => !evaluation.current
  | .admitted => true

/-- What is open is not blocked or still to be examined, once it has been listed. -/
structure Swept (geo : GeoIp) (stream : StreamRecord) (T : Int) (s : StreamState) : Prop where
  tcp : s.sweep.started = true → ∀ i connection, s.tcpConnections[i]? = some connection →
    connection.closed = false → connection.settled = true →
      ¬ Blocked geo stream T s connection.clientIp ∨ i ∈ s.sweep.tcpLeft
  peers : s.sweep.udpListed = true → ∀ p peer, s.udp.heap[p]? = some peer →
    peer.closed = false → ¬ Blocked geo stream T s peer.clientIp ∨ p ∈ s.sweep.udpLeft
  creations : s.sweep.udpListed = true → ∀ creation ∈ s.creations,
    creation.state = .connecting → ¬ Blocked geo stream T s creation.key.1
  admissions : s.sweep.udpListed = true → ∀ admission ∈ s.admissions,
    admission.evaluated = false → admission.evaluation.current = false →
      ¬ Blocked geo stream T s admission.clientIp

theorem Swept.rulesForStream (h : Swept geo stream T s) : Swept geo stream T s.rulesForStream := by
  rw [StreamState.rulesForStream]
  split
  · exact h
  · exact ⟨h.tcp, h.peers, h.creations, h.admissions⟩

theorem mem_tcpTargets {i : Nat} {connection : TcpConnection}
    (hget : s.tcpConnections[i]? = some connection) (hopen : connection.closed = false) :
    i ∈ s.tcpTargets := by
  refine List.mem_filter.mpr ⟨?_, ?_⟩
  · exact List.mem_range.mpr (List.getElem?_eq_some_iff.mp hget).1
  · rw [hget]
    simp [hopen]

theorem swept_enforced (s : StreamState) (defaults : NetworkDefaults) :
    Swept geo stream T (s.enforceNetworkPolicy defaults) := by
  refine ⟨fun _ i connection hget hopen _ => ?_, nofun, nofun, nofun⟩
  exact Or.inr (mem_tcpTargets hget hopen)

theorem swept_idle (h : s.sweep.started = false) : Swept geo stream T s := by
  have hlisted : s.sweep.udpListed ≠ true := by
    intro hlisted
    rw [started_of_udpListed hlisted] at h
    cases h
  refine ⟨fun hstarted => ?_, fun hl => absurd hl hlisted, fun hl => absurd hl hlisted,
    fun hl => absurd hl hlisted⟩
  rw [h] at hstarted
  cases hstarted

/-- The peers of a runtime that only traffic has changed. -/
theorem Swept.quiet (h : Swept geo stream T s) (hlisted : s.sweep.udpListed = true)
    (hq : Quiet s.udp r) {p : Nat} {peer : UdpPeer} (hp : r.heap[p]? = some peer)
    (hopen : peer.closed = false) :
    ¬ Blocked geo stream T s peer.clientIp ∨ p ∈ s.sweep.udpLeft := by
  obtain ⟨old, hold, hkey, hclosed⟩ := quiet_heap hq hp
  have hip : peer.clientIp = old.clientIp := congrArg Prod.fst hkey
  rw [hip]
  exact h.peers hlisted p old hold (hclosed hopen)

/-- A connection is closed, and its place may leave the list. -/
theorem Swept.closedAt (h : Swept geo stream T s) (hstarted : s.sweep.started = true) {i : Nat}
    {connection : TcpConnection} {j : Nat} {other : TcpConnection}
    (hj : (closedAt s i connection)[j]? = some other) (hopen : other.closed = false)
    (hsettled : other.settled = true) : i ≠ j ∧
      (¬ Blocked geo stream T s other.clientIp ∨ j ∈ s.sweep.tcpLeft) := by
  rcases getElem?_set_cases hj with ⟨rfl, rfl⟩ | ⟨hne, hold⟩
  · cases hopen
  · exact ⟨hne.symm, h.tcp hstarted j other hold hopen hsettled⟩

theorem creation_of_charge {key : PeerKey} {creation : PeerCreation}
    (h : creation ∈ (s.charge key).creations) :
    ∃ old ∈ s.creations, old.state = creation.state ∧ old.key = creation.key := by
  obtain ⟨old, hold, rfl⟩ := List.mem_map.mp h
  refine ⟨old, hold, ?_⟩
  split
  · exact ⟨rfl, rfl⟩
  · exact ⟨rfl, rfl⟩

theorem creation_of_set {c : Nat} {creation new other : PeerCreation}
    (hc : s.creations[c]? = some creation) (hstate : new.state ≠ .connecting ∨
      (new.state = creation.state ∧ new.key = creation.key))
    (hother : other ∈ s.creations.set c new) (hconnecting : other.state = .connecting) :
    ∃ old ∈ s.creations, old.state = .connecting ∧ old.key = other.key := by
  rcases List.mem_or_eq_of_mem_set hother with hold | rfl
  · exact ⟨other, hold, hconnecting, rfl⟩
  · rcases hstate with hne | ⟨hsame, hkey⟩
    · exact absurd hconnecting hne
    · exact ⟨creation, List.mem_of_getElem? hc, hsame.symm.trans hconnecting, hkey.symm⟩

theorem admission_of_evaluatedAt {i : Nat} {admission other : UdpAdmission}
    (hother : other ∈ evaluatedAt s i admission) (hpending : other.evaluated = false) :
    other ∈ s.admissions := by
  rcases List.mem_or_eq_of_mem_set hother with hold | rfl
  · exact hold
  · cases hpending

/-- An admission that passes is not from a blocked address once the peers are listed. -/
theorem Swept.passes (h : Swept geo stream T s) (hloads : LoadsFresh s)
    (hcalls : CallsCurrent T s) (hlisted : s.sweep.udpListed = true) {i : Nat}
    {admission : UdpAdmission} {goesOn : Bool} (hpass : Passes geo stream s a i admission goesOn) :
    ¬ Blocked geo stream T s admission.clientIp := by
  obtain ⟨⟨hget, hpending⟩, other, limited, protectionBlocks, decision, _, _, hdecision,
    hpasses⟩ := hpass
  have hmem := List.mem_of_getElem? hget
  by_cases hnow : admission.evaluation.current = true
  · have hcurrent := hcalls admission.evaluation (Or.inr (Or.inl ⟨admission, hmem, rfl⟩))
    rw [StreamState.passesUdp, Bool.and_eq_true_iff] at hpasses
    have hnot : networkBlocked decision other = false := by simpa using hpasses.1
    exact not_blocked_of_current hloads hcurrent hnow hdecision hnot
  · exact h.admissions hlisted admission hmem hpending (eq_false_of_ne_true hnow)

theorem listed_peers (hr : Registered s.udp s.creations s.pendingPeers) {p : Nat}
    {peer : UdpPeer} (hp : s.udp.heap[p]? = some peer) (hopen : peer.closed = false) :
    p ∈ s.udp.peers.entries.map Prod.snd :=
  List.mem_map.mpr ⟨(peer.key, p), OrderedMap.get?_eq_some.mp (hr.key_of_peer p peer hp hopen), rfl⟩

/-- The TCP loop goes on to the rest of its list. -/
theorem Swept.tcpRest (h : Swept geo stream T s) {i : Nat} {rest : List Nat}
    {call : Option Evaluation} (hsweep : s.sweep = .tcp (i :: rest) call)
    (hi : ∀ connection, s.tcpConnections[i]? = some connection → connection.closed = false →
      connection.settled = true → ¬ Blocked geo stream T s connection.clientIp) :
    Swept geo stream T { s with sweep := .tcp rest none } := by
  refine ⟨fun _ j connection hget hopen hsettled => ?_, nofun, nofun, nofun⟩
  have hstarted : s.sweep.started = true := by
    rw [hsweep]
    rfl
  rcases h.tcp hstarted j connection hget hopen hsettled with hnot | hleft
  · exact Or.inl hnot
  · rw [hsweep] at hleft
    rcases List.mem_cons.mp hleft with rfl | hrest
    · exact Or.inl (hi connection hget hopen hsettled)
    · exact Or.inr hrest

/-- The UDP loop goes on to the rest of its list. -/
theorem Swept.udpRest (h : Swept geo stream T s) {p : Nat} {rest : List Nat}
    {call : Option Evaluation} (hsweep : s.sweep = .udp (p :: rest) call)
    (hp : ∀ peer, s.udp.heap[p]? = some peer → peer.closed = false →
      ¬ Blocked geo stream T s peer.clientIp) :
    Swept geo stream T { s with sweep := .udp rest none } := by
  have hlisted : s.sweep.udpListed = true := by
    rw [hsweep]
    rfl
  refine ⟨fun _ j connection hget hopen hsettled => ?_, fun _ q peer hget hopen => ?_,
    fun _ => h.creations hlisted, fun _ => h.admissions hlisted⟩
  · have hcovered := h.tcp (started_of_udpListed hlisted) j connection hget hopen hsettled
    rw [hsweep] at hcovered
    exact hcovered
  · rcases h.peers hlisted q peer hget hopen with hnot | hleft
    · exact Or.inl hnot
    · rw [hsweep] at hleft
      rcases List.mem_cons.mp hleft with rfl | hrest
      · exact Or.inl (hp peer hget hopen)
      · exact Or.inr hrest

/-- The call of a target that is spared has seen the new rules. -/
theorem not_blocked_of_spared (hloads : LoadsFresh s) (hcalls : CallsCurrent T s)
    (hsweeps : SweepCalls s) (hpending : s.sweep.pending = some evaluation)
    {decision : Option StreamNetworkDecision} {other : Bool}
    (hdecision : s.decision geo stream evaluation ip = some decision)
    (hspared : networkBlocked decision other = false) : ¬ Blocked geo stream T s ip :=
  not_blocked_of_current hloads (hcalls evaluation (Or.inr (Or.inr hpending)))
    (hsweeps evaluation hpending) hdecision hspared

theorem closed_of_closeUdpPeer {p : Nat} {peer : UdpPeer}
    (hp : (r.closeUdpPeer p).heap[p]? = some peer) : peer.closed = true := by
  rw [UdpRuntime.closeUdpPeer] at hp
  split at hp
  · rename_i hnone
    rw [hnone] at hp
    cases hp
  · rename_i old hold
    split at hp
    · rename_i hclosed
      obtain rfl := Option.some.inj (hold.symm.trans hp)
      exact hclosed
    · rcases getElem?_set_cases hp with ⟨_, rfl⟩ | ⟨hne, _⟩
      · rfl
      · exact absurd rfl hne

theorem swept_step (hr : Registered s.udp s.creations s.pendingPeers) (hloads : LoadsFresh s)
    (hcalls : CallsCurrent T s) (hsweeps : SweepCalls s) (h : Swept geo stream T s)
    (hcovered : Covered geo stream T s a) (hs : StreamStep geo config stream s a s') :
    Swept geo stream T s' := by
  have hrules := h.rulesForStream
  obtain ⟨_, _, _, hsweep, htcp, hudp⟩ := rulesForStream_policy s
  cases hs with
  | rulesChanged rules hidle => exact swept_idle hidle
  | recordSynced defaults hidle => exact swept_idle hidle
  | enforced defaults => exact swept_enforced s defaults
  | udpListed now ha hold =>
      subst ha
      obtain ⟨hcreations, hadmissions⟩ := hcovered.2 hold
      refine ⟨fun _ j connection hget hopen hsettled => ?_, fun _ p peer hp hopen => ?_,
        fun _ => hcreations, fun _ => hadmissions⟩
      · have hstarted : s.sweep.started = true := by
          rw [hold]
          rfl
        have htcp := h.tcp hstarted j connection hget hopen hsettled
        rw [hold] at htcp
        exact htcp
      · exact Or.inr (listed_peers hr hp hopen)
  | tcpSkipped i rest hold hclosed =>
      refine h.tcpRest hold fun connection hget hopen _ => ?_
      rw [hclosed connection hget] at hopen
      cases hopen
  | tcpTargeted i rest now _ hold =>
      refine ⟨fun _ j connection hget hopen hsettled => ?_, nofun, nofun, nofun⟩
      have hstarted : s.rulesForStream.sweep.started = true := by
        rw [hsweep, hold]
        rfl
      have htcp := hrules.tcp hstarted j connection hget hopen hsettled
      rw [hsweep, hold] at htcp
      exact htcp
  | tcpRemoved i rest call connection hold hget =>
      have hstarted : s.sweep.started = true := by
        rw [hold]
        rfl
      refine ⟨fun _ j other hj hopen hsettled => ?_, nofun, nofun, nofun⟩
      obtain ⟨hne, hcover⟩ := h.closedAt hstarted hj hopen hsettled
      rcases hcover with hnot | hleft
      · exact Or.inl hnot
      · rw [hold] at hleft
        rcases List.mem_cons.mp hleft with rfl | hrest
        · exact absurd rfl hne
        · exact Or.inr hrest
  | tcpSpared i rest call connection decision other hold hget hdecision hspared =>
      refine h.tcpRest hold fun connection' hget' _ _ => ?_
      obtain rfl := Option.some.inj (hget.symm.trans hget')
      refine not_blocked_of_spared hloads hcalls hsweeps ?_ hdecision hspared
      rw [hold]
      rfl
  | udpSkipped p rest hold hclosed =>
      refine h.udpRest hold fun peer hp hopen => ?_
      rw [hclosed peer hp] at hopen
      cases hopen
  | udpTargeted p rest now _ hold =>
      have hlisted : s.rulesForStream.sweep.udpListed = true := by
        rw [hsweep, hold]
        rfl
      refine ⟨fun _ j connection hget hopen hsettled => ?_, fun _ q peer hq hopen => ?_,
        fun _ => hrules.creations hlisted, fun _ => hrules.admissions hlisted⟩
      · have htcp := hrules.tcp (started_of_udpListed hlisted) j connection hget hopen hsettled
        rw [hsweep, hold] at htcp
        exact htcp
      · have hpeers := hrules.peers hlisted q peer hq hopen
        rw [hsweep, hold] at hpeers
        exact hpeers
  | udpRemoved p rest call hold =>
      have hlisted : s.sweep.udpListed = true := by
        rw [hold]
        rfl
      have hclosed : Swept geo stream T { s with udp := s.udp.closeUdpPeer p } :=
        ⟨h.tcp, fun hl _ _ hq hopen => h.quiet hl (.close p (.refl s.udp)) hq hopen,
          h.creations, h.admissions⟩
      refine hclosed.udpRest hold fun peer hp hopen => ?_
      rw [closed_of_closeUdpPeer hp] at hopen
      cases hopen
  | udpSpared p rest call peer decision other hold hp hdecision hspared =>
      refine h.udpRest hold fun peer' hp' _ => ?_
      obtain rfl := Option.some.inj (hp.symm.trans hp')
      refine not_blocked_of_spared hloads hcalls hsweeps ?_ hdecision hspared
      rw [hold]
      rfl
  | swept hold =>
      have hlisted : s.sweep.udpListed = true := by
        rw [hold]
        rfl
      refine ⟨fun _ j connection hget hopen hsettled => ?_, fun _ q peer hq hopen => ?_,
        fun _ => h.creations hlisted, fun _ => h.admissions hlisted⟩
      · have htcp := h.tcp (started_of_udpListed hlisted) j connection hget hopen hsettled
        rw [hold] at htcp
        exact htcp
      · have hpeers := h.peers hlisted q peer hq hopen
        rw [hold] at hpeers
        exact hpeers
  | tcpOpened clientIp now =>
      refine ⟨fun hstarted j connection hget hopen hsettled => ?_, hrules.peers, hrules.creations,
        hrules.admissions⟩
      rcases getElem?_concat_cases hget with hold | ⟨_, rfl⟩
      · exact hrules.tcp hstarted j connection (htcp ▸ hold) hopen hsettled
      · have hcurrent : s.rulesForStream.sweep.started = true := hstarted
        rw [hsweep] at hcurrent
        simp [TcpConnection.settled, StreamState.evaluation, hcurrent] at hsettled
  | tcpFinished i connection hget =>
      refine ⟨fun hstarted j other hj hopen hsettled => ?_, h.peers, h.creations, h.admissions⟩
      exact (h.closedAt hstarted hj hopen hsettled).2
  | tcpAdmitted i connection call decision other hget hphase hdecision hpassed =>
      refine ⟨fun hstarted j other hj hopen hsettled => ?_, h.peers, h.creations, h.admissions⟩
      rcases getElem?_set_cases hj with ⟨rfl, rfl⟩ | ⟨_, hold⟩
      · by_cases hnow : call.current = true
        · have hmem := List.mem_of_getElem? hget
          have hcurrent := hcalls call (Or.inl ⟨connection, hmem, hphase⟩)
          have hnot : ¬ Blocked geo stream T s connection.clientIp :=
            not_blocked_of_current hloads hcurrent hnow hdecision hpassed
          exact Or.inl hnot
        · refine h.tcp hstarted j connection hget hopen ?_
          simp [TcpConnection.settled, hphase, hnow]
      · exact h.tcp hstarted j other hold hopen hsettled
  | udpArrived clientIp clientPort now =>
      refine ⟨hrules.tcp, hrules.peers, hrules.creations,
        fun hlisted admission hmem hpending hold => ?_⟩
      rcases List.mem_snoc.mp hmem with hin | rfl
      · exact hrules.admissions hlisted admission (hudp ▸ hin) hpending hold
      · have hcurrent : s.rulesForStream.sweep.started = true := started_of_udpListed hlisted
        rw [hsweep] at hcurrent
        have hold : s.sweep.started = false := hold
        rw [hcurrent] at hold
        cases hold
  | udpBlocked i admission =>
      refine ⟨h.tcp, h.peers, h.creations, fun hlisted other hother hpending hold => ?_⟩
      exact h.admissions hlisted other (admission_of_evaluatedAt hother hpending) hpending hold
  | udpCharged i admission =>
      refine ⟨h.tcp, h.peers, fun hlisted creation hmem hstate => ?_,
        fun hlisted other hother hpending hold => ?_⟩
      · obtain ⟨old, hold, hsame, hkey⟩ := creation_of_charge hmem
        rw [← hkey]
        exact h.creations hlisted old hold (hsame.trans hstate)
      · exact h.admissions hlisted other (admission_of_evaluatedAt hother hpending) hpending hold
  | udpCreating i admission hpass =>
      refine ⟨h.tcp, fun hlisted p peer hp hopen => ?_, fun hlisted creation hmem hstate => ?_,
        fun hlisted other hother hpending hold => ?_⟩
      · exact h.quiet hlisted (quiet_evictForPeer config s.udp) hp hopen
      · rcases List.mem_snoc.mp hmem with hcharged | rfl
        · obtain ⟨old, hold, hsame, hkey⟩ := creation_of_charge hcharged
          rw [← hkey]
          exact h.creations hlisted old hold (hsame.trans hstate)
        · exact h.passes hloads hcalls hlisted hpass
      · exact h.admissions hlisted other (admission_of_evaluatedAt hother hpending) hpending hold
  | peerCreated c now creation hc hstate =>
      refine ⟨h.tcp, fun hlisted p peer hp hopen => ?_, fun hlisted other hother hconnecting => ?_,
        h.admissions⟩
      · rcases getElem?_concat_cases hp with hold | ⟨_, rfl⟩
        · exact h.peers hlisted p peer hold hopen
        · exact Or.inl (h.creations hlisted creation (List.mem_of_getElem? hc) hstate)
      · obtain ⟨old, hmem, hold, hkey⟩ := @creation_of_set s c creation
          { creation with state := .opened s.udp.heap.length } other hc (Or.inl nofun) hother
          hconnecting
        rw [← hkey]
        exact h.creations hlisted old hmem hold
  | peerFailed c creation hc hstate =>
      refine ⟨h.tcp, h.peers, fun hlisted other hother hconnecting => ?_, h.admissions⟩
      obtain ⟨old, hmem, hold, hkey⟩ := @creation_of_set s c creation
        { creation with state := .failed } other hc (Or.inl nofun) hother hconnecting
      rw [← hkey]
      exact h.creations hlisted old hmem hold
  | peerSettled c creation hc =>
      refine ⟨h.tcp, h.peers, fun hlisted other hother hconnecting => ?_, h.admissions⟩
      obtain ⟨old, hmem, hold, hkey⟩ := @creation_of_set s c creation
        { creation with settled := true } other hc (Or.inr ⟨rfl, rfl⟩) hother hconnecting
      rw [← hkey]
      exact h.creations hlisted old hmem hold
  | traffic r hq =>
      exact ⟨h.tcp, fun hlisted _ _ hp hopen => h.quiet hlisted hq hp hopen, h.creations,
        h.admissions⟩
  | _ => exact ⟨h.tcp, h.peers, h.creations, h.admissions⟩

/-! ## Runs -/

structure Enforcing (geo : GeoIp) (stream : StreamRecord) (T : Int) (s : StreamState) : Prop where
  registered : Registered s.udp s.creations s.pendingPeers
  first : FirstLoadWithin s
  loads : LoadsFresh s
  calls : CallsCurrent T s
  sweeps : SweepCalls s
  swept : Swept geo stream T s

theorem enforcing_start (rules : NetworkRules StreamRuleAction) (defaults : NetworkDefaults) :
    Enforcing geo stream T (.start rules defaults) where
  registered := registered_start
  first := le_refl 0
  loads := ⟨nofun, nofun⟩
  calls := by
    rintro evaluation (⟨_, hmem, _⟩ | ⟨_, hmem, _⟩ | hpending)
    · cases hmem
    · cases hmem
    · cases hpending
  sweeps := nofun
  swept := swept_idle rfl

theorem enforcing_step (h : Enforcing geo stream T s) (hcovered : Covered geo stream T s a)
    (hs : StreamStep geo config stream s a s') : Enforcing geo stream T s' where
  registered := registered_step h.registered hs
  first := firstLoadWithin_step h.first hs
  loads := loadsFresh_step h.first h.loads hs
  calls := callsCurrent_step h.first h.loads h.calls hcovered hs
  sweeps := sweepCalls_step h.sweeps hs
  swept := swept_step h.registered h.loads h.calls h.sweeps h.swept hcovered hs

theorem enforcing_of_reach
    (h : Reach (streamStep geo config stream) (Covered geo stream T)
      (· = .start rules defaults) s) :
    Enforcing geo stream T s := by
  induction h with
  | start h0 =>
      subst h0
      exact enforcing_start rules defaults
  | next _ hc hs ih => exact enforcing_step ih hc (stream_cases hs)

/-- After `enforceNetworkPolicy` nothing that is open belongs to an address it blocks. -/
theorem new_block_rule_ends_traffic (geo : GeoIp) (config : StreamsConfig)
    (stream : StreamRecord) (T : Int) (rules : NetworkRules StreamRuleAction)
    (defaults : NetworkDefaults) (s : StreamState)
    (h : Reach (streamStep geo config stream) (Covered geo stream T) (· = .start rules defaults) s)
    (hdone : s.sweep = .done) :
    (∀ connection ∈ s.tcpConnections, connection.phase = .admitted → connection.closed = false →
      ¬ Blocked geo stream T s connection.clientIp) ∧
    ∀ peer ∈ s.udp.heap, peer.closed = false → ¬ Blocked geo stream T s peer.clientIp := by
  have hswept := (enforcing_of_reach h).swept
  have hlisted : s.sweep.udpListed = true := by
    rw [hdone]
    rfl
  constructor
  · intro connection hmem hadmitted hopen
    obtain ⟨i, hget⟩ := List.mem_iff_getElem?.mp hmem
    have hsettled : connection.settled = true := by
      rw [TcpConnection.settled, hadmitted]
    have hcovered := hswept.tcp (started_of_udpListed hlisted) i connection hget hopen hsettled
    rw [hdone] at hcovered
    exact hcovered.resolve_right List.not_mem_nil
  · intro peer hmem hopen
    obtain ⟨p, hget⟩ := List.mem_iff_getElem?.mp hmem
    have hcovered := hswept.peers hlisted p peer hget hopen
    rw [hdone] at hcovered
    exact hcovered.resolve_right List.not_mem_nil

/-! ## A datagram under way -/

def blockRule : IpRuleRecord StreamRuleAction :=
  ⟨clientAddress, .block, "abuse".toList, 1, none⟩

def blockRules : NetworkRules StreamRuleAction :=
  ⟨[blockRule], [], [], noRules.country_unique, noRules.asn_unique⟩

/-- The peer is there when the sweep lists the UDP peers. -/
def peerListed : List StreamAction :=
  [StreamAction.openTcp clientAddress 0, .arriveUdp clientAddress 4000 0] ++ rulesRead ++
    [ StreamAction.admitTcp 0 false false, .handleUdpData 0 false false false, .peerCreated 0 1,
      .changeRules blockRules, .enforceNetworkPolicy noDefaults, .nextTarget 2,
      .readRows 1 .ipRules, .readRows 1 .countryRules, .readRows 1 .asnRules,
      .targetEvaluated false, .nextTarget 3, .nextTarget 3, .targetEvaluated false,
      .nextTarget 4 ]

/-- The socket of the peer is there only after the sweep. -/
def peerUnderWay : List StreamAction :=
  [StreamAction.arriveUdp clientAddress 4000 0] ++ rulesRead ++
    [ StreamAction.handleUdpData 0 false false false, .changeRules blockRules,
      .enforceNetworkPolicy noDefaults, .nextTarget 2, .nextTarget 2, .peerCreated 0 3,
      .peerSettled 0 ]

theorem new_block_rule_ends_traffic_listed : ∃ s,
    Reach (streamStep noGeoIp twoPeers onePerIp) (Covered noGeoIp onePerIp 9)
      (· = .start noRules noDefaults) s ∧ s.sweep = .done ∧ s.udp.heap.length = 1 ∧
        s.tcpConnections.length = 1 ∧ Blocked noGeoIp onePerIp 9 s clientAddress ∧
    (∀ connection ∈ s.tcpConnections, connection.phase = .admitted → connection.closed = false →
      ¬ Blocked noGeoIp onePerIp 9 s connection.clientIp) ∧
    ∀ peer ∈ s.udp.heap, peer.closed = false → ¬ Blocked noGeoIp onePerIp 9 s peer.clientIp := by
  obtain ⟨s, hs, hfacts⟩ := (Option.any_eq_true ..).mp
    (show (execIf (streamStep noGeoIp twoPeers onePerIp) (Covered noGeoIp onePerIp 9)
      (.start noRules noDefaults) peerListed).any
      (fun s => decide (s.sweep = .done ∧ s.udp.heap.length = 1 ∧ s.tcpConnections.length = 1 ∧
        Blocked noGeoIp onePerIp 9 s clientAddress)) = true by decide +kernel)
  obtain ⟨hdone, hpeers, hconnections, hblocked⟩ := of_decide_eq_true hfacts
  have hreach : Reach (streamStep noGeoIp twoPeers onePerIp) (Covered noGeoIp onePerIp 9)
      (· = .start noRules noDefaults) s := execIf_reach (.start rfl) hs
  exact ⟨s, hreach, hdone, hpeers, hconnections, hblocked,
    new_block_rule_ends_traffic noGeoIp twoPeers onePerIp 9 noRules noDefaults s hreach hdone⟩

/-- Every admission has run to its end, and the peer of a blocked address is open. -/
theorem datagram_under_way_survives : ¬ ∀ (geo : GeoIp) (config : StreamsConfig)
    (stream : StreamRecord) (T : Int) (rules : NetworkRules StreamRuleAction)
    (defaults : NetworkDefaults) (s : StreamState),
      Reach (streamStep geo config stream) Any (· = .start rules defaults) s →
        s.sweep = .done →
        (∀ connection ∈ s.tcpConnections, connection.phase = .admitted) →
        (∀ admission ∈ s.admissions, admission.evaluated = true) →
        (∀ creation ∈ s.creations, creation.settled = true) →
        (∀ connection ∈ s.tcpConnections, connection.phase = .admitted →
          connection.closed = false → ¬ Blocked geo stream T s connection.clientIp) ∧
        ∀ peer ∈ s.udp.heap, peer.closed = false → ¬ Blocked geo stream T s peer.clientIp := by
  intro hclaim
  obtain ⟨s, hs, hfacts⟩ := (Option.any_eq_true ..).mp
    (show (exec (streamStep noGeoIp twoPeers onePerIp) (.start noRules noDefaults) peerUnderWay).any
      (fun s => decide (s.sweep = .done ∧ (∀ connection ∈ s.tcpConnections, connection.phase =
        .admitted) ∧ (∀ admission ∈ s.admissions, admission.evaluated = true) ∧
        (∀ creation ∈ s.creations, creation.settled = true) ∧ ∃ peer ∈ s.udp.heap, peer.closed =
        false ∧ Blocked noGeoIp onePerIp 9 s peer.clientIp)) = true by decide +kernel)
  obtain ⟨hdone, hconnections, hadmissions, hcreations, peer, hpeer, hopen, hblocked⟩ :=
    of_decide_eq_true hfacts
  have hends := hclaim noGeoIp twoPeers onePerIp 9 noRules noDefaults s
    (exec_reach (.start rfl) hs) hdone hconnections hadmissions hcreations
  exact hends.2 peer hpeer hopen hblocked

end BurrowGate.Stream
