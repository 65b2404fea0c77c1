import BurrowGate.Ha.Unpromoted

/-!
# What one event can do to a primary's fences and its view of the replicas

The segments that move a quorum fence, a majority proof or the set of connected
replicas are listed one by one, for runs without manual promotion. Every other
event is steady: it makes no primary, clears no fence, and adds no replica.
-/

namespace BurrowGate.Ha

open Lib.Run
open Lib.Quorum

variable {N : Type*} [DecidableEq N] {members : Finset N} {now fresh : Nat}
  {net : List (Message N)} {self : N} {t : HaTables N} {pr pr' p₀ : Process N} {n : Node N}
  {e : Effect N} {ev : Event N}

def Task.isFence : Task N → Bool
  | .fenceForTerm _ _ _ | .fenceAuthority _ _ _ _ | .announced _ _ => true
  | _ => false

def Tick.isFence : Tick N → Bool
  | .readFence | .checkFence _ | .clearFence | .setFence _ => true
  | _ => false

structure Steady (pr pr' : Process N) : Prop where
  role : pr'.ha.role = .primary → pr.ha.role = .primary
  authorityFence : pr'.ha.role = .primary → pr'.ha.authorityFence = none →
    pr.ha.authorityFence = none
  quorumFenced : pr'.ha.role = .primary → pr'.ha.quorumFenced = false →
    pr.ha.quorumFenced = false
  tracking : pr'.ha.quorumTrackingActive = pr.ha.quorumTrackingActive
  confirmed : pr'.ha.lastMajorityConfirmedAt = pr.ha.lastMajorityConfirmedAt
  election : pr'.ha.role = .primary → pr'.ha.electionInProgress = true →
    pr.ha.electionInProgress = true
  heard : pr'.heard = pr.heard
  nodes : ∀ u c, pr'.nodes u = some c → pr.nodes u = some c
  replicas : ∀ r ∈ pr'.replicas, r ∈ pr.replicas
  tick : pr'.tick.isFence = true → pr'.tick = pr.tick
  tasks : ∀ task ∈ pr'.tasks, task.isFence = true → task ∈ pr.tasks

structure Effect.Calm (n : Node N) (e : Effect N) : Prop where
  row : e.node.tables.config.role = .primary → n.tables.config.role = .primary ∧
    e.node.tables.config.quorumFencedAt = n.tables.config.quorumFencedAt
  process : ∀ pr', e.node.process = some pr' → ∃ pr, n.process = some pr ∧ Steady pr pr'

/-- The node whose `lastSeenAt` this event refreshes. -/
def hearsFrom (pr : Process N) : Event N → Option N
  | .cursor conn u => if (pr.nodes u).any fun e => e.ws = conn then some u else none
  | .announce conn u epoch =>
      if pr.ha.epoch < epoch ∨ ((pr.nodes u).any fun e => e.ws ≠ conn) = true then none
      else some u
  | .resume i =>
      match pr.tasks[i]? with
      | some (.announced u _) => some u
      | _ => none
  | _ => none

/-- The primary knows `u` from a stream it accepted. -/
def Knows (pr : Process N) (u : N) : Prop :=
  (pr.nodes u).isSome ∨ (∃ conn, (conn, u) ∈ pr.replicas) ∨
    (∃ conn, .announced u conn ∈ pr.tasks) ∨
    ∃ epoch observedAt conn, .fenceAuthority epoch u observedAt conn ∈ pr.tasks

inductive Effect.Fences (members : Finset N) (now : Nat) (t : HaTables N) (self : N)
    (pr : Process N) (ev : Event N) : Effect N → Prop
  | voteRequest {term : Nat} {c : N} (hrole : pr.ha.role = .primary) :
      Fences members now t self pr ev
        (quiet t (({ pr with ha := { pr.ha with quorumFenced := true } }).spawn
          (.fenceForTerm term now c)))
  | fenceForTerm {i term fencedAt : Nat} {c : N}
      (htask : pr.tasks[i]? = some (.fenceForTerm term fencedAt c)) :
      Fences members now t self pr ev
        (quiet (fenceHaPrimaryForElectionTerm t term fencedAt).1
          (({ pr with tasks := pr.tasks.eraseIdx i }).spawn
            (.fencedForTerm term c (fenceHaPrimaryForElectionTerm t term fencedAt).2)))
  | tick (htick : pr.tick = .idle) :
      Fences members now t self pr ev (tickPrimaryQuorum t pr)
  | countMembers (htick : pr.tick = .countMembers) :
      Fences members now t self pr ev (countedMembers members now t pr)
  | readFence {peers : List N} (hev : ev = .resumeTick peers) (htick : pr.tick = .readFence) :
      Fences members now t self pr ev
        (quiet t (withTick pr (.checkFence t.config.quorumFencedAt)))
  | checkFence {fencedAt : Option Nat} (htick : pr.tick = .checkFence fencedAt) :
      Fences members now t self pr ev (checkedFence now t pr fencedAt)
  | clearFence {sent : List (Message N)} (htick : pr.tick = .clearFence) :
      Fences members now t self pr ev (quiet (clearQuorumFence t) (withTick pr .idle) sent)
  | setFence {fencedAt : Nat} (htick : pr.tick = .setFence fencedAt) :
      Fences members now t self pr ev (quiet (setQuorumFence t fencedAt) (withTick pr .idle))
  | activate {c : Campaign N} (htick : pr.tick = .activate c) :
      Fences members now t self pr ev (activateWinner now self t pr c)
  | openStream {conn : Nat} {node : N} {sent : List (Message N)} (hnode : node ≠ self)
      (hserving : pr.serving = true) :
      Fences members now t self pr ev
        (quiet t { pr with replicas := (conn, node) :: pr.replicas } sent)
  | hear {pr₁ pr₂ : Process N} {node : N} {conn : Nat} {sent : List (Message N)}
      (hev : hearsFrom pr ev = some node) (hknows : Knows pr node) (h₁ : Steady pr pr₁)
      (h₂ : Steady (hear now pr₁ node conn) pr₂) :
      Fences members now t self pr ev (quiet t pr₂ sent)
  | fenceAuthority {pr₁ : Process N} {task : Task N} {t' : HaTables N} {node : N}
      (hknows : Knows pr node) (h₁ : Steady pr pr₁)
      (htask : (∃ epoch observedAt conn, task = .fenceAuthority epoch node observedAt conn) ∨
        ∃ conn, task = .announced node conn)
      (hrow : t'.config.role = t.config.role ∧
        t'.config.quorumFencedAt = t.config.quorumFencedAt) :
      Fences members now t self pr ev (quiet t' (pr₁.spawn task))

section

omit [DecidableEq N]

theorem Steady.refl : Steady pr pr :=
  ⟨id, fun _ h => h, fun _ h => h, rfl, rfl, fun _ h => h, rfl, fun _ _ h => h, fun _ h => h,
    fun _ => rfl, fun _ h _ => h⟩

/-- A change outside the fences and the connected replicas. -/
theorem Steady.of_eq (hha : pr'.ha = pr.ha) (hheard : pr'.heard = pr.heard)
    (hnodes : pr'.nodes = pr.nodes) (hreplicas : pr'.replicas = pr.replicas)
    (htick : pr'.tick.isFence = true → pr'.tick = pr.tick)
    (htasks : ∀ task ∈ pr'.tasks, task.isFence = true → task ∈ pr.tasks) : Steady pr pr' := by
  constructor
  · rw [hha]; exact id
  · rw [hha]; exact fun _ h => h
  · rw [hha]; exact fun _ h => h
  · rw [hha]
  · rw [hha]
  · rw [hha]; exact fun _ h => h
  · exact hheard
  · rw [hnodes]; exact fun _ _ h => h
  · rw [hreplicas]; exact fun _ h => h
  · exact htick
  · exact htasks

theorem Steady.erase (i : Nat) : Steady pr { pr with tasks := pr.tasks.eraseIdx i } :=
  .of_eq rfl rfl rfl rfl (fun _ => rfl) fun _ h _ => List.mem_of_mem_eraseIdx h

theorem Steady.trans {pr'' : Process N} (h : Steady pr pr') (h' : Steady pr' pr'') :
    Steady pr pr'' where
  role hr := h.role (h'.role hr)
  authorityFence hr ha := h.authorityFence (h'.role hr) (h'.authorityFence hr ha)
  quorumFenced hr hq := h.quorumFenced (h'.role hr) (h'.quorumFenced hr hq)
  tracking := h'.tracking.trans h.tracking
  confirmed := h'.confirmed.trans h.confirmed
  election hr he := h.election (h'.role hr) (h'.election hr he)
  heard := h'.heard.trans h.heard
  nodes u c hc := h.nodes u c (h'.nodes u c hc)
  replicas r hr := h.replicas r (h'.replicas r hr)
  tick hf := (h'.tick hf).trans (h.tick (h'.tick hf ▸ hf))
  tasks task hm hf := h.tasks task (h'.tasks task hm hf) hf

theorem Steady.spawn {task : Task N} (h : Steady pr pr') (ht : task.isFence = false) :
    Steady pr (pr'.spawn task) := by
  refine h.trans (.of_eq rfl rfl rfl rfl (fun _ => rfl) ?_)
  intro task' hm hf
  rcases List.mem_cons.mp hm with rfl | hm
  · rw [ht] at hf; cases hf
  · exact hm

theorem Steady.withTick {tick : Tick N} (h : Steady pr pr') (ht : tick.isFence = false) :
    Steady pr (withTick pr' tick) := by
  refine h.trans (.of_eq rfl rfl rfl rfl ?_ fun _ h _ => h)
  intro hf
  change tick.isFence = true at hf
  rw [ht] at hf
  cases hf

/-- A raised epoch touches no fence. -/
theorem Steady.epoch (epoch : Nat) : Steady pr { pr with ha := { pr.ha with epoch := epoch } } :=
  ⟨id, fun _ h => h, fun _ h => h, rfl, rfl, fun _ h => h, rfl, fun _ _ h => h, fun _ h => h,
    fun _ => rfl, fun _ h _ => h⟩

theorem quiet_calm {t' : HaTables N} {sent : List (Message N)} (hn : n.process = some p₀)
    (hk : Steady p₀ pr) (hrow : t'.config.role = .primary → n.tables.config.role = .primary ∧
      t'.config.quorumFencedAt = n.tables.config.quorumFencedAt) :
    (quiet t' pr sent).Calm n := by
  refine ⟨hrow, ?_⟩
  intro pr' heq
  obtain rfl := Option.some.inj heq
  exact ⟨p₀, hn, hk⟩

end

section Tables

variable (t) (p : N) (a b : Nat)

section

omit [DecidableEq N]

theorem adoptHaDiscoveredPrimary_row :
    (adoptHaDiscoveredPrimary t p a).1.config.role = .primary → t.config.role = .primary ∧
      (adoptHaDiscoveredPrimary t p a).1.config.quorumFencedAt = t.config.quorumFencedAt := by
  unfold adoptHaDiscoveredPrimary
  split <;> simp

theorem fenceHaPrimaryAuthority_row :
    (fenceHaPrimaryAuthority t a p b).config.role = t.config.role ∧
      (fenceHaPrimaryAuthority t a p b).config.quorumFencedAt = t.config.quorumFencedAt := by
  unfold fenceHaPrimaryAuthority
  split <;> simp

theorem adoptHaReplicaElectionTerm_row :
    (adoptHaReplicaElectionTerm t a).1.config.role = t.config.role ∧
      (adoptHaReplicaElectionTerm t a).1.config.quorumFencedAt = t.config.quorumFencedAt := by
  unfold adoptHaReplicaElectionTerm
  split <;> simp

end

theorem tryPersistVoteGrant_row :
    (tryPersistVoteGrant t a p).1.config.role = t.config.role ∧
      (tryPersistVoteGrant t a p).1.config.quorumFencedAt = t.config.quorumFencedAt := by
  unfold tryPersistVoteGrant
  split <;> simp

end Tables

omit [DecidableEq N] in
theorem row_same {t' : HaTables N} (h : t'.config.role = t.config.role ∧
    t'.config.quorumFencedAt = t.config.quorumFencedAt) :
    t'.config.role = .primary → t.config.role = .primary ∧
      t'.config.quorumFencedAt = t.config.quorumFencedAt :=
  fun hr => ⟨h.1 ▸ hr, h.2⟩

theorem persistVote_calm {term : Nat} {c : N} {next : Bool → Process N}
    (hn : n.process = some p₀) (hk : ∀ granted, Steady p₀ (next granted)) :
    (persistVote now self n.tables term c next).Calm n := by
  refine ⟨row_same (tryPersistVoteGrant_row n.tables c term), ?_⟩
  intro pr' heq
  obtain rfl := Option.some.inj heq
  exact ⟨p₀, hn, hk _⟩

section Handlers

variable {i : Nat}

section

omit [DecidableEq N]

theorem adoptedElectionTerm_calm {term cursor : Nat} {c : N} {p : Option Nat}
    (hn : n.process = some p₀) (hk : Steady p₀ pr) :
    (adoptedElectionTerm self n.tables pr term c cursor p).Calm n := by
  unfold adoptedElectionTerm
  dsimp only
  (repeat' split)
  · exact quiet_calm hn hk fun h => ⟨h, rfl⟩
  · exact quiet_calm hn (hk.trans (.epoch _)) fun h => ⟨h, rfl⟩
  · exact quiet_calm hn (hk.trans (.epoch _)) fun h => ⟨h, rfl⟩
  · exact quiet_calm hn ((hk.trans (.epoch _)).spawn rfl) fun h => ⟨h, rfl⟩

theorem adoptedDiscoveredPrimary_calm {p : N} {epoch : Nat} {adopted : Bool}
    (hn : n.process = some p₀) (hk : Steady p₀ pr) :
    (adoptedDiscoveredPrimary n.tables pr p epoch adopted).Calm n := by
  unfold adoptedDiscoveredPrimary
  split
  · refine quiet_calm hn (hk.trans ?_) fun h => ⟨h, rfl⟩
    constructor <;> simp +contextual [Process.withHa]
  · exact quiet_calm hn hk fun h => ⟨h, rfl⟩

theorem proceedAfterKeyVerified_calm (hn : n.process = some p₀) (hk : Steady p₀ pr) :
    (proceedAfterKeyVerified now self n.tables pr).Calm n := by
  unfold proceedAfterKeyVerified
  dsimp only
  (repeat' split)
  · exact quiet_calm hn hk fun h => ⟨h, rfl⟩
  all_goals
    exact quiet_calm hn
      (hk.trans (.of_eq rfl rfl rfl rfl (fun _ => rfl) fun _ h _ => h)) fun h => ⟨h, rfl⟩

end

theorem resumeTask_fences {task : Task N} (hu : n.tables.intent = none)
    (hp : task.isPromotion = false) (hn : n.process = some p₀) (hev : ev = .resume i)
    (htask : p₀.tasks[i]? = some task)
    (h : resumeTask members now self n.tables { p₀ with tasks := p₀.tasks.eraseIdx i } task =
      some e) : e.Calm n ∨ e.Fences members now n.tables self p₀ ev := by
  have herase : Steady p₀ { p₀ with tasks := p₀.tasks.eraseIdx i } := .erase i
  have hsame : n.tables.config.role = .primary → n.tables.config.role = .primary ∧
      n.tables.config.quorumFencedAt = n.tables.config.quorumFencedAt := fun h => ⟨h, rfl⟩
  cases task with
  | fenceForTerm => obtain rfl := Option.some.inj h; exact .inr (.fenceForTerm htask)
  | fencedForTerm term c p =>
      obtain rfl := Option.some.inj h
      unfold fencedForElectionTerm
      left
      split
      · exact quiet_calm hn herase hsame
      · exact quiet_calm hn (herase.trans (.epoch _)) hsame
  | adoptTerm term =>
      obtain rfl := Option.some.inj h
      exact .inl (quiet_calm hn (herase.spawn rfl)
        (row_same (adoptHaReplicaElectionTerm_row n.tables term)))
  | adoptedTerm => obtain rfl := Option.some.inj h; exact .inl (adoptedElectionTerm_calm hn herase)
  | grantVote =>
      obtain rfl := Option.some.inj h
      exact .inl (persistVote_calm hn fun granted => herase.spawn rfl)
  | grantedVote => obtain rfl := Option.some.inj h; exact .inl (quiet_calm hn herase hsame)
  | adoptPrimary p epoch =>
      obtain rfl := Option.some.inj h
      exact .inl (quiet_calm hn (herase.spawn rfl)
        (adoptHaDiscoveredPrimary_row n.tables p epoch))
  | adoptedPrimary =>
      obtain rfl := Option.some.inj h
      exact .inl (adoptedDiscoveredPrimary_calm hn herase)
  | fenceAuthority epoch source observedAt conn =>
      obtain rfl := Option.some.inj h
      refine .inr (.fenceAuthority (.inr (.inr (.inr ⟨epoch, observedAt, conn, ?_⟩))) herase
        (.inr ⟨conn, rfl⟩) (fenceHaPrimaryAuthority_row n.tables source epoch observedAt))
      exact List.mem_of_getElem? htask
  | announced source conn =>
      obtain rfl := Option.some.inj h
      unfold announcedNewerEpoch
      split
      · exact .inl (quiet_calm hn herase hsame)
      · exact .inr (.hear (by simp [hev, hearsFrom, htask])
          (.inr (.inr (.inl ⟨conn, List.mem_of_getElem? htask⟩))) herase .refl)
  | persistHelloEpoch =>
      obtain rfl := Option.some.inj h
      exact .inl (quiet_calm hn (herase.spawn rfl) hsame)
  | catchUp =>
      obtain rfl := Option.some.inj h
      exact .inl (proceedAfterKeyVerified_calm hn herase)
  | readIntent =>
      obtain rfl := Option.some.inj h
      simp only [resumePromotionIfNeeded, hu]
      exact .inl (quiet_calm hn herase hsame)
  | _ => cases hp

theorem failTask_calm {task : Task N} (hp : task.isPromotion = false)
    (hn : n.process = some p₀) (htask : p₀.tasks[i]? = some task)
    (h : failTask n.tables { p₀ with tasks := p₀.tasks.eraseIdx i } task = some e) :
    e.Calm n ∨ e.Fences members now n.tables self p₀ ev := by
  have herase : Steady p₀ { p₀ with tasks := p₀.tasks.eraseIdx i } := .erase i
  have hsame : n.tables.config.role = .primary → n.tables.config.role = .primary ∧
      n.tables.config.quorumFencedAt = n.tables.config.quorumFencedAt := fun h => ⟨h, rfl⟩
  cases task with
  | fenceAuthority epoch source observedAt conn =>
      cases h
      refine .inr (.fenceAuthority (.inr (.inr (.inr ⟨epoch, observedAt, conn, ?_⟩))) herase
        (.inr ⟨conn, rfl⟩) ⟨rfl, rfl⟩)
      exact List.mem_of_getElem? htask
  | persistHelloEpoch => cases h; exact .inl (quiet_calm hn (herase.spawn rfl) hsame)
  | _ =>
      try cases hp
      all_goals cases h
      all_goals exact .inl (quiet_calm hn herase hsame)

omit [DecidableEq N] in
theorem endCampaign_steady : Steady pr (endCampaign pr) := by
  constructor <;> simp +contextual [endCampaign, abandonCampaign, withTick, Tick.isFence]

/-- A campaign moves no fence: it changes the epoch, its own flags and the timer. -/
theorem votedForSelf_calm {c : Campaign N} {granted : Bool} {peers : List N}
    (hn : n.process = some p₀) :
    (votedForSelf members now self n.tables p₀ c granted peers).Calm n := by
  unfold votedForSelf
  split
  · exact quiet_calm hn ((Steady.epoch _).trans
      (.of_eq rfl rfl rfl rfl (fun h => by cases h) fun _ h _ => h)) fun h => ⟨h, rfl⟩
  · exact quiet_calm hn endCampaign_steady fun h => ⟨h, rfl⟩

theorem tallied_calm {c : Campaign N} {responses : List (N × VoteResponse)}
    (hn : n.process = some p₀) : (tallied members self n.tables p₀ c responses).Calm n := by
  unfold tallied
  repeat' split
  case h_2 hbegin =>
      obtain rfl := beginElectionWinnerActivation_eq hbegin
      exact quiet_calm hn (.of_eq rfl rfl rfl rfl (fun h => by cases h) fun _ h _ => h)
        fun h => ⟨h, rfl⟩
  all_goals
    first
    | exact quiet_calm hn endCampaign_steady fun h => ⟨h, rfl⟩
    | exact quiet_calm hn ((Steady.epoch _).trans
        (.of_eq rfl rfl rfl rfl (fun h => by cases h) fun _ h _ => h)) fun h => ⟨h, rfl⟩

theorem resumeTick_fences {peers : List N} (hn : n.process = some p₀)
    (hev : ev = .resumeTick peers)
    (h : resumeTick members now self peers n.tables p₀ = some e) :
    e.Calm n ∨ e.Fences members now n.tables self p₀ ev := by
  have hidle : Steady p₀ (withTick p₀ .idle) := Steady.refl.withTick rfl
  have hsame : n.tables.config.role = .primary → n.tables.config.role = .primary ∧
      n.tables.config.quorumFencedAt = n.tables.config.quorumFencedAt := fun h => ⟨h, rfl⟩
  unfold resumeTick at h
  split at h
  case h_1 htick => obtain rfl := Option.some.inj h; exact .inr (.countMembers htick)
  case h_2 htick => obtain rfl := Option.some.inj h; exact .inr (.readFence hev htick)
  case h_3 htick => obtain rfl := Option.some.inj h; exact .inr (.checkFence htick)
  case h_4 htick => obtain rfl := Option.some.inj h; exact .inr (.clearFence htick)
  case h_5 htick => obtain rfl := Option.some.inj h; exact .inr (.setFence htick)
  case h_6 =>
      obtain rfl := Option.some.inj h
      exact .inl (persistVote_calm hn fun granted => Steady.refl.withTick rfl)
  case h_7 => obtain rfl := Option.some.inj h; exact .inl (votedForSelf_calm hn)
  case h_8 => obtain rfl := Option.some.inj h; exact .inl (tallied_calm hn)
  case h_9 voterTerm _ =>
      obtain rfl := Option.some.inj h
      exact .inl (quiet_calm hn endCampaign_steady
        (row_same (adoptHaReplicaElectionTerm_row n.tables voterTerm)))
  case h_10 htick => obtain rfl := Option.some.inj h; exact .inr (.activate htick)
  case h_11 =>
      obtain rfl := Option.some.inj h
      unfold activatedWinner
      left
      split
      · exact quiet_calm hn ((Steady.epoch _).trans endCampaign_steady) hsame
      · have hstop : Steady p₀ { p₀ with electionWinnerActivating := false } :=
          .of_eq rfl rfl rfl rfl (fun _ => rfl) fun _ h _ => h
        exact quiet_calm hn (hstop.trans endCampaign_steady) hsame
  case h_12 => obtain rfl := Option.some.inj h; exact .inl (quiet_calm hn hidle hsame)
  all_goals cases h

section

omit [DecidableEq N]

theorem failTick_calm (hn : n.process = some p₀) (h : failTick n.tables p₀ = some e) :
    e.Calm n := by
  have hsame : n.tables.config.role = .primary → n.tables.config.role = .primary ∧
      n.tables.config.quorumFencedAt = n.tables.config.quorumFencedAt := fun h => ⟨h, rfl⟩
  unfold failTick at h
  split at h
  case h_6 =>
      obtain rfl := Option.some.inj h
      have hstop : Steady p₀ { p₀ with electionWinnerActivating := false } :=
        .of_eq rfl rfl rfl rfl (fun _ => rfl) fun _ h _ => h
      exact quiet_calm hn (hstop.trans endCampaign_steady) hsame
  all_goals cases h
  all_goals
    first
    | exact quiet_calm hn (Steady.refl.withTick rfl) hsame
    | exact quiet_calm hn endCampaign_steady hsame

theorem expireStaleReplicaConnections_steady :
    Steady pr (expireStaleReplicaConnections pr now) := by
  refine ⟨id, fun _ h => h, fun _ h => h, rfl, rfl, fun _ h => h, rfl, ?_, fun _ h => h,
    fun _ => rfl, fun _ h _ => h⟩
  intro u c hc
  exact (Option.filter_eq_some_iff.mp hc).1

theorem handlePrimaryClose_steady (conn : Nat) : Steady pr (handlePrimaryClose pr conn) := by
  refine ⟨id, fun _ h => h, fun _ h => h, rfl, rfl, fun _ h => h, rfl, ?_, ?_, fun _ => rfl,
    fun _ h _ => h⟩
  · intro u c hc
    exact (Option.filter_eq_some_iff.mp hc).1
  · intro r hr
    exact (List.mem_filter.mp hr).1

end

theorem handleVoteRequest_fences {term cursor : Nat} {c : N} (hn : n.process = some p₀) :
    (handleVoteRequest members now self n.tables p₀ term c cursor).Calm n ∨
      (handleVoteRequest members now self n.tables p₀ term c cursor).Fences members now n.tables
        self p₀ ev := by
  unfold handleVoteRequest
  (repeat' split)
  · exact .inl (quiet_calm hn .refl fun h => ⟨h, rfl⟩)
  · exact .inl (quiet_calm hn .refl fun h => ⟨h, rfl⟩)
  · exact .inl (quiet_calm hn .refl fun h => ⟨h, rfl⟩)
  · rename_i hrole
    exact .inr (.voteRequest hrole)
  · exact .inl (quiet_calm hn (Steady.refl.spawn rfl) fun h => ⟨h, rfl⟩)

omit [DecidableEq N] in
theorem startCampaign_calm (hn : n.process = some p₀) :
    (startCampaign now n.tables p₀).Calm n := by
  unfold startCampaign
  (repeat' split)
  · exact quiet_calm hn (Steady.refl.withTick rfl) fun h => ⟨h, rfl⟩
  · exact quiet_calm hn (Steady.refl.withTick rfl) fun h => ⟨h, rfl⟩
  · rename_i hconn
    -- only a replica measures a disconnection
    have hrole : p₀.ha.role ≠ .primary := by
      intro hr
      exact hconn (by simp [disconnectedDurationMs, hr])
    refine quiet_calm hn ?_ fun h => ⟨h, rfl⟩
    constructor <;> simp +contextual [hrole, Tick.isFence]

theorem handleAnnounce_fences {conn epoch : Nat} {node : N} (hn : n.process = some p₀)
    (hev : ev = .announce conn node epoch) (hmem : (conn, node) ∈ p₀.replicas) :
    (handleAnnounce now n.tables p₀ conn node epoch).Calm n ∨
      (handleAnnounce now n.tables p₀ conn node epoch).Fences members now n.tables
        self p₀ ev := by
  have hknows : Knows p₀ node := .inr (.inl ⟨conn, hmem⟩)
  unfold handleAnnounce
  dsimp only
  split
  · refine .inr (.fenceAuthority hknows ?_ (.inl ⟨epoch, now, conn, rfl⟩) ⟨rfl, rfl⟩)
    refine ⟨id, ?_, fun _ h => h, rfl, rfl, fun _ h => h, rfl, fun _ _ h => h, fun _ h => h,
      fun _ => rfl, fun _ h _ => h⟩
    intro _ h
    dsimp only at h
    split at h
    · split at h <;> cases h
    · cases h
  · rename_i hepoch
    split
    · exact .inl (quiet_calm hn .refl fun h => ⟨h, rfl⟩)
    · rename_i hother
      have hears : hearsFrom p₀ ev = some node := by
        simp only [hev, hearsFrom]
        exact if_neg (not_or.mpr ⟨hepoch, hother⟩)
      split
      · exact .inr (.hear hears hknows .refl .refl)
      · exact .inr (.hear hears hknows .refl (Steady.refl.spawn rfl))

theorem handleCursor_fences {conn : Nat} {node : N} (hn : n.process = some p₀)
    (hev : ev = .cursor conn node) :
    (handleCursor now n.tables p₀ conn node).Calm n ∨
      (handleCursor now n.tables p₀ conn node).Fences members now n.tables self p₀ ev := by
  unfold handleCursor
  split
  · rename_i hknown
    refine .inr (.hear (by simp [hev, hearsFrom, hknown]) (.inl ?_) .refl .refl)
    cases hnode : p₀.nodes node with
    | none => rw [hnode] at hknown; cases hknown
    | some _ => rfl
  · exact .inl (quiet_calm hn .refl fun h => ⟨h, rfl⟩)

omit [DecidableEq N] in
theorem abandonCampaign_steady : Steady pr (abandonCampaign pr) := by
  constructor <;> simp +contextual [abandonCampaign]

theorem handleAnnouncePrimary_calm {p : N} {epoch : Nat} (hn : n.process = some p₀) :
    (handleAnnouncePrimary n.tables p₀ p epoch).Calm n := by
  unfold handleAnnouncePrimary
  (repeat' split)
  · exact quiet_calm hn .refl fun h => ⟨h, rfl⟩
  · exact quiet_calm hn .refl fun h => ⟨h, rfl⟩
  · exact quiet_calm hn (abandonCampaign_steady.spawn rfl) fun h => ⟨h, rfl⟩

section

omit [DecidableEq N]

theorem tickReplicaElection_calm (hn : n.process = some p₀) :
    (tickReplicaElection members now n.tables p₀).Calm n := by
  unfold tickReplicaElection
  (repeat' split)
  · exact quiet_calm hn .refl fun h => ⟨h, rfl⟩
  · exact quiet_calm hn .refl fun h => ⟨h, rfl⟩
  · exact quiet_calm hn .refl fun h => ⟨h, rfl⟩
  · exact quiet_calm hn (Steady.refl.withTick rfl) fun h => ⟨h, rfl⟩

/-- A change of the connection to the primary. -/
theorem Steady.connection {state : HaConnectionState} {since synced : Nat} :
    Steady pr { pr with
      state := state, disconnectedSince := since, lastVerifiedSyncAt := synced } :=
  .of_eq rfl rfl rfl rfl (fun _ => rfl) fun _ h _ => h

theorem handleHello_calm {conn epoch : Nat} (hn : n.process = some p₀) :
    (handleHello self n.tables p₀ conn epoch).Calm n := by
  unfold handleHello
  (repeat' split)
  · exact quiet_calm hn .connection fun h => ⟨h, rfl⟩
  · exact quiet_calm hn ((Steady.epoch _).spawn rfl) fun h => ⟨h, rfl⟩
  · exact quiet_calm hn (Steady.refl.spawn rfl) fun h => ⟨h, rfl⟩

end

theorem handlePrimaryRedirect_calm {p : N} {epoch : Nat} (hn : n.process = some p₀) :
    (handlePrimaryRedirect n.tables p₀ p epoch).Calm n := by
  unfold handlePrimaryRedirect
  (repeat' split)
  · exact quiet_calm hn .refl fun h => ⟨h, rfl⟩
  · exact quiet_calm hn .connection fun h => ⟨h, rfl⟩
  · exact quiet_calm hn (Steady.refl.spawn rfl) fun h => ⟨h, rfl⟩

theorem handlePrimaryOpen_fences {conn : Nat} {node : N} (hn : n.process = some p₀)
    (hnode : node ≠ self) :
    (handlePrimaryOpen n.tables p₀ conn node).Calm n ∨
      (handlePrimaryOpen n.tables p₀ conn node).Fences members now n.tables self p₀ ev := by
  unfold handlePrimaryOpen
  (repeat' split)
  · rename_i hserving
    exact .inr (.openStream hnode hserving)
  · exact .inl (quiet_calm hn .refl fun h => ⟨h, rfl⟩)
  · exact .inl (quiet_calm hn .refl fun h => ⟨h, rfl⟩)

end Handlers

theorem processStep_fences (hu : n.Unpromoted) (hnet : NoPromote net)
    (hev : ev.isPromoteNode = false) (hn : n.process = some p₀)
    (h : processStep members now fresh net self n.tables p₀ ev = some e) :
    e.Calm n ∨ e.Fences members now n.tables self p₀ ev := by
  have hsame : n.tables.config.role = .primary → n.tables.config.role = .primary ∧
      n.tables.config.quorumFencedAt = n.tables.config.quorumFencedAt := fun h => ⟨h, rfl⟩
  cases ev with
  | boot => cases h
  | crash => cases h; exact .inl ⟨hsame, by simp⟩
  | voteRequest =>
      simp only [processStep] at h
      split at h <;> cases h
      exact handleVoteRequest_fences hn
  | whoIsPrimary => cases h; exact .inl (quiet_calm hn .refl hsame)
  | announcePrimary =>
      simp only [processStep] at h
      split at h <;> cases h
      exact .inl (handleAnnouncePrimary_calm hn)
  | tick =>
      simp only [processStep] at h
      split at h <;> cases h
      case h_1 htick _ => exact .inr (.tick htick)
      case h_2 => exact .inl (tickReplicaElection_calm hn)
  | resumeTick peers => exact resumeTick_fences hn rfl h
  | failTick => exact .inl (failTick_calm hn h)
  | electionTimeout =>
      simp only [processStep] at h
      (repeat' split at h) <;> cases h
      · exact .inl (quiet_calm hn (Steady.refl.withTick rfl) hsame)
      · exact .inl (startCampaign_calm hn)
  | discovered =>
      simp only [processStep] at h
      (repeat' split at h) <;> cases h
      exact .inl (quiet_calm hn (endCampaign_steady.spawn rfl) hsame)
  | recovered =>
      simp only [processStep] at h
      (repeat' split at h) <;> cases h
      exact .inl (quiet_calm hn ((Steady.refl.withTick rfl).spawn rfl) hsame)
  | voteResponse =>
      simp only [processStep] at h
      (repeat' split at h) <;> cases h
      exact .inl (quiet_calm hn (Steady.refl.withTick rfl) hsame)
  | connectToPrimary =>
      simp only [processStep, connectToPrimary] at h
      split at h <;> cases h
      exact .inl (quiet_calm hn
        (.of_eq rfl rfl rfl rfl (fun _ => rfl) fun _ h _ => h) hsame)
  | hello =>
      simp only [processStep] at h
      split at h <;> cases h
      exact .inl (handleHello_calm hn)
  | primaryRedirect =>
      simp only [processStep] at h
      split at h <;> cases h
      exact .inl (handlePrimaryRedirect_calm hn)
  | heartbeat =>
      simp only [processStep] at h
      split at h <;> cases h
      unfold handleHeartbeat
      split
      · exact .inl (quiet_calm hn .connection hsame)
      · exact .inl (quiet_calm hn .refl hsame)
  | replicated =>
      simp only [processStep] at h
      split at h <;> cases h
      exact .inl (quiet_calm hn
        (.of_eq rfl rfl rfl rfl (fun _ => rfl) fun _ h _ => h) hsame)
  | replicaClose code =>
      cases h
      obtain ⟨state, since, heq⟩ := handleReplicaClose_eq now p₀ code
      exact .inl (quiet_calm hn (heq ▸ .connection) hsame)
  | checkHeartbeatWatchdog =>
      cases h
      obtain ⟨state, since, heq⟩ := checkHeartbeatWatchdog_eq now p₀
      exact .inl (quiet_calm hn (heq ▸ .connection) hsame)
  | openStream =>
      simp only [processStep] at h
      split at h <;> cases h
      rename_i hc
      exact handlePrimaryOpen_fences hn hc.2.2
  | primaryClose conn => cases h; exact .inl (quiet_calm hn (handlePrimaryClose_steady conn) hsame)
  | broadcastHeartbeat =>
      simp only [processStep] at h
      split at h <;> cases h
      exact .inl (quiet_calm hn .refl hsame)
  | expireStaleReplicaConnections =>
      cases h
      exact .inl (quiet_calm hn expireStaleReplicaConnections_steady hsame)
  | announce =>
      simp only [processStep] at h
      split at h <;> cases h
      rename_i hc
      exact handleAnnounce_fences hn rfl hc.2
  | cursor =>
      simp only [processStep] at h
      split at h <;> cases h
      exact handleCursor_fences hn rfl
  | promote conn i =>
      simp only [processStep] at h
      split at h <;> cases h
      rename_i hc
      exact absurd hc.1 (hnet conn i)
  | promoteNode => cases hev
  | promoteAppliedAck =>
      simp only [processStep] at h
      split at h
      · rename_i htask
        cases (hu.process p₀ hn).tasks _ (List.mem_of_getElem? htask)
      · cases h
  | resume i =>
      simp only [processStep] at h
      split at h
      · rename_i task htask
        exact resumeTask_fences hu.intent
          ((hu.process p₀ hn).tasks _ (List.mem_of_getElem? htask)) hn rfl htask h
      · cases h
  | fail i =>
      simp only [processStep] at h
      split at h
      · rename_i task htask
        exact failTask_calm ((hu.process p₀ hn).tasks _ (List.mem_of_getElem? htask)) hn htask h
      · cases h

/-- Without manual promotion an event is a boot, leaves the fences alone, or is one of the
segments listed. -/
theorem nodeStep_fences (hu : n.Unpromoted) (hnet : NoPromote net)
    (hev : ev.isPromoteNode = false) (h : nodeStep members now fresh net self n ev = some e) :
    n.process = none ∧ boot members now n.tables = some e ∨ e.Calm n ∨
      ∃ pr, n.process = some pr ∧ e.Fences members now n.tables self pr ev := by
  unfold nodeStep at h
  split at h
  · rename_i hp; exact .inl ⟨hp, h⟩
  · cases h
  · rename_i pr hp
    rcases processStep_fences hu hnet hev hp h with hc | hf
    · exact .inr (.inl hc)
    · exact .inr (.inr ⟨pr, hp, hf⟩)

end BurrowGate.Ha
