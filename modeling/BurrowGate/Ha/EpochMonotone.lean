import BurrowGate.Ha.EpochOwner

/-!
# When the durable epoch does not go back

Most transactions on `ha_cluster_config` compare the epoch they write with the
row's. Three do not: the epoch `handleHello` stores, `applyRoleChange` and
`completeHaPromotionIntent` write an epoch that was compared with the process's
memory, or stored with an intent, before an `await`.
-/

namespace BurrowGate.Ha

open Lib.Run
open Lib.Quorum

variable {N : Type*} [DecidableEq N] {members : Finset N} {now fresh : Nat}
  {net : List (Message N)} {me : N} {t t' : HaTables N} {pr : Process N} {n : Node N}
  {e : Effect N} {ev : Event N}

/-- The epoch does not go back, and the vote register neither goes back nor changes its
candidate within a term. -/
structure Advances (r r' : HaClusterConfigRow N) : Prop where
  epoch : r.clusterEpoch ≤ r'.clusterEpoch
  votedFor : ∀ term c, r.votedFor = some (term, c) → Covers r'.votedFor term c

section

omit [DecidableEq N]

theorem Advances.refl (r : HaClusterConfigRow N) : Advances r r :=
  ⟨le_rfl, fun term c h => h ▸ covers_self term c⟩

theorem Advances.trans {r₁ r₂ r₃ : HaClusterConfigRow N} (h : Advances r₁ r₂)
    (h' : Advances r₂ r₃) : Advances r₁ r₃ := by
  refine ⟨h.epoch.trans h'.epoch, fun term c hr => ?_⟩
  obtain ⟨term₂, c₂, hr₂, hle₂, heq₂⟩ := h.votedFor term c hr
  obtain ⟨term₃, c₃, hr₃, hle₃, heq₃⟩ := h'.votedFor term₂ c₂ hr₂
  refine ⟨term₃, c₃, hr₃, hle₂.trans hle₃, fun hsame => ?_⟩
  have hterm₂ : term = term₂ := by omega
  have hterm₃ : term₂ = term₃ := by omega
  exact (heq₂ hterm₂).trans (heq₃ hterm₃)

end

/-! ## The epoch each transaction writes -/

section Tables

variable (t) (p : N) (a b : Nat)

section

omit [DecidableEq N]

theorem le_raisedEpoch (row : HaClusterConfigRow N) : row.clusterEpoch ≤ raisedEpoch row a := by
  unfold raisedEpoch
  split <;> omega

theorem adoptHaDiscoveredPrimary_epoch :
    t.config.clusterEpoch ≤ (adoptHaDiscoveredPrimary t p a).1.config.clusterEpoch := by
  unfold adoptHaDiscoveredPrimary
  split
  · assumption
  · exact le_rfl

theorem fenceHaPrimaryAuthority_epoch :
    t.config.clusterEpoch ≤ (fenceHaPrimaryAuthority t a p b).config.clusterEpoch := by
  unfold fenceHaPrimaryAuthority
  split
  · exact le_raisedEpoch a t.config
  · exact le_rfl

theorem fenceHaPrimaryForElectionTerm_epoch :
    t.config.clusterEpoch ≤ (fenceHaPrimaryForElectionTerm t a b).1.config.clusterEpoch := by
  unfold fenceHaPrimaryForElectionTerm
  split
  · exact le_raisedEpoch a t.config
  · exact le_rfl

theorem adoptHaReplicaElectionTerm_epoch :
    t.config.clusterEpoch ≤ (adoptHaReplicaElectionTerm t a).1.config.clusterEpoch := by
  unfold adoptHaReplicaElectionTerm
  split
  · exact le_raisedEpoch a t.config
  · exact le_rfl

end

theorem tryPersistVoteGrant_epoch :
    t.config.clusterEpoch ≤ (tryPersistVoteGrant t a p).1.config.clusterEpoch := by
  unfold tryPersistVoteGrant
  split
  · exact le_raisedEpoch a t.config
  · exact le_rfl

theorem activateHaElectionWinner_epoch (q : Option N) :
    t.config.clusterEpoch ≤ (activateHaElectionWinner t a p q).1.config.clusterEpoch := by
  unfold activateHaElectionWinner
  split
  · rename_i hc
    exact hc.2.1.le
  · exact le_rfl

section

omit [DecidableEq N]

theorem clearHaPromotionIntent_epoch :
    t.config.clusterEpoch ≤ (clearHaPromotionIntent t a).config.clusterEpoch := by
  rw [clearHaPromotionIntent_config]

theorem prepareForRuntimeAtBoot_epoch (ha : HaConfig N) :
    t.config.clusterEpoch ≤ (prepareForRuntimeAtBoot a b ha t).2.config.clusterEpoch := by
  unfold prepareForRuntimeAtBoot
  dsimp only
  (repeat' split) <;> exact le_rfl

end

end Tables

/-! ## The epoch one event writes -/

/-- The epoch a transaction stores without comparing it with the row's. -/
def Task.unguardedEpoch (t : HaTables N) : Ha.Task N → Option Nat
  | .persistHelloEpoch epoch _ => some epoch
  | .applyRoleChange i _ => some i.newEpoch
  | .completeIntent i _ =>
      if (completeHaPromotionIntent t i.promotionId i.targetNodeId i.newEpoch).2 then
        some i.newEpoch
      else none
  | _ => none

def unguardedEpoch (n : Node N) : Event N → Option Nat
  | .resume i => (n.process.bind fun pr => pr.tasks[i]?).bind (Task.unguardedEpoch n.tables)
  | _ => none

/-- What an event with unguarded epoch `w` makes of the row's epoch. -/
def EpochAfter (w : Option Nat) (t t' : HaTables N) : Prop :=
  match w with
  | some epoch => t'.config.clusterEpoch = epoch
  | none => t.config.clusterEpoch ≤ t'.config.clusterEpoch

omit [DecidableEq N] in
theorem completeHaPromotionIntent_epoch (id : Nat) (p : N) (a : Nat) :
    EpochAfter (if (completeHaPromotionIntent t id p a).2 then some a else none) t
      (completeHaPromotionIntent t id p a).1 := by
  unfold completeHaPromotionIntent
  split
  · exact rfl
  · exact le_rfl

theorem resumeTask_epoch {task : Ha.Task N}
    (h : resumeTask members now me n.tables pr task = some e) :
    EpochAfter (task.unguardedEpoch n.tables) n.tables e.node.tables := by
  cases task with
  | fenceForTerm =>
      obtain rfl := Option.some.inj h
      exact fenceHaPrimaryForElectionTerm_epoch _ _ _
  | adoptTerm =>
      obtain rfl := Option.some.inj h
      exact adoptHaReplicaElectionTerm_epoch _ _
  | grantVote =>
      obtain rfl := Option.some.inj h
      exact tryPersistVoteGrant_epoch _ _ _
  | adoptPrimary =>
      obtain rfl := Option.some.inj h
      exact adoptHaDiscoveredPrimary_epoch _ _ _
  | fenceAuthority =>
      obtain rfl := Option.some.inj h
      exact fenceHaPrimaryAuthority_epoch _ _ _ _
  | clearIntent =>
      obtain rfl := Option.some.inj h
      exact clearHaPromotionIntent_epoch _ _
  | persistHelloEpoch =>
      obtain rfl := Option.some.inj h
      rfl
  | applyRoleChange i conn =>
      obtain rfl := Option.some.inj h
      show (applyRoleChange now me n.tables pr i conn).node.tables.config.clusterEpoch = i.newEpoch
      unfold applyRoleChange
      dsimp only
      split <;> rfl
  | completeIntent i resumed =>
      obtain rfl := Option.some.inj h
      exact completeHaPromotionIntent_epoch _ _ _
  | awaitApplied => cases h
  | _ =>
      obtain rfl := Option.some.inj h
      show n.tables.config.clusterEpoch ≤ _
      try simp only [fencedForElectionTerm, adoptedElectionTerm, adoptedDiscoveredPrimary,
        announcedNewerEpoch, proceedAfterKeyVerified, resumePromotionIfNeeded, prepared,
        sendPromote, handoverStopped, completedIntent, appliedRoleChange]
      (repeat' split) <;> exact le_rfl

theorem resumeTick_epoch {peers : List N}
    (h : resumeTick members now me peers n.tables pr = some e) :
    n.tables.config.clusterEpoch ≤ e.node.tables.config.clusterEpoch := by
  unfold resumeTick at h
  split at h
  case h_6 => obtain rfl := Option.some.inj h; exact tryPersistVoteGrant_epoch _ _ _
  case h_9 => obtain rfl := Option.some.inj h; exact adoptHaReplicaElectionTerm_epoch _ _
  case h_10 => obtain rfl := Option.some.inj h; exact activateHaElectionWinner_epoch _ _ _ _
  all_goals cases h
  all_goals
    try simp only [countedMembers, checkedFence, clearQuorumLossIfFenced, votedForSelf,
      tallied, activatedWinner]
    repeat' split
  all_goals exact le_rfl

omit [DecidableEq N] in
theorem failTask_epoch {task : Ha.Task N} (h : failTask n.tables pr task = some e) :
    n.tables.config.clusterEpoch ≤ e.node.tables.config.clusterEpoch := by
  cases task <;> cases h <;> try exact le_rfl
  all_goals (simp only [handoverStopped]; split <;> exact le_rfl)

theorem processStep_epoch (hn : n.process = some pr)
    (h : processStep members now fresh net me n.tables pr ev = some e) :
    EpochAfter (unguardedEpoch n ev) n.tables e.node.tables := by
  cases ev with
  | resume i =>
      simp only [processStep] at h
      split at h
      · rename_i task htask
        have hw : unguardedEpoch n (.resume i) = task.unguardedEpoch n.tables := by
          simp [unguardedEpoch, hn, htask]
        rw [hw]
        exact resumeTask_epoch h
      · cases h
  | fail i =>
      simp only [processStep] at h
      split at h
      · exact failTask_epoch h
      · cases h
  | resumeTick peers => exact resumeTick_epoch h
  | failTick =>
      simp only [processStep] at h
      unfold failTick at h
      split at h <;> cases h <;> exact le_rfl
  | promoteAppliedAck i conn id success =>
      simp only [processStep, promoteAnswered, handoverStopped] at h
      (repeat' split at h) <;> cases h <;> exact le_rfl
  | promoteNode target id =>
      simp only [processStep, promoteNode] at h
      (repeat' split at h) <;> cases h
      exact le_rfl
  | promote conn i =>
      simp only [processStep, handlePromote] at h
      (repeat' split at h) <;> cases h <;> exact le_rfl
  | crash => cases h; exact le_rfl
  | _ =>
      simp only [processStep, connectToPrimary, reduceCtorEq] at h
      all_goals (repeat' split at h) <;> cases h
      all_goals
        show n.tables.config.clusterEpoch ≤ _
        try simp only [handleVoteRequest, handleAnnouncePrimary, tickPrimaryQuorum,
          tickReplicaElection, startCampaign, handleHello, handlePrimaryRedirect,
          handleHeartbeat, handlePrimaryOpen, handleCursor, handleAnnounce]
        repeat' split
      all_goals exact le_rfl

theorem nodeStep_epoch (h : nodeStep members now fresh net me n ev = some e) :
    EpochAfter (unguardedEpoch n ev) n.tables e.node.tables := by
  unfold nodeStep at h
  split at h
  · obtain ⟨ha, -, rfl⟩ := Option.map_eq_some_iff.mp h
    exact prepareForRuntimeAtBoot_epoch _ _ _ _
  · cases h
  · rename_i pr hpr
    exact processStep_epoch hpr h

theorem nodeStep_votedFor (h : nodeStep members now fresh net me n ev = some e) (term : Nat)
    (c : N) (hv : n.tables.config.votedFor = some (term, c)) :
    Covers e.node.tables.config.votedFor term c := by
  rcases register_step (nodeStep_inversion h) with ⟨-, hsame⟩ | ⟨_, _, -, -, hmay, -, hset⟩
  · rw [hsame, hv]
    exact covers_self term c
  · rw [hset]
    exact covers_set hmay (hv ▸ covers_self term c)

/-! ## Runs -/

/-- An epoch that is written unguarded is not below the row's. -/
def KeepsEpoch (s : Cluster N) : Action N → Prop
  | .advance _ => True
  | .at n ev =>
      ∀ epoch ∈ unguardedEpoch (s.node n) ev, (s.node n).tables.config.clusterEpoch ≤ epoch

instance (s : Cluster N) : ∀ act, Decidable (KeepsEpoch s act)
  | .advance _ => inferInstanceAs (Decidable True)
  | .at _ _ => inferInstanceAs (Decidable (∀ epoch ∈ unguardedEpoch _ _, _))

def Cluster.Advances (s s' : Cluster N) : Prop :=
  ∀ n, Ha.Advances (s.node n).tables.config (s'.node n).tables.config

theorem nodeStep_advances_iff (h : nodeStep members now fresh net me n ev = some e) :
    Advances n.tables.config e.node.tables.config ↔
      ∀ epoch ∈ unguardedEpoch n ev, n.tables.config.clusterEpoch ≤ epoch := by
  have hafter := nodeStep_epoch h
  have hvoted := nodeStep_votedFor h
  cases hw : unguardedEpoch n ev with
  | none =>
      rw [hw] at hafter
      exact ⟨fun _ => by simp, fun _ => ⟨hafter, hvoted⟩⟩
  | some epoch =>
      rw [hw] at hafter
      change _ = epoch at hafter
      refine ⟨fun hadv => ?_, fun hle => ⟨?_, hvoted⟩⟩
      · have := hadv.epoch
        simpa [← hafter] using this
      · rw [hafter]
        exact hle epoch rfl

/-- One action keeps every node's epoch and vote register exactly when it writes no epoch
below the row's. -/
theorem step_advances_iff {s s' : Cluster N} {act : Action N}
    (h : step members s act = some s') : s.Advances s' ↔ KeepsEpoch s act := by
  cases act with
  | advance ms =>
      obtain rfl := Option.some.inj h
      exact ⟨fun _ => trivial, fun _ n => .refl _⟩
  | «at» me ev =>
      obtain ⟨e, he, rfl⟩ := Option.map_eq_some_iff.mp h
      have hiff := nodeStep_advances_iff he
      have hme : (s.commit me e).node me = e.node := Function.update_self _ _ _
      constructor
      · intro hadv
        have := hadv me
        rw [hme] at this
        exact hiff.mp this
      · intro hkeep n
        by_cases hn : n = me
        · rw [hn, hme]
          exact hiff.mpr hkeep
        · have hother : (s.commit me e).node n = s.node n := Function.update_of_ne hn _ _
          rw [hother]
          exact .refl _

/-- From any state, a run that writes no epoch below a row's never lowers an epoch, and never
lowers a vote or changes its candidate; and a step that does write one lowers it. -/
theorem cluster_epoch_monotone (s : Cluster N) :
    (∀ s', Reach (step members) KeepsEpoch (· = s) s' → s.Advances s') ∧
      ∀ act s', step members s act = some s' → (s.Advances s' ↔ KeepsEpoch s act) := by
  refine ⟨fun s' hrun => ?_, fun act s' hstep => step_advances_iff hstep⟩
  refine hrun.invariant (fun s₁ hs n => hs ▸ .refl _) ?_
  intro s₁ act s₂ _ hadv hkeep hstep n
  exact (hadv n).trans ((step_advances_iff hstep).mpr hkeep n)

/-- The vote register needs no condition: whatever the nodes do, a vote that is durable is
never withdrawn, nor given to another candidate in its term. -/
theorem vote_never_withdrawn {s s' : Cluster N} (h : Reach (step members) Any (· = s) s') (n : N)
    {term : Nat} {c : N} (hv : (s.node n).tables.config.votedFor = some (term, c)) :
    Covers (s'.node n).tables.config.votedFor term c := by
  refine h.invariant (I := fun s' => Covers (s'.node n).tables.config.votedFor term c) ?_ ?_
  · rintro s₁ rfl
    exact hv ▸ covers_self term c
  · intro s₁ act s₂ _ hcovers _ hstep
    cases act with
    | advance ms =>
        obtain rfl := Option.some.inj hstep
        exact hcovers
    | «at» me ev =>
        obtain ⟨e, he, rfl⟩ := Option.map_eq_some_iff.mp hstep
        by_cases hn : n = me
        · subst hn
          obtain ⟨term₁, c₁, hr₁, hle₁, heq₁⟩ := hcovers
          have hset : (s₁.commit n e).node n = e.node := Function.update_self _ _ _
          obtain ⟨term₂, c₂, hr₂, hle₂, heq₂⟩ := nodeStep_votedFor he term₁ c₁ hr₁
          refine ⟨term₂, c₂, hset ▸ hr₂, hle₁.trans hle₂, fun hsame => ?_⟩
          exact (heq₁ (by omega)).trans (heq₂ (by omega))
        · have hother : (s₁.commit me e).node n = s₁.node n := Function.update_of_ne hn _ _
          rw [hother]
          exact hcovers

/-! ## Runs of three nodes -/

/-- `u` campaigns twice, and no vote but its own comes in. -/
def campaignsTwice (u : N) (peers : List N) : List (Action N) :=
  (List.replicate 2 [.at u .tick, .at u (.electionTimeout 45000), .at u (.resumeTick []),
    .at u (.resumeTick peers), .at u (.resumeTick [])]).flatten

/-- `v` comes back to `p` on the stream `conn`, and `p` resumes the promotion of `v`. -/
def resumesPromotion (p v : N) (conn : Nat) : List (Action N) :=
  [.at v .connectToPrimary, .at p (.openStream conn v), .at v (.hello conn 0), .at v (.resume 0),
    .at p (.announce conn v 0), .at p (.resume 0), .at p (.resume 0), .at p (.resume 0),
    .at v (.promote conn (intentFor v)), .at v (.resume 0), .at v (.resume 0)]

theorem cluster_epoch_monotone_promoted : ∃ s s' s'' : Cluster (Fin 3),
    Reach (step Finset.univ) KeepsEpoch (· = s) s' ∧ s.Advances s' ∧
      step Finset.univ s' (.at 2 (.resume 0)) = some s'' ∧
      (s'.node 2).tables.config.clusterEpoch = 0 ∧ (s''.node 2).tables.config.clusterEpoch = 1 ∧
      (s'.Advances s'' ↔ KeepsEpoch s' (.at 2 (.resume 0))) := by
  have hrun : ((execIf (step Finset.univ) KeepsEpoch (initial 1 (fun _ => 0) (0 : Fin 3))
      (leads 0 1 2 ++ stores 0 2 ++ [Action.at 0 (.resume 0), .at 2 (.promote 4 (intentFor 2))])).bind
        fun s' => (step Finset.univ s' (.at 2 (.resume 0))).map fun s'' =>
          ((s'.node 2).tables.config.clusterEpoch, (s''.node 2).tables.config.clusterEpoch)) =
      some (0, 1) := by
    decide +kernel
  obtain ⟨s', hexec, hlast⟩ := Option.bind_eq_some_iff.mp hrun
  obtain ⟨s'', hstep, hval⟩ := Option.map_eq_some_iff.mp hlast
  obtain ⟨hbefore, hafter⟩ := Prod.mk.inj hval
  have hstart : Reach (step Finset.univ) KeepsEpoch (· = initial 1 (fun _ => 0) (0 : Fin 3))
      (initial 1 (fun _ => 0) (0 : Fin 3)) := .start rfl
  have hreach := execIf_reach hstart hexec
  exact ⟨_, s', s'', hreach, (cluster_epoch_monotone _).1 s' hreach, hstep, hbefore, hafter,
    (cluster_epoch_monotone s').2 _ s'' hstep⟩

/-- Node 0 restarts with the intent of epoch 1 stored, and all lose it. Node 2 comes back, is
promoted and answers; before the answer is handled, node 1's second campaign raises node 0 to
epoch 2. Completing the intent puts epoch 1 back. -/
theorem cluster_epoch_goes_back : ¬ ∀ (s s' : Cluster (Fin 3)) (act : Action (Fin 3)),
    Reach (step Finset.univ) Any Initial s → step Finset.univ s act = some s' →
      s.Advances s' := by
  intro hclaim
  have hrun : ((exec (step Finset.univ) (initial 1 (fun _ => 0) (0 : Fin 3))
      (leads 0 1 2 ++ stores 0 2 ++ [Action.at 0 .crash, .at 0 .boot] ++ closes 1 2 ++
        Action.advance 45000 :: resumesPromotion 0 2 42 ++ campaignsTwice 1 [0, 2] ++
        [Action.at 0 (.voteRequest 2 1 0), .at 0 (.resume 0),
          .at 0 (.promoteAppliedAck 1 42 7 true)])).bind fun s =>
        (step Finset.univ s (.at 0 (.resume 0))).map fun s' =>
          ((s.node 0).tables.config.clusterEpoch, (s'.node 0).tables.config.clusterEpoch)) =
      some (2, 1) := by
    decide +kernel
  obtain ⟨s, hexec, hlast⟩ := Option.bind_eq_some_iff.mp hrun
  obtain ⟨s', hstep, hval⟩ := Option.map_eq_some_iff.mp hlast
  obtain ⟨hbefore, hafter⟩ := Prod.mk.inj hval
  have hstart : Reach (step Finset.univ) Any Initial (initial 1 (fun _ => 0) (0 : Fin 3)) :=
    .start ⟨1, fun _ => 0, 0, rfl⟩
  have hle := (hclaim s s' _ (exec_reach hstart hexec) hstep 0).epoch
  rw [hbefore, hafter] at hle
  omega

/-- Node 2 votes for node 1 in term 1 and restarts. -/
theorem vote_never_withdrawn_restarted : ∃ s s' : Cluster (Fin 3),
    Reach (step Finset.univ) Any (· = s) s' ∧
      (s.node 2).tables.config.votedFor = some (1, 1) ∧
      Covers (s'.node 2).tables.config.votedFor 1 1 := by
  have hrun : ((exec (step Finset.univ) (initial 1 (fun _ => 0) (0 : Fin 3))
      (joins 0 1 2 ++ closes 1 2 ++ .advance 45000 :: elects 0 1 2)).bind fun s =>
        (exec (step Finset.univ) s [.at 2 .crash, .at 2 .boot]).map fun _ =>
          (s.node 2).tables.config.votedFor) = some (some (1, 1)) := by
    decide +kernel
  obtain ⟨s, -, hlast⟩ := Option.bind_eq_some_iff.mp hrun
  obtain ⟨s', hexec, hvoted⟩ := Option.map_eq_some_iff.mp hlast
  have hreach : Reach (step Finset.univ) Any (· = s) s' := exec_reach (.start rfl) hexec
  exact ⟨s, s', hreach, hvoted, vote_never_withdrawn hreach 2 hvoted⟩

end BurrowGate.Ha
