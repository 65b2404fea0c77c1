import BurrowGate.Ha.Inversion

/-!
# Runs without manual promotion

When no node stores an intent, no promotion step is suspended and no `promote`
message is in flight, only `promoteNode` can bring one about.
-/

namespace BurrowGate.Ha

open Lib.Run
open Lib.Quorum

variable {N : Type*} [DecidableEq N] {members : Finset N} {now fresh : Nat}
  {net : List (Message N)} {self : N} {t : HaTables N} {pr pr' : Process N} {n : Node N}
  {e : Effect N}

def Task.isPromotion : Task N → Bool
  | .prepare _ _ _ | .saveIntent _ _ | .resumePrepare _ _ | .sendPromote _ _ _ => true
  | .awaitApplied _ _ _ | .completeIntent _ _ | .completedIntent _ _ _ | .clearIntent _ => true
  | .applyRoleChange _ _ | .appliedRoleChange _ _ _ => true
  | _ => false

def Event.isPromoteNode : Event N → Bool
  | .promoteNode _ _ => true
  | _ => false

structure Process.Unpromoted (pr : Process N) : Prop where
  tasks : ∀ task ∈ pr.tasks, task.isPromotion = false
  fenced : pr.ha.fencedForPromotion = false

structure Node.Unpromoted (n : Node N) : Prop where
  intent : n.tables.intent = none
  process : ∀ pr, n.process = some pr → pr.Unpromoted

def NoPromote (net : List (Message N)) : Prop := ∀ conn i, .promote conn i ∉ net

structure Effect.Unpromoted (e : Effect N) : Prop where
  node : e.node.Unpromoted
  sent : NoPromote e.sent

section

omit [DecidableEq N]

@[simp] theorem promote_mem_heartbeats (conn : Nat) (i : HaPromotionIntent N) :
    .promote conn i ∉ heartbeats pr := by
  simp [heartbeats]

@[simp] theorem promote_eq_rejectVote (conn : Nat) (i : HaPromotionIntent N) (term : Nat) (c : N) :
    .promote conn i ≠ rejectVote self pr term c := by
  simp [rejectVote]

theorem quiet_unpromoted {sent : List (Message N)} (ht : t.intent = none) (hp : pr.Unpromoted)
    (hs : NoPromote sent) : (quiet t pr sent).Unpromoted := by
  refine ⟨⟨ht, ?_⟩, hs⟩
  intro pr' hpr'
  obtain rfl := Option.some.inj hpr'
  exact hp

theorem Process.Unpromoted.erase (h : pr.Unpromoted) (i : Nat) :
    Process.Unpromoted { pr with tasks := pr.tasks.eraseIdx i } :=
  ⟨fun task hm => h.tasks task (List.mem_of_mem_eraseIdx hm), h.fenced⟩

theorem Process.Unpromoted.of_eq (h : pr.Unpromoted) (htasks : pr'.tasks = pr.tasks)
    (hf : pr'.ha.fencedForPromotion = pr.ha.fencedForPromotion) : pr'.Unpromoted :=
  ⟨by rw [htasks]; exact h.tasks, by rw [hf]; exact h.fenced⟩

theorem Process.Unpromoted.spawn {task : Task N} (h : pr.Unpromoted)
    (ht : task.isPromotion = false) : (pr.spawn task).Unpromoted := by
  refine ⟨?_, h.fenced⟩
  intro task' hm
  rcases List.mem_cons.mp hm with rfl | hm
  · exact ht
  · exact h.tasks task' hm

end

section Tables

variable (h : t.intent = none) (p : N) (a b : Nat)
include h

section

omit [DecidableEq N]

theorem adoptHaDiscoveredPrimary_intent : (adoptHaDiscoveredPrimary t p a).1.intent = none := by
  unfold adoptHaDiscoveredPrimary; split <;> simp [h]

theorem fenceHaPrimaryAuthority_intent : (fenceHaPrimaryAuthority t a p b).intent = none := by
  unfold fenceHaPrimaryAuthority; split <;> simp [h]

theorem fenceHaPrimaryForElectionTerm_intent :
    (fenceHaPrimaryForElectionTerm t a b).1.intent = none := by
  unfold fenceHaPrimaryForElectionTerm; split <;> simp [h]

theorem adoptHaReplicaElectionTerm_intent : (adoptHaReplicaElectionTerm t a).1.intent = none := by
  unfold adoptHaReplicaElectionTerm; split <;> simp [h]

end

theorem tryPersistVoteGrant_intent : (tryPersistVoteGrant t a p).1.intent = none := by
  unfold tryPersistVoteGrant; split <;> simp [h]

theorem activateHaElectionWinner_intent (q : Option N) :
    (activateHaElectionWinner t a p q).1.intent = none := by
  unfold activateHaElectionWinner; split <;> simp [h]

end Tables

theorem resumeTask_unpromoted {task : Task N} (ht : t.intent = none) (hp : pr.Unpromoted)
    (htask : task.isPromotion = false) (h : resumeTask members now self t pr task = some e) :
    e.Unpromoted := by
  cases task with
  | grantVote term c =>
      obtain rfl := Option.some.inj h
      refine ⟨⟨tryPersistVoteGrant_intent ht _ _, fun pr' hpr' => ?_⟩, by simp [NoPromote, persistVote]⟩
      obtain rfl := Option.some.inj hpr'
      exact hp.spawn rfl
  | awaitApplied => cases h
  | fenceForTerm =>
      obtain rfl := Option.some.inj h
      exact quiet_unpromoted (fenceHaPrimaryForElectionTerm_intent ht _ _) (hp.spawn rfl)
        (by simp [NoPromote])
  | adoptTerm =>
      obtain rfl := Option.some.inj h
      exact quiet_unpromoted (adoptHaReplicaElectionTerm_intent ht _) (hp.spawn rfl)
        (by simp [NoPromote])
  | adoptPrimary =>
      obtain rfl := Option.some.inj h
      exact quiet_unpromoted (adoptHaDiscoveredPrimary_intent ht _ _) (hp.spawn rfl)
        (by simp [NoPromote])
  | fenceAuthority =>
      obtain rfl := Option.some.inj h
      exact quiet_unpromoted (fenceHaPrimaryAuthority_intent ht _ _ _) (hp.spawn rfl)
        (by simp [NoPromote])
  | _ =>
      try cases htask
      all_goals
        obtain rfl := Option.some.inj h
        try simp only [fencedForElectionTerm, adoptedElectionTerm, adoptedDiscoveredPrimary,
          announcedNewerEpoch, proceedAfterKeyVerified, resumePromotionIfNeeded, ht]
        (repeat' split) <;>
          exact quiet_unpromoted ht
            ⟨by simpa [Process.spawn, Process.withHa, hear, Task.isPromotion] using hp.tasks,
              by first | rfl | exact hp.fenced⟩
            (by simp [NoPromote])

omit [DecidableEq N] in
theorem failTask_unpromoted {task : Task N} (ht : t.intent = none) (hp : pr.Unpromoted)
    (htask : task.isPromotion = false) (h : failTask t pr task = some e) : e.Unpromoted := by
  cases task <;> try cases htask
  all_goals cases h
  all_goals
    first
    | exact quiet_unpromoted ht hp (by simp [NoPromote])
    | exact quiet_unpromoted ht (hp.spawn rfl) (by simp [NoPromote])

theorem resumeTick_unpromoted {peers : List N} (ht : t.intent = none) (hp : pr.Unpromoted)
    (h : resumeTick members now self peers t pr = some e) : e.Unpromoted := by
  unfold resumeTick at h
  split at h
  case h_6 =>
      obtain rfl := Option.some.inj h
      refine ⟨⟨tryPersistVoteGrant_intent ht _ _, fun pr' hpr' => ?_⟩,
        by simp [NoPromote, persistVote]⟩
      obtain rfl := Option.some.inj hpr'
      exact hp.of_eq rfl rfl
  case h_9 =>
      obtain rfl := Option.some.inj h
      exact quiet_unpromoted (adoptHaReplicaElectionTerm_intent ht _) (hp.of_eq rfl rfl)
        (by simp [NoPromote])
  case h_10 =>
      obtain rfl := Option.some.inj h
      refine ⟨⟨activateHaElectionWinner_intent ht _ _ _, fun pr' hpr' => ?_⟩,
        by simp [NoPromote, activateWinner]⟩
      obtain rfl := Option.some.inj hpr'
      exact hp.of_eq rfl rfl
  case h_8 =>
      obtain rfl := Option.some.inj h
      unfold tallied
      repeat' split
      case h_2 hbegin =>
          obtain rfl := beginElectionWinnerActivation_eq hbegin
          exact quiet_unpromoted ht (hp.of_eq rfl rfl) (by simp [NoPromote])
      all_goals exact quiet_unpromoted ht (hp.of_eq rfl rfl) (by simp [NoPromote])
  all_goals cases h
  all_goals
    try simp only [countedMembers, checkedFence, clearQuorumLossIfFenced, votedForSelf,
      activatedWinner]
    repeat' split
  all_goals exact quiet_unpromoted ht (hp.of_eq rfl rfl) (by simp [NoPromote])

omit [DecidableEq N] in
theorem failTick_unpromoted (ht : t.intent = none) (hp : pr.Unpromoted)
    (h : failTick t pr = some e) : e.Unpromoted := by
  unfold failTick at h
  split at h <;> cases h <;>
    exact quiet_unpromoted ht (hp.of_eq rfl rfl) (by simp [NoPromote])

theorem processStep_unpromoted {ev : Event N} (ht : t.intent = none) (hp : pr.Unpromoted)
    (hnet : NoPromote net) (hev : ev.isPromoteNode = false)
    (h : processStep members now fresh net self t pr ev = some e) : e.Unpromoted := by
  cases ev with
  | resume i =>
      simp only [processStep] at h
      split at h
      · rename_i task htask
        exact resumeTask_unpromoted ht (hp.erase i) (hp.tasks _ (List.mem_of_getElem? htask)) h
      · cases h
  | fail i =>
      simp only [processStep] at h
      split at h
      · rename_i task htask
        exact failTask_unpromoted ht (hp.erase i) (hp.tasks _ (List.mem_of_getElem? htask)) h
      · cases h
  | resumeTick peers => exact resumeTick_unpromoted ht hp h
  | failTick => exact failTick_unpromoted ht hp h
  | promoteNode => cases hev
  | promote conn i =>
      simp only [processStep] at h
      split at h <;> cases h
      rename_i hc
      exact absurd hc.1 (hnet conn i)
  | promoteAppliedAck i conn id success =>
      simp only [processStep] at h
      split at h
      · rename_i htask
        cases hp.tasks _ (List.mem_of_getElem? htask)
      · cases h
  | replicaClose code =>
      obtain rfl := Option.some.inj h
      obtain ⟨state, since, heq⟩ := handleReplicaClose_eq now pr code
      exact quiet_unpromoted ht (hp.of_eq (by rw [heq]) (by rw [heq])) (by simp [NoPromote])
  | checkHeartbeatWatchdog =>
      obtain rfl := Option.some.inj h
      obtain ⟨state, since, heq⟩ := checkHeartbeatWatchdog_eq now pr
      exact quiet_unpromoted ht (hp.of_eq (by rw [heq]) (by rw [heq])) (by simp [NoPromote])
  | crash => cases h; exact ⟨⟨ht, by simp⟩, by simp [NoPromote]⟩
  | _ =>
      simp only [processStep, connectToPrimary, reduceCtorEq] at h
      all_goals (repeat' split at h) <;> cases h
      all_goals
        try simp only [handleVoteRequest, handleAnnouncePrimary, tickPrimaryQuorum,
          tickReplicaElection, startCampaign, handleHello, handlePrimaryRedirect,
          handleHeartbeat, handlePrimaryOpen, handleCursor, handleAnnounce, handleWhoIsPrimary]
        repeat' split
      all_goals
        first
        | exact quiet_unpromoted ht (hp.of_eq rfl rfl) (by simp [NoPromote])
        | exact quiet_unpromoted ht
            ⟨by simpa [Process.spawn, hear, abandonCampaign, endCampaign, withTick,
                Task.isPromotion] using hp.tasks, hp.fenced⟩
            (by simp [NoPromote])

omit [DecidableEq N] in
theorem boot_unpromoted (ht : t.intent = none) (h : boot members now t = some e) :
    e.Unpromoted := by
  unfold boot at h
  obtain ⟨ha, hload, rfl⟩ := Option.map_eq_some_iff.mp h
  have hf : ha.fencedForPromotion = false := by
    unfold loadHaClusterConfigAtBoot at hload
    split at hload <;> cases hload
    rfl
  refine quiet_unpromoted ?_ ⟨by simp, ?_⟩ (by simp [NoPromote])
  · unfold prepareForRuntimeAtBoot setQuorumFence
    dsimp only
    (repeat' split) <;> exact ht
  · unfold prepareForRuntimeAtBoot
    dsimp only
    (repeat' split) <;> simp [hf, ht]

theorem nodeStep_unpromoted {ev : Event N} (hn : n.Unpromoted) (hnet : NoPromote net)
    (hev : ev.isPromoteNode = false) (h : nodeStep members now fresh net self n ev = some e) :
    e.Unpromoted := by
  unfold nodeStep at h
  split at h
  · exact boot_unpromoted hn.intent h
  · cases h
  · rename_i pr hpr
    exact processStep_unpromoted hn.intent (hn.process pr hpr) hnet hev h

end BurrowGate.Ha
