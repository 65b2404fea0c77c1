import BurrowGate.Ha.ElectionSafety
import BurrowGate.Ha.Unpromoted

/-!
# An epoch names one primary

An election takes its epoch from votes, a manual promotion takes the current
epoch plus one without a vote and keeps it in a durable intent. Nothing in the
code keeps the two apart: a promotion interrupted before its target was told can
be resumed after an election has used the same epoch. Where the epochs voted for
and the epochs promoted stay disjoint, and one epoch is promoted for one target,
an epoch has one primary.
-/

namespace BurrowGate.Ha

open Lib.Run
open Lib.Quorum

variable {N : Type*} [DecidableEq N] {members : Finset N} {now fresh : Nat}
  {net net' : List (Message N)} {me : N} {t : HaTables N} {pr pr' : Process N} {n : Node N}
  {e : Effect N} {ev : Event N}

/-! ## Where `promote` messages come from -/

/-- The intent a suspended handler has sent, or received, a `promote` message for. -/
def Task.promoted : Task N → Option (HaPromotionIntent N)
  | .awaitApplied i _ _ => some i
  | .applyRoleChange i _ => some i
  | _ => none

/-- The intent whose `promote` message this event sends to the target. -/
def promotesIn (n : Node N) : Event N → Option (HaPromotionIntent N)
  | .resume k =>
      match n.process.bind fun pr => pr.tasks[k]? with
      | some (.sendPromote i _ _) => some i
      | _ => none
  | _ => none

def Sent (net : List (Message N)) (i : HaPromotionIntent N) : Prop :=
  ∃ conn, .promote conn i ∈ net

def sentIntents (net : List (Message N)) : List (HaPromotionIntent N) :=
  net.filterMap fun
    | .promote _ i => some i
    | _ => none

omit [DecidableEq N] in
theorem mem_sentIntents {i : HaPromotionIntent N} : i ∈ sentIntents net ↔ Sent net i := by
  simp only [sentIntents, List.mem_filterMap, Sent]
  constructor
  · rintro ⟨m, hm, heq⟩
    split at heq <;> cases heq
    exact ⟨_, hm⟩
  · rintro ⟨conn, hm⟩
    exact ⟨_, hm, rfl⟩

/-- Whatever waits for a promotion's outcome, or carries it out, follows a `promote` message. -/
def Announced (net : List (Message N)) (pr : Process N) : Prop :=
  ∀ task ∈ pr.tasks, ∀ i ∈ task.promoted, Sent net i

structure Effect.Announced (net : List (Message N)) (n : Node N) (ev : Event N)
    (e : Effect N) : Prop where
  sent : ∀ i, Sent e.sent i → promotesIn n ev = some i ∨ Sent net i
  process : ∀ pr, e.node.process = some pr → Ha.Announced (e.sent ++ net) pr

section

omit [DecidableEq N]

theorem Sent.mono {i : HaPromotionIntent N} (h : Sent net i) (hsub : net ⊆ net') : Sent net' i := by
  obtain ⟨conn, hm⟩ := h
  exact ⟨conn, hsub hm⟩

theorem Announced.mono (h : Announced net pr) (hsub : net ⊆ net') : Announced net' pr :=
  fun task hm i hi => (h task hm i hi).mono hsub

theorem Announced.of_tasks (h : Announced net pr) (htasks : ∀ task ∈ pr'.tasks,
    task.promoted = none ∨ task ∈ pr.tasks) : Announced net pr' := by
  intro task hm i hi
  rcases htasks task hm with hnone | hold
  · rw [hnone] at hi; cases hi
  · exact h task hold i hi

theorem Announced.erase (h : Announced net pr) (k : Nat) :
    Announced net { pr with tasks := pr.tasks.eraseIdx k } :=
  h.of_tasks fun _ hm => .inr (List.mem_of_mem_eraseIdx hm)

theorem Announced.spawn {task : Task N} (h : Announced net pr)
    (ht : ∀ i ∈ task.promoted, Sent net i) : Announced net (pr.spawn task) := by
  intro task' hm
  rcases List.mem_cons.mp hm with rfl | hm
  · exact ht
  · exact h task' hm

theorem quiet_announced {sent : List (Message N)} (hp : Announced net pr)
    (hs : ∀ conn i, .promote conn i ∉ sent) : (quiet t pr sent).Announced net n ev := by
  refine ⟨?_, ?_⟩
  · rintro i ⟨conn, hm⟩
    exact absurd hm (hs conn i)
  · intro pr' hp'
    obtain rfl := Option.some.inj hp'
    exact hp.mono (List.subset_append_right _ _)

theorem sendPromote_announced {i : HaPromotionIntent N} {conn : Nat} {resumed : Bool}
    (hp : Announced net pr) (hin : promotesIn n ev = some i) :
    (sendPromote t pr i conn resumed).Announced net n ev := by
  unfold sendPromote
  split
  · unfold handoverStopped
    split <;> exact quiet_announced (hp.of_tasks fun _ hm => .inr hm) (by simp)
  · refine ⟨?_, ?_⟩
    · rintro i' ⟨conn', hm⟩
      simp only [quiet, List.mem_singleton, Message.promote.injEq] at hm
      exact .inl (hm.2 ▸ hin)
    · intro pr' hp'
      obtain rfl := Option.some.inj hp'
      refine (hp.mono (List.subset_append_right _ _)).spawn ?_
      intro i' hi
      obtain rfl := Option.some.inj hi
      exact ⟨conn, by simp [quiet]⟩

end

theorem resumeTask_announced {task : Task N} {k : Nat} (hp : Announced net pr)
    (hev : ev = .resume k) (hn : n.process = some pr) (htask : pr.tasks[k]? = some task)
    (h : resumeTask members now me t { pr with tasks := pr.tasks.eraseIdx k } task = some e) :
    e.Announced net n ev := by
  have herase : Announced net { pr with tasks := pr.tasks.eraseIdx k } := hp.erase k
  cases task with
  | sendPromote i conn resumed =>
      obtain rfl := Option.some.inj h
      exact sendPromote_announced herase (by simp [hev, promotesIn, hn, htask])
  | grantVote =>
      obtain rfl := Option.some.inj h
      refine ⟨by simp [persistVote, Sent], fun pr' hp' => ?_⟩
      obtain rfl := Option.some.inj hp'
      exact (herase.mono (List.subset_append_right _ _)).spawn (by simp [Task.promoted])
  | applyRoleChange =>
      obtain rfl := Option.some.inj h
      refine ⟨by simp [applyRoleChange, Sent], fun pr' hp' => ?_⟩
      obtain rfl := Option.some.inj hp'
      exact (herase.mono (List.subset_append_right _ _)).spawn (by simp [Task.promoted])
  | awaitApplied => cases h
  | _ =>
      obtain rfl := Option.some.inj h
      try simp only [fencedForElectionTerm, adoptedElectionTerm, adoptedDiscoveredPrimary,
        announcedNewerEpoch, proceedAfterKeyVerified, resumePromotionIfNeeded, prepared,
        completedIntent, handoverStopped, appliedRoleChange]
      (repeat' split) <;>
        exact quiet_announced
          (herase.of_tasks (by simp +contextual [Process.spawn, Process.withHa, hear,
            expireStaleReplicaConnections, Task.promoted]))
          (by simp)

omit [DecidableEq N] in
theorem failTask_announced {task : Task N} (hp : Announced net pr)
    (h : failTask t pr task = some e) : e.Announced net n ev := by
  cases task <;> cases h <;> try simp only [handoverStopped]
  all_goals
    (repeat' split) <;>
      exact quiet_announced
        (hp.of_tasks (by simp +contextual [Process.spawn, Process.withHa, Task.promoted]))
        (by simp)

theorem resumeTick_announced {peers : List N} (hp : Announced net pr)
    (h : resumeTick members now me peers t pr = some e) : e.Announced net n ev := by
  have hsame {t' : HaTables N} {pr' : Process N} {sent : List (Message N)}
      (htasks : pr'.tasks = pr.tasks) (hs : ∀ conn i, .promote conn i ∉ sent) :
      (quiet t' pr' sent).Announced net n ev :=
    quiet_announced (hp.of_tasks fun _ hm => .inr (htasks ▸ hm)) hs
  unfold resumeTick at h
  split at h
  case h_6 =>
      obtain rfl := Option.some.inj h
      refine ⟨by simp [persistVote, Sent], fun pr' hp' => ?_⟩
      obtain rfl := Option.some.inj hp'
      exact (hp.mono (List.subset_append_right _ _)).of_tasks fun _ hm => .inr hm
  case h_10 =>
      obtain rfl := Option.some.inj h
      refine ⟨by simp [activateWinner, Sent], fun pr' hp' => ?_⟩
      obtain rfl := Option.some.inj hp'
      exact (hp.mono (List.subset_append_right _ _)).of_tasks fun _ hm => .inr hm
  case h_8 =>
      obtain rfl := Option.some.inj h
      unfold tallied
      repeat' split
      case h_2 hbegin =>
          obtain rfl := beginElectionWinnerActivation_eq hbegin
          exact hsame rfl (by simp)
      all_goals exact hsame rfl (by simp)
  all_goals cases h
  all_goals
    try simp only [countedMembers, checkedFence, clearQuorumLossIfFenced, votedForSelf,
      activatedWinner]
    repeat' split
  all_goals exact hsame rfl (by simp)

theorem processStep_announced (hp : Announced net pr) (hn : n.process = some pr)
    (h : processStep members now fresh net me t pr ev = some e) : e.Announced net n ev := by
  have hsame {t' : HaTables N} {pr' : Process N} {sent : List (Message N)}
      (htasks : pr'.tasks = pr.tasks) (hs : ∀ conn i, .promote conn i ∉ sent) :
      (quiet t' pr' sent).Announced net n ev :=
    quiet_announced (hp.of_tasks fun _ hm => .inr (htasks ▸ hm)) hs
  cases ev with
  | resume k =>
      simp only [processStep] at h
      split at h
      · rename_i task htask
        exact resumeTask_announced hp rfl hn htask h
      · cases h
  | fail k =>
      simp only [processStep] at h
      split at h
      · exact failTask_announced (hp.erase k) h
      · cases h
  | resumeTick peers => exact resumeTick_announced hp h
  | failTick =>
      simp only [processStep] at h
      unfold failTick at h
      split at h <;> cases h <;> exact hsame rfl (by simp)
  | promote conn i =>
      simp only [processStep] at h
      split at h <;> cases h
      rename_i hc
      unfold handlePromote
      split
      · exact hsame rfl (by simp)
      · refine quiet_announced (hp.spawn ?_) (by simp)
        intro i' hi
        obtain rfl := Option.some.inj hi
        exact ⟨conn, hc.1⟩
  | promoteAppliedAck k conn id success =>
      simp only [processStep] at h
      split at h
      · rename_i intent conn' resumed htask
        split at h <;> cases h
        have hsent : Sent net intent := hp _ (List.mem_of_getElem? htask) _ rfl
        unfold promoteAnswered
        split
        · refine ⟨?_, fun pr' hp' => ?_⟩
          · rintro i ⟨c, hm⟩
            simp only [quiet, List.mem_map, Message.promote.injEq] at hm
            obtain ⟨r, -, -, rfl⟩ := hm
            exact .inr hsent
          · obtain rfl := Option.some.inj hp'
            exact ((hp.erase k).mono (List.subset_append_right _ _)).spawn
              (by simp [Task.promoted])
        · split
          · exact quiet_announced ((hp.erase k).of_tasks fun _ hm => .inr hm) (by simp)
          · exact quiet_announced ((hp.erase k).spawn (by simp [Task.promoted])) (by simp)
      · cases h
  | promoteNode target id =>
      simp only [processStep, promoteNode] at h
      (repeat' split at h) <;> cases h
      exact quiet_announced
        (hp.of_tasks (by simp +contextual [Process.spawn, Process.withHa,
          expireStaleReplicaConnections, Task.promoted])) (by simp)
  | replicaClose code =>
      obtain rfl := Option.some.inj h
      obtain ⟨state, since, heq⟩ := handleReplicaClose_eq now pr code
      exact hsame (by rw [heq]) (by simp)
  | checkHeartbeatWatchdog =>
      obtain rfl := Option.some.inj h
      obtain ⟨state, since, heq⟩ := checkHeartbeatWatchdog_eq now pr
      exact hsame (by rw [heq]) (by simp)
  | crash => cases h; exact ⟨by simp [Sent], by simp⟩
  | _ =>
      simp only [processStep, connectToPrimary, reduceCtorEq] at h
      all_goals (repeat' split at h) <;> cases h
      all_goals
        try simp only [handleVoteRequest, handleAnnouncePrimary, tickPrimaryQuorum,
          tickReplicaElection, startCampaign, handleHello, handlePrimaryRedirect,
          handleHeartbeat, handlePrimaryOpen, handleCursor, handleAnnounce, handleWhoIsPrimary]
        repeat' split
      all_goals
        first
        | exact hsame rfl (by simp)
        | exact quiet_announced
            (hp.of_tasks (by simp +contextual [Process.spawn, hear, abandonCampaign,
              endCampaign, withTick, Task.promoted]))
            (by simp)

theorem nodeStep_announced (hn : ∀ pr, n.process = some pr → Announced net pr)
    (h : nodeStep members now fresh net me n ev = some e) : e.Announced net n ev := by
  unfold nodeStep at h
  split at h
  · obtain ⟨ha, -, rfl⟩ := Option.map_eq_some_iff.mp h
    refine ⟨by simp [quiet, Sent], fun pr hp => ?_⟩
    obtain rfl := Option.some.inj hp
    intro task hm
    cases hm
  · cases h
  · rename_i pr hp
    exact processStep_announced (hn pr hp) hp h

/-! ## Runs that keep votes and promotions apart -/

/-- A vote becomes durable only in a term that no promotion has announced. A promotion is
announced only with an epoch nobody has voted in, and for the target already announced with
that epoch, if there is one. -/
def EpochsApart (s : Cluster N) : Action N → Prop
  | .advance _ => True
  | .at n ev =>
      (∀ term ∈ votesIn n (s.node n) ev, ∀ i ∈ sentIntents s.net, i.newEpoch ≠ term) ∧
      ∀ i ∈ promotesIn (s.node n) ev, (∀ v ∈ s.votes, v.term ≠ i.newEpoch) ∧
        ∀ j ∈ sentIntents s.net, j.newEpoch = i.newEpoch → j.targetNodeId = i.targetNodeId

instance (s : Cluster N) : ∀ act, Decidable (EpochsApart s act)
  | .advance _ => inferInstanceAs (Decidable True)
  | .at _ _ => inferInstanceAs (Decidable (_ ∧ _))

structure EpochOwners (s : Cluster N) : Prop where
  process : ∀ n pr, (s.node n).process = some pr → Announced s.net pr
  disjoint : ∀ v ∈ s.votes, ∀ i, Sent s.net i → v.term ≠ i.newEpoch
  target : ∀ i j, Sent s.net i → Sent s.net j → i.newEpoch = j.newEpoch →
    i.targetNodeId = j.targetNodeId
  promoted : ∀ a ∈ s.activations, a.via = .promotion → ∃ i, Sent s.net i ∧
    i.newEpoch = a.epoch ∧ i.targetNodeId = a.node

/-- One event does not both vote and announce a promotion. -/
theorem votesIn_eq_none_of_promotesIn {i : HaPromotionIntent N}
    (h : promotesIn n ev = some i) : votesIn me n ev = none := by
  cases ev with
  | resume k =>
      simp only [promotesIn] at h
      split at h
      · rename_i htask
        simp [votesIn, htask]
      · cases h
  | _ => cases h

theorem epochOwners_initial {s : Cluster N} (h : Initial s) : EpochOwners s := by
  obtain ⟨now, epoch, primary, rfl⟩ := h
  constructor <;> simp [initial, Sent]

theorem epochOwners_commit {s : Cluster N} (h : EpochOwners s)
    (hkeep : EpochsApart s (.at me ev))
    (hstep : nodeStep members s.now s.fresh s.net me (s.node me) ev = some e) :
    EpochOwners (s.commit me e) := by
  have hann := nodeStep_announced (h.process me) hstep
  have hsub : s.net ⊆ e.sent ++ s.net := List.subset_append_right _ _
  have hsent : ∀ i, Sent (e.sent ++ s.net) i → promotesIn (s.node me) ev = some i ∨ Sent s.net i := by
    rintro i ⟨conn, hm⟩
    rcases List.mem_append.mp hm with hm | hm
    · exact hann.sent i ⟨conn, hm⟩
    · exact .inr ⟨conn, hm⟩
  constructor
  · intro n pr hp
    by_cases hn : n = me
    · subst hn
      simp only [Cluster.commit, Function.update_self] at hp
      exact hann.process pr hp
    · simp only [Cluster.commit, Function.update_of_ne hn] at hp
      exact (h.process n pr hp).mono hsub
  · intro v hv i hi
    rcases register_step (nodeStep_inversion hstep) with
      ⟨hnone, -⟩ | ⟨term, c, hin, hone, -⟩
    · have hold : v ∈ s.votes := by simpa [Cluster.commit, hnone] using hv
      rcases hsent i hi with hnew | hi
      · exact (hkeep.2 i hnew).1 v hold
      · exact h.disjoint v hold i hi
    · have hi : Sent s.net i := by
        rcases hsent i hi with hnew | hi
        · rw [votesIn_eq_none_of_promotesIn hnew] at hin; cases hin
        · exact hi
      rcases List.mem_append.mp hv with hv | hv
      · rw [hone] at hv
        obtain rfl := List.mem_singleton.mp hv
        exact (hkeep.1 term hin i (mem_sentIntents.mpr hi)).symm
      · exact h.disjoint v hv i hi
  · intro i j hi hj hepoch
    rcases hsent i hi with hni | hi <;> rcases hsent j hj with hnj | hj
    · rw [Option.some.inj (hni.symm.trans hnj)]
    · exact ((hkeep.2 i hni).2 j (mem_sentIntents.mpr hj) hepoch.symm).symm
    · exact (hkeep.2 j hnj).2 i (mem_sentIntents.mpr hi) hepoch
    · exact h.target i j hi hj hepoch
  · intro a ha hvia
    rcases List.mem_append.mp ha with ha | ha
    · obtain ⟨-, hnode, pr, hpr, ⟨helected, -⟩ | ⟨-, k, i, conn, htask, htarget, hepoch⟩⟩ :=
        activation_step (nodeStep_inversion hstep) ha
      · rw [hvia] at helected; cases helected
      · have hi := h.process me pr hpr _ (List.mem_of_getElem? htask) i rfl
        exact ⟨i, hi.mono hsub, hepoch.symm, htarget.trans hnode.symm⟩
    · obtain ⟨i, hi, hrest⟩ := h.promoted a ha hvia
      exact ⟨i, hi.mono hsub, hrest⟩

theorem epochOwners_reach {s : Cluster N}
    (h : Reach (step members) EpochsApart Initial s) : EpochOwners s := by
  refine h.invariant (fun s hs => epochOwners_initial hs) ?_
  intro s a s' _ hinv hkeep hstep
  cases a with
  | advance ms =>
      obtain rfl := Option.some.inj hstep
      exact ⟨hinv.process, hinv.disjoint, hinv.target, hinv.promoted⟩
  | «at» n ev =>
      obtain ⟨e, he, rfl⟩ := Option.map_eq_some_iff.mp hstep
      exact epochOwners_commit hinv hkeep he

/-- In a run that keeps the epochs voted for and the epochs promoted apart, an epoch is one
node's, however the node was activated. -/
theorem epoch_owner_unique {s : Cluster N} (h : Reach (step members) EpochsApart Initial s)
    {a b : Activation N} (ha : a ∈ s.activations) (hb : b ∈ s.activations)
    (hepoch : a.epoch = b.epoch) : a.node = b.node := by
  have hinv := epochOwners_reach h
  have hel := elections_reach h
  -- a won epoch was voted for, so it was not promoted
  have hmixed {a b : Activation N} (ha : a ∈ s.activations) (hb : b ∈ s.activations)
      (hva : a.via = .election) (hvb : b.via = .promotion) : a.epoch ≠ b.epoch := by
    obtain ⟨Q, -, hcard, hvoted⟩ := hel.won a ha hva
    obtain ⟨u, hu⟩ := exists_mem_of_majority hcard
    obtain ⟨v, hv, -, hterm, -⟩ := hvoted u hu
    obtain ⟨i, hi, hie, -⟩ := hinv.promoted b hb hvb
    rw [← hterm, ← hie]
    exact hinv.disjoint v hv i hi
  cases hva : a.via <;> cases hvb : b.via
  · exact won_unique hel.oneVote (hel.won a ha hva) (hepoch ▸ hel.won b hb hvb)
  · exact absurd hepoch (hmixed ha hb hva hvb)
  · exact absurd hepoch.symm (hmixed hb ha hvb hva)
  · obtain ⟨i, hi, hie, hit⟩ := hinv.promoted a ha hva
    obtain ⟨j, hj, hje, hjt⟩ := hinv.promoted b hb hvb
    rw [← hit, ← hjt]
    exact hinv.target i j hi hj (by rw [hie, hje, hepoch])

/-! ## Runs of three nodes -/

/-- `u` and `v` have joined `p`, and its boot fence has been cleared. -/
def leads (p u v : N) : List (Action N) :=
  joins p u v ++
    (List.replicate 3 (beats p u 3 ++ [Action.at v (.heartbeat 4), .at p (.cursor 4 v)])).flatten ++
    ticks p 4

/-- `p` promotes `v`, up to storing the intent. -/
def stores (p v : N) : List (Action N) :=
  [.at p (.promoteNode v 7), .at p (.resume 0), .at p (.resume 0)]

def intentFor (v : N) : HaPromotionIntent N :=
  { promotionId := 7, targetNodeId := v, newEpoch := 1 }

theorem epoch_owner_unique_promoted : ∃ (s : Cluster (Fin 3)) (a : Activation (Fin 3)),
    Reach (step Finset.univ) EpochsApart Initial s ∧ a ∈ s.activations ∧ a.via = .promotion ∧
      a.epoch = 1 ∧ a.node = a.node := by
  have hrun : ((execIf (step Finset.univ) EpochsApart (initial 1 (fun _ => 0) (0 : Fin 3))
      (leads 0 1 2 ++ stores 0 2 ++
        [Action.at 0 (.resume 0), .at 2 (.promote 4 (intentFor 2)), .at 2 (.resume 0)])).bind fun s =>
          s.activations.head?.map fun a => (a.via, a.epoch)) = some (.promotion, 1) := by
    decide +kernel
  obtain ⟨s, hexec, hhead⟩ := Option.bind_eq_some_iff.mp hrun
  obtain ⟨a, ha, hval⟩ := Option.map_eq_some_iff.mp hhead
  obtain ⟨hvia, hepoch⟩ := Prod.mk.inj hval
  have hstart : Reach (step Finset.univ) EpochsApart Initial
      (initial 1 (fun _ => 0) (0 : Fin 3)) := .start ⟨1, fun _ => 0, 0, rfl⟩
  have hreach := execIf_reach hstart hexec
  have hmem := List.mem_of_head? ha
  exact ⟨s, a, hreach, hmem, hvia, hepoch, epoch_owner_unique hreach hmem hmem rfl⟩

/-- Node 0 restarts with the intent stored and its `promote` never sent. Nodes 1 and 2 lose it,
node 1 is elected in term 1, and its vote request raises node 0 to epoch 1 as well; node 2
comes back to node 0, which resumes the promotion to epoch 1. -/
theorem epoch_with_two_owners : ¬ ∀ (s : Cluster (Fin 3)) (a b : Activation (Fin 3)),
    Reach (step Finset.univ) Any Initial s → a ∈ s.activations → b ∈ s.activations →
      a.epoch = b.epoch → a.node = b.node := by
  intro hclaim
  have hrun : ((exec (step Finset.univ) (initial 1 (fun _ => 0) (0 : Fin 3))
      (leads 0 1 2 ++ stores 0 2 ++ [Action.at 0 .crash, .at 0 .boot] ++ closes 1 2 ++
        Action.advance 45000 :: elects 0 1 2 ++
        [Action.at 0 (.voteRequest 1 1 0), .at 0 (.resume 0), .at 0 (.resume 0),
          .at 2 .connectToPrimary, .at 0 (.openStream 58 2), .at 2 (.hello 58 1),
          .at 2 (.resume 0), .at 0 (.announce 58 2 1), .at 0 (.resume 0), .at 0 (.resume 0),
          .at 0 (.resume 0), .at 2 (.promote 58 (intentFor 2)), .at 2 (.resume 0)])).map fun s =>
            s.activations.map fun a => (a.node, a.epoch)) = some [(2, 1), (1, 1)] := by
    decide +kernel
  obtain ⟨s, hexec, hval⟩ := Option.map_eq_some_iff.mp hrun
  obtain ⟨a, _, hsplit, ha, hrest⟩ := List.map_eq_cons_iff.mp hval
  obtain ⟨b, _, hsplit', hb, -⟩ := List.map_eq_cons_iff.mp hrest
  obtain ⟨hna, hea⟩ := Prod.mk.inj ha
  obtain ⟨hnb, heb⟩ := Prod.mk.inj hb
  have hstart : Reach (step Finset.univ) Any Initial (initial 1 (fun _ => 0) (0 : Fin 3)) :=
    .start ⟨1, fun _ => 0, 0, rfl⟩
  have hsame := hclaim s a b (exec_reach hstart hexec) (by simp [hsplit])
    (by simp [hsplit, hsplit']) (hea.trans heb.symm)
  rw [hna, hnb] at hsame
  exact absurd hsame (by decide)

end BurrowGate.Ha
