import BurrowGate.Ha.Cluster

/-!
# What one event can do to an election

The segments of vote requests, campaigns and role changes are listed one by one.
Every other event is plain: it records nothing, leaves the vote register as it
is, suspends no election step and grants no vote.
-/

namespace BurrowGate.Ha

open Lib.Run
open Lib.Quorum

variable {N : Type*} [DecidableEq N] {members : Finset N} {now fresh : Nat}
  {net : List (Message N)} {self : N} {t : HaTables N} {pr pr' : Process N} {n : Node N}
  {e : Effect N}

def Task.isElection : Task N → Bool
  | .adoptTerm _ _ _ | .adoptedTerm _ _ _ _ | .grantVote _ _ | .grantedVote _ _ _ => true
  | .applyRoleChange _ _ => true
  | _ => false

def Tick.isCampaign : Tick N → Bool
  | .discover _ | .selfVote _ | .selfVoted _ _ | .collect _ _ | .activate _ => true
  | _ => false

/-- No election step is suspended afterwards that was not before. -/
structure Kept (pr pr' : Process N) : Prop where
  tasks : ∀ task ∈ pr'.tasks, task.isElection = true → task ∈ pr.tasks
  tick : pr'.tick.isCampaign = true → pr'.tick = pr.tick

structure Effect.Plain (n : Node N) (e : Effect N) : Prop where
  votes : e.votes = []
  activations : e.activations = []
  votedFor : e.node.tables.config.votedFor = n.tables.config.votedFor
  sent : ∀ c term voter r, .voteResponse c term voter r ∈ e.sent → r.voteGranted = false
  process : ∀ pr', e.node.process = some pr' →
    pr'.tasks = [] ∧ pr'.tick = .idle ∨ ∃ pr, n.process = some pr ∧ Kept pr pr'

/-- The segments that are not plain. -/
inductive Effect.Records (members : Finset N) (now : Nat) (net : List (Message N)) (self : N)
    (t : HaTables N) (pr : Process N) (ev : Event N) : Effect N → Prop
  | voteRequest {term cursor : Nat} {c : N} (hc : c ∈ members) :
      Records members now net self t pr ev (handleVoteRequest members now self t pr term c cursor)
  | adoptTerm {i term cursor : Nat} {c : N}
      (htask : pr.tasks[i]? = some (.adoptTerm term c cursor)) :
      Records members now net self t pr ev
        (quiet (adoptHaReplicaElectionTerm t term).1
          (({ pr with tasks := pr.tasks.eraseIdx i }).spawn
            (.adoptedTerm term c cursor (adoptHaReplicaElectionTerm t term).2)))
  | adoptedTerm {i term cursor : Nat} {c : N} {p : Option Nat}
      (htask : pr.tasks[i]? = some (.adoptedTerm term c cursor p)) :
      Records members now net self t pr ev
        (adoptedElectionTerm self t { pr with tasks := pr.tasks.eraseIdx i } term c cursor p)
  | grantVote {i term : Nat} {c : N} (hev : ev = .resume i)
      (htask : pr.tasks[i]? = some (.grantVote term c)) :
      Records members now net self t pr ev
        (persistVote now self t term c fun granted =>
          ({ pr with tasks := pr.tasks.eraseIdx i }).spawn (.grantedVote term c granted))
  | grantedVote {i term : Nat} {c : N} (htask : pr.tasks[i]? = some (.grantedVote term c true)) :
      Records members now net self t pr ev
        (quiet t { pr with tasks := pr.tasks.eraseIdx i }
          [.voteResponse c term self { voteGranted := true, voterTerm := term }])
  | tick (htick : pr.tick = .idle) (hrole : pr.ha.role = .replica) :
      Records members now net self t pr ev (tickReplicaElection members now t pr)
  | electionTimeout {ms : Nat} (htick : pr.tick = .discover ms) :
      Records members now net self t pr ev (startCampaign now t pr)
  | selfVote {c : Campaign N} {peers : List N} (hev : ev = .resumeTick peers)
      (htick : pr.tick = .selfVote c) :
      Records members now net self t pr ev
        (persistVote now self t c.term self fun granted => withTick pr (.selfVoted c granted))
  | selfVoted {c : Campaign N} {granted : Bool} {peers : List N}
      (htick : pr.tick = .selfVoted c granted) :
      Records members now net self t pr ev (votedForSelf members now self t pr c granted peers)
  | voteResponse {c : Campaign N} {responses : List (N × VoteResponse)} {voter : N}
      {response : VoteResponse} (htick : pr.tick = .collect c responses)
      (hnet : .voteResponse self c.term voter response ∈ net) (hvoter : voter ∈ members) :
      Records members now net self t pr ev
        (quiet t (withTick pr (.collect c ((voter, response) :: responses))))
  | tallied {c : Campaign N} {responses : List (N × VoteResponse)}
      (htick : pr.tick = .collect c responses) :
      Records members now net self t pr ev (tallied members self t pr c responses)
  | activate {c : Campaign N} (htick : pr.tick = .activate c) :
      Records members now net self t pr ev (activateWinner now self t pr c)
  | promote {i : HaPromotionIntent N} {conn : Nat} (hnet : .promote conn i ∈ net) :
      Records members now net self t pr ev (handlePromote t pr i conn)
  | applyRoleChange {i : Nat} {intent : HaPromotionIntent N} {conn : Nat}
      (htask : pr.tasks[i]? = some (.applyRoleChange intent conn)) :
      Records members now net self t pr ev
        (applyRoleChange now self t { pr with tasks := pr.tasks.eraseIdx i } intent conn)

/-- The term of the vote this event makes durable at `me`. -/
def votesIn (me : N) (n : Node N) : Event N → Option Nat
  | .resume i =>
      match n.process.bind fun pr => pr.tasks[i]? with
      | some (.grantVote term c) =>
          if (tryPersistVoteGrant n.tables term c).2 then some term else none
      | _ => none
  | .resumeTick _ =>
      match n.process.map Process.tick with
      | some (.selfVote c) =>
          if (tryPersistVoteGrant n.tables c.term me).2 then some c.term else none
      | _ => none
  | _ => none

section

omit [DecidableEq N]

theorem Kept.refl : Kept pr pr := ⟨fun _ h _ => h, fun _ => rfl⟩

theorem Kept.trans {pr'' : Process N} (h : Kept pr pr') (h' : Kept pr' pr'') : Kept pr pr'' :=
  ⟨fun task hm he => h.tasks task (h'.tasks task hm he) he,
    fun ht => by
      have heq := h'.tick ht
      rw [heq]
      exact h.tick (heq ▸ ht)⟩

theorem Kept.erase (i : Nat) : Kept pr { pr with tasks := pr.tasks.eraseIdx i } :=
  ⟨fun _ hm _ => List.mem_of_mem_eraseIdx hm, fun _ => rfl⟩

theorem Kept.spawn {task : Task N} (h : Kept pr pr') (ht : task.isElection = false) :
    Kept pr (pr'.spawn task) := by
  refine ⟨?_, h.tick⟩
  intro task' hm he
  rcases List.mem_cons.mp hm with rfl | hm
  · rw [ht] at he; cases he
  · exact h.tasks task' hm he

theorem Kept.of_eq (htasks : pr'.tasks = pr.tasks) (htick : pr'.tick = pr.tick) : Kept pr pr' :=
  ⟨fun _ hm _ => htasks ▸ hm, fun _ => htick⟩

theorem Kept.stopped (htasks : pr'.tasks = pr.tasks) (htick : pr'.tick.isCampaign = false) :
    Kept pr pr' :=
  ⟨fun _ hm _ => htasks ▸ hm, fun h => by rw [htick] at h; cases h⟩

@[simp] theorem voteResponse_mem_heartbeats (c : N) (term : Nat) (voter : N) (r : VoteResponse) :
    .voteResponse c term voter r ∉ heartbeats pr := by
  simp [heartbeats]

@[simp] theorem voteResponse_eq_rejectVote (c : N) (term : Nat) (voter : N) (r : VoteResponse)
    (term' : Nat) (c' : N) : .voteResponse c term voter r = rejectVote self pr term' c' ↔
      c = c' ∧ term = term' ∧ voter = self ∧
        r = { voteGranted := false, voterTerm := pr.ha.epoch } := by
  simp [rejectVote]

theorem quiet_plain {p₀ : Process N} {sent : List (Message N)} {t' : HaTables N}
    (hn : n.process = some p₀) (hk : Kept p₀ pr)
    (hv : t'.config.votedFor = n.tables.config.votedFor) (hpr : Kept pr pr')
    (hs : ∀ c term voter r, .voteResponse c term voter r ∈ sent → r.voteGranted = false) :
    (quiet t' pr' sent).Plain n := by
  refine ⟨rfl, rfl, hv, hs, ?_⟩
  intro pr'' heq
  obtain rfl := Option.some.inj heq
  exact .inr ⟨p₀, hn, hk.trans hpr⟩

end

section Handlers

variable {p₀ : Process N}

section

omit [DecidableEq N]

theorem clearQuorumLossIfFenced_plain (hn : n.process = some p₀) (hk : Kept p₀ pr) :
    (clearQuorumLossIfFenced n.tables pr).Plain n := by
  unfold clearQuorumLossIfFenced
  split <;> exact quiet_plain hn hk rfl (.stopped rfl rfl) (by simp)

theorem countedMembers_plain (hn : n.process = some p₀) (hk : Kept p₀ pr) :
    (countedMembers members now n.tables pr).Plain n := by
  unfold countedMembers
  dsimp only
  split
  · exact clearQuorumLossIfFenced_plain hn (hk.trans (.of_eq rfl rfl))
  · (repeat' split) <;> exact quiet_plain hn hk rfl (.stopped rfl rfl) (by simp)

end

theorem resumeTask_inversion {ev : Event N} {i : Nat} {task : Task N}
    (hn : n.process = some p₀) (hev : ev = .resume i) (htask : p₀.tasks[i]? = some task)
    (h : resumeTask members now self n.tables { p₀ with tasks := p₀.tasks.eraseIdx i } task =
      some e) : e.Plain n ∨ e.Records members now net self n.tables p₀ ev := by
  cases task with
  | adoptTerm => obtain rfl := Option.some.inj h; exact .inr (.adoptTerm htask)
  | adoptedTerm => obtain rfl := Option.some.inj h; exact .inr (.adoptedTerm htask)
  | grantVote => obtain rfl := Option.some.inj h; exact .inr (.grantVote hev htask)
  | grantedVote term c granted =>
      obtain rfl := Option.some.inj h
      cases granted with
      | true => exact .inr (.grantedVote htask)
      | false => exact .inl (quiet_plain hn (.erase i) rfl .refl (by simp +contextual))
  | applyRoleChange => obtain rfl := Option.some.inj h; exact .inr (.applyRoleChange htask)
  | awaitApplied => cases h
  | _ =>
      left
      obtain rfl := Option.some.inj h
      try simp only [fencedForElectionTerm, adoptedDiscoveredPrimary,
        announcedNewerEpoch, proceedAfterKeyVerified, resumePromotionIfNeeded, prepared,
        sendPromote, handoverStopped, completedIntent, appliedRoleChange]
      (repeat' split) <;>
        exact quiet_plain hn (.erase i) (by simp)
          ⟨by simp +contextual [Process.spawn, Process.withHa, hear,
              expireStaleReplicaConnections, Task.isElection], fun _ => rfl⟩
          (by simp +contextual)

omit [DecidableEq N] in
theorem failTask_plain {i : Nat} {task : Task N} (hn : n.process = some p₀)
    (h : failTask n.tables { p₀ with tasks := p₀.tasks.eraseIdx i } task = some e) :
    e.Plain n := by
  cases task <;> cases h
  all_goals
    try simp only [handoverStopped]
    (repeat' split) <;>
      exact quiet_plain hn (.erase i) rfl
        ⟨by simp +contextual [Process.spawn, Process.withHa, Task.isElection], fun _ => rfl⟩
        (by simp)

theorem resumeTick_inversion {ev : Event N} {peers : List N} (hn : n.process = some p₀)
    (hev : ev = .resumeTick peers)
    (h : resumeTick members now self peers n.tables p₀ = some e) :
    e.Plain n ∨ e.Records members now net self n.tables p₀ ev := by
  unfold resumeTick at h
  split at h
  case h_1 => obtain rfl := Option.some.inj h; exact .inl (countedMembers_plain hn .refl)
  case h_3 =>
      obtain rfl := Option.some.inj h
      unfold checkedFence
      split
      · exact .inl (quiet_plain hn .refl rfl (.stopped rfl rfl) (by simp))
      · exact .inl (clearQuorumLossIfFenced_plain hn .refl)
  case h_6 htick => obtain rfl := Option.some.inj h; exact .inr (.selfVote hev htick)
  case h_7 htick => obtain rfl := Option.some.inj h; exact .inr (.selfVoted htick)
  case h_8 htick => obtain rfl := Option.some.inj h; exact .inr (.tallied htick)
  case h_10 htick => obtain rfl := Option.some.inj h; exact .inr (.activate htick)
  case h_11 =>
      obtain rfl := Option.some.inj h
      unfold activatedWinner
      split <;>
        exact .inl (quiet_plain hn .refl rfl (.stopped rfl rfl)
          (by simp +contextual))
  all_goals cases h
  all_goals
    exact .inl (quiet_plain hn .refl (by simp) (.stopped rfl rfl)
      (by simp +contextual))

omit [DecidableEq N] in
theorem failTick_plain (hn : n.process = some p₀) (h : failTick n.tables p₀ = some e) :
    e.Plain n := by
  unfold failTick at h
  split at h <;> cases h <;> exact quiet_plain hn .refl rfl (.stopped rfl rfl) (by simp)

theorem processStep_inversion {ev : Event N} (hn : n.process = some p₀)
    (h : processStep members now fresh net self n.tables p₀ ev = some e) :
    e.Plain n ∨ e.Records members now net self n.tables p₀ ev := by
  cases ev with
  | promoteAppliedAck i conn id success =>
      simp only [processStep, promoteAnswered, handoverStopped] at h
      (repeat' split at h) <;> cases h <;>
        exact .inl (quiet_plain hn (.erase i) rfl
          ⟨by simp +contextual [Process.spawn, Task.isElection], fun _ => rfl⟩
          (by simp +contextual))
  | resume i =>
      simp only [processStep] at h
      split at h
      · rename_i task htask; exact resumeTask_inversion hn rfl htask h
      · cases h
  | fail i =>
      simp only [processStep] at h
      split at h
      · exact .inl (failTask_plain hn h)
      · cases h
  | resumeTick peers => exact resumeTick_inversion hn rfl h
  | failTick => exact .inl (failTick_plain hn h)
  | voteRequest term c cursor =>
      simp only [processStep] at h
      split at h <;> cases h
      rename_i hc
      exact .inr (.voteRequest hc.2)
  | tick =>
      simp only [processStep] at h
      split at h
      · rename_i htick _
        obtain rfl := Option.some.inj h
        unfold tickPrimaryQuorum
        (repeat' split) <;>
          exact .inl (quiet_plain hn .refl rfl
            (.stopped rfl (by simp [htick, withTick, Tick.isCampaign])) (by simp))
      · rename_i htick hrole
        obtain rfl := Option.some.inj h
        exact .inr (.tick htick hrole)
      · cases h
  | electionTimeout timeoutMs =>
      simp only [processStep] at h
      split at h
      · rename_i htick
        split at h
        · split at h
          · obtain rfl := Option.some.inj h
            exact .inl (quiet_plain hn .refl rfl (.stopped rfl rfl) (by simp))
          · obtain rfl := Option.some.inj h
            exact .inr (.electionTimeout htick)
        · cases h
      · cases h
  | voteResponse term voter response =>
      simp only [processStep] at h
      split at h
      · rename_i htick
        split at h <;> cases h
        rename_i hc
        obtain ⟨hnet, rfl, hvoter, -, -⟩ := hc
        exact .inr (.voteResponse htick hnet hvoter)
      · cases h
  | promote conn i =>
      simp only [processStep] at h
      split at h <;> cases h
      rename_i hc
      exact .inr (.promote hc.1)
  | announcePrimary p epoch =>
      simp only [processStep] at h
      split at h <;> cases h
      unfold handleAnnouncePrimary
      left
      (repeat' split)
      · exact quiet_plain hn .refl rfl .refl (by simp)
      · exact quiet_plain hn .refl rfl .refl (by simp)
      · have hk : Kept p₀ (abandonCampaign p₀) := .of_eq rfl rfl
        exact quiet_plain hn .refl rfl (hk.spawn rfl) (by simp)
  | discovered peer p epoch role =>
      simp only [processStep] at h
      (repeat' split at h) <;> cases h
      have hk : Kept p₀ (endCampaign p₀) := .stopped rfl rfl
      exact .inl (quiet_plain hn .refl rfl (hk.spawn rfl) (by simp))
  | recovered p epoch =>
      simp only [processStep] at h
      (repeat' split at h) <;> cases h
      have hk : Kept p₀ (withTick p₀ .idle) := .stopped rfl rfl
      exact .inl (quiet_plain hn .refl rfl (hk.spawn rfl) (by simp))
  | replicaClose code =>
      obtain rfl := Option.some.inj h
      obtain ⟨state, since, heq⟩ := handleReplicaClose_eq now p₀ code
      exact .inl (quiet_plain hn .refl rfl (.of_eq (by rw [heq]) (by rw [heq])) (by simp))
  | checkHeartbeatWatchdog =>
      obtain rfl := Option.some.inj h
      obtain ⟨state, since, heq⟩ := checkHeartbeatWatchdog_eq now p₀
      exact .inl (quiet_plain hn .refl rfl (.of_eq (by rw [heq]) (by rw [heq])) (by simp))
  | primaryClose conn =>
      obtain rfl := Option.some.inj h
      exact .inl (quiet_plain hn .refl rfl (.of_eq rfl rfl) (by simp))
  | expireStaleReplicaConnections =>
      obtain rfl := Option.some.inj h
      exact .inl (quiet_plain hn .refl rfl (.of_eq rfl rfl) (by simp))
  | promoteNode target id =>
      simp only [processStep, promoteNode] at h
      (repeat' split at h) <;> cases h
      rename_i ha _ _
      have hk : Kept p₀ ((expireStaleReplicaConnections p₀ now).withHa ha) := .of_eq rfl rfl
      exact .inl (quiet_plain hn .refl rfl (hk.spawn rfl) (by simp))
  | crash => cases h; exact .inl ⟨rfl, rfl, rfl, by simp, by simp⟩
  | _ =>
      left
      simp only [processStep, connectToPrimary, reduceCtorEq] at h
      all_goals (repeat' split at h) <;> cases h
      all_goals
        try simp only [handleHello, handlePrimaryRedirect, handleHeartbeat,
          handlePrimaryOpen, handleCursor, handleAnnounce, handleWhoIsPrimary]
        (repeat' split) <;>
          exact quiet_plain hn .refl rfl
            ⟨by simp +contextual [Process.spawn, hear, Task.isElection], fun _ => rfl⟩
            (by simp +contextual)

omit [DecidableEq N] in
theorem boot_plain (h : boot members now n.tables = some e) : e.Plain n := by
  unfold boot at h
  obtain ⟨ha, _, rfl⟩ := Option.map_eq_some_iff.mp h
  refine ⟨rfl, rfl, ?_, by simp [quiet], ?_⟩
  · simp only [quiet, prepareForRuntimeAtBoot]
    (repeat' split) <;> rfl
  · intro pr' heq
    obtain rfl := Option.some.inj heq
    exact .inl ⟨rfl, rfl⟩

theorem nodeStep_inversion {ev : Event N}
    (h : nodeStep members now fresh net self n ev = some e) :
    e.Plain n ∨ ∃ pr, n.process = some pr ∧ e.Records members now net self n.tables pr ev := by
  unfold nodeStep at h
  split at h
  · exact .inl (boot_plain h)
  · cases h
  · rename_i pr hpr
    exact (processStep_inversion hpr h).imp_right fun hr => ⟨pr, hpr, hr⟩

end Handlers

end BurrowGate.Ha
