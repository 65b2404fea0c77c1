import BurrowGate.Ha.Inversion
import Mathlib.Data.Fintype.Basic

/-!
# Election safety

A term has at most one activated election winner. The invariant ties every
granted answer, every tally and every pending activation to durable votes; the
registers then allow one candidate a term, and two tallies share a voter.
-/

namespace BurrowGate.Ha

open Lib.Run
open Lib.Quorum

variable {N : Type*} [DecidableEq N] {members : Finset N} {now conn : Nat}
  {net : List (Message N)} {me : N} {t : HaTables N} {pr pr' : Process N} {n : Node N}
  {e : Effect N} {ev : Event N} {votes votes' : List (Vote N)}

/-- `voter` durably voted for `candidate` in `term`. -/
def Voted (votes : List (Vote N)) (voter : N) (term : Nat) (candidate : N) : Prop :=
  ∃ v ∈ votes, v.voter = voter ∧ v.term = term ∧ v.candidate = candidate

omit [DecidableEq N] in
theorem Voted.mono {u c : N} {T : Nat} (h : Voted votes u T c) (hsub : votes ⊆ votes') :
    Voted votes' u T c := by
  obtain ⟨v, hv, heq⟩ := h
  exact ⟨v, hsub hv, heq⟩

/-! ## What suspended handlers and messages in flight stand for -/

structure TaskOk (members : Finset N) (votes : List (Vote N)) (me : N) (task : Task N) :
    Prop where
  adoptTerm : ∀ term c k, task = .adoptTerm term c k → c ∈ members
  adoptedTerm : ∀ term c k p, task = .adoptedTerm term c k p → c ∈ members
  grantVote : ∀ term c, task = .grantVote term c → c ∈ members
  grantedVote : ∀ term c, task = .grantedVote term c true → Voted votes me term c ∧ c ∈ members

structure TickOk (members : Finset N) (votes : List (Vote N)) (me : N) (tick : Tick N) :
    Prop where
  discover : ∀ ms, tick = .discover ms → HA_AUTO_FAILOVER_MIN_MEMBERS ≤ members.card
  selfVote : ∀ c, tick = .selfVote c → HA_AUTO_FAILOVER_MIN_MEMBERS ≤ members.card
  selfVoted : ∀ c, tick = .selfVoted c true →
    HA_AUTO_FAILOVER_MIN_MEMBERS ≤ members.card ∧ Voted votes me c.term me
  collect : ∀ c responses, tick = .collect c responses →
    HA_AUTO_FAILOVER_MIN_MEMBERS ≤ members.card ∧ Voted votes me c.term me ∧
      ∀ r ∈ responses, r.1 ∈ members ∧
        (r.2.voteGranted = true → Voted votes r.1 c.term me ∧ me ∈ members)
  activate : ∀ c, tick = .activate c → Won members (Voted votes) c.term me

structure ProcessOk (members : Finset N) (votes : List (Vote N)) (me : N) (pr : Process N) :
    Prop where
  tasks : ∀ task ∈ pr.tasks, TaskOk members votes me task
  tick : TickOk members votes me pr.tick

/-- A granted answer was durable before it was sent, for a registered candidate. -/
def ResponsesOk (members : Finset N) (votes : List (Vote N)) (net : List (Message N)) : Prop :=
  ∀ c term voter r, .voteResponse c term voter r ∈ net → r.voteGranted = true →
    Voted votes voter term c ∧ c ∈ members

structure Effect.Ok (members : Finset N) (votes : List (Vote N)) (me : N) (e : Effect N) :
    Prop where
  process : ∀ pr, e.node.process = some pr → ProcessOk members votes me pr
  sent : ResponsesOk members votes e.sent

section

omit [DecidableEq N]

theorem TaskOk.mono {task : Task N} (h : TaskOk members votes me task) (hsub : votes ⊆ votes') :
    TaskOk members votes' me task :=
  ⟨h.adoptTerm, h.adoptedTerm, h.grantVote,
    fun term c hc => ⟨(h.grantedVote term c hc).1.mono hsub, (h.grantedVote term c hc).2⟩⟩

theorem TickOk.mono {tick : Tick N} (h : TickOk members votes me tick) (hsub : votes ⊆ votes') :
    TickOk members votes' me tick where
  discover := h.discover
  selfVote := h.selfVote
  selfVoted c hc := ⟨(h.selfVoted c hc).1, (h.selfVoted c hc).2.mono hsub⟩
  collect c rs hc := by
    obtain ⟨hn, hself, hrs⟩ := h.collect c rs hc
    exact ⟨hn, hself.mono hsub, fun r hr => ⟨(hrs r hr).1, fun hg =>
      ⟨((hrs r hr).2 hg).1.mono hsub, ((hrs r hr).2 hg).2⟩⟩⟩
  activate c hc := (h.activate c hc).mono fun u T c hv => hv.mono hsub

theorem ProcessOk.mono (h : ProcessOk members votes me pr) (hsub : votes ⊆ votes') :
    ProcessOk members votes' me pr :=
  ⟨fun task hm => (h.tasks task hm).mono hsub, h.tick.mono hsub⟩

theorem ResponsesOk.mono (h : ResponsesOk members votes net) (hsub : votes ⊆ votes') :
    ResponsesOk members votes' net :=
  fun c term voter r hm hg => ⟨(h c term voter r hm hg).1.mono hsub, (h c term voter r hm hg).2⟩

theorem Effect.Ok.mono (h : e.Ok members votes me) (hsub : votes ⊆ votes') :
    e.Ok members votes' me :=
  ⟨fun pr hpr => (h.process pr hpr).mono hsub, h.sent.mono hsub⟩

end

/-! ## What an event preserves -/

section

omit [DecidableEq N]

theorem TaskOk.of_not_election {task : Task N} (h : task.isElection = false) :
    TaskOk members votes me task := by
  constructor <;> intros <;> subst_vars <;> cases h

theorem TickOk.of_not_campaign {tick : Tick N} (h : tick.isCampaign = false) :
    TickOk members votes me tick := by
  constructor <;> intros <;> subst_vars <;> cases h

theorem ProcessOk.kept (h : ProcessOk members votes me pr) (hk : Kept pr pr') :
    ProcessOk members votes me pr' := by
  constructor
  · intro task hm
    by_cases he : task.isElection = true
    · exact h.tasks task (hk.tasks task hm he)
    · exact .of_not_election (by simpa using he)
  · by_cases hc : pr'.tick.isCampaign = true
    · rw [hk.tick hc]; exact h.tick
    · exact .of_not_campaign (by simpa using hc)

theorem ProcessOk.spawn {task : Task N} (h : ProcessOk members votes me pr)
    (ht : TaskOk members votes me task) : ProcessOk members votes me (pr.spawn task) := by
  refine ⟨?_, h.tick⟩
  intro task' hm
  rcases List.mem_cons.mp hm with rfl | hm
  · exact ht
  · exact h.tasks task' hm

theorem ProcessOk.withTick {tick : Tick N} (h : ProcessOk members votes me pr)
    (ht : TickOk members votes me tick) : ProcessOk members votes me (withTick pr tick) :=
  ⟨h.tasks, ht⟩

theorem quiet_ok {sent : List (Message N)} (hp : ProcessOk members votes me pr)
    (hs : ∀ c term voter r, .voteResponse c term voter r ∈ sent → r.voteGranted = false) :
    (quiet t pr sent).Ok members votes me := by
  refine ⟨?_, ?_⟩
  · rintro pr' hpr
    obtain rfl := Option.some.inj hpr
    exact hp
  · intro c term voter r hm hg
    rw [hs c term voter r hm] at hg
    cases hg

theorem plain_ok (hn : ∀ pr, n.process = some pr → ProcessOk members votes me pr)
    (he : e.Plain n) : e.Ok members votes me := by
  refine ⟨?_, ?_⟩
  · intro pr' hpr'
    rcases he.process pr' hpr' with ⟨htasks, htick⟩ | ⟨pr, hpr, hk⟩
    · exact ⟨by simp [htasks], htick ▸ .of_not_campaign rfl⟩
    · exact (hn pr hpr).kept hk
  · intro c term voter r hm hg
    rw [he.sent c term voter r hm] at hg
    cases hg

end

section Segments

variable {term cursor i : Nat} {c : N}

section

omit [DecidableEq N]

theorem handleVoteRequest_ok (hp : ProcessOk members votes me pr) (hc : c ∈ members) :
    (handleVoteRequest members now me t pr term c cursor).Ok members votes me := by
  unfold handleVoteRequest
  (repeat' split)
  · exact quiet_ok hp (by simp +contextual)
  · exact quiet_ok hp (by simp +contextual)
  · exact quiet_ok hp (by simp +contextual)
  · have hk : Kept pr { pr with ha := { pr.ha with quorumFenced := true } } := .of_eq rfl rfl
    exact quiet_ok (hp.kept (hk.spawn rfl)) (by simp)
  · exact quiet_ok (hp.spawn (by constructor <;> simp +contextual [hc])) (by simp)

theorem adoptedElectionTerm_ok {p : Option Nat} (hp : ProcessOk members votes me pr)
    (hc : c ∈ members) :
    (adoptedElectionTerm me t pr term c cursor p).Ok members votes me := by
  unfold adoptedElectionTerm
  dsimp only
  have hk (epoch : Nat) : Kept pr { pr with ha := { pr.ha with epoch := epoch } } :=
    .of_eq rfl rfl
  (repeat' split)
  · exact quiet_ok hp (by simp +contextual)
  · exact quiet_ok (hp.kept (hk _)) (by simp +contextual)
  · exact quiet_ok (hp.kept (hk _)) (by simp +contextual)
  · exact quiet_ok ((hp.kept (hk _)).spawn (by constructor <;> simp +contextual [hc])) (by simp)

theorem tickReplicaElection_ok (hp : ProcessOk members votes me pr) :
    (tickReplicaElection members now t pr).Ok members votes me := by
  unfold tickReplicaElection
  split
  · exact quiet_ok hp (by simp)
  · split
    · exact quiet_ok hp (by simp)
    · split
      · exact quiet_ok hp (by simp)
      · rename_i hn
        exact quiet_ok (hp.withTick (by constructor <;> simp [Nat.le_of_not_lt hn])) (by simp)

theorem startCampaign_ok (hp : ProcessOk members votes me pr)
    (hn : HA_AUTO_FAILOVER_MIN_MEMBERS ≤ members.card) :
    (startCampaign now t pr).Ok members votes me := by
  unfold startCampaign
  have hidle : ProcessOk members votes me (withTick pr .idle) :=
    hp.withTick (.of_not_campaign rfl)
  (repeat' split)
  · exact quiet_ok hidle (by simp)
  · exact quiet_ok hidle (by simp)
  · exact quiet_ok ⟨hp.tasks, by constructor <;> simp [hn]⟩ (by simp)

end

theorem votedForSelf_ok {k : Campaign N} {granted : Bool} {peers : List N}
    (hp : ProcessOk members votes me pr) (htick : pr.tick = .selfVoted k granted) :
    (votedForSelf members now me t pr k granted peers).Ok members votes me := by
  unfold votedForSelf
  split
  · rename_i hg
    simp only [Bool.and_eq_true] at hg
    have hv := hp.tick.selfVoted k (hg.1.1 ▸ htick)
    exact quiet_ok ⟨hp.tasks, by constructor <;> simp +contextual [hv.1, hv.2]⟩ (by simp)
  · exact quiet_ok ⟨hp.tasks, .of_not_campaign rfl⟩ (by simp)

/-- A tally that reaches a majority is a majority of durable votes. -/
theorem won_of_granted {k : Campaign N} {responses : List (N × VoteResponse)}
    (hp : TickOk members votes me pr.tick) (htick : pr.tick = .collect k responses)
    (hcard : majority members ≤ (grantedBy me responses).card) :
    Won members (Voted votes) k.term me := by
  obtain ⟨hn, hself, hrs⟩ := hp.collect k responses htick
  have hpeer : ∀ u ∈ grantedBy me responses, u ≠ me →
      u ∈ members ∧ Voted votes u k.term me ∧ me ∈ members := by
    intro u hu hne
    simp only [grantedBy, Finset.mem_insert, hne, false_or, List.mem_toFinset, List.mem_map,
      List.mem_filter] at hu
    obtain ⟨r, ⟨hr, hg⟩, rfl⟩ := hu
    exact ⟨(hrs r hr).1, (hrs r hr).2 hg⟩
  have hme : me ∈ members := by
    have htwo : 1 < (grantedBy me responses).card := by
      unfold majority at hcard
      unfold HA_AUTO_FAILOVER_MIN_MEMBERS at hn
      omega
    obtain ⟨u, hu, hne⟩ := Finset.exists_mem_ne htwo me
    exact (hpeer u hu hne).2.2
  refine ⟨grantedBy me responses, ?_, hcard, ?_⟩
  · intro u hu
    by_cases hne : u = me
    · exact hne ▸ hme
    · exact (hpeer u hu hne).1
  · intro u hu
    by_cases hne : u = me
    · exact hne ▸ hself
    · exact (hpeer u hu hne).2.1

theorem tallied_ok {k : Campaign N} {responses : List (N × VoteResponse)}
    (hp : ProcessOk members votes me pr) (htick : pr.tick = .collect k responses) :
    (tallied members me t pr k responses).Ok members votes me := by
  unfold tallied
  have hend : ProcessOk members votes me (endCampaign pr) := ⟨hp.tasks, .of_not_campaign rfl⟩
  split
  · exact quiet_ok ⟨hp.tasks, .of_not_campaign rfl⟩ (by simp)
  · split
    · exact quiet_ok hend (by simp)
    · rename_i hcard
      split
      · exact quiet_ok hend (by simp)
      · split
        · exact quiet_ok hend (by simp)
        · rename_i pr' hbegin
          have hwon := won_of_granted hp.tick htick (Nat.le_of_not_lt hcard)
          obtain rfl := beginElectionWinnerActivation_eq hbegin
          refine quiet_ok ⟨hp.tasks, ?_⟩ (by simp)
          constructor <;> simp +contextual [withTick]
          exact hwon

omit [DecidableEq N] in
theorem handlePromote_ok {intent : HaPromotionIntent N} (hp : ProcessOk members votes me pr) :
    (handlePromote t pr intent conn).Ok members votes me := by
  unfold handlePromote
  split
  · exact quiet_ok hp (by simp)
  · exact quiet_ok (hp.spawn (by constructor <;> simp)) (by simp)

/-- A grant the voter answers with is in the history by then. -/
theorem persistVote_ok {next : Bool → Process N}
    (hnext : ∀ granted votes', votes ⊆ votes' → (granted = true → Voted votes' me term c) →
      ProcessOk members votes' me (next granted)) :
    (persistVote now me t term c next).Ok members
      ((persistVote now me t term c next).votes ++ votes) me := by
  refine ⟨?_, by simp [ResponsesOk, persistVote]⟩
  intro pr' hpr'
  obtain rfl := Option.some.inj hpr'
  refine hnext _ _ (List.subset_append_right _ _) ?_
  intro hg
  refine ⟨{ voter := me, term, candidate := c, time := now }, ?_, rfl, rfl, rfl⟩
  simp [persistVote, hg]

theorem records_ok (hp : ProcessOk members votes me pr) (hnet : ResponsesOk members votes net)
    (he : e.Records members now net me t pr ev) : e.Ok members (e.votes ++ votes) me := by
  have herase (i : Nat) : ProcessOk members votes me { pr with tasks := pr.tasks.eraseIdx i } :=
    hp.kept (.erase i)
  have hsub : votes ⊆ e.votes ++ votes := List.subset_append_right _ _
  cases he with
  | voteRequest hc => exact (handleVoteRequest_ok hp hc).mono hsub
  | adoptTerm htask =>
      have hc := (hp.tasks _ (List.mem_of_getElem? htask)).adoptTerm _ _ _ rfl
      refine (quiet_ok ((herase _).spawn ?_) (by simp)).mono hsub
      constructor <;> simp only [reduceCtorEq, Task.adoptedTerm.injEq, false_implies, implies_true]
      rintro _ c _ _ ⟨-, rfl, -⟩
      exact hc
  | adoptedTerm htask =>
      have hc := (hp.tasks _ (List.mem_of_getElem? htask)).adoptedTerm _ _ _ _ rfl
      exact (adoptedElectionTerm_ok (herase _) hc).mono hsub
  | grantVote _ htask =>
      have hc := (hp.tasks _ (List.mem_of_getElem? htask)).grantVote _ _ rfl
      refine persistVote_ok fun granted votes' hsub hg => ?_
      refine ((herase _).mono hsub).spawn ?_
      constructor <;> simp +contextual [hc, hg]
  | grantedVote htask =>
      have hv := (hp.tasks _ (List.mem_of_getElem? htask)).grantedVote _ _ rfl
      refine Effect.Ok.mono ⟨fun pr' hpr' => ?_, ?_⟩ hsub
      · obtain rfl := Option.some.inj hpr'
        exact herase _
      · intro c term voter r hm _
        simp only [quiet, List.mem_singleton, Message.voteResponse.injEq] at hm
        obtain ⟨rfl, rfl, rfl, rfl⟩ := hm
        exact hv
  | tick => exact (tickReplicaElection_ok hp).mono hsub
  | electionTimeout htick =>
      exact (startCampaign_ok hp (hp.tick.discover _ htick)).mono hsub
  | selfVote _ htick =>
      have hn := hp.tick.selfVote _ htick
      refine persistVote_ok fun granted votes' hsub hg => ?_
      refine (hp.mono hsub).withTick ?_
      constructor <;> simp +contextual [hn, hg]
  | selfVoted htick => exact (votedForSelf_ok hp htick).mono hsub
  | voteResponse htick hm hvoter =>
      obtain ⟨hn, hself, hrs⟩ := hp.tick.collect _ _ htick
      refine (quiet_ok (hp.withTick ?_) (by simp)).mono hsub
      constructor <;> simp only [reduceCtorEq, Tick.collect.injEq, false_implies, implies_true]
      rintro _ _ ⟨rfl, rfl⟩
      refine ⟨hn, hself, ?_⟩
      rintro r (_ | ⟨_, hr⟩)
      · exact ⟨hvoter, fun hg => hnet _ _ _ _ hm hg⟩
      · exact hrs r hr
  | tallied htick => exact (tallied_ok hp htick).mono hsub
  | activate htick =>
      refine Effect.Ok.mono ⟨fun pr' hpr' => ?_, by simp [activateWinner, ResponsesOk]⟩ hsub
      obtain rfl := Option.some.inj hpr'
      exact hp.withTick (.of_not_campaign rfl)
  | promote => exact (handlePromote_ok hp).mono hsub
  | applyRoleChange htask =>
      refine Effect.Ok.mono ⟨fun pr' hpr' => ?_, by simp [applyRoleChange, ResponsesOk]⟩ hsub
      obtain rfl := Option.some.inj hpr'
      exact (herase _).spawn (.of_not_election rfl)

end Segments

/-! ## Votes and activations of one event -/

/-- An event either leaves the register and the history of votes, or adds one vote that
the register could take. -/
theorem register_step (he : e.Plain n ∨ ∃ pr, n.process = some pr ∧
      e.Records members now net me n.tables pr ev) :
    (e.votes = [] ∧ e.node.tables.config.votedFor = n.tables.config.votedFor) ∨
      ∃ term c, votesIn me n ev = some term ∧
        e.votes = [{ voter := me, term, candidate := c, time := now }] ∧
        MaySet n.tables.config.votedFor term c ∧
        n.tables.config.role = .replica ∧
        e.node.tables.config.votedFor = some (term, c) := by
  have hpersist (term : Nat) (c : N) (next : Bool → Process N)
      (hvotes : (tryPersistVoteGrant n.tables term c).2 = true → votesIn me n ev = some term) :
      let e := persistVote now me n.tables term c next
      (e.votes = [] ∧ e.node.tables.config.votedFor = n.tables.config.votedFor) ∨
        ∃ term c, votesIn me n ev = some term ∧
          e.votes = [{ voter := me, term, candidate := c, time := now }] ∧
          MaySet n.tables.config.votedFor term c ∧
          n.tables.config.role = .replica ∧
          e.node.tables.config.votedFor = some (term, c) := by
    by_cases hg : (tryPersistVoteGrant n.tables term c).2 = true
    · obtain ⟨hmay, hrole, hset, -⟩ := tryPersistVoteGrant_granted n.tables hg
      exact .inr ⟨term, c, hvotes hg, by simp [persistVote, hg], hmay, hrole, hset⟩
    · have hrefused := tryPersistVoteGrant_refused n.tables (by simpa using hg)
      exact .inl ⟨by simp [persistVote, hg], by simp [persistVote, hrefused]⟩
  rcases he with he | ⟨pr, hpr, he⟩
  · exact .inl ⟨he.votes, he.votedFor⟩
  · cases he with
    | grantVote hev htask =>
        exact hpersist _ _ _ fun hg => by simp [hev, votesIn, hpr, htask, hg]
    | selfVote hev htick =>
        exact hpersist _ _ _ fun hg => by simp [hev, votesIn, hpr, htick, hg]
    | activate => exact .inl ⟨rfl, by simp [activateWinner]⟩
    | applyRoleChange => exact .inl ⟨rfl, by simp [applyRoleChange]⟩
    | adoptTerm => exact .inl ⟨rfl, by simp [quiet]⟩
    | _ =>
        left
        try simp only [handleVoteRequest, adoptedElectionTerm, tickReplicaElection, startCampaign,
          votedForSelf, tallied, handlePromote]
        (repeat' split) <;> exact ⟨rfl, rfl⟩

/-- An activation happens now, at the node itself: by the activation of a campaign, or by a
suspended role change that names the node. -/
theorem activation_step (he : e.Plain n ∨ ∃ pr, n.process = some pr ∧
      e.Records members now net me n.tables pr ev) {a : Activation N}
    (ha : a ∈ e.activations) :
    a.time = now ∧ a.node = me ∧ ∃ pr, n.process = some pr ∧
      ((a.via = .election ∧ ∃ c, pr.tick = .activate c ∧ a.epoch = c.term) ∨
        (a.via = .promotion ∧ ∃ (i : Nat) (intent : HaPromotionIntent N) (conn : Nat),
          pr.tasks[i]? = some (Task.applyRoleChange intent conn) ∧
          intent.targetNodeId = me ∧ a.epoch = intent.newEpoch)) := by
  rcases he with he | ⟨pr, hpr, he⟩
  · rw [he.activations] at ha; cases ha
  · cases he with
    | activate htick =>
        simp only [activateWinner] at ha
        split at ha
        · obtain rfl := List.mem_singleton.mp ha
          exact ⟨rfl, rfl, pr, hpr, .inl ⟨rfl, _, htick, rfl⟩⟩
        · cases ha
    | applyRoleChange htask =>
        simp only [applyRoleChange] at ha
        split at ha
        · rename_i htarget
          obtain rfl := List.mem_singleton.mp ha
          exact ⟨rfl, rfl, pr, hpr, .inr ⟨rfl, _, _, _, htask, htarget, rfl⟩⟩
        · cases ha
    | _ =>
        exfalso
        revert ha
        try simp only [handleVoteRequest, adoptedElectionTerm, tickReplicaElection,
          startCampaign, votedForSelf, tallied, handlePromote]
        (repeat' split) <;> simp [quiet, persistVote]

/-! ## The invariant of a run -/

structure Elections (members : Finset N) (s : Cluster N) : Prop where
  process : ∀ n pr, (s.node n).process = some pr → ProcessOk members s.votes n pr
  net : ResponsesOk members s.votes s.net
  covered : ∀ v ∈ s.votes, Covers (s.node v.voter).tables.config.votedFor v.term v.candidate
  oneVote : OneVote (Voted s.votes)
  won : ∀ a ∈ s.activations, a.via = .election →
    Won members (Voted s.votes) a.epoch a.node

theorem elections_initial {s : Cluster N} (h : Initial s) : Elections members s := by
  obtain ⟨now, epoch, primary, rfl⟩ := h
  constructor <;> simp [initial, ResponsesOk, OneVote, Voted]

/-- What one node's event adds keeps the invariant. -/
theorem elections_commit {s : Cluster N} {me : N} {e : Effect N} (h : Elections members s)
    (he : e.Plain (s.node me) ∨ ∃ pr, (s.node me).process = some pr ∧
      e.Records members s.now s.net me (s.node me).tables pr ev) :
    Elections members (s.commit me e) := by
  have hsub : s.votes ⊆ e.votes ++ s.votes := List.subset_append_right _ _
  have hok : e.Ok members (e.votes ++ s.votes) me := by
    rcases he with he | ⟨pr, hpr, he⟩
    · exact (plain_ok (fun pr hpr => h.process me pr hpr) he).mono hsub
    · exact records_ok (h.process me pr hpr) h.net he
  have hreg := register_step he
  have hcov : ∀ v ∈ s.votes,
      Covers ((s.commit me e).node v.voter).tables.config.votedFor v.term v.candidate := by
    intro v hv
    by_cases hme : v.voter = me
    · have hc := h.covered v hv
      rw [hme] at hc
      simp only [Cluster.commit, hme, Function.update_self]
      rcases hreg with ⟨-, hsame⟩ | ⟨term, c, -, -, hmay, -, hset⟩
      · rw [hsame]; exact hc
      · rw [hset]; exact covers_set hmay hc
    · simpa [Cluster.commit, Function.update_of_ne hme] using h.covered v hv
  constructor
  · intro n pr hpr
    by_cases hn : n = me
    · subst hn
      simp only [Cluster.commit, Function.update_self] at hpr
      exact hok.process pr hpr
    · simp only [Cluster.commit, Function.update_of_ne hn] at hpr
      exact (h.process n pr hpr).mono hsub
  · intro c term voter r hm hg
    rcases List.mem_append.mp hm with hm | hm
    · exact hok.sent c term voter r hm hg
    · exact (h.net.mono hsub) c term voter r hm hg
  · intro v hv
    rcases List.mem_append.mp hv with hv | hv
    · rcases hreg with ⟨hnone, -⟩ | ⟨term, c, -, hone, -, -, hset⟩
      · rw [hnone] at hv; cases hv
      · rw [hone] at hv
        obtain rfl := List.mem_singleton.mp hv
        simp only [Cluster.commit, Function.update_self, hset]
        exact covers_self term c
    · exact hcov v hv
  · -- a new vote is the register's, and the register already accounts for the old ones
    rcases hreg with ⟨hnone, -⟩ | ⟨term, c, -, hone, hmay, -, -⟩
    · have heq : (s.commit me e).votes = s.votes := by simp [Cluster.commit, hnone]
      rw [heq]; exact h.oneVote
    · have hnew : ∀ u T d, Voted (s.commit me e).votes u T d →
          Voted s.votes u T d ∨ u = me ∧ T = term ∧ d = c := by
        rintro u T d ⟨v, hv, rfl, rfl, rfl⟩
        rcases List.mem_append.mp hv with hv | hv
        · rw [hone] at hv
          obtain rfl := List.mem_singleton.mp hv
          exact .inr ⟨rfl, rfl, rfl⟩
        · exact .inl ⟨v, hv, rfl, rfl, rfl⟩
      have hold : ∀ d, Voted s.votes me term d → d = c := by
        rintro d ⟨v, hv, rfl, rfl, rfl⟩
        exact covers_unique hmay (h.covered v hv)
      intro u T d d' hd hd'
      rcases hnew u T d hd with ho | ⟨rfl, rfl, rfl⟩ <;>
        rcases hnew _ _ _ hd' with ho' | ⟨hu, hT, rfl⟩
      · exact h.oneVote u T d d' ho ho'
      · subst hu hT; exact hold d ho
      · exact (hold d' ho').symm
      · rfl
  · intro a ha hvia
    rcases List.mem_append.mp ha with ha | ha
    · obtain ⟨-, hnode, pr, hpr, ⟨-, c, htick, hepoch⟩ | ⟨hpromoted, -⟩⟩ := activation_step he ha
      · rw [hnode, hepoch]
        exact ((h.process me pr hpr).tick.activate c htick).mono fun u T c hv => hv.mono hsub
      · rw [hvia] at hpromoted; cases hpromoted
    · exact (h.won a ha hvia).mono fun u T c hv => hv.mono hsub

theorem elections_reach {C : Cluster N → Action N → Prop} {s : Cluster N}
    (h : Reach (step members) C Initial s) : Elections members s := by
  refine h.invariant (fun s hs => elections_initial hs) ?_
  intro s a s' _ hinv _ hstep
  cases a with
  | advance ms =>
      obtain rfl := Option.some.inj hstep
      exact ⟨hinv.process, hinv.net, hinv.covered, hinv.oneVote, hinv.won⟩
  | «at» n ev =>
      obtain ⟨e, he, rfl⟩ := Option.map_eq_some_iff.mp hstep
      exact elections_commit hinv (nodeStep_inversion he)

/-- Two nodes that succeed in `activateHaElectionWinner` with one term are the same node. -/
theorem election_winner_unique {s : Cluster N} (h : Reach (step members) Any Initial s)
    {a b : Activation N} (ha : a ∈ s.activations) (hb : b ∈ s.activations)
    (hva : a.via = .election) (hvb : b.via = .election) (hterm : a.epoch = b.epoch) :
    a.node = b.node := by
  have hinv := elections_reach h
  exact won_unique hinv.oneVote (hinv.won a ha hva) (hterm ▸ hinv.won b hb hvb)

/-! A cluster of three: `u` and `v` join `p`, lose it, and elect `u`. -/

def joins (p u v : N) : List (Action N) :=
  [.at p .boot, .at u .boot, .at v .boot,
    .at u .connectToPrimary, .at v .connectToPrimary,
    .at p (.openStream 3 u), .at p (.openStream 4 v),
    .at u (.hello 3 0), .at u (.resume 0), .at v (.hello 4 0), .at v (.resume 0),
    .at p (.announce 3 u 0), .at p (.resume 0), .at p (.announce 4 v 0), .at p (.resume 0)]

/-- The timer of `u` runs out, and `v` votes for it in term 1. -/
def elects (p u v : N) : List (Action N) :=
  [.at u .tick, .at u (.electionTimeout 45000), .at u (.resumeTick []),
    .at u (.resumeTick [p, v]),
    .at v (.voteRequest 1 u 0), .at v (.resume 0), .at v (.resume 0), .at v (.resume 0),
    .at v (.resume 0),
    .at u (.voteResponse 1 v { voteGranted := true, voterTerm := 1 }),
    .at u (.resumeTick []), .at u (.resumeTick []), .at u (.resumeTick [p, v])]

/-- Five seconds later `primary` sends a heartbeat on the stream `conn` and hears back. -/
def beats (primary replica : N) (conn : Nat) : List (Action N) :=
  [.advance 5000, .at primary .broadcastHeartbeat, .at replica (.heartbeat conn),
    .at primary (.cursor conn replica)]

/-- The quorum timer of `primary`, with `n` segments after the first. -/
def ticks (primary : N) (n : Nat) : List (Action N) :=
  .at primary .tick :: List.replicate n (.at primary (.resumeTick []))

def closes (u v : N) : List (Action N) := [.at u (.replicaClose 1006), .at v (.replicaClose 1006)]

theorem election_winner_unique_elected : ∃ (s : Cluster (Fin 3)) (a : Activation (Fin 3)),
    Reach (step Finset.univ) Any Initial s ∧ a ∈ s.activations ∧ a.via = .election ∧
      a.epoch = 1 ∧ a.node = a.node := by
  have hrun : ((exec (step Finset.univ) (initial 1 (fun _ => 0) (0 : Fin 3))
      (joins 0 1 2 ++ closes 1 2 ++ .advance 45000 :: elects 0 1 2)).bind fun s => s.activations.head?.map
        fun a => (a.via, a.epoch)) = some (.election, 1) := by decide +kernel
  obtain ⟨s, hexec, hhead⟩ := Option.bind_eq_some_iff.mp hrun
  obtain ⟨a, ha, hval⟩ := Option.map_eq_some_iff.mp hhead
  obtain ⟨hvia, hepoch⟩ := Prod.mk.inj hval
  have hstart : Reach (step Finset.univ) Any Initial (initial 1 (fun _ => 0) (0 : Fin 3)) :=
    .start ⟨1, fun _ => 0, 0, rfl⟩
  have hreach := exec_reach hstart hexec
  have hmem := List.mem_of_head? ha
  exact ⟨s, a, hreach, hmem, hvia, hepoch,
    election_winner_unique hreach hmem hmem hvia hvia rfl⟩

end BurrowGate.Ha
