import BurrowGate.Ha.PrimaryWatch
import BurrowGate.Ha.ElectionSafety
import Mathlib.Data.Fintype.Card

/-!
# At most one writable primary

A voter may vote the moment its own end of a stream closes, while the primary's
end goes on counting it for the liveness timeout, and the proof built on that
count for the quorum-loss time after it. The winner's fence covers the liveness
timeout only. Runs that keep voters and primaries apart have one writable
primary; without that, two can be writable at once.
-/

namespace BurrowGate.Ha

open Lib.Run
open Lib.Quorum

variable {N : Type*} [DecidableEq N] {members : Finset N} {now fresh : Nat}
  {net : List (Message N)} {me : N} {t : HaTables N} {pr pr' : Process N} {n : Node N}
  {e : Effect N} {ev : Event N}

/-- The number of terms up to the last one a register voted in. -/
def votedTerms (r : Register N) : Nat := r.elim 0 fun v => v.1 + 1

omit [DecidableEq N] in
theorem lt_votedTerms_of_covers {r : Register N} {term : Nat} {c : N} (h : Covers r term c) :
    term < votedTerms r := by
  obtain ⟨t, d, rfl, hle, -⟩ := h
  exact Nat.lt_succ_of_le hle

/-! ## The condition on a run -/

def Event.isResumeTick : Event N → Bool
  | .resumeTick _ => true
  | _ => false

def Tick.isReadFence : Tick N → Bool
  | .readFence => true
  | _ => false

/-- A process that runs as primary and has not been fenced by a newer epoch. -/
def Leads (pr : Process N) : Prop := pr.ha.role = .primary ∧ pr.ha.authorityFence = none

instance (pr : Process N) : Decidable (Leads pr) := by unfold Leads; infer_instance

def lastVotedTerms (s : Cluster N) (n : N) : Nat := votedTerms (s.node n).tables.config.votedFor

/-- No promotion is started. A vote becomes durable only when every primary of an older term
last heard the voter at least the quorum-loss time ago; a primary hears no member that has
voted in a later term than its own; a primary that is being demoted reads no fence. -/
def KeepsApart (s : Cluster N) : Action N → Prop
  | .advance _ => True
  | .at n ev =>
      ev.isPromoteNode = false ∧
      (∀ term ∈ votesIn n (s.node n) ev, ∀ p, ∀ pr ∈ (s.node p).process, Leads pr →
        lastVotedTerms s p ≤ term → ∀ at_ ∈ pr.heard n, at_ + HA_QUORUM_LOSS_FENCE_MS ≤ s.now) ∧
      ∀ pr ∈ (s.node n).process, Leads pr →
        (∀ u ∈ hearsFrom pr ev, lastVotedTerms s u ≤ lastVotedTerms s n) ∧
        (ev.isResumeTick = true → pr.tick.isReadFence = true →
          (s.node n).tables.config.role = .primary)

instance [Fintype N] (s : Cluster N) : ∀ act, Decidable (KeepsApart s act)
  | .advance _ => inferInstanceAs (Decidable True)
  | .at _ _ => inferInstanceAs (Decidable (_ ∧ _ ∧ _))

/-! ## Rows and processes of primaries -/

/-- A running primary has no suspended election step. -/
def Settled (pr : Process N) : Prop :=
  pr.ha.role = .primary → (∀ task ∈ pr.tasks, task.isElection = false) ∧
    pr.tick.isCampaign = false

theorem votesIn_eq_none (hs : ∀ pr, n.process = some pr → pr.ha.role = .primary ∧ Settled pr) :
    votesIn me n ev = none := by
  cases hp : n.process with
  | none => cases ev <;> simp [votesIn, hp]
  | some pr =>
      obtain ⟨hr, hset⟩ := hs pr hp
      obtain ⟨htasks, htick⟩ := hset hr
      cases ev with
      | resume i =>
          simp only [votesIn, hp, Option.bind_some]
          split
          · rename_i htask
            cases htasks _ (List.mem_of_getElem? htask)
          · rfl
      | resumeTick =>
          simp only [votesIn, hp, Option.map_some]
          split
          · rename_i heq
            cases (Option.some.inj heq) ▸ htick
          · rfl
      | _ => rfl

/-- A primary's row comes from a primary's row, or from winning an election just now. -/
theorem row_after (hu : n.Unpromoted) (hnet : NoPromote net) (hev : ev.isPromoteNode = false)
    (h : nodeStep members now fresh net me n ev = some e)
    (hrow : e.node.tables.config.role = .primary) :
    n.tables.config.role = .primary ∨ ∃ epoch,
      { node := me, epoch, via := .election, time := now } ∈ e.activations ∧
        e.node.tables.config.votedFor = some (epoch, me) := by
  rcases nodeStep_fences hu hnet hev h with ⟨-, hboot⟩ | hcalm | ⟨pr, -, hf⟩
  · left
    obtain ⟨ha, -, rfl⟩ := Option.map_eq_some_iff.mp hboot
    exact prepareForRuntimeAtBoot_role members.card now ha n.tables ▸ hrow
  · exact .inl (hcalm.row hrow).1
  · cases hf with
    | @activate c =>
        by_cases hact : (activateHaElectionWinner n.tables c.term me c.expectedPrimaryUrl).2 = true
        · obtain ⟨-, hv, -⟩ := activateHaElectionWinner_activated n.tables hact
          exact .inr ⟨c.term, by simp [activateWinner, hact], by simp [activateWinner, hv]⟩
        · left
          have hrej := activateHaElectionWinner_rejected n.tables (by simpa using hact)
          simp only [activateWinner, hrej] at hrow
          exact hrow
    | fenceForTerm =>
        left
        revert hrow
        simp only [quiet]
        unfold fenceHaPrimaryForElectionTerm
        split
        · rename_i hr; exact fun _ => hr
        · exact id
    | fenceAuthority _ _ _ hr => exact .inl (hr.1 ▸ hrow)
    | tick | countMembers | checkFence =>
        left
        revert hrow
        simp only [tickPrimaryQuorum, countedMembers, checkedFence, clearQuorumLossIfFenced]
        (repeat' split) <;> exact id
    | _ => exact .inl hrow

omit [DecidableEq N] in
/-- A booted process has its row's role, nothing suspended and nothing heard; a primary that
no newer epoch fenced starts quorum-fenced. -/
theorem boot_after (me : N) (hcard : HA_AUTO_FAILOVER_MIN_MEMBERS ≤ members.card)
    (hu : t.intent = none) (h : boot members now t = some e)
    (hp : e.node.process = some pr) :
    pr.ha.role = t.config.role ∧ Seen me pr ∧ Confirmed members me now pr ∧ Settled pr ∧
      pr.heard = (fun _ => none) ∧
      (Leads pr → ∀ since, since ≤ now → Fenced since now e.node.tables.config pr) := by
  obtain ⟨ha, hload, rfl⟩ := Option.map_eq_some_iff.mp h
  obtain rfl := Option.some.inj hp
  obtain ⟨hrole, hconf, helection⟩ := loadHaClusterConfigAtBoot_eq hload
  obtain ⟨promotion, quorum, heq⟩ := prepareForRuntimeAtBoot_eq members.card now ha t
  have hfence (hr : ha.role = .primary) (hauth : ha.authorityFence = none) :=
    prepareForRuntimeAtBoot_fenced now hcard hu hr hauth
  simp only [quiet, heq] at hfence ⊢
  refine ⟨hrole, ⟨by simp, by simp [Knows]⟩, ⟨hconf.le, fun _ => helection, ?_⟩,
    fun _ => ⟨by simp, rfl⟩, trivial, ?_⟩
  · rintro hr hauth (hq | hq)
    · rw [(hfence hr hauth).1] at hq
      cases hq
    · cases hq
  · rintro ⟨hr, hauth⟩ since hsince
    obtain ⟨hq, hat⟩ := hfence hr hauth
    refine ⟨fun _ => ?_, ?_, by simp, by simp, by simp, by simp⟩
    · rw [hat]; exact hsince
    · intro hf; rw [hq] at hf; cases hf

/-- A primary starts no election step. -/
theorem settled_after (hu : n.Unpromoted) (hnet : NoPromote net)
    (hev : ev.isPromoteNode = false) (h : nodeStep members now fresh net me n ev = some e)
    (hn : ∀ pr, n.process = some pr → Settled pr) (hp : e.node.process = some pr') :
    Settled pr' := by
  intro hrole
  have hbefore : ∀ pr, n.process = some pr → pr.ha.role = .primary := by
    intro pr hpr
    rcases nodeStep_fences hu hnet hev h with ⟨hdown, -⟩ | hcalm | ⟨pr₀, hpr₀, hf⟩
    · rw [hdown] at hpr; cases hpr
    · obtain ⟨pr₀, hpr₀, hk⟩ := hcalm.process pr' hp
      obtain rfl := Option.some.inj (hpr.symm.trans hpr₀)
      exact hk.role hrole
    · obtain rfl := Option.some.inj (hpr.symm.trans hpr₀)
      exact (fences_continues hf hp).role hrole
  rcases nodeStep_inversion h with hplain | ⟨pr, hpr, hrec⟩
  · rcases hplain.process pr' hp with ⟨htasks, htick⟩ | ⟨pr, hpr, hk⟩
    · exact ⟨by simp [htasks], by rw [htick]; rfl⟩
    · obtain ⟨htasks, htick⟩ := hn pr hpr (hbefore pr hpr)
      constructor
      · intro task hm
        by_contra he
        rw [htasks task (hk.tasks task hm (by simpa using he))] at he
        exact he rfl
      · by_contra hc
        have heq := hk.tick (by simpa using hc)
        rw [heq, htick] at hc
        exact hc rfl
  · have hr := hbefore pr hpr
    obtain ⟨htasks, htick⟩ := hn pr hpr hr
    cases hrec with
    | voteRequest =>
        revert hp
        unfold handleVoteRequest
        (repeat' split) <;> intro hp <;> obtain rfl := Option.some.inj hp
        · exact ⟨htasks, htick⟩
        · exact ⟨htasks, htick⟩
        · exact ⟨htasks, htick⟩
        · refine ⟨fun task hm => ?_, htick⟩
          rcases List.mem_cons.mp hm with rfl | hm
          · rfl
          · exact htasks task hm
    | tick _ hreplica => rw [hr] at hreplica; cases hreplica
    | promote hm => exact absurd hm (hnet _ _)
    | adoptTerm ht | adoptedTerm ht | grantedVote ht | applyRoleChange ht =>
        cases htasks _ (List.mem_of_getElem? ht)
    | grantVote _ ht => cases htasks _ (List.mem_of_getElem? ht)
    | electionTimeout ht | selfVoted ht | voteResponse ht | tallied ht | activate ht =>
        rw [ht] at htick; cases htick
    | selfVote _ ht => rw [ht] at htick; cases htick

/-! ## The invariant of a run -/

/-- `n` won the election of its last vote's term. -/
def WonLast (n : N) (r : Register N) (a : Activation N) : Prop :=
  a.via = .election ∧ a.node = n ∧ r = some (a.epoch, n)

/-- A vote held by the time it is needed. -/
def VotedBy (votes : List (Vote N)) (time : Nat) (voter : N) (term : Nat) (candidate : N) : Prop :=
  ∃ v ∈ votes, v.voter = voter ∧ v.term = term ∧ v.candidate = candidate ∧ v.time ≤ time

structure OnePrimary [Fintype N] (first : N) (s : Cluster N) : Prop where
  unpromoted : ∀ n, (s.node n).Unpromoted
  net : NoPromote s.net
  votes : ∀ v ∈ s.votes, v.time ≤ s.now
  activations : ∀ a ∈ s.activations, a.time ≤ s.now ∧
    (a.via = .election → Won Finset.univ (VotedBy s.votes a.time) a.epoch a.node)
  row : ∀ n, (s.node n).tables.config.role = .primary →
    (n = first ∧ (s.node n).tables.config.votedFor = none) ∨
      ∃ a ∈ s.activations, WonLast n (s.node n).tables.config.votedFor a
  seen : ∀ n pr, (s.node n).process = some pr → Seen n pr
  confirmed : ∀ n pr, (s.node n).process = some pr → Confirmed Finset.univ n s.now pr
  settled : ∀ n pr, (s.node n).process = some pr → Settled pr
  reign : ∀ n pr, (s.node n).process = some pr → pr.ha.role = .primary →
    (n = first ∧ (s.node n).tables.config.votedFor = none) ∨
      ∃ a ∈ s.activations, WonLast n (s.node n).tables.config.votedFor a ∧
        (Leads pr → Fenced a.time s.now (s.node n).tables.config pr)
  heard : ∀ v ∈ s.votes, ∀ n pr, (s.node n).process = some pr → Leads pr →
    lastVotedTerms s n ≤ v.term → ∀ at_, pr.heard v.voter = some at_ →
      at_ + HA_QUORUM_LOSS_FENCE_MS ≤ v.time

section Run

variable [Fintype N] {first : N} {s : Cluster N}

theorem onePrimary_initial (h : Initial s) : ∃ first, OnePrimary first s := by
  obtain ⟨now, epoch, primary, rfl⟩ := h
  refine ⟨primary, ?_⟩
  constructor <;> simp [initial, NoPromote]
  · exact fun n => ⟨rfl, by simp⟩
  · intro n hn
    refine ⟨?_, rfl⟩
    by_contra hne
    simp [freshTables, hne] at hn

omit [DecidableEq N] in
theorem onePrimary_advance (h : OnePrimary first s) (ms : Nat) :
    OnePrimary first { s with now := s.now + ms } where
  unpromoted := h.unpromoted
  net := h.net
  votes v hv := Nat.le_add_right_of_le (h.votes v hv)
  activations a ha := ⟨Nat.le_add_right_of_le (h.activations a ha).1, (h.activations a ha).2⟩
  row := h.row
  seen := h.seen
  confirmed n pr hpr := by
    have hc := h.confirmed n pr hpr
    exact ⟨Nat.le_add_right_of_le hc.confirmed, hc.election, hc.majority⟩
  settled := h.settled
  reign n pr hpr hr := by
    rcases h.reign n pr hpr hr with hfirst | ⟨a, ha, hwon, hf⟩
    · exact .inl hfirst
    · exact .inr ⟨a, ha, hwon, fun hl => (hf hl).later (Nat.le_add_right _ _)⟩
  heard := h.heard

omit [DecidableEq N] [Fintype N] in
theorem votedTerms_le_of_maySet {r : Register N} {term : Nat} {c : N} (h : MaySet r term c) :
    votedTerms r ≤ votedTerms (some (term, c)) := by
  cases r with
  | none => exact Nat.zero_le _
  | some v =>
      rcases h v.1 v.2 rfl with hlt | ⟨heq, -⟩
      · exact Nat.succ_le_succ hlt.le
      · exact Nat.succ_le_succ heq.le

section Commit

variable (h : OnePrimary first s) (hcard : HA_AUTO_FAILOVER_MIN_MEMBERS ≤ Fintype.card N)
  (hkeep : KeepsApart s (.at me ev))
  (hstep : nodeStep Finset.univ s.now s.fresh s.net me (s.node me) ev = some e)
include h hkeep hstep

/-- A node that runs as primary afterwards took no vote. -/
theorem votedFor_after (hp : e.node.process = some pr') (hr : pr'.ha.role = .primary) :
    e.votes = [] ∧
      e.node.tables.config.votedFor = (s.node me).tables.config.votedFor := by
  rcases register_step (nodeStep_inversion hstep) with hsame | ⟨term, c, hvotes, -⟩
  · exact hsame
  · have hnone : votesIn me (s.node me) ev = none := by
      refine votesIn_eq_none fun pr hpr => ⟨?_, h.settled me pr hpr⟩
      rcases nodeStep_fences (h.unpromoted me) h.net hkeep.1 hstep with
        ⟨hdown, -⟩ | hcalm | ⟨pr₀, hpr₀, hf⟩
      · rw [hdown] at hpr; cases hpr
      · obtain ⟨pr₀, hpr₀, hk⟩ := hcalm.process pr' hp
        obtain rfl := Option.some.inj (hpr.symm.trans hpr₀)
        exact hk.role hr
      · obtain rfl := Option.some.inj (hpr.symm.trans hpr₀)
        exact (fences_continues hf hp).role hr
    rw [hnone] at hvotes
    cases hvotes

theorem seen_after (hp : e.node.process = some pr') : Seen me pr' := by
  rcases nodeStep_fences (h.unpromoted me) h.net hkeep.1 hstep with
    ⟨-, hboot⟩ | hcalm | ⟨pr, hpr, hf⟩
  · obtain ⟨ha, -, rfl⟩ := Option.map_eq_some_iff.mp hboot
    obtain rfl := Option.some.inj hp
    exact ⟨by simp, by simp [Knows]⟩
  · obtain ⟨pr, hpr, hk⟩ := hcalm.process pr' hp
    exact (h.seen me pr hpr).steady hk
  · exact fences_seen (h.seen me pr hpr) hf hp

include hcard in
theorem confirmed_after (hp : e.node.process = some pr') :
    Confirmed Finset.univ me s.now pr' := by
  rcases nodeStep_fences (h.unpromoted me) h.net hkeep.1 hstep with
    ⟨-, hboot⟩ | hcalm | ⟨pr, hpr, hf⟩
  · exact (boot_after me (by simpa using hcard) (h.unpromoted me).intent hboot hp).2.2.1
  · obtain ⟨pr, hpr, hk⟩ := hcalm.process pr' hp
    exact (h.confirmed me pr hpr).steady hk
  · exact fences_confirmed (by simpa using hcard) (Finset.mem_univ me)
      ((h.unpromoted me).process pr hpr).fenced (h.seen me pr hpr) (h.confirmed me pr hpr) hf hp

theorem row_reign_after (hr : e.node.tables.config.role = .primary) :
    (me = first ∧ e.node.tables.config.votedFor = none) ∨
      ∃ a ∈ e.activations ++ s.activations, WonLast me e.node.tables.config.votedFor a := by
  rcases row_after (h.unpromoted me) h.net hkeep.1 hstep hr with hold | ⟨epoch, ha, hv⟩
  · have hsame : e.node.tables.config.votedFor = (s.node me).tables.config.votedFor := by
      rcases register_step (nodeStep_inversion hstep) with ⟨-, hsame⟩ | ⟨_, _, -, -, -, hrep, -⟩
      · exact hsame
      · rw [hold] at hrep; cases hrep
    rw [hsame]
    rcases h.row me hold with hfirst | ⟨a, ha, hwon⟩
    · exact .inl hfirst
    · exact .inr ⟨a, List.mem_append_right _ ha, hwon⟩
  · exact .inr ⟨_, List.mem_append_left _ ha, rfl, rfl, hv⟩

include hcard in
theorem reign_after (hp : e.node.process = some pr') (hr : pr'.ha.role = .primary) :
    (me = first ∧ e.node.tables.config.votedFor = none) ∨
      ∃ a ∈ e.activations ++ s.activations, WonLast me e.node.tables.config.votedFor a ∧
        (Leads pr' → Fenced a.time s.now e.node.tables.config pr') := by
  obtain ⟨-, hsame⟩ := votedFor_after h hkeep hstep hp hr
  rw [hsame]
  rcases nodeStep_fences (h.unpromoted me) h.net hkeep.1 hstep with
    ⟨-, hboot⟩ | hcalm | ⟨pr, hpr, hf⟩
  · obtain ⟨hrole, -, -, -, -, hfenced⟩ :=
      boot_after me (by simpa using hcard) (h.unpromoted me).intent hboot hp
    rcases h.row me (hrole ▸ hr) with hfirst | ⟨a, ha, hwon⟩
    · exact .inl hfirst
    · exact .inr ⟨a, List.mem_append_right _ ha, hwon,
        fun hl => hfenced hl a.time (h.activations a ha).1⟩
  · obtain ⟨pr, hpr, hk⟩ := hcalm.process pr' hp
    rcases h.reign me pr hpr (hk.role hr) with hfirst | ⟨a, ha, hwon, hold⟩
    · exact .inl hfirst
    · exact .inr ⟨a, List.mem_append_right _ ha, hwon,
        fun hl => (hold ⟨hk.role hr, hk.authorityFence hr hl.2⟩).steady hk hr hcalm.row⟩
  · have hcont := fences_continues hf hp
    rcases h.reign me pr hpr (hcont.role hr) with hfirst | ⟨a, ha, hwon, hold⟩
    · exact .inl hfirst
    · refine .inr ⟨a, List.mem_append_right _ ha, hwon, fun hl => ?_⟩
      have hlead : Leads pr := ⟨hcont.role hr, hcont.authorityFence hr hl.2⟩
      have hread : pr.tick = .readFence → (∃ peers, ev = .resumeTick peers) →
          (s.node me).tables.config.role = .primary := by
        rintro htick ⟨peers, rfl⟩
        exact (hkeep.2.2 pr hpr hlead).2 rfl (by rw [htick]; rfl)
      exact fences_fenced (by simpa using hcard) (h.activations a ha).1
        (h.settled me pr hpr hlead.1).2 hread (hold hlead) hf hr hp

omit h in
theorem lastVotedTerms_le (u : N) :
    lastVotedTerms s u ≤ lastVotedTerms (s.commit me e) u := by
  unfold lastVotedTerms
  by_cases hu : u = me
  · subst hu
    simp only [Cluster.commit, Function.update_self]
    rcases register_step (nodeStep_inversion hstep) with ⟨-, hsame⟩ | ⟨term, c, -, -, hmay, -, hset⟩
    · rw [hsame]
    · rw [hset]; exact votedTerms_le_of_maySet hmay
  · simp only [Cluster.commit, Function.update_of_ne hu, le_refl]

/-- What a primary has heard stays older than every vote of a later term. -/
theorem heard_after (hel : Elections Finset.univ s) {v : Vote N} (hv : v ∈ e.votes ++ s.votes)
    {p : N} (hp : ((s.commit me e).node p).process = some pr') (hl : Leads pr')
    (hterm : lastVotedTerms (s.commit me e) p ≤ v.term) {at_ : Nat}
    (hat : pr'.heard v.voter = some at_) : at_ + HA_QUORUM_LOSS_FENCE_MS ≤ v.time := by
  have hterm' := (lastVotedTerms_le hkeep hstep p).trans hterm
  by_cases hpm : p = me
  · subst hpm
    simp only [Cluster.commit, Function.update_self] at hp
    obtain ⟨hnone, -⟩ := votedFor_after h hkeep hstep hp hl.1
    rw [hnone, List.nil_append] at hv
    have hcont : (∀ u, pr'.heard u = none) ∨
        ∃ pr, (s.node p).process = some pr ∧ Continues ev pr pr' := by
      rcases nodeStep_fences (h.unpromoted p) h.net hkeep.1 hstep with
        ⟨-, hboot⟩ | hcalm | ⟨pr, hpr, hf⟩
      · obtain ⟨ha, -, rfl⟩ := Option.map_eq_some_iff.mp hboot
        obtain rfl := Option.some.inj hp
        exact .inl fun _ => rfl
      · obtain ⟨pr, hpr, hk⟩ := hcalm.process pr' hp
        exact .inr ⟨pr, hpr, hk.continues⟩
      · exact .inr ⟨pr, hpr, fences_continues hf hp⟩
    rcases hcont with hnothing | ⟨pr, hpr, hcont⟩
    · rw [hnothing] at hat; cases hat
    have hlead : Leads pr := ⟨hcont.role hl.1, hcont.authorityFence hl.1 hl.2⟩
    rcases hcont.heard _ _ hat with hold | hears
    · exact h.heard v hv p pr hpr hlead hterm' at_ hold
    · have hle := (hkeep.2.2 pr hpr hlead).1 _ hears
      have hlt := lt_votedTerms_of_covers (hel.covered v hv)
      unfold lastVotedTerms at hle hterm'
      omega
  · simp only [Cluster.commit, Function.update_of_ne hpm] at hp
    rcases List.mem_append.mp hv with hv | hv
    · rcases register_step (nodeStep_inversion hstep) with ⟨hnone, -⟩ | ⟨term, c, hin, hone, -⟩
      · rw [hnone] at hv; cases hv
      · rw [hone] at hv
        obtain rfl := List.mem_singleton.mp hv
        exact hkeep.2.1 term hin p pr' hp hl hterm' at_ hat
    · exact h.heard v hv p pr' hp hl hterm' at_ hat

omit hkeep in
theorem voteTime_after {v : Vote N} (hv : v ∈ e.votes ++ s.votes) : v.time ≤ s.now := by
  rcases List.mem_append.mp hv with hv | hv
  · rcases register_step (nodeStep_inversion hstep) with ⟨hnone, -⟩ | ⟨_, _, -, hone, -⟩
    · rw [hnone] at hv; cases hv
    · rw [hone] at hv
      obtain rfl := List.mem_singleton.mp hv
      exact le_rfl
  · exact h.votes v hv

omit hkeep in
theorem activations_after (hel : Elections Finset.univ (s.commit me e)) {a : Activation N}
    (ha : a ∈ e.activations ++ s.activations) : a.time ≤ s.now ∧ (a.via = .election →
      Won Finset.univ (VotedBy (e.votes ++ s.votes) a.time) a.epoch a.node) := by
  rcases List.mem_append.mp ha with hnew | hold
  · obtain ⟨htime, -⟩ := activation_step (nodeStep_inversion hstep) hnew
    refine ⟨htime.le, fun hvia => (hel.won a ha hvia).mono ?_⟩
    rintro u T c ⟨v, hv, hvoter, hterm, hcand⟩
    exact ⟨v, hv, hvoter, hterm, hcand, htime ▸ voteTime_after h hstep hv⟩
  · refine ⟨(h.activations a hold).1, fun hvia => ((h.activations a hold).2 hvia).mono ?_⟩
    rintro u T c ⟨v, hv, hrest⟩
    exact ⟨v, List.mem_append_right _ hv, hrest⟩

include hcard in
theorem onePrimary_commit (hel : Elections Finset.univ s)
    (hel' : Elections Finset.univ (s.commit me e)) : OnePrimary first (s.commit me e) := by
  have hun := nodeStep_unpromoted (h.unpromoted me) h.net hkeep.1 hstep
  constructor
  · intro n
    by_cases hn : n = me
    · subst hn; simpa [Cluster.commit] using hun.node
    · simpa [Cluster.commit, Function.update_of_ne hn] using h.unpromoted n
  · intro conn i hm
    rcases List.mem_append.mp hm with hm | hm
    · exact hun.sent conn i hm
    · exact h.net conn i hm
  · intro v hv
    exact voteTime_after h hstep hv
  · intro a ha
    exact activations_after h hstep hel' ha
  · intro n hr
    by_cases hn : n = me
    · subst hn
      simp only [Cluster.commit, Function.update_self] at hr ⊢
      exact row_reign_after h hkeep hstep hr
    · simp only [Cluster.commit, Function.update_of_ne hn] at hr ⊢
      rcases h.row n hr with hfirst | ⟨a, ha, hwon⟩
      · exact .inl hfirst
      · exact .inr ⟨a, List.mem_append_right _ ha, hwon⟩
  · intro n pr hp
    by_cases hn : n = me
    · subst hn
      simp only [Cluster.commit, Function.update_self] at hp
      exact seen_after h hkeep hstep hp
    · simp only [Cluster.commit, Function.update_of_ne hn] at hp
      exact h.seen n pr hp
  · intro n pr hp
    by_cases hn : n = me
    · subst hn
      simp only [Cluster.commit, Function.update_self] at hp
      change Confirmed Finset.univ n s.now pr
      exact confirmed_after h hcard hkeep hstep hp
    · simp only [Cluster.commit, Function.update_of_ne hn] at hp
      exact h.confirmed n pr hp
  · intro n pr hp
    by_cases hn : n = me
    · subst hn
      simp only [Cluster.commit, Function.update_self] at hp
      exact settled_after (h.unpromoted n) h.net hkeep.1 hstep (h.settled n) hp
    · simp only [Cluster.commit, Function.update_of_ne hn] at hp
      exact h.settled n pr hp
  · intro n pr hp hr
    by_cases hn : n = me
    · subst hn
      simp only [Cluster.commit, Function.update_self] at hp ⊢
      exact reign_after h hcard hkeep hstep hp hr
    · simp only [Cluster.commit, Function.update_of_ne hn] at hp ⊢
      rcases h.reign n pr hp hr with hfirst | ⟨a, ha, hwon, hf⟩
      · exact .inl hfirst
      · exact .inr ⟨a, List.mem_append_right _ ha, hwon, hf⟩
  · intro v hv p pr hp hl hterm at_ hat
    exact heard_after h hkeep hstep hel hv hp hl hterm hat

end Commit

theorem onePrimary_reach (hcard : HA_AUTO_FAILOVER_MIN_MEMBERS ≤ Fintype.card N)
    (h : Reach (step Finset.univ) KeepsApart Initial s) : ∃ first, OnePrimary first s := by
  refine h.invariant (fun s hs => onePrimary_initial hs) ?_
  rintro s a s' hreach ⟨first, hinv⟩ hkeep hstep
  refine ⟨first, ?_⟩
  cases a with
  | advance ms =>
      obtain rfl := Option.some.inj hstep
      exact onePrimary_advance hinv ms
  | «at» n ev =>
      have hel' := elections_reach (Reach.next hreach hkeep hstep)
      obtain ⟨e, he, rfl⟩ := Option.map_eq_some_iff.mp hstep
      exact onePrimary_commit hinv hcard hkeep he (elections_reach hreach) hel'

/-! ## Two writable primaries -/

/-- While a primary is writable, no election of a later term than its own has had its fence
expire: the two majorities share a member, heard too recently to have voted by then. -/
theorem not_writable_of_later (h : OnePrimary first s) {p : N} {a : Activation N}
    (hp : (s.node p).process = some pr) (hw : pr.ha.writable s.now = true)
    (ha : a ∈ s.activations) (hvia : a.via = .election)
    (hel : Elections Finset.univ s) (hterm : lastVotedTerms s p ≤ a.epoch)
    (hpassed : a.time + HA_REPLICA_LIVENESS_TIMEOUT_MS ≤ s.now) : False := by
  obtain ⟨hr, hauth, hq, -, hstale⟩ := writable_iff.mp hw
  obtain ⟨htrack, S, hS, hScard, hheard⟩ :=
    (h.confirmed p pr hp).majority hr hauth (.inl hq)
  obtain ⟨Q, hQ, hQcard, hvoted⟩ := (h.activations a ha).2 hvia
  obtain ⟨u, huS, huQ⟩ := majorities_meet hS hQ hScard hQcard
  obtain ⟨v, hv, hvoter, hvterm, -, hvtime⟩ := hvoted u huQ
  have hfresh := hstale htrack
  rcases hheard u huS with rfl | ⟨at_, hat, hle⟩
  · -- the primary itself voted in a later term
    have hlt := lt_votedTerms_of_covers (hel.covered v hv)
    unfold lastVotedTerms at hterm
    rw [hvoter] at hlt
    omega
  · have hold := h.heard v hv p pr hp ⟨hr, hauth⟩ (hterm.trans hvterm.ge) at_ (hvoter ▸ hat)
    omega

/-- In a run that keeps voters and primaries apart, one node at most is writable. -/
theorem one_writable_primary (hcard : HA_AUTO_FAILOVER_MIN_MEMBERS ≤ Fintype.card N)
    (h : Reach (step Finset.univ) KeepsApart Initial s) {n m : N} {pr pr' : Process N}
    (hn : (s.node n).process = some pr) (hm : (s.node m).process = some pr')
    (hwn : pr.ha.writable s.now = true) (hwm : pr'.ha.writable s.now = true) : n = m := by
  obtain ⟨first, hinv⟩ := onePrimary_reach hcard h
  have hel := elections_reach h
  have hlead {p : N} {q : Process N} (hw : q.ha.writable s.now = true) : Leads q :=
    ⟨(writable_iff.mp hw).1, (writable_iff.mp hw).2.1⟩
  have hpassed {a : Activation N} {p : N} {q : Process N} (hw : q.ha.writable s.now = true)
      (hf : Leads q → Fenced a.time s.now (s.node p).tables.config q) :
      a.time + HA_REPLICA_LIVENESS_TIMEOUT_MS ≤ s.now :=
    (hf (hlead (p := p) hw)).cleared (writable_iff.mp hw).2.2.1
  have hterms {p : N} {a : Activation N}
      (hwon : WonLast p (s.node p).tables.config.votedFor a) : lastVotedTerms s p = a.epoch + 1 := by
    unfold lastVotedTerms
    rw [hwon.2.2]
    rfl
  rcases hinv.reign n pr hn (writable_iff.mp hwn).1 with ⟨rfl, hnone⟩ | ⟨a, ha, hwa, hfa⟩ <;>
    rcases hinv.reign m pr' hm (writable_iff.mp hwm).1 with ⟨rfl, hnone'⟩ | ⟨b, hb, hwb, hfb⟩
  · rfl
  · have hzero : lastVotedTerms s n = 0 := by unfold lastVotedTerms; rw [hnone]; rfl
    exact (not_writable_of_later hinv hn hwn hb hwb.1 hel (by omega) (hpassed hwm hfb)).elim
  · have hzero : lastVotedTerms s m = 0 := by unfold lastVotedTerms; rw [hnone']; rfl
    exact (not_writable_of_later hinv hm hwm ha hwa.1 hel (by omega) (hpassed hwn hfa)).elim
  · have hta := hterms hwa
    have htb := hterms hwb
    rcases Nat.lt_trichotomy a.epoch b.epoch with hlt | heq | hlt
    · exact (not_writable_of_later hinv hn hwn hb hwb.1 hel (by omega) (hpassed hwm hfb)).elim
    · have hsame := won_unique hel.oneVote (hel.won a ha hwa.1) (heq ▸ hel.won b hb hwb.1)
      rw [← hwa.2.1, ← hwb.2.1, hsame]
    · exact (not_writable_of_later hinv hm hwm ha hwa.1 hel (by omega) (hpassed hwn hfa)).elim

end Run

/-! ## Runs of three nodes -/

/-- `u` restarts as primary, and `v` adopts it and joins its stream `conn`. -/
def handsOver (u v : N) (conn : Nat) : List (Action N) :=
  [.at u .crash, .at u .boot,
    .at v (.announcePrimary u 1), .at v (.resume 0), .at v (.resume 0),
    .at v .crash, .at v .boot, .at v .connectToPrimary,
    .at u (.openStream conn v), .at v (.hello conn 1), .at v (.resume 0),
    .at u (.announce conn v 1), .at u (.resume 0)]

/-- Nodes 1 and 2 lose node 0 for 45 s; node 1 is elected and becomes writable, while node 0
still runs as primary. -/
theorem one_writable_primary_failover : ∃ (s : Cluster (Fin 3)) (pr : Process (Fin 3)),
    Reach (step Finset.univ) KeepsApart Initial s ∧ (s.node 1).process = some pr ∧
      pr.ha.writable s.now = true ∧ (1 : Fin 3) = 1 := by
  have hrun : ((execIf (step Finset.univ) KeepsApart (initial 1 (fun _ => 0) (0 : Fin 3))
      (joins 0 1 2 ++ closes 1 2 ++ .advance 45000 :: elects 0 1 2 ++ handsOver 1 2 37 ++
        beats 1 2 37 ++ beats 1 2 37 ++ beats 1 2 37 ++ ticks 1 4)).bind fun s => (s.node 1).process.map
          fun pr => pr.ha.writable s.now) = some true := by decide +kernel
  obtain ⟨s, hexec, hproc⟩ := Option.bind_eq_some_iff.mp hrun
  obtain ⟨pr, hpr, hw⟩ := Option.map_eq_some_iff.mp hproc
  have hstart : Reach (step Finset.univ) KeepsApart Initial (initial 1 (fun _ => 0) (0 : Fin 3)) :=
    .start ⟨1, fun _ => 0, 0, rfl⟩
  have hreach := execIf_reach hstart hexec
  exact ⟨s, pr, hreach, hpr, hw,
    @one_writable_primary (Fin 3) _ _ s (by decide) hreach 1 1 pr pr hpr hpr hw hw⟩

def NoManualPromotion (_ : Cluster N) : Action N → Prop
  | .advance _ => True
  | .at _ ev => ev.isPromoteNode = false

instance (s : Cluster N) : ∀ act, Decidable (NoManualPromotion s act)
  | .advance _ => inferInstanceAs (Decidable True)
  | .at _ ev => inferInstanceAs (Decidable (ev.isPromoteNode = false))

/-- Node 1 has been cut off for 45 s when node 2's end of its stream closes: node 2 votes at
once, while node 0 counts it for 15 s more and trusts that count for another 10 s. -/
theorem two_writable_primaries : ¬ ∀ (s : Cluster (Fin 3)) (n m : Fin 3)
    (pr pr' : Process (Fin 3)), Reach (step Finset.univ) NoManualPromotion Initial s →
      (s.node n).process = some pr → (s.node m).process = some pr' →
      pr.ha.writable s.now = true → pr'.ha.writable s.now = true → n = m := by
  intro hclaim
  have hrun : ((execIf (step Finset.univ) NoManualPromotion (initial 1 (fun _ => 0) (0 : Fin 3))
      (joins 0 1 2 ++
        (List.replicate 3 (beats 0 1 3 ++ [Action.at 2 (.heartbeat 4), .at 0 (.cursor 4 2)])).flatten ++
        ticks 0 4 ++ [Action.at 1 (.replicaClose 1006)] ++ (List.replicate 9 (beats 0 2 4)).flatten ++
        [Action.at 2 (.replicaClose 1006)] ++ elects 0 1 2 ++ handsOver 1 2 84 ++
        (List.replicate 3 (beats 1 2 84)).flatten ++ ticks 0 1 ++ ticks 1 4)).bind fun s =>
          (s.node 0).process.bind fun pr => (s.node 1).process.map fun pr' =>
            (pr.ha.writable s.now, pr'.ha.writable s.now)) = some (true, true) := by
    decide +kernel
  obtain ⟨s, hexec, hproc⟩ := Option.bind_eq_some_iff.mp hrun
  obtain ⟨pr, hpr, hproc⟩ := Option.bind_eq_some_iff.mp hproc
  obtain ⟨pr', hpr', hval⟩ := Option.map_eq_some_iff.mp hproc
  obtain ⟨hw, hw'⟩ := Prod.mk.inj hval
  have hstart : Reach (step Finset.univ) NoManualPromotion Initial
      (initial 1 (fun _ => 0) (0 : Fin 3)) :=
    .start ⟨1, fun _ => 0, 0, rfl⟩
  have hreach := execIf_reach hstart hexec
  exact absurd (hclaim s 0 1 pr pr' hreach hpr hpr' hw hw') (by decide)

end BurrowGate.Ha
