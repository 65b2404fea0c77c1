import BurrowGate.Ha.FenceInversion

/-!
# What a running primary has heard, and how long it stays fenced

Two facts about one process, kept by every event of a run without manual
promotion. A primary that is not quorum-fenced has a majority proof, and each
member behind the proof was heard at most the liveness timeout before it. A
primary elected at `since` is quorum-fenced for at least the liveness timeout.
-/

namespace BurrowGate.Ha

open Lib.Run
open Lib.Quorum

variable {N : Type*} [DecidableEq N] {members : Finset N} {now fresh since : Nat}
  {me : N} {t : HaTables N} {pr pr' : Process N} {n : Node N} {e : Effect N} {ev : Event N}

/-! ## The replicas a process sees -/

structure Seen (me : N) (pr : Process N) : Prop where
  seen : ∀ u c, pr.nodes u = some c → pr.heard u = some c.lastSeenAt
  other : ∀ u, Knows pr u → u ≠ me

section

omit [DecidableEq N]

theorem Seen.of_subset (h : Seen me pr) (hheard : pr'.heard = pr.heard)
    (hnodes : ∀ u c, pr'.nodes u = some c → pr.nodes u = some c)
    (hknows : ∀ u, Knows pr' u → Knows pr u) : Seen me pr' :=
  ⟨fun u c hc => hheard ▸ h.seen u c (hnodes u c hc), fun u hk => h.other u (hknows u hk)⟩

theorem Steady.knows (hk : Steady pr pr') {u : N} (h : Knows pr' u) : Knows pr u := by
  rcases h with h | ⟨conn, h⟩ | ⟨conn, h⟩ | ⟨epoch, observedAt, conn, h⟩
  · obtain ⟨c, hc⟩ := Option.isSome_iff_exists.mp h
    exact .inl (Option.isSome_iff_exists.mpr ⟨c, hk.nodes u c hc⟩)
  · exact .inr (.inl ⟨conn, hk.replicas _ h⟩)
  · exact .inr (.inr (.inl ⟨conn, hk.tasks _ h rfl⟩))
  · exact .inr (.inr (.inr ⟨epoch, observedAt, conn, hk.tasks _ h rfl⟩))

theorem Seen.steady (h : Seen me pr) (hk : Steady pr pr') : Seen me pr' :=
  h.of_subset hk.heard hk.nodes fun _ => hk.knows

end

theorem Seen.hear (h : Seen me pr) {u : N} {conn : Nat} (hu : u ≠ me) :
    Seen me (hear now pr u conn) := by
  constructor
  · intro w c hc
    by_cases hw : w = u
    · subst hw
      simp only [Ha.hear, Function.update_self, Option.some.injEq] at hc ⊢
      rw [← hc]
    · simp only [Ha.hear, Function.update_of_ne hw] at hc ⊢
      exact h.seen w c hc
  · intro w hk
    by_cases hw : w = u
    · exact hw ▸ hu
    · refine h.other w ?_
      simpa [Knows, Ha.hear, Function.update_of_ne hw] using hk

omit [DecidableEq N] in
/-- Changes of the configuration and the timer, of other tasks, or fewer connected replicas. -/
theorem Seen.narrowed (h : Seen me pr) (hheard : pr'.heard = pr.heard)
    (hnodes : ∀ u c, pr'.nodes u = some c → pr.nodes u = some c)
    (hreplicas : pr'.replicas = pr.replicas) (htasks : pr'.tasks = pr.tasks) : Seen me pr' := by
  refine h.of_subset hheard hnodes ?_
  rintro u (hk | hk)
  · obtain ⟨c, hc⟩ := Option.isSome_iff_exists.mp hk
    exact .inl (Option.isSome_iff_exists.mpr ⟨c, hnodes u c hc⟩)
  · rw [hreplicas, htasks] at hk
    exact .inr hk

theorem fences_seen (h : Seen me pr) (he : e.Fences members now t me pr ev)
    (hp : e.node.process = some pr') : Seen me pr' := by
  cases he with
  | voteRequest =>
      obtain rfl := Option.some.inj hp
      exact h.of_subset rfl (fun _ _ hc => hc) (by simp [Knows, Process.spawn])
  | fenceForTerm =>
      obtain rfl := Option.some.inj hp
      exact h.steady ((Steady.erase _).spawn rfl)
  | tick =>
      revert hp
      unfold tickPrimaryQuorum
      (repeat' split) <;> intro hp <;> obtain rfl := Option.some.inj hp <;>
        exact h.narrowed rfl (fun _ _ hc => hc) rfl rfl
  | countMembers =>
      revert hp
      unfold countedMembers clearQuorumLossIfFenced
      dsimp only
      have hexp (pr : Process N) (u : N) (c : HaClusterNode)
          (hc : (expireStaleReplicaConnections pr now).nodes u = some c) : pr.nodes u = some c :=
        expireStaleReplicaConnections_steady.nodes u c hc
      (repeat' split) <;> intro hp <;> obtain rfl := Option.some.inj hp
      · exact h.narrowed rfl (fun _ _ hc => hc) rfl rfl
      · exact h.narrowed rfl (fun _ _ hc => hc) rfl rfl
      all_goals exact h.narrowed rfl (fun u c hc => hexp _ u c hc) rfl rfl
  | readFence | clearFence | setFence =>
      obtain rfl := Option.some.inj hp
      exact h.narrowed rfl (fun _ _ hc => hc) rfl rfl
  | checkFence =>
      revert hp
      unfold checkedFence clearQuorumLossIfFenced
      (repeat' split) <;> intro hp <;> obtain rfl := Option.some.inj hp <;>
        exact h.narrowed rfl (fun _ _ hc => hc) rfl rfl
  | activate =>
      obtain rfl := Option.some.inj hp
      exact h.narrowed rfl (fun _ _ hc => hc) rfl rfl
  | @openStream conn node _ hnode =>
      obtain rfl := Option.some.inj hp
      refine ⟨h.seen, ?_⟩
      rintro u (hk | ⟨c, hk⟩ | hk)
      · exact h.other u (.inl hk)
      · rcases List.mem_cons.mp hk with heq | hk
        · cases heq; exact hnode
        · exact h.other u (.inr (.inl ⟨c, hk⟩))
      · exact h.other u (.inr (.inr hk))
  | hear _ hknows h₁ h₂ =>
      obtain rfl := Option.some.inj hp
      exact ((h.steady h₁).hear (h.other _ hknows)).steady h₂
  | @fenceAuthority pr₁ task _ node hknows h₁ htask =>
      obtain rfl := Option.some.inj hp
      refine ⟨(h.steady h₁).seen, ?_⟩
      have hold := (h.steady h₁).other
      rintro u (hk | hk | ⟨conn, hk⟩ | ⟨epoch, observedAt, conn, hk⟩)
      · exact hold u (.inl hk)
      · exact hold u (.inr (.inl hk))
      · rcases List.mem_cons.mp hk with heq | hk
        · subst heq
          rcases htask with ⟨_, _, _, heq⟩ | ⟨_, heq⟩ <;> cases heq
          exact h.other _ hknows
        · exact hold u (.inr (.inr (.inl ⟨conn, hk⟩)))
      · rcases List.mem_cons.mp hk with heq | hk
        · subst heq
          rcases htask with ⟨_, _, _, heq⟩ | ⟨_, heq⟩ <;> cases heq
          exact h.other _ hknows
        · exact hold u (.inr (.inr (.inr ⟨epoch, observedAt, conn, hk⟩)))

/-! ## The majority proof -/

/-- The quorum fence may be cleared before the members are counted again. -/
def Tick.isClearing : Tick N → Bool
  | .readFence | .checkFence _ => true
  | _ => false

def HeardMajority (members : Finset N) (me : N) (pr : Process N) : Prop :=
  ∃ S, S ⊆ members ∧ majority members ≤ S.card ∧ ∀ u ∈ S, u = me ∨
    ∃ at_, pr.heard u = some at_ ∧
      pr.ha.lastMajorityConfirmedAt ≤ at_ + HA_REPLICA_LIVENESS_TIMEOUT_MS

structure Confirmed (members : Finset N) (me : N) (now : Nat) (pr : Process N) : Prop where
  confirmed : pr.ha.lastMajorityConfirmedAt ≤ now
  election : pr.ha.role = .primary → pr.ha.electionInProgress = false
  majority : pr.ha.role = .primary → pr.ha.authorityFence = none →
    pr.ha.quorumFenced = false ∨ pr.tick.isClearing = true →
      pr.ha.quorumTrackingActive = true ∧ HeardMajority members me pr

section

omit [DecidableEq N]

theorem Tick.isFence_of_isClearing {tick : Tick N} (h : tick.isClearing = true) :
    tick.isFence = true := by
  cases tick <;> first | rfl | cases h

theorem HeardMajority.of_eq (h : HeardMajority members me pr) (hheard : pr'.heard = pr.heard)
    (hconf : pr'.ha.lastMajorityConfirmedAt = pr.ha.lastMajorityConfirmedAt) :
    HeardMajority members me pr' := by
  unfold HeardMajority
  rw [hheard, hconf]
  exact h

theorem Confirmed.steady (h : Confirmed members me now pr) (hk : Steady pr pr') :
    Confirmed members me now pr' := by
  constructor
  · rw [hk.confirmed]; exact h.confirmed
  · intro hr
    by_contra he
    have hold := hk.election hr (by simpa using he)
    rw [h.election (hk.role hr)] at hold
    cases hold
  · intro hr ha hq
    have hold : pr.ha.quorumFenced = false ∨ pr.tick.isClearing = true := by
      rcases hq with hq | hq
      · exact .inl (hk.quorumFenced hr hq)
      · exact .inr (hk.tick (Tick.isFence_of_isClearing hq) ▸ hq)
    obtain ⟨htrack, hmaj⟩ := h.majority (hk.role hr) (hk.authorityFence hr ha) hold
    exact ⟨hk.tracking.trans htrack, hmaj.of_eq hk.heard hk.confirmed⟩

end

/-- Hearing a replica again only makes the proof younger. -/
theorem Confirmed.hear (h : Confirmed members me now pr) (u : N) (conn : Nat) :
    Confirmed members me now (hear now pr u conn) := by
  refine ⟨h.confirmed, h.election, fun hr ha hq => ?_⟩
  obtain ⟨htrack, S, hS, hcard, hheard⟩ := h.majority hr ha hq
  refine ⟨htrack, S, hS, hcard, fun w hw => ?_⟩
  rcases hheard w hw with rfl | ⟨at_, hat, hle⟩
  · exact .inl rfl
  · right
    by_cases hwu : w = u
    · refine ⟨now, by simp [Ha.hear, hwu], ?_⟩
      have := h.confirmed
      change pr.ha.lastMajorityConfirmedAt ≤ _
      omega
    · exact ⟨at_, by simpa [Ha.hear, Function.update_of_ne hwu] using hat, hle⟩

/-- The members a primary counts are itself and those it heard within the timeout. -/
theorem heardMajority_of_connected (hme : me ∈ members) (hs : Seen me pr)
    (hcard : majority members ≤
      1 + (connectedReplicas members (expireStaleReplicaConnections pr now)).card)
    (hheard : pr'.heard = pr.heard) (hconf : pr'.ha.lastMajorityConfirmedAt = now) :
    HeardMajority members me pr' := by
  set P := connectedReplicas members (expireStaleReplicaConnections pr now) with hP
  have hmem : ∀ u ∈ P, u ∈ members ∧ ∃ c, pr.nodes u = some c ∧
      now - c.lastSeenAt ≤ HA_REPLICA_LIVENESS_TIMEOUT_MS := by
    intro u hu
    obtain ⟨hu, hsome⟩ := Finset.mem_filter.mp hu
    obtain ⟨c, hc⟩ := Option.isSome_iff_exists.mp hsome
    obtain ⟨hc, hle⟩ := Option.filter_eq_some_iff.mp hc
    exact ⟨hu, c, hc, by simpa using hle⟩
  have hnot : me ∉ P := by
    intro hin
    obtain ⟨-, c, hc, -⟩ := hmem me hin
    exact hs.other me (.inl (by simp [hc])) rfl
  refine ⟨insert me P, ?_, ?_, ?_⟩
  · intro u hu
    rcases Finset.mem_insert.mp hu with rfl | hu
    · exact hme
    · exact (hmem u hu).1
  · rw [Finset.card_insert_of_notMem hnot]
    omega
  · intro u hu
    rcases Finset.mem_insert.mp hu with rfl | hu
    · exact .inl rfl
    · obtain ⟨-, c, hc, hle⟩ := hmem u hu
      refine .inr ⟨c.lastSeenAt, by rw [hheard]; exact hs.seen u c hc, ?_⟩
      omega

theorem countedMembers_confirmed (hcard : HA_AUTO_FAILOVER_MIN_MEMBERS ≤ members.card)
    (hme : me ∈ members) (hs : Seen me pr) (h : Confirmed members me now pr)
    (hp : (countedMembers members now t pr).node.process = some pr') :
    Confirmed members me now pr' := by
  set pr₁ := expireStaleReplicaConnections (pr.withHa (startTracking now pr.ha)) now with hpr₁
  have hconf : pr₁.ha.lastMajorityConfirmedAt ≤ now := by
    simp only [hpr₁, expireStaleReplicaConnections, Process.withHa, startTracking]
    split
    · exact h.confirmed
    · exact le_rfl
  revert hp
  unfold countedMembers
  rw [if_neg (by omega)]
  dsimp only
  rw [← hpr₁]
  split
  · rename_i hmaj
    intro hp
    obtain rfl := Option.some.inj hp
    have hs₁ : Seen me (pr.withHa (startTracking now pr.ha)) :=
      hs.narrowed rfl (fun _ _ hc => hc) rfl rfl
    exact ⟨le_rfl, h.election, fun _ _ _ =>
      ⟨rfl, heardMajority_of_connected hme hs₁ hmaj rfl rfl⟩⟩
  · -- no majority: an unfenced primary keeps the proof it has
    have hkeep (tick : Tick N) (htick : tick.isClearing = false) :
        Confirmed members me now (withTick pr₁ tick) := by
      refine ⟨hconf, h.election, fun hr ha hq => ⟨rfl, ?_⟩⟩
      rcases hq with hq | hq
      · obtain ⟨htrack, hmaj⟩ := h.majority hr ha (.inl hq)
        refine hmaj.of_eq rfl ?_
        simp [withTick, hpr₁, expireStaleReplicaConnections, Process.withHa, startTracking, htrack]
      · change tick.isClearing = true at hq
        rw [htick] at hq
        cases hq
    (repeat' split) <;> intro hp <;> obtain rfl := Option.some.inj hp
    · exact hkeep _ rfl
    · exact hkeep _ rfl
    · refine ⟨hconf, h.election, fun _ _ hq => ?_⟩
      rcases hq with hq | hq <;> cases hq

theorem fences_confirmed (hcard : HA_AUTO_FAILOVER_MIN_MEMBERS ≤ members.card)
    (hme : me ∈ members) (hpromotion : pr.ha.fencedForPromotion = false) (hs : Seen me pr)
    (h : Confirmed members me now pr) (he : e.Fences members now t me pr ev)
    (hp : e.node.process = some pr') : Confirmed members me now pr' := by
  cases he with
  | voteRequest =>
      obtain rfl := Option.some.inj hp
      refine ⟨h.confirmed, h.election, fun hr ha hq => ?_⟩
      rcases hq with hq | hq
      · cases hq
      · exact h.majority hr ha (.inr hq)
  | fenceForTerm =>
      obtain rfl := Option.some.inj hp
      exact h.steady ((Steady.erase _).spawn rfl)
  | tick htick =>
      revert hp
      unfold tickPrimaryQuorum
      split
      · rename_i hauth
        intro hp
        obtain rfl := Option.some.inj hp
        refine ⟨h.confirmed, h.election, fun _ ha _ => ?_⟩
        change pr.ha.authorityFence = none at ha
        rw [ha] at hauth
        cases hauth
      · split
        · rename_i hbusy
          intro hp
          obtain rfl := Option.some.inj hp
          refine ⟨h.confirmed, h.election, fun hr _ _ => ?_⟩
          rw [hpromotion, h.election hr] at hbusy
          cases hbusy
        · intro hp
          obtain rfl := Option.some.inj hp
          refine ⟨h.confirmed, h.election, fun hr ha hq => ?_⟩
          rcases hq with hq | hq
          · obtain ⟨htrack, hmaj⟩ := h.majority hr ha (.inl hq)
            exact ⟨htrack, hmaj⟩
          · cases hq
  | countMembers => exact countedMembers_confirmed hcard hme hs h hp
  | readFence _ htick =>
      obtain rfl := Option.some.inj hp
      refine ⟨h.confirmed, h.election, fun hr ha _ => ?_⟩
      obtain ⟨htrack, hmaj⟩ := h.majority hr ha (.inr (by rw [htick]; rfl))
      exact ⟨htrack, hmaj⟩
  | checkFence htick =>
      have hmaj := fun hr ha => h.majority hr ha (.inr (by rw [htick]; rfl))
      revert hp
      unfold checkedFence clearQuorumLossIfFenced
      (repeat' split) <;> intro hp <;> obtain rfl := Option.some.inj hp <;>
        exact ⟨h.confirmed, h.election, fun hr ha _ => hmaj hr ha⟩
  | clearFence | setFence =>
      obtain rfl := Option.some.inj hp
      exact h.steady (Steady.refl.withTick rfl)
  | activate =>
      obtain rfl := Option.some.inj hp
      exact h.steady (Steady.refl.withTick rfl)
  | openStream =>
      obtain rfl := Option.some.inj hp
      exact ⟨h.confirmed, h.election, h.majority⟩
  | hear _ _ h₁ h₂ =>
      obtain rfl := Option.some.inj hp
      exact ((h.steady h₁).hear _ _).steady h₂
  | fenceAuthority _ h₁ =>
      obtain rfl := Option.some.inj hp
      exact ⟨(h.steady h₁).confirmed, (h.steady h₁).election, (h.steady h₁).majority⟩

/-! ## The fence of an elected primary -/

/-- A durable fence of a primary elected at `since`: set no earlier, or cleared once the
liveness timeout has passed. -/
def FenceHolds (since now : Nat) : Option Nat → Prop
  | some fencedAt => since ≤ fencedAt
  | none => since + HA_REPLICA_LIVENESS_TIMEOUT_MS ≤ now

structure Fenced (since now : Nat) (row : HaClusterConfigRow N) (pr : Process N) : Prop where
  row : row.role = .primary → FenceHolds since now row.quorumFencedAt
  cleared : pr.ha.quorumFenced = false → since + HA_REPLICA_LIVENESS_TIMEOUT_MS ≤ now
  checkFence : ∀ fencedAt, pr.tick = .checkFence fencedAt → FenceHolds since now fencedAt
  clearFence : pr.tick = .clearFence → since + HA_REPLICA_LIVENESS_TIMEOUT_MS ≤ now
  setFence : ∀ fencedAt, pr.tick = .setFence fencedAt → since ≤ fencedAt
  fenceForTerm : ∀ term fencedAt c, .fenceForTerm term fencedAt c ∈ pr.tasks → since ≤ fencedAt

theorem FenceHolds.later {now' : Nat} (hle : now ≤ now') {fencedAt : Option Nat}
    (h : FenceHolds since now fencedAt) : FenceHolds since now' fencedAt := by
  cases fencedAt with
  | none => exact le_trans h hle
  | some f => exact h

section

omit [DecidableEq N]

theorem Fenced.later {now' : Nat} {row : HaClusterConfigRow N} (hle : now ≤ now')
    (h : Fenced since now row pr) : Fenced since now' row pr :=
  ⟨fun hr => (h.row hr).later hle, fun hq => (h.cleared hq).trans hle,
    fun f hf => (h.checkFence f hf).later hle, fun hc => (h.clearFence hc).trans hle,
    h.setFence, h.fenceForTerm⟩

theorem Fenced.steady {row row' : HaClusterConfigRow N} (h : Fenced since now row pr)
    (hk : Steady pr pr') (hprimary : pr'.ha.role = .primary)
    (hrow : row'.role = .primary → row.role = .primary ∧
      row'.quorumFencedAt = row.quorumFencedAt) : Fenced since now row' pr' where
  row hr := by
    obtain ⟨hr, heq⟩ := hrow hr
    rw [heq]
    exact h.row hr
  cleared hq := h.cleared (hk.quorumFenced hprimary hq)
  checkFence f hf := h.checkFence f (hk.tick (by rw [hf]; rfl) ▸ hf)
  clearFence hf := h.clearFence (hk.tick (by rw [hf]; rfl) ▸ hf)
  setFence f hf := h.setFence f (hk.tick (by rw [hf]; rfl) ▸ hf)
  fenceForTerm term f c hm := h.fenceForTerm term f c (hk.tasks _ hm rfl)

/-- With enough members, counting them clears no fence and writes no row. -/
theorem countedMembers_fenced {row : HaClusterConfigRow N}
    (hcard : HA_AUTO_FAILOVER_MIN_MEMBERS ≤ members.card) (hsince : since ≤ now)
    (h : Fenced since now row pr)
    (hp : (countedMembers members now t pr).node.process = some pr') :
    Fenced since now row pr' := by
  revert hp
  unfold countedMembers
  rw [if_neg (by omega)]
  dsimp only
  have hidle (pr' : Process N) (hq : pr'.ha.quorumFenced = pr.ha.quorumFenced)
      (htasks : pr'.tasks = pr.tasks) (htick : pr'.tick.isFence = true → pr'.tick = .readFence) :
      Fenced since now row pr' := by
    refine ⟨h.row, fun hf => h.cleared (hq ▸ hf), ?_, ?_, ?_, by rw [htasks]; exact h.fenceForTerm⟩
    · intro f hf; rw [htick (by rw [hf]; rfl)] at hf; cases hf
    · intro hf; rw [htick (by rw [hf]; rfl)] at hf; cases hf
    · intro f hf; rw [htick (by rw [hf]; rfl)] at hf; cases hf
  split
  · intro hp
    obtain rfl := Option.some.inj hp
    refine hidle _ rfl rfl ?_
    simp only [withTick]
    split
    · exact fun _ => rfl
    · intro hf; cases hf
  · (repeat' split) <;> intro hp <;> obtain rfl := Option.some.inj hp
    · exact hidle _ rfl rfl fun hf => by cases hf
    · exact hidle _ rfl rfl fun hf => by cases hf
    · refine ⟨h.row, by simp, by simp, by simp, ?_, h.fenceForTerm⟩
      rintro f hf
      cases hf
      exact hsince

end

theorem fences_fenced (hcard : HA_AUTO_FAILOVER_MIN_MEMBERS ≤ members.card)
    (hsince : since ≤ now) (hcampaign : pr.tick.isCampaign = false)
    (hread : pr.tick = .readFence → (∃ peers, ev = .resumeTick peers) →
      t.config.role = .primary)
    (h : Fenced since now t.config pr) (he : e.Fences members now t me pr ev)
    (hprimary : pr'.ha.role = .primary) (hp : e.node.process = some pr') :
    Fenced since now e.node.tables.config pr' := by
  cases he with
  | voteRequest =>
      obtain rfl := Option.some.inj hp
      refine ⟨h.row, by simp [Process.spawn], h.checkFence, h.clearFence, h.setFence, ?_⟩
      intro term f c hm
      rcases List.mem_cons.mp hm with heq | hm
      · cases heq; exact hsince
      · exact h.fenceForTerm term f c hm
  | @fenceForTerm i term fencedAt c htask =>
      obtain rfl := Option.some.inj hp
      have hf := h.fenceForTerm _ _ _ (List.mem_of_getElem? htask)
      have hk : Steady pr (({ pr with tasks := pr.tasks.eraseIdx i }).spawn
          (.fencedForTerm term c (fenceHaPrimaryForElectionTerm t term fencedAt).2)) :=
        (Steady.erase i).spawn rfl
      refine { h.steady hk hprimary fun hr => ⟨hr, rfl⟩ with row := ?_ }
      change (fenceHaPrimaryForElectionTerm t term fencedAt).1.config.role = .primary →
        FenceHolds since now (fenceHaPrimaryForElectionTerm t term fencedAt).1.config.quorumFencedAt
      unfold fenceHaPrimaryForElectionTerm
      split
      · rename_i hr
        intro _
        dsimp only
        split
        · exact h.row hr
        · exact hf
      · exact h.row
  | tick htick =>
      revert hp
      unfold tickPrimaryQuorum
      (repeat' split) <;> intro hp <;> obtain rfl := Option.some.inj hp
      all_goals
        exact ⟨h.row, h.cleared, by simp [withTick, htick], by simp [withTick, htick],
          by simp [withTick, htick], h.fenceForTerm⟩
  | countMembers =>
      have hrow : (countedMembers members now t pr).node.tables = t := by
        unfold countedMembers
        rw [if_neg (by omega)]
        dsimp only
        (repeat' split) <;> rfl
      rw [hrow]
      exact countedMembers_fenced hcard hsince h hp
  | readFence hev htick =>
      obtain rfl := Option.some.inj hp
      refine ⟨h.row, h.cleared, ?_, by simp [withTick], by simp [withTick], h.fenceForTerm⟩
      intro f hf
      cases hf
      exact h.row (hread htick ⟨_, hev⟩)
  | @checkFence fencedAt htick =>
      have hold := h.checkFence _ htick
      revert hp
      unfold checkedFence clearQuorumLossIfFenced
      split
      · intro hp
        obtain rfl := Option.some.inj hp
        exact h.steady (Steady.refl.withTick rfl) hprimary fun hr => ⟨hr, rfl⟩
      · rename_i hexpired
        -- the fence checked is absent or older than the timeout
        have hpassed : since + HA_REPLICA_LIVENESS_TIMEOUT_MS ≤ now := by
          cases fencedAt with
          | none => exact hold
          | some f =>
              have hle : since ≤ f := hold
              simp only [Option.any_some, decide_eq_true_eq, not_lt] at hexpired
              have hpos : 0 < HA_REPLICA_LIVENESS_TIMEOUT_MS := by decide
              omega
        split <;> intro hp <;> obtain rfl := Option.some.inj hp
        · exact ⟨h.row, fun _ => hpassed, by simp, fun _ => hpassed, by simp, h.fenceForTerm⟩
        · exact h.steady (Steady.refl.withTick rfl) hprimary fun hr => ⟨hr, rfl⟩
  | clearFence htick =>
      obtain rfl := Option.some.inj hp
      exact { h.steady (Steady.refl.withTick rfl) hprimary fun hr => ⟨hr, rfl⟩ with
        row := fun _ => h.clearFence htick }
  | setFence htick =>
      obtain rfl := Option.some.inj hp
      exact { h.steady (Steady.refl.withTick rfl) hprimary fun hr => ⟨hr, rfl⟩ with
        row := fun _ => h.setFence _ htick }
  | activate htick => rw [htick] at hcampaign; cases hcampaign
  | openStream =>
      obtain rfl := Option.some.inj hp
      exact ⟨h.row, h.cleared, h.checkFence, h.clearFence, h.setFence, h.fenceForTerm⟩
  | @hear pr₁ _ node conn _ _ _ h₁ h₂ =>
      obtain rfl := Option.some.inj hp
      have hf := h.steady h₁ (h₂.role hprimary) fun hr => ⟨hr, rfl⟩
      have hheard : Fenced since now t.config (Ha.hear now pr₁ node conn) :=
        ⟨hf.row, hf.cleared, hf.checkFence, hf.clearFence, hf.setFence, hf.fenceForTerm⟩
      exact hheard.steady h₂ hprimary fun hr => ⟨hr, rfl⟩
  | fenceAuthority _ h₁ htask hrow =>
      obtain rfl := Option.some.inj hp
      refine { h.steady h₁ hprimary (row_same hrow) with fenceForTerm := ?_ }
      intro term f c hm
      rcases List.mem_cons.mp hm with heq | hm
      · rcases htask with ⟨_, _, _, rfl⟩ | ⟨_, rfl⟩ <;> cases heq
      · exact h.fenceForTerm term f c (h₁.tasks _ hm rfl)

/-! ## Going on as a primary -/

/-- A primary afterwards was one before, no less fenced, and has newly heard at most the
node whose message it handled. -/
structure Continues (ev : Event N) (pr pr' : Process N) : Prop where
  role : pr'.ha.role = .primary → pr.ha.role = .primary
  authorityFence : pr'.ha.role = .primary → pr'.ha.authorityFence = none →
    pr.ha.authorityFence = none
  heard : ∀ u at_, pr'.heard u = some at_ → pr.heard u = some at_ ∨ hearsFrom pr ev = some u

omit [DecidableEq N] in
theorem Steady.continues (hk : Steady pr pr') : Continues ev pr pr' :=
  ⟨hk.role, hk.authorityFence, fun _ _ hu => .inl (hk.heard ▸ hu)⟩

theorem fences_continues (he : e.Fences members now t me pr ev)
    (hp : e.node.process = some pr') : Continues ev pr pr' := by
  have hsame (hrole : pr'.ha.role = pr.ha.role)
      (hauth : pr'.ha.authorityFence = pr.ha.authorityFence) (hheard : pr'.heard = pr.heard) :
      Continues ev pr pr' :=
    ⟨fun hr => hrole ▸ hr, fun _ ha => hauth ▸ ha, fun _ _ hu => .inl (hheard ▸ hu)⟩
  cases he with
  | @hear _ _ node _ _ hev _ h₁ h₂ =>
      obtain rfl := Option.some.inj hp
      refine ⟨fun hr => h₁.role (h₂.role hr),
        fun hr ha => h₁.authorityFence (h₂.role hr) (h₂.authorityFence hr ha), ?_⟩
      intro u at_ hu
      rw [h₂.heard] at hu
      by_cases heq : u = node
      · exact .inr (heq ▸ hev)
      · simp only [hear, Function.update_of_ne heq] at hu
        exact .inl (h₁.heard ▸ hu)
  | fenceAuthority _ h₁ =>
      obtain rfl := Option.some.inj hp
      exact ⟨h₁.role, h₁.authorityFence, fun _ _ hu => .inl (h₁.heard ▸ hu)⟩
  | voteRequest | fenceForTerm | readFence | clearFence | setFence | activate | openStream =>
      obtain rfl := Option.some.inj hp
      exact hsame rfl rfl rfl
  | tick | countMembers | checkFence =>
      revert hp
      simp only [tickPrimaryQuorum, countedMembers, checkedFence, clearQuorumLossIfFenced]
      (repeat' split) <;> intro hp <;> obtain rfl := Option.some.inj hp <;>
        exact hsame rfl rfl rfl

end BurrowGate.Ha
