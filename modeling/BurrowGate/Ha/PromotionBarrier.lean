import BurrowGate.Ha.WriteBarrier
import Mathlib.Data.List.Perm.Basic

/-!
# The promotion barrier over whole runs

`activeWrites` counts the outermost writes in progress, and a lease is active as
long as its outermost write is. Where `endPromotion` is only called when no
`beginPromotion` waits, a fence once raised stays up until the promotion it was
raised for has been told, so nothing is admitted behind a drained barrier.
-/

namespace BurrowGate.Ha

open Lib.Run


variable {N : Type*} {s s' : HaPrimaryWriteBarrier N}

/-! ## Counting -/

/-- Every outermost write in progress holds an active lease of its own, and is counted. -/
structure Leased (leases : List Bool) (activeWrites : Int) (writes : List PrimaryWrite) : Prop where
  count : activeWrites = writes.countP (·.outermost)
  active : ∀ l, leases[l]? = some true ↔ ∃ w ∈ writes, w.outermost = true ∧ w.lease = l
  distinct : ((writes.filter (·.outermost)).map (·.lease)).Nodup

variable {leases : List Bool} {activeWrites : Int} {writes writes' : List PrimaryWrite}

theorem Leased.perm (h : Leased leases activeWrites writes) (hp : writes.Perm writes') :
    Leased leases activeWrites writes' := by
  refine ⟨?_, fun l => ?_, ?_⟩
  · rw [h.count, hp.countP_eq]
  · rw [h.active l]
    simp only [hp.mem_iff]
  · exact ((hp.filter _).map _).nodup_iff.mp h.distinct

theorem Leased.nested (h : Leased leases activeWrites writes) (l : Nat) :
    Leased leases activeWrites ({ lease := l, outermost := false } :: writes) := by
  refine ⟨?_, fun l => ?_, ?_⟩
  · rw [h.count, List.countP_cons_of_neg (by simp)]
  · rw [h.active l]
    simp
  · rw [List.filter_cons_of_neg (by simp)]
    exact h.distinct

theorem Leased.of_nested {w : PrimaryWrite} (hw : w.outermost = false)
    (h : Leased leases activeWrites (w :: writes)) : Leased leases activeWrites writes := by
  refine ⟨?_, fun l => ?_, ?_⟩
  · rw [h.count, List.countP_cons_of_neg (by simp [hw])]
  · rw [h.active l]
    simp [hw]
  · have hd := h.distinct
    rw [List.filter_cons_of_neg (by simp [hw])] at hd
    exact hd

theorem Leased.outermost (h : Leased leases activeWrites writes) :
    Leased (leases ++ [true]) (activeWrites + 1)
      ({ lease := leases.length, outermost := true } :: writes) := by
  have hlt {l : Nat} (hl : leases[l]? = some true) : l < leases.length :=
    (List.getElem?_eq_some_iff.mp hl).1
  refine ⟨?_, fun l => ?_, ?_⟩
  · rw [h.count, List.countP_cons_of_pos rfl]
    push_cast
    rfl
  · rw [List.getElem?_append]
    split
    · rename_i hl
      rw [h.active l]
      have hne : leases.length ≠ l := by omega
      simp [hne]
    · rename_i hl
      have hnone : ¬ ∃ w ∈ writes, w.outermost = true ∧ w.lease = l := by
        rw [← h.active l]
        exact fun hs => hl (hlt hs)
      by_cases heq : l = leases.length
      · subst heq
        simp
      · have hpos : l - leases.length ≠ 0 := by omega
        simp only [List.mem_cons, exists_eq_or_imp, true_and, hnone, or_false]
        rw [List.getElem?_eq_none (by simp; omega)]
        simp [Ne.symm heq]
  · rw [List.filter_cons_of_pos rfl, List.map_cons, List.nodup_cons]
    refine ⟨?_, h.distinct⟩
    simp only [List.mem_map, List.mem_filter, not_exists, not_and]
    rintro w ⟨hw, hout⟩ heq
    have := hlt ((h.active w.lease).mpr ⟨w, hw, hout, rfl⟩)
    omega

theorem Leased.released {w : PrimaryWrite} (hw : w.outermost = true)
    (h : Leased leases activeWrites (w :: writes)) :
    Leased (leases.set w.lease false) (activeWrites - 1) writes := by
  have hd := h.distinct
  rw [List.filter_cons_of_pos hw, List.map_cons, List.nodup_cons] at hd
  obtain ⟨hother, hdistinct⟩ := hd
  refine ⟨?_, fun l => ?_, hdistinct⟩
  · rw [h.count, List.countP_cons_of_pos hw]
    push_cast
    exact Int.add_sub_cancel _ _
  · rw [List.getElem?_set]
    by_cases heq : w.lease = l
    · subst heq
      have hnone : ¬ ∃ v ∈ writes, v.outermost = true ∧ v.lease = w.lease := by
        rintro ⟨v, hv, hout, hl⟩
        exact hother (List.mem_map.mpr ⟨v, List.mem_filter.mpr ⟨hv, hout⟩, hl⟩)
      simp only [if_true, hnone, iff_false]
      split <;> simp
    · rw [if_neg heq, h.active l]
      simp [heq]

def HaPrimaryWriteBarrier.Leased (s : HaPrimaryWriteBarrier N) : Prop :=
  Ha.Leased s.leases s.activeWrites s.writes

theorem writes_perm {w : PrimaryWrite} {i : Nat} (h : writes[i]? = some w) :
    writes.Perm (w :: writes.eraseIdx i) := by
  have hi := (List.getElem?_eq_some_iff.mp h).1
  have hget := (List.getElem?_eq_some_iff.mp h).2
  have hperm := List.getElem_cons_eraseIdx_perm hi
  rw [hget] at hperm
  exact hperm.symm

theorem barrierStep_leased {act : BarrierAction N} (h : s.Leased) (hs : barrierStep s act = some s') :
    s'.Leased := by
  cases act with
  | advance ms => obtain rfl := Option.some.inj hs; exact h
  | configure ha =>
      simp only [barrierStep] at hs
      split at hs <;> cases hs
      exact h
  | runPrimaryWrite store =>
      simp only [barrierStep] at hs
      split at hs
      · rename_i s₁ hok
        obtain rfl := Option.some.inj hs
        rcases runPrimaryWrite_cases hok with ⟨l, -, rfl⟩ | ⟨-, rfl⟩
        · exact Ha.Leased.nested h l
        · exact Ha.Leased.outermost h
      · obtain rfl := Option.some.inj hs
        exact h
  | operationSettled i =>
      obtain ⟨w, hw, rfl⟩ := Option.map_eq_some_iff.mp hs
      have hperm := Ha.Leased.perm h (writes_perm hw)
      dsimp only
      split
      · rename_i hout
        have hrel := hperm.released hout
        unfold HaPrimaryWriteBarrier.releaseLease
        dsimp only
        split <;> exact hrel
      · rename_i hout
        exact hperm.of_nested (by simpa using hout)
  | beginPromotion =>
      obtain rfl := Option.some.inj hs
      unfold HaPrimaryWriteBarrier.beginPromotion
      cases Ha.beginPromotion s.ha s.now with
      | none => exact h
      | some ha =>
          simp only [Option.map_some, Option.getD_some]
          split <;> exact h
  | drainTimeout id => obtain rfl := Option.some.inj hs; exact h
  | promotionSettled id =>
      simp only [barrierStep, HaPrimaryWriteBarrier.promotionSettled] at hs
      split at hs <;> cases hs <;> exact h
  | endPromotion => obtain rfl := Option.some.inj hs; exact h

theorem constructed_leased (h : Constructed s) : s.Leased := by
  obtain ⟨now, ha, rfl⟩ := h
  exact ⟨by simp [constructed], by simp [constructed], by simp [constructed]⟩

theorem barrier_leased {C : HaPrimaryWriteBarrier N → BarrierAction N → Prop}
    (h : Reach barrierStep C Constructed s) : s.Leased :=
  h.invariant (fun _ hs => constructed_leased hs) fun _ _ _ _ hinv _ hs => barrierStep_leased hinv hs

theorem HaPrimaryWriteBarrier.Leased.outermost_nil (h : s.Leased) (h0 : s.activeWrites = 0) :
    ∀ w ∈ s.writes, w.outermost = false := by
  intro w hw
  have hcount : s.writes.countP (·.outermost) = 0 := by
    have := h.count
    omega
  simpa using List.countP_eq_zero.mp hcount w hw

/-! ## The fence -/

/-- `endPromotion` is called only when no `beginPromotion` waits. -/
def EndsAfterDrain (s : HaPrimaryWriteBarrier N) : BarrierAction N → Prop
  | .endPromotion => s.promotions = []
  | _ => True

/-- Besides, an outermost write settles only after the writes that inherited its lease. -/
def JoinsNested (s : HaPrimaryWriteBarrier N) : BarrierAction N → Prop
  | .operationSettled i =>
      ∀ w ∈ s.writes[i]?, w.outermost = true → ∀ v ∈ s.writes.eraseIdx i, v.lease ≠ w.lease
  | act => EndsAfterDrain s act

instance (s : HaPrimaryWriteBarrier N) : ∀ act, Decidable (JoinsNested s act)
  | .operationSettled _ => inferInstanceAs (Decidable (∀ w ∈ _, _ → _))
  | .endPromotion => inferInstanceAs (Decidable (s.promotions = []))
  | .advance _ | .configure _ | .runPrimaryWrite _ | .beginPromotion | .drainTimeout _
  | .promotionSettled _ => inferInstanceAs (Decidable True)

theorem JoinsNested.endsAfterDrain {act : BarrierAction N} (h : JoinsNested s act) :
    EndsAfterDrain s act := by
  cases act with
  | operationSettled i => trivial
  | _ => exact h

/-- Nothing fences the barrier for a promotion, and no `beginPromotion` waits. -/
structure HaPrimaryWriteBarrier.Open (s : HaPrimaryWriteBarrier N) : Prop where
  fence : s.ha.fencedForPromotion = false
  promotions : s.promotions = []
  drainWaiters : s.drainWaiters = []
  promoted : s.promoted = false

/-- What the barrier knows of the one `beginPromotion` that waits. -/
structure Draining (s : HaPrimaryWriteBarrier N) (id : Nat) (p : DrainPromise) : Prop where
  promotions : s.promotions = [(id, p)]
  fence : s.ha.fencedForPromotion = true
  promoted : s.promoted = false
  waiters : ∀ w ∈ s.drainWaiters, w = id
  pending : p = .pending → id ∈ s.drainWaiters
  resolved : p = .resolved → s.activeWrites = 0

structure Fencing (s : HaPrimaryWriteBarrier N) : Prop where
  promotions : (s.promotions = [] ∧ s.drainWaiters = []) ∨ ∃ id p, Draining s id p
  promoted : s.promoted = true → s.ha.fencedForPromotion = true ∧ s.activeWrites = 0

theorem constructed_fencing (h : Constructed s) : Fencing s := by
  obtain ⟨now, ha, rfl⟩ := h
  exact ⟨.inl ⟨rfl, rfl⟩, fun hp => by cases hp⟩

/-- While nothing is fenced no `beginPromotion` waits. -/
theorem Fencing.open (h : Fencing s) (hf : s.ha.fencedForPromotion = false) : s.Open := by
  have hpromoted : s.promoted = false := by
    cases hp : s.promoted with
    | false => rfl
    | true =>
        have hup := (h.promoted hp).1
        rw [hf] at hup
        cases hup
  rcases h.promotions with ⟨hnone, hwaiters⟩ | ⟨id, p, hd⟩
  · exact ⟨hf, hnone, hwaiters, hpromoted⟩
  · have hup := hd.fence
    rw [hf] at hup
    cases hup

theorem runPrimaryWrite_fencing {store : Option Nat} (h : Fencing s)
    (hs : s.runPrimaryWrite store = .ok s') : Fencing s' := by
  rcases runPrimaryWrite_cases hs with ⟨l, -, rfl⟩ | ⟨hf, rfl⟩
  · refine ⟨?_, h.promoted⟩
    rcases h.promotions with hnone | ⟨id, p, hd⟩
    · exact .inl hnone
    · exact .inr ⟨id, p, { hd with }⟩
  · have hopen := h.open hf
    refine ⟨.inl ⟨hopen.promotions, hopen.drainWaiters⟩, fun hp => ?_⟩
    have hnot := hopen.promoted
    rw [hp] at hnot
    cases hnot

/-- The drain resolves the promise that waits, and only when nothing is active. -/
theorem resolveDrainWaiters_fencing (h : Fencing s) (h0 : s.activeWrites = 0) :
    Fencing s.resolveDrainWaiters := by
  refine ⟨?_, h.promoted⟩
  rcases h.promotions with ⟨hnone, hwaiters⟩ | ⟨id, p, hd⟩
  · left
    simp [HaPrimaryWriteBarrier.resolveDrainWaiters, hnone]
  · right
    by_cases hid : id ∈ s.drainWaiters
    · refine ⟨id, p.resolve, ?_, hd.fence, hd.promoted, ?_, ?_, fun _ => h0⟩
      · simp [HaPrimaryWriteBarrier.resolveDrainWaiters, hd.promotions, hid]
      · simp [HaPrimaryWriteBarrier.resolveDrainWaiters]
      · intro hp
        cases p <;> cases hp
    · refine ⟨id, p, ?_, hd.fence, hd.promoted, ?_, ?_, hd.resolved⟩
      · simp [HaPrimaryWriteBarrier.resolveDrainWaiters, hd.promotions, hid]
      · simp [HaPrimaryWriteBarrier.resolveDrainWaiters]
      · exact fun hp => absurd (hd.pending hp) hid

theorem releaseLease_fencing {l : Nat} (h : Fencing s) (h0 : s.activeWrites ≠ 0) :
    Fencing (s.releaseLease l) := by
  have hset : Fencing
      { s with leases := s.leases.set l false, activeWrites := s.activeWrites - 1 } := by
    refine ⟨?_, fun hp => absurd (h.promoted hp).2 h0⟩
    rcases h.promotions with hnone | ⟨id, p, hd⟩
    · exact .inl hnone
    · exact .inr ⟨id, p, { hd with resolved := fun hp => absurd (hd.resolved hp) h0 }⟩
  unfold HaPrimaryWriteBarrier.releaseLease
  dsimp only
  split
  · rename_i hzero
    exact resolveDrainWaiters_fencing hset hzero
  · exact hset

theorem beginPromotion_fencing (h : Fencing s) (hs : s.beginPromotion = some s') : Fencing s' := by
  obtain ⟨ha, hbegin, rfl⟩ := Option.map_eq_some_iff.mp hs
  obtain ⟨hf, rfl⟩ := beginPromotion_eq hbegin
  have hopen := h.open hf
  split
  · rename_i h0
    exact ⟨.inl ⟨hopen.promotions, hopen.drainWaiters⟩, fun _ => ⟨rfl, h0⟩⟩
  · refine ⟨.inr ⟨s.promotionsStarted, .pending, ?_, rfl, hopen.promoted, ?_, ?_, ?_⟩, ?_⟩
    · simp [hopen.promotions]
    · simp [hopen.drainWaiters]
    · simp
    · simp
    · intro hp
      have hnot := hopen.promoted
      rw [hp] at hnot
      cases hnot

theorem drainTimeout_fencing (h : Fencing s) (id : Nat) : Fencing (s.drainTimeout id) := by
  refine ⟨?_, h.promoted⟩
  rcases h.promotions with ⟨hnone, hwaiters⟩ | ⟨id', p, hd⟩
  · left
    simp [HaPrimaryWriteBarrier.drainTimeout, hnone, hwaiters]
  · right
    by_cases hid : id' = id
    · subst hid
      refine ⟨id', p.reject, ?_, hd.fence, hd.promoted, hd.waiters, ?_, ?_⟩
      · simp [HaPrimaryWriteBarrier.drainTimeout, hd.promotions]
      · intro hp
        cases p <;> cases hp
      · intro hp
        cases p with
        | resolved => exact hd.resolved rfl
        | _ => cases hp
    · refine ⟨id', p, ?_, hd.fence, hd.promoted, hd.waiters, hd.pending, hd.resolved⟩
      simp [HaPrimaryWriteBarrier.drainTimeout, hd.promotions, hid]

/-- What is left when the one promotion that waited has settled. -/
theorem Draining.done {id : Nat} {p : DrainPromise} (h : Draining s id p) :
    s.promotions.filter (·.1 ≠ id) = [] ∧ s.drainWaiters.filter (· ≠ id) = [] := by
  constructor
  · simp [h.promotions]
  · rw [List.filter_eq_nil_iff]
    intro w hw
    simp [h.waiters w hw]

/-- The promotion that settles is the one that waits. -/
theorem promotionSettled_cases {id : Nat} (h : Fencing s) (hs : s.promotionSettled id = some s') :
    (Draining s id .resolved ∧
      s' = { s with drainWaiters := [], promotions := [], promoted := true }) ∨
    (Draining s id .rejected ∧
      s' = { s with drainWaiters := [], promotions := [], ha := Ha.endPromotion s.ha }) := by
  rcases h.promotions with ⟨hnone, -⟩ | ⟨id', p, hd⟩
  · simp [HaPrimaryWriteBarrier.promotionSettled, hnone] at hs
  · by_cases hid : id' = id
    · subst hid
      obtain ⟨hp, hw⟩ := hd.done
      unfold HaPrimaryWriteBarrier.promotionSettled at hs
      rw [hp, hw, hd.promotions] at hs
      simp only [List.find?_cons, decide_true] at hs
      cases p with
      | pending => cases hs
      | resolved => exact .inl ⟨hd, (Option.some.inj hs).symm⟩
      | rejected => exact .inr ⟨hd, (Option.some.inj hs).symm⟩
    · simp [HaPrimaryWriteBarrier.promotionSettled, hd.promotions, hid] at hs

theorem barrierStep_fencing {act : BarrierAction N} (hl : s.Leased) (h : Fencing s)
    (hc : EndsAfterDrain s act) (hs : barrierStep s act = some s') : Fencing s' := by
  cases act with
  | advance ms =>
      obtain rfl := Option.some.inj hs
      exact ⟨h.promotions.imp_right fun ⟨id, p, hd⟩ => ⟨id, p, { hd with }⟩, h.promoted⟩
  | configure ha =>
      simp only [barrierStep] at hs
      split at hs <;> cases hs
      rename_i hsame
      refine ⟨?_, fun hp => ⟨hsame ▸ (h.promoted hp).1, (h.promoted hp).2⟩⟩
      rcases h.promotions with hnone | ⟨id, p, hd⟩
      · exact .inl hnone
      · exact .inr ⟨id, p, { hd with fence := hsame ▸ hd.fence }⟩
  | runPrimaryWrite store =>
      simp only [barrierStep] at hs
      split at hs
      · rename_i s₁ hok
        obtain rfl := Option.some.inj hs
        exact runPrimaryWrite_fencing h hok
      · obtain rfl := Option.some.inj hs
        exact h
  | operationSettled i =>
      obtain ⟨w, hw, rfl⟩ := Option.map_eq_some_iff.mp hs
      have hrest : Fencing { s with writes := s.writes.eraseIdx i } :=
        ⟨h.promotions.imp_right fun ⟨id, p, hd⟩ => ⟨id, p, { hd with }⟩, h.promoted⟩
      dsimp only
      split
      · rename_i hout
        have hpos : s.activeWrites ≠ 0 := by
          intro h0
          have hnone := hl.outermost_nil h0 w (List.mem_of_getElem? hw)
          rw [hout] at hnone
          cases hnone
        exact releaseLease_fencing hrest hpos
      · exact hrest
  | beginPromotion =>
      obtain rfl := Option.some.inj hs
      cases hb : s.beginPromotion with
      | none => exact h
      | some s₁ => exact beginPromotion_fencing h hb
  | drainTimeout id => obtain rfl := Option.some.inj hs; exact drainTimeout_fencing h id
  | promotionSettled id =>
      rcases promotionSettled_cases h hs with ⟨hd, rfl⟩ | ⟨hd, rfl⟩
      · exact ⟨.inl ⟨rfl, rfl⟩, fun _ => ⟨hd.fence, hd.resolved rfl⟩⟩
      · refine ⟨.inl ⟨rfl, rfl⟩, fun hp => ?_⟩
        have hnot := hd.promoted
        rw [hp] at hnot
        cases hnot
  | endPromotion =>
      obtain rfl := Option.some.inj hs
      change s.promotions = [] at hc
      rcases h.promotions with ⟨hnone, hwaiters⟩ | ⟨id, p, hd⟩
      · exact ⟨.inl ⟨hnone, hwaiters⟩, fun hp => by cases hp⟩
      · rw [hd.promotions] at hc
        cases hc

/-! ## The guarantee -/

/-- What the barrier promises in a state, of every call that may come next. -/
structure PromotionGuarantee (s : HaPrimaryWriteBarrier N) : Prop where
  activeWrites : s.activeWrites = s.writes.countP (·.outermost)
  nonneg : 0 ≤ s.activeWrites
  drained : s.promoted = true → ∀ w ∈ s.writes, w.outermost = false
  closed : s.promoted = true → ∀ store, ∃ f, s.runPrimaryWrite store = .error f
  begins : ∀ s', s.beginPromotion = some s' → s.Open
  timedOut : ∀ id s', s.promotions.find? (·.1 = id) = some (id, .rejected) →
    s.promotionSettled id = some s' →
      s'.Open ∧ s' = { s with ha := Ha.endPromotion s.ha, promotions := [], drainWaiters := [] }
  nested : ∀ w ∈ s.writes, w.outermost = true → s.runPrimaryWrite (some w.lease) =
    .ok { s with writes := { lease := w.lease, outermost := false } :: s.writes }

theorem barrier_fencing (h : Reach barrierStep EndsAfterDrain Constructed s) : Fencing s := by
  have hboth : s.Leased ∧ Fencing s := by
    refine h.invariant (I := fun s => s.Leased ∧ Fencing s)
      (fun s hs => ⟨constructed_leased hs, constructed_fencing hs⟩) ?_
    rintro s act s' - ⟨hl, hf⟩ hc hs
    exact ⟨barrierStep_leased hl hs, barrierStep_fencing hl hf hc hs⟩
  exact hboth.2

/-- Behind a drained barrier no lease is active. -/
theorem no_active_lease (hl : s.Leased) (h0 : s.activeWrites = 0) (store : Option Nat) :
    s.hasActiveLease store = false := by
  cases store with
  | none => rfl
  | some l =>
      simp only [HaPrimaryWriteBarrier.hasActiveLease, Option.any_some, decide_eq_false_iff_not]
      intro hactive
      obtain ⟨w, hw, hout, -⟩ := (hl.active l).mp hactive
      have hnone := hl.outermost_nil h0 w hw
      rw [hout] at hnone
      cases hnone

theorem promotionGuarantee (hl : s.Leased) (hf : Fencing s) : PromotionGuarantee s := by
  refine ⟨hl.count, ?_, ?_, ?_, ?_, ?_, ?_⟩
  · rw [hl.count]
    exact Int.natCast_nonneg _
  · exact fun hp => hl.outermost_nil (hf.promoted hp).2
  · intro hp store
    obtain ⟨hfence, h0⟩ := hf.promoted hp
    exact runPrimaryWrite_fenced hfence (no_active_lease hl h0 store)
  · intro s' hs
    obtain ⟨ha, hbegin, -⟩ := Option.map_eq_some_iff.mp hs
    exact hf.open (beginPromotion_eq hbegin).1
  · intro id s' hrejected hs
    rcases promotionSettled_cases hf hs with ⟨hd, -⟩ | ⟨hd, rfl⟩
    · simp [hd.promotions] at hrejected
    · exact ⟨⟨rfl, rfl, rfl, hd.promoted⟩, rfl⟩
  · intro w hw hout
    exact runPrimaryWrite_inherited ((hl.active w.lease).mpr ⟨w, hw, hout, rfl⟩)

/-- Where nested writes settle first, a write in progress has an active lease. -/
theorem writes_active (h : Reach barrierStep JoinsNested Constructed s) :
    ∀ w ∈ s.writes, s.leases[w.lease]? = some true := by
  refine h.invariant (I := fun s => ∀ w ∈ s.writes, s.leases[w.lease]? = some true) ?_ ?_
  · rintro _ ⟨now, ha, rfl⟩ w hw
    cases hw
  · intro s act s' hr ih hc hs w hw
    have hl := barrier_leased hr
    have hl' := barrierStep_leased hl hs
    cases hout : w.outermost with
    | true => exact (hl'.active w.lease).mpr ⟨w, hw, hout, rfl⟩
    | false =>
        cases act with
        | runPrimaryWrite store =>
            simp only [barrierStep] at hs
            split at hs
            · rename_i s₁ hok
              obtain rfl := Option.some.inj hs
              rcases runPrimaryWrite_cases hok with ⟨l, hactive, rfl⟩ | ⟨-, rfl⟩
              · rcases List.mem_cons.mp hw with rfl | hold
                · exact hactive
                · exact ih w hold
              · rcases List.mem_cons.mp hw with rfl | hold
                · cases hout
                · have hactive := ih w hold
                  have hlt := (List.getElem?_eq_some_iff.mp hactive).1
                  exact (List.getElem?_append_left hlt).trans hactive
            · obtain rfl := Option.some.inj hs
              exact ih w hw
        | operationSettled i =>
            obtain ⟨v, hv, rfl⟩ := Option.map_eq_some_iff.mp hs
            dsimp only at hw ⊢
            split at hw
            · rename_i hvout
              have hrest : w ∈ s.writes.eraseIdx i := by
                unfold HaPrimaryWriteBarrier.releaseLease at hw
                dsimp only at hw
                split at hw <;> exact hw
              have hne : w.lease ≠ v.lease := hc v hv hvout w hrest
              have hactive := ih w (List.mem_of_mem_eraseIdx hrest)
              rw [if_pos hvout]
              unfold HaPrimaryWriteBarrier.releaseLease
              dsimp only
              have hkept : (s.leases.set v.lease false)[w.lease]? = some true := by
                rw [List.getElem?_set_ne hne.symm]
                exact hactive
              split <;> exact hkept
            · rename_i hvout
              rw [if_neg hvout]
              exact ih w (List.mem_of_mem_eraseIdx hw)
        | configure ha =>
            simp only [barrierStep] at hs
            split at hs <;> cases hs
            exact ih w hw
        | beginPromotion =>
            obtain rfl := Option.some.inj hs
            revert hw
            unfold HaPrimaryWriteBarrier.beginPromotion
            cases Ha.beginPromotion s.ha s.now with
            | none => exact ih w
            | some ha =>
                simp only [Option.map_some, Option.getD_some]
                split <;> exact ih w
        | promotionSettled id =>
            simp only [barrierStep, HaPrimaryWriteBarrier.promotionSettled] at hs
            split at hs <;> cases hs <;> exact ih w hw
        | _ =>
            obtain rfl := Option.some.inj hs
            exact ih w hw

/-- In a run that calls `endPromotion` only when no `beginPromotion` waits, the barrier keeps
its promises; where also no write outlives the lease it inherited, nothing at all is in progress
behind a promotion. -/
theorem promotion_barrier :
    (Reach barrierStep EndsAfterDrain Constructed s → PromotionGuarantee s) ∧
      (Reach barrierStep JoinsNested Constructed s →
        PromotionGuarantee s ∧ (s.promoted = true → s.writes = [])) := by
  have hfirst (h : Reach barrierStep EndsAfterDrain Constructed s) : PromotionGuarantee s :=
    promotionGuarantee (barrier_leased h) (barrier_fencing h)
  refine ⟨hfirst, fun h => ?_⟩
  have hg := hfirst (h.mono fun _ _ => JoinsNested.endsAfterDrain)
  refine ⟨hg, fun hp => List.eq_nil_iff_forall_not_mem.mpr fun w hw => ?_⟩
  obtain ⟨v, hv, hout, -⟩ := ((barrier_leased h).active w.lease).mp (writes_active h w hw)
  have hnone := hg.drained hp v hv
  rw [hout] at hnone
  cases hnone

/-! ## Nobody waits for nothing -/

/-- A promise that is pending waits for writes, and the last of them will resolve it. -/
structure HaPrimaryWriteBarrier.Awake (s : HaPrimaryWriteBarrier N) : Prop where
  waiting : ∀ q ∈ s.promotions, q.2 = .pending → q.1 ∈ s.drainWaiters
  busy : s.activeWrites = 0 → ∀ q ∈ s.promotions, q.2 ≠ .pending

theorem resolveDrainWaiters_awake (h : ∀ q ∈ s.promotions, q.2 = .pending → q.1 ∈ s.drainWaiters) :
    s.resolveDrainWaiters.Awake := by
  have hnone : ∀ q ∈ s.resolveDrainWaiters.promotions, q.2 ≠ .pending := by
    intro q hq
    obtain ⟨old, hold, rfl⟩ := List.mem_map.mp hq
    by_cases hid : old.1 ∈ s.drainWaiters
    · rw [if_pos hid]
      cases hp : old.2 <;> simp [DrainPromise.resolve]
    · rw [if_neg hid]
      exact fun hp => hid (h old hold hp)
  exact ⟨fun q hq hp => absurd hp (hnone q hq), fun _ => hnone⟩

theorem barrierStep_awake {act : BarrierAction N} (hl : s.Leased) (h : s.Awake)
    (hs : barrierStep s act = some s') : s'.Awake := by
  cases act with
  | advance ms =>
      obtain rfl := Option.some.inj hs
      exact ⟨h.waiting, h.busy⟩
  | configure ha =>
      simp only [barrierStep] at hs
      split at hs
      · obtain rfl := Option.some.inj hs
        exact ⟨h.waiting, h.busy⟩
      · cases hs
  | runPrimaryWrite store =>
      simp only [barrierStep] at hs
      split at hs
      · rename_i s₁ hok
        obtain rfl := Option.some.inj hs
        rcases runPrimaryWrite_cases hok with ⟨l, -, rfl⟩ | ⟨-, rfl⟩
        · exact ⟨h.waiting, h.busy⟩
        · refine ⟨h.waiting, fun h0 => ?_⟩
          have hcount := hl.count
          dsimp only at h0
          omega
      · obtain rfl := Option.some.inj hs
        exact h
  | operationSettled i =>
      obtain ⟨w, -, rfl⟩ := Option.map_eq_some_iff.mp hs
      dsimp only
      split
      · unfold HaPrimaryWriteBarrier.releaseLease
        dsimp only
        split
        · exact resolveDrainWaiters_awake h.waiting
        · rename_i hbusy
          exact ⟨h.waiting, fun h0 => absurd h0 hbusy⟩
      · exact ⟨h.waiting, h.busy⟩
  | beginPromotion =>
      obtain rfl := Option.some.inj hs
      unfold HaPrimaryWriteBarrier.beginPromotion
      cases Ha.beginPromotion s.ha s.now with
      | none => exact h
      | some ha =>
          rw [Option.map_some, Option.getD_some]
          split
          · exact ⟨h.waiting, h.busy⟩
          · rename_i hbusy
            refine ⟨fun q hq hp => ?_, fun h0 => absurd h0 hbusy⟩
            rcases List.mem_cons.mp hq with rfl | hq
            · exact List.mem_cons_self
            · exact List.mem_cons_of_mem _ (h.waiting q hq hp)
  | drainTimeout id =>
      obtain rfl := Option.some.inj hs
      have hold : ∀ q ∈ (s.drainTimeout id).promotions, q.2 = .pending → q ∈ s.promotions := by
        intro q hq hp
        obtain ⟨old, hold, rfl⟩ := List.mem_map.mp hq
        split at hp
        · cases hkind : old.2 <;> simp [DrainPromise.reject, hkind] at hp
        · rename_i hid
          rw [if_neg hid]
          exact hold
      exact ⟨fun q hq hp => h.waiting q (hold q hq hp) hp,
        fun h0 q hq hp => h.busy h0 q (hold q hq hp) hp⟩
  | promotionSettled id =>
      have hdone : HaPrimaryWriteBarrier.Awake { s with
          drainWaiters := s.drainWaiters.filter (· ≠ id)
          promotions := s.promotions.filter (·.1 ≠ id) } := by
        refine ⟨fun q hq hp => ?_, fun h0 q hq => h.busy h0 q (List.mem_of_mem_filter hq)⟩
        obtain ⟨hmem, hid⟩ := List.mem_filter.mp hq
        exact List.mem_filter.mpr ⟨h.waiting q hmem hp, hid⟩
      simp only [barrierStep, HaPrimaryWriteBarrier.promotionSettled] at hs
      split at hs
      · obtain rfl := Option.some.inj hs
        exact ⟨hdone.waiting, hdone.busy⟩
      · obtain rfl := Option.some.inj hs
        exact ⟨hdone.waiting, hdone.busy⟩
      · cases hs
  | endPromotion =>
      obtain rfl := Option.some.inj hs
      exact ⟨h.waiting, h.busy⟩

/-- Also where `endPromotion` is called too early the counter is that of the outermost writes, a
lease is active as long as its write is in progress, and once none is, no `beginPromotion` is
left waiting for a drain. -/
theorem barrier_wakes (h : Reach barrierStep Any Constructed s) :
    s.activeWrites = s.writes.countP (·.outermost) ∧
    (∀ l, s.leases[l]? = some true ↔ ∃ w ∈ s.writes, w.outermost = true ∧ w.lease = l) ∧
    ((∀ w ∈ s.writes, w.outermost = false) → ∀ q ∈ s.promotions, q.2 ≠ .pending) := by
  have hawake : s.Leased ∧ s.Awake := by
    refine h.invariant (I := fun s => s.Leased ∧ s.Awake) (fun s hs => ?_) ?_
    · refine ⟨constructed_leased hs, ?_⟩
      obtain ⟨now, ha, rfl⟩ := hs
      exact ⟨nofun, fun _ => nofun⟩
    · intro s act s' _ ⟨hl, hawake⟩ _ hs
      exact ⟨barrierStep_leased hl hs, barrierStep_awake hl hawake hs⟩
  obtain ⟨hl, hawake⟩ := hawake
  refine ⟨hl.count, hl.active, fun hnone => hawake.busy ?_⟩
  have hcount := hl.count
  rw [List.countP_eq_zero.mpr fun w hw => by simp [hnone w hw]] at hcount
  exact hcount

/-! ## Runs -/

/-- The configuration of a primary that nothing fences. -/
def unfenced : HaConfig N :=
  { role := .primary
    primaryUrl := none
    epoch := 0
    authorityFence := none
    fencedForPromotion := false
    quorumFenced := false
    lastMajorityConfirmedAt := 0
    quorumTrackingActive := false
    electionInProgress := false }

theorem promotion_barrier_drained : ∃ s : HaPrimaryWriteBarrier Unit,
    Reach barrierStep JoinsNested Constructed s ∧ s.promoted = true ∧ PromotionGuarantee s ∧
      s.writes = [] := by
  have hrun : ((execIf barrierStep JoinsNested (constructed 0 (unfenced : HaConfig Unit))
      [.runPrimaryWrite none, .beginPromotion, .runPrimaryWrite (some 0), .runPrimaryWrite none,
        .operationSettled 0, .operationSettled 0, .promotionSettled 0]).map fun s =>
          s.promoted) = some true := by
    decide
  obtain ⟨s, hexec, hp⟩ := Option.map_eq_some_iff.mp hrun
  have hstart : Reach barrierStep JoinsNested Constructed
      (constructed 0 (unfenced : HaConfig Unit)) := .start ⟨0, unfenced, rfl⟩
  have hreach := execIf_reach hstart hexec
  obtain ⟨-, hnil⟩ := promotion_barrier.2 hreach
  have hguarantee := promotion_barrier.1 (hreach.mono fun _ _ => JoinsNested.endsAfterDrain)
  exact ⟨s, hreach, hp, hguarantee, hnil hp⟩

/-- A write is in progress and a `beginPromotion` waits for it. `endPromotion` is called, as by
an adopted announcement; the write finishes, and the promotion is told that the barrier is
closed. The next write is admitted. -/
theorem promotion_barrier_reopened : ¬ ∀ s : HaPrimaryWriteBarrier Unit,
    Reach barrierStep Any Constructed s → PromotionGuarantee s := by
  intro hclaim
  have hrun : ((exec barrierStep (constructed 0 (unfenced : HaConfig Unit))
      [.runPrimaryWrite none, .beginPromotion, .endPromotion, .operationSettled 0,
        .promotionSettled 0]).map fun s => (s.promoted, (s.runPrimaryWrite none).isOk)) =
      some (true, true) := by
    decide
  obtain ⟨s, hexec, hval⟩ := Option.map_eq_some_iff.mp hrun
  obtain ⟨hp, hok⟩ := Prod.mk.inj hval
  have hstart : Reach barrierStep Any Constructed (constructed 0 (unfenced : HaConfig Unit)) :=
    .start ⟨0, unfenced, rfl⟩
  obtain ⟨f, herror⟩ := (hclaim s (exec_reach hstart hexec)).closed hp none
  rw [herror] at hok
  cases hok

/-- The write settles after `endPromotion`, and the promise is resolved all the same. -/
theorem barrier_wakes_reopened : ∃ s : HaPrimaryWriteBarrier Unit,
    s.promotions = [(0, .resolved)] ∧ s.activeWrites = s.writes.countP (·.outermost) ∧
    (∀ l, s.leases[l]? = some true ↔ ∃ w ∈ s.writes, w.outermost = true ∧ w.lease = l) ∧
    ((∀ w ∈ s.writes, w.outermost = false) → ∀ q ∈ s.promotions, q.2 ≠ .pending) := by
  have hrun : (exec barrierStep (constructed 0 (unfenced : HaConfig Unit))
      [.runPrimaryWrite none, .beginPromotion, .endPromotion, .operationSettled 0]).any (fun s =>
        decide (s.promotions = [(0, .resolved)])) = true := by
    decide
  obtain ⟨s, hs, hpromotions⟩ := (Option.any_eq_true ..).mp hrun
  exact ⟨s, of_decide_eq_true hpromotions, barrier_wakes (exec_reach (.start ⟨0, unfenced, rfl⟩) hs)⟩

end BurrowGate.Ha
