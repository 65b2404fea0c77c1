import BurrowGate.Balancer.Registry
import BurrowGate.Lib.SmoothRoundRobin
import Mathlib.Algebra.BigOperators.Group.Finset.Basic

/-!
# Weighted round robin over whole turns

The stored weights of the candidates are the credits of a smooth weighted round robin that
starts when a refresh of the site has dropped them. The selections of a site are made one
after the other over the same candidates.
-/

namespace BurrowGate.Balancer

open Lib

variable {site : SiteRecord} {lb : LoadBalancer} {all rest : List SiteOriginRecord}
  {weights : OrderedMap (List Char) Int} {v u : SiteOriginRecord → Int}
  {best origin : SiteOriginRecord}

/-- `smoothWeights.get(key) ?? 0` -/
def storedWeight (weights : OrderedMap (List Char) Int) (site : SiteRecord)
    (origin : SiteOriginRecord) : Int :=
  (weights.get? (smoothKey site origin)).getD 0

/-- The first origin of the greatest weight. -/
def heaviest (v : SiteOriginRecord → Int) : SiteOriginRecord → List SiteOriginRecord →
    SiteOriginRecord
  | best, [] => best
  | best, origin :: rest => heaviest v (if v best < v origin then origin else best) rest

theorem heaviest_mem (v : SiteOriginRecord → Int) (best : SiteOriginRecord)
    (rest : List SiteOriginRecord) : heaviest v best rest ∈ best :: rest := by
  induction rest generalizing best with
  | nil => exact List.mem_cons_self
  | cons origin rest ih =>
      rw [heaviest]
      have hmem := ih (if v best < v origin then origin else best)
      rcases List.mem_cons.mp hmem with heq | hrest
      · rw [heq]
        split
        · exact List.mem_cons_of_mem _ List.mem_cons_self
        · exact List.mem_cons_self
      · exact List.mem_cons_of_mem _ (List.mem_cons_of_mem _ hrest)

theorem le_heaviest (v : SiteOriginRecord → Int) (best : SiteOriginRecord)
    (rest : List SiteOriginRecord) :
    ∀ origin ∈ best :: rest, v origin ≤ v (heaviest v best rest) := by
  induction rest generalizing best with
  | nil =>
      intro origin horigin
      rw [List.mem_singleton.mp horigin]
      exact le_refl _
  | cons next rest ih =>
      intro origin horigin
      rw [heaviest]
      rcases List.mem_cons.mp horigin with rfl | hlater
      · by_cases hlt : v origin < v next
        · rw [if_pos hlt]
          exact (le_of_lt hlt).trans (ih next next List.mem_cons_self)
        · rw [if_neg hlt]
          exact ih origin origin List.mem_cons_self
      · rcases List.mem_cons.mp hlater with rfl | hlater
        · by_cases hlt : v best < v origin
          · rw [if_pos hlt]
            exact ih origin origin List.mem_cons_self
          · rw [if_neg hlt]
            exact (not_lt.mp hlt).trans (ih best best List.mem_cons_self)
        · exact ih _ origin (List.mem_cons_of_mem _ hlater)

theorem heaviest_congr (h : ∀ origin ∈ best :: rest, v origin = u origin) :
    heaviest v best rest = heaviest u best rest := by
  induction rest generalizing best with
  | nil => rfl
  | cons next rest ih =>
      rw [heaviest, heaviest, h best List.mem_cons_self,
        h next (List.mem_cons_of_mem _ List.mem_cons_self)]
      apply ih
      intro origin horigin
      rcases List.mem_cons.mp horigin with rfl | horigin
      · split
        · exact h _ (List.mem_cons_of_mem _ List.mem_cons_self)
        · exact h _ List.mem_cons_self
      · exact h origin (List.mem_cons_of_mem _ (List.mem_cons_of_mem _ horigin))

/-! ## One selection -/

theorem smoothKey_inj {first second : SiteOriginRecord} :
    smoothKey site first = smoothKey site second ↔ first.id = second.id := by
  simp [smoothKey]

theorem storedWeight_set (value : Int) :
    storedWeight (weights.set (smoothKey site origin) value) site best =
      if best.id = origin.id then value else storedWeight weights site best := by
  by_cases hid : best.id = origin.id
  · rw [if_pos hid, storedWeight, smoothKey_inj.mpr hid, OrderedMap.get?_set_self,
      Option.getD_some]
  · rw [if_neg hid, storedWeight, OrderedMap.get?_set_ne _ _ (smoothKey_inj.not.mpr hid),
      storedWeight]

/-- The loop finds the heaviest origin and adds every weight up. -/
theorem smoothLoop_eq (best : SiteOriginRecord) (hids : (rest.map (·.id)).Nodup) (total : Int)
    (hv : ∀ origin ∈ rest, storedWeight weights site origin + max 1 origin.weight = v origin) :
    ∃ after, smoothLoop site rest (some (best, v best)) total weights =
        (some (heaviest v best rest, v (heaviest v best rest)),
          total + (rest.map fun origin => max 1 origin.weight).sum, after) ∧
      (∀ origin ∈ rest, storedWeight after site origin = v origin) ∧
        ∀ origin, origin.id ∉ rest.map (·.id) →
          storedWeight after site origin = storedWeight weights site origin := by
  induction rest generalizing best total weights with
  | nil => exact ⟨weights, by simp [smoothLoop, heaviest], by simp, fun _ _ => rfl⟩
  | cons next rest ih =>
      obtain ⟨hnext, hids⟩ := List.nodup_cons.mp hids
      have hcurrent := hv next List.mem_cons_self
      have hv' : ∀ origin ∈ rest,
          storedWeight (weights.set (smoothKey site next) (v next)) site origin +
            max 1 origin.weight = v origin := by
        intro origin horigin
        have hne : origin.id ≠ next.id := by
          rintro heq
          exact hnext (List.mem_map.mpr ⟨origin, horigin, heq⟩)
        rw [storedWeight_set, if_neg hne]
        exact hv origin (List.mem_cons_of_mem _ horigin)
      obtain ⟨after, hloop, hstored, hframe⟩ :=
        @ih (weights.set (smoothKey site next) (v next))
          (if v best < v next then next else best) hids (total + max 1 next.weight) hv'
      refine ⟨after, ?_, ?_, ?_⟩
      · rw [smoothLoop, heaviest, List.map_cons, List.sum_cons, ← add_assoc, ← hloop]
        rw [← storedWeight, hcurrent]
        split <;> rfl
      · intro origin horigin
        rcases List.mem_cons.mp horigin with rfl | horigin
        · rw [hframe _ hnext, storedWeight_set, if_pos rfl]
        · exact hstored origin horigin
      · intro origin horigin
        obtain ⟨hne, hrest⟩ := not_or.mp (List.mem_cons.not.mp horigin)
        rw [hframe origin hrest, storedWeight_set, if_neg hne]

/-- The weight that decides about an origin. -/
def currentWeight (lb : LoadBalancer) (site : SiteRecord) (origin : SiteOriginRecord) : Int :=
  storedWeight lb.smoothWeights site origin + max 1 origin.weight

theorem nextByAlgorithm_weighted (lb : LoadBalancer)
    (halgorithm : algorithmOf site = .weightedRoundRobin)
    (hids : ((best :: rest).map (·.id)).Nodup) :
    ∃ after, nextByAlgorithm lb site (best :: rest) =
        (some (heaviest (currentWeight lb site) best rest), after) ∧
      ∀ origin ∈ best :: rest, storedWeight after.smoothWeights site origin =
        currentWeight lb site origin -
          if origin = heaviest (currentWeight lb site) best rest then
            ((best :: rest).map fun origin => max 1 origin.weight).sum else 0 := by
  obtain ⟨hbest, hrest⟩ := List.nodup_cons.mp hids
  have hv : ∀ origin ∈ rest,
      storedWeight (lb.smoothWeights.set (smoothKey site best) (currentWeight lb site best)) site
        origin + max 1 origin.weight = currentWeight lb site origin := by
    intro origin horigin
    have hne : origin.id ≠ best.id := by
      rintro heq
      exact hbest (List.mem_map.mpr ⟨origin, horigin, heq⟩)
    rw [storedWeight_set, if_neg hne, currentWeight]
  obtain ⟨weights, hloop, hstored, hframe⟩ :=
    smoothLoop_eq best hrest (0 + max 1 best.weight) hv
  have hfirst : smoothLoop site (best :: rest) none 0 lb.smoothWeights =
      (some (heaviest (currentWeight lb site) best rest,
          currentWeight lb site (heaviest (currentWeight lb site) best rest)),
        ((best :: rest).map fun origin => max 1 origin.weight).sum, weights) := by
    rw [List.map_cons, List.sum_cons, ← zero_add (max 1 best.weight), ← hloop, smoothLoop]
    rfl
  have hall : ∀ origin ∈ best :: rest,
      storedWeight weights site origin = currentWeight lb site origin := by
    intro origin horigin
    rcases List.mem_cons.mp horigin with rfl | horigin
    · rw [hframe _ hbest, storedWeight_set, if_pos rfl]
    · exact hstored origin horigin
  have hmem := heaviest_mem (currentWeight lb site) best rest
  rw [nextByAlgorithm, if_neg (by simp), halgorithm, hfirst]
  refine ⟨_, rfl, ?_⟩
  intro origin horigin
  rw [storedWeight_set, ← storedWeight, hall _ hmem]
  by_cases hid : origin.id = (heaviest (currentWeight lb site) best rest).id
  · have heq : origin = heaviest (currentWeight lb site) best rest :=
      List.inj_on_of_nodup_map hids horigin hmem hid
    rw [if_pos hid, if_pos heq, ← heq]
  · have hne : origin ≠ heaviest (currentWeight lb site) best rest := fun heq => hid (heq ▸ rfl)
    rw [if_neg hid, if_neg hne, hall origin horigin, sub_zero]

/-! ## Selections one after the other -/

/-- The origins that `count` selections pick, and the balancer after them. -/
def selections (site : SiteRecord) (candidates : List SiteOriginRecord) : Nat → LoadBalancer →
    List SiteOriginRecord × LoadBalancer
  | 0, lb => ([], lb)
  | count + 1, lb =>
      let (picks, lb) := selections site candidates count lb
      let (selected, lb) := nextByAlgorithm lb site candidates
      (picks ++ selected.toList, lb)

theorem selections_add (candidates : List SiteOriginRecord) (first second : Nat)
    (lb : LoadBalancer) :
    selections site candidates (first + second) lb =
      ((selections site candidates first lb).1 ++
          (selections site candidates second (selections site candidates first lb).2).1,
        (selections site candidates second (selections site candidates first lb).2).2) := by
  induction second with
  | zero => simp [selections]
  | succ second ih =>
      rw [← Nat.add_assoc, selections, ih, selections]
      simp only [List.append_assoc]

theorem storedWeight_registerOrigins (lb : LoadBalancer) (site : SiteRecord)
    (previous rows : List SiteOriginRecord) (origin : SiteOriginRecord) :
    storedWeight (registerOrigins lb site.id previous rows).smoothWeights site origin = 0 := by
  have hstarts : (site.id ++ [':']).isPrefixOf (smoothKey site origin) = true := by
    rw [List.isPrefixOf_iff_prefix]
    exact ⟨origin.id, by simp [smoothKey]⟩
  rw [storedWeight, registerOrigins, forgetWeights, OrderedMap.get?_filter]
  cases lb.smoothWeights.get? (smoothKey site origin) <;> simp [hstarts]

theorem sum_weights_toFinset (hids : (all.map (·.id)).Nodup) (f : SiteOriginRecord → Int) :
    (∑ origin ∈ all.toFinset, f origin) = (all.map f).sum :=
  List.sum_toFinset f hids.of_map

theorem weight_nonneg (hweights : ∀ origin ∈ all, 1 ≤ origin.weight) :
    ∀ origin ∈ all.toFinset, 0 ≤ origin.weight := by
  intro origin horigin
  have hone := hweights origin (List.mem_toFinset.mp horigin)
  omega

theorem total_pos (hweights : ∀ origin ∈ best :: rest, 1 ≤ origin.weight) :
    0 < ∑ origin ∈ (best :: rest).toFinset, origin.weight := by
  apply Finset.sum_pos
  · intro origin horigin
    exact hweights origin (List.mem_toFinset.mp horigin)
  · exact ⟨best, List.mem_toFinset.mpr List.mem_cons_self⟩

section Candidates

variable (halgorithm : algorithmOf site = .weightedRoundRobin)
  (hids : ((best :: rest).map (·.id)).Nodup)
include halgorithm hids

theorem selections_succ (count : Nat) (lb : LoadBalancer) :
    ∃ after, selections site (best :: rest) (count + 1) lb =
        ((selections site (best :: rest) count lb).1 ++
          [heaviest (currentWeight (selections site (best :: rest) count lb).2 site) best rest],
          after) ∧
      ∀ origin ∈ best :: rest, storedWeight after.smoothWeights site origin =
        currentWeight (selections site (best :: rest) count lb).2 site origin -
          if origin = heaviest (currentWeight (selections site (best :: rest) count lb).2 site)
            best rest then ((best :: rest).map fun origin => max 1 origin.weight).sum else 0 := by
  obtain ⟨after, hnext, hstored⟩ := nextByAlgorithm_weighted
    (selections site (best :: rest) count lb).2 halgorithm hids
  refine ⟨after, ?_, hstored⟩
  rw [selections]
  dsimp only
  rw [hnext]
  rfl

theorem length_selections (count : Nat) (lb : LoadBalancer) :
    (selections site (best :: rest) count lb).1.length = count := by
  induction count with
  | zero => rfl
  | succ count ih =>
      obtain ⟨after, hsucc, -⟩ := selections_succ halgorithm hids count lb
      rw [hsucc, List.length_append, ih, List.length_singleton]

/-- Only the stored weights of the candidates matter. -/
theorem selections_congr {first second : LoadBalancer}
    (hagree : ∀ origin ∈ best :: rest, storedWeight first.smoothWeights site origin =
      storedWeight second.smoothWeights site origin) (count : Nat) :
    (selections site (best :: rest) count first).1 =
        (selections site (best :: rest) count second).1 ∧
      ∀ origin ∈ best :: rest,
        storedWeight (selections site (best :: rest) count first).2.smoothWeights site origin =
          storedWeight (selections site (best :: rest) count second).2.smoothWeights site
            origin := by
  induction count with
  | zero => exact ⟨rfl, hagree⟩
  | succ count ih =>
      obtain ⟨hpicks, hstored⟩ := ih
      obtain ⟨after, hfirst, hafter⟩ := selections_succ halgorithm hids count first
      obtain ⟨after', hsecond, hafter'⟩ := selections_succ halgorithm hids count second
      have hcurrent : ∀ origin ∈ best :: rest,
          currentWeight (selections site (best :: rest) count first).2 site origin =
            currentWeight (selections site (best :: rest) count second).2 site origin := by
        intro origin horigin
        rw [currentWeight, currentWeight, hstored origin horigin]
      have hheaviest := heaviest_congr hcurrent
      rw [hfirst, hsecond]
      refine ⟨by rw [hpicks, hheaviest], ?_⟩
      intro origin horigin
      rw [hafter origin horigin, hafter' origin horigin, hcurrent origin horigin, hheaviest]

variable (hweights : ∀ origin ∈ best :: rest, 1 ≤ origin.weight)
include hweights

/-- The selections are a run of the smooth weighted round robin over the candidates. -/
theorem run_selections (count : Nat)
    (hreset : ∀ origin ∈ best :: rest, storedWeight lb.smoothWeights site origin = 0) :
    SmoothRoundRobin.Run (best :: rest).toFinset (·.weight)
      (selections site (best :: rest) count lb).1
      (storedWeight (selections site (best :: rest) count lb).2.smoothWeights site) := by
  have hmax : ∀ origin ∈ best :: rest, max 1 origin.weight = origin.weight := by
    intro origin horigin
    exact max_eq_right (hweights origin horigin)
  induction count with
  | zero =>
      apply SmoothRoundRobin.Run.start
      intro origin horigin
      exact hreset origin (List.mem_toFinset.mp horigin)
  | succ count ih =>
      obtain ⟨after, hsucc, hstored⟩ := selections_succ halgorithm hids count lb
      rw [hsucc]
      apply SmoothRoundRobin.Run.pick ih
      constructor
      · exact List.mem_toFinset.mpr (heaviest_mem _ best rest)
      · intro origin horigin
        have hmem := List.mem_toFinset.mp horigin
        have hle := le_heaviest (currentWeight (selections site (best :: rest) count lb).2 site)
          best rest origin hmem
        rw [currentWeight, currentWeight, hmax origin hmem,
          hmax _ (heaviest_mem _ best rest)] at hle
        exact hle
      · intro origin horigin
        have hmem := List.mem_toFinset.mp horigin
        rw [hstored origin hmem, currentWeight, hmax origin hmem, sum_weights_toFinset hids,
          List.map_congr_left hmax]

variable (hreset : ∀ origin ∈ best :: rest, storedWeight lb.smoothWeights site origin = 0)
include hreset

/-- A turn: as many selections as the sum of the weights, from weights of zero on. -/
theorem turn_selections {turn : Nat} (hturn : (turn : Int) = ((best :: rest).map (·.weight)).sum) :
    ∀ origin ∈ best :: rest,
      ((selections site (best :: rest) turn lb).1.count origin : Int) = origin.weight ∧
        storedWeight (selections site (best :: rest) turn lb).2.smoothWeights site origin = 0 := by
  have hsum := sum_weights_toFinset hids (·.weight)
  have hrun := run_selections halgorithm hids hweights turn hreset
  have hlength : ((selections site (best :: rest) turn lb).1.length : Int) =
      ∑ origin ∈ (best :: rest).toFinset, origin.weight := by
    rw [length_selections halgorithm hids, hsum, hturn]
  intro origin horigin
  exact hrun.block (weight_nonneg hweights) (total_pos hweights) hlength origin
    (List.mem_toFinset.mpr horigin)

/-- After whole turns every stored weight is back at zero. -/
theorem turns_selections {turn : Nat} (hturn : (turn : Int) = ((best :: rest).map (·.weight)).sum)
    (turns : Nat) : ∀ origin ∈ best :: rest,
      storedWeight (selections site (best :: rest) (turns * turn) lb).2.smoothWeights site
        origin = 0 := by
  induction turns with
  | zero =>
      rw [Nat.zero_mul]
      exact hreset
  | succ turns ih =>
      intro origin horigin
      rw [Nat.succ_mul, selections_add]
      exact (turn_selections halgorithm hids hweights ih hturn origin horigin).2

/-- The weights after a turn and some selections are those after the selections alone. -/
theorem storedWeight_add_turn {turn : Nat}
    (hturn : (turn : Int) = ((best :: rest).map (·.weight)).sum) (count : Nat) :
    ∀ origin ∈ best :: rest,
      storedWeight (selections site (best :: rest) (turn + count) lb).2.smoothWeights site origin =
        storedWeight (selections site (best :: rest) count lb).2.smoothWeights site origin := by
  rw [selections_add]
  apply (selections_congr halgorithm hids _ count).2
  intro origin horigin
  rw [hreset origin horigin]
  exact (turn_selections halgorithm hids hweights hreset hturn origin horigin).2

/-- Any `turn` selections in a row pick each candidate as often as its weight says. -/
theorem count_window {turn : Nat} (hturn : (turn : Int) = ((best :: rest).map (·.weight)).sum)
    (count : Nat) : ∀ origin ∈ best :: rest,
      (((selections site (best :: rest) (count + turn) lb).1.drop count).count origin : Int) =
        origin.weight := by
  intro origin horigin
  have hmem := List.mem_toFinset.mpr horigin
  have hbefore := (run_selections halgorithm hids hweights count hreset).credit_eq hmem
  have hafter := (run_selections halgorithm hids hweights (count + turn) hreset).credit_eq hmem
  have hsame := storedWeight_add_turn halgorithm hids hweights hreset hturn count origin horigin
  rw [Nat.add_comm turn count] at hsame
  rw [length_selections halgorithm hids, sum_weights_toFinset hids, ← hturn] at hbefore hafter
  have hsplit := List.take_append_drop count (selections site (best :: rest) (count + turn) lb).1
  have htake : (selections site (best :: rest) (count + turn) lb).1.take count =
      (selections site (best :: rest) count lb).1 := by
    rw [selections_add]
    exact List.take_left' (length_selections halgorithm hids count lb)
  rw [htake] at hsplit
  have hcount := congrArg (List.count origin) hsplit
  rw [List.count_append] at hcount
  have hpos : (0 : Int) < turn := by
    have hsum := sum_weights_toFinset hids (·.weight)
    have hsumpos := total_pos hweights
    omega
  rw [hafter, hbefore, ← hcount] at hsame
  push_cast at hsame
  have hmul : (turn : Int) *
      (((selections site (best :: rest) (count + turn) lb).1.drop count).count origin : Int) =
        turn * origin.weight := by
    linarith
  exact mul_left_cancel₀ (by omega) hmul

end Candidates

/-! ## From a refresh on -/

/-- Each window of as many selections as the weights sum to picks every candidate as often as its
weight says, whole turns leave no weight, and in between the weights sum to zero, stay above
minus the sum, and at most the harmonic number of the candidates less one times the sum. -/
theorem smooth_weighted_round_robin (lb : LoadBalancer) (previous rows : List SiteOriginRecord)
    (halgorithm : algorithmOf site = .weightedRoundRobin) (hids : (all.map (·.id)).Nodup)
    (hweights : ∀ origin ∈ all, 1 ≤ origin.weight) (turn : Nat)
    (hturn : (turn : Int) = (all.map (·.weight)).sum) :
    let start := registerOrigins lb site.id previous rows
    (∀ count, ∀ origin ∈ all,
        (((selections site all (count + turn) start).1.drop count).count origin : Int) =
          origin.weight) ∧
      (∀ turns, ∀ origin ∈ all,
        storedWeight (selections site all (turns * turn) start).2.smoothWeights site origin = 0) ∧
        ∀ count, let weights := (selections site all count start).2.smoothWeights
          (all.map (storedWeight weights site)).sum = 0 ∧
            ∀ origin ∈ all, -(turn : Int) < storedWeight weights site origin ∧
              (storedWeight weights site origin : ℚ) ≤ turn * (harmonic all.length - 1) := by
  intro start
  have hreset : ∀ origin ∈ all, storedWeight start.smoothWeights site origin = 0 := by
    intro origin _
    exact storedWeight_registerOrigins lb site previous rows origin
  cases all with
  | nil => simp
  | cons best rest =>
      refine ⟨?_, ?_, ?_⟩
      · exact count_window halgorithm hids hweights hreset hturn
      · exact turns_selections halgorithm hids hweights hreset hturn
      intro count weights
      have hnonneg := weight_nonneg hweights
      have hrun := run_selections halgorithm hids hweights count hreset
      have hsum := sum_weights_toFinset hids (·.weight)
      rw [← hturn] at hsum
      constructor
      · rw [← sum_weights_toFinset hids]
        exact hrun.sum_credit
      intro origin horigin
      have hmem := List.mem_toFinset.mpr horigin
      have hlower := hrun.neg_total_lt hnonneg (total_pos hweights) origin hmem
      have hupper := hrun.le_harmonic hnonneg hmem
      rw [hsum] at hlower hupper
      rw [List.toFinset_card_of_nodup hids.of_map] at hupper
      exact ⟨hlower, by exact_mod_cast hupper⟩

/-- Weights of 5, 1 and 1. -/
theorem smooth_weighted_round_robin_example :
    let site : SiteRecord := ⟨['s'], some .weightedRoundRobin, none, none⟩
    let origins : List SiteOriginRecord :=
      [⟨['a'], 1, 0, 0, 5, 1, 0⟩, ⟨['b'], 1, 0, 0, 1, 0, 1⟩, ⟨['c'], 1, 0, 0, 1, 0, 2⟩]
    let lb : LoadBalancer := ⟨.empty, .empty, .empty, .empty⟩
    let start := registerOrigins lb site.id [] origins
    ∀ origin ∈ origins,
      (((selections site origins 9 start).1.drop 2).count origin : Int) = origin.weight := by
  intro site origins lb start
  exact (smooth_weighted_round_robin lb [] origins rfl (by decide) (by decide) 7 rfl).1 2

/-- With weights that sum to 25 one stored weight reaches 26. -/
theorem stored_weight_exceeds_sum :
    let site : SiteRecord := ⟨['s'], some .weightedRoundRobin, none, none⟩
    let origins : List SiteOriginRecord :=
      [⟨['a'], 1, 0, 0, 1, 1, 0⟩, ⟨['b'], 1, 0, 0, 1, 0, 1⟩, ⟨['c'], 1, 0, 0, 1, 0, 2⟩,
        ⟨['d'], 1, 0, 0, 11, 0, 3⟩, ⟨['e'], 1, 0, 0, 11, 0, 4⟩]
    let lb : LoadBalancer := ⟨.empty, .empty, .empty, .empty⟩
    let start := registerOrigins lb site.id [] origins
    (origins.map (·.weight)).sum = 25 ∧ ∃ origin ∈ origins,
      storedWeight (selections site origins 16 start).2.smoothWeights site origin = 26 := by
  decide +kernel

end BurrowGate.Balancer
