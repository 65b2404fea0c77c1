import BurrowGate.CrowdSec.DecisionStore
import Mathlib.Data.List.Nodup

/-!
# Held decisions and the cells that keep them

`held` is the list of the decisions accepted and not yet deleted by id. A cell is
in order when it keeps every unexpired held decision of its location and shows
one that none of the parked unexpired ones is stronger than.
-/

namespace BurrowGate.CrowdSec

/-! ## One cell -/

theorem foldl_outranks_spec (ps : List CrowdSecDecision) (first : CrowdSecDecision) :
    let best := ps.foldl (fun best candidate =>
      if outranks candidate best then candidate else best) first
    best ∈ first :: ps ∧ ∀ p ∈ first :: ps, stronger p best = false := by
  induction ps generalizing first with
  | nil => simp [stronger_self]
  | cons p ps ih =>
      rw [List.foldl_cons]
      dsimp only
      by_cases ho : outranks p first = true
      · rw [if_pos ho]
        obtain ⟨hmem, hbest⟩ := ih p
        refine ⟨List.mem_cons_of_mem _ hmem, fun q hq => ?_⟩
        rcases List.mem_cons.mp hq with rfl | hq
        · exact not_stronger_trans (not_stronger_of_outranks ho) (hbest p List.mem_cons_self)
        · exact hbest q hq
      · rw [if_neg ho]
        obtain ⟨hmem, hbest⟩ := ih first
        have hfirst := hbest first List.mem_cons_self
        refine ⟨?_, fun q hq => ?_⟩
        · rcases List.mem_cons.mp hmem with heq | hin
          · exact List.mem_cons.mpr (.inl heq)
          · exact List.mem_cons_of_mem _ (List.mem_cons_of_mem _ hin)
        · rcases List.mem_cons.mp hq with rfl | hq
          · exact hfirst
          · rcases List.mem_cons.mp hq with rfl | hq
            · exact not_stronger_trans
                (not_stronger_of_not_outranks (Bool.eq_false_iff.mpr ho)) hfirst
            · exact hbest q (List.mem_cons_of_mem _ hq)

theorem strongest_spec {ps : List CrowdSecDecision} {best : CrowdSecDecision}
    (h : strongest ps = some best) : best ∈ ps ∧ ∀ p ∈ ps, stronger p best = false := by
  cases ps with
  | nil => cases h
  | cons first rest =>
      obtain rfl := Option.some.inj h
      obtain ⟨hmem, hbest⟩ := foldl_outranks_spec (first :: rest) first
      refine ⟨?_, fun p hp => hbest p (List.mem_cons_of_mem _ hp)⟩
      rcases List.mem_cons.mp hmem with heq | hin
      · exact List.mem_cons.mpr (.inl heq)
      · exact hin

theorem strongest_eq_none {ps : List CrowdSecDecision} (h : strongest ps = none) : ps = [] := by
  cases ps with
  | nil => rfl
  | cons first rest => cases h

variable {now now' : ℚ} {held : List CrowdSecDecision} {c : Cell} {d : CrowdSecDecision}

theorem Cell.mem_all {d : CrowdSecDecision} :
    d ∈ c.all ↔ c.visible = some d ∨ d ∈ c.parked := by
  simp [Cell.all]

/-- An id occurs once, and nothing waits behind an empty place. -/
structure Cell.Tidy (c : Cell) : Prop where
  ids : (c.all.map (·.id)).Nodup
  hidden : c.visible = none → c.parked = []

theorem Cell.Tidy.parked_ids (h : c.Tidy) : (c.parked.map (·.id)).Nodup := by
  have hids := h.ids
  unfold Cell.all at hids
  rw [List.map_append] at hids
  exact (List.nodup_append.mp hids).2.1

/-- The visible decision is not among the parked ones. -/
theorem Cell.Tidy.parked_id_ne (h : c.Tidy) {v p : CrowdSecDecision}
    (hv : c.visible = some v) (hp : p ∈ c.parked) : p.id ≠ v.id := by
  have hids := h.ids
  unfold Cell.all at hids
  rw [hv, Option.toList_some, List.singleton_append, List.map_cons, List.nodup_cons] at hids
  intro heq
  exact hids.1 (heq ▸ List.mem_map_of_mem hp)

theorem nodup_ids_filter {ps : List CrowdSecDecision} (h : (ps.map (·.id)).Nodup)
    (keep : CrowdSecDecision → Bool) : ((ps.filter keep).map (·.id)).Nodup :=
  h.sublist (List.filter_sublist.map _)

theorem nodup_ids_cons {ps : List CrowdSecDecision} (h : (ps.map (·.id)).Nodup)
    (hne : ∀ p ∈ ps, p.id ≠ d.id) : ((d :: ps).map (·.id)).Nodup := by
  rw [List.map_cons, List.nodup_cons]
  refine ⟨fun hmem => ?_, h⟩
  obtain ⟨p, hp, heq⟩ := List.mem_map.mp hmem
  exact hne p hp heq

theorem nodup_ids_append {ps : List CrowdSecDecision} (h : (ps.map (·.id)).Nodup)
    (hne : ∀ p ∈ ps, p.id ≠ d.id) : ((ps ++ [d]).map (·.id)).Nodup := by
  have hperm : (ps ++ [d]).Perm (d :: ps) := List.perm_append_comm
  exact (hperm.map _).nodup_iff.mpr (nodup_ids_cons h hne)

/-- The held decisions after `d` is accepted: it replaces the one with its id. -/
def accept (held : List CrowdSecDecision) (d : CrowdSecDecision) : List CrowdSecDecision :=
  held.filter (·.id ≠ d.id) ++ [d]

theorem mem_accept {e : CrowdSecDecision} :
    e ∈ accept held d ↔ (e ∈ held ∧ e.id ≠ d.id) ∨ e = d := by
  simp [accept]

theorem nodup_accept (h : (held.map (·.id)).Nodup) : ((accept held d).map (·.id)).Nodup := by
  refine nodup_ids_append (nodup_ids_filter h _) fun p hp => ?_
  simpa using (List.mem_filter.mp hp).2

theorem Cell.Tidy.insert_perm (h : c.Tidy) (d : CrowdSecDecision) :
    (c.insert d).all.Perm (accept c.all d) := by
  unfold Cell.insert accept
  cases hv : c.visible with
  | none =>
      have hparked := h.hidden hv
      have hall : c.all = [] := by simp [Cell.all, hv, hparked]
      rw [hall]
      simp [Cell.all, hparked]
  | some existing =>
      have hall : c.all = existing :: c.parked := by simp [Cell.all, hv]
      dsimp only
      rw [hall]
      by_cases hid : existing.id = d.id
      · have hparked : c.parked.filter (·.id ≠ d.id) = c.parked :=
          List.filter_eq_self.mpr fun p hp =>
            decide_eq_true (hid ▸ h.parked_id_ne hv hp)
        rw [if_pos hid, List.filter_cons_of_neg (by simpa using hid), hparked]
        exact (List.perm_append_singleton d c.parked).symm
      · rw [if_neg hid, List.filter_cons_of_pos (by simpa using hid)]
        by_cases ho : outranks d existing = true
        · rw [if_pos ho]
          refine ((List.perm_append_singleton existing _).cons d).trans ?_
          exact (List.perm_append_singleton d _).symm
        · rw [if_neg ho]
          exact List.Perm.refl _

theorem Cell.Tidy.insert (h : c.Tidy) (d : CrowdSecDecision) : (c.insert d).Tidy where
  ids := ((h.insert_perm d).map _).nodup_iff.mpr (nodup_accept h.ids)
  hidden hnone := by
    unfold Cell.insert at hnone
    cases hv : c.visible with
    | none =>
        rw [hv] at hnone
        cases hnone
    | some existing =>
        rw [hv] at hnone
        dsimp only at hnone
        split at hnone
        · cases hnone
        · split at hnone
          · cases hnone
          · cases hnone

theorem Cell.Tidy.remove_perm (h : c.Tidy) (id : Int) :
    (c.remove id).all.Perm (c.all.filter (·.id ≠ id)) := by
  unfold Cell.remove
  by_cases hvis : c.visible.any (·.id = id) = true
  · rw [if_pos hvis]
    obtain ⟨v, hv, hid⟩ := (Option.any_eq_true _ _).mp hvis
    replace hid : v.id = id := of_decide_eq_true hid
    have hall : c.all = v :: c.parked := by simp [Cell.all, hv]
    have hparked : c.parked.filter (·.id ≠ id) = c.parked :=
      List.filter_eq_self.mpr fun p hp => decide_eq_true (hid ▸ h.parked_id_ne hv hp)
    rw [hall, List.filter_cons_of_neg (by simpa using hid), hparked]
    cases hs : strongest c.parked with
    | none =>
        rw [strongest_eq_none hs]
        simp [Cell.all]
    | some best =>
        have hbest := (strongest_spec hs).1
        have hrest : ∀ p ∈ c.parked.filter (·.id ≠ best.id), p.id ≠ best.id := by
          intro p hp
          simpa using (List.mem_filter.mp hp).2
        have hids := nodup_ids_cons (nodup_ids_filter h.parked_ids _) hrest
        refine (List.perm_ext_iff_of_nodup hids.of_map h.parked_ids.of_map).mpr fun e => ?_
        rw [List.mem_cons]
        constructor
        · rintro (rfl | hin)
          · exact hbest
          · exact List.mem_of_mem_filter hin
        · intro hin
          by_cases hb : e.id = best.id
          · exact .inl (List.inj_on_of_nodup_map h.parked_ids hin hbest hb)
          · exact .inr (List.mem_filter.mpr ⟨hin, decide_eq_true hb⟩)
  · rw [if_neg hvis]
    have hvisible : c.visible.toList.filter (·.id ≠ id) = c.visible.toList := by
      refine List.filter_eq_self.mpr fun v hv => decide_eq_true fun hid => hvis ?_
      rw [Option.mem_toList.mp hv]
      simpa using hid
    unfold Cell.all
    rw [List.filter_append, hvisible]

theorem Cell.Tidy.remove (h : c.Tidy) (id : Int) : (c.remove id).Tidy where
  ids := ((h.remove_perm id).map _).nodup_iff.mpr (nodup_ids_filter h.ids _)
  hidden hnone := by
    unfold Cell.remove at hnone ⊢
    split at hnone
    · rename_i hvis
      rw [if_pos hvis]
      cases hs : strongest c.parked with
      | none => exact strongest_eq_none hs
      | some best =>
          rw [hs] at hnone
          cases hnone
    · rename_i hvis
      rw [if_neg hvis]
      show c.parked.filter (·.id ≠ id) = []
      rw [h.hidden hnone]
      rfl

structure Cell.Holds (now : ℚ) (held : List CrowdSecDecision) (c : Cell) : Prop where
  sub : ∀ d ∈ c.all, d ∈ held
  keep : ∀ d ∈ held, lapsed now d = false → d ∈ c.all
  ids : (c.all.map (·.id)).Nodup
  hidden : c.visible = none → c.parked = []
  top : ∀ v, c.visible = some v → ∀ p ∈ c.parked, lapsed now p = false → stronger p v = false

/-- A new version of the visible decision is shown whatever waits behind it. -/
def Cell.updateRanked (now : ℚ) (c : Cell) (d : CrowdSecDecision) : Bool :=
  !c.visible.any (·.id = d.id) || c.parked.all fun p => lapsed now p || !stronger p d

theorem Cell.Holds.tidy (h : c.Holds now held) : c.Tidy := ⟨h.ids, h.hidden⟩

theorem Cell.Holds.mono (h : c.Holds now held) (hle : now ≤ now') : c.Holds now' held where
  sub := h.sub
  keep d hd hl := h.keep d hd (lapsed_mono hle hl)
  ids := h.ids
  hidden := h.hidden
  top v hv p hp hl := h.top v hv p hp (lapsed_mono hle hl)

/-- Whatever is shown after an insertion, no unexpired parked decision is stronger. -/
theorem Cell.Holds.insert_top (h : c.Holds now held) (hr : c.updateRanked now d = true)
    {v : CrowdSecDecision} (hvis : (c.insert d).visible = some v) {p : CrowdSecDecision}
    (hp : p ∈ (c.insert d).parked) (hl : lapsed now p = false) : stronger p v = false := by
  unfold Cell.insert at hvis hp
  cases hv : c.visible with
  | none =>
      rw [hv] at hp
      replace hp : p ∈ c.parked := hp
      rw [h.hidden hv] at hp
      cases hp
  | some existing =>
      rw [hv] at hvis hp
      dsimp only at hvis hp
      by_cases hid : existing.id = d.id
      · rw [if_pos hid] at hvis hp
        obtain rfl := Option.some.inj hvis
        unfold Cell.updateRanked at hr
        rw [hv, Option.any_some, decide_eq_true hid, Bool.not_true, Bool.false_or,
          List.all_eq_true] at hr
        simpa [hl] using hr p hp
      · rw [if_neg hid] at hvis hp
        by_cases ho : outranks d existing = true
        · rw [if_pos ho] at hvis hp
          obtain rfl := Option.some.inj hvis
          rcases List.mem_snoc.mp hp with hp | rfl
          · have hle := h.top existing hv p (List.mem_of_mem_filter hp) hl
            exact not_stronger_trans hle (not_stronger_of_outranks ho)
          · exact not_stronger_of_outranks ho
        · rw [if_neg ho] at hvis hp
          obtain rfl := Option.some.inj hvis
          rcases List.mem_snoc.mp hp with hp | rfl
          · exact h.top _ hv p (List.mem_of_mem_filter hp) hl
          · exact not_stronger_of_not_outranks (Bool.eq_false_iff.mpr ho)

theorem Cell.Holds.insert (h : c.Holds now held) (hr : c.updateRanked now d = true) :
    (c.insert d).Holds now (accept held d) := by
  have hperm := h.tidy.insert_perm d
  have htidy := h.tidy.insert d
  refine ⟨fun e he => ?_, fun e he hl => ?_, htidy.ids, htidy.hidden,
    fun v hv p hp hl => h.insert_top hr hv hp hl⟩
  · refine mem_accept.mpr ?_
    rcases mem_accept.mp (hperm.mem_iff.mp he) with ⟨hin, hne⟩ | rfl
    · exact .inl ⟨h.sub e hin, hne⟩
    · exact .inr rfl
  · refine hperm.mem_iff.mpr (mem_accept.mpr ?_)
    rcases mem_accept.mp he with ⟨hin, hne⟩ | rfl
    · exact .inl ⟨h.keep e hin hl, hne⟩
    · exact .inr rfl

theorem Cell.Holds.remove (h : c.Holds now held) (id : Int) :
    (c.remove id).Holds now (held.filter (·.id ≠ id)) := by
  have hperm := h.tidy.remove_perm id
  have htidy := h.tidy.remove id
  have hkept : ∀ {e : CrowdSecDecision} {l : List CrowdSecDecision},
      e ∈ l.filter (·.id ≠ id) ↔ e ∈ l ∧ e.id ≠ id := by
    intro e l
    rw [List.mem_filter, decide_eq_true_eq]
  refine ⟨fun e he => ?_, fun e he hl => ?_, htidy.ids, htidy.hidden, fun v hv p hp hl => ?_⟩
  · obtain ⟨hin, hne⟩ := hkept.mp (hperm.mem_iff.mp he)
    exact hkept.mpr ⟨h.sub e hin, hne⟩
  · obtain ⟨hin, hne⟩ := hkept.mp he
    exact hperm.mem_iff.mpr (hkept.mpr ⟨h.keep e hin hl, hne⟩)
  · unfold Cell.remove at hv hp
    split at hv
    · rename_i hvis
      rw [if_pos hvis] at hp
      cases hs : strongest c.parked with
      | none =>
          rw [hs] at hv
          cases hv
      | some best =>
          rw [hs] at hv hp
          obtain rfl := Option.some.inj hv
          exact (strongest_spec hs).2 p (List.mem_of_mem_filter hp)
    · rename_i hvis
      rw [if_neg hvis] at hp
      exact h.top v hv p (List.mem_of_mem_filter hp) hl

/-- Dropping a lapsed decision forgets no unexpired one. -/
theorem Cell.Holds.remove_lapsed (h : c.Holds now held) (hids : (held.map (·.id)).Nodup)
    (hd : d ∈ held) (hl : lapsed now d = true) : (c.remove d.id).Holds now held := by
  have hr := h.remove d.id
  refine ⟨fun e he => (List.mem_filter.mp (hr.sub e he)).1, fun e he hle => ?_, hr.ids,
    hr.hidden, hr.top⟩
  refine hr.keep e (List.mem_filter.mpr ⟨he, ?_⟩) hle
  rw [decide_eq_true_eq]
  intro heq
  obtain rfl : e = d := List.inj_on_of_nodup_map hids he hd heq
  rw [hl] at hle
  cases hle

/-! ## The store -/

section Store

variable (toUpperCase : List Char → List Char)

def located (d : CrowdSecDecision) : Bool := (locate toUpperCase d.scope d.value).isSome

def heldAt (held : List CrowdSecDecision) (l : Location) : List CrowdSecDecision :=
  held.filter fun d => locate toUpperCase d.scope d.value = some l

/-- `home` is the scope and the value an id always comes with. -/
structure Sound (home : Int → Option Scope × List Char) (s : CrowdSecDecisionStore) (now : ℚ)
    (held : List CrowdSecDecision) : Prop where
  ids : (held.map (·.id)).Nodup
  home : ∀ d ∈ held, (some d.scope, d.value) = home d.id
  valued : ∀ d ∈ held, d.value ≠ []
  cells : ∀ l, (cell s l).Holds now (heldAt toUpperCase held l)

def updateRanked (s : CrowdSecDecisionStore) (now : ℚ) (d : CrowdSecDecision) : Bool :=
  (locate toUpperCase d.scope d.value).all fun l => (cell s l).updateRanked now d

def updatesRanked (now : ℚ) : CrowdSecDecisionStore → List CrowdSecDecision → Bool
  | _, [] => true
  | s, d :: ds =>
      updateRanked toUpperCase s now d && updatesRanked now (insert toUpperCase s d) ds

/-- The held decisions after a list is inserted; what has no location is not accepted. -/
def acceptAll (held ds : List CrowdSecDecision) : List CrowdSecDecision :=
  (ds.filter (located toUpperCase)).foldl accept held

end Store

section Sound

variable {toUpperCase : List Char → List Char} {home : Int → Option Scope × List Char}
  {s : CrowdSecDecisionStore} {l : Location}

theorem mem_heldAt : d ∈ heldAt toUpperCase held l ↔
    d ∈ held ∧ locate toUpperCase d.scope d.value = some l := by
  simp [heldAt, List.mem_filter]

theorem Sound.mono (h : Sound toUpperCase home s now held) (hle : now ≤ now') :
    Sound toUpperCase home s now' held where
  ids := h.ids
  home := h.home
  valued := h.valued
  cells l := (h.cells l).mono hle

theorem Sound.clear : Sound toUpperCase home .clear now [] where
  ids := List.nodup_nil
  home d hd := by cases hd
  valued d hd := by cases hd
  cells l := by
    refine ⟨?_, ?_, ?_, ?_, ?_⟩ <;> simp [Cell.all, heldAt]

/-- Two decisions with one id have one location. -/
theorem locate_eq_of_home {d e : CrowdSecDecision} (hd : (some d.scope, d.value) = home d.id)
    (he : (some e.scope, e.value) = home e.id) (hid : e.id = d.id) :
    locate toUpperCase e.scope e.value = locate toUpperCase d.scope d.value := by
  have heq : (some e.scope, e.value) = (some d.scope, d.value) := by
    rw [he, hd, hid]
  obtain ⟨hscope, hvalue⟩ := Prod.mk.inj heq
  rw [Option.some.inj hscope, hvalue]

theorem Sound.insert (h : Sound toUpperCase home s now held)
    (hd : (some d.scope, d.value) = home d.id) (hval : d.value ≠ [])
    (hl : located toUpperCase d = true) (hr : updateRanked toUpperCase s now d = true) :
    Sound toUpperCase home (insert toUpperCase s d) now (accept held d) where
  ids := nodup_accept h.ids
  home e he := by
    rcases mem_accept.mp he with ⟨hin, -⟩ | rfl
    · exact h.home e hin
    · exact hd
  valued e he := by
    rcases mem_accept.mp he with ⟨hin, -⟩ | rfl
    · exact h.valued e hin
    · exact hval
  cells l := by
    obtain ⟨l', hl'⟩ := Option.isSome_iff_exists.mp hl
    rw [cell_insert s hl' l]
    unfold updateRanked at hr
    rw [hl', Option.all_some] at hr
    by_cases heq : l = l'
    · subst heq
      rw [if_pos rfl]
      have hheld : heldAt toUpperCase (accept held d) l = accept (heldAt toUpperCase held l) d := by
        unfold heldAt accept
        rw [List.filter_append, List.filter_filter, List.filter_filter]
        simp [hl', Bool.and_comm]
      rw [hheld]
      exact (h.cells l).insert hr
    · rw [if_neg heq]
      have hheld : heldAt toUpperCase (accept held d) l = heldAt toUpperCase held l := by
        unfold heldAt accept
        rw [List.filter_append, List.filter_filter]
        have hnone : List.filter (fun e => decide (locate toUpperCase e.scope e.value = some l)) [d]
            = [] := by
          simp [hl', Ne.symm heq]
        rw [hnone, List.append_nil]
        refine List.filter_congr fun e he => ?_
        by_cases hid : e.id = d.id
        · have hloc : locate toUpperCase e.scope e.value = locate toUpperCase d.scope d.value :=
            locate_eq_of_home hd (h.home e he) hid
          simp [hloc, hl', Ne.symm heq]
        · simp [hid]
      rw [hheld]
      exact h.cells l

theorem Sound.insertAll {ds : List CrowdSecDecision} (h : Sound toUpperCase home s now held)
    (hd : ∀ d ∈ ds, (some d.scope, d.value) = home d.id ∧ d.value ≠ [])
    (hr : updatesRanked toUpperCase now s ds = true) :
    Sound toUpperCase home (insertAll toUpperCase s ds) now (acceptAll toUpperCase held ds) := by
  induction ds generalizing s held with
  | nil => exact h
  | cons d ds ih =>
      rw [updatesRanked, Bool.and_eq_true] at hr
      obtain ⟨hhome, hval⟩ := hd d List.mem_cons_self
      have hrest : ∀ e ∈ ds, (some e.scope, e.value) = home e.id ∧ e.value ≠ [] := fun e he =>
        hd e (List.mem_cons_of_mem _ he)
      unfold acceptAll
      rw [CrowdSec.insertAll, List.foldl_cons, ← CrowdSec.insertAll, List.filter_cons]
      by_cases hl : located toUpperCase d = true
      · rw [if_pos hl, List.foldl_cons]
        exact ih (h.insert hhome hval hl hr.1) hrest hr.2
      · rw [if_neg hl]
        have hnone : locate toUpperCase d.scope d.value = none := by simpa [located] using hl
        rw [insert_of_locate_none s hnone] at hr ⊢
        exact ih h hrest hr.2

/-- Deleting by id, at the scope and value the id always comes with. -/
theorem Sound.remove {scope : Scope} {value : List Char} {id : Int}
    (h : Sound toUpperCase home s now held) (hd : (some scope, value) = home id) :
    Sound toUpperCase home (remove toUpperCase s scope value id) now
      (held.filter (·.id ≠ id)) where
  ids := nodup_ids_filter h.ids _
  home e he := h.home e (List.mem_filter.mp he).1
  valued e he := h.valued e (List.mem_filter.mp he).1
  cells l := by
    have hcomm : heldAt toUpperCase (held.filter (·.id ≠ id)) l =
        (heldAt toUpperCase held l).filter (·.id ≠ id) := by
      unfold heldAt
      rw [List.filter_filter, List.filter_filter]
      simp only [Bool.and_comm]
    have hother : locate toUpperCase scope value ≠ some l →
        heldAt toUpperCase (held.filter (·.id ≠ id)) l = heldAt toUpperCase held l := by
      intro hne
      rw [hcomm, List.filter_eq_self]
      intro e he
      obtain ⟨hin, hloc⟩ := mem_heldAt.mp he
      rw [decide_eq_true_eq]
      intro hid
      have heq : (some e.scope, e.value) = (some scope, value) := by
        rw [h.home e hin, hd, hid]
      obtain ⟨hscope, hvalue⟩ := Prod.mk.inj heq
      rw [Option.some.inj hscope, hvalue] at hloc
      exact hne hloc
    cases hl : locate toUpperCase scope value with
    | none =>
        rw [remove_of_locate_none s hl, hother (by simp [hl])]
        exact h.cells l
    | some l' =>
        rw [cell_remove s hl l]
        by_cases heq : l = l'
        · subst heq
          rw [if_pos rfl, hcomm]
          exact (h.cells l).remove id
        · rw [if_neg heq, hother (by simp [hl, Ne.symm heq])]
          exact h.cells l

/-- Dropping a lapsed held decision leaves every cell in order. -/
theorem Sound.remove_lapsed (h : Sound toUpperCase home s now held) (hd : d ∈ held)
    (hl : lapsed now d = true) :
    Sound toUpperCase home (CrowdSec.remove toUpperCase s d.scope d.value d.id) now held where
  ids := h.ids
  home := h.home
  valued := h.valued
  cells l := by
    cases hloc : locate toUpperCase d.scope d.value with
    | none =>
        rw [remove_of_locate_none s hloc]
        exact h.cells l
    | some l' =>
        rw [cell_remove s hloc l]
        by_cases heq : l = l'
        · subst heq
          rw [if_pos rfl]
          exact (h.cells l).remove_lapsed (nodup_ids_filter h.ids _)
            (mem_heldAt.mpr ⟨hd, hloc⟩) hl
        · rw [if_neg heq]
          exact h.cells l

theorem mem_cell_of_mem_allDecisions (hd : d ∈ allDecisions s) : ∃ l, d ∈ (cell s l).all := by
  rcases List.mem_append.mp hd with hvis | hpark
  · obtain ⟨entry, hentry, rfl⟩ := List.mem_map.mp hvis
    refine ⟨entry.1, Cell.mem_all.mpr (.inl ?_)⟩
    exact AList.mem_lookup_iff.mpr hentry
  · obtain ⟨ps, hps, hin⟩ := List.mem_flatten.mp hpark
    obtain ⟨entry, hentry, rfl⟩ := List.mem_map.mp hps
    refine ⟨entry.1, Cell.mem_all.mpr (.inr ?_)⟩
    have hlookup : s.shadowed.lookup entry.1 = some entry.2 := AList.mem_lookup_iff.mpr hentry
    show d ∈ (s.shadowed.lookup entry.1).getD []
    rw [hlookup]
    exact hin

theorem Sound.mem_held (h : Sound toUpperCase home s now held) {l : Location}
    (hd : d ∈ (cell s l).all) :
    d ∈ held ∧ locate toUpperCase d.scope d.value = some l :=
  mem_heldAt.mp ((h.cells l).sub d hd)

theorem Sound.sweepExpired (h : Sound toUpperCase home s now held) :
    Sound toUpperCase home (sweepExpired toUpperCase s now) now held := by
  have hexpired : ∀ d ∈ (allDecisions s).filter (lapsed now), d ∈ held ∧ lapsed now d = true := by
    intro d hd
    obtain ⟨hin, hl⟩ := List.mem_filter.mp hd
    obtain ⟨l, hcell⟩ := mem_cell_of_mem_allDecisions hin
    exact ⟨(h.mem_held hcell).1, hl⟩
  unfold CrowdSec.sweepExpired
  generalize (allDecisions s).filter (lapsed now) = expired at hexpired
  induction expired generalizing s with
  | nil => exact h
  | cons d ds ih =>
      obtain ⟨hin, hl⟩ := hexpired d List.mem_cons_self
      rw [List.foldl_cons]
      exact ih (h.remove_lapsed hin hl) fun e he => hexpired e (List.mem_cons_of_mem _ he)

end Sound

end BurrowGate.CrowdSec
