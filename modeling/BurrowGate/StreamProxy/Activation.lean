import BurrowGate.StreamProxy.Listeners
import Mathlib.Data.List.Nodup

/-!
# One activation

What starting and stopping do to the slot of a protocol and a stream, and what the slots of a
stream hold at each suspension of `applyNow`.
-/

namespace BurrowGate.StreamProxy

variable {d e f : ProxyStore} {p q : StreamProtocol} {id other : Nat} {record : StreamRecord}

/-! ## Slots -/

/-- The entry of a slot is of its open listener, and there is no other unless it is being
opened. -/
structure SlotOk (d : ProxyStore) (p : StreamProtocol) (id : Nat) (opening : Option Listener) :
    Prop where
  entry : ∀ runtime, d.runtimes p id = some runtime → runtime.listener ∈ d.listening ∧
    runtime.listener.protocol = p ∧ runtime.listener.stream = id ∧ runtime.record.id = id
  live : ∀ l ∈ d.listening, l.protocol = p → l.stream = id →
    (∃ runtime, d.runtimes p id = some runtime ∧ runtime.listener = l) ∨ opening = some l
  opening : ∀ l, opening = some l → d.runtimes p id = none ∧ l ∈ d.listening ∧
    l.protocol = p ∧ l.stream = id

/-- Handles are used once. -/
structure Fresh (d : ProxyStore) : Prop where
  below : ∀ l ∈ d.listening, l.handle < d.nextHandle
  nodup : d.listening.Nodup

/-- Only slots in `P` change. -/
structure Slotwise (P : StreamProtocol → Nat → Prop) (d e : ProxyStore) : Prop where
  runtimes : ∀ p id, ¬P p id → e.runtimes p id = d.runtimes p id
  listening : ∀ l : Listener, ¬P l.protocol l.stream → (l ∈ e.listening ↔ l ∈ d.listening)
  fresh : Fresh d → Fresh e

/-- The chain and its requests stay. -/
structure SameChain (d e : ProxyStore) : Prop where
  serving : e.serving = d.serving
  nextTicket : e.nextTicket = d.nextTicket
  lastRequest : e.lastRequest = d.lastRequest

structure Touches (P : StreamProtocol → Nat → Prop) (d e : ProxyStore) : Prop extends
  Slotwise P d e, SameChain d e

/-- The slot of a protocol and a stream. -/
def Slot (p : StreamProtocol) (id : Nat) : StreamProtocol → Nat → Prop :=
  fun q other => q = p ∧ other = id

/-- The slots of a stream. -/
def Slots (id : Nat) : StreamProtocol → Nat → Prop :=
  fun _ other => other = id

variable {P : StreamProtocol → Nat → Prop}

theorem Touches.refl : Touches P d d :=
  ⟨⟨fun _ _ _ => rfl, fun _ _ => Iff.rfl, fun h => h⟩, rfl, rfl, rfl⟩

theorem Slotwise.trans (h : Slotwise P d e) (h' : Slotwise P e f) : Slotwise P d f :=
  ⟨fun p id hP => (h'.runtimes p id hP).trans (h.runtimes p id hP),
    fun l hP => (h'.listening l hP).trans (h.listening l hP),
    fun hfresh => h'.fresh (h.fresh hfresh)⟩

theorem Touches.trans (h : Touches P d e) (h' : Touches P e f) : Touches P d f :=
  ⟨h.toSlotwise.trans h'.toSlotwise, h'.serving.trans h.serving,
    h'.nextTicket.trans h.nextTicket, h'.lastRequest.trans h.lastRequest⟩

theorem Slotwise.mono {Q : StreamProtocol → Nat → Prop} (h : Slotwise P d e)
    (hPQ : ∀ p id, P p id → Q p id) : Slotwise Q d e :=
  ⟨fun p id hQ => h.runtimes p id fun hP => hQ (hPQ p id hP),
    fun l hQ => h.listening l fun hP => hQ (hPQ l.protocol l.stream hP), h.fresh⟩

theorem Touches.slots (h : Touches (Slot p id) d e) : Touches (Slots id) d e :=
  ⟨h.toSlotwise.mono fun _ _ hslot => hslot.2, h.toSameChain⟩

/-- A slot that is not touched stays. -/
theorem SlotOk.untouched {opening : Option Listener} (h : SlotOk d p id opening)
    (ht : Slotwise P d e) (hP : ¬P p id) : SlotOk e p id opening := by
  have hruntimes := ht.runtimes p id hP
  have hlistening : ∀ l : Listener, l.protocol = p → l.stream = id →
      (l ∈ e.listening ↔ l ∈ d.listening) := by
    intro l hp hid
    apply ht.listening
    rw [hp, hid]
    exact hP
  refine ⟨fun runtime hentry => ?_, fun l hl hp hid => ?_, fun l hl => ?_⟩
  · rw [hruntimes] at hentry
    obtain ⟨hin, hp, hid, hrecord⟩ := h.entry runtime hentry
    exact ⟨(hlistening _ hp hid).mpr hin, hp, hid, hrecord⟩
  · rw [hruntimes]
    exact h.live l ((hlistening l hp hid).mp hl) hp hid
  · obtain ⟨hnone, hin, hp, hid⟩ := h.opening l hl
    exact ⟨hruntimes.trans hnone, (hlistening l hp hid).mpr hin, hp, hid⟩

/-! ## Stopping -/

theorem setRuntime_same {runtime : Option Runtime} :
    (d.setRuntime p id runtime).runtimes p id = runtime :=
  if_pos ⟨rfl, rfl⟩

theorem setRuntime_ne {runtime : Option Runtime} (h : ¬Slot p id q other) :
    (d.setRuntime p id runtime).runtimes q other = d.runtimes q other :=
  if_neg h

theorem Fresh.filter (h : Fresh d) (keep : Listener → Bool) :
    Fresh { d with listening := d.listening.filter keep } :=
  ⟨fun l hl => h.below l (List.mem_of_mem_filter hl), h.nodup.filter keep⟩

theorem touches_close {l : Listener} (hp : l.protocol = p) (hid : l.stream = id) :
    Touches (Slot p id) d { d with listening := d.listening.filter (· ≠ l) } := by
  refine ⟨⟨fun _ _ _ => rfl, fun other hother => ?_, fun h => h.filter _⟩, rfl, rfl, rfl⟩
  have hne : other ≠ l := by
    rintro rfl
    exact hother ⟨hp, hid⟩
  rw [List.mem_filter]
  exact ⟨fun h => h.1, fun h => ⟨h, decide_eq_true hne⟩⟩

theorem touches_setRuntime {runtime : Option Runtime} :
    Touches (Slot p id) d (d.setRuntime p id runtime) :=
  ⟨⟨fun _ _ hne => setRuntime_ne hne, fun _ _ => Iff.rfl, fun h => ⟨h.1, h.2⟩⟩, rfl, rfl, rfl⟩

/-- `stopTcp` and `stopUdp` empty a slot. -/
theorem stop_spec (h : SlotOk d p id none) : SlotOk (stop d p id) p id none ∧
    (stop d p id).runtimes p id = none ∧ Touches (Slot p id) d (stop d p id) := by
  rw [stop]
  split
  · rename_i hnone
    exact ⟨h, hnone, .refl⟩
  · rename_i runtime hsome
    obtain ⟨-, hp, hid, -⟩ := h.entry runtime hsome
    have hempty : (d.setRuntime p id none).runtimes p id = none := setRuntime_same
    refine ⟨⟨fun other hother => ?_, fun l hl hlp hlid => ?_, fun l hl => ?_⟩, hempty, ?_⟩
    · change (d.setRuntime p id none).runtimes p id = some other at hother
      rw [hempty] at hother
      cases hother
    · obtain ⟨hin, hne⟩ := List.mem_filter.mp hl
      rcases h.live l hin hlp hlid with ⟨other, hother, rfl⟩ | hopening
      · obtain rfl := Option.some.inj (hother.symm.trans hsome)
        exact absurd rfl (of_decide_eq_true hne)
      · cases hopening
    · cases hl
    · exact (touches_close hp hid).trans touches_setRuntime

/-! ## Starting -/

/-- What a start has done to its slot at each suspension. -/
def StartFits (d : ProxyStore) (p : StreamProtocol) (record : StreamRecord) : StartStage → Prop
  | .prepare | .create | .settled false =>
      SlotOk d p record.id none ∧ d.runtimes p record.id = none
  | .ingress listener => SlotOk d p record.id (some listener)
  | .settled true =>
      SlotOk d p record.id none ∧ ∃ runtime, d.runtimes p record.id = some runtime ∧
        runtime.record = record

/-- The listener that a start has opened and not registered. -/
def StartStage.opening : StartStage → Option Listener
  | .ingress listener => some listener
  | _ => none

theorem StartFits.slot {stage : StartStage} (h : StartFits d p record stage) :
    SlotOk d p record.id stage.opening := by
  cases stage with
  | ingress listener => exact h
  | settled succeeded =>
      cases succeeds : succeeded with
      | false =>
          subst succeeds
          exact h.1
      | true =>
          subst succeeds
          exact h.1
  | _ => exact h.1

theorem touches_openListener : Touches (Slot p record.id) d (openListener d p record) := by
  refine ⟨⟨fun _ _ _ => rfl, fun l hl => ?_, fun h => ⟨fun l hl => ?_, ?_⟩⟩, rfl, rfl, rfl⟩
  · change l ∈ d.listening ++ [d.next p record] ↔ _
    rw [List.mem_append, List.mem_singleton]
    refine ⟨fun hin => hin.resolve_right ?_, .inl⟩
    rintro rfl
    exact hl ⟨rfl, rfl⟩
  · rcases List.mem_snoc.mp hl with hold | hnew
    · exact Nat.lt_succ_of_lt (h.below l hold)
    · rw [hnew]
      exact Nat.lt_succ_self _
  · refine List.nodup_append.mpr ⟨h.nodup, List.nodup_singleton _, fun l hl new hnew => ?_⟩
    rw [List.mem_singleton.mp hnew]
    rintro rfl
    exact Nat.lt_irrefl _ (h.below _ hl)

/-- A listener is opened for an empty slot. -/
theorem SlotOk.openListener (h : SlotOk d p record.id none)
    (hnone : d.runtimes p record.id = none) :
    SlotOk (openListener d p record) p record.id (some (d.next p record)) := by
  refine ⟨fun runtime hentry => ?_, fun l hl hp hid => ?_, fun l hl => ?_⟩
  · rw [show (StreamProxy.openListener d p record).runtimes p record.id = none from hnone] at hentry
    cases hentry
  · rcases List.mem_snoc.mp hl with hold | hnew
    · rcases h.live l hold hp hid with ⟨runtime, hentry, -⟩ | hopening
      · rw [hnone] at hentry
        cases hentry
      · cases hopening
    · rw [hnew]
      exact .inr rfl
  · obtain rfl := Option.some.inj hl
    exact ⟨hnone, List.mem_append_right _ (List.mem_singleton_self _), rfl, rfl⟩

/-- The listener that was opened is registered. -/
theorem SlotOk.register {l : Listener} (h : SlotOk d p record.id (some l)) :
    StartFits (register d p record l) p record (.settled true) := by
  obtain ⟨hnone, hin, hp, hid⟩ := h.opening l rfl
  have hentry : (StreamProxy.register d p record l).runtimes p record.id =
      some ⟨record, p.fingerprint record, l⟩ := setRuntime_same
  refine ⟨⟨fun runtime hruntime => ?_, fun other hother hotherp hotherid => ?_, fun l hl => ?_⟩,
    _, hentry, rfl⟩
  · obtain rfl := Option.some.inj (hentry.symm.trans hruntime)
    exact ⟨hin, hp, hid, rfl⟩
  · rcases h.live other hother hotherp hotherid with ⟨runtime, hruntime, -⟩ | hopening
    · rw [hnone] at hruntime
      cases hruntime
    · exact .inl ⟨_, hentry, Option.some.inj hopening⟩
  · cases hl

theorem touches_register {l : Listener} :
    Touches (Slot p record.id) d (register d p record l) :=
  touches_setRuntime

/-- The listener whose ingress could not be started is stopped. -/
theorem SlotOk.close {l : Listener} (h : SlotOk d p id (some l)) :
    SlotOk { d with listening := d.listening.filter (· ≠ l) } p id none ∧
      d.runtimes p id = none ∧
      Touches (Slot p id) d { d with listening := d.listening.filter (· ≠ l) } := by
  obtain ⟨hnone, -, hp, hid⟩ := h.opening l rfl
  refine ⟨⟨fun runtime hentry => ?_, fun other hother hotherp hotherid => ?_, fun l hl => ?_⟩,
    hnone, touches_close hp hid⟩
  · rw [show ({ d with listening := d.listening.filter (· ≠ l) } : ProxyStore).runtimes p id = none
      from hnone] at hentry
    cases hentry
  · obtain ⟨hin, hne⟩ := List.mem_filter.mp hother
    rcases h.live other hin hotherp hotherid with ⟨runtime, hruntime, -⟩ | hopening
    · rw [hnone] at hruntime
      cases hruntime
    · exact absurd (Option.some.inj hopening).symm (of_decide_eq_true hne)
  · cases hl

theorem listenTcp_spec (h : SlotOk d .tcp record.id none)
    (hnone : d.runtimes .tcp record.id = none) (succeeds : Bool) :
    StartFits (listenTcp d record succeeds).1 .tcp record (listenTcp d record succeeds).2 ∧
      Touches (Slot .tcp record.id) d (listenTcp d record succeeds).1 := by
  rw [listenTcp]
  split
  · exact ⟨⟨h, hnone⟩, .refl⟩
  · split
    · exact ⟨h.openListener hnone, touches_openListener⟩
    · exact ⟨(h.openListener hnone).register, touches_openListener.trans touches_register⟩

theorem startTcp_spec (h : SlotOk d .tcp record.id none)
    (hnone : d.runtimes .tcp record.id = none) (succeeds : Bool) :
    StartFits (startTcp d record succeeds).1 .tcp record (startTcp d record succeeds).2 ∧
      Touches (Slot .tcp record.id) d (startTcp d record succeeds).1 := by
  rw [startTcp]
  split
  · exact ⟨⟨h, hnone⟩, .refl⟩
  · exact listenTcp_spec h hnone succeeds

theorem startStep_spec {stage : StartStage} {succeeds : Bool} {r : ProxyStore × StartStage}
    (h : StartFits d p record stage) (hstep : startStep d record succeeds p stage = some r) :
    StartFits r.1 p record r.2 ∧ Touches (Slot p record.id) d r.1 := by
  rw [startStep.eq_def] at hstep
  split at hstep
  · obtain rfl := Option.some.inj hstep
    exact listenTcp_spec h.1 h.2 succeeds
  · obtain rfl := Option.some.inj hstep
    refine ⟨?_, .refl⟩
    cases succeeds with
    | true => exact h
    | false => exact h
  · split at hstep
    · obtain rfl := Option.some.inj hstep
      exact ⟨h, .refl⟩
    · obtain rfl := Option.some.inj hstep
      exact ⟨(h.1.openListener h.2).register, touches_openListener.trans touches_register⟩
  · rename_i l
    have hslot : SlotOk d .tcp record.id (some l) := h
    split at hstep
    · obtain rfl := Option.some.inj hstep
      exact ⟨hslot.register, touches_register⟩
    · obtain rfl := Option.some.inj hstep
      obtain ⟨hclosed, hnone, htouches⟩ := hslot.close
      exact ⟨⟨hclosed, hnone⟩, htouches⟩
  · cases hstep

/-! ## `applyNow` -/

/-- The slots of a stream between two starts. -/
def Closed (d : ProxyStore) (id : Nat) : Prop := ∀ p, SlotOk d p id none

/-- The earlier record is active, unless it could not be started again. -/
def Keeps (d : ProxyStore) (act : Activation) (p : StreamProtocol) : Prop :=
  ∀ previous, act.previous p = some previous → act.failed p = false →
    ∃ runtime, d.runtimes p act.record.id = some runtime ∧ runtime.record = previous

/-- What an activation may rely on from its first step. -/
structure Activation.Sound (act : Activation) : Prop where
  previous : ∀ p previous, act.previous p = some previous → previous.id = act.record.id
  disabled : ∀ p, act.record.enabled p = false → act.changed p = true

/-- What the slots of the stream hold where `applyNow` is suspended. -/
def PhaseFits (d : ProxyStore) (act : Activation) : ActivationPhase → Prop
  | .rejecting => Closed d act.record.id ∧ ∀ p, Keeps d act p
  | .starting rollback q stage =>
      StartFits d q (act.target rollback q) stage ∧ act.changed q = true ∧
        (rollback = true → (act.previous q).isSome = true) ∧
        ∀ p, p ≠ q → SlotOk d p act.record.id none ∧
          (act.changed p = false ∨ (rollback = true ∧ q = .udp) → Keeps d act p)

structure ActFits (d : ProxyStore) (act : Activation) : Prop where
  sound : act.Sound
  phase : PhaseFits d act act.phase

def OutcomeFits (d : ProxyStore) (id : Nat) : Outcome → Prop
  | .pending act => act.record.id = id ∧ ActFits d act
  | .settled _ => Closed d id

variable {act : Activation}

theorem Keeps.untouched (h : Keeps d act p) (ht : Slotwise P d e) (hP : ¬P p act.record.id) :
    Keeps e act p := by
  intro previous hprevious hfailed
  rw [ht.runtimes p act.record.id hP]
  exact h previous hprevious hfailed

theorem slot_ne (h : p ≠ q) : ¬Slot q id p id :=
  fun hslot => h hslot.1

theorem Closed.stop (h : Closed d id) (p : StreamProtocol) : Closed (stop d p id) id := by
  intro q
  by_cases hq : q = p
  · rw [hq]
    exact (stop_spec (h p)).1
  · exact (h q).untouched (stop_spec (h p)).2.2.toSlotwise (slot_ne hq)

theorem Closed.syncRecord (h : Closed d record.id) : Closed (syncRecord d record) record.id := by
  intro p
  have hruntimes : (StreamProxy.syncRecord d record).runtimes p record.id =
      (d.runtimes p record.id).map (syncRuntime record) := if_pos rfl
  refine ⟨fun runtime hentry => ?_, fun l hl hp hid => ?_, fun l hl => (by cases hl)⟩
  · rw [hruntimes] at hentry
    obtain ⟨old, hold, rfl⟩ := Option.map_eq_some_iff.mp hentry
    obtain ⟨hin, hp, hid, -⟩ := (h p).entry old hold
    exact ⟨hin, hp, hid, rfl⟩
  · rcases (h p).live l hl hp hid with ⟨runtime, hentry, rfl⟩ | hopening
    · rw [hruntimes, hentry]
      exact .inl ⟨_, rfl, rfl⟩
    · cases hopening

theorem touches_syncRecord : Touches (Slots record.id) d (syncRecord d record) :=
  ⟨⟨fun _ _ hne => if_neg hne, fun _ _ => Iff.rfl, fun h => ⟨h.1, h.2⟩⟩, rfl, rfl, rfl⟩

theorem Activation.Sound.target (h : act.Sound) (rollback : Bool) (p : StreamProtocol) :
    (act.target rollback p).id = act.record.id := by
  rw [Activation.target]
  split
  · cases hprevious : act.previous p with
    | none => rfl
    | some previous => exact h.previous p previous hprevious
  · rfl

theorem applyUdp_spec (hsound : act.Sound) (hclosed : Closed d act.record.id)
    (hkept : ∀ p, act.changed p = false → Keeps d act p) :
    OutcomeFits (applyUdp d act).1 act.record.id (applyUdp d act).2 ∧
      Touches (Slots act.record.id) d (applyUdp d act).1 := by
  obtain ⟨-, hnone, htouches⟩ := stop_spec (hclosed .udp)
  rw [applyUdp]
  split
  · exact ⟨(hclosed.stop .udp).syncRecord, htouches.slots.trans touches_syncRecord⟩
  · split
    · rename_i hchanged
      refine ⟨⟨rfl, ⟨hsound.1, hsound.2⟩, ⟨hclosed.stop .udp .udp, hnone⟩, hchanged,
        fun hrollback => (by cases hrollback), fun p hp => ⟨hclosed.stop .udp p, fun hstays => ?_⟩⟩,
        htouches.slots⟩
      have hunchanged : act.changed p = false := hstays.resolve_right fun h => by cases h.1
      exact (hkept p hunchanged).untouched htouches.toSlotwise (slot_ne hp)
    · exact ⟨hclosed.syncRecord, touches_syncRecord⟩

theorem applyTcp_spec (hsound : act.Sound) (hclosed : Closed d act.record.id)
    (hkept : ∀ p, act.changed p = false → Keeps d act p) (succeeds : Bool) :
    OutcomeFits (applyTcp d act succeeds).1 act.record.id (applyTcp d act succeeds).2 ∧
      Touches (Slots act.record.id) d (applyTcp d act succeeds).1 := by
  obtain ⟨hslot, hnone, htouches⟩ := stop_spec (hclosed .tcp)
  -- What was not changed is not TCP, so the stop leaves it.
  have hstopped : act.changed .tcp = true →
      ∀ p, act.changed p = false → Keeps (stop d .tcp act.record.id) act p := by
    intro hchanged p hunchanged
    refine (hkept p hunchanged).untouched htouches.toSlotwise (slot_ne ?_)
    rintro rfl
    rw [hchanged] at hunchanged
    cases hunchanged
  rw [applyTcp]
  split
  · rename_i hdisabled
    have hchanged := hsound.disabled .tcp ((Bool.not_eq_true' _).mp hdisabled)
    obtain ⟨hfits, hudp⟩ := applyUdp_spec hsound (hclosed.stop .tcp) (hstopped hchanged)
    exact ⟨hfits, htouches.slots.trans hudp⟩
  · split
    · rename_i hchanged
      obtain ⟨hstart, hopened⟩ := startTcp_spec hslot hnone succeeds
      refine ⟨⟨rfl, ⟨hsound.1, hsound.2⟩, hstart, hchanged, fun hrollback => (by cases hrollback),
        fun p hp => ⟨(hclosed.stop .tcp p).untouched hopened.toSlotwise (slot_ne hp),
          fun hstays => ?_⟩⟩,
        htouches.slots.trans hopened.slots⟩
      have hunchanged : act.changed p = false := hstays.resolve_right fun h => by cases h.1
      exact (hstopped hchanged p hunchanged).untouched hopened.toSlotwise (slot_ne hp)
    · exact applyUdp_spec hsound hclosed hkept

theorem applyNow_spec (hclosed : Closed d record.id) (forceTls succeeds : Bool) :
    OutcomeFits (applyNow d record forceTls succeeds).1 record.id
      (applyNow d record forceTls succeeds).2 ∧
      Touches (Slots record.id) d (applyNow d record forceTls succeeds).1 := by
  refine applyTcp_spec ⟨fun p previous hprevious => ?_, fun p hdisabled => ?_⟩ hclosed
    (fun p _ previous hprevious _ => ?_) succeeds
  · obtain ⟨runtime, hruntime, rfl⟩ := Option.map_eq_some_iff.mp hprevious
    exact ((hclosed p).entry runtime hruntime).2.2.2
  · change (!record.enabled p || _ || _) = true
    rw [show record.enabled p = false from hdisabled]
    rfl
  · exact Option.map_eq_some_iff.mp hprevious

/-! ## The rollback -/

theorem rollbackUdp_spec (hsound : act.Sound) (hclosed : Closed d act.record.id)
    (htcp : Keeps d act .tcp) (hudp : act.changed .udp = false → Keeps d act .udp) :
    OutcomeFits (rollbackUdp d act).1 act.record.id (rollbackUdp d act).2 ∧
      Touches (Slots act.record.id) d (rollbackUdp d act).1 := by
  obtain ⟨-, hnone, htouches⟩ := stop_spec (hclosed .udp)
  have htcp' := htcp.untouched htouches.toSlotwise (slot_ne StreamProtocol.noConfusion)
  rw [rollbackUdp]
  split
  · rename_i hchanged
    dsimp only
    split
    · rename_i previous hprevious
      have htarget := hsound.target true .udp
      refine ⟨⟨rfl, ⟨hsound.1, hsound.2⟩, ?_, hchanged, fun _ => ?_, fun p hp => ?_⟩,
        htouches.slots⟩
      · rw [← htarget] at hclosed hnone ⊢
        exact ⟨hclosed.stop .udp .udp, hnone⟩
      · exact Option.isSome_of_eq_some hprevious
      · cases p with
        | tcp => exact ⟨hclosed.stop .udp .tcp, fun _ => htcp'⟩
        | udp => exact absurd rfl hp
    · rename_i hprevious
      refine ⟨⟨rfl, ⟨hsound.1, hsound.2⟩, hclosed.stop .udp, fun p => ?_⟩, htouches.slots⟩
      cases p with
      | tcp => exact htcp'
      | udp =>
          intro previous hsome
          rw [show act.previous .udp = none from hprevious] at hsome
          cases hsome
  · rename_i hchanged
    refine ⟨⟨rfl, ⟨hsound.1, hsound.2⟩, hclosed, fun p => ?_⟩, .refl⟩
    cases p with
    | tcp => exact htcp
    | udp => exact hudp ((Bool.not_eq_true _).mp hchanged)

theorem rollbackTcp_spec (hsound : act.Sound) (hclosed : Closed d act.record.id)
    (hkept : ∀ p, act.changed p = false → Keeps d act p) (succeeds : Bool) :
    OutcomeFits (rollbackTcp d act succeeds).1 act.record.id (rollbackTcp d act succeeds).2 ∧
      Touches (Slots act.record.id) d (rollbackTcp d act succeeds).1 := by
  obtain ⟨hslot, hnone, htouches⟩ := stop_spec (hclosed .tcp)
  have hudp : act.changed .udp = false → Keeps (stop d .tcp act.record.id) act .udp :=
    fun hunchanged =>
      (hkept .udp hunchanged).untouched htouches.toSlotwise (slot_ne StreamProtocol.noConfusion)
  rw [rollbackTcp]
  split
  · rename_i hchanged
    dsimp only
    split
    · rename_i previous hprevious
      have hid : previous.id = act.record.id := hsound.previous .tcp previous hprevious
      rw [← hid] at hslot hnone
      obtain ⟨hstart, hopened⟩ := startTcp_spec hslot hnone succeeds
      rw [hid] at hstart hopened
      have htarget : act.target true .tcp = previous := by
        rw [Activation.target, if_pos rfl, hprevious]
        rfl
      refine ⟨⟨rfl, ⟨hsound.1, hsound.2⟩, ?_, hchanged, fun _ => ?_, fun p hp => ?_⟩,
        htouches.slots.trans hopened.slots⟩
      · change StartFits _ .tcp (act.target true .tcp) _
        rw [htarget]
        exact hstart
      · exact Option.isSome_of_eq_some hprevious
      · cases p with
        | tcp => exact absurd rfl hp
        | udp =>
            refine ⟨(hclosed.stop .tcp .udp).untouched hopened.toSlotwise (slot_ne hp),
              fun hstays => ?_⟩
            exact (hudp (hstays.resolve_right fun h => by cases h.2)).untouched hopened.toSlotwise
              (slot_ne hp)
    · rename_i hprevious
      have htcp : Keeps (stop d .tcp act.record.id) act .tcp := by
        intro previous hsome
        rw [hprevious] at hsome
        cases hsome
      obtain ⟨hfits, hrest⟩ := rollbackUdp_spec hsound (hclosed.stop .tcp) htcp hudp
      exact ⟨hfits, htouches.slots.trans hrest⟩
  · rename_i hchanged
    have hunchanged : act.changed .tcp = false := (Bool.not_eq_true _).mp hchanged
    exact rollbackUdp_spec hsound hclosed (hkept .tcp hunchanged) (hkept .udp)

/-! ## One step -/

theorem Keeps.restarted (h : Keeps d act p) (hne : p ≠ q) (succeeded : Bool) :
    Keeps d (act.restarted q succeeded) p := by
  intro previous hprevious hfailed
  have hfailed' : act.failed p = false := (if_neg hne).symm.trans hfailed
  exact h previous hprevious hfailed'

/-- The start of the rollback has succeeded, or it counts as failed. -/
theorem keeps_restarted {succeeded : Bool} (hsound : act.Sound)
    (h : StartFits d p (act.target true p) (.settled succeeded)) :
    Keeps d (act.restarted p succeeded) p := by
  intro previous hprevious hfailed
  have hsucceeded : (!succeeded) = false := (if_pos rfl).symm.trans hfailed
  obtain rfl : succeeded = true := (Bool.not_eq_false' _).mp hsucceeded
  have htarget : act.target true p = previous := by
    rw [Activation.target, if_pos rfl, show act.previous p = some previous from hprevious]
    rfl
  obtain ⟨-, runtime, hruntime, hrecord⟩ := h
  rw [hsound.target] at hruntime
  exact ⟨runtime, hruntime, hrecord.trans htarget⟩

theorem resume_spec {rollback succeeded : Bool} (hsound : act.Sound)
    (h : PhaseFits d act (.starting rollback p (.settled succeeded))) (succeeds : Bool) :
    OutcomeFits (resume d act succeeds rollback p succeeded).1 act.record.id
      (resume d act succeeds rollback p succeeded).2 ∧
      Touches (Slots act.record.id) d (resume d act succeeds rollback p succeeded).1 := by
  obtain ⟨hstart, hchanged, -, hothers⟩ := h
  have hslot : SlotOk d p act.record.id none := by
    have hslot := hstart.slot
    rw [hsound.target] at hslot
    exact hslot
  have hclosed : Closed d act.record.id := by
    intro q
    by_cases hq : q = p
    · rw [hq]
      exact hslot
    · exact (hothers q hq).1
  have hkept : ∀ q, act.changed q = false → Keeps d act q := by
    intro q hunchanged
    refine (hothers q ?_).2 (.inl hunchanged)
    rintro rfl
    rw [hchanged] at hunchanged
    cases hunchanged
  rw [resume.eq_def]
  split
  · exact applyUdp_spec hsound hclosed hkept
  · exact ⟨hclosed.syncRecord, touches_syncRecord⟩
  · exact rollbackTcp_spec hsound hclosed hkept succeeds
  · have hudp := fun hunchanged =>
      (hkept .udp hunchanged).restarted (q := .tcp) StreamProtocol.noConfusion succeeded
    have hsound' : (act.restarted .tcp succeeded).Sound := ⟨hsound.1, hsound.2⟩
    exact rollbackUdp_spec hsound' hclosed (keeps_restarted hsound hstart) hudp
  · refine ⟨⟨rfl, ⟨hsound.1, hsound.2⟩, hclosed, fun q => ?_⟩, .refl⟩
    cases q with
    | tcp =>
        have htcp : Keeps d act .tcp :=
          (hothers .tcp StreamProtocol.noConfusion).2 (.inr ⟨rfl, rfl⟩)
        have hstays : Keeps d (act.restarted .udp succeeded) .tcp :=
          htcp.restarted StreamProtocol.noConfusion succeeded
        exact hstays
    | udp =>
        have hstarted : Keeps d (act.restarted .udp succeeded) .udp :=
          keeps_restarted hsound hstart
        exact hstarted

theorem activationStep_spec {succeeds : Bool} {r : ProxyStore × Outcome} (h : ActFits d act)
    (hstep : activationStep d act succeeds = some r) :
    OutcomeFits r.1 act.record.id r.2 ∧ Touches (Slots act.record.id) d r.1 := by
  obtain ⟨hsound, hphase⟩ := h
  rw [activationStep] at hstep
  split at hstep
  · rename_i hrejecting
    rw [hrejecting] at hphase
    obtain rfl := Option.some.inj hstep
    exact ⟨hphase.1, .refl⟩
  · rename_i rollback p succeeded hstarting
    rw [hstarting] at hphase
    obtain rfl := Option.some.inj hstep
    exact resume_spec hsound hphase succeeds
  · rename_i rollback p stage _ hstarting
    rw [hstarting] at hphase
    obtain ⟨hstart, hchanged, hrestarts, hothers⟩ := hphase
    obtain ⟨next, hnext, rfl⟩ := Option.map_eq_some_iff.mp hstep
    obtain ⟨hfits, htouches⟩ := startStep_spec hstart hnext
    rw [hsound.target] at htouches
    refine ⟨⟨rfl, ⟨hsound.1, hsound.2⟩, hfits, hchanged, hrestarts, fun q hq => ?_⟩,
      htouches.slots⟩
    obtain ⟨hslot, hkept⟩ := hothers q hq
    exact ⟨hslot.untouched htouches.toSlotwise (slot_ne hq),
      fun hstays => (hkept hstays).untouched htouches.toSlotwise (slot_ne hq)⟩

theorem StartFits.untouched {stage : StartStage} (h : StartFits d p record stage)
    (ht : Slotwise P d e) (hP : ¬P p record.id) : StartFits e p record stage := by
  have hruntimes := ht.runtimes p record.id hP
  cases stage with
  | prepare => exact ⟨h.1.untouched ht hP, hruntimes.trans h.2⟩
  | create => exact ⟨h.1.untouched ht hP, hruntimes.trans h.2⟩
  | ingress listener => exact SlotOk.untouched h ht hP
  | settled succeeded =>
      cases succeeded with
      | false => exact ⟨h.1.untouched ht hP, hruntimes.trans h.2⟩
      | true =>
          obtain ⟨hslot, runtime, hruntime, hrecord⟩ := h
          exact ⟨hslot.untouched ht hP, runtime, hruntimes.trans hruntime, hrecord⟩

theorem Closed.untouched (h : Closed d id) (ht : Slotwise P d e) (hP : ∀ p, ¬P p id) :
    Closed e id :=
  fun p => (h p).untouched ht (hP p)

/-- An activation of a stream that is not touched goes on as before. -/
theorem ActFits.untouched (h : ActFits d act) (ht : Slotwise P d e)
    (hP : ∀ p, ¬P p act.record.id) : ActFits e act := by
  obtain ⟨hsound, hphase⟩ := h
  refine ⟨hsound, ?_⟩
  cases hcurrent : act.phase with
  | rejecting =>
      rw [hcurrent] at hphase
      exact ⟨hphase.1.untouched ht hP, fun p => (hphase.2 p).untouched ht (hP p)⟩
  | starting rollback q stage =>
      rw [hcurrent] at hphase
      obtain ⟨hstart, hchanged, hrestarts, hothers⟩ := hphase
      refine ⟨hstart.untouched ht ?_, hchanged, hrestarts, fun p hp => ?_⟩
      · rw [hsound.target]
        exact hP q
      · obtain ⟨hslot, hkept⟩ := hothers p hp
        exact ⟨hslot.untouched ht (hP p), fun hstays => (hkept hstays).untouched ht (hP p)⟩

/-- The listener that is being opened stands in the slot of its protocol. -/
theorem ActFits.slot (h : ActFits d act) (p : StreamProtocol) :
    ∃ opening : Option Listener, SlotOk d p act.record.id opening ∧
      ∀ l, opening = some l → act.opening = some l := by
  obtain ⟨hsound, hphase⟩ := h
  cases hcurrent : act.phase with
  | rejecting =>
      rw [hcurrent] at hphase
      exact ⟨none, hphase.1 p, fun l hl => (by cases hl)⟩
  | starting rollback q stage =>
      rw [hcurrent] at hphase
      by_cases hp : p = q
      · have hslot := hphase.1.slot
        rw [hsound.target, ← hp] at hslot
        refine ⟨stage.opening, hslot, fun l hl => ?_⟩
        rw [Activation.opening, hcurrent]
        cases stage with
        | ingress listener => exact hl
        | _ => cases hl
      · exact ⟨none, (hphase.2.2.2 p hp).1, fun l hl => (by cases hl)⟩

end BurrowGate.StreamProxy
