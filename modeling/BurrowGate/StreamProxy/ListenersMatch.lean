import BurrowGate.StreamProxy.Activation

/-!
# The listeners match the configuration

The chain runs its operations one after another. While the activations that `start` and
`reloadTlsStreams` run outside of it do not meet another of the same stream, each stream has one
owner at a time.
-/

namespace BurrowGate.StreamProxy

open Lib Lib.Run Lib.Lists

variable {s t : ProxyState} {d e : ProxyStore} {i j id : Nat} {c n : StreamCall}
variable {record : StreamRecord} {act : Activation} {P : StreamProtocol → Nat → Prop}

/-! ## The owners of the streams -/

/-- Each stream is activated by one call, and its slots are as that call has left them. -/
structure Owned (s : ProxyState) : Prop where
  fresh : Fresh s.store
  alone : ∀ (i j : Nat) (c c' : StreamCall) (act act' : Activation), s.calls[i]? = some c →
    s.calls[j]? = some c' → c.activation = some act → c'.activation = some act' →
    act.record.id = act'.record.id → i = j
  fits : ∀ (i : Nat) (c : StreamCall) (act : Activation), s.calls[i]? = some c →
    c.activation = some act → ActFits s.store act
  idle : ∀ id, (∀ (i : Nat) (c : StreamCall) (act : Activation), s.calls[i]? = some c →
    c.activation = some act → act.record.id ≠ id) → Closed s.store id

theorem slots_ne {other : Nat} (h : other ≠ id) (p : StreamProtocol) : ¬Slots id p other :=
  h

theorem quiet_iff : Quiet s id = true ↔ ∀ (i : Nat) (c : StreamCall) (act : Activation),
    s.calls[i]? = some c → c.activation = some act → act.record.id ≠ id := by
  rw [Quiet, List.all_eq_true]
  refine ⟨fun h i c act hc hact => ?_, fun h c hc => ?_⟩
  · have hall := h c (List.mem_of_getElem? hc)
    rw [hact] at hall
    exact of_decide_eq_true hall
  · obtain ⟨i, hi⟩ := List.mem_iff_getElem?.mp hc
    cases hact : c.activation with
    | none => rfl
    | some act => exact decide_eq_true (h i c act hi hact)

/-- A call that activates at most this stream, as no other does, has its next suspension. -/
theorem Owned.replace (h : Owned s) (hc : s.calls[i]? = some c)
    (hd : Slotwise (Slots id) s.store d)
    (hothers : ∀ (j : Nat) (c' : StreamCall) (act : Activation), j ≠ i → s.calls[j]? = some c' →
      c'.activation = some act → act.record.id ≠ id)
    (hnow : ∀ act, c.activation = some act → act.record.id = id)
    (hnext : ∀ act, n.activation = some act → act.record.id = id ∧ ActFits d act)
    (hclosed : n.activation = none → Closed d id) : Owned ⟨d, s.calls.set i n⟩ := by
  have hslot : (s.calls.set i n)[i]? = some n :=
    List.getElem?_set_self (List.getElem?_eq_some_iff.mp hc).1
  refine ⟨hd.fresh h.fresh, fun j k c₁ c₂ a₁ a₂ h₁ h₂ ha₁ ha₂ heq => ?_,
    fun j c' act hc' hact => ?_, fun other hquiet => ?_⟩
  · rcases getElem?_set_cases h₁ with ⟨rfl, rfl⟩ | ⟨hj, hold₁⟩
    · rcases getElem?_set_cases h₂ with ⟨rfl, rfl⟩ | ⟨hk, hold₂⟩
      · rfl
      · exact absurd (heq.symm.trans (hnext a₁ ha₁).1) (hothers k c₂ a₂ hk hold₂ ha₂)
    · rcases getElem?_set_cases h₂ with ⟨rfl, rfl⟩ | ⟨-, hold₂⟩
      · exact absurd (heq.trans (hnext a₂ ha₂).1) (hothers j c₁ a₁ hj hold₁ ha₁)
      · exact h.alone j k c₁ c₂ a₁ a₂ hold₁ hold₂ ha₁ ha₂ heq
  · rcases getElem?_set_cases hc' with ⟨rfl, rfl⟩ | ⟨hj, hold⟩
    · exact (hnext act hact).2
    · exact (h.fits j c' act hold hact).untouched hd (slots_ne (hothers j c' act hj hold hact))
  · by_cases hother : other = id
    · subst hother
      refine hclosed ?_
      cases hact : n.activation with
      | none => rfl
      | some act => exact absurd (hnext act hact).1 (hquiet i n act hslot hact)
    · refine (h.idle other fun j c' act hc' hact => ?_).untouched hd (slots_ne hother)
      by_cases hj : j = i
      · subst hj
        obtain rfl := Option.some.inj (hc.symm.trans hc')
        rw [hnow act hact]
        exact Ne.symm hother
      · have hstays : (s.calls.set i n)[j]? = some c' := by
          rw [List.getElem?_set_ne (Ne.symm hj)]
          exact hc'
        exact hquiet j c' act hstays hact

/-- A call that activates no stream goes on without one. -/
theorem Owned.pass (h : Owned s) (hc : s.calls[i]? = some c)
    (hd : Slotwise (fun _ _ => False) s.store d) (hnow : c.activation = none)
    (hnext : n.activation = none) : Owned ⟨d, s.calls.set i n⟩ := by
  have hstays : ∀ (j : Nat) (c' : StreamCall) (act : Activation),
      (s.calls.set i n)[j]? = some c' → c'.activation = some act → s.calls[j]? = some c' := by
    intro j c' act hc' hact
    rcases getElem?_set_cases hc' with ⟨rfl, rfl⟩ | ⟨-, hold⟩
    · rw [hnext] at hact
      cases hact
    · exact hold
  refine ⟨hd.fresh h.fresh, fun j k c₁ c₂ a₁ a₂ h₁ h₂ ha₁ ha₂ heq => ?_,
    fun j c' act hc' hact => ?_, fun other hquiet => ?_⟩
  · exact h.alone j k c₁ c₂ a₁ a₂ (hstays j c₁ a₁ h₁ ha₁) (hstays k c₂ a₂ h₂ ha₂) ha₁ ha₂ heq
  · exact (h.fits j c' act (hstays j c' act hc' hact) hact).untouched hd fun _ hfalse => hfalse
  · refine (h.idle other fun j c' act hc' hact => ?_).untouched hd fun _ hfalse => hfalse
    have hne : j ≠ i := by
      rintro rfl
      obtain rfl := Option.some.inj (hc.symm.trans hc')
      rw [hnow] at hact
      cases hact
    have hold : (s.calls.set i n)[j]? = some c' := by
      rw [List.getElem?_set_ne (Ne.symm hne)]
      exact hc'
    exact hquiet j c' act hold hact

theorem Owned.add (h : Owned s) (hnew : c.activation = none) :
    Owned ⟨s.store, s.calls ++ [c]⟩ := by
  have hstays : ∀ (j : Nat) (c' : StreamCall) (act : Activation),
      (s.calls ++ [c])[j]? = some c' → c'.activation = some act → s.calls[j]? = some c' := by
    intro j c' act hc' hact
    rcases getElem?_concat_cases hc' with hold | ⟨-, rfl⟩
    · exact hold
    · rw [hnew] at hact
      cases hact
  refine ⟨h.fresh, fun j k c₁ c₂ a₁ a₂ h₁ h₂ ha₁ ha₂ heq => ?_, fun j c' act hc' hact => ?_,
    fun other hquiet => h.idle other fun j c' act hc' hact => ?_⟩
  · exact h.alone j k c₁ c₂ a₁ a₂ (hstays j c₁ a₁ h₁ ha₁) (hstays k c₂ a₂ h₂ ha₂) ha₁ ha₂ heq
  · exact h.fits j c' act (hstays j c' act hc' hact) hact
  · have hold : (s.calls ++ [c])[j]? = some c' := by
      rw [List.getElem?_append_left (List.getElem?_eq_some_iff.mp hc').1]
      exact hc'
    exact hquiet j c' act hold hact

/-! ## The chain -/

/-- The place of a call in the chain. -/
structure Turn where
  ticket : Nat
  stream : Nat
  removal : Bool

def StreamCall.turn : StreamCall → Option Turn
  | .queued ticket operation => some ⟨ticket, operation.stream, operation.removal⟩
  | .applying (.chain ticket) act => some ⟨ticket, act.record.id, false⟩
  | _ => none

/-- The call is the one that requested its ticket. -/
structure TurnFits (d : ProxyStore) (turn : Turn) : Prop where
  waiting : d.serving ≤ turn.ticket
  issued : turn.ticket < d.nextTicket
  requested : ∃ last, d.lastRequest turn.stream = some last ∧ turn.ticket ≤ last.ticket
  last : ∀ id last, d.lastRequest id = some last → last.ticket = turn.ticket →
    id = turn.stream ∧ last.removal = turn.removal

structure Ticketed (s : ProxyState) : Prop where
  bound : s.store.serving ≤ s.store.nextTicket
  issued : ∀ id last, s.store.lastRequest id = some last → last.ticket < s.store.nextTicket
  turn : ∀ (i : Nat) (c : StreamCall) (turn : Turn), s.calls[i]? = some c →
    c.turn = some turn → TurnFits s.store turn
  distinct : ∀ (i j : Nat) (c c' : StreamCall) (turn turn' : Turn), s.calls[i]? = some c →
    s.calls[j]? = some c' → c.turn = some turn → c'.turn = some turn' →
    turn.ticket = turn'.ticket → i = j
  running : ∀ (i ticket : Nat) (act : Activation),
    s.calls[i]? = some (.applying (.chain ticket) act) → s.store.serving = ticket

theorem TurnFits.same {turn : Turn} (h : TurnFits d turn) (hd : SameChain d e) :
    TurnFits e turn := by
  refine ⟨?_, ?_, ?_, ?_⟩
  · rw [hd.serving]
    exact h.waiting
  · rw [hd.nextTicket]
    exact h.issued
  · rw [hd.lastRequest]
    exact h.requested
  · rw [hd.lastRequest]
    exact h.last

/-- A call keeps its turn, or gives it up. -/
theorem Ticketed.pass (h : Ticketed s) (hc : s.calls[i]? = some c) (hd : SameChain s.store d)
    (hn : ∀ turn, n.turn = some turn → c.turn = some turn)
    (hrunning : ∀ ticket act, n = .applying (.chain ticket) act → s.store.serving = ticket) :
    Ticketed ⟨d, s.calls.set i n⟩ := by
  have hold : ∀ (j : Nat) (c' : StreamCall) (turn : Turn),
      (s.calls.set i n)[j]? = some c' → c'.turn = some turn →
        ∃ c'', s.calls[j]? = some c'' ∧ c''.turn = some turn := by
    intro j c' turn hc' hturn
    rcases getElem?_set_cases hc' with ⟨rfl, rfl⟩ | ⟨-, hold⟩
    · exact ⟨c, hc, hn turn hturn⟩
    · exact ⟨c', hold, hturn⟩
  refine ⟨?_, ?_, fun j c' turn hc' hturn => ?_, fun j k c₁ c₂ t₁ t₂ h₁ h₂ ht₁ ht₂ heq => ?_,
    fun j ticket act hc' => ?_⟩
  · rw [hd.serving, hd.nextTicket]
    exact h.bound
  · rw [hd.lastRequest, hd.nextTicket]
    exact h.issued
  · obtain ⟨c'', hc'', hturn'⟩ := hold j c' turn hc' hturn
    exact (h.turn j c'' turn hc'' hturn').same hd
  · obtain ⟨c₁', h₁', ht₁'⟩ := hold j c₁ t₁ h₁ ht₁
    obtain ⟨c₂', h₂', ht₂'⟩ := hold k c₂ t₂ h₂ ht₂
    exact h.distinct j k c₁' c₂' t₁ t₂ h₁' h₂' ht₁' ht₂' heq
  · rw [hd.serving]
    rcases getElem?_set_cases hc' with ⟨-, hnew⟩ | ⟨-, hstays⟩
    · exact hrunning ticket act hnew.symm
    · exact h.running j ticket act hstays

/-- The operation whose turn it was is over. -/
theorem Ticketed.served {turn : Turn} (h : Ticketed s) (hc : s.calls[i]? = some c)
    (hturn : c.turn = some turn) (hserving : s.store.serving = turn.ticket)
    (hd : SameChain s.store d) (hn : n.turn = none) :
    Ticketed ⟨{ d with serving := turn.ticket + 1 }, s.calls.set i n⟩ := by
  have hold : ∀ (j : Nat) (c' : StreamCall) (other : Turn), (s.calls.set i n)[j]? = some c' →
      c'.turn = some other → j ≠ i ∧ s.calls[j]? = some c' := by
    intro j c' other hc' hother
    rcases getElem?_set_cases hc' with ⟨rfl, rfl⟩ | hstays
    · rw [hn] at hother
      cases hother
    · exact hstays
  refine ⟨?_, ?_, fun j c' other hc' hother => ?_,
    fun j k c₁ c₂ t₁ t₂ h₁ h₂ ht₁ ht₂ heq => ?_, fun j ticket act hc' => ?_⟩
  · change turn.ticket + 1 ≤ d.nextTicket
    rw [hd.nextTicket]
    exact (h.turn i c turn hc hturn).issued
  · change ∀ id last, d.lastRequest id = some last → last.ticket < d.nextTicket
    rw [hd.lastRequest, hd.nextTicket]
    exact h.issued
  · obtain ⟨hne, hstays⟩ := hold j c' other hc' hother
    have hfits := h.turn j c' other hstays hother
    have hticket : other.ticket ≠ turn.ticket := fun heq =>
      hne (h.distinct j i c' c other turn hstays hc hother hturn heq)
    have hwaiting := hfits.waiting
    have hsame := hfits.same hd
    exact ⟨by change turn.ticket + 1 ≤ other.ticket; omega, hsame.issued, hsame.requested,
      hsame.last⟩
  · exact h.distinct j k c₁ c₂ t₁ t₂ (hold j c₁ t₁ h₁ ht₁).2 (hold k c₂ t₂ h₂ ht₂).2 ht₁ ht₂ heq
  · obtain ⟨hne, hstays⟩ := hold j _ ⟨ticket, act.record.id, false⟩ hc' rfl
    have hticket : turn.ticket = ticket := hserving.symm.trans (h.running j ticket act hstays)
    exact absurd (h.distinct j i _ c _ turn hstays hc rfl hturn hticket.symm) hne

theorem Ticketed.enqueue {operation : Mutation} (h : Ticketed s)
    (hc : s.calls[i]? = some (.mutation operation)) :
    Ticketed ⟨(enqueue s.store operation).1,
      s.calls.set i (enqueue s.store operation).2⟩ := by
  have hlast : ∀ other last, (StreamProxy.enqueue s.store operation).1.lastRequest other =
      some last → (other = operation.stream ∧ last = ⟨operation.removal, s.store.nextTicket⟩) ∨
        (other ≠ operation.stream ∧ s.store.lastRequest other = some last) := by
    intro other last hsome
    change (if other = operation.stream then
      some (⟨operation.removal, s.store.nextTicket⟩ : Request)
        else s.store.lastRequest other) = some last at hsome
    split at hsome
    · rename_i heq
      exact .inl ⟨heq, (Option.some.inj hsome).symm⟩
    · rename_i hne
      exact .inr ⟨hne, hsome⟩
  have hissued := h.issued
  refine ⟨Nat.le_succ_of_le h.bound, fun other last hsome => ?_, fun j c' turn hc' hturn => ?_,
    fun j k c₁ c₂ t₁ t₂ h₁ h₂ ht₁ ht₂ heq => ?_, fun j ticket act hc' => ?_⟩
  · rcases hlast other last hsome with ⟨-, rfl⟩ | ⟨-, hold⟩
    · exact Nat.lt_succ_self _
    · exact Nat.lt_succ_of_lt (h.issued other last hold)
  · rcases getElem?_set_cases hc' with ⟨rfl, rfl⟩ | ⟨-, hold⟩
    · obtain rfl := Option.some.inj hturn
      refine ⟨h.bound, Nat.lt_succ_self _, ⟨_, if_pos rfl, Nat.le_refl _⟩,
        fun other last hsome hticket => ?_⟩
      rcases hlast other last hsome with ⟨rfl, rfl⟩ | ⟨-, hold⟩
      · exact ⟨rfl, rfl⟩
      · have hlt := hissued other last hold
        have hticket : last.ticket = s.store.nextTicket := hticket
        omega
    · obtain ⟨hwaiting, hbelow, ⟨request, hrequest, hle⟩, hrequests⟩ :=
        h.turn j c' turn hold hturn
      refine ⟨hwaiting, Nat.lt_succ_of_lt hbelow, ?_, fun other last hsome hticket => ?_⟩
      · by_cases hstream : turn.stream = operation.stream
        · exact ⟨_, if_pos hstream, Nat.le_of_lt hbelow⟩
        · exact ⟨request, (if_neg hstream).trans hrequest, hle⟩
      · rcases hlast other last hsome with ⟨-, rfl⟩ | ⟨-, hstays⟩
        · have hticket : s.store.nextTicket = turn.ticket := hticket
          omega
        · exact hrequests other last hstays hticket
  · rcases getElem?_set_cases h₁ with ⟨rfl, rfl⟩ | ⟨-, hold₁⟩
    · rcases getElem?_set_cases h₂ with ⟨rfl, rfl⟩ | ⟨-, hold₂⟩
      · rfl
      · obtain rfl := Option.some.inj ht₁
        have hlt := (h.turn k c₂ t₂ hold₂ ht₂).issued
        have heq : s.store.nextTicket = t₂.ticket := heq
        omega
    · rcases getElem?_set_cases h₂ with ⟨rfl, rfl⟩ | ⟨-, hold₂⟩
      · obtain rfl := Option.some.inj ht₂
        have hlt := (h.turn j c₁ t₁ hold₁ ht₁).issued
        have heq : t₁.ticket = s.store.nextTicket := heq
        omega
      · exact h.distinct j k c₁ c₂ t₁ t₂ hold₁ hold₂ ht₁ ht₂ heq
  · rcases getElem?_set_cases hc' with ⟨-, hnew⟩ | ⟨-, hold⟩
    · cases hnew
    · exact h.running j ticket act hold

theorem Ticketed.add (h : Ticketed s) (hnew : c.turn = none) :
    Ticketed ⟨s.store, s.calls ++ [c]⟩ := by
  have hold : ∀ (j : Nat) (c' : StreamCall) (turn : Turn), (s.calls ++ [c])[j]? = some c' →
      c'.turn = some turn → s.calls[j]? = some c' := by
    intro j c' turn hc' hturn
    rcases getElem?_concat_cases hc' with hstays | ⟨-, rfl⟩
    · exact hstays
    · rw [hnew] at hturn
      cases hturn
  refine ⟨h.bound, h.issued, fun j c' turn hc' hturn => ?_,
    fun j k c₁ c₂ t₁ t₂ h₁ h₂ ht₁ ht₂ heq => ?_, fun j ticket act hc' => ?_⟩
  · exact h.turn j c' turn (hold j c' turn hc' hturn) hturn
  · exact h.distinct j k c₁ c₂ t₁ t₂ (hold j c₁ t₁ h₁ ht₁) (hold k c₂ t₂ h₂ ht₂) ht₁ ht₂ heq
  · exact h.running j ticket act (hold j _ ⟨ticket, act.record.id, false⟩ hc' rfl)

/-! ## The invariant -/

structure Tracked (s : ProxyState) : Prop where
  owned : Owned s
  ticketed : Ticketed s
  removed : ∀ id, s.store.removed id = true →
    (∀ (i : Nat) (c : StreamCall) (act : Activation), s.calls[i]? = some c →
      c.activation = some act → act.record.id ≠ id) ∧ ∀ p, s.store.runtimes p id = none

theorem SameChain.removed (hd : SameChain d e) (id : Nat) : e.removed id = d.removed id := by
  rw [ProxyStore.removed, ProxyStore.removed, hd.lastRequest, hd.serving]

/-- A removed stream stays without a listener when another one is activated. -/
theorem Tracked.stays_removed (h : Tracked s) (hc : s.calls[i]? = some c)
    (hd : Slotwise (Slots id) s.store d) (hlive : s.store.removed id = false)
    (hremoved : ∀ other, d.removed other = true → s.store.removed other = true)
    (hnext : ∀ act, n.activation = some act → act.record.id = id) :
    ∀ other, d.removed other = true →
      (∀ (j : Nat) (c' : StreamCall) (act : Activation), (s.calls.set i n)[j]? = some c' →
        c'.activation = some act → act.record.id ≠ other) ∧ ∀ p, d.runtimes p other = none := by
  intro other hother
  have hbefore := hremoved other hother
  obtain ⟨hquiet, hnone⟩ := h.removed other hbefore
  have hne : other ≠ id := by
    rintro rfl
    rw [hlive] at hbefore
    cases hbefore
  refine ⟨fun j c' act hc' hact => ?_, fun p => ?_⟩
  · rcases getElem?_set_cases hc' with ⟨rfl, rfl⟩ | ⟨-, hold⟩
    · rw [hnext act hact]
      exact Ne.symm hne
    · exact hquiet j c' act hold hact
  · rw [hd.runtimes p other (slots_ne hne p)]
    exact hnone p

/-- What lets the call run `applyNow`: its turn in the chain, or its loop. -/
def Owner.Holds (d : ProxyStore) (c : StreamCall) (id : Nat) : Owner → Prop
  | .chain ticket => c.turn = some ⟨ticket, id, false⟩ ∧ d.serving = ticket
  | .loop .. => c.turn = none

/-- The call whose turn it is has not been followed by a removal that has run. -/
theorem TurnFits.not_removed {turn : Turn} (h : TurnFits d turn) :
    d.removed turn.stream = false := by
  obtain ⟨last, hlast, hle⟩ := h.requested
  have hwaiting := h.waiting
  have hnot : ¬last.ticket < d.serving := by omega
  rw [ProxyStore.removed, hlast, Option.any_some, decide_eq_false hnot, Bool.and_false]

/-- When an operation of the chain is over, no stream but its own can be one that was removed. -/
theorem TurnFits.served_removed {turn : Turn} (h : TurnFits d turn)
    (hserving : d.serving = turn.ticket) {other : Nat}
    (hremoved : ({ d with serving := turn.ticket + 1 } : ProxyStore).removed other = true) :
    d.removed other = true ∨ (other = turn.stream ∧ turn.removal = true) := by
  obtain ⟨last, hlast, hboth⟩ := (Option.any_eq_true ..).mp hremoved
  rw [Bool.and_eq_true] at hboth
  have hlt : last.ticket < turn.ticket + 1 := of_decide_eq_true hboth.2
  by_cases heq : last.ticket = turn.ticket
  · obtain ⟨hstream, hremoval⟩ := h.last other last hlast heq
    exact .inr ⟨hstream, hremoval.symm.trans hboth.1⟩
  · refine .inl ((Option.any_eq_true ..).mpr ⟨last, hlast, ?_⟩)
    rw [hserving, hboth.1, Bool.true_and]
    exact decide_eq_true (by omega)

theorem slotwise_serving (serving : Nat) : Slotwise P d { d with serving } :=
  ⟨fun _ _ _ => rfl, fun _ _ => Iff.rfl, fun h => ⟨h.1, h.2⟩⟩

theorem Tracked.settle {owner : Owner} {r : ProxyStore × Outcome} (h : Tracked s)
    (hc : s.calls[i]? = some c) (howner : owner.Holds s.store c id)
    (hothers : ∀ (j : Nat) (c' : StreamCall) (act : Activation), j ≠ i → s.calls[j]? = some c' →
      c'.activation = some act → act.record.id ≠ id)
    (hnow : ∀ act, c.activation = some act → act.record.id = id)
    (hlive : s.store.removed id = false)
    (hfits : OutcomeFits r.1 id r.2) (htouches : Touches (Slots id) s.store r.1) :
    Tracked ⟨(settle owner r).1, s.calls.set i (settle owner r).2⟩ := by
  obtain ⟨d, outcome⟩ := r
  have hsame : ∀ other, d.removed other = true → s.store.removed other = true := by
    intro other hother
    rw [htouches.toSameChain.removed] at hother
    exact hother
  cases outcome with
  | pending act =>
      obtain ⟨hid, hact⟩ := hfits
      have hnext : ∀ next, (StreamCall.applying owner act).activation = some next →
          next.record.id = id ∧ ActFits d next := by
        rintro next ⟨⟩
        exact ⟨hid, hact⟩
      refine ⟨h.owned.replace hc htouches.toSlotwise hothers hnow hnext
          fun hnone => (by cases hnone),
        h.ticketed.pass hc htouches.toSameChain (fun turn hturn => ?_)
          fun ticket next hrunning => ?_,
        h.stays_removed hc htouches.toSlotwise hlive hsame fun next hnew => (hnext next hnew).1⟩
      · cases owner with
        | chain ticket =>
            rw [← hturn, howner.1, ← hid]
            rfl
        | loop rest forceTls => cases hturn
      · obtain ⟨rfl, -⟩ := StreamCall.applying.inj hrunning
        exact howner.2
  | settled succeeded =>
      have hclosed : Closed d id := hfits
      cases owner with
      | chain ticket =>
          have hd := htouches.toSlotwise.trans (slotwise_serving (d := d) (ticket + 1))
          have hdone := hclosed.untouched (P := fun _ _ => False)
            (slotwise_serving (d := d) (ticket + 1)) fun _ hfalse => hfalse
          obtain ⟨hturn, hserving⟩ := howner
          refine ⟨h.owned.replace (n := .done) hc hd hothers hnow (fun _ hnone => ?_)
              fun _ => hdone,
            h.ticketed.served (n := .done) hc hturn hserving htouches.toSameChain rfl,
            h.stays_removed (n := .done) hc hd hlive (fun other hother => ?_)
              fun _ hnone => ?_⟩
          · cases hnone
          · have hturnfits := h.ticketed.turn i c _ hc hturn
            have hserved : ({ s.store with serving := ticket + 1 } : ProxyStore).removed other =
                true := by
              rw [ProxyStore.removed, ← htouches.lastRequest]
              exact hother
            rcases hturnfits.served_removed hserving hserved with hbefore | ⟨-, hremoval⟩
            · exact hbefore
            · cases hremoval
          · cases hnone
      | loop rest forceTls =>
          have hdone : ∀ n : StreamCall, n.activation = none → n.turn = none →
              (∀ ticket act, n ≠ .applying (.chain ticket) act) →
              Tracked ⟨d, s.calls.set i n⟩ := by
            intro n hnone hturn hnot
            have hnext : ∀ act, n.activation = some act → act.record.id = id ∧ ActFits d act := by
              intro act hact
              rw [hnone] at hact
              cases hact
            refine ⟨h.owned.replace hc htouches.toSlotwise hothers hnow hnext fun _ => hclosed,
              h.ticketed.pass hc htouches.toSameChain (fun turn hsome => ?_)
                fun ticket act heq => absurd heq (hnot ticket act),
              h.stays_removed hc htouches.toSlotwise hlive hsame fun act hact =>
                (hnext act hact).1⟩
            rw [hturn] at hsome
            cases hsome
          rw [StreamProxy.settle.eq_def]
          dsimp only
          split
          · exact hdone .done rfl rfl fun _ _ => StreamCall.noConfusion
          · exact hdone (.loop rest forceTls) rfl rfl fun _ _ => StreamCall.noConfusion

/-- `remove` runs. -/
theorem Tracked.remove {ticket : Nat} (h : Tracked s)
    (hc : s.calls[i]? = some (.queued ticket (.remove id))) (hserving : s.store.serving = ticket)
    (hquiet : Quiet s id = true) :
    Tracked ⟨removeNow s.store id ticket, s.calls.set i .done⟩ := by
  have hothers := quiet_iff.mp hquiet
  have hclosed := h.owned.idle id hothers
  obtain ⟨-, htcp, htouches⟩ := stop_spec (hclosed .tcp)
  obtain ⟨-, hudp, htouches'⟩ := stop_spec ((hclosed.stop .tcp) .udp)
  have hstopped := htouches.slots.trans htouches'.slots
  have hserved := slotwise_serving (d := stop (stop s.store .tcp id) .udp id) (ticket + 1)
    (P := Slots id)
  have hd := hstopped.toSlotwise.trans hserved
  have hdone : Closed (removeNow s.store id ticket) id :=
    ((hclosed.stop .tcp).stop .udp).untouched (P := fun _ _ => False) (slotwise_serving _)
      fun _ hfalse => hfalse
  have hnone : ∀ p, (removeNow s.store id ticket).runtimes p id = none := by
    intro p
    cases p with
    | tcp => exact (htouches'.runtimes .tcp id (slot_ne StreamProtocol.noConfusion)).trans htcp
    | udp => exact hudp
  have hturn := h.ticketed.turn i _ _ hc rfl
  refine ⟨h.owned.replace (n := .done) hc hd (fun j c' act _ hc' hact => hothers j c' act hc' hact)
      (fun act hact => by cases hact) (fun act hact => by cases hact) fun _ => hdone,
    h.ticketed.served (n := .done) hc rfl hserving hstopped.toSameChain rfl, fun other hother => ?_⟩
  have hbefore : s.store.removed other = true ∨ other = id := by
    have hserved : ({ s.store with serving := ticket + 1 } : ProxyStore).removed other = true := by
      rw [ProxyStore.removed, ← hstopped.lastRequest]
      exact hother
    exact (hturn.served_removed hserving hserved).imp_right And.left
  have hstays : ∀ (j : Nat) (c' : StreamCall) (act : Activation),
      (s.calls.set i .done)[j]? = some c' → c'.activation = some act →
        s.calls[j]? = some c' := by
    intro j c' act hc' hact
    rcases getElem?_set_cases hc' with ⟨rfl, rfl⟩ | ⟨-, hold⟩
    · cases hact
    · exact hold
  by_cases hid : other = id
  · rw [hid]
    exact ⟨fun j c' act hc' hact => hothers j c' act (hstays j c' act hc' hact) hact, hnone⟩
  · obtain ⟨hno, hempty⟩ := h.removed other (hbefore.resolve_right hid)
    exact ⟨fun j c' act hc' hact => hno j c' act (hstays j c' act hc' hact) hact,
      fun p => (hd.runtimes p other (slots_ne hid p)).trans (hempty p)⟩

/-! ## One step -/

theorem Tracked.add (h : Tracked s) (hact : c.activation = none) (hturn : c.turn = none) :
    Tracked ⟨s.store, s.calls ++ [c]⟩ := by
  refine ⟨h.owned.add hact, h.ticketed.add hturn, fun other hother => ?_⟩
  obtain ⟨hquiet, hnone⟩ := h.removed other hother
  refine ⟨fun j c' act hc' hsome => ?_, hnone⟩
  rcases getElem?_concat_cases hc' with hold | ⟨-, rfl⟩
  · exact hquiet j c' act hold hsome
  · rw [hact] at hsome
    cases hsome

/-- A call without a stream and a turn goes on without them. -/
theorem Tracked.pass (h : Tracked s) (hc : s.calls[i]? = some c) (hact : c.activation = none)
    (hnext : n.activation = none) (hturn : n.turn = none) :
    Tracked ⟨s.store, s.calls.set i n⟩ := by
  refine ⟨h.owned.pass hc Touches.refl.toSlotwise hact hnext,
    h.ticketed.pass hc ⟨rfl, rfl, rfl⟩ (fun turn hsome => ?_) fun ticket act heq => ?_,
    fun other hother => ?_⟩
  · rw [hturn] at hsome
    cases hsome
  · rw [heq] at hnext
    cases hnext
  · obtain ⟨hquiet, hnone⟩ := h.removed other hother
    refine ⟨fun j c' act hc' hsome => ?_, hnone⟩
    rcases getElem?_set_cases hc' with ⟨rfl, rfl⟩ | ⟨-, hold⟩
    · rw [hnext] at hsome
      cases hsome
    · exact hquiet j c' act hold hsome

theorem Tracked.enqueue {operation : Mutation} (h : Tracked s)
    (hc : s.calls[i]? = some (.mutation operation)) :
    Tracked ⟨(enqueue s.store operation).1, s.calls.set i (enqueue s.store operation).2⟩ := by
  have hd : Slotwise (fun _ _ => False) s.store (StreamProxy.enqueue s.store operation).1 :=
    ⟨fun _ _ _ => rfl, fun _ _ => Iff.rfl, fun h => ⟨h.1, h.2⟩⟩
  refine ⟨h.owned.pass hc hd rfl rfl, h.ticketed.enqueue hc, fun other hother => ?_⟩
  obtain ⟨last, hlast, hboth⟩ := (Option.any_eq_true ..).mp hother
  have hbound := h.ticketed.bound
  rw [Bool.and_eq_true] at hboth
  have hlt : last.ticket < s.store.serving := of_decide_eq_true hboth.2
  change (if other = operation.stream then
    some (⟨operation.removal, s.store.nextTicket⟩ : Request)
      else s.store.lastRequest other) = some last at hlast
  split at hlast
  · -- the new request has not had its turn
    obtain rfl := Option.some.inj hlast
    have hlt : s.store.nextTicket < s.store.serving := hlt
    omega
  · obtain ⟨hquiet, hnone⟩ := h.removed other ((Option.any_eq_true ..).mpr ⟨last, hlast, by
      rw [Bool.and_eq_true]
      exact ⟨hboth.1, decide_eq_true hlt⟩⟩)
    refine ⟨fun j c' act hc' hsome => ?_, hnone⟩
    rcases getElem?_set_cases hc' with ⟨rfl, rfl⟩ | ⟨-, hold⟩
    · cases hsome
    · exact hquiet j c' act hold hsome

/-- An activation begins. -/
theorem Tracked.begin (owner : Owner) (record : StreamRecord) {forceTls succeeds : Bool}
    (h : Tracked s)
    (hc : s.calls[i]? = some c) (hact : c.activation = none)
    (howner : owner.Holds s.store c record.id) (hquiet : Quiet s record.id = true)
    (hlive : s.store.removed record.id = false) :
    Tracked ⟨(StreamProxy.settle owner (applyNow s.store record forceTls succeeds)).1,
      s.calls.set i (StreamProxy.settle owner (applyNow s.store record forceTls succeeds)).2⟩ := by
  have hothers := quiet_iff.mp hquiet
  obtain ⟨hfits, htouches⟩ := applyNow_spec (h.owned.idle record.id hothers) forceTls succeeds
  refine h.settle hc howner (fun j c' act _ hc' hsome => hothers j c' act hc' hsome)
    (fun act hsome => ?_) hlive hfits htouches
  rw [hact] at hsome
  cases hsome

theorem Tracked.call {e : StreamEvent} {r : ProxyStore × StreamCall} (h : Tracked s)
    (hc : s.calls[i]? = some c) (halone : ∀ id, c.begins s.store = some id →
      Quiet s id = true ∧ (c.loops && s.store.removed id) = false)
    (hstep : callStep s.store c e = some r) : Tracked ⟨r.1, s.calls.set i r.2⟩ := by
  rw [callStep.eq_def] at hstep
  split at hstep
  · obtain rfl := Option.some.inj hstep
    exact h.enqueue hc
  · rename_i ticket operation succeeds
    split at hstep
    · cases hstep
    · rename_i hserving
      have hserving : s.store.serving = ticket := Decidable.not_not.mp hserving
      obtain ⟨hquiet, -⟩ := halone operation.stream (if_pos hserving)
      have hturn := h.ticketed.turn i _ _ hc rfl
      split at hstep
      · obtain rfl := Option.some.inj hstep
        exact Tracked.begin (.chain ticket) _ h hc rfl ⟨rfl, hserving⟩ hquiet hturn.not_removed
      · obtain rfl := Option.some.inj hstep
        exact h.remove hc hserving hquiet
  · obtain rfl := Option.some.inj hstep
    exact h.pass hc rfl rfl rfl
  · obtain rfl := Option.some.inj hstep
    exact h.pass hc rfl rfl rfl
  · obtain rfl := Option.some.inj hstep
    exact h.pass hc rfl rfl rfl
  · split at hstep
    · rename_i hlisted
      obtain rfl := Option.some.inj hstep
      obtain ⟨hquiet, hlive⟩ := halone _ (if_pos hlisted)
      exact Tracked.begin (.loop _ _) _ h hc rfl rfl hquiet hlive
    · obtain rfl := Option.some.inj hstep
      exact h.pass hc rfl rfl rfl
  · rename_i owner act succeeds
    obtain ⟨next, hnext, rfl⟩ := Option.map_eq_some_iff.mp hstep
    obtain ⟨hfits, htouches⟩ := activationStep_spec (h.owned.fits i _ act hc rfl) hnext
    refine h.settle hc ?_ (fun j c' act' hne hc' hact heq => ?_) (fun act' hact => ?_) ?_ hfits
      htouches
    · cases owner with
      | chain ticket => exact ⟨rfl, h.ticketed.running i ticket act hc⟩
      | loop rest forceTls => exact rfl
    · exact hne (h.owned.alone j i c' _ act' act hc' hc hact rfl heq)
    · rw [Option.some.inj hact]
    · refine (Bool.not_eq_true _).mp fun hremoved => ?_
      exact (h.removed _ hremoved).1 i _ act hc rfl rfl
  · cases hstep

theorem Tracked.step {a : ProxyAction} (h : Tracked s) (ha : BeginsAlone s a)
    (hstep : proxyStep s a = some t) : Tracked t := by
  cases a with
  | start c =>
      rw [proxyStep, Calls.step] at hstep
      split at hstep
      · rename_i hstarts
        obtain rfl := Option.some.inj hstep
        cases c with
        | mutation operation => exact h.add rfl rfl
        | all forceTls => exact h.add rfl rfl
        | _ => cases hstarts
      · cases hstep
  | call i e =>
      obtain ⟨c, hc, hstep⟩ := Option.bind_eq_some_iff.mp hstep
      obtain ⟨r, hr, rfl⟩ := Option.map_eq_some_iff.mp hstep
      refine h.call hc (fun id hbegins => ?_) hr
      rw [BeginsAlone, hc, Option.all_some, hbegins, Option.all_some, Bool.and_eq_true] at ha
      exact ⟨ha.1, (Bool.not_eq_true' _).mp ha.2⟩
  | world w => exact w.elim

/-! ## The law -/

theorem Owned.slot (h : Owned s) (p : StreamProtocol) (id : Nat) :
    ∃ opening : Option Listener, SlotOk s.store p id opening ∧ ∀ l, opening = some l →
      ∃ c ∈ s.calls, (c.activation.bind Activation.opening) = some l := by
  by_cases hquiet : Quiet s id = true
  · exact ⟨none, h.idle id (quiet_iff.mp hquiet) p, fun l hl => (by cases hl)⟩
  · rw [quiet_iff] at hquiet
    push Not at hquiet
    obtain ⟨i, c, act, hc, hact, rfl⟩ := hquiet
    obtain ⟨opening, hslot, hopening⟩ := (h.fits i c act hc hact).slot p
    refine ⟨opening, hslot, fun l hl => ⟨c, List.mem_of_getElem? hc, ?_⟩⟩
    rw [hact]
    exact hopening l hl

theorem Owned.live (h : Owned s) {listener : Listener} {p : StreamProtocol}
    (hregistered : s.store.registered listener p id) :
    listener ∈ s.store.listening ∧ listener.protocol = p ∧ listener.stream = id := by
  obtain ⟨opening, hslot, -⟩ := h.slot p id
  obtain ⟨runtime, hruntime, rfl⟩ := Option.map_eq_some_iff.mp hregistered
  obtain ⟨hin, hp, hid, -⟩ := hslot.entry runtime hruntime
  exact ⟨hin, hp, hid⟩

theorem Owned.same (h : Owned s) {p : StreamProtocol} {l l' : Listener}
    (hl : l ∈ s.store.listening) (hl' : l' ∈ s.store.listening) (hp : l.protocol = p)
    (hp' : l'.protocol = p) (hid : l.stream = id) (hid' : l'.stream = id) : l = l' := by
  obtain ⟨opening, hslot, -⟩ := h.slot p id
  rcases hslot.live l hl hp hid with ⟨runtime, hruntime, hlistener⟩ | hopening
  · rcases hslot.live l' hl' hp' hid' with ⟨runtime', hruntime', hlistener'⟩ | hopening'
    · obtain rfl := Option.some.inj (hruntime.symm.trans hruntime')
      exact hlistener.symm.trans hlistener'
    · rw [(hslot.opening l' hopening').1] at hruntime
      cases hruntime
  · rcases hslot.live l' hl' hp' hid' with ⟨runtime', hruntime', -⟩ | hopening'
    · rw [(hslot.opening l hopening).1] at hruntime'
      cases hruntime'
    · exact Option.some.inj (hopening.symm.trans hopening')

/-- A list of one repeated element without repetition is short. -/
theorem length_le_one {α : Type*} {l : List α} (hnodup : l.Nodup)
    (hsame : ∀ x ∈ l, ∀ y ∈ l, x = y) : l.length ≤ 1 := by
  cases l with
  | nil => exact Nat.zero_le 1
  | cons x rest =>
      cases rest with
      | nil => exact Nat.le_refl 1
      | cons y rest =>
          have hxy := hsame x List.mem_cons_self y (List.mem_cons_of_mem _ List.mem_cons_self)
          exact absurd (hxy ▸ List.mem_cons_self) (List.nodup_cons.mp hnodup).1

theorem Tracked.law (h : Tracked s) : ListenersMatch s := by
  have hslots := h.owned
  refine ⟨fun l hl => ?_, fun l p id q other hp hq => ?_, fun l p id => hslots.live,
    fun p id => ?_, fun id hremoved l hl hid => ?_, fun c hc act hact hphase => ?_⟩
  · obtain ⟨opening, hslot, hopening⟩ := hslots.slot l.protocol l.stream
    rcases hslot.live l hl rfl rfl with ⟨runtime, hruntime, hlistener⟩ | hthis
    · refine .inl ⟨l.protocol, l.stream, ?_⟩
      rw [ProxyStore.registered, hruntime, ← hlistener]
      rfl
    · exact .inr (hopening l hthis)
  · obtain ⟨-, hprotocol, hstream⟩ := hslots.live hp
    obtain ⟨-, hprotocol', hstream'⟩ := hslots.live hq
    exact ⟨hprotocol.symm.trans hprotocol', hstream.symm.trans hstream'⟩
  · refine length_le_one (hslots.fresh.nodup.filter _) fun l hl l' hl' => ?_
    obtain ⟨hin, hboth⟩ := List.mem_filter.mp hl
    obtain ⟨hin', hboth'⟩ := List.mem_filter.mp hl'
    obtain ⟨hp, hid⟩ := of_decide_eq_true hboth
    obtain ⟨hp', hid'⟩ := of_decide_eq_true hboth'
    exact hslots.same hin hin' hp hp' hid hid'
  · obtain ⟨hquiet, hnone⟩ := h.removed id hremoved
    rcases (hslots.idle id hquiet l.protocol).live l hl rfl hid with ⟨runtime, hruntime, -⟩ | hno
    · rw [hnone] at hruntime
      cases hruntime
    · cases hno
  · obtain ⟨i, hi⟩ := List.mem_iff_getElem?.mp hc
    have hfits := (hslots.fits i c act hi hact).phase
    rw [hphase] at hfits
    exact fun p previous hprevious hfailed => hfits.2 p previous hprevious hfailed

/-- While the activations of `start` and `reloadTlsStreams` meet no other of the same stream and
bring back no removed one, the listeners are those of the configuration. -/
theorem listeners_match (h : Reach proxyStep BeginsAlone StartsProxy s) : ListenersMatch s := by
  have htracked : Tracked s := by
    refine h.invariant (fun s hstart => ?_) fun s a t _ hs ha hstep => hs.step ha hstep
    obtain ⟨hruntimes, hlistening, hchain, hrequests, hcalls⟩ := hstart
    have hno : ∀ (i : Nat) (c : StreamCall), s.calls[i]? ≠ some c := by
      intro i c hc
      rw [hcalls] at hc
      cases hc
    have hfresh : Fresh s.store := by
      refine ⟨?_, ?_⟩
      · rw [hlistening]
        exact fun _ hl => (by cases hl)
      · rw [hlistening]
        exact List.nodup_nil
    have hempty : ∀ p id, SlotOk s.store p id none := by
      intro p id
      refine ⟨fun runtime hruntime => ?_, fun l hl => ?_, fun l hl => (by cases hl)⟩
      · rw [hruntimes] at hruntime
        cases hruntime
      · rw [hlistening] at hl
        cases hl
    refine ⟨⟨hfresh, fun i _ c _ _ _ hc => absurd hc (hno i c), fun i c _ hc => absurd hc (hno i c),
        fun id _ p => hempty p id⟩,
      ⟨Nat.le_of_eq hchain, fun id last hlast => ?_, fun i c _ hc => absurd hc (hno i c),
        fun i _ c _ _ _ hc => absurd hc (hno i c), fun i _ _ hc => absurd hc (hno i _)⟩,
      fun id hremoved => ?_⟩
    · rw [hrequests] at hlast
      cases hlast
    · rw [ProxyStore.removed, hrequests] at hremoved
      cases hremoved
  exact htracked.law

/-! ## Runs -/

def exampleStream : StreamRecord where
  id := 1
  incoming_port := 8443
  tcp_enabled := true
  udp_enabled := false
  forward_host := "127.0.0.1".toList
  forward_port := 25565
  certificate_id := some "cert".toList
  proxy_protocol := "none".toList
  incoming_proxy_protocol := false
  proxy_protocol_trusted_cidrs_json := "[]".toList

/-- On another port, and with UDP. -/
def changedStream : StreamRecord :=
  { exampleStream with incoming_port := 9443, udp_enabled := true }

def exampleProxy : ProxyState where
  store :=
    { runtimes := fun _ _ => none
      listening := []
      nextHandle := 0
      serving := 0
      nextTicket := 0
      lastRequest := fun _ => none }
  calls := []

theorem exampleProxy_starts : StartsProxy exampleProxy :=
  ⟨fun _ _ => rfl, rfl, rfl, fun _ => rfl, rfl⟩

/-- `apply` from its call to the end of a successful activation. -/
def appliedStream : List ProxyAction :=
  .start (.mutation (.apply exampleStream)) :: List.replicate 4 (.call 0 (.proceed true))

/-- The UDP socket of the changed stream cannot be opened. -/
def rolledBack : List ProxyAction :=
  appliedStream ++ [(.start (.mutation (.apply changedStream)) : ProxyAction)] ++
    List.replicate 4 (.call 1 (.proceed true) : ProxyAction) ++
      [(.call 1 (.proceed false) : ProxyAction)] ++
        List.replicate 3 (.call 1 (.proceed true) : ProxyAction)

theorem listeners_match_rolledBack :
    ∃ s, execIf proxyStep BeginsAlone exampleProxy rolledBack = some s ∧
      s.store.listening = [⟨2, .tcp, 1⟩] ∧
        (s.store.runtimes .tcp 1).map (·.record) = some exampleStream ∧ ListenersMatch s := by
  have hrun : (execIf proxyStep BeginsAlone exampleProxy rolledBack).any (fun s =>
      s.store.listening = [⟨2, .tcp, 1⟩] ∧
        (s.store.runtimes .tcp 1).map (·.record) = some exampleStream) = true := by
    decide +kernel
  obtain ⟨s, hs, hfacts⟩ := (Option.any_eq_true ..).mp hrun
  obtain ⟨hlistening, hrecord⟩ := of_decide_eq_true hfacts
  exact ⟨s, hs, hlistening, hrecord,
    listeners_match (execIf_reach (.start exampleProxy_starts) hs)⟩

/-- The stream is removed while `reloadTlsStreams` waits for its certificate. -/
def removedInReload : List ProxyAction :=
  appliedStream ++ [(.start (.all true) : ProxyAction), .call 1 (.listed [exampleStream]),
    .call 1 (.proceed true), .start (.mutation (.remove 1)), .call 2 (.proceed true),
    .call 2 (.proceed true), .call 1 (.proceed true)]

theorem removed_stream_listens :
    ¬ ∀ s, Reach proxyStep Any StartsProxy s → ListenersMatch s := by
  intro h
  have hrun : (exec proxyStep exampleProxy removedInReload).any (fun s =>
      s.store.listening = [⟨1, .tcp, 1⟩] ∧ s.store.removed 1 = true) = true := by
    decide +kernel
  obtain ⟨s, hs, hfacts⟩ := (Option.any_eq_true ..).mp hrun
  obtain ⟨hlistening, hremoved⟩ := of_decide_eq_true hfacts
  have hnone := (h s (exec_reach (.start exampleProxy_starts) hs)).removed 1 hremoved
  rw [hlistening] at hnone
  exact hnone _ List.mem_cons_self rfl

end BurrowGate.StreamProxy
