import BurrowGate.Firewall.SyncService

/-!
# The recorded hash and what the target holds

A provider's recorded hash stands for a list its target holds, but while a push waits to be
recorded. A call holds the rows it has read alone, so the hash it compares with is the row's.
-/

namespace BurrowGate.Firewall

open Lib.Run Lib.Lists Lib.Table Net

/-! ## The hash of a list -/

/-- Entries that `join(",")` keeps apart. -/
def PlainList (list : List (List Char)) : Prop := ∀ entry ∈ list, ',' ∉ entry ∧ entry ≠ []

theorem intercalate_ne_nil {entry : List Char} (h : entry ≠ []) (rest : List (List Char)) :
    [','].intercalate (entry :: rest) ≠ [] := by
  cases rest with
  | nil => simpa [List.intercalate] using h
  | cons next rest => simp [List.intercalate]

theorem intercalate_injective {a b : List (List Char)} (ha : PlainList a) (hb : PlainList b)
    (h : [','].intercalate a = [','].intercalate b) : a = b := by
  cases a with
  | nil =>
      cases b with
      | nil => rfl
      | cons entry rest =>
          exact absurd h.symm (intercalate_ne_nil (hb entry List.mem_cons_self).2 rest)
  | cons entry rest =>
      cases b with
      | nil => exact absurd h (intercalate_ne_nil (ha entry List.mem_cons_self).2 rest)
      | cons entry' rest' =>
          rw [← List.splitOn_intercalate ',' (fun e he => (ha e he).1)
              (List.cons_ne_nil entry rest), h, List.splitOn_intercalate ',' (fun e he => (hb e he).1) (List.cons_ne_nil _ _)]

theorem plain_aggregate {rows : List BannedCidrRow} (h : ∀ row ∈ rows, ',' ∉ row.networkCidr)
    (whitelist : List (List Char)) : PlainList (aggregateBannedCidrs rows whitelist) := by
  intro entry hentry
  obtain ⟨⟨row, hrow, rfl⟩, hpasses⟩ := mem_pushed.mp hentry
  refine ⟨h row hrow, fun hnil => ?_⟩
  rw [hnil, passes] at hpasses
  have hparse : parseCidr [] = none := by decide
  rw [hparse] at hpasses
  simp at hpasses

theorem PlainList.capped {desired : List (List Char)} (h : PlainList desired) (maxEntries : Int) :
    PlainList (cappedList maxEntries desired) :=
  fun entry hentry => h entry (List.mem_of_mem_take hentry)

variable {Target : Type} {adapters : FirewallSyncAdapters Target}
variable {s t : FirewallSyncState Target}

theorem listHash_injective (hsha : Function.Injective adapters.sha256Hex)
    {a b : List (List Char)} (ha : PlainList a) (hb : PlainList b)
    (h : listHash adapters a = listHash adapters b) : a = b :=
  intercalate_injective ha hb (hsha h)

/-! ## The invariant -/

/-- The lists a call carries are of plain entries. -/
def SyncCall.Plain (c : SyncCall) : Prop :=
  match c.stage with
  | .bans _ (some rows) _ => ∀ row ∈ rows, ',' ∉ row.networkCidr
  | .reconcile desired | .keep desired _ | .fail desired _ _ => PlainList desired
  | .push desired capped _ | .record desired capped _ => PlainList desired ∧ PlainList capped
  | _ => True

/-- The row is still what the call has read of it. -/
structure Current (adapters : FirewallSyncAdapters Target) (c : SyncCall)
    (provider row : FirewallSyncProviderRecord) : Prop where
  id : row.id = provider.id
  target : row.target adapters = provider.target adapters
  hash : (∀ capped, c.unrecorded? ≠ some (provider.id, capped)) →
    row.lastAppliedHash = provider.lastAppliedHash

structure CallKept (adapters : FirewallSyncAdapters Target)
    (rows : List FirewallSyncProviderRecord) (targets : Target → List (List Char))
    (c : SyncCall) : Prop where
  plain : c.Plain
  once : (c.todo.map (·.id)).Nodup
  current : ∀ provider ∈ c.todo, ∃ row ∈ rows, Current adapters c provider row
  pushed : ∀ provider ∈ c.todo, ∀ capped, c.unrecorded? = some (provider.id, capped) →
    targets (provider.target adapters) = capped

/-- The recorded hash is that of the list the target holds. -/
def HoldsRecorded (adapters : FirewallSyncAdapters Target) (targets : Target → List (List Char))
    (row : FirewallSyncProviderRecord) : Prop :=
  ∀ hash, row.lastAppliedHash = some hash →
    ∃ list, PlainList list ∧ hash = listHash adapters list ∧ targets (row.target adapters) = list

structure Truthful (adapters : FirewallSyncAdapters Target) (s : FirewallSyncState Target) :
    Prop where
  ids : (s.providers.map (·.id)).Nodup
  rules : ∀ rule ∈ s.ipRules ++ s.streamIpRules, rule.blocks = true → ',' ∉ rule.networkCidr
  calls : ∀ c ∈ s.calls, CallKept adapters s.providers s.targets c
  alone : ∀ (i j : Nat) (c d : SyncCall), s.calls[i]? = some c → s.calls[j]? = some d →
    ∀ provider ∈ c.todo, ∀ provider' ∈ d.todo, provider.id = provider'.id → i = j
  content : ∀ row ∈ s.providers,
    (∃ capped, (row.id, capped) ∈ s.unrecorded) ∨ HoldsRecorded adapters s.targets row
  unmistaken : Unmistaken adapters s.unrecorded s.providers s.desired
  needed : ∀ skip ∈ s.skipped, skip.held = skip.capped

variable {i : Nat} {c n : SyncCall}

theorem mem_unrecorded {e : List Char × List (List Char)} :
    e ∈ s.unrecorded ↔ ∃ c ∈ s.calls, c.unrecorded? = some e :=
  List.mem_filterMap

theorem unrecorded?_eq_some {e : List Char × List (List Char)} (h : c.unrecorded? = some e) :
    ∃ desired checkedAt provider rest, c.stage = .record desired e.2 checkedAt ∧
      c.todo = provider :: rest ∧ e.1 = provider.id := by
  rw [SyncCall.unrecorded?.eq_def] at h
  split at h
  · rename_i desired capped checkedAt provider rest hstage htodo
    obtain rfl := Option.some.inj h
    exact ⟨desired, checkedAt, provider, rest, hstage, htodo, rfl⟩
  · cases h

theorem Truthful.plain_bans (h : Truthful adapters s) (now : Nat) :
    ∀ row ∈ activeBannedCidrRows s.ipRules s.streamIpRules now, ',' ∉ row.networkCidr := by
  intro row hrow
  obtain ⟨rule, hrule, rfl⟩ := List.mem_map.mp hrow
  obtain ⟨hmem, hactive⟩ := List.mem_filter.mp hrule
  exact h.rules rule hmem ((Bool.and_eq_true_iff ..).mp hactive).1

theorem Truthful.plain_desired (h : Truthful adapters s) : PlainList s.desired :=
  plain_aggregate (h.plain_bans _) s.whitelist

/-! ## One call goes on -/

/-- A call goes on with rows it held or that no call holds; a push it leaves behind has been
recorded. -/
theorem Truthful.setCall (h : Truthful adapters s) (hc : s.calls[i]? = some c)
    (hkept : CallKept adapters s.providers s.targets n)
    (hsame : ∀ e, n.unrecorded? = some e → c.unrecorded? = some e)
    (hfree : ∀ provider ∈ n.todo, (∃ held ∈ c.todo, held.id = provider.id) ∨
      ∀ d ∈ s.calls, ∀ held ∈ d.todo, held.id ≠ provider.id)
    (hdone : ∀ e, c.unrecorded? = some e → n.unrecorded? = some e ∨
      ∀ row ∈ s.providers, row.id = e.1 → HoldsRecorded adapters s.targets row) :
    Truthful adapters (s.goOn i n) := by
  have hmem := List.mem_of_getElem? hc
  have hapart : ∀ (j : Nat) (d : SyncCall), j ≠ i → s.calls[j]? = some d → ∀ provider ∈ n.todo,
      ∀ provider' ∈ d.todo, provider.id ≠ provider'.id := by
    intro j d hne hd provider hprovider provider' hprovider' heq
    rcases hfree provider hprovider with ⟨held, hheld, hid⟩ | hnone
    · exact hne (h.alone i j c d hc hd held hheld provider' hprovider' (hid.trans heq)).symm
    · exact hnone d (List.mem_of_getElem? hd) provider' hprovider' heq.symm
  refine ⟨h.ids, h.rules, fun d hd => ?_, ?_, fun row hrow => ?_, ?_, h.needed⟩
  · rcases List.mem_or_eq_of_mem_set hd with hold | rfl
    · exact h.calls d hold
    · exact hkept
  · intro j k d e hd he provider hprovider provider' hprovider' heq
    rcases getElem?_set_cases hd with ⟨rfl, rfl⟩ | ⟨hj, hold⟩
    · rcases getElem?_set_cases he with ⟨rfl, -⟩ | ⟨hk, hold'⟩
      · rfl
      · exact absurd heq (hapart k e hk hold' provider hprovider provider' hprovider')
    · rcases getElem?_set_cases he with ⟨rfl, rfl⟩ | ⟨hk, hold'⟩
      · exact absurd heq.symm (hapart j d hj hold provider' hprovider' provider hprovider)
      · exact h.alone j k d e hold hold' provider hprovider provider' hprovider' heq
  · rcases h.content row hrow with ⟨capped, hwaits⟩ | hholds
    · obtain ⟨d, hd, hpushed⟩ := mem_unrecorded.mp hwaits
      obtain ⟨j, hj⟩ := List.getElem?_of_mem hd
      by_cases hij : j = i
      · subst hij
        obtain rfl := Option.some.inj (hc.symm.trans hj)
        rcases hdone _ hpushed with hstill | hholds
        · refine .inl ⟨capped, mem_unrecorded.mpr ⟨n, ?_, hstill⟩⟩
          exact List.mem_of_getElem? (List.getElem?_set_self (List.getElem?_eq_some_iff.mp hj).1)
        · exact .inr (hholds row hrow rfl)
      · refine .inl ⟨capped, mem_unrecorded.mpr ⟨d, ?_, hpushed⟩⟩
        exact List.mem_of_getElem? ((List.getElem?_set_ne (Ne.symm hij)).trans hj)
    · exact .inr hholds
  · intro e he
    obtain ⟨d, hd, hpushed⟩ := mem_unrecorded.mp he
    rcases List.mem_or_eq_of_mem_set hd with hold | rfl
    · exact h.unmistaken e (mem_unrecorded.mpr ⟨d, hold, hpushed⟩)
    · exact h.unmistaken e (mem_unrecorded.mpr ⟨c, hmem, hsame e hpushed⟩)

/-- A call that is not between a push and its record goes on with some of its rows. -/
theorem Truthful.goOn (h : Truthful adapters s) (hc : s.calls[i]? = some c)
    (hnone : c.unrecorded? = none) (hnone' : n.unrecorded? = none) (hplain : n.Plain)
    (hrest : n.todo.Sublist c.todo) : Truthful adapters (s.goOn i n) := by
  have hkept := h.calls c (List.mem_of_getElem? hc)
  refine h.setCall hc ⟨hplain, hkept.once.sublist (hrest.map _), fun provider hprovider => ?_, ?_⟩
    ?_ (fun provider hprovider => .inl ⟨provider, hrest.subset hprovider, rfl⟩) ?_
  · obtain ⟨row, hrow, hid, htarget, hhash⟩ := hkept.current provider (hrest.subset hprovider)
    refine ⟨row, hrow, hid, htarget, fun _ => hhash fun capped => ?_⟩
    rw [hnone]
    exact (Option.some_ne_none _).symm
  · intro provider _ capped hpushed
    rw [hnone'] at hpushed
    cases hpushed
  · intro e he
    rw [hnone'] at he
    cases he
  · intro e he
    rw [hnone] at he
    cases he

theorem Truthful.finish (h : Truthful adapters s) (hc : s.calls[i]? = some c)
    (hnone : c.unrecorded? = none) : Truthful adapters (s.finish i c) := by
  have ht := h.goOn (n := { c with todo := [], stage := .done }) hc hnone rfl trivial
    (List.nil_sublist _)
  exact ⟨ht.ids, ht.rules, ht.calls, ht.alone, ht.content, ht.unmistaken, ht.needed⟩

theorem Truthful.addCall (h : Truthful adapters s) (hplain : c.Plain) (hnone : c.unrecorded? = none)
    (htodo : c.todo = []) : Truthful adapters { s with calls := s.calls ++ [c] } := by
  refine ⟨h.ids, h.rules, fun d hd => ?_, ?_, fun row hrow => ?_, ?_, h.needed⟩
  · rcases List.mem_snoc.mp hd with hold | rfl
    · exact h.calls d hold
    · refine ⟨hplain, ?_, ?_, ?_⟩
      all_goals rw [htodo]
      · exact List.nodup_nil
      · exact fun _ hprovider => (by cases hprovider)
      · exact fun _ hprovider => (by cases hprovider)
  · intro j k d e hd he provider hprovider provider' hprovider' heq
    rcases getElem?_concat_cases hd with hd | ⟨-, rfl⟩
    · rcases getElem?_concat_cases he with he | ⟨-, rfl⟩
      · exact h.alone j k d e hd he provider hprovider provider' hprovider' heq
      · rw [htodo] at hprovider'
        cases hprovider'
    · rw [htodo] at hprovider
      cases hprovider
  · refine (h.content row hrow).imp_left fun ⟨capped, hwaits⟩ => ⟨capped, ?_⟩
    obtain ⟨d, hd, hpushed⟩ := mem_unrecorded.mp hwaits
    exact mem_unrecorded.mpr ⟨d, List.mem_append_left _ hd, hpushed⟩
  · intro e he
    obtain ⟨d, hd, hpushed⟩ := mem_unrecorded.mp he
    rcases List.mem_snoc.mp hd with hold | rfl
    · exact h.unmistaken e (mem_unrecorded.mpr ⟨d, hold, hpushed⟩)
    · rw [hnone] at hpushed
      cases hpushed

/-! ## The rows change -/

/-- A result is written: the hash is the one the row had, or that of the list just pushed. -/
theorem Truthful.writeResult (hsha : Function.Injective adapters.sha256Hex)
    (h : Truthful adapters s) (id : List Char) {hash : Option (List Char)}
    {f : FirewallSyncProviderRecord → FirewallSyncProviderRecord}
    (hid : ∀ row, (f row).id = row.id)
    (htarget : ∀ row, (f row).target adapters = row.target adapters)
    (hmax : ∀ row, (f row).maxEntries = row.maxEntries) (hf : ∀ row, (f row).lastAppliedHash = hash)
    (hhash : (∀ row ∈ s.providers, row.id = id → hash = row.lastAppliedHash) ∨
      ∃ list, PlainList list ∧ hash = some (listHash adapters list) ∧
        (∀ row ∈ s.providers, row.id = id → s.targets (row.target adapters) = list) ∧
        ∀ c ∈ s.calls, ∀ provider ∈ c.todo, provider.id = id → c.unrecorded? = some (id, list)) :
    Truthful adapters { s with providers := updateWhere (·.id) id f s.providers } := by
  refine ⟨?_, h.rules, fun c hc => ?_, h.alone, fun row hrow => ?_, ?_, h.needed⟩
  · change ((updateWhere (·.id) id f s.providers).map (·.id)).Nodup
    rw [map_key_updateWhere hid]
    exact h.ids
  · obtain ⟨hplain, honce, hcurrent, hpushed⟩ := h.calls c hc
    refine ⟨hplain, honce, fun provider hprovider => ?_, hpushed⟩
    obtain ⟨row, hrow, hrowId, hrowTarget, hrowHash⟩ := hcurrent provider hprovider
    by_cases heq : row.id = id
    · refine ⟨f row, updateWhere_mem hrow heq, (hid row).trans hrowId,
        (htarget row).trans hrowTarget, fun hno => ?_⟩
      rcases hhash with hsame | ⟨list, -, -, -, hwaits⟩
      · rw [hf, hsame row hrow heq]
        exact hrowHash hno
      · have hproviderId : provider.id = id := hrowId.symm.trans heq
        refine absurd (hwaits c hc provider hprovider hproviderId) ?_
        rw [← hproviderId]
        exact hno list
    · exact ⟨row, updateWhere_mem_of_ne hrow heq, hrowId, hrowTarget, hrowHash⟩
  · rcases mem_updateWhere hrow with ⟨hold, -⟩ | ⟨before, hbefore, heq, rfl⟩
    · exact h.content row hold
    · rcases hhash with hsame | ⟨list, hplain, rfl, hholds, -⟩
      · rw [hid]
        refine (h.content before hbefore).imp_right fun hrecorded value hvalue => ?_
        rw [hf, hsame before hbefore heq] at hvalue
        rw [htarget]
        exact hrecorded value hvalue
      · refine .inr fun value hvalue => ?_
        rw [hf] at hvalue
        rw [htarget]
        exact ⟨list, hplain, (Option.some.inj hvalue).symm, hholds before hbefore heq⟩
  · intro e he row hrow hrowId hcurrent
    rcases mem_updateWhere hrow with ⟨hold, -⟩ | ⟨before, hbefore, heq, rfl⟩
    · exact h.unmistaken e he row hold hrowId hcurrent
    · rw [hf, hmax] at hcurrent
      rw [hmax]
      rw [hid] at hrowId
      rcases hhash with hsame | ⟨list, hplain, rfl, -, hwaits⟩
      · rw [hsame before hbefore heq] at hcurrent
        exact h.unmistaken e he before hbefore hrowId hcurrent
      · obtain ⟨c, hc, hpushed⟩ := mem_unrecorded.mp he
        obtain ⟨_, _, provider, rest, -, htodo, hprovider⟩ := unrecorded?_eq_some hpushed
        have hwait := hwaits c hc provider (htodo ▸ List.mem_cons_self)
          (hprovider.symm.trans (hrowId.symm.trans heq))
        obtain rfl := Option.some.inj (hpushed.symm.trans hwait)
        exact listHash_injective hsha hplain ((h.plain_desired).capped _) (Option.some.inj hcurrent)

theorem Truthful.configure [DecidableEq Target] (h : Truthful adapters s) {id : List Char}
    {config : ProviderConfig}
    (hfresh : movesFresh adapters s id config = true)
    (hunmistaken : Unmistaken adapters s.unrecorded (writeConfig s.providers id config) s.desired) :
    Truthful adapters { s with providers := writeConfig s.providers id config } := by
  rw [movesFresh, List.all_eq_true] at hfresh
  -- what the condition says of the row that is written
  have hmoves : ∀ row ∈ s.providers, row.id = id →
      (row.configured config).target adapters = row.target adapters ∨
        (row.lastAppliedHash = none ∧ s.holds id = false) := by
    intro row hrow hid
    simpa [hid] using hfresh row hrow
  refine ⟨?_, h.rules, fun c hc => ?_, h.alone, fun row hrow => ?_, hunmistaken, h.needed⟩
  · have hkeys : (writeConfig s.providers id config).map (·.id) = s.providers.map (·.id) :=
      map_key_updateWhere fun _ => rfl
    change ((writeConfig s.providers id config).map (·.id)).Nodup
    rw [hkeys]
    exact h.ids
  · obtain ⟨hplain, honce, hcurrent, hpushed⟩ := h.calls c hc
    refine ⟨hplain, honce, fun provider hprovider => ?_, hpushed⟩
    obtain ⟨row, hrow, hrowId, hrowTarget, hrowHash⟩ := hcurrent provider hprovider
    by_cases heq : row.id = id
    · refine ⟨row.configured config, updateWhere_mem hrow heq, hrowId, ?_, hrowHash⟩
      rcases hmoves row hrow heq with hsame | ⟨-, hidle⟩
      · exact hsame.trans hrowTarget
      · have hheld : s.holds id = true := List.any_eq_true.mpr ⟨c, hc, List.any_eq_true.mpr
          ⟨provider, hprovider, decide_eq_true (hrowId.symm.trans heq)⟩⟩
        rw [hheld] at hidle
        cases hidle
    · exact ⟨row, updateWhere_mem_of_ne hrow heq, hrowId, hrowTarget, hrowHash⟩
  · rcases mem_updateWhere hrow with ⟨hold, -⟩ | ⟨before, hbefore, heq, rfl⟩
    · exact h.content row hold
    · rcases hmoves before hbefore heq with hsame | ⟨hnone, -⟩
      · refine (h.content before hbefore).imp_right fun hrecorded value hvalue => ?_
        rw [hsame]
        exact hrecorded value hvalue
      · refine .inr fun value hvalue => ?_
        have hvalue : before.lastAppliedHash = some value := hvalue
        rw [hnone] at hvalue
        cases hvalue

/-! ## A push -/

/-- The list reaches a target that no other provider names. -/
theorem Truthful.push [DecidableEq Target] (h : Truthful adapters s) (hc : s.calls[i]? = some c)
    {provider : FirewallSyncProviderRecord} {rest : List FirewallSyncProviderRecord}
    {desired capped : List (List Char)} {checkedAt : Nat}
    (hstage : c.stage = .push desired capped checkedAt) (htodo : c.todo = provider :: rest)
    (halone : ∀ row ∈ s.providers, row.id = provider.id ∨
      row.target adapters ≠ provider.target adapters)
    (hunmistaken : Unmistaken adapters [(provider.id, capped)] s.providers s.desired) :
    Truthful adapters { s.goOn i { c with stage := .record desired capped checkedAt } with
      targets := Function.update s.targets (provider.target adapters) capped } := by
  obtain ⟨hplain, honce, hcurrent, -⟩ := h.calls c (List.mem_of_getElem? hc)
  have hnone : c.unrecorded? = none := by
    simp [SyncCall.unrecorded?, hstage]
  have hpushed : ({ c with stage := .record desired capped checkedAt } : SyncCall).unrecorded? =
      some (provider.id, capped) := by
    simp [SyncCall.unrecorded?, htodo]
  have hslot : i < s.calls.length := (List.getElem?_eq_some_iff.mp hc).1
  have hhead : provider ∈ c.todo := htodo ▸ List.mem_cons_self
  -- no other call holds the provider, nor a row that names its target
  have hothers : ∀ (j : Nat) (d : SyncCall), j ≠ i → s.calls[j]? = some d →
      ∀ other ∈ d.todo, other.id ≠ provider.id := by
    intro j d hne hd other hother heq
    exact hne (h.alone j i d c hd hc other hother provider hhead heq)
  have hapart : ∀ (j : Nat) (d : SyncCall), j ≠ i → s.calls[j]? = some d →
      ∀ other ∈ d.todo, other.target adapters ≠ provider.target adapters := by
    intro j d hne hd other hother
    obtain ⟨row, hrow, hrowId, hrowTarget, -⟩ :=
      (h.calls d (List.mem_of_getElem? hd)).current other hother
    rw [← hrowTarget]
    exact (halone row hrow).resolve_left (hrowId ▸ hothers j d hne hd other hother)
  refine ⟨h.ids, h.rules, fun d hd => ?_, fun j k d e hd he provider₁ h₁ provider₂ h₂ heq => ?_,
    fun row hrow => ?_, fun e he => ?_, h.needed⟩
  · obtain ⟨j, hj⟩ := List.getElem?_of_mem hd
    rcases getElem?_set_cases hj with ⟨-, rfl⟩ | ⟨hne, hold⟩
    · refine ⟨?_, honce, fun other hother => ?_, fun other hother list hlist => ?_⟩
      · have hlists : c.Plain := hplain
        rw [SyncCall.Plain, hstage] at hlists
        exact hlists
      · obtain ⟨row, hrow, hrowId, hrowTarget, hrowHash⟩ := hcurrent other hother
        refine ⟨row, hrow, hrowId, hrowTarget, fun _ => hrowHash fun list => ?_⟩
        rw [hnone]
        exact (Option.some_ne_none _).symm
      · obtain ⟨hid, rfl⟩ := Prod.mk.inj (Option.some.inj (hpushed.symm.trans hlist))
        obtain rfl := List.inj_on_of_nodup_map honce hhead hother hid
        exact Function.update_self ..
    · obtain ⟨hplain', honce', hcurrent', hpushed'⟩ := h.calls d (List.mem_of_getElem? hold)
      refine ⟨hplain', honce', hcurrent', fun other hother list hlist => ?_⟩
      exact (Function.update_of_ne (hapart j d hne hold other hother) ..).trans
        (hpushed' other hother list hlist)
  · rcases getElem?_set_cases hd with ⟨rfl, rfl⟩ | ⟨-, hold⟩
    · rcases getElem?_set_cases he with ⟨rfl, rfl⟩ | ⟨-, hold'⟩
      · rfl
      · exact h.alone j k c e hc hold' provider₁ h₁ provider₂ h₂ heq
    · rcases getElem?_set_cases he with ⟨rfl, rfl⟩ | ⟨-, hold'⟩
      · exact h.alone j k d c hold hc provider₁ h₁ provider₂ h₂ heq
      · exact h.alone j k d e hold hold' provider₁ h₁ provider₂ h₂ heq
  · by_cases hid : row.id = provider.id
    · refine .inl ⟨capped, mem_unrecorded.mpr ⟨_, List.mem_of_getElem?
        (List.getElem?_set_self hslot), ?_⟩⟩
      rw [hid]
      exact hpushed
    · rcases h.content row hrow with ⟨list, hwaits⟩ | hholds
      · obtain ⟨d, hd, hlist⟩ := mem_unrecorded.mp hwaits
        obtain ⟨j, hj⟩ := List.getElem?_of_mem hd
        have hne : i ≠ j := by
          rintro rfl
          obtain rfl := Option.some.inj (hc.symm.trans hj)
          rw [hnone] at hlist
          cases hlist
        exact .inl ⟨list, mem_unrecorded.mpr ⟨d, List.mem_of_getElem?
          ((List.getElem?_set_ne hne).trans hj), hlist⟩⟩
      · refine .inr fun value hvalue => ?_
        obtain ⟨list, hlist, hhash, hheld⟩ := hholds value hvalue
        refine ⟨list, hlist, hhash, ?_⟩
        exact (Function.update_of_ne ((halone row hrow).resolve_left hid) ..).trans hheld
  · obtain ⟨d, hd, hlist⟩ := mem_unrecorded.mp he
    rcases List.mem_or_eq_of_mem_set hd with hold | rfl
    · exact h.unmistaken e (mem_unrecorded.mpr ⟨d, hold, hlist⟩)
    · obtain rfl := Option.some.inj (hpushed.symm.trans hlist)
      exact hunmistaken _ List.mem_cons_self

/-! ## The next provider -/

theorem Truthful.held_eq (h : Truthful adapters s) {row : FirewallSyncProviderRecord}
    (hrow : row ∈ s.providers) : s.held adapters row.id = s.targets (row.target adapters) := by
  have hfind : s.providers.find? (·.id = row.id) = some row := by
    cases hfound : s.providers.find? (·.id = row.id) with
    | none =>
        exact absurd rfl (of_decide_eq_false (Bool.eq_false_iff.mpr
          (List.find?_eq_none.mp hfound row hrow)))
    | some found =>
        have hid : found.id = row.id := by
          simpa using List.find?_some hfound
        rw [eq_of_key h.ids (List.mem_of_find?_eq_some hfound) hrow hid]
  rw [FirewallSyncState.held, hfind]
  rfl

/-- A push is skipped while the target holds the list. -/
theorem Truthful.reconcile (hsha : Function.Injective adapters.sha256Hex)
    (h : Truthful adapters s) (hc : s.calls[i]? = some c)
    {provider : FirewallSyncProviderRecord} {rest : List FirewallSyncProviderRecord}
    {desired : List (List Char)} (hstage : c.stage = .reconcile desired)
    (htodo : c.todo = provider :: rest) :
    Truthful adapters (reconcileProvider adapters s i c provider desired) := by
  have hmem := List.mem_of_getElem? hc
  have hnone : c.unrecorded? = none := by
    simp [SyncCall.unrecorded?, hstage]
  have hplain : PlainList desired := by
    have hlists := (h.calls c hmem).plain
    rw [SyncCall.Plain, hstage] at hlists
    exact hlists
  have hhead : provider ∈ c.todo := htodo ▸ List.mem_cons_self
  rw [reconcileProvider]
  split
  · rename_i hskip
    have ht := h.goOn (n := { c with stage := .keep desired s.now }) hc hnone rfl hplain
      (List.Sublist.refl _)
    refine ⟨ht.ids, ht.rules, ht.calls, ht.alone, ht.content, ht.unmistaken, fun skip hskip' => ?_⟩
    rcases List.mem_snoc.mp hskip' with hold | rfl
    · exact h.needed skip hold
    · obtain ⟨row, hrow, hrowId, -, hrowHash⟩ := (h.calls c hmem).current provider hhead
      have hhash : row.lastAppliedHash =
          some (listHash adapters (cappedList provider.maxEntries desired)) := by
        rw [hrowHash fun list => by rw [hnone]; exact (Option.some_ne_none _).symm]
        exact of_decide_eq_true (Bool.and_eq_true_iff.mp hskip).2
      rw [← hrowId, h.held_eq hrow]
      rcases h.content row hrow with ⟨list, hwaits⟩ | hholds
      · -- only this call holds the row, and it is not between a push and its record
        obtain ⟨d, hd, hlist⟩ := mem_unrecorded.mp hwaits
        obtain ⟨_, _, other, _, -, htodo', hother⟩ := unrecorded?_eq_some hlist
        obtain ⟨j, hj⟩ := List.getElem?_of_mem hd
        obtain rfl := h.alone j i d c hj hc other (htodo' ▸ List.mem_cons_self) provider hhead
          (hother.symm.trans hrowId)
        obtain rfl := Option.some.inj (hj.symm.trans hc)
        rw [hnone] at hlist
        cases hlist
      · obtain ⟨list, hlist, heq, hheld⟩ := hholds _ hhash
        rw [hheld]
        exact (listHash_injective hsha (hplain.capped _) hlist heq).symm
  · exact h.goOn hc hnone rfl ⟨hplain, hplain.capped _⟩ (List.Sublist.refl _)

/-! ## One step -/

/-- The hash of a provider that is being reconciled is the one that was read. -/
theorem Truthful.hash_eq (h : Truthful adapters s) (hc : c ∈ s.calls) (hnone : c.unrecorded? = none)
    {provider row : FirewallSyncProviderRecord} (hprovider : provider ∈ c.todo)
    (hrow : row ∈ s.providers) (hid : row.id = provider.id) :
    provider.lastAppliedHash = row.lastAppliedHash := by
  obtain ⟨found, hfound, hfoundId, -, hhash⟩ := (h.calls c hc).current provider hprovider
  obtain rfl := eq_of_key h.ids hrow hfound (hid.trans hfoundId.symm)
  refine (hhash fun list => ?_).symm
  rw [hnone]
  exact (Option.some_ne_none _).symm

/-- The result of a provider that was not pushed to is written, with the hash that was read. -/
theorem Truthful.writeBack (hsha : Function.Injective adapters.sha256Hex)
    (h : Truthful adapters s) (hc : s.calls[i]? = some c) (hnone : c.unrecorded? = none)
    {provider : FirewallSyncProviderRecord} {rest : List FirewallSyncProviderRecord}
    (htodo : c.todo = provider :: rest) {desired : List (List Char)} (hplain : PlainList desired)
    (checkedAt : Nat) (syncedAt : Option Nat) (status : Option FirewallSyncStatus)
    (error : Option (List Char)) (count : Nat) :
    Truthful adapters (s.writeResult i c desired provider.id
      (·.withResult checkedAt syncedAt status error count provider.lastAppliedHash)) := by
  have hwritten := h.writeResult hsha provider.id
    (f := (·.withResult checkedAt syncedAt status error count provider.lastAppliedHash))
    (fun _ => rfl) (fun _ => rfl) (fun _ => rfl) (fun _ => rfl)
    (.inl fun row hrow hid => h.hash_eq (List.mem_of_getElem? hc) hnone
      (htodo ▸ List.mem_cons_self) hrow hid)
  exact hwritten.goOn (n := { c with todo := c.todo.tail, stage := .reconcile desired }) hc hnone
    rfl hplain (List.tail_sublist _)

/-- The list pushed is recorded. -/
theorem Truthful.record (hsha : Function.Injective adapters.sha256Hex)
    (h : Truthful adapters s) (hc : s.calls[i]? = some c)
    {provider : FirewallSyncProviderRecord} {rest : List FirewallSyncProviderRecord}
    (htodo : c.todo = provider :: rest) {desired capped : List (List Char)} {checkedAt : Nat}
    (hstage : c.stage = .record desired capped checkedAt) :
    Truthful adapters (s.writeResult i c desired provider.id (·.withResult checkedAt
      (some checkedAt) (some .ok) none capped.length (some (listHash adapters capped)))) := by
  have hmem := List.mem_of_getElem? hc
  have hhead : provider ∈ c.todo := htodo ▸ List.mem_cons_self
  have hpushed : c.unrecorded? = some (provider.id, capped) := by
    simp [SyncCall.unrecorded?, hstage, htodo]
  have hlists : PlainList desired ∧ PlainList capped := by
    have hplain := (h.calls c hmem).plain
    rw [SyncCall.Plain, hstage] at hplain
    exact hplain
  have hheld : ∀ row ∈ s.providers, row.id = provider.id →
      s.targets (row.target adapters) = capped := by
    intro row hrow hid
    obtain ⟨found, hfound, hfoundId, htarget, -⟩ := (h.calls c hmem).current provider hhead
    obtain rfl := eq_of_key h.ids hrow hfound (hid.trans hfoundId.symm)
    rw [htarget]
    exact (h.calls c hmem).pushed provider hhead capped hpushed
  have hwritten := h.writeResult hsha provider.id
    (f := (·.withResult checkedAt (some checkedAt) (some .ok) none capped.length
      (some (listHash adapters capped))))
    (fun _ => rfl) (fun _ => rfl) (fun _ => rfl) (fun _ => rfl)
    (.inr ⟨capped, hlists.2, rfl, hheld, fun d hd other hother hid => by
      obtain ⟨j, hj⟩ := List.getElem?_of_mem hd
      obtain rfl := h.alone j i d c hj hc other hother provider hhead hid
      obtain rfl := Option.some.inj (hj.symm.trans hc)
      exact hpushed⟩)
  obtain ⟨-, honce, hcurrent, -⟩ := hwritten.calls c hmem
  refine hwritten.setCall (n := { c with todo := c.todo.tail, stage := .reconcile desired }) hc
    ⟨hlists.1, honce.sublist ((List.tail_sublist _).map _), fun other hother => ?_,
      fun other _ list hlist => ?_⟩
    (fun e he => ?_)
    (fun other hother => .inl ⟨other, List.mem_of_mem_tail hother, rfl⟩) (fun e he => .inr ?_)
  · obtain ⟨row, hrow, hid, htarget, hhash⟩ := hcurrent other (List.mem_of_mem_tail hother)
    refine ⟨row, hrow, hid, htarget, fun _ => hhash fun list hlist => ?_⟩
    -- the provider just recorded does not come again
    have hsame := (Prod.mk.inj (Option.some.inj (hpushed.symm.trans hlist))).1
    rw [htodo] at honce hother
    have hagain : other.id ∈ rest.map (·.id) := List.mem_map_of_mem hother
    rw [← hsame] at hagain
    exact (List.nodup_cons.mp honce).1 hagain
  · cases hlist
  · cases he
  · obtain rfl := Option.some.inj (hpushed.symm.trans he)
    intro row hrow hid value hvalue
    rcases mem_updateWhere hrow with ⟨-, hne⟩ | ⟨before, hbefore, heq, rfl⟩
    · exact absurd hid hne
    · exact ⟨capped, hlists.2, (Option.some.inj hvalue).symm, hheld before hbefore heq⟩

theorem not_holds {id : List Char} (h : s.holds id = false) :
    ∀ d ∈ s.calls, ∀ held ∈ d.todo, held.id ≠ id := by
  intro d hd held hheld heq
  have hholds : s.holds id = true := List.any_eq_true.mpr ⟨d, hd, List.any_eq_true.mpr
    ⟨held, hheld, decide_eq_true heq⟩⟩
  rw [hholds] at h
  cases h

/-- The rows are read while no other call holds them. -/
theorem Truthful.read (h : Truthful adapters s) (hc : s.calls[i]? = some c)
    (hnone : c.unrecorded? = none) {rows : List FirewallSyncProviderRecord}
    (hrows : rows.Sublist s.providers) (hfree : ∀ row ∈ rows, s.holds row.id = false)
    (readAt : Nat) :
    Truthful adapters (s.goOn i { c with todo := rows, stage := .bans readAt none none }) := by
  refine h.setCall hc ⟨trivial, h.ids.sublist (hrows.map _), fun row hrow => ?_,
    fun _ _ _ hlist => (by cases hlist)⟩ (fun _ he => (by cases he))
    (fun row hrow => .inr (not_holds (hfree row hrow))) fun e he => ?_
  · exact ⟨row, hrows.subset hrow, rfl, rfl, fun _ => rfl⟩
  · rw [hnone] at he
    cases he

theorem Truthful.advance [DecidableEq Target] (hsha : Function.Injective adapters.sha256Hex)
    (h : Truthful adapters s) (hc : s.calls[i]? = some c) (halone : reconcilesAlone adapters s c = true)
    (hstep : advanceSync adapters s i c = some t) : Truthful adapters t := by
  have hplain := (h.calls c (List.mem_of_getElem? hc)).plain
  rw [advanceSync.eq_def] at hstep
  rw [reconcilesAlone.eq_def] at halone
  split at hstep
  · rename_i hstage
    have hnone : c.unrecorded? = none := by
      simp [SyncCall.unrecorded?, hstage]
    simp only [hstage, List.all_eq_true] at halone
    dsimp only at hstep
    split at hstep
    · obtain rfl := Option.some.inj hstep
      exact h.finish hc hnone
    · obtain rfl := Option.some.inj hstep
      refine h.read hc hnone List.filter_sublist (fun row hrow => ?_) s.now
      obtain ⟨hrow, henabled⟩ := List.mem_filter.mp hrow
      simpa [henabled] using halone row hrow
  · rename_i id hstage
    have hnone : c.unrecorded? = none := by
      simp [SyncCall.unrecorded?, hstage]
    simp only [hstage, Bool.not_eq_true'] at halone
    cases hfind : s.providers.find? (·.id = id) with
    | none =>
        rw [hfind] at hstep
        obtain rfl := Option.some.inj hstep
        exact h.finish hc hnone
    | some provider =>
        rw [hfind] at hstep
        obtain rfl := Option.some.inj hstep
        have hid : provider.id = id := by
          simpa using List.find?_some hfind
        refine h.read hc hnone (List.singleton_sublist.mpr (List.mem_of_find?_eq_some hfind))
          (fun row hrow => ?_) s.now
        obtain rfl := List.mem_singleton.mp hrow
        rw [hid]
        exact halone
  · rename_i rows whitelist hstage
    obtain rfl := Option.some.inj hstep
    rw [SyncCall.Plain, hstage] at hplain
    exact h.goOn hc (by simp [SyncCall.unrecorded?, hstage]) rfl (plain_aggregate hplain whitelist)
      (List.Sublist.refl _)
  · rename_i hstage _
    obtain rfl := Option.some.inj hstep
    exact h.finish hc (by simp [SyncCall.unrecorded?, hstage])
  · rename_i hstage htodo
    obtain rfl := Option.some.inj hstep
    exact h.reconcile hsha hc hstage htodo
  · rename_i hstage htodo
    obtain rfl := Option.some.inj hstep
    rw [SyncCall.Plain, hstage] at hplain
    exact h.writeBack hsha hc (by simp [SyncCall.unrecorded?, hstage]) htodo hplain ..
  · rename_i hstage htodo
    obtain rfl := Option.some.inj hstep
    simp only [hstage, htodo, Bool.and_eq_true, List.all_eq_true, Bool.or_eq_true,
      decide_eq_true_eq] at halone
    exact h.push hc hstage htodo halone.1 halone.2
  · rename_i hstage htodo
    obtain rfl := Option.some.inj hstep
    exact h.record hsha hc htodo hstage
  · rename_i hstage htodo
    obtain rfl := Option.some.inj hstep
    rw [SyncCall.Plain, hstage] at hplain
    exact h.writeBack hsha hc (by simp [SyncCall.unrecorded?, hstage]) htodo hplain ..
  · cases hstep

theorem Truthful.reject [DecidableEq Target] (h : Truthful adapters s) (hc : s.calls[i]? = some c)
    {message : List Char} {left : List (List Char)}
    (hclean : failsCleanly adapters s left c = true)
    (hstep : rejectSync adapters s i c message left = some t) : Truthful adapters t := by
  have hplain := (h.calls c (List.mem_of_getElem? hc)).plain
  rw [rejectSync.eq_def] at hstep
  rw [failsCleanly.eq_def] at hclean
  split at hstep
  · rename_i hstage
    obtain rfl := Option.some.inj hstep
    exact h.finish hc (by simp [SyncCall.unrecorded?, hstage])
  · rename_i hstage
    obtain rfl := Option.some.inj hstep
    exact h.finish hc (by simp [SyncCall.unrecorded?, hstage])
  · rename_i hstage
    obtain rfl := Option.some.inj hstep
    exact h.finish hc (by simp [SyncCall.unrecorded?, hstage])
  · rename_i hstage htodo
    obtain rfl := Option.some.inj hstep
    rw [SyncCall.Plain, hstage] at hplain
    refine h.goOn hc (by simp [SyncCall.unrecorded?, hstage]) rfl hplain ?_
    rw [htodo]
    exact List.sublist_cons_self ..
  · rename_i hstage htodo
    obtain rfl := Option.some.inj hstep
    rw [SyncCall.Plain, hstage] at hplain
    refine h.goOn hc (by simp [SyncCall.unrecorded?, hstage]) rfl hplain ?_
    rw [htodo]
    exact List.sublist_cons_self ..
  · rename_i hstage htodo
    obtain rfl := Option.some.inj hstep
    simp only [hstage, htodo, decide_eq_true_eq] at hclean
    rw [SyncCall.Plain, hstage] at hplain
    rw [hclean, Function.update_eq_self]
    exact h.goOn hc (by simp [SyncCall.unrecorded?, hstage]) rfl hplain.1 (List.Sublist.refl _)
  · rename_i hstage htodo
    simp only [hstage, Bool.false_eq_true] at hclean
  · cases hstep

theorem Truthful.step [DecidableEq Target] {a : FirewallSyncAction}
    (hsha : Function.Injective adapters.sha256Hex) (h : Truthful adapters s)
    (hc : RecordsWhatItPushed adapters s a) (hstep : firewallSyncStep adapters s a = some t) :
    Truthful adapters t := by
  cases a with
  | pass ms =>
      obtain rfl := Option.some.inj hstep
      exact ⟨h.ids, h.rules, h.calls, h.alone, h.content, hc, h.needed⟩
  | setRules ipRules streamIpRules =>
      obtain rfl := Option.some.inj hstep
      refine ⟨h.ids, fun rule hrule hblocks => ?_, h.calls, h.alone, h.content, hc.2, h.needed⟩
      have hplain := List.all_eq_true.mp hc.1 rule hrule
      simpa [hblocks] using hplain
  | setWhitelist whitelist =>
      obtain rfl := Option.some.inj hstep
      exact ⟨h.ids, h.rules, h.calls, h.alone, h.content, hc, h.needed⟩
  | tick =>
      rw [firewallSyncStep] at hstep
      split at hstep
      · cases hstep
      · obtain rfl := Option.some.inj hstep
        have ht := h.addCall (c := ⟨false, [], .providers⟩) trivial rfl rfl
        exact ⟨ht.ids, ht.rules, ht.calls, ht.alone, ht.content, ht.unmistaken, ht.needed⟩
  | syncNow id =>
      obtain rfl := Option.some.inj hstep
      exact h.addCall trivial rfl rfl
  | readBans i =>
      obtain ⟨c, hslot, hstep⟩ := Option.bind_eq_some_iff.mp hstep
      split at hstep
      · rename_i readAt whitelist hstage
        obtain rfl := Option.some.inj hstep
        exact h.goOn hslot (by simp [SyncCall.unrecorded?, hstage]) rfl (h.plain_bans _)
          (List.Sublist.refl _)
      · cases hstep
  | readWhitelist i =>
      obtain ⟨c, hslot, hstep⟩ := Option.bind_eq_some_iff.mp hstep
      split at hstep
      · rename_i readAt rows hstage
        obtain rfl := Option.some.inj hstep
        have hplain := (h.calls c (List.mem_of_getElem? hslot)).plain
        rw [SyncCall.Plain, hstage] at hplain
        refine h.goOn hslot (by simp [SyncCall.unrecorded?, hstage]) rfl ?_ (List.Sublist.refl _)
        cases rows with
        | none => exact trivial
        | some rows => exact hplain
      · cases hstep
  | advance i =>
      obtain ⟨c, hslot, hstep⟩ := Option.bind_eq_some_iff.mp hstep
      rw [RecordsWhatItPushed, hslot] at hc
      exact h.advance hsha hslot hc hstep
  | reject i message left =>
      obtain ⟨c, hslot, hstep⟩ := Option.bind_eq_some_iff.mp hstep
      rw [RecordsWhatItPushed, hslot] at hc
      exact h.reject hslot hc hstep
  | update id input =>
      obtain ⟨existing, -, rfl⟩ := Option.map_eq_some_iff.mp hstep
      exact ⟨h.ids, h.rules, h.calls, h.alone, h.content, h.unmistaken, h.needed⟩
  | save i =>
      obtain ⟨u, hupdate, rfl⟩ := Option.map_eq_some_iff.mp hstep
      rw [RecordsWhatItPushed, hupdate, Option.all_some] at hc
      cases hwritten : u.written adapters s.whitelist with
      | none => exact ⟨h.ids, h.rules, h.calls, h.alone, h.content, h.unmistaken, h.needed⟩
      | some config =>
          rw [hwritten, Option.all_some, Bool.and_eq_true] at hc
          have ht := h.configure hc.1 (of_decide_eq_true hc.2)
          exact ⟨ht.ids, ht.rules, ht.calls, ht.alone, ht.content, ht.unmistaken, ht.needed⟩

/-! ## The law -/

theorem Truthful.truth (hsha : Function.Injective adapters.sha256Hex) (h : Truthful adapters s) :
    SyncTruth adapters s := by
  refine ⟨fun row hrow _ hcurrent => ?_, h.needed⟩
  rcases h.content row hrow with ⟨list, hwaits⟩ | hholds
  · obtain rfl : list = _ := h.unmistaken _ hwaits row hrow rfl hcurrent
    obtain ⟨c, hc, hpushed⟩ := mem_unrecorded.mp hwaits
    obtain ⟨_, _, provider, _, -, htodo, hid⟩ := unrecorded?_eq_some hpushed
    have hhead : provider ∈ c.todo := htodo ▸ List.mem_cons_self
    obtain ⟨found, hfound, hfoundId, htarget, -⟩ := (h.calls c hc).current provider hhead
    obtain rfl := eq_of_key h.ids hrow hfound (hid.trans hfoundId.symm)
    rw [htarget]
    exact (h.calls c hc).pushed provider hhead _ (hid ▸ hpushed)
  · obtain ⟨list, hlist, heq, hheld⟩ := hholds _ hcurrent
    rw [hheld]
    exact (listHash_injective hsha (h.plain_desired.capped _) hlist heq).symm

/-- While every reconciliation has its provider to itself, no provider that was pushed to is
moved to another target, and pushes fail without a trace and are recorded, the recorded hash
tells what the target holds. -/
theorem sync_hash_true {Target : Type} [DecidableEq Target]
    (adapters : FirewallSyncAdapters Target) (hsha : Function.Injective adapters.sha256Hex)
    {s : FirewallSyncState Target}
    (h : Reach (firewallSyncStep adapters) (RecordsWhatItPushed adapters) StartsSync s) :
    SyncTruth adapters s := by
  have htruthful : Truthful adapters s := by
    refine h.invariant (I := Truthful adapters) ?_ ?_
    · rintro s ⟨hids, hfresh, ⟨hip, hstream⟩, hcalls, -, hskipped⟩
      have hunrecorded : s.unrecorded = [] := by
        rw [FirewallSyncState.unrecorded, hcalls]
        rfl
      refine ⟨hids, ?_, ?_, ?_, fun row hrow => .inr fun value hvalue => ?_, ?_, ?_⟩
      · rw [hip, hstream]
        exact fun _ hrule => (by cases hrule)
      · rw [hcalls]
        exact fun _ hc => (by cases hc)
      · intro i j c d hc
        rw [hcalls] at hc
        cases hc
      · rw [hfresh row hrow] at hvalue
        cases hvalue
      · rw [hunrecorded]
        exact fun _ he => (by cases he)
      · rw [hskipped]
        exact fun _ hskip => (by cases hskip)
    · intro s a t _ hs hc hstep
      exact hs.step hsha hc hstep
  exact htruthful.truth hsha

/-! ## Runs -/

def exampleBan : List Char := "203.0.113.7/32".toList

/-- SHA-256 on the two texts that the runs hash, with no collision. -/
def exampleDigest (text : List Char) : List Char :=
  if text = exampleBan then
    "03e9b0664167dce62751988d76f8dceec60d4dd273bc61edfbb3fbb08dfc6ed3".toList
  else if text = [] then
    "e3b0c44298fc1c149afbf4c8996fb92427ae41e4649b934ca495991b7852b855".toList
  else 'x' :: text

/-- What `exampleDigest` was given, told by its first digit. -/
def examplePreimage (digest : List Char) : List Char :=
  if digest.head? = some '0' then exampleBan
  else if digest.head? = some 'e' then [] else digest.tail

theorem exampleDigest_injective : Function.Injective exampleDigest := by
  refine Function.LeftInverse.injective (g := examplePreimage) fun text => ?_
  unfold exampleDigest
  split
  · rename_i hban
    rw [hban]
    decide
  · split
    · rename_i hnil
      rw [hnil]
      decide
    · rfl

def unifiConfig (controller : List Char) : List Char :=
  "\x7b\"controllerUrl\":\"https://".toList ++ controller ++
    "\",\"apiBasePath\":\"/proxy/network\",\"site\":\"s\",\"listName\":\"l\",".toList ++
    "\"apiKeyEncrypted\":\"k\",\"verifyTls\":true\x7d".toList

/-- The input is sent in full, a target is a controller's list. -/
def exampleAdapters : FirewallSyncAdapters (List Char) where
  sha256Hex := exampleDigest
  buildConfigJson _ raw _ := some raw
  targetOf _ configJson := configJson

def exampleProvider : FirewallSyncProviderRecord where
  id := "firewall_sync_provider_1".toList
  name := "edge".toList
  type := .unifi
  enabled := true
  maxEntries := 5000
  configJson := unifiConfig "a.example".toList
  acknowledgedNoWhitelist := true
  lastCheckedAt := none
  lastSyncedAt := none
  lastSyncStatus := none
  lastSyncError := none
  lastAppliedCount := 0
  lastAppliedHash := none

def exampleSync : FirewallSyncState (List Char) where
  now := 0
  ipRules := []
  streamIpRules := []
  whitelist := []
  providers := [exampleProvider]
  targets _ := []
  running := false
  calls := []
  updates := []
  skipped := []

theorem exampleSync_starts : StartsSync exampleSync := by
  refine ⟨List.nodup_singleton _, fun row hrow => ?_, ⟨rfl, rfl⟩, rfl, rfl, rfl⟩
  obtain rfl := List.mem_singleton.mp hrow
  rfl

/-- The reads of the `i`-th call, a tick, up to its comparison. -/
def tickReads (i : Nat) : List FirewallSyncAction :=
  [.tick, .advance i, .readBans i, .readWhitelist i, .advance i, .advance i]

/-- One ban is pushed and recorded, the next tick has nothing to push. -/
def syncedTwice : List FirewallSyncAction :=
  FirewallSyncAction.setRules [⟨exampleBan, 1, true, none⟩] [] :: tickReads 0 ++
    [FirewallSyncAction.advance 0, .advance 0, .advance 0] ++ tickReads 1 ++
    [FirewallSyncAction.advance 1, .advance 1]

theorem sync_hash_true_twice :
    ∃ s, execIf (firewallSyncStep exampleAdapters) (RecordsWhatItPushed exampleAdapters)
        exampleSync syncedTwice = some s ∧
      s.skipped.map (·.held) = [[exampleBan]] ∧
      s.providers.map (·.lastSyncStatus) = [some .ok] ∧ SyncTruth exampleAdapters s := by
  have hrun : (execIf (firewallSyncStep exampleAdapters) (RecordsWhatItPushed exampleAdapters)
      exampleSync syncedTwice).any (fun s => s.skipped.map (·.held) = [[exampleBan]] ∧
        s.providers.map (·.lastSyncStatus) = [some .ok]) = true := by decide +kernel
  obtain ⟨s, hs, hfacts⟩ := (Option.any_eq_true ..).mp hrun
  obtain ⟨hheld, hok⟩ := of_decide_eq_true hfacts
  exact ⟨s, hs, hheld, hok, sync_hash_true exampleAdapters exampleDigest_injective
    (execIf_reach (.start exampleSync_starts) hs)⟩

/-- The controller is changed after the first tick; the second tick skips. -/
def reconfigured : List FirewallSyncAction :=
  FirewallSyncAction.setRules [⟨exampleBan, 1, true, none⟩] [] :: tickReads 0 ++
    [FirewallSyncAction.advance 0, .advance 0, .advance 0,
      .update "firewall_sync_provider_1".toList
        ⟨none, none, none, none, some (unifiConfig "b.example".toList)⟩, .save 0] ++ tickReads 1

theorem push_skipped :
    ¬ ∀ (Target : Type) (_ : DecidableEq Target) (adapters : FirewallSyncAdapters Target),
      Function.Injective adapters.sha256Hex → ∀ s : FirewallSyncState Target,
        Reach (firewallSyncStep adapters) Any StartsSync s → SyncTruth adapters s := by
  intro h
  have hrun : (exec (firewallSyncStep exampleAdapters) exampleSync reconfigured).any
      (fun s => s.skipped.map (fun skip => (skip.capped, skip.held)) = [([exampleBan], [])]) =
        true := by decide +kernel
  obtain ⟨s, hs, hfacts⟩ := (Option.any_eq_true ..).mp hrun
  have hskipped := of_decide_eq_true hfacts
  have htruth := h (List Char) inferInstance exampleAdapters exampleDigest_injective s
    (exec_reach (.start exampleSync_starts) hs)
  obtain ⟨skip, rest, hskip, hpair, -⟩ := List.map_eq_cons_iff.mp hskipped
  obtain ⟨hcapped, hheld⟩ := Prod.mk.inj hpair
  have hsame := htruth.needed skip (hskip ▸ List.mem_cons_self)
  rw [hcapped, hheld] at hsame
  cases hsame

end BurrowGate.Firewall
