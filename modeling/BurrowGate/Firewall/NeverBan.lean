import BurrowGate.Net.PrivateIp

/-!
# `firewall-sync-service.ts`: what is pushed

A ban is held back when its written address is private or its network lies in a
whitelisted one. A ban whose network contains a protected block is pushed.
-/

namespace BurrowGate.Firewall

open Net
open Lib.PrefixBlock

structure BannedCidrRow where
  networkCidr : List Char
  createdAt : Int

/-- The newest row of a text comes first; `sort` is stable. -/
def dedupeCidrsByRecency (rows : List BannedCidrRow) : List (List Char) :=
  (rows.mergeSort fun a b => b.createdAt ≤ a.createdAt).foldl
    (fun result row =>
      if result.contains row.networkCidr then result else result ++ [row.networkCidr]) []

/-- Is `candidate` entirely contained within (or equal to) `container`? -/
def cidrWithin (candidate container : ParsedCidr) : Bool :=
  if candidate.version ≠ container.version then false
  else if candidate.length < container.length then false
  else mask (candidate.bits - container.length) candidate.network = container.network

/-- `cidr.split("/")[0]` -/
def writtenAddress (cidr : List Char) : List Char := (cidr.splitOn '/').headD []

structure FilterBannableCidrsResult where
  bannable : List (List Char) := []
  excludedPrivateCount : Nat := 0
  excludedWhitelistedCount : Nat := 0

def writtenPrivate (cidr : List Char) : Bool :=
  writtenAddress cidr ≠ [] && isPrivateIp (writtenAddress cidr)

/-- The body of the filter's loop. -/
def filterCidr (whitelistCidrs : List ParsedCidr) (r : FilterBannableCidrsResult)
    (cidr : List Char) : FilterBannableCidrsResult :=
  if writtenPrivate cidr then { r with excludedPrivateCount := r.excludedPrivateCount + 1 }
  else
    match parseCidr cidr with
    | none => r
    | some parsed =>
        if whitelistCidrs.any (cidrWithin parsed) then
          { r with excludedWhitelistedCount := r.excludedWhitelistedCount + 1 }
        else { r with bannable := r.bannable ++ [cidr] }

def filterBannableCidrsDetailed (cidrs whitelist : List (List Char)) : FilterBannableCidrsResult :=
  cidrs.foldl (filterCidr (whitelist.filterMap parseCidr)) {}

def filterBannableCidrs (cidrs whitelist : List (List Char)) : List (List Char) :=
  (filterBannableCidrsDetailed cidrs whitelist).bannable

/-! ## What is pushed -/

theorem mem_dedupeCidrsByRecency {rows : List BannedCidrRow} {cidr : List Char} :
    cidr ∈ dedupeCidrsByRecency rows ↔ ∃ row ∈ rows, row.networkCidr = cidr := by
  have hfold : ∀ (rows : List BannedCidrRow) (result : List (List Char)),
      cidr ∈ rows.foldl (fun result row =>
        if result.contains row.networkCidr then result else result ++ [row.networkCidr]) result ↔
          cidr ∈ result ∨ ∃ row ∈ rows, row.networkCidr = cidr := by
    intro rows
    induction rows with
    | nil => simp
    | cons row rows ih =>
        intro result
        rw [List.foldl_cons, ih]
        split
        · rename_i hcontains
          have hmem := List.contains_iff_mem.mp hcontains
          constructor
          · rintro (hold | ⟨row', hrow', heq⟩)
            · exact .inl hold
            · exact .inr ⟨row', List.mem_cons_of_mem _ hrow', heq⟩
          · rintro (hold | ⟨row', hrow', heq⟩)
            · exact .inl hold
            · rcases List.mem_cons.mp hrow' with rfl | hin
              · exact .inl (heq ▸ hmem)
              · exact .inr ⟨row', hin, heq⟩
        · rw [List.mem_append, List.mem_singleton, or_assoc, eq_comm (a := cidr)]
          simp only [List.mem_cons, exists_eq_or_imp]
  unfold dedupeCidrsByRecency
  rw [hfold]
  simp [List.mem_mergeSort]

/-- The ban passes both checks. -/
def passes (whitelistCidrs : List ParsedCidr) (cidr : List Char) : Bool :=
  !writtenPrivate cidr &&
    (parseCidr cidr).any fun parsed => !whitelistCidrs.any (cidrWithin parsed)

theorem filterCidr_bannable (whitelistCidrs : List ParsedCidr) (r : FilterBannableCidrsResult)
    (cidr : List Char) : (filterCidr whitelistCidrs r cidr).bannable =
      r.bannable ++ [cidr].filter (passes whitelistCidrs) := by
  unfold filterCidr passes
  by_cases hprivate : writtenPrivate cidr = true
  · simp [hprivate]
  · cases hparse : parseCidr cidr with
    | none => simp [hprivate, hparse]
    | some parsed =>
        by_cases hwithin : whitelistCidrs.any (cidrWithin parsed) = true
        · simp [hprivate, hparse, hwithin]
        · simp [hprivate, hparse, hwithin]

theorem filterBannableCidrs_eq (cidrs whitelist : List (List Char)) :
    filterBannableCidrs cidrs whitelist = cidrs.filter (passes (whitelist.filterMap parseCidr)) := by
  have hfold : ∀ (cidrs : List (List Char)) (r : FilterBannableCidrsResult),
      (cidrs.foldl (filterCidr (whitelist.filterMap parseCidr)) r).bannable =
        r.bannable ++ cidrs.filter (passes (whitelist.filterMap parseCidr)) := by
    intro cidrs
    induction cidrs with
    | nil =>
        intro r
        exact (List.append_nil _).symm
    | cons cidr cidrs ih =>
        intro r
        rw [List.foldl_cons, ih, filterCidr_bannable, List.append_assoc, ← List.filter_append,
          List.singleton_append]
  exact hfold cidrs {}

/-! ## Blocks -/

theorem contains_iff {c : ParsedCidr} {p : ParsedIp} :
    c.contains p = true ↔ c.version = p.version ∧ p.value ∈ block (c.bits - c.length) c.network := by
  simp [ParsedCidr.contains, mem_block]

/-- A CIDR within another one has none but the other's addresses. -/
theorem contains_of_within {c d : ParsedCidr} {p : ParsedIp} (hc : c.WellFormed) (hd : d.WellFormed)
    (h : cidrWithin c d = true) (hp : c.contains p = true) : d.contains p = true := by
  unfold cidrWithin at h
  split at h
  · cases h
  · rename_i hversion
    replace hversion := not_not.mp hversion
    split at h
    · cases h
    · rename_i hlength
      obtain ⟨hpv, hpb⟩ := contains_iff.mp hp
      have hbits : c.bits = d.bits := by rw [hc.bits, hd.bits, hversion]
      have hle : c.bits - c.length ≤ d.bits - d.length := by omega
      refine contains_iff.mpr ⟨hversion ▸ hpv, ?_⟩
      rw [hbits] at h
      exact (block_subset_iff hc.network hle).mpr (of_decide_eq_true h) hpb

/-- Two CIDRs that share an address are within one another, one way or the other. -/
theorem within_of_shared {c d : ParsedCidr} {p : ParsedIp} (hc : c.WellFormed) (hd : d.WellFormed)
    (hcp : c.contains p = true) (hdp : d.contains p = true) :
    cidrWithin c d = true ∨ cidrWithin d c = true := by
  obtain ⟨hcv, hcb⟩ := contains_iff.mp hcp
  obtain ⟨hdv, hdb⟩ := contains_iff.mp hdp
  have hversion : c.version = d.version := hcv.trans hdv.symm
  have hbits : c.bits = d.bits := by rw [hc.bits, hd.bits, hversion]
  unfold cidrWithin
  by_cases hlength : d.length ≤ c.length
  · left
    have hle : c.bits - c.length ≤ d.bits - d.length := by omega
    have hmask := (block_subset_iff hc.network hle).mp (block_subset hle hcb hdb)
    rw [if_neg (not_not.mpr hversion), if_neg (Nat.not_lt.mpr hlength), hbits]
    exact decide_eq_true hmask
  · right
    have hle : d.bits - d.length ≤ c.bits - c.length := by omega
    have hmask := (block_subset_iff hd.network hle).mp (block_subset hle hdb hcb)
    rw [if_neg (not_not.mpr hversion.symm), if_neg (by omega), ← hbits]
    exact decide_eq_true hmask

/-- An accepted CIDR holds the address it was written with. -/
theorem parseCidr_address {input : List Char} {c : ParsedCidr} (h : parseCidr input = some c) :
    ∃ ip p, parseIp ip = some p ∧ c.contains p = true := by
  unfold parseCidr at h
  split at h
  · cases h
  · rename_i address rest _
    obtain ⟨p, hp, h⟩ := Option.bind_eq_some_iff.mp h
    obtain ⟨length, -, rfl⟩ := Option.map_eq_some_iff.mp h
    exact ⟨address, p, hp, by simp [ParsedCidr.contains]⟩

theorem mem_privateBlocks {c : ParsedCidr} (h : c ∈ privateBlocks) : c.WellFormed := by
  have hall : ∀ c ∈ privateBlocks, c.bits = c.version.bits ∧ c.length ≤ c.bits ∧
      mask (c.bits - c.length) c.network = c.network ∧ c.network < 2 ^ c.bits := by
    decide +kernel
  obtain ⟨hbits, hlength, hnetwork, hlt⟩ := hall c h
  exact ⟨hbits, hlength, hnetwork, hlt⟩

/-! ## The never-ban list -/

/-- `cidrContains(cidr, ip)` for a text `cidr` -/
def covers (cidr ip : List Char) : Bool := (parseCidr cidr).any (cidrContains · ip)

/-- No pushed CIDR covers a whitelisted or a private address. -/
def RespectsNeverBan (rows : List BannedCidrRow) (whitelist : List (List Char)) : Prop :=
  ∀ cidr ∈ filterBannableCidrs (dedupeCidrsByRecency rows) whitelist, ∀ ip, covers cidr ip = true →
    (∀ entry ∈ whitelist, covers entry ip = false) ∧ isPrivateIp ip = false

/-- A ban that passes the checks contains no whitelisted network, and neither contains nor lies in
a private block. -/
def sparesNeverBan (whitelist : List (List Char)) (cidr : List Char) : Bool :=
  let whitelistCidrs := whitelist.filterMap parseCidr
  (parseCidr cidr).all fun parsed =>
    writtenPrivate cidr || whitelistCidrs.any (cidrWithin parsed) ||
      (!whitelistCidrs.any (cidrWithin · parsed) &&
        !privateBlocks.any fun p => cidrWithin parsed p || cidrWithin p parsed)

theorem covers_iff {cidr ip : List Char} : covers cidr ip = true ↔
    ∃ c p, parseCidr cidr = some c ∧ parseIp ip = some p ∧ c.contains p = true := by
  unfold covers cidrContains
  rw [Option.any_eq_true]
  simp only [Option.any_eq_true]
  constructor
  · rintro ⟨c, hc, p, hp, hcp⟩
    exact ⟨c, p, hc, hp, hcp⟩
  · rintro ⟨c, p, hc, hp, hcp⟩
    exact ⟨c, hc, p, hp, hcp⟩

/-- Every private block has an address with a text. -/
theorem privateBlocks_text : ∀ c ∈ privateBlocks, ∃ ip p, parseIp ip = some p ∧ c.contains p = true := by
  have htexts : ∀ c ∈ privateBlocks,
      (["10.0.0.0", "172.16.0.0", "192.168.0.0", "127.0.0.0", "169.254.0.0", "100.64.0.0", "::1",
        "fc00::", "fe80::", "::ffff:10.0.0.0", "::ffff:172.16.0.0", "::ffff:192.168.0.0",
        "::ffff:127.0.0.0", "::ffff:169.254.0.0", "::ffff:100.64.0.0"].any fun text =>
          (parseIp text.toList).any c.contains) = true := by
    decide +kernel
  intro c hc
  obtain ⟨text, -, htext⟩ := List.any_eq_true.mp (htexts c hc)
  obtain ⟨p, hp, hcp⟩ := (Option.any_eq_true _ _).mp htext
  exact ⟨text.toList, p, hp, hcp⟩

theorem isPrivateIp_iff {ip : List Char} {p : ParsedIp} (hp : parseIp ip = some p) :
    isPrivateIp ip = true ↔ ∃ c ∈ privateBlocks, c.contains p = true := by
  rw [isPrivateIp_eq, hp, Option.any_some, List.any_eq_true]

theorem mem_pushed {rows : List BannedCidrRow} {whitelist : List (List Char)} {cidr : List Char} :
    cidr ∈ filterBannableCidrs (dedupeCidrsByRecency rows) whitelist ↔
      (∃ row ∈ rows, row.networkCidr = cidr) ∧
        passes (whitelist.filterMap parseCidr) cidr = true := by
  rw [filterBannableCidrs_eq, List.mem_filter, mem_dedupeCidrsByRecency]

theorem mem_whitelistCidrs {whitelist : List (List Char)} {c : ParsedCidr} :
    c ∈ whitelist.filterMap parseCidr ↔ ∃ entry ∈ whitelist, parseCidr entry = some c :=
  List.mem_filterMap

/-- The never-ban list is respected exactly when every banned row spares it. -/
theorem never_ban_respected (rows : List BannedCidrRow) (whitelist : List (List Char)) :
    RespectsNeverBan rows whitelist ↔
      ∀ row ∈ rows, sparesNeverBan whitelist row.networkCidr = true := by
  constructor
  · intro hrespects row hrow
    unfold sparesNeverBan
    cases hparse : parseCidr row.networkCidr with
    | none => rfl
    | some parsed =>
        have hwf := parseCidr_wellFormed hparse
        dsimp only
        rw [Option.all_some]
        by_cases hprivate : writtenPrivate row.networkCidr = true
        · rw [hprivate]
          rfl
        · by_cases hwithin : (whitelist.filterMap parseCidr).any (cidrWithin parsed) = true
          · rw [hwithin, Bool.or_true]
            rfl
          · have hpushed : row.networkCidr ∈
                filterBannableCidrs (dedupeCidrsByRecency rows) whitelist := by
              refine mem_pushed.mpr ⟨⟨row, hrow, rfl⟩, ?_⟩
              unfold passes
              rw [hparse, Option.any_some]
              simp [hprivate, hwithin]
            have hspare := hrespects _ hpushed
            have hentries : (whitelist.filterMap parseCidr).any (cidrWithin · parsed) = false := by
              rw [List.any_eq_false]
              intro w hw hinside
              obtain ⟨entry, hentry, hwparse⟩ := mem_whitelistCidrs.mp hw
              obtain ⟨ip, p, hp, hwp⟩ := parseCidr_address hwparse
              have hcp := contains_of_within (parseCidr_wellFormed hwparse) hwf hinside hwp
              have hnot := (hspare ip (covers_iff.mpr ⟨parsed, p, hparse, hp, hcp⟩)).1 entry hentry
              rw [covers_iff.mpr ⟨w, p, hwparse, hp, hwp⟩] at hnot
              cases hnot
            have hblocks : (privateBlocks.any fun p => cidrWithin parsed p || cidrWithin p parsed)
                = false := by
              rw [List.any_eq_false]
              intro c hc hnested
              -- one of the two is within the other, so they share an address
              have hshared : ∃ ip p, parseIp ip = some p ∧ parsed.contains p = true ∧
                  c.contains p = true := by
                rcases (Bool.or_eq_true _ _).mp hnested with hin | hout
                · obtain ⟨ip, p, hp, hcp⟩ := parseCidr_address hparse
                  exact ⟨ip, p, hp, hcp, contains_of_within hwf (mem_privateBlocks hc) hin hcp⟩
                · obtain ⟨ip, p, hp, hcp⟩ := privateBlocks_text c hc
                  exact ⟨ip, p, hp, contains_of_within (mem_privateBlocks hc) hwf hout hcp, hcp⟩
              obtain ⟨ip, p, hp, hcp, hbp⟩ := hshared
              have hnot := (hspare ip (covers_iff.mpr ⟨parsed, p, hparse, hp, hcp⟩)).2
              rw [(isPrivateIp_iff hp).mpr ⟨c, hc, hbp⟩] at hnot
              cases hnot
            rw [hentries, hblocks, Bool.not_false, Bool.and_true, Bool.or_true]
  · intro hspares cidr hcidr ip hcovers
    obtain ⟨⟨row, hrow, rfl⟩, hpasses⟩ := mem_pushed.mp hcidr
    obtain ⟨c, p, hparse, hp, hcp⟩ := covers_iff.mp hcovers
    have hwf := parseCidr_wellFormed hparse
    unfold passes at hpasses
    rw [hparse, Option.any_some, Bool.and_eq_true, Bool.not_eq_true', Bool.not_eq_true'] at hpasses
    obtain ⟨hprivate, hwithin⟩ := hpasses
    have hspare := hspares row hrow
    unfold sparesNeverBan at hspare
    rw [hparse] at hspare
    dsimp only at hspare
    rw [Option.all_some, hprivate, hwithin, Bool.false_or, Bool.false_or, Bool.and_eq_true,
      Bool.not_eq_true', Bool.not_eq_true'] at hspare
    obtain ⟨hentries, hblocks⟩ := hspare
    constructor
    · intro entry hentry
      rw [Bool.eq_false_iff]
      intro hcov
      obtain ⟨w, p', hwparse, hp', hwp⟩ := covers_iff.mp hcov
      obtain rfl := Option.some.inj (hp.symm.trans hp')
      have hw := mem_whitelistCidrs.mpr ⟨entry, hentry, hwparse⟩
      rcases within_of_shared hwf (parseCidr_wellFormed hwparse) hcp hwp with hin | hout
      · exact List.any_eq_false.mp hwithin w hw hin
      · exact List.any_eq_false.mp hentries w hw hout
    · rw [Bool.eq_false_iff]
      intro hpriv
      obtain ⟨b, hb, hbp⟩ := (isPrivateIp_iff hp).mp hpriv
      refine List.any_eq_false.mp hblocks b hb ?_
      rw [Bool.or_eq_true]
      exact within_of_shared hwf (mem_privateBlocks hb) hcp hbp

/-- `203.0.113.0/24` contains the whitelisted address and is pushed; so is `8.0.0.0/6`, public as
written, which contains `10.0.0.0/8`. -/
theorem never_ban_overrun :
    ¬ RespectsNeverBan [⟨"203.0.113.0/24".toList, 2⟩, ⟨"8.0.0.0/6".toList, 1⟩]
      ["203.0.113.7".toList] := by
  intro hrespects
  have hpushed : "203.0.113.0/24".toList ∈ filterBannableCidrs (dedupeCidrsByRecency
      [⟨"203.0.113.0/24".toList, 2⟩, ⟨"8.0.0.0/6".toList, 1⟩]) ["203.0.113.7".toList] := by
    refine mem_pushed.mpr ⟨⟨⟨"203.0.113.0/24".toList, 2⟩, List.mem_cons_self, rfl⟩, ?_⟩
    decide +kernel
  have hcovers : covers "203.0.113.0/24".toList "203.0.113.7".toList = true := by decide +kernel
  have hlisted : covers "203.0.113.7".toList "203.0.113.7".toList = true := by decide +kernel
  have hnot := (hrespects _ hpushed _ hcovers).1 _ List.mem_cons_self
  rw [hlisted] at hnot
  cases hnot

end BurrowGate.Firewall
