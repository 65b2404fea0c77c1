import BurrowGate.Net.Ipv6Text
import Mathlib.Data.List.Forall2

/-!
# What an address text stands for

The value of a text that `isIP` accepts, read off the text: four decimal parts, or
eight 16-bit words with the words that `::` leaves out and the two of a dotted tail.
The parsers of `utils/ip.ts` compute this value, which they reach by rewriting the tail.
-/

namespace BurrowGate.Net

open Js
open Lib.Positional

def dottedValue (text : List Char) : Nat :=
  foldDigits 256 ((text.splitOn '.').map fun part => (digitsValue 10 part).getD 0)

/-- A group is one word, a dotted one two. -/
def groupWords (group : List Char) : List Nat :=
  if isIPv4 group then [dottedValue group / 65536, dottedValue group % 65536]
  else [(digitsValue 16 group).getD 0]

def stretchWords (text : List Char) : List Nat := (colonGroups text).flatMap groupWords

def addressWords (text : List Char) : List Nat :=
  match splitDoubleColon text with
  | [left, right] =>
      let left := stretchWords left
      let right := stretchWords right
      left ++ List.replicate (8 - left.length - right.length) 0 ++ right
  | halves => halves.flatMap stretchWords

def addressValue (text : List Char) : IpVersion → Nat
  | .v4 => dottedValue text
  | .v6 => foldDigits 65536 (addressWords (text.takeWhile (· ≠ '%')))

def addressOf (text : List Char) : Option ParsedIp :=
  (isIP text).map fun version => { version, value := addressValue text version }

/-! ## Dotted decimal -/

theorem digitChar_of_isDigit {c : Char} {d : Nat} (h : isDigit c = true)
    (hd : digitValue c = some d) : c = Nat.digitChar d := by
  have hrange : '0' ≤ c ∧ c ≤ '9' := by simpa [isDigit] using h
  have hlow : 48 ≤ c.toNat := hrange.1
  have hhigh : c.toNat ≤ 57 := hrange.2
  rw [digitValue, if_pos hrange] at hd
  have hval : c.toNat - 48 = d := Option.some.inj hd
  have htable : ∀ n < 58, 48 ≤ n → Char.ofNat n = Nat.digitChar (n - 48) := by decide
  have hchar := htable c.toNat (by omega) hlow
  rwa [Char.ofNat_toNat, hval] at hchar

/-- Digits without a leading zero are the decimal text of their value. -/
theorem toDigits_of_digitsValue {part : List Char} {n : Nat}
    (hlead : part.length = 1 ∨ part.head? ≠ some '0') (hdigits : part.all isDigit = true)
    (h : digitsValue 10 part = some n) : part = Nat.toDigits 10 n := by
  induction part using List.reverseRecOn generalizing n with
  | nil => cases h
  | append_singleton init c ih =>
      rw [digitsValue, if_neg (by simp), placeValue_concat] at h
      obtain ⟨v, hv, h⟩ := Option.bind_eq_some_iff.mp h
      obtain ⟨d, hd, rfl⟩ := Option.map_eq_some_iff.mp h
      obtain ⟨hdigit, hlt⟩ := Option.filter_eq_some_iff.mp hd
      replace hlt : d < 10 := by simpa using hlt
      rw [List.all_append, Bool.and_eq_true] at hdigits
      have hchar : c = Nat.digitChar d :=
        digitChar_of_isDigit (by simpa using hdigits.2) hdigit
      by_cases hinit : init = []
      · subst hinit
        obtain rfl := Option.some.inj hv
        rw [Nat.zero_mul, Nat.zero_add, Nat.toDigits_of_lt_base hlt, hchar]
        rfl
      · obtain ⟨first, rest, rfl⟩ := List.exists_cons_of_ne_nil hinit
        have hhead : first ≠ '0' := by
          rcases hlead with hlen | hhead
          · simp at hlen
          · simpa using hhead
        have hv' : digitsValue 10 (first :: rest) = some v := by
          rw [digitsValue, if_neg hinit]
          exact hv
        have htext := ih (.inr (by simpa using hhead)) hdigits.1 hv'
        have hpos : v ≠ 0 := by
          rintro rfl
          rw [show Nat.toDigits 10 0 = ['0'] from rfl] at htext
          exact hhead (List.cons.inj htext).1
        rw [Nat.toDigits_eq_if (by decide), if_neg (by omega)]
        rw [show (v * 10 + d) / 10 = v by omega, show (v * 10 + d) % 10 = d by omega, ← htext,
          hchar]

theorem parseV4Part_of_segment {part : List Char} (h : isV4Segment part = true) :
    parseV4Part part = some ((digitsValue 10 part).getD 0) := by
  unfold isV4Segment at h
  rw [Bool.and_eq_true, Bool.and_eq_true] at h
  obtain ⟨⟨hdigits, hlead⟩, hrange⟩ := h
  obtain ⟨n, hn, hle⟩ := (Option.any_eq_true _ _).mp hrange
  have hle' : n ≤ 255 := by simpa using hle
  have hlead' : part.length = 1 ∨ part.head? ≠ some '0' := by simpa using hlead
  have htext := toDigits_of_digitsValue hlead' hdigits hn
  have hlen : part.length ≤ 3 := by
    rw [htext, Nat.length_toDigits_le_iff (by decide) (by decide)]
    omega
  have hne : part ≠ [] := by
    rintro rfl
    cases hn
  rw [parseV4Part, if_pos ⟨hne, hlen, hdigits⟩, hn]
  simp [Option.filter, hle']

theorem parseIpv4_of_isIPv4 {text : List Char} (h : isIPv4 text = true) :
    parseIpv4 text = some (dottedValue text) := by
  obtain ⟨hlen, hparts⟩ := (Bool.and_eq_true _ _).mp h
  have hlen' : (text.splitOn '.').length = 4 := of_decide_eq_true hlen
  rw [parseIpv4, if_pos hlen']
  refine placeValue_eq_foldDigits fun part hpart => ?_
  exact parseV4Part_of_segment (List.all_eq_true.mp hparts part hpart)

theorem dottedValue_lt {text : List Char} (h : isIPv4 text = true) : dottedValue text < 2 ^ 32 :=
  parseIpv4_lt (parseIpv4_of_isIPv4 h)

/-! ## Lower case -/

theorem toLower_cases (c : Char) : c.toLower = c ∨ (65 ≤ c.toNat ∧ c.toNat ≤ 90) := by
  unfold Char.toLower
  split
  · rename_i h
    exact .inr ⟨h.1, h.2⟩
  · exact .inl rfl

/-- No letter becomes or is a separator. -/
theorem toLower_eq_iff {c sep : Char} (hsep : sep = ':' ∨ sep = '.' ∨ sep = '%') :
    c.toLower = sep ↔ c = sep := by
  rcases toLower_cases c with hsame | ⟨hlow, hhigh⟩
  · rw [hsame]
  · have htable : ∀ n < 91, 65 ≤ n →
        (Char.ofNat n).toLower ∉ [':', '.', '%'] ∧ Char.ofNat n ∉ [':', '.', '%'] := by decide
    have hmem : sep ∈ [':', '.', '%'] := by simpa using hsep
    obtain ⟨hlower, hchar⟩ := htable c.toNat (by omega) hlow
    rw [Char.ofNat_toNat] at hlower hchar
    exact ⟨fun h => absurd (h ▸ hmem) hlower, fun h => absurd (h ▸ hmem) hchar⟩

theorem isHexDigit_lt {c : Char} (h : isHexDigit c = true) : c.toNat < 128 := by
  unfold isHexDigit digitValue at h
  split at h
  · rename_i hr
    have hle : c.toNat ≤ 57 := hr.2
    omega
  · split at h
    · rename_i hr
      have hle : c.toNat ≤ 102 := hr.2
      omega
    · split at h
      · rename_i hr
        have hle : c.toNat ≤ 70 := hr.2
        omega
      · cases h

theorem toLower_hexDigit {c : Char} (h : isHexDigit c = true) :
    isLowerHexDigit c.toLower = true ∧ digitValue c.toLower = digitValue c := by
  have htable : ∀ n < 128, isHexDigit (Char.ofNat n) = true →
      isLowerHexDigit (Char.ofNat n).toLower = true ∧
        digitValue (Char.ofNat n).toLower = digitValue (Char.ofNat n) := by decide +kernel
  have hlower := htable c.toNat (isHexDigit_lt h)
  rw [Char.ofNat_toNat] at hlower
  exact hlower h

/-- `toLowerCase` -/
def lower (text : List Char) : List Char := text.map Char.toLower

theorem mem_lower_iff {text : List Char} {sep : Char} (hsep : sep = ':' ∨ sep = '.' ∨ sep = '%') :
    sep ∈ lower text ↔ sep ∈ text := by
  constructor
  · intro h
    obtain ⟨c, hc, heq⟩ := List.mem_map.mp h
    rwa [← (toLower_eq_iff hsep).mp heq]
  · intro h
    exact List.mem_map.mpr ⟨sep, h, (toLower_eq_iff hsep).mpr rfl⟩

theorem takeWhile_lower (text : List Char) {sep : Char}
    (hsep : sep = ':' ∨ sep = '.' ∨ sep = '%') :
    (lower text).takeWhile (· ≠ sep) = lower (text.takeWhile (· ≠ sep)) := by
  induction text with
  | nil => rfl
  | cons c text ih =>
      show List.takeWhile _ (c.toLower :: lower text) = _
      by_cases hc : c = sep
      · have hlower : c.toLower = sep := (toLower_eq_iff hsep).mpr hc
        rw [List.takeWhile_cons_of_neg (by simpa using hlower),
          List.takeWhile_cons_of_neg (by simpa using hc)]
        rfl
      · have hlower : c.toLower ≠ sep := fun h => hc ((toLower_eq_iff hsep).mp h)
        rw [List.takeWhile_cons_of_pos (by simpa using hlower),
          List.takeWhile_cons_of_pos (by simpa using hc), ih]
        rfl

theorem splitOn_lower (text : List Char) :
    (lower text).splitOn ':' = (text.splitOn ':').map lower := by
  induction text with
  | nil => rfl
  | cons c text ih =>
      show (c.toLower :: lower text).splitOn ':' = _
      rw [List.splitOn_cons_eq_if_modifyHead, List.splitOn_cons_eq_if_modifyHead, ih]
      have hiff : (c.toLower == ':') = (c == ':') := by
        rw [Bool.eq_iff_iff, beq_iff_eq, beq_iff_eq]
        exact toLower_eq_iff (.inl rfl)
      rw [hiff]
      split
      · rfl
      · cases text.splitOn ':' <;> rfl

theorem colonGroups_lower (text : List Char) :
    colonGroups (lower text) = (colonGroups text).map lower := by
  unfold colonGroups
  by_cases h : text = []
  · subst h
    rfl
  · have hlower : lower text ≠ [] := fun heq => h (List.map_eq_nil_iff.mp heq)
    rw [if_neg h, if_neg hlower, splitOn_lower]

theorem splitDoubleColon_lower (text : List Char) :
    splitDoubleColon (lower text) = (splitDoubleColon text).map lower := by
  fun_induction splitDoubleColon text with
  | case1 rest ih =>
      show splitDoubleColon (':' :: ':' :: lower rest) = _
      rw [splitDoubleColon, ih]
      rfl
  | case2 c rest hne ih =>
      show splitDoubleColon (c.toLower :: lower rest) = _
      rw [splitDoubleColon_cons, ih]
      · cases splitDoubleColon rest <;> rfl
      · by_cases hc : c = ':'
        · right
          intro hhead
          cases rest with
          | nil => cases hhead
          | cons d rest =>
              have hd : d.toLower = ':' := Option.some.inj hhead
              exact hne rest hc (by rw [(toLower_eq_iff (.inl rfl)).mp hd])
        · exact .inl fun h => hc ((toLower_eq_iff (.inl rfl)).mp h)
  | case3 => rfl

/-! ## Groups -/

theorem hexDigit_ne_dot {c : Char} (h : isHexDigit c = true) : c ≠ '.' := by
  rintro rfl
  revert h
  decide

theorem segment_noDot {group : List Char} (h : isV6Segment group = true) : '.' ∉ group := by
  intro hdot
  obtain ⟨-, hhex⟩ := (Bool.and_eq_true _ _).mp h
  exact hexDigit_ne_dot (List.all_eq_true.mp hhex _ hdot) rfl

theorem groupWords_of_segment {group : List Char} (h : isV6Segment group = true) :
    groupWords group = [(digitsValue 16 group).getD 0] := by
  have hv4 : isIPv4 group = false := by
    simp [isIPv4, List.splitOn_eq_singleton (segment_noDot h)]
  simp [groupWords, hv4]

theorem digitsValue_hex {group : List Char} (hne : group ≠ [])
    (hhex : ∀ c ∈ group, isHexDigit c = true) :
    digitsValue 16 group = some (foldDigits 16 (group.map fun c => (digitValue c).getD 0)) := by
  rw [digitsValue, if_neg hne]
  refine placeValue_eq_foldDigits fun c hc => ?_
  obtain ⟨d, hd⟩ := Option.isSome_iff_exists.mp (hhex c hc)
  have hlt : d < 16 := by
    unfold digitValue at hd
    have hrange := isHexDigit_lt (hhex c hc)
    split at hd
    · rename_i hr
      have hval : c.toNat - 48 = d := Option.some.inj hd
      have hhigh : c.toNat ≤ 57 := hr.2
      omega
    · split at hd
      · rename_i hr
        have hval : c.toNat - 97 + 10 = d := Option.some.inj hd
        have hhigh : c.toNat ≤ 102 := hr.2
        omega
      · split at hd
        · rename_i hr
          have hval : c.toNat - 65 + 10 = d := Option.some.inj hd
          have hhigh : c.toNat ≤ 70 := hr.2
          omega
        · cases hd
  rw [hd]
  simp [Option.filter, hlt]

/-- A hexadecimal group in lower case reads as the word it writes. -/
theorem parseV6Group_lower {group : List Char} (h : isV6Segment group = true) :
    parseV6Group (lower group) = some ((digitsValue 16 group).getD 0) := by
  unfold isV6Segment at h
  rw [Bool.and_eq_true, Bool.and_eq_true, decide_eq_true_eq, decide_eq_true_eq] at h
  obtain ⟨⟨hne, hlen⟩, hhex⟩ := h
  replace hhex : ∀ c ∈ group, isHexDigit c = true := List.all_eq_true.mp hhex
  have hne' : lower group ≠ [] := fun heq => hne (List.map_eq_nil_iff.mp heq)
  have hlower : ∀ c ∈ lower group, isLowerHexDigit c = true ∧ isHexDigit c = true := by
    intro c hc
    obtain ⟨d, hd, rfl⟩ := List.mem_map.mp hc
    obtain ⟨hdigit, hvalue⟩ := toLower_hexDigit (hhex d hd)
    refine ⟨hdigit, ?_⟩
    unfold isHexDigit
    rw [hvalue]
    exact hhex d hd
  have hall : (lower group).all isLowerHexDigit = true :=
    List.all_eq_true.mpr fun c hc => (hlower c hc).1
  have hlen' : (lower group).length ≤ 4 := by
    rw [lower, List.length_map]
    exact hlen
  rw [parseV6Group, if_pos ⟨hne', hlen', hall⟩, digitsValue_hex hne' fun c hc => (hlower c hc).2,
    digitsValue_hex hne hhex, Option.getD_some, lower, List.map_map]
  congr 2
  refine List.map_congr_left fun c hc => ?_
  rw [Function.comp_apply, (toLower_hexDigit (hhex c hc)).2]

/-- What the groups of a half read as, once a dotted tail is rewritten. -/
def Reads (half rewritten : List Char) : Prop :=
  (colonGroups rewritten).map parseV6Group = (stretchWords half).map some

theorem map_parse_segments {groups : List (List Char)} (h : groups.all isV6Segment = true) :
    (groups.map lower).map parseV6Group = (groups.flatMap groupWords).map some := by
  induction groups with
  | nil => rfl
  | cons group groups ih =>
      rw [List.all_cons, Bool.and_eq_true] at h
      rw [List.map_cons, List.map_cons, List.flatMap_cons, groupWords_of_segment h.1,
        List.singleton_append, List.map_cons, ih h.2, parseV6Group_lower h.1]

theorem reads_lower {half : List Char} (h : (colonGroups half).all isV6Segment = true) :
    Reads half (lower half) := by
  unfold Reads stretchWords
  rw [colonGroups_lower]
  exact map_parse_segments h

theorem groupCount_cases {groups : List (List Char)} {dotted : Bool} {n : Nat}
    (h : groupCount groups dotted = some n) :
    (groups.all isV6Segment = true ∧ n = groups.length) ∨
      (dotted = true ∧ n = groups.length + 1 ∧ ∃ init tail, groups = init ++ [tail] ∧
        isIPv4 tail = true ∧ init.all isV6Segment = true) := by
  unfold groupCount at h
  split at h
  · rename_i hlast
    split at h
    · rename_i hinit
      obtain ⟨tail, hsome, hv4⟩ := (Option.any_eq_true _ _).mp hlast.2
      have happ := List.dropLast_append_getLast? tail hsome
      exact .inr ⟨hlast.1, (Option.some.inj h).symm, groups.dropLast, tail, happ.symm, hv4, hinit⟩
    · cases h
  · split at h
    · rename_i hall
      exact .inl ⟨hall, (Option.some.inj h).symm⟩
    · cases h

theorem length_flatMap_segments {groups : List (List Char)} (h : groups.all isV6Segment = true) :
    (groups.flatMap groupWords).length = groups.length := by
  have hmap := congrArg List.length (map_parse_segments h)
  rw [List.length_map, List.length_map, List.length_map] at hmap
  exact hmap.symm

/-- `groupCount` is the number of words. -/
theorem length_stretchWords {half : List Char} {dotted : Bool} {n : Nat}
    (h : groupCount (colonGroups half) dotted = some n) : (stretchWords half).length = n := by
  unfold stretchWords
  rcases groupCount_cases h with ⟨hall, rfl⟩ | ⟨-, rfl, init, tail, hgroups, hv4, hinit⟩
  · exact length_flatMap_segments hall
  · rw [hgroups, List.flatMap_append, List.length_append, length_flatMap_segments hinit]
    simp [groupWords, hv4]

/-! ## The last group -/

theorem eq_of_splitDoubleColon_singleton {text half : List Char}
    (h : splitDoubleColon text = [half]) : half = text := by
  fun_induction splitDoubleColon text generalizing half with
  | case1 rest ih =>
      have hnil := (List.cons.inj h).2
      exact absurd hnil (splitDoubleColon_ne_nil rest)
  | case2 c rest hne ih =>
      obtain ⟨first, halves, hsplit⟩ := List.exists_cons_of_ne_nil (splitDoubleColon_ne_nil rest)
      rw [hsplit, List.modifyHead_cons] at h
      obtain ⟨rfl, rfl⟩ := List.cons.inj h
      rw [ih hsplit]
  | case3 => exact (List.cons.inj h).1.symm

/-- Text behind the last separator joins the last half and stays a group of its own. -/
theorem splitDoubleColon_append_last (before : List Char) :
    ∃ init last, splitDoubleColon before = init ++ [last] ∧ last <:+ before ∧
      ∀ w, w.head? ≠ some ':' → splitDoubleColon w = [w] →
        splitDoubleColon (before ++ w) = init ++ [last ++ w] := by
  fun_induction splitDoubleColon before with
  | case1 rest ih =>
      obtain ⟨init, last, hsplit, hsuffix, happend⟩ := ih
      refine ⟨[] :: init, last, by rw [hsplit]; rfl, ?_, fun w hhead hw => ?_⟩
      · exact hsuffix.trans ((List.suffix_cons _ _).trans (List.suffix_cons _ _))
      · show splitDoubleColon (':' :: ':' :: (rest ++ w)) = _
        rw [splitDoubleColon, happend w hhead hw]
        rfl
  | case2 c rest hne ih =>
      obtain ⟨init, last, hsplit, hsuffix, happend⟩ := ih
      have hcons : ∀ w : List Char, w.head? ≠ some ':' →
          splitDoubleColon (c :: (rest ++ w)) =
            (splitDoubleColon (rest ++ w)).modifyHead (c :: ·) := by
        intro w hhead
        apply splitDoubleColon_cons
        by_cases hc : c = ':'
        · right
          intro h
          cases rest with
          | nil => exact hhead h
          | cons d rest =>
              obtain rfl : d = ':' := Option.some.inj h
              exact hne rest hc rfl
        · exact .inl hc
      cases init with
      | nil =>
          refine ⟨[], c :: last, by rw [hsplit]; rfl, ?_, fun w hhead hw => ?_⟩
          · -- the only half of the rest is the rest
            have hrest : last = rest := by
              have hnil := happend [] (by simp) rfl
              rw [List.append_nil, List.append_nil] at hnil
              exact eq_of_splitDoubleColon_singleton hnil
            exact hrest ▸ List.suffix_refl _
          · have hjoined := hcons w hhead
            rw [happend w hhead hw] at hjoined
            exact hjoined
      | cons first init =>
          refine ⟨(c :: first) :: init, last, by rw [hsplit]; rfl,
            hsuffix.trans (List.suffix_cons _ _), fun w hhead hw => ?_⟩
          show splitDoubleColon (c :: (rest ++ w)) = _
          rw [hcons w hhead, happend w hhead hw]
          rfl
  | case3 =>
      exact ⟨[], [], rfl, List.suffix_refl _, fun w _ hw => hw⟩

/-- The half and the groups that text behind a separator comes last in. -/
theorem tail_groups (before : List Char) :
    ∃ init gs, ∀ w, w ≠ [] → w.head? ≠ some ':' → splitDoubleColon w = [w] →
      ∃ half, splitDoubleColon (before ++ ':' :: w) = init ++ [half] ∧
        colonGroups half = gs ++ w.splitOn ':' := by
  obtain ⟨init, last, -, hsuffix, happend⟩ := splitDoubleColon_append_last (before ++ [':'])
  have hshape : ∀ w : List Char, before ++ ':' :: w = before ++ [':'] ++ w := by
    intro w
    rw [List.append_assoc]
    rfl
  by_cases hlast : last = []
  · subst hlast
    refine ⟨init, [], fun w hne hhead hw => ⟨w, ?_, ?_⟩⟩
    · rw [hshape, happend w hhead hw, List.nil_append]
    · rw [colonGroups, if_neg hne, List.nil_append]
  · -- a last half that is not empty ends with the separator
    obtain ⟨before', hbefore⟩ := hsuffix
    have hend : last.getLast hlast = ':' := by
      have heq := List.getLast_append_of_ne_nil (l := before') (by simp [hlast]) hlast
      rw [← heq]
      simp only [hbefore]
      exact List.getLast_concat
    refine ⟨init, last.dropLast.splitOn ':', fun w hne hhead hw => ⟨last ++ w, ?_, ?_⟩⟩
    · rw [hshape, happend w hhead hw]
    · have hsplit : last ++ w = last.dropLast ++ ':' :: w := by
        conv => lhs; rw [← List.dropLast_append_getLast hlast, hend, List.append_assoc]
        rfl
      rw [colonGroups, if_neg (by simp [hne]), hsplit, List.splitOn_append_cons_self]

/-! ## The rewritten tail -/

theorem dotted_characters {text : List Char} (h : isIPv4 text = true) :
    ∀ c ∈ text, c = '.' ∨ isDigit c = true := by
  obtain ⟨-, hparts⟩ := (Bool.and_eq_true _ _).mp h
  intro c hc
  rcases mem_splitOn_or '.' hc with rfl | ⟨part, hpart, hin⟩
  · exact .inl rfl
  · have hsegment := List.all_eq_true.mp hparts part hpart
    unfold isV4Segment at hsegment
    rw [Bool.and_eq_true, Bool.and_eq_true] at hsegment
    exact .inr (List.all_eq_true.mp hsegment.1.1 c hin)

theorem lower_dotted {text : List Char} (h : isIPv4 text = true) : lower text = text := by
  have hsame : ∀ c ∈ text, c.toLower = id c := by
    intro c hc
    rcases toLower_cases c with hsame | ⟨hlow, -⟩
    · exact hsame
    · rcases dotted_characters h c hc with rfl | hdigit
      · rfl
      · have hrange : '0' ≤ c ∧ c ≤ '9' := by simpa [isDigit] using hdigit
        have hhigh : c.toNat ≤ 57 := hrange.2
        omega
  rw [lower, List.map_congr_left hsame, List.map_id]

theorem dotted_noColon {text : List Char} (h : isIPv4 text = true) : ':' ∉ text := by
  intro hc
  rcases dotted_characters h _ hc with heq | hdigit
  · cases heq
  · revert hdigit
    decide

theorem dotted_mem {text : List Char} (h : isIPv4 text = true) : '.' ∈ text := by
  by_contra hdot
  have hv4 : isIPv4 text = false := by simp [isIPv4, List.splitOn_eq_singleton hdot]
  rw [h] at hv4
  cases hv4

theorem splitDoubleColon_noColon {text : List Char} (h : ':' ∉ text) :
    splitDoubleColon text = [text] := by
  have happ : splitDoubleColon (text ++ []) = _ :=
    splitDoubleColon_append fun c hc heq => h (heq ▸ hc)
  rwa [List.append_nil, splitDoubleColon, List.modifyHead_cons, List.append_nil] at happ

theorem head?_ne_of_noColon {text : List Char} (h : ':' ∉ text) : text.head? ≠ some ':' :=
  fun hhead => h (List.mem_of_head? hhead)

theorem exists_last_colon {text : List Char} (h : ':' ∈ text) :
    ∃ before tail, text = before ++ ':' :: tail ∧ ':' ∉ tail := by
  induction text with
  | nil => cases h
  | cons c text ih =>
      by_cases hin : ':' ∈ text
      · obtain ⟨before, tail, rfl, htail⟩ := ih hin
        exact ⟨c :: before, tail, rfl, htail⟩
      · rcases List.mem_cons.mp h with rfl | h
        · exact ⟨[], text, rfl, hin⟩
        · exact absurd h hin

theorem replaceDottedTail_dotted {before tail : List Char} {v : Nat} (hcolon : ':' ∉ tail)
    (hdot : '.' ∈ tail) (hv : parseIpv4 tail = some v) :
    replaceDottedTail (before ++ ':' :: tail) =
      some (before ++ ':' :: joinGroups [v / 65536 % 65536, v % 65536]) := by
  have htail : ((before ++ ':' :: tail).reverse.takeWhile (· ≠ ':')).reverse = tail := by
    have hall : ∀ c ∈ tail.reverse, (decide (c ≠ ':')) = true := by
      intro c hc
      rw [decide_eq_true_eq]
      exact fun heq => hcolon (heq ▸ List.mem_reverse.mp hc)
    rw [List.reverse_append, List.reverse_cons, List.append_assoc,
      List.takeWhile_append_of_pos hall]
    simp
  have htake : (before ++ ':' :: tail).take ((before ++ ':' :: tail).length - tail.length) =
      before ++ [':'] := by
    have hlen : (before ++ ':' :: tail).length - tail.length = (before ++ [':']).length := by
      simp only [List.length_append, List.length_cons, List.length_nil]
      omega
    rw [hlen, show before ++ ':' :: tail = before ++ [':'] ++ tail by simp, List.take_left]
  have hmem : '.' ∈ before ++ ':' :: tail := by simp [hdot]
  have hmem' : ':' ∈ before ++ ':' :: tail := by simp
  unfold replaceDottedTail
  rw [if_pos hmem]
  dsimp only
  rw [if_pos hmem', htail, hv, htake, Option.map_some, joinGroups]
  simp [List.intercalate_cons_cons]

theorem joinGroups_pair (a b : Nat) :
    joinGroups [a, b] ≠ [] ∧ (joinGroups [a, b]).head? ≠ some ':' ∧
      splitDoubleColon (joinGroups [a, b]) = [joinGroups [a, b]] ∧
      (joinGroups [a, b]).splitOn ':' = [Nat.toDigits 16 a, Nat.toDigits 16 b] := by
  have hgroups := colonGroups_joinGroups [a, b]
  obtain ⟨c, cs, hcs⟩ := List.exists_cons_of_ne_nil (@Nat.toDigits_ne_nil a 16)
  have hc : c ≠ ':' := (toDigits_hex_characters (hcs ▸ List.mem_cons_self)).2.2.2.1
  have hcons : joinGroups [a, b] = c :: (cs ++ ':' :: Nat.toDigits 16 b) := by
    simp [joinGroups, List.intercalate_cons_cons, hcs]
  have hne : joinGroups [a, b] ≠ [] := by
    rw [hcons]
    exact List.cons_ne_nil _ _
  refine ⟨hne, ?_, splitDoubleColon_joined _, ?_⟩
  · rw [hcons]
    simpa using hc
  · rwa [colonGroups, if_neg hne] at hgroups

/-- An accepted text is halves of segments, where the last one may end in a dotted address. -/
theorem v6_halves {body : List Char} (h : isV6Address body = true) :
    ∃ init last n, splitDoubleColon body = init ++ [last] ∧
      (∀ half ∈ init, (colonGroups half).all isV6Segment = true) ∧
      groupCount (colonGroups last) true = some n ∧ (init = [] → n = 8) := by
  have hfalse : ∀ {half : List Char} {m : Nat}, groupCount (colonGroups half) false = some m →
      (colonGroups half).all isV6Segment = true := by
    intro half m hm
    rcases groupCount_cases hm with ⟨hall, -⟩ | ⟨hcontra, -⟩
    · exact hall
    · cases hcontra
  unfold isV6Address at h
  split at h
  · rename_i half hsplit
    exact ⟨[], half, 8, hsplit, fun _ hin => (by cases hin), of_decide_eq_true h, fun _ => rfl⟩
  · rename_i left right hsplit
    split at h
    · rename_i l r hl hr
      refine ⟨[left], right, r, hsplit, fun half hin => ?_, hr, fun hc => by cases hc⟩
      obtain rfl := List.mem_singleton.mp hin
      exact hfalse hl
    · cases h
  · cases h

theorem mem_of_mem_splitOn {sep c : Char} {text part : List Char} (hpart : part ∈ text.splitOn sep)
    (hc : c ∈ part) : c ∈ text := by
  induction text generalizing part with
  | nil =>
      obtain rfl := List.mem_singleton.mp hpart
      cases hc
  | cons d text ih =>
      rw [List.splitOn_cons_eq_if_modifyHead] at hpart
      split at hpart
      · rcases List.mem_cons.mp hpart with rfl | hpart
        · cases hc
        · exact List.mem_cons_of_mem _ (ih hpart hc)
      · obtain ⟨first, rest, hsplit⟩ := List.exists_cons_of_ne_nil (List.splitOn_ne_nil sep text)
        rw [hsplit] at ih hpart
        rcases List.mem_cons.mp hpart with rfl | hpart
        · rcases List.mem_cons.mp hc with rfl | hc
          · exact List.mem_cons_self
          · exact List.mem_cons_of_mem _ (ih List.mem_cons_self hc)
        · exact List.mem_cons_of_mem _ (ih (List.mem_cons_of_mem _ hpart) hc)

theorem mem_of_mem_splitDoubleColon {text half : List Char} {c : Char}
    (hhalf : half ∈ splitDoubleColon text) (hc : c ∈ half) : c ∈ text := by
  fun_induction splitDoubleColon text generalizing half with
  | case1 rest ih =>
      rcases List.mem_cons.mp hhalf with rfl | hhalf
      · cases hc
      · exact List.mem_cons_of_mem _ (List.mem_cons_of_mem _ (ih hhalf hc))
  | case2 d rest _ ih =>
      obtain ⟨first, halves, hsplit⟩ := List.exists_cons_of_ne_nil (splitDoubleColon_ne_nil rest)
      rw [hsplit] at ih hhalf
      rcases List.mem_cons.mp hhalf with rfl | hhalf
      · rcases List.mem_cons.mp hc with rfl | hc
        · exact List.mem_cons_self
        · exact List.mem_cons_of_mem _ (ih List.mem_cons_self hc)
      · exact List.mem_cons_of_mem _ (ih (List.mem_cons_of_mem _ hhalf) hc)
  | case3 =>
      obtain rfl := List.mem_singleton.mp hhalf
      cases hc

theorem mem_half_of_dot {body : List Char} (hdot : '.' ∈ body) :
    ∃ half ∈ splitDoubleColon body, ∃ group ∈ colonGroups half, '.' ∈ group := by
  rcases mem_splitDoubleColon hdot with heq | ⟨half, hhalf, hin⟩
  · cases heq
  · refine ⟨half, hhalf, ?_⟩
    rcases mem_splitOn_or ':' hin with heq | hgroup
    · cases heq
    · rw [colonGroups, if_neg (List.ne_nil_of_mem hin)]
      exact hgroup

theorem v6_mem_colon {body : List Char} (h : isV6Address body = true) : ':' ∈ body := by
  by_contra hcolon
  obtain ⟨init, last, n, hsplit, -, hcount, height⟩ := v6_halves h
  rw [splitDoubleColon_noColon hcolon] at hsplit
  obtain ⟨rfl, hlast⟩ : init = [] ∧ body = last := by
    cases init with
    | nil => exact ⟨rfl, (List.cons.inj hsplit).1⟩
    | cons first init => simp at hsplit
  obtain rfl := height rfl
  have hlen : (colonGroups last).length ≤ 1 := by
    rw [← hlast]
    unfold colonGroups
    split
    · exact Nat.zero_le _
    · rw [List.splitOn_eq_singleton hcolon]
      exact Nat.le_refl _
  rcases groupCount_cases hcount with ⟨-, heq⟩ | ⟨-, heq, -⟩
  · omega
  · omega

/-- A dotted address stands behind the last separator. -/
theorem v6_dotted_tail {body : List Char} (h : isV6Address body = true) (hdot : '.' ∈ body) :
    ∃ before tail init half gs, body = before ++ ':' :: tail ∧ isIPv4 tail = true ∧
      splitDoubleColon body = init ++ [half] ∧ colonGroups half = gs ++ [tail] ∧
      (∀ half ∈ init, (colonGroups half).all isV6Segment = true) ∧ gs.all isV6Segment = true := by
  obtain ⟨init, last, n, hsplit, hinit, hcount, -⟩ := v6_halves h
  -- not every group is a segment
  have hdotted : ∃ gs tail, colonGroups last = gs ++ [tail] ∧ isIPv4 tail = true ∧
      gs.all isV6Segment = true := by
    rcases groupCount_cases hcount with ⟨hall, -⟩ | ⟨-, -, gs, tail, hgroups, hv4, hgs⟩
    · obtain ⟨half, hhalf, group, hgroup, hin⟩ := mem_half_of_dot hdot
      have hsegments : (colonGroups half).all isV6Segment = true := by
        rw [hsplit] at hhalf
        rcases List.mem_snoc.mp hhalf with hhalf | rfl
        · exact hinit half hhalf
        · exact hall
      exact absurd hin (segment_noDot (List.all_eq_true.mp hsegments group hgroup))
    · exact ⟨gs, tail, hgroups, hv4, hgs⟩
  obtain ⟨gs, tail, hgroups, hv4, hgs⟩ := hdotted
  obtain ⟨before, tail', hbody, hcolon⟩ := exists_last_colon (v6_mem_colon h)
  obtain ⟨init', gs', htail⟩ := tail_groups before
  have hne : tail' ≠ [] := by
    rintro rfl
    -- the last half would end with a separator, its last group be empty
    obtain ⟨init'', last'', -, hsuffix, happend⟩ := splitDoubleColon_append_last body
    have hlast := happend [] (by simp) rfl
    rw [List.append_nil, List.append_nil, hsplit] at hlast
    obtain ⟨-, hlast⟩ := List.append_inj' hlast rfl
    obtain rfl := (List.cons.inj hlast).1
    have hnil : last ≠ [] := by
      rintro rfl
      rw [colonGroups, if_pos rfl] at hgroups
      simp at hgroups
    obtain ⟨x, hx⟩ := hsuffix
    have hend : last.getLast hnil = ':' := by
      rw [← List.getLast_append_of_ne_nil (l := x) (by simp [hnil]) hnil]
      simp only [hx, hbody]
      exact List.getLast_concat
    rw [colonGroups, if_neg hnil, ← List.dropLast_append_getLast hnil, hend,
      List.splitOn_append_cons_self] at hgroups
    obtain ⟨-, htail⟩ := List.append_inj' hgroups rfl
    obtain rfl := (List.cons.inj htail).1
    cases dotted_mem hv4
  obtain ⟨half, hsplit', hgroups'⟩ :=
    htail tail' hne (head?_ne_of_noColon hcolon) (splitDoubleColon_noColon hcolon)
  rw [← hbody, hsplit] at hsplit'
  obtain ⟨-, hhalf⟩ := List.append_inj' hsplit' rfl
  obtain rfl := (List.cons.inj hhalf).1
  rw [List.splitOn_eq_singleton hcolon, hgroups] at hgroups'
  obtain ⟨-, htails⟩ := List.append_inj' hgroups' rfl
  obtain rfl := (List.cons.inj htails).1
  exact ⟨before, tail, init, last, gs, hbody, hv4, hsplit, hgroups, hinit, hgs⟩

/-- After the rewriting every half has the groups that read as its words. -/
theorem replaceDottedTail_reads {body : List Char} (h : isV6Address body = true) :
    ∃ rewritten, replaceDottedTail (lower body) = some rewritten ∧
      List.Forall₂ Reads (splitDoubleColon body) (splitDoubleColon rewritten) := by
  by_cases hdot : '.' ∈ body
  · obtain ⟨before, tail, init, half, gs, hbody, hv4, hsplit, hgroups, hinit, hgs⟩ :=
      v6_dotted_tail h hdot
    have hcolon := dotted_noColon hv4
    have hlower : lower body = lower before ++ ':' :: tail := by
      rw [hbody, lower, List.map_append, List.map_cons, ← lower, ← lower, lower_dotted hv4]
      rfl
    obtain ⟨hne, hhead, hsingle, hpair⟩ :=
      joinGroups_pair (dottedValue tail / 65536 % 65536) (dottedValue tail % 65536)
    refine ⟨_, hlower ▸ replaceDottedTail_dotted hcolon (dotted_mem hv4)
      (parseIpv4_of_isIPv4 hv4), ?_⟩
    obtain ⟨init', gs', htail⟩ := tail_groups (lower before)
    -- the halves and groups before the tail are those of the text, in lower case
    obtain ⟨half', hsplit', hgroups'⟩ := htail tail (List.ne_nil_of_mem (dotted_mem hv4))
      (head?_ne_of_noColon hcolon) (splitDoubleColon_noColon hcolon)
    rw [← hlower, splitDoubleColon_lower, hsplit, List.map_append] at hsplit'
    obtain ⟨rfl, hhalf⟩ := List.append_inj' hsplit' rfl
    obtain rfl := (List.cons.inj hhalf).1
    rw [colonGroups_lower, hgroups, List.splitOn_eq_singleton hcolon, List.map_append] at hgroups'
    obtain ⟨rfl, -⟩ := List.append_inj' hgroups' rfl
    obtain ⟨half'', hsplit'', hgroups''⟩ := htail _ hne hhead hsingle
    rw [hsplit, hsplit'']
    refine List.rel_append ?_ (.cons ?_ .nil)
    · rw [List.forall₂_map_right_iff, List.forall₂_same]
      exact fun half hin => reads_lower (hinit half hin)
    · have hlt := dottedValue_lt hv4
      have hhigh : dottedValue tail / 65536 % 65536 = dottedValue tail / 65536 := by omega
      unfold Reads stretchWords
      rw [hgroups'', hpair, hgroups, List.map_append, map_parse_segments hgs, List.flatMap_append,
        List.map_append]
      have hwords := parseV6Group_toDigits (g := dottedValue tail / 65536) (by omega)
      have hwords' := parseV6Group_toDigits (g := dottedValue tail % 65536) (by omega)
      simp [groupWords, hv4, hhigh, hwords, hwords']
  · have hdot' : '.' ∉ lower body := fun hin => hdot ((mem_lower_iff (.inr (.inl rfl))).mp hin)
    refine ⟨lower body, by rw [replaceDottedTail, if_neg hdot'], ?_⟩
    rw [splitDoubleColon_lower, List.forall₂_map_right_iff, List.forall₂_same]
    intro half hhalf
    apply reads_lower
    obtain ⟨init, last, n, hsplit, hinit, hcount, -⟩ := v6_halves h
    rw [hsplit] at hhalf
    rcases List.mem_snoc.mp hhalf with hin | rfl
    · exact hinit half hin
    · rcases groupCount_cases hcount with ⟨hall, -⟩ | ⟨-, -, gs, tail, hgroups, hv4, -⟩
      · exact hall
      · -- a dotted group would put a dot into the text
        have htail : tail ∈ colonGroups half := by simp [hgroups]
        have hne : half ≠ [] := by
          rintro rfl
          simp [colonGroups] at hgroups
        rw [colonGroups, if_neg hne] at htail
        have hin := mem_of_mem_splitOn htail (dotted_mem hv4)
        exact absurd (mem_of_mem_splitDoubleColon (hsplit ▸ hhalf) hin) hdot

theorem parseIpv6_of_isIPv6 {text : List Char} (h : isIPv6 text = true) :
    parseIpv6 text = some (addressValue text .v6) := by
  obtain ⟨haddress, -⟩ := (Bool.and_eq_true _ _).mp h
  obtain ⟨rewritten, hrewrite, hreads⟩ := replaceDottedTail_reads haddress
  unfold parseIpv6
  dsimp only
  rw [← lower, takeWhile_lower text (.inr (.inr rfl)), hrewrite, Option.bind_some]
  unfold isV6Address at haddress
  unfold addressValue addressWords
  generalize splitDoubleColon rewritten = halves at hreads ⊢
  split at haddress
  · rename_i half hsplit
    have hlen := length_stretchWords (of_decide_eq_true haddress)
    rw [hsplit] at hreads ⊢
    cases hreads with
    | cons hhalf hnil =>
        cases hnil
        dsimp only
        have hcount := congrArg List.length hhalf
        rw [List.length_map, List.length_map, hlen] at hcount
        rw [if_pos hcount, parseGroups, placeValue_of_map_eq hhalf]
        simp
  · rename_i left right hsplit
    split at haddress
    · rename_i l r hl hr
      have hle : l + r ≤ 7 := of_decide_eq_true haddress
      rw [hsplit] at hreads ⊢
      cases hreads with
      | cons hleft hrest =>
          cases hrest with
          | cons hright hnil =>
              cases hnil
              dsimp only
              have hcountl := congrArg List.length hleft
              have hcountr := congrArg List.length hright
              rw [List.length_map, List.length_map] at hcountl hcountr
              have hlenl := length_stretchWords hl
              have hlenr := length_stretchWords hr
              rw [if_pos (by omega), parseGroups]
              -- the groups that are left out read as zero words
              apply placeValue_of_map_eq
              have hzero : parseV6Group ['0'] = some 0 := by decide
              rw [List.map_append, List.map_append, hleft, hright, List.map_replicate, hzero,
                hcountl, hcountr, List.map_append, List.map_append, List.map_replicate]
    · cases haddress
  · cases haddress

theorem parseIp_eq_addressOf (text : List Char) : parseIp text = addressOf text := by
  unfold parseIp addressOf
  cases his : isIP text with
  | none => rfl
  | some version =>
      unfold isIP at his
      split at his
      · rename_i hv4
        obtain rfl := Option.some.inj his
        rw [parseIpv4_of_isIPv4 hv4]
        rfl
      · split at his
        · rename_i hv6
          obtain rfl := Option.some.inj his
          rw [parseIpv6_of_isIPv6 hv6]
          rfl
        · cases his

end BurrowGate.Net
