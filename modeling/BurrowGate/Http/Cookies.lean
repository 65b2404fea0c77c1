import BurrowGate.Js.UriEncoding
import BurrowGate.Lib.OrderedMap

/-!
# `cookies.ts`: the Cookie header

The parser of the header, and the edits that `upstreamHeaders` makes to what the client sent
before the origin sees it. Strings are lists of code points.
-/

namespace BurrowGate.Http

open Js Lib

/-! ## The parser -/

/-- The parts of a header. One that is absent or empty is not split. -/
def cookieParts : Option (List Char) → List (List Char)
  | none => []
  | some header => if header = [] then [] else header.splitOn ';'

def decodeCookie (value : List Char) : List Char := (decodeURIComponent value).getD value

/-- `none` where the part is skipped: it has no equals sign, or begins with one. -/
def cookiePair (part : List Char) : Option (List Char × List Char) :=
  match part.dropWhile (· ≠ '=') with
  | [] => none
  | _ :: value =>
      let name := part.takeWhile (· ≠ '=')
      if name = [] then none else some (trim name, decodeCookie (trim value))

def parseCookies (header : Option (List Char)) : OrderedMap (List Char) (List Char) :=
  OrderedMap.empty.setAll ((cookieParts header).filterMap cookiePair)

/-! ## The edits -/

def keptParts (header : Option (List Char)) (name : List Char) : List (List Char) :=
  ((cookieParts header).map trim).filter (!(name ++ ['=']).isPrefixOf ·)

def removeCookieFromHeader (header : Option (List Char)) (name : List Char) :
    Option (List Char) :=
  let kept := keptParts header name
  if kept = [] then none else some ("; ".toList.intercalate kept)

def setCookieInHeader (header : Option (List Char)) (name value : List Char) : List Char :=
  let serialized := name ++ '=' :: encodeURIComponent value
  match removeCookieFromHeader header name with
  | none => serialized
  | some existing =>
      if existing = [] then serialized else existing ++ "; ".toList ++ serialized

/-- The cookies of the visitor and of the signed-in user are removed, one name after the other. -/
def removeCookies (header : Option (List Char)) (names : List (List Char)) :
    Option (List Char) :=
  names.foldl removeCookieFromHeader header

/-! ## The law -/

/-- A name that has no equals sign, semicolon or white space. -/
structure CookieName where
  name : List Char
  plain : ∀ c ∈ name, c ≠ '=' ∧ c ≠ ';' ∧ isWhiteSpace c = false

structure CookieEdits (header : Option (List Char)) (name value : List Char) : Prop where
  removed : (parseCookies (removeCookieFromHeader header name)).get? name = none
  kept : ∀ other, other ≠ name → (parseCookies (removeCookieFromHeader header name)).get? other =
    (parseCookies header).get? other
  set : (parseCookies (some (setCookieInHeader header name value))).get? name = some value
  setKept : ∀ other, other ≠ name →
    (parseCookies (some (setCookieInHeader header name value))).get? other =
      (parseCookies header).get? other
  twice : removeCookieFromHeader (removeCookieFromHeader header name) name =
    removeCookieFromHeader header name

/-- The name, then white space, then the equals sign. -/
def spaced (name part : List Char) : Bool :=
  let rest := part.drop name.length
  name.isPrefixOf part && rest.head?.any isWhiteSpace && (trimStart rest).head? = some '='

/-- The value of a cookie without a name. -/
def namelessValue (part : List Char) : Option (List Char) :=
  if (trim part).head? = some '=' then some (decodeCookie (trim ((trim part).drop 1))) else none

structure PlainHeader (header : Option (List Char)) (name : List Char) : Prop where
  /-- No part has white space between the name and the equals sign. -/
  spelled : ∀ part ∈ cookieParts header, spaced name (trim part) = false
  /-- The last nameless cookie with white space before its equals sign has the value of the
  last one that is not the first part to be kept. -/
  nameless : name ≠ [] →
    (((cookieParts header).filter (·.head? ≠ some '=')).filterMap namelessValue).getLast? =
      (((keptParts header name).drop 1).filterMap namelessValue).getLast?
  /-- More is kept than one blank part. -/
  nonblank : keptParts header name ≠ [[]]
  /-- A value can only be set without a name where something is kept. -/
  named : name = [] → keptParts header name ≠ []

/-! ## White space -/

theorem trimStart_blank_append {blank cs : List Char} (h : ∀ c ∈ blank, isWhiteSpace c = true) :
    trimStart (blank ++ cs) = trimStart cs :=
  List.dropWhile_append_of_pos h

theorem trimEnd_append_blank {blank cs : List Char} (h : ∀ c ∈ blank, isWhiteSpace c = true) :
    trimEnd (cs ++ blank) = trimEnd cs := by
  have hreverse : ∀ c ∈ blank.reverse, isWhiteSpace c = true :=
    fun c hc => h c (List.mem_reverse.mp hc)
  rw [trimEnd, List.reverse_append, List.dropWhile_append_of_pos hreverse, trimEnd]

theorem trimStart_eq_nil {cs : List Char} (h : ∀ c ∈ cs, isWhiteSpace c = true) :
    trimStart cs = [] :=
  List.dropWhile_eq_nil_iff.mpr h

theorem trim_blank_append {blank cs : List Char} (h : ∀ c ∈ blank, isWhiteSpace c = true) :
    trim (blank ++ cs) = trim cs := by
  rw [trim, trimStart_blank_append h, trim]

theorem trim_space (cs : List Char) : trim (' ' :: cs) = trim cs := by
  have hblank : ∀ c ∈ [' '], isWhiteSpace c = true := by
    intro c hc
    rw [List.mem_singleton.mp hc]
    rfl
  exact trim_blank_append hblank

theorem trim_append_blank {blank cs : List Char} (h : ∀ c ∈ blank, isWhiteSpace c = true) :
    trim (cs ++ blank) = trim cs := by
  rw [trim, trim, trimStart, trimStart, List.dropWhile_append]
  split
  · rename_i hempty
    rw [List.isEmpty_iff.mp hempty]
    exact congrArg trimEnd (trimStart_eq_nil h)
  · exact trimEnd_append_blank h

theorem trim_trim (cs : List Char) : trim (trim cs) = trim cs := by
  obtain ⟨lead, tail, hcs, hlead, htail⟩ := trim_append cs
  have h := congrArg trim hcs
  rw [trim_append_blank htail, trim_blank_append hlead] at h
  exact h.symm

theorem trim_eq_self {cs : List Char} (h : ∀ c ∈ cs, isWhiteSpace c = false) : trim cs = cs := by
  obtain ⟨lead, tail, hcs, hlead, htail⟩ := trim_append cs
  have hnone : ∀ part : List Char, (∀ c ∈ part, isWhiteSpace c = true) → (∀ c ∈ part, c ∈ cs) →
      part = [] := by
    intro part hblank hmem
    apply List.eq_nil_iff_forall_not_mem.mpr
    intro c hc
    exact absurd ((h c (hmem c hc)).symm.trans (hblank c hc)) Bool.false_ne_true
  have hl := hnone lead hlead fun c hc => by rw [hcs]; simp [hc]
  have ht := hnone tail htail fun c hc => by rw [hcs]; simp [hc]
  rw [hl, ht, List.nil_append, List.append_nil] at hcs
  exact hcs.symm

/-- A trimmed text does not begin with white space. -/
theorem head_trim {c : Char} {rest cs : List Char} (h : trim cs = c :: rest) :
    isWhiteSpace c = false := by
  obtain ⟨tail, htail, -⟩ := trimEnd_append (trimStart cs)
  rw [← trim, h] at htail
  have hhead := List.head?_dropWhile_not isWhiteSpace cs
  rw [← trimStart, htail] at hhead
  simpa using hhead

/-! ## One part -/

/-- What a part says, wherever its equals sign stands. -/
def partPair (part : List Char) : Option (List Char × List Char) :=
  match part.dropWhile (· ≠ '=') with
  | [] => none
  | _ :: value => some (trim (part.takeWhile (· ≠ '=')), decodeCookie (trim value))

theorem cut_at_equals {name : List Char} (h : '=' ∉ name) (value : List Char) :
    (name ++ '=' :: value).takeWhile (· ≠ '=') = name ∧
      (name ++ '=' :: value).dropWhile (· ≠ '=') = '=' :: value := by
  have hname : ∀ c ∈ name, decide (c ≠ '=') = true := by
    intro c hc
    exact decide_eq_true fun heq => h (heq ▸ hc)
  constructor
  · rw [List.takeWhile_append_of_pos hname, List.takeWhile_cons_of_neg (by simp),
      List.append_nil]
  · rw [List.dropWhile_append_of_pos hname, List.dropWhile_cons_of_neg (by simp)]

theorem partPair_none {part : List Char} (h : '=' ∉ part) : partPair part = none := by
  have hdrop : part.dropWhile (· ≠ '=') = [] := by
    apply List.dropWhile_eq_nil_iff.mpr
    intro c hc
    exact decide_eq_true fun heq => h (heq ▸ hc)
  rw [partPair, hdrop]

theorem partPair_cut {name : List Char} (h : '=' ∉ name) (value : List Char) :
    partPair (name ++ '=' :: value) = some (trim name, decodeCookie (trim value)) := by
  obtain ⟨htake, hdrop⟩ := cut_at_equals h value
  rw [partPair, htake, hdrop]

theorem cookiePair_eq (part : List Char) :
    cookiePair part = if part.head? = some '=' then none else partPair part := by
  by_cases hmem : '=' ∈ part
  · obtain ⟨name, value, rfl, hname⟩ := List.eq_append_cons_of_mem hmem
    obtain ⟨htake, hdrop⟩ := cut_at_equals hname value
    rw [partPair_cut hname, cookiePair, htake, hdrop]
    cases name with
    | nil => rfl
    | cons c name =>
        have hc : ¬(c :: name ++ '=' :: value).head? = some '=' := by
          intro hhead
          exact hname (List.mem_cons.mpr (.inl (Option.some.inj hhead).symm))
        rw [if_neg hc]
        rfl
  · have hdrop : part.dropWhile (· ≠ '=') = [] := by
      apply List.dropWhile_eq_nil_iff.mpr
      intro c hc
      exact decide_eq_true fun heq => hmem (heq ▸ hc)
    rw [cookiePair, hdrop, partPair_none hmem, ite_self]

theorem equals_notMem_blank {blank : List Char} (h : ∀ c ∈ blank, isWhiteSpace c = true) :
    '=' ∉ blank :=
  fun hmem => absurd (h _ hmem) (by decide)

/-- White space around a part changes nothing. -/
theorem partPair_trim (part : List Char) : partPair (trim part) = partPair part := by
  obtain ⟨lead, tail, hpart, hlead, htail⟩ := trim_append part
  by_cases hmem : '=' ∈ trim part
  · obtain ⟨name, value, hcut, hname⟩ := List.eq_append_cons_of_mem hmem
    have hwhole : part = (lead ++ name) ++ '=' :: (value ++ tail) := by
      rw [hpart, hcut]
      simp
    have hlong : '=' ∉ lead ++ name := by
      intro h
      rcases List.mem_append.mp h with h | h
      · exact equals_notMem_blank hlead h
      · exact hname h
    rw [hcut, partPair_cut hname, hwhole, partPair_cut hlong, trim_blank_append hlead,
      trim_append_blank htail]
  · have hwhole : '=' ∉ part := by
      rw [hpart]
      intro h
      rcases List.mem_append.mp h with h | h
      · rcases List.mem_append.mp h with h | h
        · exact equals_notMem_blank hlead h
        · exact hmem h
      · exact equals_notMem_blank htail h
    rw [partPair_none hmem, partPair_none hwhole]

/-- The value that a part gives to a name. -/
def valueFor (name part : List Char) : Option (List Char) :=
  (partPair part).bind fun pair => if pair.1 = name then some pair.2 else none

theorem valueFor_trim (name part : List Char) : valueFor name (trim part) = valueFor name part := by
  rw [valueFor, partPair_trim, valueFor]

theorem valueFor_blank (name part : List Char) :
    valueFor name (' ' :: part) = valueFor name part := by
  rw [← valueFor_trim name (' ' :: part), trim_space, valueFor_trim]

theorem valueFor_cut {name found : List Char} (h : '=' ∉ found) (value : List Char) :
    valueFor name (found ++ '=' :: value) =
      if trim found = name then some (decodeCookie (trim value)) else none := by
  rw [valueFor, partPair_cut h]
  rfl

theorem valueFor_none {name part : List Char} (h : '=' ∉ part) : valueFor name part = none := by
  rw [valueFor, partPair_none h]
  rfl

/-- What the parser reads in a part for a name. -/
theorem cookiePair_valueFor (name part : List Char) :
    ((cookiePair part).bind fun pair => if pair.1 = name then some pair.2 else none) =
      if part.head? = some '=' then none else valueFor name part := by
  rw [cookiePair_eq]
  split
  · rfl
  · rfl

/-- A name is read only where the part does not begin with the equals sign. -/
theorem valueFor_of_head {name part : List Char} (hname : name ≠ [])
    (h : part.head? = some '=') : valueFor name part = none := by
  obtain ⟨value, rfl⟩ : ∃ value, part = '=' :: value := by
    cases part with
    | nil => cases h
    | cons c value => exact ⟨value, congrArg (· :: value) (Option.some.inj h)⟩
  have hcut : valueFor name ('=' :: value) =
      if trim [] = name then some (decodeCookie (trim value)) else none :=
    valueFor_cut List.not_mem_nil value
  rw [hcut, if_neg]
  exact fun hnil => hname hnil.symm

theorem valueFor_nil (part : List Char) : valueFor [] part = namelessValue part := by
  rw [← valueFor_trim, namelessValue]
  by_cases hmem : '=' ∈ trim part
  · obtain ⟨found, value, hcut, hfound⟩ := List.eq_append_cons_of_mem hmem
    rw [hcut, valueFor_cut hfound]
    cases found with
    | nil => rfl
    | cons c found =>
        have hblank : trim (c :: found) ≠ [] := by
          intro hnil
          obtain ⟨lead, tail, hall, hlead, htail⟩ := trim_append (c :: found)
          rw [hnil, List.append_nil] at hall
          have hc : c ∈ lead ++ tail := hall ▸ List.mem_cons_self
          have hwhite : isWhiteSpace c = true :=
            (List.mem_append.mp hc).elim (hlead c) (htail c)
          exact absurd ((head_trim hcut).symm.trans hwhite) Bool.false_ne_true
        have hhead : ¬(c :: found ++ '=' :: value).head? = some '=' := by
          intro h
          exact hfound (List.mem_cons.mpr (.inl (Option.some.inj h).symm))
        rw [if_neg hblank, if_neg hhead]
  · have hhead : ¬(trim part).head? = some '=' := fun h => hmem (List.mem_of_head? h)
    rw [valueFor_none hmem, if_neg hhead]

theorem CookieName.equals_notMem (cookie : CookieName) : '=' ∉ cookie.name :=
  fun h => (cookie.plain _ h).1 rfl

theorem CookieName.trim_eq (cookie : CookieName) : trim cookie.name = cookie.name :=
  trim_eq_self fun c hc => (cookie.plain c hc).2.2

/-- A part gives a value to a name where the name and the equals sign begin it, with nothing or
white space between them. -/
theorem valueFor_isSome (cookie : CookieName) (part : List Char) :
    (valueFor cookie.name part).isSome = true ↔
      (cookie.name ++ ['=']).isPrefixOf (trim part) = true ∨
        spaced cookie.name (trim part) = true := by
  rw [← valueFor_trim]
  constructor
  · intro h
    by_cases hmem : '=' ∈ trim part
    · obtain ⟨found, value, hcut, hfound⟩ := List.eq_append_cons_of_mem hmem
      rw [hcut, valueFor_cut hfound] at h
      split at h
      · rename_i hname
        have hstart : trimStart found = found := by
          cases found with
          | nil => rfl
          | cons c found => exact List.dropWhile_cons_of_neg (by simp [head_trim hcut])
        obtain ⟨tail, htail, hblank⟩ := trimEnd_append found
        rw [trim, hstart] at hname
        rw [hname] at htail
        rw [hcut, htail]
        cases tail with
        | nil =>
            left
            rw [List.isPrefixOf_iff_prefix]
            exact ⟨value, by simp⟩
        | cons c tail =>
            right
            have hrest : trimStart (c :: tail ++ '=' :: value) = '=' :: value := by
              rw [trimStart_blank_append hblank]
              exact List.dropWhile_cons_of_neg (by decide)
            rw [spaced, List.append_assoc, List.drop_left, hrest, List.cons_append,
              List.head?_cons, Option.any_some, hblank c List.mem_cons_self,
              List.isPrefixOf_iff_prefix.mpr (List.prefix_append ..)]
            rfl
      · cases h
    · rw [valueFor_none hmem] at h
      cases h
  · rintro ( hprefix | hspaced)
    · obtain ⟨value, hvalue⟩ := List.isPrefixOf_iff_prefix.mp hprefix
      rw [← hvalue, List.append_assoc, List.singleton_append,
        valueFor_cut cookie.equals_notMem, if_pos cookie.trim_eq]
      rfl
    · obtain ⟨hbegin, hequals⟩ := Bool.and_eq_true_iff.mp hspaced
      obtain ⟨hname, -⟩ := Bool.and_eq_true_iff.mp hbegin
      obtain ⟨rest, hrest⟩ := List.isPrefixOf_iff_prefix.mp hname
      rw [← hrest, List.drop_left] at hequals
      have hparts := List.takeWhile_append_dropWhile (p := isWhiteSpace) (l := rest)
      have hblank : ∀ c ∈ rest.takeWhile isWhiteSpace, isWhiteSpace c = true :=
        fun c hc => List.mem_takeWhile_imp hc
      obtain ⟨value, hvalue⟩ : ∃ value, rest.dropWhile isWhiteSpace = '=' :: value := by
        have hhead := of_decide_eq_true hequals
        rw [trimStart] at hhead
        cases hdrop : rest.dropWhile isWhiteSpace with
        | nil => rw [hdrop] at hhead; cases hhead
        | cons c value =>
            rw [hdrop] at hhead
            exact ⟨value, congrArg (· :: value) (Option.some.inj hhead)⟩
      have hfound : '=' ∉ cookie.name ++ rest.takeWhile isWhiteSpace := by
        intro h
        rcases List.mem_append.mp h with h | h
        · exact cookie.equals_notMem h
        · exact equals_notMem_blank hblank h
      have hwhole : trim part = (cookie.name ++ rest.takeWhile isWhiteSpace) ++ '=' :: value := by
        rw [← hrest]
        conv_lhs => rw [← hparts, hvalue]
        rw [List.append_assoc]
      rw [hwhole, valueFor_cut hfound, trim_append_blank hblank, if_pos cookie.trim_eq]
      rfl

/-! ## The parts of an edited header -/

/-- What the parser reads in a part for a name. -/
def readPart (name part : List Char) : Option (List Char) :=
  if part.head? = some '=' then none else valueFor name part

theorem get?_parseCookies (header : Option (List Char)) (name : List Char) :
    (parseCookies header).get? name =
      ((cookieParts header).filterMap (readPart name)).getLast? := by
  rw [parseCookies, OrderedMap.get?_setAll, OrderedMap.get?_empty, Option.or_none,
    List.filterMap_filterMap]
  congr 2
  funext part
  exact cookiePair_valueFor name part

theorem readPart_of_ne_nil {name : List Char} (hname : name ≠ []) (part : List Char) :
    readPart name part = valueFor name part := by
  rw [readPart]
  split
  · rw [valueFor_of_head hname ‹_›]
  · rfl

theorem readPart_blank (name part : List Char) :
    readPart name (' ' :: part) = valueFor name part := by
  rw [readPart, if_neg (by simp), valueFor_blank]

theorem readPart_nil_trim (part : List Char) : readPart [] (trim part) = none := by
  rw [readPart, valueFor_nil, namelessValue, trim_trim]
  split
  · rfl
  · rfl

/-- How the kept parts are read back: all but the first have a space in front. -/
def rejoined : List (List Char) → List (List Char)
  | [] => []
  | part :: rest => if part :: rest = [[]] then [] else part :: rest.map (' ' :: ·)

theorem notMem_of_mem_splitOn {sep : Char} {text part : List Char} (h : part ∈ text.splitOn sep) :
    sep ∉ part := by
  induction text generalizing part with
  | nil =>
      obtain rfl := List.mem_singleton.mp h
      exact List.not_mem_nil
  | cons c text ih =>
      rw [List.splitOn_cons_eq_if_modifyHead] at h
      split at h
      · rcases List.mem_cons.mp h with rfl | h
        · exact List.not_mem_nil
        · exact ih h
      · rename_i hc
        obtain ⟨first, rest, hsplit⟩ := List.exists_cons_of_ne_nil (List.splitOn_ne_nil sep text)
        rw [hsplit] at ih h
        rcases List.mem_cons.mp h with rfl | h
        · intro hmem
          rcases List.mem_cons.mp hmem with rfl | hmem
          · exact hc (beq_self_eq_true _)
          · exact ih List.mem_cons_self hmem
        · exact ih (List.mem_cons_of_mem _ h)

theorem semicolon_notMem_part {header : Option (List Char)} {part : List Char}
    (h : part ∈ cookieParts header) : ';' ∉ part := by
  cases header with
  | none => cases h
  | some header =>
      rw [cookieParts] at h
      split at h
      · cases h
      · exact notMem_of_mem_splitOn h

theorem keptParts_plain {header : Option (List Char)} {name part : List Char}
    (h : part ∈ keptParts header name) : ';' ∉ part ∧ trim part = part := by
  obtain ⟨whole, hwhole, rfl⟩ := List.mem_map.mp (List.mem_filter.mp h).1
  refine ⟨fun hmem => ?_, trim_trim whole⟩
  obtain ⟨lead, tail, hcut, -⟩ := trim_append whole
  apply semicolon_notMem_part hwhole
  rw [hcut]
  simp [hmem]

theorem intercalate_cons {sep part next : List Char} {rest : List (List Char)} :
    sep.intercalate (part :: next :: rest) = part ++ (sep ++ sep.intercalate (next :: rest)) :=
  rfl

theorem intercalate_blank (part : List Char) (rest : List (List Char)) :
    "; ".toList.intercalate (part :: rest) = [';'].intercalate (part :: rest.map (' ' :: ·)) := by
  induction rest generalizing part with
  | nil => rfl
  | cons next rest ih =>
      have hblank : [';'].intercalate ((' ' :: next) :: rest.map (' ' :: ·)) =
          ' ' :: [';'].intercalate (next :: rest.map (' ' :: ·)) := by
        cases rest <;> rfl
      rw [List.map_cons, intercalate_cons, intercalate_cons, ih, hblank]
      rfl

/-- Parts that are joined again are split again, with a space in front of all but the first. -/
theorem cookieParts_intercalate {kept : List (List Char)} (h : ∀ part ∈ kept, ';' ∉ part)
    (hkept : kept ≠ []) :
    cookieParts (some ("; ".toList.intercalate kept)) = rejoined kept := by
  obtain ⟨part, rest, rfl⟩ := List.exists_cons_of_ne_nil hkept
  rw [rejoined, cookieParts, intercalate_blank]
  have hempty : [';'].intercalate (part :: rest.map (' ' :: ·)) = [] ↔ part :: rest = [[]] := by
    cases rest with
    | nil => simp [List.intercalate]
    | cons next rest => simp
  have hplain : ∀ l ∈ part :: rest.map (' ' :: ·), ';' ∉ l := by
    intro l hl
    rcases List.mem_cons.mp hl with rfl | hl
    · exact h l List.mem_cons_self
    · obtain ⟨next, hnext, rfl⟩ := List.mem_map.mp hl
      have hnone := h next (List.mem_cons_of_mem _ hnext)
      intro hmem
      rcases List.mem_cons.mp hmem with heq | hmem
      · exact absurd heq (by decide)
      · exact hnone hmem
  rw [List.splitOn_intercalate ';' hplain (by simp)]
  simp only [hempty]

theorem cookieParts_remove (header : Option (List Char)) (name : List Char) :
    cookieParts (removeCookieFromHeader header name) = rejoined (keptParts header name) := by
  rw [removeCookieFromHeader]
  split
  · rename_i hnone
    rw [hnone]
    rfl
  · rename_i hkept
    exact cookieParts_intercalate (fun part hpart => (keptParts_plain hpart).1) hkept

/-- What is read for a name in parts that were joined. -/
theorem filterMap_rejoined {kept : List (List Char)} (hkept : ∀ part ∈ kept, trim part = part)
    (name : List Char) :
    (rejoined kept).filterMap (readPart name) =
      (if name = [] then kept.drop 1 else kept).filterMap (valueFor name) := by
  cases kept with
  | nil => split <;> rfl
  | cons part rest =>
      have hfirst : readPart name part = if name = [] then none else valueFor name part := by
        split
        · rename_i hname
          rw [hname, ← hkept part List.mem_cons_self]
          exact readPart_nil_trim part
        · rename_i hname
          exact readPart_of_ne_nil hname part
      have hrest : (rest.map (' ' :: ·)).filterMap (readPart name) =
          rest.filterMap (valueFor name) := by
        rw [List.filterMap_map]
        exact congrArg (rest.filterMap ·) (funext fun next => readPart_blank name next)
      rw [rejoined]
      split
      · rename_i hblank
        obtain ⟨rfl, rfl⟩ := List.cons.inj hblank
        split
        · rfl
        · rw [List.filterMap_cons, valueFor_none List.not_mem_nil]
          rfl
      · rw [List.filterMap_cons, hfirst, hrest]
        by_cases hname : name = []
        · rw [if_pos hname, if_pos hname]
          rfl
        · rw [if_neg hname, if_neg hname, List.filterMap_cons]

/-! ## The three edits -/

variable {header : Option (List Char)} {cookie : CookieName} {value : List Char}

theorem get?_remove (header : Option (List Char)) (name other : List Char) :
    (parseCookies (removeCookieFromHeader header name)).get? other =
      ((if other = [] then (keptParts header name).drop 1 else keptParts header name).filterMap
        (valueFor other)).getLast? := by
  rw [get?_parseCookies, cookieParts_remove,
    filterMap_rejoined fun part hpart => (keptParts_plain hpart).2]

/-- A part that is removed says nothing about another name. -/
theorem filterMap_keptParts (cookie : CookieName) {other : List Char}
    (hother : other ≠ cookie.name) :
    (keptParts header cookie.name).filterMap (valueFor other) =
      (cookieParts header).filterMap (valueFor other) := by
  rw [keptParts, List.filterMap_filter, List.filterMap_map]
  congr 1
  funext part
  rw [Function.comp_apply]
  split
  · exact valueFor_trim other part
  · rename_i hprefix
    have hbegins : (cookie.name ++ ['=']).isPrefixOf (trim part) = true := by
      simpa only [Bool.not_eq_true', Bool.not_eq_false] using hprefix
    obtain ⟨rest, hrest⟩ := List.isPrefixOf_iff_prefix.mp hbegins
    rw [← valueFor_trim, ← hrest, List.append_assoc, List.singleton_append,
      valueFor_cut cookie.equals_notMem, cookie.trim_eq, if_neg hother.symm]

theorem get?_header (header : Option (List Char)) {name : List Char} (hname : name ≠ []) :
    (parseCookies header).get? name =
      ((cookieParts header).filterMap (valueFor name)).getLast? := by
  rw [get?_parseCookies]
  congr 2
  funext part
  exact readPart_of_ne_nil hname part

theorem get?_header_nil (header : Option (List Char)) :
    (parseCookies header).get? [] =
      (((cookieParts header).filter (·.head? ≠ some '=')).filterMap namelessValue).getLast? := by
  rw [get?_parseCookies, List.filterMap_filter]
  congr 2
  funext part
  rw [readPart, valueFor_nil]
  by_cases hhead : part.head? = some '='
  · rw [if_pos hhead, if_neg (by simp [hhead])]
  · rw [if_neg hhead, if_pos (by simp [hhead])]

theorem filterMap_namelessValue (parts : List (List Char)) :
    parts.filterMap (valueFor []) = parts.filterMap namelessValue := by
  congr 1
  funext part
  exact valueFor_nil part

/-- The other names read the same exactly when the nameless cookies do. -/
theorem get?_remove_other (header : Option (List Char)) (cookie : CookieName) :
    (∀ other, other ≠ cookie.name →
      (parseCookies (removeCookieFromHeader header cookie.name)).get? other =
        (parseCookies header).get? other) ↔
      (cookie.name ≠ [] →
        (((cookieParts header).filter (·.head? ≠ some '=')).filterMap namelessValue).getLast? =
          (((keptParts header cookie.name).drop 1).filterMap namelessValue).getLast?) := by
  have hnameless : ∀ name, (parseCookies (removeCookieFromHeader header name)).get? [] =
      (((keptParts header name).drop 1).filterMap namelessValue).getLast? := by
    intro name
    rw [get?_remove, if_pos rfl, filterMap_namelessValue]
  constructor
  · intro h hname
    have hnil := h [] hname.symm
    rw [hnameless, get?_header_nil] at hnil
    exact hnil.symm
  · intro h other hother
    by_cases hnil : other = []
    · subst hnil
      rw [hnameless, get?_header_nil, h hother.symm]
    · rw [get?_remove, if_neg hnil, filterMap_keptParts cookie hother, get?_header header hnil]

theorem spaced_not_plain {name part : List Char} (h : spaced name part = true) :
    (name ++ ['=']).isPrefixOf part = false := by
  by_contra hprefix
  obtain ⟨rest, rfl⟩ := List.isPrefixOf_iff_prefix.mp (eq_true_of_ne_false hprefix)
  rw [spaced, List.append_assoc, List.drop_left] at h
  simp [isWhiteSpace] at h

theorem spaced_nil (part : List Char) : spaced [] (trim part) = false := by
  rw [spaced, List.length_nil, List.drop_zero]
  cases hpart : trim part with
  | nil => rfl
  | cons c rest => simp [head_trim hpart]

/-- The name is gone exactly when no part has white space after it. -/
theorem get?_remove_self (header : Option (List Char)) (cookie : CookieName) :
    (parseCookies (removeCookieFromHeader header cookie.name)).get? cookie.name = none ↔
      ∀ part ∈ cookieParts header, spaced cookie.name (trim part) = false := by
  -- A part that is kept gives the name a value where it is spaced, and only there.
  have hkept : ∀ part ∈ keptParts header cookie.name, valueFor cookie.name part = none ↔
      spaced cookie.name part = false := by
    intro part hpart
    have hsome := valueFor_isSome cookie part
    have hplain := (List.mem_filter.mp hpart).2
    rw [(keptParts_plain hpart).2] at hsome
    rw [Bool.not_eq_true'] at hplain
    rw [hplain] at hsome
    cases hvalue : valueFor cookie.name part <;> cases hspaced : spaced cookie.name part <;>
      simp [hvalue, hspaced] at hsome ⊢
  rw [get?_remove, List.getLast?_eq_none_iff, List.filterMap_eq_nil_iff]
  constructor
  · intro h part hpart
    by_contra hspaced
    have hspaced := eq_true_of_ne_false hspaced
    have hmem : trim part ∈ keptParts header cookie.name := by
      apply List.mem_filter.mpr
      exact ⟨List.mem_map_of_mem hpart, by rw [spaced_not_plain hspaced]; rfl⟩
    have hname : cookie.name ≠ [] := by
      intro hnil
      rw [hnil, spaced_nil] at hspaced
      cases hspaced
    rw [if_neg hname] at h
    rw [(hkept _ hmem).mp (h _ hmem)] at hspaced
    cases hspaced
  · intro h part hpart
    have hmem : part ∈ keptParts header cookie.name := by
      split at hpart
      · exact List.mem_of_mem_drop hpart
      · exact hpart
    apply (hkept part hmem).mpr
    obtain ⟨whole, hwhole, rfl⟩ := List.mem_map.mp (List.mem_filter.mp hmem).1
    exact h whole hwhole

/-! ## The new value -/

theorem trim_encode (value : List Char) :
    trim (encodeURIComponent value) = encodeURIComponent value :=
  trim_eq_self fun _ hc => (isUriEncoded_cases (isUriEncoded_of_mem hc)).1

theorem valueFor_serialized (cookie : CookieName) (value other : List Char) :
    valueFor other (cookie.name ++ '=' :: encodeURIComponent value) =
      if other = cookie.name then some value else none := by
  rw [valueFor_cut cookie.equals_notMem, cookie.trim_eq, trim_encode, decodeCookie,
    decodeURIComponent_encodeURIComponent]
  split
  · rename_i h
    rw [if_pos h.symm]
    rfl
  · rename_i h
    rw [if_neg fun heq => h heq.symm]

theorem cookieParts_set (header : Option (List Char)) (cookie : CookieName)
    (value : List Char) :
    cookieParts (some (setCookieInHeader header cookie.name value)) =
      if rejoined (keptParts header cookie.name) = [] then
        [cookie.name ++ '=' :: encodeURIComponent value]
      else rejoined (keptParts header cookie.name) ++
        [' ' :: (cookie.name ++ '=' :: encodeURIComponent value)] := by
  have hplain : ';' ∉ cookie.name ++ '=' :: encodeURIComponent value := by
    intro h
    rcases List.mem_append.mp h with h | h
    · exact (cookie.plain _ h).2.1 rfl
    · rcases List.mem_cons.mp h with h | h
      · exact absurd h (by decide)
      · exact (isUriEncoded_cases (isUriEncoded_of_mem h)).2 rfl
  have halone : cookieParts (some (cookie.name ++ '=' :: encodeURIComponent value)) =
      [cookie.name ++ '=' :: encodeURIComponent value] := by
    rw [cookieParts, if_neg (by simp), List.splitOn_eq_singleton hplain]
  rw [← cookieParts_remove, setCookieInHeader]
  cases removeCookieFromHeader header cookie.name with
  | none => exact halone
  | some existing =>
      by_cases hempty : existing = []
      · rw [hempty]
        exact halone
      · have hexisting : cookieParts (some existing) = existing.splitOn ';' := if_neg hempty
        have hspace : ';' ∉ ' ' :: (cookie.name ++ '=' :: encodeURIComponent value) := by
          intro h
          rcases List.mem_cons.mp h with h | h
          · exact absurd h (by decide)
          · exact hplain h
        have hjoined : existing ++ "; ".toList ++ (cookie.name ++ '=' :: encodeURIComponent value) =
            existing ++ ';' :: ' ' :: (cookie.name ++ '=' :: encodeURIComponent value) := by
          rw [List.append_assoc]
          rfl
        dsimp only
        rw [if_neg hempty, hexisting, if_neg (by simp), cookieParts, hjoined, if_neg (by simp),
          List.splitOn_append_cons_self, List.splitOn_eq_singleton hspace]

theorem get?_set_other (header : Option (List Char)) (cookie : CookieName)
    (value : List Char) {other : List Char} (hother : other ≠ cookie.name) :
    (parseCookies (some (setCookieInHeader header cookie.name value))).get? other =
      (parseCookies (removeCookieFromHeader header cookie.name)).get? other := by
  have hnone : valueFor other (cookie.name ++ '=' :: encodeURIComponent value) = none := by
    rw [valueFor_serialized, if_neg hother]
  rw [get?_parseCookies, get?_parseCookies, cookieParts_set, cookieParts_remove]
  split
  · rename_i hnothing
    rw [hnothing, List.filterMap_cons, readPart, hnone, ite_self]
  · rw [List.filterMap_append, List.filterMap_cons, readPart_blank, hnone]
    simp

theorem get?_set_self (header : Option (List Char)) (cookie : CookieName) (value : List Char) :
    (parseCookies (some (setCookieInHeader header cookie.name value))).get? cookie.name =
      some value ↔ cookie.name ≠ [] ∨ rejoined (keptParts header cookie.name) ≠ [] := by
  have hsome : valueFor cookie.name (cookie.name ++ '=' :: encodeURIComponent value) =
      some value := by
    rw [valueFor_serialized, if_pos rfl]
  rw [get?_parseCookies, cookieParts_set]
  split
  · rename_i hnothing
    by_cases hname : cookie.name = []
    · rw [hnothing]
      simp [hname, readPart]
    · simp [readPart_of_ne_nil hname, hsome, hname]
  · rename_i hsomething
    rw [List.filterMap_append, List.filterMap_cons, readPart_blank, hsome]
    simp [hsomething]

/-! ## The same name twice -/

theorem keptParts_remove (header : Option (List Char)) (name : List Char) :
    keptParts (removeCookieFromHeader header name) name =
      if keptParts header name = [[]] then [] else keptParts header name := by
  have htrim : (rejoined (keptParts header name)).map trim =
      if keptParts header name = [[]] then [] else keptParts header name := by
    have hplain : ∀ part ∈ keptParts header name, trim part = part :=
      fun part hpart => (keptParts_plain hpart).2
    cases hkept : keptParts header name with
    | nil => rfl
    | cons part rest =>
        rw [hkept] at hplain
        rw [rejoined]
        split
        · rfl
        · rw [List.map_cons, List.map_map, hplain part List.mem_cons_self]
          congr 1
          conv_rhs => rw [← List.map_id rest]
          apply List.map_congr_left
          intro next hnext
          rw [Function.comp_apply, trim_space, hplain next (List.mem_cons_of_mem _ hnext)]
          rfl
  rw [keptParts, cookieParts_remove, htrim]
  split
  · rfl
  · apply List.filter_eq_self.mpr
    intro part hpart
    exact (List.mem_filter.mp hpart).2

theorem remove_remove (header : Option (List Char)) (name : List Char) :
    removeCookieFromHeader (removeCookieFromHeader header name) name =
      removeCookieFromHeader header name ↔ keptParts header name ≠ [[]] := by
  rw [removeCookieFromHeader, keptParts_remove]
  by_cases hblank : keptParts header name = [[]]
  · rw [if_pos hblank, removeCookieFromHeader, hblank]
    simp
  · rw [if_neg hblank]
    exact ⟨fun _ => hblank, fun _ => rfl⟩

/-! ## The law holds of plain headers -/

theorem rejoined_eq_nil {kept : List (List Char)} :
    rejoined kept = [] ↔ kept = [] ∨ kept = [[]] := by
  cases kept with
  | nil => simp [rejoined]
  | cons part rest =>
      rw [rejoined]
      split
      · simp [*]
      · simp [*]

/-- The three edits are right exactly for the plain headers. -/
theorem cookie_edits (header : Option (List Char)) (cookie : CookieName) (value : List Char) :
    CookieEdits header cookie.name value ↔ PlainHeader header cookie.name := by
  constructor
  · intro h
    have hnonblank := (remove_remove header cookie.name).mp h.twice
    refine ⟨(get?_remove_self header cookie).mp h.removed,
      (get?_remove_other header cookie).mp h.kept, hnonblank, ?_⟩
    intro hname hkept
    rcases (get?_set_self header cookie value).mp h.set with hne | hne
    · exact hne hname
    · exact hne (rejoined_eq_nil.mpr (.inl hkept))
  · intro h
    have hkept := (get?_remove_other header cookie).mpr h.nameless
    refine ⟨(get?_remove_self header cookie).mpr h.spelled, hkept, ?_, ?_,
      (remove_remove header cookie.name).mpr h.nonblank⟩
    · apply (get?_set_self header cookie value).mpr
      by_cases hname : cookie.name = []
      · right
        intro hnil
        rcases rejoined_eq_nil.mp hnil with hnone | hblank
        · exact h.named hname hnone
        · exact h.nonblank hblank
      · exact .inl hname
    · intro other hother
      rw [get?_set_other header cookie value hother, hkept other hother]

/-! ## The header that the origin receives -/

/-! ## The header that the origin receives -/

theorem mem_rejoined {header : Option (List Char)} {name part : List Char}
    (h : part ∈ rejoined (keptParts header name)) : trim part ∈ keptParts header name := by
  have hplain : ∀ part ∈ keptParts header name, trim part = part :=
    fun part hpart => (keptParts_plain hpart).2
  cases hkept : keptParts header name with
  | nil => rw [hkept] at h; cases h
  | cons first rest =>
      rw [hkept] at h hplain
      rw [rejoined] at h
      split at h
      · cases h
      · rcases List.mem_cons.mp h with rfl | h
        · rw [hplain _ List.mem_cons_self]
          exact List.mem_cons_self
        · obtain ⟨next, hnext, rfl⟩ := List.mem_map.mp h
          rw [trim_space, hplain next (List.mem_cons_of_mem _ hnext)]
          exact List.mem_cons_of_mem _ hnext

/-- No part of the header gives the name a value. -/
def Gone (header : Option (List Char)) (name : List Char) : Prop :=
  ∀ part ∈ cookieParts header, valueFor name part = none

theorem Gone.get? {header : Option (List Char)} {name : List Char} (h : Gone header name) :
    (parseCookies header).get? name = none := by
  rw [get?_parseCookies, List.getLast?_eq_none_iff, List.filterMap_eq_nil_iff]
  intro part hpart
  rw [readPart, h part hpart, ite_self]

theorem Gone.remove {header : Option (List Char)} {name : List Char} (h : Gone header name)
    (other : List Char) : Gone (removeCookieFromHeader header other) name := by
  intro part hpart
  rw [cookieParts_remove] at hpart
  obtain ⟨whole, hwhole, htrim⟩ := List.mem_map.mp (List.mem_filter.mp (mem_rejoined hpart)).1
  rw [← valueFor_trim, ← htrim, valueFor_trim]
  exact h whole hwhole

theorem gone_removeCookies {header : Option (List Char)} {name : List Char}
    (h : Gone header name) (names : List (List Char)) : Gone (removeCookies header names) name := by
  induction names generalizing header with
  | nil => exact h
  | cons other names ih => exact ih (h.remove other)

/-- Whatever else is removed before and after it, a name that no part spells with white space
after it does not reach the origin. -/
theorem removeCookies_gone {header : Option (List Char)} (cookie : CookieName)
    {names : List (List Char)} (hname : cookie.name ∈ names)
    (hspelled : ∀ part ∈ cookieParts header, spaced cookie.name (trim part) = false) :
    (parseCookies (removeCookies header names)).get? cookie.name = none := by
  induction names generalizing header with
  | nil => cases hname
  | cons other names ih =>
      by_cases hother : other = cookie.name
      · subst hother
        apply Gone.get?
        have hgone : Gone (removeCookieFromHeader header cookie.name) cookie.name := by
          intro part hpart
          rw [cookieParts_remove] at hpart
          have hmem := mem_rejoined hpart
          obtain ⟨whole, hwhole, htrim⟩ := List.mem_map.mp (List.mem_filter.mp hmem).1
          have hkept := (List.mem_filter.mp hmem).2
          rw [Bool.not_eq_true'] at hkept
          by_contra hvalue
          rcases (valueFor_isSome cookie part).mp (Option.isSome_iff_ne_none.mpr hvalue) with h | h
          · rw [hkept] at h
            cases h
          · rw [← htrim, hspelled whole hwhole] at h
            cases h
        exact gone_removeCookies hgone names
      · apply ih ((List.mem_cons.mp hname).resolve_left (Ne.symm hother))
        intro part hpart
        rw [cookieParts_remove] at hpart
        obtain ⟨whole, hwhole, htrim⟩ :=
          List.mem_map.mp (List.mem_filter.mp (mem_rejoined hpart)).1
        rw [← htrim]
        exact hspelled whole hwhole

/-- `bg_session =x` is a session cookie to the parser, and is sent on. -/
theorem spaced_cookie_survives :
    ¬ ∀ (header : Option (List Char)) (cookie : CookieName) (value : List Char),
      CookieEdits header cookie.name value := by
  intro h
  have hplain : "bg_session".toList.all (fun c => c ≠ '=' && (c ≠ ';' && !isWhiteSpace c)) = true := by
    decide
  let cookie : CookieName := ⟨"bg_session".toList, fun c hc => by
    simpa using List.all_eq_true.mp hplain c hc⟩
  have hremoved := (h (some "bg_session =x".toList) cookie []).removed
  have hread : (parseCookies (removeCookieFromHeader (some "bg_session =x".toList)
      "bg_session".toList)).get? "bg_session".toList = some "x".toList := by decide +kernel
  exact absurd (hread.symm.trans hremoved) (by decide)

end BurrowGate.Http
