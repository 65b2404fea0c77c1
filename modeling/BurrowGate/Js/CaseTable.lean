import BurrowGate.Js.TextCoding

/-!
# `toLowerCase` and `toUpperCase`

The case mappings of Unicode are a table; what the algorithm adds is the sigma at the end of a
word. A table has what it says of ASCII, of the characters that become ASCII, and of white space
and the ampersand, which no word contains.
-/

namespace BurrowGate.Js

def asciiLower (c : Char) : Char := if 'A' ≤ c ∧ c ≤ 'Z' then Char.ofNat (c.toNat + 32) else c

def asciiUpper (c : Char) : Char := if 'a' ≤ c ∧ c ≤ 'z' then Char.ofNat (c.toNat - 32) else c

/-- `ſ`, the long s -/
def LONG_S : Char := '\u017f'

/-- `K`, the sign for the kelvin -/
def KELVIN : Char := '\u212a'

/-- The mappings of single characters, the properties `Cased` and `Case_Ignorable`, and the simple
case folding that regular expressions use. -/
structure CaseTable where
  lower : Char → List Char
  upper : Char → List Char
  cased : Char → Bool
  ignorable : Char → Bool
  fold : Char → Char
  lower_blank : ∀ c, isWhiteSpace c = true → lower c = [c] ∧ cased c = false
  lower_ampersand : lower '&' = ['&'] ∧ cased '&' = false ∧ ignorable '&' = false
  lower_ascii : ∀ c, isAscii c = true → lower c = [asciiLower c]
  lower_kelvin : lower KELVIN = ['k']
  lower_other : ∀ c, isAscii c = false → c ≠ KELVIN → ∃ d ∈ lower c, isAscii d = false
  upper_ascii : ∀ c, isAscii c = true → upper c = [asciiUpper c]
  fold_ascii : ∀ c, isAscii c = true → fold c = asciiLower c
  fold_longS : fold LONG_S = 's'
  fold_kelvin : fold KELVIN = 'k'
  fold_other : ∀ c, isAscii c = false → c ≠ LONG_S → c ≠ KELVIN → isAscii (fold c) = false

namespace CaseTable

variable (table : CaseTable)

/-- A cased letter comes next, behind characters that are ignored. -/
def reachesCased : List Char → Bool
  | [] => false
  | c :: cs => table.cased c || table.ignorable c && reachesCased cs

/-- `before` is what has been read, the last character first. -/
def lowerFrom (before : List Char) : List Char → List Char
  | [] => []
  | c :: cs =>
      (if c = 'Σ' && table.reachesCased before && !table.reachesCased cs then ['ς']
        else table.lower c) ++ lowerFrom (c :: before) cs

def toLowerCase (cs : List Char) : List Char := table.lowerFrom [] cs

def toUpperCase (cs : List Char) : List Char := cs.flatMap table.upper

/-! ## A text in two parts -/

variable {table}

/-- An ampersand, with white space before it, ends the search. -/
theorem reachesCased_append (cs : List Char) {blank : List Char}
    (hblank : ∀ c ∈ blank, isWhiteSpace c = true) (more : List Char) :
    table.reachesCased (cs ++ (blank ++ '&' :: more)) = table.reachesCased cs := by
  induction cs with
  | nil =>
      induction blank with
      | nil =>
          obtain ⟨-, hcased, hignorable⟩ := table.lower_ampersand
          simp [reachesCased, hcased, hignorable]
      | cons c blank ih =>
          rw [List.forall_mem_cons] at hblank
          have hrest := ih hblank.2
          rw [List.nil_append] at hrest
          change (table.cased c ||
            table.ignorable c && table.reachesCased (blank ++ '&' :: more)) = false
          rw [hrest, (table.lower_blank c hblank.1).2]
          simp [reachesCased]
  | cons c cs ih => rw [List.cons_append, reachesCased, reachesCased, ih]

/-- What was read before an ampersand does not matter behind it. -/
theorem lowerFrom_ampersand (read before more : List Char) :
    table.lowerFrom (read ++ '&' :: before) more = table.lowerFrom (read ++ ['&']) more := by
  induction more generalizing read with
  | nil => rfl
  | cons c more ih =>
      have hfirst := @reachesCased_append table read [] (by simp) before
      have hsecond := @reachesCased_append table read [] (by simp) []
      rw [List.nil_append] at hfirst hsecond
      rw [lowerFrom, lowerFrom, hfirst, hsecond]
      congr 1
      exact ih (c :: read)

theorem lowerFrom_blank (before : List Char) {blank : List Char}
    (hblank : ∀ c ∈ blank, isWhiteSpace c = true) (more : List Char) :
    table.lowerFrom before (blank ++ more) =
      blank ++ table.lowerFrom (blank.reverse ++ before) more := by
  induction blank generalizing before with
  | nil => rfl
  | cons c blank ih =>
      rw [List.forall_mem_cons] at hblank
      have hsigma : c ≠ 'Σ' := by
        rintro rfl
        exact absurd hblank.1 (by decide)
      rw [List.cons_append, lowerFrom, ih (c :: before) hblank.2, (table.lower_blank c hblank.1).1]
      simp [hsigma]

theorem lowerFrom_append (before cs : List Char) {blank : List Char}
    (hblank : ∀ c ∈ blank, isWhiteSpace c = true) (more : List Char) :
    table.lowerFrom before (cs ++ (blank ++ '&' :: more)) =
      table.lowerFrom before cs ++ (blank ++ '&' :: table.lowerFrom ['&'] more) := by
  induction cs generalizing before with
  | nil =>
      rw [List.nil_append, lowerFrom_blank before hblank, lowerFrom, lowerFrom, List.nil_append]
      congr 1
      have hrest := @lowerFrom_ampersand table [] (blank.reverse ++ before) more
      rw [List.nil_append, List.nil_append] at hrest
      rw [hrest, table.lower_ampersand.1]
      rfl
  | cons c cs ih =>
      rw [List.cons_append, lowerFrom, lowerFrom, ih, reachesCased_append cs hblank more,
        List.append_assoc]

/-- Neither part of a text that an ampersand separates has to do with the other. -/
theorem toLowerCase_append (cs : List Char) {blank : List Char}
    (hblank : ∀ c ∈ blank, isWhiteSpace c = true) (more : List Char) :
    table.toLowerCase (cs ++ (blank ++ '&' :: more)) =
      table.toLowerCase cs ++ (blank ++ table.toLowerCase ('&' :: more)) := by
  have hsuffix := @lowerFrom_append table [] [] [] (by simp) more
  rw [List.nil_append, List.nil_append, lowerFrom, List.nil_append, List.nil_append] at hsuffix
  rw [toLowerCase, toLowerCase, toLowerCase, lowerFrom_append [] cs hblank more, hsuffix]

theorem toLowerCase_ampersand (more : List Char) :
    ∃ rest, table.toLowerCase ('&' :: more) = '&' :: rest := by
  have h := @lowerFrom_append table [] [] [] (by simp) more
  rw [List.nil_append, List.nil_append, lowerFrom, List.nil_append, List.nil_append] at h
  exact ⟨_, h⟩

end CaseTable

/-! ## ASCII -/

/-- White space stands below the visible characters of ASCII or above them. -/
theorem value_of_isWhiteSpace {c : Char} (h : isWhiteSpace c = true) :
    c.val.toNat ≤ 0x20 ∨ 0xa0 ≤ c.val.toNat := by
  unfold isWhiteSpace at h
  simp only [Bool.or_eq_true, Bool.and_eq_true, decide_eq_true_eq, or_assoc] at h
  rcases h with rfl | rfl | rfl | rfl | rfl | rfl | rfl | rfl | ⟨hlow, -⟩ | rfl | rfl | rfl |
    rfl | rfl | rfl
  case inr.inr.inr.inr.inr.inr.inr.inr.inl =>
    have hnat : 0x2000 ≤ c.val.toNat := UInt32.le_iff_toNat_le.mp (Char.le_def.mp hlow)
    omega
  all_goals decide

theorem not_between_of_isWhiteSpace {c low high : Char} (h : isWhiteSpace c = true)
    (hlow : 0x20 < low.val.toNat) (hhigh : high.val.toNat < 0xa0) : ¬ (low ≤ c ∧ c ≤ high) := by
  rintro ⟨hle, hge⟩
  have hle' : low.val.toNat ≤ c.val.toNat := UInt32.le_iff_toNat_le.mp (Char.le_def.mp hle)
  have hge' : c.val.toNat ≤ high.val.toNat := UInt32.le_iff_toNat_le.mp (Char.le_def.mp hge)
  have hvalue := value_of_isWhiteSpace h
  omega

theorem not_letter_of_not_ascii {c : Char} (h : isAscii c = false) :
    ¬ ('A' ≤ c ∧ c ≤ 'Z') ∧ ¬ ('a' ≤ c ∧ c ≤ 'z') := by
  have hvalue : ¬ c.val.toNat ≤ 0x7f := by
    intro hle
    exact (of_decide_eq_false h) (UInt32.le_iff_toNat_le.mpr hle)
  constructor
  · rintro ⟨-, hhigh⟩
    have hhigh' : c.val.toNat ≤ 0x5a := UInt32.le_iff_toNat_le.mp (Char.le_def.mp hhigh)
    omega
  · rintro ⟨-, hhigh⟩
    have hhigh' : c.val.toNat ≤ 0x7a := UInt32.le_iff_toNat_le.mp (Char.le_def.mp hhigh)
    omega

theorem ne_of_isAscii {c d : Char} (hc : isAscii c = true) (hd : isAscii d = false) : c ≠ d := by
  rintro rfl
  rw [hc] at hd
  cases hd

/-- A fact about ASCII is checked character by character. -/
theorem of_isAscii {P : Char → Prop} (htable : ∀ n < 128, P (Char.ofNat n)) {c : Char}
    (h : isAscii c = true) : P c := by
  have hvalue : c.toNat ≤ 0x7f := UInt32.le_iff_toNat_le.mp (decide_eq_true_iff.mp h)
  have hchar := htable c.toNat (by omega)
  rwa [Char.ofNat_toNat] at hchar

theorem isAscii_asciiLower {c : Char} (h : isAscii c = true) : isAscii (asciiLower c) = true :=
  of_isAscii (P := fun c => isAscii (asciiLower c) = true) (by decide) h

namespace CaseTable

variable {table : CaseTable}

/-- Small letters of ASCII are what the case folding makes, the sign for the kelvin included. -/
theorem lower_eq_fold {c : Char} (h : isAscii c = true ∨ c = KELVIN) :
    table.lower c = [table.fold c] := by
  rcases h with h | rfl
  · rw [table.lower_ascii c h, table.fold_ascii c h]
  · rw [table.lower_kelvin, table.fold_kelvin]

theorem lowerFrom_eq_fold (before : List Char) {cs : List Char}
    (h : ∀ c ∈ cs, isAscii c = true ∨ c = KELVIN) :
    table.lowerFrom before cs = cs.map table.fold := by
  induction cs generalizing before with
  | nil => rfl
  | cons c cs ih =>
      rw [List.forall_mem_cons] at h
      have hsigma : c ≠ 'Σ' := by
        rintro rfl
        exact absurd h.1 (by decide)
      rw [lowerFrom, ih (c :: before) h.2, lower_eq_fold h.1]
      simp [hsigma]

theorem toLowerCase_eq_fold {cs : List Char} (h : ∀ c ∈ cs, isAscii c = true ∨ c = KELVIN) :
    table.toLowerCase cs = cs.map table.fold :=
  lowerFrom_eq_fold [] h

theorem toLowerCase_ascii {cs : List Char} (h : ∀ c ∈ cs, isAscii c = true) :
    table.toLowerCase cs = cs.map asciiLower := by
  rw [toLowerCase_eq_fold fun c hc => .inl (h c hc)]
  exact List.map_congr_left fun c hc => table.fold_ascii c (h c hc)

/-- Any other character leaves one in the text that is not of ASCII. -/
theorem mem_toLowerCase_of_not_ascii {cs : List Char} {c : Char} (hc : c ∈ cs)
    (hascii : isAscii c = false) (hkelvin : c ≠ KELVIN) :
    ∃ d ∈ table.toLowerCase cs, isAscii d = false := by
  unfold toLowerCase
  generalize [] = before
  induction cs generalizing before with
  | nil => cases hc
  | cons first cs ih =>
      rcases List.mem_cons.mp hc with rfl | hc
      · rw [lowerFrom]
        split
        · exact ⟨'ς', List.mem_append_left _ List.mem_cons_self, by decide⟩
        · obtain ⟨d, hd, hother⟩ := table.lower_other c hascii hkelvin
          exact ⟨d, List.mem_append_left _ hd, hother⟩
      · obtain ⟨d, hd, hother⟩ := ih hc (first :: before)
        exact ⟨d, List.mem_append_right _ hd, hother⟩

end CaseTable

/-- The table as far as ASCII goes; other characters have no case in it. -/
def asciiCases : CaseTable where
  lower c := [if c = KELVIN then 'k' else asciiLower c]
  upper c := [asciiUpper c]
  cased c := ('A' ≤ c ∧ c ≤ 'Z') ∨ ('a' ≤ c ∧ c ≤ 'z')
  ignorable c := c = '\'' || c = '.' || c = ':' || c = '^' || c = '`'
  fold c := if c = LONG_S then 's' else if c = KELVIN then 'k' else asciiLower c
  lower_blank c h := by
    have hupper : ¬ ('A' ≤ c ∧ c ≤ 'Z') := not_between_of_isWhiteSpace h (by decide) (by decide)
    have hlower : ¬ ('a' ≤ c ∧ c ≤ 'z') := not_between_of_isWhiteSpace h (by decide) (by decide)
    have hkelvin : c ≠ KELVIN := by
      rintro rfl
      exact absurd h (by decide)
    rw [if_neg hkelvin, asciiLower, if_neg hupper]
    exact ⟨rfl, decide_eq_false (not_or.mpr ⟨hupper, hlower⟩)⟩
  lower_ampersand := by decide
  lower_ascii c h := by rw [if_neg (ne_of_isAscii h (by decide))]
  lower_kelvin := rfl
  lower_other c h hkelvin := by
    rw [if_neg hkelvin, asciiLower, if_neg (not_letter_of_not_ascii h).1]
    exact ⟨c, List.mem_singleton.mpr rfl, h⟩
  upper_ascii _ _ := rfl
  fold_ascii c h := by
    rw [if_neg (ne_of_isAscii h (by decide)), if_neg (ne_of_isAscii h (by decide))]
  fold_longS := rfl
  fold_kelvin := rfl
  fold_other c h hlong hkelvin := by
    rw [if_neg hlong, if_neg hkelvin, asciiLower, if_neg (not_letter_of_not_ascii h).1]
    exact h

end BurrowGate.Js
