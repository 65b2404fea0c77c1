import BurrowGate.Form.UrlEncoded
import Mathlib.Order.Basic

/-!
# What the automaton counts in a URL-encoded body

The fields are the non-empty segments between separators; the depth of a field is the
number of brackets in its key, written as such or as an escape.
-/

namespace BurrowGate.Form

def segments (body : Bytes) : List Bytes := body.splitOnP isSeparator

def countFields (segments : List Bytes) : Nat := segments.countP (· ≠ [])

/-- The key of a segment. -/
def keyOf (segment : Bytes) : Bytes := segment.takeWhile (· ≠ EQUALS)

/-- `[` or `%5B` -/
def startsBracket : Bytes → Bool
  | b :: rest =>
      b = OPEN_BRACKET || (b = PERCENT &&
        ([DIGIT_5, LOWER_B].isPrefixOf rest || [DIGIT_5, UPPER_B].isPrefixOf rest))
  | [] => false

def brackets (key : Bytes) : Nat := key.tails.countP startsBracket

/-- The largest number of brackets in a key. -/
def keyDepth (segments : List Bytes) : Nat :=
  (segments.map fun segment => brackets (keyOf segment)).foldr max 0

example : countFields (segments "a=1&;b[x][y]=[[&c%5bd%5B[".toUTF8.toList) = 3 ∧
    keyDepth (segments "a=1&;b[x][y]=[[&c%5bd%5B[".toUTF8.toList) = 3 := by
  decide +kernel

/-! ## Brackets and open escapes -/

theorem brackets_cons (b : UInt8) (rest : Bytes) :
    brackets (b :: rest) = brackets rest + if startsBracket (b :: rest) = true then 1 else 0 := by
  rw [brackets, List.tails_cons, List.countP_cons]
  rfl

theorem brackets_bracket (rest : Bytes) :
    brackets (OPEN_BRACKET :: rest) = brackets rest + 1 := by
  have hstart : startsBracket (OPEN_BRACKET :: rest) = true := rfl
  rw [brackets_cons, if_pos hstart]

theorem brackets_other {b : UInt8} (hbracket : b ≠ OPEN_BRACKET) (hpercent : b ≠ PERCENT)
    (rest : Bytes) : brackets (b :: rest) = brackets rest := by
  have hstart : ¬startsBracket (b :: rest) = true := by
    simp [startsBracket, hbracket, hpercent]
  rw [brackets_cons, if_neg hstart, Nat.add_zero]

theorem brackets_percent {b : UInt8} (h : b ≠ DIGIT_5) (rest : Bytes) :
    brackets (PERCENT :: b :: rest) = brackets (b :: rest) := by
  have hb : ¬DIGIT_5 = b := Ne.symm h
  have hstart : ¬startsBracket (PERCENT :: b :: rest) = true := by
    simp [startsBracket, PERCENT, OPEN_BRACKET, hb]
  rw [brackets_cons, if_neg hstart, Nat.add_zero]

theorem brackets_percent_five (b : UInt8) (rest : Bytes) :
    brackets (PERCENT :: DIGIT_5 :: b :: rest) =
      brackets (b :: rest) + if b = LOWER_B ∨ b = UPPER_B then 1 else 0 := by
  rw [brackets_cons, brackets_other (by decide) (by decide)]
  have hstart : startsBracket (PERCENT :: DIGIT_5 :: b :: rest) = true ↔ b = LOWER_B ∨ b = UPPER_B := by
    simp [startsBracket, PERCENT, OPEN_BRACKET, @eq_comm _ b]
  simp only [hstart]

namespace UrlEncodedScanner

/-- Whether a byte of a key is a bracket, or completes an escape of one. -/
def Opens (percent : Nat) (byte : UInt8) : Prop :=
  byte = OPEN_BRACKET ∨ (percent = 2 ∧ (byte = LOWER_B ∨ byte = UPPER_B))

instance (percent : Nat) (byte : UInt8) : Decidable (Opens percent byte) :=
  inferInstanceAs (Decidable (_ ∨ _))

theorem brackets_openEscape_nil (percent : Nat) : brackets (openEscape percent) = 0 := by
  unfold openEscape
  split <;> decide

/-- A byte adds the bracket that it completes; the escape that it leaves open stands for what
of it may still become one. -/
theorem brackets_openEscape_cons {percent : Nat} (h : percent ≤ 2) (b : UInt8) (rest : Bytes) :
    brackets (openEscape percent ++ b :: rest) =
      if Opens percent b then brackets rest + 1
      else brackets (openEscape (percentAfter percent b) ++ rest) := by
  -- Without an open escape.
  have hclosed : ∀ p, p ≠ 1 → ¬Opens p b →
      brackets (b :: rest) = brackets (openEscape (percentAfter p b) ++ rest) := by
    intro p hp hopens
    rw [percentAfter, if_neg fun hfive => hp hfive.1]
    split
    · rename_i hpercent
      rw [hpercent]
      rfl
    · rename_i hpercent
      exact brackets_other (fun hb => hopens (.inl hb)) hpercent rest
  obtain rfl | rfl | rfl : percent = 0 ∨ percent = 1 ∨ percent = 2 := by omega
  · show brackets (b :: rest) = _
    by_cases hopens : Opens 0 b
    · obtain rfl : b = OPEN_BRACKET := by
        rcases hopens with hb | ⟨hzero, -⟩
        · exact hb
        · cases hzero
      rw [if_pos hopens]
      exact brackets_bracket rest
    · rw [if_neg hopens]
      exact hclosed 0 (by decide) hopens
  · show brackets (PERCENT :: b :: rest) = _
    by_cases hfive : b = DIGIT_5
    · subst hfive
      rw [if_neg (by decide)]
      rfl
    · rw [brackets_percent hfive]
      by_cases hopens : Opens 1 b
      · obtain rfl : b = OPEN_BRACKET := by
          rcases hopens with hb | ⟨hone, -⟩
          · exact hb
          · cases hone
        rw [if_pos hopens]
        exact brackets_bracket rest
      · have hafter : percentAfter 1 b = percentAfter 0 b := by
          simp [percentAfter, hfive]
        rw [if_neg hopens, hafter]
        refine hclosed 0 (by decide) ?_
        rintro (hb | ⟨hzero, -⟩)
        · exact hopens (.inl hb)
        · cases hzero
  · show brackets (PERCENT :: DIGIT_5 :: b :: rest) = _
    rw [brackets_percent_five]
    by_cases hletter : b = LOWER_B ∨ b = UPPER_B
    · have hother : b ≠ OPEN_BRACKET ∧ b ≠ PERCENT := by
        rcases hletter with rfl | rfl <;> decide
      rw [if_pos hletter, if_pos (.inr ⟨rfl, hletter⟩), brackets_other hother.1 hother.2]
    · rw [if_neg hletter, Nat.add_zero]
      by_cases hopens : Opens 2 b
      · obtain rfl : b = OPEN_BRACKET := by
          rcases hopens with hb | ⟨-, hb⟩
          · exact hb
          · exact absurd hb hletter
        rw [if_pos hopens]
        exact brackets_bracket rest
      · rw [if_neg hopens]
        exact hclosed 2 (by decide) hopens

/-- A byte of a key other than `=`. -/
theorem stepKey_eq {s : UrlEncodedScanner} (hkey : s.inKey = true) {b : UInt8} (h : b ≠ EQUALS) :
    s.stepKey b =
      if Opens s.percent b then { s with
        depth := s.depth + 1
        maxDepth := max s.maxDepth (s.depth + 1)
        percent := if b = PERCENT then 1 else 0 }
      else { s with percent := percentAfter s.percent b } := by
  rw [stepKey, hkey, if_neg (by decide), if_neg h]
  show (if Opens s.percent b then _ else _) = _
  by_cases hopens : Opens s.percent b
  · have hmax : (if s.maxDepth < s.depth + 1 then s.depth + 1 else s.maxDepth) =
        max s.maxDepth (s.depth + 1) := by
      split <;> omega
    rw [if_pos hopens, if_pos hopens, hmax]
  · rw [if_neg hopens, if_neg hopens, percentAfter]
    split
    · rfl
    · rfl

theorem percentAfter_le (percent : Nat) (b : UInt8) : percentAfter percent b ≤ 2 := by
  unfold percentAfter
  split
  · exact Nat.le_refl 2
  · split <;> decide

/-! ## Counting -/

theorem segments_cons (b : UInt8) (body : Bytes) :
    segments (b :: body) =
      if isSeparator b then [] :: segments body else (segments body).modifyHead (b :: ·) :=
  List.splitOnP_cons_eq_if_modifyHead b body

/-- The counts at the end are those of `t` and those of the rest of the body. -/
structure Counts (final t : UrlEncodedScanner) (fields depth : Nat) : Prop where
  fields : final.fields = t.fields + fields
  maxDepth : final.maxDepth = max t.maxDepth depth

/-- What the automaton counts in the rest of a body, whose segments are `first` and `more`: at
the start of a field, in a value, and in a key. -/
structure Counted (t : UrlEncodedScanner) (body first : Bytes) (more : List Bytes) : Prop where
  fieldStart : t.atFieldStart = true →
    Counts (t.run body) t (countFields (first :: more)) (keyDepth (first :: more))
  value : t.atFieldStart = false → t.inKey = false →
    Counts (t.run body) t (countFields more) (keyDepth more)
  key : t.atFieldStart = false → t.inKey = true → t.percent ≤ 2 → t.depth ≤ t.maxDepth →
    Counts (t.run body) t (countFields more)
      (max (t.depth + brackets (openEscape t.percent ++ keyOf first)) (keyDepth more))

theorem counted_nil (t : UrlEncodedScanner) : Counted t [] [] [] where
  fieldStart := fun _ => ⟨rfl, (Nat.max_zero _).symm⟩
  value := fun _ _ => ⟨rfl, (Nat.max_zero _).symm⟩
  key := by
    intro _ _ _ hdepth
    refine ⟨rfl, ?_⟩
    show t.maxDepth = max t.maxDepth (max (t.depth + brackets (openEscape t.percent ++ [])) 0)
    rw [List.append_nil, brackets_openEscape_nil]
    omega

/-- A separator ends the segment. -/
theorem counted_separator {t : UrlEncodedScanner} {b : UInt8} {body first : Bytes}
    {more : List Bytes} (hsep : isSeparator b = true)
    (ih : Counted { t with atFieldStart := true } body first more) :
    Counted t (b :: body) [] (first :: more) := by
  obtain ⟨hfields, hmaxDepth⟩ := ih.fieldStart rfl
  have hrun : t.run (b :: body) = run { t with atFieldStart := true } body := by
    rw [run_cons, step_separator hsep]
  have hkeyDepth : keyDepth ([] :: first :: more) = keyDepth (first :: more) := Nat.zero_max _
  refine ⟨fun _ => ⟨?_, ?_⟩, fun _ _ => ⟨?_, ?_⟩, fun _ _ _ hdepth => ⟨?_, ?_⟩⟩
  · rw [hrun, hfields]
    rfl
  · rw [hrun, hmaxDepth, hkeyDepth]
  · rw [hrun, hfields]
  · rw [hrun, hmaxDepth]
  · rw [hrun, hfields]
  · show _ = max t.maxDepth (max (t.depth + brackets (openEscape t.percent ++ [])) _)
    rw [hrun, hmaxDepth, List.append_nil, brackets_openEscape_nil]
    show max t.maxDepth _ = _
    omega

/-- A byte within a key. -/
theorem counted_key {t : UrlEncodedScanner} {b : UInt8} {body first : Bytes} {more : List Bytes}
    (ih : ∀ u : UrlEncodedScanner, Counted u body first more) (hstart : t.atFieldStart = false)
    (hkey : t.inKey = true) (hpercent : t.percent ≤ 2) (hdepth : t.depth ≤ t.maxDepth) :
    Counts ((t.stepKey b).run body) t (countFields more)
      (max (t.depth + brackets (openEscape t.percent ++ keyOf (b :: first))) (keyDepth more)) := by
  by_cases hequals : b = EQUALS
  · subst hequals
    obtain ⟨hfields, hmaxDepth⟩ := (ih { t with inKey := false }).value hstart rfl
    have hkeyOf : keyOf (EQUALS :: first) = [] := rfl
    rw [stepKey_equals hkey, hkeyOf, List.append_nil, brackets_openEscape_nil]
    refine ⟨hfields, hmaxDepth.trans ?_⟩
    show max t.maxDepth (keyDepth more) = _
    omega
  · have hkeyOf : keyOf (b :: first) = b :: keyOf first := by
      simp [keyOf, hequals]
    rw [stepKey_eq hkey hequals, hkeyOf, brackets_openEscape_cons hpercent]
    by_cases hopens : Opens t.percent b
    · have hclosed : (if b = PERCENT then 1 else 0) = 0 := by
        rcases hopens with rfl | ⟨-, rfl | rfl⟩ <;> rfl
      obtain ⟨hfields, hmaxDepth⟩ := (ih { t with
        depth := t.depth + 1
        maxDepth := max t.maxDepth (t.depth + 1)
        percent := 0 }).key hstart hkey (Nat.zero_le _) (Nat.le_max_right _ _)
      rw [if_pos hopens, if_pos hopens, hclosed]
      refine ⟨hfields, hmaxDepth.trans ?_⟩
      show max (max t.maxDepth (t.depth + 1))
        (max (t.depth + 1 + brackets (keyOf first)) (keyDepth more)) = _
      omega
    · rw [if_neg hopens, if_neg hopens]
      obtain ⟨hfields, hmaxDepth⟩ := (ih { t with percent := percentAfter t.percent b }).key
        hstart hkey (percentAfter_le _ _) hdepth
      exact ⟨hfields, hmaxDepth⟩

theorem counted (t : UrlEncodedScanner) (body : Bytes) :
    ∃ first more, segments body = first :: more ∧ Counted t body first more := by
  suffices h : ∃ first more, segments body = first :: more ∧
      ∀ u : UrlEncodedScanner, Counted u body first more by
    obtain ⟨first, more, hsegments, hcounted⟩ := h
    exact ⟨first, more, hsegments, hcounted t⟩
  induction body with
  | nil => exact ⟨[], [], rfl, counted_nil⟩
  | cons b body ih =>
      obtain ⟨first, more, hsegments, ih⟩ := ih
      rw [segments_cons, hsegments]
      cases hsep : isSeparator b with
      | true => exact ⟨[], first :: more, rfl, fun u => counted_separator hsep (ih _)⟩
      | false =>
          refine ⟨b :: first, more, rfl, fun u => ⟨fun hstart => ?_, fun hstart hkey => ?_, ?_⟩⟩
          · obtain ⟨hfields, hmaxDepth⟩ := @counted_key { u with
              atFieldStart := false, fields := u.fields + 1, inKey := true, depth := 0, percent := 0 }
              b body first more ih rfl rfl (Nat.zero_le _) (Nat.zero_le _)
            rw [run_cons, step_fieldStart hsep hstart]
            have hcount : countFields ((b :: first) :: more) = countFields more + 1 :=
              List.countP_cons_of_pos (by simp)
            refine ⟨?_, hmaxDepth.trans ?_⟩
            · rw [hfields, hcount]
              show u.fields + 1 + countFields more = _
              omega
            · show max u.maxDepth (max (0 + brackets (keyOf (b :: first))) (keyDepth more)) = _
              rw [Nat.zero_add]
              rfl
          · rw [run_cons, step_inside hsep hstart, stepKey_value hkey]
            exact (ih u).value hstart hkey
          · intro hstart hkey hpercent hdepth
            rw [run_cons, step_inside hsep hstart]
            exact counted_key ih hstart hkey hpercent hdepth

/-- The automaton counts the fields and the largest depth of a key. -/
theorem run_counts (body : Bytes) :
    (run {} body).fields = countFields (segments body) ∧
      (run {} body).maxDepth = keyDepth (segments body) := by
  obtain ⟨first, more, hsegments, hcounted⟩ := counted {} body
  obtain ⟨hfields, hmaxDepth⟩ := hcounted.fieldStart rfl
  rw [hsegments]
  exact ⟨hfields.trans (Nat.zero_add _), hmaxDepth.trans (Nat.zero_max _)⟩

end UrlEncodedScanner

end BurrowGate.Form
