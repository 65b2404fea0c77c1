import Mathlib.Data.List.Infix

/-!
# `UrlEncodedScanner` of `request-input-inspector.ts`

The text of a chunk is its bytes. `step` is the automaton of the source; `feed` skips
with regular expressions while no escape is open. `run` takes a step for every byte, and
the two agree whatever text stands at the border of two chunks.
-/

namespace BurrowGate.Form

abbrev Bytes := List UInt8

def AMPERSAND : UInt8 := 0x26
def SEMICOLON : UInt8 := 0x3b
def EQUALS : UInt8 := 0x3d
def PERCENT : UInt8 := 0x25
def DIGIT_5 : UInt8 := 0x35
def OPEN_BRACKET : UInt8 := 0x5b
def LOWER_B : UInt8 := 0x62
def UPPER_B : UInt8 := 0x42

structure UrlEncodedScanner where
  fields : Nat := 0
  maxDepth : Nat := 0
  atFieldStart : Bool := true
  inKey : Bool := false
  depth : Nat := 0
  percent : Nat := 0
  deriving DecidableEq

def isSeparator (b : UInt8) : Bool := b = AMPERSAND || b = SEMICOLON

/-! ## The regular expressions -/

/-- `/[^&;]/` -/
def FIELD_START : Bytes → Bool
  | b :: _ => !isSeparator b
  | [] => false

/-- `/[&;=[]|%5b/i` -/
def KEY_STOP : Bytes → Bool
  | b :: rest =>
      isSeparator b || b = EQUALS || b = OPEN_BRACKET ||
        (b = PERCENT && [DIGIT_5, LOWER_B].isPrefixOf rest) ||
        (b = PERCENT && [DIGIT_5, UPPER_B].isPrefixOf rest)
  | [] => false

/-- `/[&;]/` -/
def VALUE_STOP : Bytes → Bool
  | b :: _ => isSeparator b
  | [] => false

/-- `exec`: the first byte at which an expression matches, and the text behind that byte. -/
def findStop (stop : Bytes → Bool) : Bytes → Option (UInt8 × Bytes)
  | [] => none
  | b :: rest => if stop (b :: rest) then some (b, rest) else findStop stop rest

theorem findStop_length {stop : Bytes → Bool} {text rest : Bytes} {b : UInt8}
    (h : findStop stop text = some (b, rest)) : rest.length < text.length := by
  induction text with
  | nil => cases h
  | cons c tail ih =>
      rw [findStop] at h
      rw [List.length_cons]
      split at h
      · obtain ⟨-, rfl⟩ := Prod.mk.inj (Option.some.inj h)
        exact Nat.lt_succ_self _
      · exact Nat.lt_succ_of_lt (ih h)

namespace UrlEncodedScanner

/-- The part of `step` behind the field start. -/
def stepKey (s : UrlEncodedScanner) (byte : UInt8) : UrlEncodedScanner :=
  if !s.inKey then s
  else if byte = EQUALS then { s with inKey := false }
  else if byte = OPEN_BRACKET ∨ (s.percent = 2 ∧ (byte = LOWER_B ∨ byte = UPPER_B)) then
    { s with
      depth := s.depth + 1
      maxDepth := if s.maxDepth < s.depth + 1 then s.depth + 1 else s.maxDepth
      percent := if byte = PERCENT then 1 else 0 }
  else if s.percent = 1 ∧ byte = DIGIT_5 then { s with percent := 2 }
  else { s with percent := if byte = PERCENT then 1 else 0 }

def step (s : UrlEncodedScanner) (byte : UInt8) : UrlEncodedScanner :=
  if isSeparator byte then { s with atFieldStart := true }
  else if s.atFieldStart then
    stepKey
      { s with atFieldStart := false, fields := s.fields + 1, inKey := true, depth := 0, percent := 0 }
      byte
  else stepKey s byte

/-- The expression that `feed` searches next. -/
def stopOf (s : UrlEncodedScanner) : Bytes → Bool :=
  if s.atFieldStart then FIELD_START else if s.inKey then KEY_STOP else VALUE_STOP

/-- What `feed` keeps of an escape at the end of the text; `rest` is the text from the index. -/
def carryPercent (s : UrlEncodedScanner) (text rest : Bytes) : UrlEncodedScanner :=
  if s.inKey ∧ s.atFieldStart = false then
    if 2 ≤ rest.length ∧ [PERCENT, DIGIT_5].isSuffixOf text = true then { s with percent := 2 }
    else if [PERCENT].isSuffixOf text = true then { s with percent := 1 }
    else s
  else s

/-- The loop of `feed`. -/
def feedFrom (text : Bytes) (s : UrlEncodedScanner) (rest : Bytes) : UrlEncodedScanner :=
  match rest with
  | [] => s
  | b :: tail =>
      if s.percent ≠ 0 then feedFrom text (s.step b) tail
      else
        match _h : findStop s.stopOf (b :: tail) with
        | none => s.carryPercent text (b :: tail)
        | some (c, tail') => feedFrom text (s.step c) tail'
termination_by rest.length
decreasing_by
  · exact Nat.lt_succ_self _
  · exact findStop_length _h

def feed (s : UrlEncodedScanner) (text : Bytes) : UrlEncodedScanner := feedFrom text s text

/-- The byte-by-byte automaton. -/
def run (s : UrlEncodedScanner) (body : Bytes) : UrlEncodedScanner := body.foldl step s

end UrlEncodedScanner

/-! ## Skipping -/

/-- No byte of `skipped`, which stands before `rest`, is a stop. -/
def Skips (stop : Bytes → Bool) : Bytes → Bytes → Prop
  | [], _ => True
  | b :: skipped, rest => stop (b :: (skipped ++ rest)) = false ∧ Skips stop skipped rest

theorem findStop_none {stop : Bytes → Bool} {text : Bytes} (h : findStop stop text = none) :
    Skips stop text [] := by
  induction text with
  | nil => trivial
  | cons b tail ih =>
      rw [findStop] at h
      split at h
      · cases h
      · rename_i hstop
        refine ⟨?_, ih h⟩
        rw [List.append_nil]
        exact Bool.not_eq_true _ ▸ hstop

theorem findStop_some {stop : Bytes → Bool} {text rest : Bytes} {b : UInt8}
    (h : findStop stop text = some (b, rest)) :
    ∃ skipped, text = skipped ++ b :: rest ∧ Skips stop skipped (b :: rest) ∧
      stop (b :: rest) = true := by
  induction text with
  | nil => cases h
  | cons c tail ih =>
      rw [findStop] at h
      split at h
      · rename_i hstop
        obtain ⟨rfl, rfl⟩ := Prod.mk.inj (Option.some.inj h)
        exact ⟨[], rfl, trivial, hstop⟩
      · rename_i hstop
        obtain ⟨skipped, rfl, hskips, hb⟩ := ih h
        exact ⟨c :: skipped, rfl, ⟨Bool.not_eq_true _ ▸ hstop, hskips⟩, hb⟩

namespace UrlEncodedScanner

variable {s : UrlEncodedScanner} {b : UInt8}

theorem step_separator (h : isSeparator b = true) : s.step b = { s with atFieldStart := true } :=
  if_pos h

theorem step_fieldStart (h : isSeparator b = false) (hstart : s.atFieldStart = true) :
    s.step b = stepKey { s with
      atFieldStart := false, fields := s.fields + 1, inKey := true, depth := 0, percent := 0 } b := by
  rw [step, h, if_neg Bool.false_ne_true, if_pos hstart]

theorem step_inside (h : isSeparator b = false) (hstart : s.atFieldStart = false) :
    s.step b = s.stepKey b := by
  rw [step, h, if_neg Bool.false_ne_true, hstart, if_neg Bool.false_ne_true]

theorem stepKey_value (h : s.inKey = false) : s.stepKey b = s := by
  rw [stepKey, h]
  rfl

theorem stepKey_equals (h : s.inKey = true) : s.stepKey EQUALS = { s with inKey := false } := by
  rw [stepKey, h]
  rfl

theorem stepKey_bracket (h : s.inKey = true) : s.stepKey OPEN_BRACKET = { s with
    depth := s.depth + 1
    maxDepth := if s.maxDepth < s.depth + 1 then s.depth + 1 else s.maxDepth
    percent := 0 } := by
  rw [stepKey, h, if_neg (by decide), if_neg (by decide), if_pos (.inl rfl)]
  rfl

/-- The percent sign opens an escape, whatever was open before. -/
theorem stepKey_percent (h : s.inKey = true) : s.stepKey PERCENT = { s with percent := 1 } := by
  have hdepth : ¬(PERCENT = OPEN_BRACKET ∨
      s.percent = 2 ∧ (PERCENT = LOWER_B ∨ PERCENT = UPPER_B)) := by
    simp [PERCENT, OPEN_BRACKET, LOWER_B, UPPER_B]
  have hfive : ¬(s.percent = 1 ∧ PERCENT = DIGIT_5) := by
    simp [PERCENT, DIGIT_5]
  rw [stepKey, h, if_neg (by decide), if_neg (by decide), if_neg hdepth, if_neg hfive]
  rfl

end UrlEncodedScanner

/-! ## States that count alike -/

/-- What the counts may still depend on: within a key everything, elsewhere not the escape. -/
structure SameCounts (s t : UrlEncodedScanner) : Prop where
  fields : s.fields = t.fields
  maxDepth : s.maxDepth = t.maxDepth
  atFieldStart : s.atFieldStart = t.atFieldStart
  inKey : s.atFieldStart = false → s.inKey = t.inKey
  depth : s.atFieldStart = false → s.inKey = true → s.depth = t.depth
  percent : s.atFieldStart = false → s.inKey = true → s.percent = t.percent

theorem SameCounts.refl (s : UrlEncodedScanner) : SameCounts s s :=
  ⟨rfl, rfl, rfl, fun _ => rfl, fun _ _ => rfl, fun _ _ => rfl⟩

/-- Within a key such states are one. -/
theorem SameCounts.eq_of_inKey {s t : UrlEncodedScanner} (h : SameCounts s t)
    (hstart : s.atFieldStart = false) (hkey : s.inKey = true) : s = t := by
  obtain ⟨fields, maxDepth, atFieldStart, inKey, depth, percent⟩ := s
  obtain ⟨fields', maxDepth', atFieldStart', inKey', depth', percent'⟩ := t
  have hinKey := h.inKey hstart
  have hdepth := h.depth hstart hkey
  have hpercent := h.percent hstart hkey
  obtain ⟨rfl, rfl, rfl, -, -, -⟩ := h
  subst hinKey hdepth hpercent
  rfl

theorem SameCounts.step {s t : UrlEncodedScanner} (h : SameCounts s t) (byte : UInt8) :
    SameCounts (s.step byte) (t.step byte) := by
  cases hsep : isSeparator byte with
  | true =>
      rw [UrlEncodedScanner.step_separator hsep, UrlEncodedScanner.step_separator hsep]
      exact { fields := h.fields
              maxDepth := h.maxDepth
              atFieldStart := rfl
              inKey := fun hf => nomatch hf
              depth := fun hf => nomatch hf
              percent := fun hf => nomatch hf }
  | false =>
      cases hstart : s.atFieldStart with
      | true =>
          have hstart' : t.atFieldStart = true := h.atFieldStart.symm.trans hstart
          rw [UrlEncodedScanner.step_fieldStart hsep hstart,
            UrlEncodedScanner.step_fieldStart hsep hstart', h.fields, h.maxDepth]
          exact SameCounts.refl _
      | false =>
          have hstart' : t.atFieldStart = false := h.atFieldStart.symm.trans hstart
          rw [UrlEncodedScanner.step_inside hsep hstart, UrlEncodedScanner.step_inside hsep hstart']
          cases hkey : s.inKey with
          | true =>
              rw [h.eq_of_inKey hstart hkey]
              exact SameCounts.refl _
          | false =>
              have hkey' : t.inKey = false := (h.inKey hstart).symm.trans hkey
              rw [UrlEncodedScanner.stepKey_value hkey, UrlEncodedScanner.stepKey_value hkey']
              exact h

namespace UrlEncodedScanner

theorem run_cons (s : UrlEncodedScanner) (b : UInt8) (body : Bytes) :
    s.run (b :: body) = (s.step b).run body := rfl

theorem run_append (s : UrlEncodedScanner) (first second : Bytes) :
    s.run (first ++ second) = (s.run first).run second := List.foldl_append

end UrlEncodedScanner

/-! ## What the automaton does where `feed` skips -/

theorem skips_append {stop : Bytes → Bool} {first second rest : Bytes} :
    Skips stop (first ++ second) rest ↔ Skips stop first (second ++ rest) ∧
      Skips stop second rest := by
  induction first with
  | nil => exact ⟨fun h => ⟨trivial, h⟩, fun h => h.2⟩
  | cons b first ih =>
      rw [List.cons_append, Skips, Skips, ih, List.append_assoc, and_assoc]

namespace UrlEncodedScanner

theorem run_fieldStart {t : UrlEncodedScanner} (h : t.atFieldStart = true) {skipped rest : Bytes}
    (hskips : Skips FIELD_START skipped rest) : t.run skipped = t := by
  induction skipped with
  | nil => rfl
  | cons b skipped ih =>
      have hsep : isSeparator b = true := by simpa [FIELD_START] using hskips.1
      have hstep : t.step b = t := by
        rw [step_separator hsep, ← h]
      rw [run_cons, hstep]
      exact ih hskips.2

theorem run_value {t : UrlEncodedScanner} (hstart : t.atFieldStart = false)
    (hkey : t.inKey = false) {skipped rest : Bytes} (hskips : Skips VALUE_STOP skipped rest) :
    t.run skipped = t := by
  induction skipped with
  | nil => rfl
  | cons b skipped ih =>
      have hsep : isSeparator b = false := hskips.1
      have hstep : t.step b = t := by
        rw [step_inside hsep hstart, stepKey_value hkey]
      rw [run_cons, hstep]
      exact ih hskips.2

/-- The escape that is open after a byte of a key which is not a stop. -/
def percentAfter (percent : Nat) (byte : UInt8) : Nat :=
  if percent = 1 ∧ byte = DIGIT_5 then 2 else if byte = PERCENT then 1 else 0

/-- The text of an open escape. -/
def openEscape : Nat → Bytes
  | 0 => []
  | 1 => [PERCENT]
  | _ => [PERCENT, DIGIT_5]

/-- A byte of a key that is not a stop, and does not complete an escape. -/
theorem step_key {t : UrlEncodedScanner} (hstart : t.atFieldStart = false)
    (hkey : t.inKey = true) {b : UInt8} {rest : Bytes} (hstop : KEY_STOP (b :: rest) = false)
    (hescape : t.percent = 2 → b ≠ LOWER_B ∧ b ≠ UPPER_B) :
    t.step b = { t with percent := percentAfter t.percent b } := by
  simp only [KEY_STOP, Bool.or_eq_false_iff, decide_eq_false_iff_not] at hstop
  obtain ⟨⟨⟨⟨hsep, hequals⟩, hbracket⟩, -⟩, -⟩ := hstop
  have hdepth : ¬(b = OPEN_BRACKET ∨ t.percent = 2 ∧ (b = LOWER_B ∨ b = UPPER_B)) := by
    rintro (h | ⟨htwo, hlower | hupper⟩)
    · exact hbracket h
    · exact (hescape htwo).1 hlower
    · exact (hescape htwo).2 hupper
  rw [step_inside hsep hstart, stepKey, hkey, if_neg (by decide), if_neg hequals, if_neg hdepth,
    percentAfter]
  split
  · rfl
  · rfl

theorem run_key {t : UrlEncodedScanner} (hstart : t.atFieldStart = false) (hkey : t.inKey = true)
    {skipped rest : Bytes} (hskips : Skips KEY_STOP (openEscape t.percent ++ skipped) rest) :
    t.run skipped = { t with percent := skipped.foldl percentAfter t.percent } := by
  induction skipped generalizing t with
  | nil => rfl
  | cons b skipped ih =>
      obtain ⟨hopen, hb⟩ := skips_append.mp hskips
      have hstep := step_key hstart hkey hb.1 (by
        intro htwo
        rw [htwo] at hopen
        have hstop : KEY_STOP (PERCENT :: DIGIT_5 :: b :: (skipped ++ rest)) = false := hopen.1
        constructor
        · rintro rfl
          revert hstop
          simp [KEY_STOP]
        · rintro rfl
          revert hstop
          simp [KEY_STOP])
      rw [run_cons, hstep, List.foldl_cons]
      refine (ih (t := { t with percent := percentAfter t.percent b }) hstart hkey ?_).trans rfl
      show Skips KEY_STOP (openEscape (percentAfter t.percent b) ++ skipped) rest
      rw [percentAfter]
      split
      · rename_i hfive
        obtain ⟨hone, rfl⟩ := hfive
        rw [hone] at hskips
        exact hskips
      · split
        · rename_i hpercent
          rw [hpercent] at hb
          exact hb
        · exact hb.2

theorem isSuffixOf_concat (last b : UInt8) (before text : Bytes) :
    (before ++ [last]).isSuffixOf (text ++ [b]) = (last == b && before.isSuffixOf text) := by
  rw [List.isSuffixOf, List.reverse_append, List.reverse_append]
  rfl

/-- The escape that is open at the end of a text without stops. -/
theorem foldl_percentAfter (text : Bytes) :
    text.foldl percentAfter 0 =
      if [PERCENT, DIGIT_5].isSuffixOf text = true then 2
      else if [PERCENT].isSuffixOf text = true then 1
      else 0 := by
  induction text using List.reverseRecOn with
  | nil => rfl
  | append_singleton text b ih =>
      have htwo : [PERCENT, DIGIT_5].isSuffixOf (text ++ [b]) =
          (DIGIT_5 == b && [PERCENT].isSuffixOf text) := isSuffixOf_concat DIGIT_5 b [PERCENT] text
      have hone : [PERCENT].isSuffixOf (text ++ [b]) = (PERCENT == b && true) :=
        isSuffixOf_concat PERCENT b [] text
      rw [List.foldl_append, ih, htwo, hone]
      show percentAfter _ b = _
      rw [percentAfter]
      have hopen : (if [PERCENT, DIGIT_5].isSuffixOf text = true then 2
          else if [PERCENT].isSuffixOf text = true then 1 else 0) = 1 ↔
          [PERCENT].isSuffixOf text = true := by
        by_cases hboth : [PERCENT, DIGIT_5].isSuffixOf text = true
        · rw [if_pos hboth]
          constructor
          · intro h
            cases h
          · intro hone
            rw [List.isSuffixOf_iff_suffix] at hboth hone
            obtain ⟨before, hbefore⟩ := hboth
            obtain ⟨before', hbefore'⟩ := hone
            have hlast := congrArg List.getLast? (hbefore.trans hbefore'.symm)
            revert hlast
            simp [PERCENT, DIGIT_5]
        · rw [if_neg hboth]
          constructor
          · intro h
            by_contra hone
            rw [if_neg hone] at h
            cases h
          · intro hone
            rw [if_pos hone]
      simp only [hopen, Bool.and_true, Bool.and_eq_true, beq_iff_eq, @eq_comm _ b,
        @and_comm _ (DIGIT_5 = b)]

/-- The tests at the end of the text see the rest of the text only. -/
theorem isSuffixOf_rest (last : Bytes) {text rest : Bytes} (h : rest <:+ text)
    (hlen : last.length ≤ rest.length) : last.isSuffixOf text = last.isSuffixOf rest := by
  rw [Bool.eq_iff_iff, List.isSuffixOf_iff_suffix, List.isSuffixOf_iff_suffix]
  constructor
  · intro hlast
    exact List.suffix_of_suffix_length_le hlast h hlen
  · intro hlast
    exact hlast.trans h

theorem carryPercent_eq {t : UrlEncodedScanner} (hstart : t.atFieldStart = false)
    (hkey : t.inKey = true) (hpercent : t.percent = 0) {text : Bytes} {b : UInt8} {tail : Bytes}
    (hrest : b :: tail <:+ text) :
    t.carryPercent text (b :: tail) =
      { t with percent := (b :: tail).foldl percentAfter t.percent } := by
  have hone := isSuffixOf_rest [PERCENT] hrest (Nat.succ_le_succ (Nat.zero_le _))
  have htwo : (2 ≤ (b :: tail).length ∧ [PERCENT, DIGIT_5].isSuffixOf text = true) ↔
      [PERCENT, DIGIT_5].isSuffixOf (b :: tail) = true := by
    constructor
    · rintro ⟨hlen, hlast⟩
      rw [← isSuffixOf_rest [PERCENT, DIGIT_5] hrest hlen]
      exact hlast
    · intro hlast
      have hlen : 2 ≤ (b :: tail).length := (List.isSuffixOf_iff_suffix.mp hlast).length_le
      exact ⟨hlen, (isSuffixOf_rest [PERCENT, DIGIT_5] hrest hlen).trans hlast⟩
  rw [carryPercent, if_pos ⟨hkey, hstart⟩, hpercent, foldl_percentAfter, hone]
  simp only [htwo]
  split
  · rfl
  · split
    · rfl
    · rw [← hpercent]

end UrlEncodedScanner

/-! ## The scanner and the automaton -/

/-- After the bytes that are skipped, the step at the stop leads to states that count alike. -/
theorem SameCounts.step_stop {s t : UrlEncodedScanner} (h : SameCounts s t) (hpercent : s.percent = 0)
    {skipped rest : Bytes} {c : UInt8} (hskips : Skips s.stopOf skipped (c :: rest))
    (hstop : s.stopOf (c :: rest) = true) :
    SameCounts (s.step c) ((t.run skipped).step c) := by
  unfold UrlEncodedScanner.stopOf at hskips hstop
  cases hstart : s.atFieldStart with
  | true =>
      rw [hstart, if_pos rfl] at hskips
      rw [UrlEncodedScanner.run_fieldStart (h.atFieldStart.symm.trans hstart) hskips]
      exact h.step c
  | false =>
      rw [hstart, if_neg Bool.false_ne_true] at hskips hstop
      have hstart' : t.atFieldStart = false := h.atFieldStart.symm.trans hstart
      cases hkey : s.inKey with
      | false =>
          rw [hkey, if_neg Bool.false_ne_true] at hskips
          rw [UrlEncodedScanner.run_value hstart' ((h.inKey hstart).symm.trans hkey) hskips]
          exact h.step c
      | true =>
          rw [hkey, if_pos rfl] at hskips hstop
          obtain rfl := h.eq_of_inKey hstart hkey
          have hopen : UrlEncodedScanner.openEscape s.percent = [] := by
            rw [hpercent]
            rfl
          rw [UrlEncodedScanner.run_key hstart hkey (by rw [hopen]; exact hskips)]
          generalize skipped.foldl UrlEncodedScanner.percentAfter s.percent = percent
          cases hsep : isSeparator c with
          | true =>
              rw [UrlEncodedScanner.step_separator hsep, UrlEncodedScanner.step_separator hsep]
              exact ⟨rfl, rfl, rfl, fun _ => rfl, fun _ _ => rfl, (fun hf => nomatch hf)⟩
          | false =>
              rw [UrlEncodedScanner.step_inside hsep hstart,
                @UrlEncodedScanner.step_inside { s with percent } c hsep hstart]
              simp only [KEY_STOP, hsep, Bool.false_or, Bool.or_eq_true, Bool.and_eq_true,
                decide_eq_true_eq] at hstop
              have hkey' : ({ s with percent } : UrlEncodedScanner).inKey = true := hkey
              rcases hstop with ((rfl | rfl) | ⟨rfl, -⟩) | ⟨rfl, -⟩
              · rw [UrlEncodedScanner.stepKey_equals hkey, UrlEncodedScanner.stepKey_equals hkey']
                exact ⟨rfl, rfl, rfl, fun _ => rfl, fun _ _ => rfl, fun _ hf => nomatch hf⟩
              · rw [UrlEncodedScanner.stepKey_bracket hkey, UrlEncodedScanner.stepKey_bracket hkey']
                exact SameCounts.refl _
              · rw [UrlEncodedScanner.stepKey_percent hkey, UrlEncodedScanner.stepKey_percent hkey']
                exact SameCounts.refl _
              · rw [UrlEncodedScanner.stepKey_percent hkey, UrlEncodedScanner.stepKey_percent hkey']
                exact SameCounts.refl _

theorem SameCounts.carryPercent {s t : UrlEncodedScanner} (h : SameCounts s t)
    (hpercent : s.percent = 0) {text tail : Bytes} {b : UInt8} (hrest : b :: tail <:+ text)
    (hskips : Skips s.stopOf (b :: tail) []) :
    SameCounts (s.carryPercent text (b :: tail)) (t.run (b :: tail)) := by
  unfold UrlEncodedScanner.stopOf at hskips
  cases hstart : s.atFieldStart with
  | true =>
      rw [hstart, if_pos rfl] at hskips
      rw [UrlEncodedScanner.run_fieldStart (h.atFieldStart.symm.trans hstart) hskips,
        UrlEncodedScanner.carryPercent, if_neg (by simp [hstart])]
      exact h
  | false =>
      rw [hstart, if_neg Bool.false_ne_true] at hskips
      have hstart' : t.atFieldStart = false := h.atFieldStart.symm.trans hstart
      cases hkey : s.inKey with
      | false =>
          rw [hkey, if_neg Bool.false_ne_true] at hskips
          rw [UrlEncodedScanner.run_value hstart' ((h.inKey hstart).symm.trans hkey) hskips,
            UrlEncodedScanner.carryPercent, if_neg (by simp [hkey])]
          exact h
      | true =>
          rw [hkey, if_pos rfl] at hskips
          obtain rfl := h.eq_of_inKey hstart hkey
          have hopen : UrlEncodedScanner.openEscape s.percent = [] := by
            rw [hpercent]
            rfl
          rw [UrlEncodedScanner.run_key hstart hkey (by rw [hopen]; exact hskips),
            UrlEncodedScanner.carryPercent_eq hstart hkey hpercent hrest]
          exact SameCounts.refl _

theorem feedFrom_sameCounts (text : Bytes) {s t : UrlEncodedScanner} {rest : Bytes}
    (hrest : rest <:+ text) (h : SameCounts s t) :
    SameCounts (UrlEncodedScanner.feedFrom text s rest) (t.run rest) := by
  fun_induction UrlEncodedScanner.feedFrom text s rest generalizing t with
  | case1 s => exact h
  | case2 s b tail hpercent ih =>
      exact ih ((List.suffix_cons b tail).trans hrest) (h.step b)
  | case3 s b tail hpercent hfind =>
      exact h.carryPercent (not_not.mp hpercent) hrest (findStop_none hfind)
  | case4 s b tail hpercent c tail' hfind ih =>
      obtain ⟨skipped, hsplit, hskips, hstop⟩ := findStop_some hfind
      rw [hsplit] at hrest ⊢
      rw [UrlEncodedScanner.run_append, UrlEncodedScanner.run_cons]
      refine ih ?_ (h.step_stop (not_not.mp hpercent) hskips hstop)
      exact ((List.suffix_cons c tail').trans ( List.suffix_append skipped _)).trans hrest

end BurrowGate.Form
