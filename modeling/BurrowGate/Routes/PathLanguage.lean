import BurrowGate.Routes.PathSource
import Mathlib.Computability.Language

/-!
# The language of a path pattern

Read left to right, `**` stands for any string, a remaining `*` for any string without a
slash, and every other character for itself; a final `/**` also matches the bare base.
In a pattern with this ending the source replaces the stars of the base one by one, so a
`**` of the base stays within one segment.
-/

namespace BurrowGate.Routes

open Js

/-! ## Languages -/

def anyText : Language Char := Set.univ

def segmentText : Language Char := { w | '/' ∉ w }

def literalText (c : Char) : Language Char := {[c]}

/-- The empty string, or a slash and any string. -/
def subtreeText : Language Char := 1 + literalText '/' * anyText

def pathLanguage : List Char → Language Char
  | '*' :: '*' :: rest => anyText * pathLanguage rest
  | '*' :: rest => segmentText * pathLanguage rest
  | c :: rest => literalText c * pathLanguage rest
  | [] => 1

def patternLanguage (pattern : List Char) : Language Char :=
  if ['/', '*', '*'] <:+ pattern then
    pathLanguage pattern + pathLanguage (pattern.take (pattern.length - 3))
  else pathLanguage pattern

/-- The same with every star on its own. -/
def baseLanguage : List Char → Language Char
  | [] => 1
  | '*' :: rest => segmentText * baseLanguage rest
  | c :: rest => literalText c * baseLanguage rest

/-- What follows the first `**`. -/
def afterDoubleStar : List Char → Option (List Char)
  | '*' :: '*' :: rest => some rest
  | _ :: rest => afterDoubleStar rest
  | [] => none

/-- Only stars and slashes, each slash followed by a star. -/
def coversSegments : List Char → Bool
  | [] => true
  | '*' :: rest => coversSegments rest
  | '/' :: '*' :: rest => coversSegments rest
  | _ => false

/-- The pattern holds a control character that the source uses as a placeholder, or it ends
with `/**` and its first inner `**` is followed by more than stars that cover segments. -/
def Misread (pattern : List Char) : Prop :=
  '\u0001' ∈ pattern ∨
    if ['/', '*', '*'] <:+ pattern then
      ∃ after, afterDoubleStar (pattern.take (pattern.length - 3)) = some after ∧
        coversSegments after = false
    else '\u0000' ∈ pattern

/-! ## The matcher and its language -/

def IsPathname (pathname : List Char) : Prop :=
  pathname.head? = some '/' ∧ ∀ c ∈ pathname, isLineTerminator c = false

/-- A matcher on text without line terminators. -/
def matcherLanguage : PathMatcher → Language Char
  | .literal c => literalText c
  | .singleStar => segmentText
  | .doubleStar => anyText
  | .subtree => subtreeText

theorem matchMany_iff {p : Char → Bool} {rest : List Char → Bool} {w : List Char} :
    matchMany p rest w = true ↔
      ∃ u v, u ++ v = w ∧ (∀ c ∈ u, p c = true) ∧ rest v = true := by
  induction w with
  | nil =>
      constructor
      · exact fun h => ⟨[], [], rfl, fun c hc => (by cases hc), h⟩
      · rintro ⟨u, v, huv, -, hv⟩
        obtain ⟨rfl, rfl⟩ := List.append_eq_nil_iff.mp huv
        exact hv
  | cons c cs ih =>
      rw [matchMany, Bool.or_eq_true, Bool.and_eq_true, ih]
      constructor
      · rintro (h | ⟨hc, u, v, rfl, hu, hv⟩)
        · exact ⟨[], c :: cs, rfl, fun d hd => (by cases hd), h⟩
        · exact ⟨c :: u, v, rfl, List.forall_mem_cons.mpr ⟨hc, hu⟩, hv⟩
      · rintro ⟨u, v, huv, hu, hv⟩
        cases u with
        | nil =>
            left
            rw [List.nil_append] at huv
            rwa [← huv]
        | cons d u =>
            obtain ⟨rfl, rfl⟩ := List.cons.inj huv
            obtain ⟨hd, hu⟩ := List.forall_mem_cons.mp hu
            exact .inr ⟨hd, u, v, rfl, hu, hv⟩

theorem mem_literal_mul {c : Char} {l : Language Char} {w : List Char} :
    w ∈ literalText c * l ↔ ∃ v ∈ l, c :: v = w := by
  rw [Language.mem_mul]
  constructor
  · rintro ⟨u, rfl, v, hv, rfl⟩
    exact ⟨v, hv, rfl⟩
  · rintro ⟨v, hv, rfl⟩
    exact ⟨[c], rfl, v, hv, rfl⟩

theorem mem_subtreeText {w : List Char} : w ∈ subtreeText ↔ w = [] ∨ w.head? = some '/' := by
  rw [subtreeText, Language.mem_add, Language.mem_one, mem_literal_mul]
  refine or_congr_right ?_
  constructor
  · rintro ⟨v, -, rfl⟩
    rfl
  · intro h
    obtain ⟨v, rfl⟩ := List.head?_eq_some_iff.mp h
    exact ⟨v, trivial, rfl⟩

theorem matchPath_iff {ms : List PathMatcher} {w : List Char}
    (hw : ∀ c ∈ w, isLineTerminator c = false) :
    matchPath ms w = true ↔ w ∈ (ms.map matcherLanguage).prod := by
  induction ms generalizing w with
  | nil =>
      rw [matchPath, List.isEmpty_iff, List.map_nil, List.prod_nil, Language.mem_one]
  | cons m ms ih =>
      rw [List.map_cons, List.prod_cons]
      have hsub : ∀ {u v : List Char}, u ++ v = w →
          (∀ c ∈ u, isLineTerminator c = false) ∧ ∀ c ∈ v, isLineTerminator c = false := by
        rintro u v rfl
        exact ⟨fun c hc => hw c (List.mem_append_left v hc),
          fun c hc => hw c (List.mem_append_right u hc)⟩
      cases m with
      | literal c =>
          rw [matcherLanguage, mem_literal_mul]
          cases w with
          | nil => simp [matchPath]
          | cons d w =>
              obtain ⟨-, hw'⟩ := List.forall_mem_cons.mp hw
              rw [matchPath, Bool.and_eq_true, decide_eq_true_eq, ih hw']
              constructor
              · rintro ⟨rfl, h⟩
                exact ⟨w, h, rfl⟩
              · rintro ⟨v, hv, heq⟩
                obtain ⟨rfl, rfl⟩ := List.cons.inj heq
                exact ⟨rfl, hv⟩
      | singleStar =>
          rw [matchPath, matchMany_iff, matcherLanguage, Language.mem_mul]
          constructor
          · rintro ⟨u, v, huv, hu, hv⟩
            refine ⟨u, fun hin => ?_, v, (ih (hsub huv).2).mp hv, huv⟩
            simpa using hu _ hin
          · rintro ⟨u, hu, v, hv, huv⟩
            refine ⟨u, v, huv, fun c hc => ?_, (ih (hsub huv).2).mpr hv⟩
            simpa using fun heq : c = '/' => hu (heq ▸ hc)
      | doubleStar =>
          rw [matchPath, matchMany_iff, matcherLanguage, Language.mem_mul]
          constructor
          · rintro ⟨u, v, huv, -, hv⟩
            exact ⟨u, trivial, v, (ih (hsub huv).2).mp hv, huv⟩
          · rintro ⟨u, -, v, hv, huv⟩
            refine ⟨u, v, huv, fun c hc => ?_, (ih (hsub huv).2).mpr hv⟩
            simpa using (hsub huv).1 c hc
      | subtree =>
          rw [matchPath.eq_def]
          dsimp only
          rw [matcherLanguage, Bool.or_eq_true, subtreeText, add_mul, one_mul,
            Language.mem_add, ih hw]
          refine or_congr_right ?_
          rw [mul_assoc, mem_literal_mul]
          cases w with
          | nil => simp
          | cons d w =>
              obtain ⟨-, hw'⟩ := List.forall_mem_cons.mp hw
              by_cases hd : d = '/'
              · subst hd
                show matchMany (!isLineTerminator ·) (matchPath ms) w = true ↔ _
                rw [matchMany_iff]
                constructor
                · rintro ⟨u, v, rfl, -, hv⟩
                  have hv' := (ih fun c hc => hw' c (List.mem_append_right u hc)).mp hv
                  exact ⟨u ++ v, Language.mem_mul.mpr ⟨u, trivial, v, hv', rfl⟩, rfl⟩
                · rintro ⟨x, hx, heq⟩
                  obtain ⟨-, rfl⟩ := List.cons.inj heq
                  obtain ⟨u, -, v, hv, rfl⟩ := Language.mem_mul.mp hx
                  refine ⟨u, v, rfl, fun c hc => ?_,
                    (ih fun c hc => hw' c (List.mem_append_right u hc)).mpr hv⟩
                  simpa using hw' c (List.mem_append_left v hc)
              · constructor
                · intro h
                  split at h
                  · rename_i heq
                    exact absurd (List.cons.inj heq).1 hd
                  · cases h
                · rintro ⟨v, -, heq⟩
                  exact absurd (List.cons.inj heq).1.symm hd

/-! ## The compiled pattern and its language -/

theorem base_star (rest : List Char) :
    baseLanguage ('*' :: rest) = segmentText * baseLanguage rest := rfl

theorem base_literal {c : Char} (hc : c ≠ '*') (rest : List Char) :
    baseLanguage (c :: rest) = literalText c * baseLanguage rest := by
  rw [baseLanguage]
  exact hc

theorem base_append (left right : List Char) :
    baseLanguage (left ++ right) = baseLanguage left * baseLanguage right := by
  induction left with
  | nil => exact (one_mul _).symm
  | cons c left ih =>
      by_cases hc : c = '*'
      · subst hc
        show baseLanguage ('*' :: (left ++ right)) = _
        rw [base_star, base_star, ih, mul_assoc]
      · show baseLanguage (c :: (left ++ right)) = _
        rw [base_literal hc, base_literal hc, ih, mul_assoc]

theorem compileBase_language {base : List Char} (h : '\u0001' ∉ base) :
    ((compileBase base).map matcherLanguage).prod = baseLanguage base := by
  induction base with
  | nil => rfl
  | cons c base ih =>
      have hrest := ih fun hin => h (List.mem_cons_of_mem _ hin)
      have hone : c ≠ '\u0001' := fun heq => h (heq ▸ List.mem_cons_self)
      rw [compileBase, List.map_cons, List.map_cons, List.prod_cons, ← compileBase, hrest]
      by_cases hc : c = '*'
      · subst hc
        rfl
      · rw [if_neg (by simp [hc, hone]), base_literal hc]
        rfl

theorem compileStars_language {pattern : List Char} (hzero : '\u0000' ∉ pattern)
    (hone : '\u0001' ∉ pattern) :
    ((compileStars pattern).map matcherLanguage).prod = pathLanguage pattern := by
  induction pattern using compileStars.induct with
  | case1 rest ih =>
      rw [compileStars, List.map_cons, List.prod_cons,
        ih (fun hin => hzero (by simp [hin])) fun hin => hone (by simp [hin])]
      rfl
  | case2 rest hnext ih =>
      rw [compileStars, List.map_cons, List.prod_cons, pathLanguage,
        ih (fun hin => hzero (by simp [hin])) fun hin => hone (by simp [hin])]
      · rfl
      · exact hnext
      · exact hnext
  | case3 c rest hdouble hstar ih =>
      have hc0 : c ≠ '\u0000' := fun heq => hzero (heq ▸ List.mem_cons_self)
      have hc1 : c ≠ '\u0001' := fun heq => hone (heq ▸ List.mem_cons_self)
      rw [compileStars, pathLanguage, if_neg hc0, if_neg hc1, List.map_cons, List.prod_cons,
        ih (fun hin => hzero (by simp [hin])) fun hin => hone (by simp [hin])]
      · rfl
      · exact hdouble
      · exact hstar
      · exact hdouble
      · exact hstar
  | case4 => rfl

/-- The slash of the ending keeps the stars of the base apart from its own. -/
theorem path_append_slash (base rest : List Char) :
    pathLanguage (base ++ '/' :: rest) =
      pathLanguage base * (literalText '/' * pathLanguage rest) := by
  have hslash : pathLanguage ('/' :: rest) = literalText '/' * pathLanguage rest := by
    rw [pathLanguage]
    · intro rest' h
      cases h
    · intro h
      cases h
  induction base using compileStars.induct with
  | case1 base ih =>
      show pathLanguage ('*' :: '*' :: (base ++ '/' :: rest)) = _
      rw [pathLanguage, pathLanguage, ih, mul_assoc]
  | case2 base hnext ih =>
      show pathLanguage ('*' :: (base ++ '/' :: rest)) = _
      rw [pathLanguage, pathLanguage, ih, mul_assoc]
      · exact hnext
      · intro rest' h
        cases base with
        | nil => cases h
        | cons c base =>
            obtain ⟨rfl, -⟩ := List.cons.inj h
            exact hnext base rfl
  | case3 c base hdouble hstar ih =>
      show pathLanguage (c :: (base ++ '/' :: rest)) = _
      rw [pathLanguage, pathLanguage, ih, mul_assoc]
      · exact hdouble
      · exact hstar
      · exact fun rest' h => absurd h hstar
      · exact hstar
  | case4 =>
      rw [List.nil_append, hslash, pathLanguage, one_mul]

theorem ending_language (base : List Char) :
    pathLanguage (base ++ ['/', '*', '*']) + pathLanguage base =
      pathLanguage base * subtreeText := by
  have hstars : pathLanguage ['*', '*'] = anyText := mul_one anyText
  rw [path_append_slash, hstars, subtreeText, mul_add, mul_one, add_comm]

/-! ## Where the two readings of the base agree -/

theorem base_le_path {base w : List Char} (h : w ∈ baseLanguage base) : w ∈ pathLanguage base := by
  induction base using compileStars.induct generalizing w with
  | case1 rest ih =>
      rw [base_star, base_star, Language.mem_mul] at h
      obtain ⟨u, -, v, hv, rfl⟩ := h
      obtain ⟨u', -, v', hv', rfl⟩ := Language.mem_mul.mp hv
      rw [pathLanguage, ← List.append_assoc]
      exact Language.append_mem_mul trivial (ih hv')
  | case2 rest hnext ih =>
      rw [base_star, Language.mem_mul] at h
      obtain ⟨u, hu, v, hv, rfl⟩ := h
      rw [pathLanguage]
      · exact Language.append_mem_mul hu (ih hv)
      · exact hnext
  | case3 c rest hdouble hstar ih =>
      rw [base_literal hstar, Language.mem_mul] at h
      obtain ⟨u, hu, v, hv, rfl⟩ := h
      rw [pathLanguage]
      · exact Language.append_mem_mul hu (ih hv)
      · exact hdouble
      · exact hstar
  | case4 => exact h

/-- Up to the first `**` the two readings are the same. -/
theorem path_of_afterDoubleStar (base : List Char) :
    (afterDoubleStar base = none → pathLanguage base = baseLanguage base) ∧
      ∀ after, afterDoubleStar base = some after → ∃ before,
        base = before ++ '*' :: '*' :: after ∧
          pathLanguage base = baseLanguage before * (anyText * pathLanguage after) := by
  induction base using compileStars.induct with
  | case1 rest ih =>
      refine ⟨fun h => (by cases h), fun after h => ?_⟩
      obtain rfl := Option.some.inj h
      exact ⟨[], rfl, (one_mul _).symm⟩
  | case2 rest hnext ih =>
      have hafter : afterDoubleStar ('*' :: rest) = afterDoubleStar rest := by
        rw [afterDoubleStar]
        exact fun rest' _ h => hnext rest' h
      rw [hafter, pathLanguage]
      · refine ⟨fun h => by rw [ih.1 h]; rfl, fun after h => ?_⟩
        obtain ⟨before, rfl, hlanguage⟩ := ih.2 after h
        exact ⟨'*' :: before, rfl, by rw [hlanguage, base_star, mul_assoc]⟩
      · exact hnext
  | case3 c rest hdouble hstar ih =>
      have hafter : afterDoubleStar (c :: rest) = afterDoubleStar rest := by
        rw [afterDoubleStar]
        exact fun rest' h _ => hstar h
      rw [hafter, pathLanguage]
      · refine ⟨fun h => by rw [ih.1 h, base_literal hstar], fun after h => ?_⟩
        obtain ⟨before, rfl, hlanguage⟩ := ih.2 after h
        exact ⟨c :: before, rfl, by rw [hlanguage, base_literal hstar, mul_assoc]⟩
      · exact hdouble
      · exact hstar
  | case4 =>
      exact ⟨fun _ => rfl, fun after h => (by cases h)⟩

/-! ## Slashes and other characters that a word must hold -/

theorem base_count_le {base w : List Char} (h : w ∈ baseLanguage base) {c : Char}
    (hc : c ≠ '*') : base.count c ≤ w.count c := by
  induction base generalizing w with
  | nil => simp
  | cons d base ih =>
      by_cases hd : d = '*'
      · subst hd
        rw [base_star, Language.mem_mul] at h
        obtain ⟨u, -, v, hv, rfl⟩ := h
        have hrest := ih hv
        rw [List.count_cons_of_ne (Ne.symm hc), List.count_append]
        omega
      · rw [base_literal hd, mem_literal_mul] at h
        obtain ⟨v, hv, rfl⟩ := h
        have hrest := ih hv
        rw [List.count_cons, List.count_cons]
        omega

theorem path_count_le {pattern w : List Char} (h : w ∈ pathLanguage pattern) {c : Char}
    (hc : c ≠ '*') : pattern.count c ≤ w.count c := by
  induction pattern using compileStars.induct generalizing w with
  | case1 rest ih =>
      rw [pathLanguage, Language.mem_mul] at h
      obtain ⟨u, -, v, hv, rfl⟩ := h
      have hrest := ih hv
      rw [List.count_cons_of_ne (Ne.symm hc), List.count_cons_of_ne (Ne.symm hc),
        List.count_append]
      omega
  | case2 rest hnext ih =>
      rw [pathLanguage, Language.mem_mul] at h
      · obtain ⟨u, -, v, hv, rfl⟩ := h
        have hrest := ih hv
        rw [List.count_cons_of_ne (Ne.symm hc), List.count_append]
        omega
      · exact hnext
  | case3 d rest hdouble hstar ih =>
      rw [pathLanguage, mem_literal_mul] at h
      · obtain ⟨v, hv, rfl⟩ := h
        have hrest := ih hv
        rw [List.count_cons, List.count_cons]
        omega
      · exact hdouble
      · exact hstar
  | case4 => simp

/-- No star of the base stands for a slash. -/
theorem base_count_slash {base w : List Char} (h : w ∈ baseLanguage base) :
    w.count '/' = base.count '/' := by
  induction base generalizing w with
  | nil =>
      rw [baseLanguage, Language.mem_one] at h
      rw [h]
  | cons c base ih =>
      by_cases hc : c = '*'
      · subst hc
        rw [base_star, Language.mem_mul] at h
        obtain ⟨u, hu, v, hv, rfl⟩ := h
        have hnone : u.count '/' = 0 := List.count_eq_zero.mpr hu
        rw [List.count_append, hnone, ih hv, List.count_cons_of_ne (by decide)]
        omega
      · rw [base_literal hc, mem_literal_mul] at h
        obtain ⟨v, hv, rfl⟩ := h
        rw [List.count_cons, List.count_cons, ih hv]

/-- The word in which every star stands for nothing. -/
def erase (pattern : List Char) : List Char := pattern.filter (· ≠ '*')

theorem erase_mem (base : List Char) : erase base ∈ baseLanguage base := by
  induction base with
  | nil => exact Language.mem_one _ |>.mpr rfl
  | cons c base ih =>
      by_cases hc : c = '*'
      · subst hc
        exact Language.append_mem_mul (show [] ∈ segmentText from List.not_mem_nil) ih
      · rw [base_literal hc, mem_literal_mul]
        exact ⟨erase base, ih, by simp [erase, hc]⟩

theorem count_erase {pattern : List Char} {c : Char} (hc : c ≠ '*') :
    (erase pattern).count c = pattern.count c :=
  List.count_filter (by simpa using hc)

/-! ## A rest that covers segments -/

theorem mem_segment_subtree (w : List Char) : w ∈ segmentText * subtreeText := by
  refine Language.mem_mul.mpr ⟨w.takeWhile (· ≠ '/'), fun hin => ?_, w.dropWhile (· ≠ '/'),
    mem_subtreeText.mpr ?_, List.takeWhile_append_dropWhile⟩
  · simpa using List.mem_takeWhile_imp hin
  · cases hrest : w.dropWhile (· ≠ '/') with
    | nil => exact .inl rfl
    | cons c rest =>
        right
        have hhead := List.head?_dropWhile_not (· ≠ '/') w
        rw [hrest] at hhead
        simpa using hhead

theorem covers_language {after : List Char} (h : coversSegments after = true) {w : List Char}
    (hcount : after.count '/' ≤ w.count '/') :
    w ∈ segmentText * (baseLanguage after * subtreeText) := by
  have hnothing : [] ∈ segmentText := List.not_mem_nil
  induction after using coversSegments.induct generalizing w with
  | case1 =>
      rw [baseLanguage, one_mul]
      exact mem_segment_subtree w
  | case2 rest ih =>
      rw [coversSegments] at h
      rw [List.count_cons_of_ne (by decide)] at hcount
      have hrest := ih h hcount
      rw [base_star, mul_assoc]
      exact Language.append_mem_mul hnothing hrest
  | case3 rest ih =>
      rw [coversSegments] at h
      rw [List.count_cons_self, List.count_cons_of_ne (by decide)] at hcount
      have hin : '/' ∈ w := List.count_pos_iff.mp (by omega)
      obtain ⟨u, v, rfl, hu⟩ := List.eq_append_cons_of_mem hin
      have hnone : u.count '/' = 0 := List.count_eq_zero.mpr hu
      rw [List.count_append, List.count_cons_self, hnone] at hcount
      have hrest := ih h (w := v) (by omega)
      rw [base_literal (by decide), base_star, mul_assoc, mul_assoc]
      exact Language.append_mem_mul hu (mem_literal_mul.mpr ⟨v, hrest, rfl⟩)
  | case4 rest hnil hstar hslash =>
      exfalso
      rw [coversSegments.eq_def] at h
      split at h
      · exact hnil rfl
      · exact hstar _ rfl
      · exact hslash _ rfl
      · cases h

theorem readings_agree {base : List Char}
    (h : ∀ after, afterDoubleStar base = some after → coversSegments after = true) :
    pathLanguage base * subtreeText = baseLanguage base * subtreeText := by
  obtain ⟨hnone, hsome⟩ := path_of_afterDoubleStar base
  cases hafter : afterDoubleStar base with
  | none => rw [hnone hafter]
  | some after =>
      obtain ⟨before, hbase, hlanguage⟩ := hsome after hafter
      ext w
      constructor
      · intro hw
        rw [hlanguage, mul_assoc, Language.mem_mul] at hw
        obtain ⟨p, hp, t, ht, rfl⟩ := hw
        obtain ⟨u, hu, s, -, rfl⟩ := Language.mem_mul.mp ht
        obtain ⟨x, -, v, hv, rfl⟩ := Language.mem_mul.mp hu
        have hcount : after.count '/' ≤ (x ++ v ++ s).count '/' := by
          have hle := path_count_le hv (c := '/') (by decide)
          rw [List.count_append, List.count_append]
          omega
        have hcover := covers_language (h after hafter) hcount
        rw [hbase, base_append, base_star, base_star, mul_assoc, mul_assoc, mul_assoc]
        have hnothing : [] ∈ segmentText := List.not_mem_nil
        have hstars := Language.append_mem_mul hnothing hcover
        exact Language.append_mem_mul hp hstars
      · intro hw
        obtain ⟨v, hv, s, hs, rfl⟩ := Language.mem_mul.mp hw
        exact Language.append_mem_mul (base_le_path hv) hs

/-! ## A rest that does not -/

/-- `n` segments of one character. -/
def segments (x : Char) (n : Nat) : List Char := (List.replicate n ['/', x]).flatten

theorem segments_succ (x : Char) (n : Nat) :
    segments x (n + 1) = '/' :: x :: segments x n := by
  simp [segments, List.replicate_succ]

theorem segments_add (x : Char) (m n : Nat) :
    segments x (m + n) = segments x m ++ segments x n := by
  rw [segments, List.replicate_add, List.flatten_append]
  rfl

theorem count_slash_segments {x : Char} (hx : x ≠ '/') (n : Nat) :
    (segments x n).count '/' = n := by
  induction n with
  | zero => rfl
  | succ n ih =>
      rw [segments_succ, List.count_cons_self, List.count_cons_of_ne hx, ih]

theorem mem_segments {x c : Char} {n : Nat} (h : c ∈ segments x n) : c = '/' ∨ c = x := by
  obtain ⟨l, hl, hc⟩ := List.mem_flatten.mp h
  rw [List.eq_of_mem_replicate hl] at hc
  simpa using hc

theorem nil_of_count_slash {r s t : List Char} (h : '/' :: s = r ++ t)
    (hcount : r.count '/' = 0) : r = [] := by
  cases r with
  | nil => rfl
  | cons c r =>
      obtain ⟨rfl, -⟩ := List.cons.inj h
      rw [List.count_cons_self] at hcount
      omega

/-- A slash and the number of slashes before it determine the text before it. -/
theorem eq_of_append_slash {v v' s s' : List Char}
    (h : v ++ '/' :: s = v' ++ '/' :: s') (hcount : v.count '/' = v'.count '/') : v = v' := by
  rcases List.append_eq_append_iff.mp h with ⟨r, hv', hs⟩ | ⟨r, hv, hs⟩
  · rw [hv', List.count_append] at hcount
    rw [hv', nil_of_count_slash hs (by omega), List.append_nil]
  · rw [hv, List.count_append] at hcount
    rw [hv, nil_of_count_slash hs (by omega), List.append_nil]

/-- A slash and the number of slashes after it determine the text after it. -/
theorem eq_of_slash_append {u u' t t' : List Char}
    (h : u ++ '/' :: t = u' ++ '/' :: t') (hcount : t.count '/' = t'.count '/') : t = t' := by
  rcases List.append_eq_append_iff.mp h with ⟨r, -, ht⟩ | ⟨r, -, ht⟩
  · have hr : r = [] := by
      refine nil_of_count_slash ht ?_
      have hsum := congrArg (List.count '/') ht
      rw [List.count_append, List.count_cons_self, List.count_cons_self] at hsum
      omega
    rw [hr, List.nil_append] at ht
    exact (List.cons.inj ht).2
  · have hr : r = [] := by
      refine nil_of_count_slash ht ?_
      have hsum := congrArg (List.count '/') ht
      rw [List.count_append, List.count_cons_self, List.count_cons_self] at hsum
      omega
    rw [hr, List.nil_append] at ht
    exact (List.cons.inj ht).2.symm

/-- A character that is neither star nor slash, or a slash that no star follows. -/
theorem coversSegments_false {after : List Char} (h : coversSegments after = false) :
    ∃ left c right, after = left ++ c :: right ∧ c ≠ '*' ∧
      (c = '/' → right.head? ≠ some '*') := by
  induction after using coversSegments.induct with
  | case1 => cases h
  | case2 rest ih =>
      rw [coversSegments] at h
      obtain ⟨left, c, right, rfl, hc⟩ := ih h
      exact ⟨'*' :: left, c, right, rfl, hc⟩
  | case3 rest ih =>
      rw [coversSegments] at h
      obtain ⟨left, c, right, rfl, hc⟩ := ih h
      exact ⟨'/' :: '*' :: left, c, right, rfl, hc⟩
  | case4 rest hnil hstar hslash =>
      cases rest with
      | nil => exact absurd rfl hnil
      | cons c rest =>
          refine ⟨[], c, rest, rfl, fun hc => hstar rest (by rw [hc]), fun hc hhead => ?_⟩
          obtain ⟨rest', rfl⟩ := List.head?_eq_some_iff.mp hhead
          exact hslash rest' (by rw [hc])

/-- Segments that the `**` of the pattern takes and that two stars do not. -/
def detour (x : Char) (before after : List Char) : List Char :=
  erase before ++ segments x (before.count '/' + after.count '/' + 1) ++ erase after

theorem detour_mem (x : Char) (before after : List Char) :
    detour x before after ∈ baseLanguage before * (anyText * pathLanguage after) := by
  rw [detour, List.append_assoc]
  refine Language.append_mem_mul (erase_mem before) ?_
  exact Language.append_mem_mul (Set.mem_univ _) (base_le_path (erase_mem after))

/-- The base would have to match as many segments as it has slashes. -/
theorem base_of_detour {x : Char} (hx : x ≠ '/') {before after : List Char}
    (h : detour x before after ∈
      baseLanguage (before ++ '*' :: '*' :: after) * subtreeText) :
    erase before ++ segments x (after.count '/') ∈
      baseLanguage (before ++ '*' :: '*' :: after) := by
  obtain ⟨v, hv, s, hs, hword⟩ := Language.mem_mul.mp h
  have hslash := base_count_slash hv
  rw [List.count_append, List.count_cons_of_ne (by decide),
    List.count_cons_of_ne (by decide)] at hslash
  have hbefore : (erase before).count '/' = before.count '/' := count_erase (by decide)
  have hafter : (erase after).count '/' = after.count '/' := count_erase (by decide)
  have hsplit : detour x before after =
      (erase before ++ segments x (after.count '/')) ++
        '/' :: x :: (segments x (before.count '/') ++ erase after) := by
    have harrange : before.count '/' + after.count '/' + 1 =
        after.count '/' + (before.count '/' + 1) := by omega
    rw [detour, harrange, segments_add, segments_succ]
    simp
  rcases mem_subtreeText.mp hs with rfl | hhead
  · rw [List.append_nil] at hword
    have htotal := congrArg (List.count '/') hword
    rw [hslash, detour, List.count_append, List.count_append, count_slash_segments hx,
      hbefore, hafter] at htotal
    omega
  · obtain ⟨s', rfl⟩ := List.head?_eq_some_iff.mp hhead
    rw [hsplit] at hword
    have heq := eq_of_append_slash hword (by
      rw [List.count_append, count_slash_segments hx, hslash, hbefore])
    rwa [← heq]

/-- With the characters of the segments chosen well, the base does not match them. -/
theorem detour_not_mem {before after : List Char} (h : coversSegments after = false) :
    ∃ x, (x = 'a' ∨ x = 'b') ∧
      detour x before after ∉ baseLanguage (before ++ '*' :: '*' :: after) * subtreeText := by
  obtain ⟨left, c, right, rfl, hstar, hright⟩ := coversSegments_false h
  by_cases hc : c = '/'
  · -- The slash is followed by nothing, or by one character of its own.
    subst hc
    obtain ⟨x, hx, hne⟩ : ∃ x, (x = 'a' ∨ x = 'b') ∧ right.head? ≠ some x := by
      by_cases ha : right.head? = some 'a'
      · exact ⟨'b', .inr rfl, by rw [ha]; decide⟩
      · exact ⟨'a', .inl rfl, ha⟩
    have hslash : x ≠ '/' := by
      rcases hx with rfl | rfl <;> decide
    refine ⟨x, hx, fun hmem => ?_⟩
    have hbase := base_of_detour hslash hmem
    have hcut : before ++ '*' :: '*' :: (left ++ '/' :: right) =
        (before ++ '*' :: '*' :: left) ++ '/' :: right := by simp
    rw [hcut, base_append, base_literal (by decide), Language.mem_mul] at hbase
    obtain ⟨u, -, t, ht, hword⟩ := hbase
    obtain ⟨v, hv, rfl⟩ := mem_literal_mul.mp ht
    have hsegments : segments x ((left ++ '/' :: right).count '/') =
        segments x (left.count '/') ++ '/' :: x :: segments x (right.count '/') := by
      rw [List.count_append, List.count_cons_self, segments_add, segments_succ]
    rw [hsegments, ← List.append_assoc] at hword
    have heq := eq_of_slash_append hword (by
      rw [base_count_slash hv, List.count_cons_of_ne hslash, count_slash_segments hslash])
    rw [heq] at hv
    cases right with
    | nil =>
        rw [baseLanguage, Language.mem_one] at hv
        cases hv
    | cons d right =>
        have hd : d ≠ '*' := fun hd => hright rfl (by rw [hd]; rfl)
        rw [base_literal hd, mem_literal_mul] at hv
        obtain ⟨v', -, hv'⟩ := hv
        exact hne (by rw [(List.cons.inj hv').1]; rfl)
  · -- The character does not occur in the segments.
    obtain ⟨x, hx, hne⟩ : ∃ x, (x = 'a' ∨ x = 'b') ∧ c ≠ x := by
      by_cases ha : c = 'a'
      · exact ⟨'b', .inr rfl, by rw [ha]; decide⟩
      · exact ⟨'a', .inl rfl, ha⟩
    have hslash : x ≠ '/' := by
      rcases hx with rfl | rfl <;> decide
    refine ⟨x, hx, fun hmem => ?_⟩
    have hle := base_count_le (base_of_detour hslash hmem) hstar
    have hnone : (segments x ((left ++ c :: right).count '/')).count c = 0 := by
      refine List.count_eq_zero.mpr fun hin => ?_
      rcases mem_segments hin with rfl | rfl
      · exact hc rfl
      · exact hne rfl
    rw [List.count_append, List.count_append, hnone, count_erase hstar,
      List.count_cons_of_ne (Ne.symm hstar), List.count_cons_of_ne (Ne.symm hstar),
      List.count_append, List.count_cons_self] at hle
    omega

end BurrowGate.Routes
