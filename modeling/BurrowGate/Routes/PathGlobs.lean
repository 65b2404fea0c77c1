import BurrowGate.Routes.PathLanguage

/-!
# Which patterns mean what they say

The base of a pattern with the ending `/**` loses its own `**`: two stars read one by one
stay within a segment. A pattern that holds a placeholder of the source gains a star.
-/

namespace BurrowGate.Routes

open Js

/-! ## What a pattern matches -/

theorem isWhiteSpace_of_isLineTerminator {c : Char} (h : isLineTerminator c = true) :
    isWhiteSpace c = true := by
  simp only [isLineTerminator, Bool.or_eq_true, decide_eq_true_eq] at h
  rcases h with ((rfl | rfl) | rfl) | rfl <;> decide

theorem take_ending (base : List Char) :
    (base ++ ['/', '*', '*']).take ((base ++ ['/', '*', '*']).length - 3) = base := by
  rw [List.length_append]
  exact List.take_left

theorem matches_ending {base pathname : List Char}
    (hline : ∀ c ∈ pathname, isLineTerminator c = false) :
    pathPatternMatches (base ++ ['/', '*', '*']) pathname = true ↔
      pathname ∈ ((compileBase base).map matcherLanguage).prod * subtreeText := by
  rw [pathPatternMatches, compilePattern, if_pos (List.suffix_append _ _), take_ending,
    matchPath_iff hline, List.map_append, List.prod_append, List.map_singleton,
    List.prod_singleton]
  rfl

theorem matches_plain {pattern pathname : List Char} (hend : ¬ ['/', '*', '*'] <:+ pattern)
    (hline : ∀ c ∈ pathname, isLineTerminator c = false) :
    pathPatternMatches pattern pathname = true ↔
      pathname ∈ ((compileStars pattern).map matcherLanguage).prod := by
  rw [pathPatternMatches, compilePattern, if_neg hend, matchPath_iff hline]

theorem patternLanguage_ending (base : List Char) :
    patternLanguage (base ++ ['/', '*', '*']) = pathLanguage base * subtreeText := by
  rw [patternLanguage, if_pos (List.suffix_append _ _), take_ending, ending_language]

/-! ## A text made of the pattern's own characters -/

theorem isPathname_filter {pattern : List Char} (hslash : pattern.head? = some '/')
    (hspace : ∀ c ∈ pattern, isWhiteSpace c = false) {p : Char → Bool} (hp : p '/' = true) :
    IsPathname (pattern.filter p) := by
  obtain ⟨rest, rfl⟩ := List.head?_eq_some_iff.mp hslash
  refine ⟨by rw [List.filter_cons_of_pos hp]; rfl, fun c hc => ?_⟩
  have hblank := hspace c (List.mem_of_mem_filter hc)
  by_contra hline
  rw [isWhiteSpace_of_isLineTerminator (by simpa using hline)] at hblank
  cases hblank

theorem count_filter_of_neg {text : List Char} {p : Char → Bool} {c : Char} (hp : p c = false) :
    (text.filter p).count c = 0 := by
  refine List.count_eq_zero.mpr fun hin => ?_
  rw [List.of_mem_filter hin] at hp
  cases hp

theorem isPathname_detour {x : Char} (hx : x = 'a' ∨ x = 'b') {before after : List Char}
    (hslash : (before ++ '*' :: '*' :: after).head? = some '/')
    (hspace : ∀ c ∈ before ++ '*' :: '*' :: after, isWhiteSpace c = false) :
    IsPathname (detour x before after) := by
  have hkept : ∀ c ∈ before ++ '*' :: '*' :: after, isLineTerminator c = false := by
    intro c hc
    by_contra hline
    have hblank := isWhiteSpace_of_isLineTerminator (by simpa using hline)
    rw [hspace c hc] at hblank
    cases hblank
  constructor
  · cases before with
    | nil => cases hslash
    | cons c before =>
        obtain rfl := Option.some.inj hslash
        rfl
  · intro c hc
    rw [detour, List.mem_append, List.mem_append] at hc
    rcases hc with (hc | hc) | hc
    · exact hkept c (List.mem_append_left _ (List.mem_of_mem_filter hc))
    · rcases mem_segments hc with rfl | rfl
      · decide
      · rcases hx with rfl | rfl <;> decide
    · have hafter := List.mem_of_mem_filter hc
      exact hkept c (by simp [hafter])

/-- Where the placeholder stands for a star, it stands for nothing. -/
theorem compileBase_erased (base : List Char) :
    base.filter (fun c => c ≠ '*' && c ≠ '\u0001') ∈
      ((compileBase base).map matcherLanguage).prod := by
  have hnothing : [] ∈ segmentText := List.not_mem_nil
  induction base with
  | nil => exact Language.mem_one _ |>.mpr rfl
  | cons c base ih =>
      rw [compileBase, List.map_cons, List.map_cons, List.prod_cons, ← compileBase]
      by_cases hc : c = '*' ∨ c = '\u0001'
      · rw [if_pos hc, List.filter_cons_of_neg (by rcases hc with rfl | rfl <;> decide)]
        exact Language.append_mem_mul hnothing ih
      · obtain ⟨hstar, hone⟩ := not_or.mp hc
        rw [if_neg hc, List.filter_cons_of_pos (by simp [hstar, hone])]
        exact Language.append_mem_mul (show [c] ∈ literalText c from rfl) ih

theorem compileStars_erased (pattern : List Char) :
    pattern.filter (fun c => c ≠ '*' && c ≠ '\u0000' && c ≠ '\u0001') ∈
      ((compileStars pattern).map matcherLanguage).prod := by
  have hnothing : [] ∈ segmentText := List.not_mem_nil
  have hany : [] ∈ anyText := Set.mem_univ _
  induction pattern using compileStars.induct with
  | case1 rest ih =>
      rw [compileStars, List.map_cons, List.prod_cons]
      exact Language.append_mem_mul hany ih
  | case2 rest hnext ih =>
      rw [compileStars, List.map_cons, List.prod_cons]
      · exact Language.append_mem_mul hnothing ih
      · exact hnext
  | case3 c rest hdouble hstar ih =>
      have hc : c ≠ '*' := hstar
      rw [compileStars, List.map_cons, List.prod_cons]
      · by_cases hzero : c = '\u0000'
        · subst hzero
          exact Language.append_mem_mul hany ih
        · by_cases hone : c = '\u0001'
          · subst hone
            exact Language.append_mem_mul hnothing ih
          · rw [if_neg hzero, if_neg hone, List.filter_cons_of_pos (by simp [hc, hzero, hone])]
            exact Language.append_mem_mul (show [c] ∈ literalText c from rfl) ih
      · exact hdouble
      · exact hstar
  | case4 => exact Language.mem_one _ |>.mpr rfl

/-! ## When the code agrees with the language -/

theorem globs_plain {pattern : List Char} (h : Accepted pattern)
    (hend : ¬ ['/', '*', '*'] <:+ pattern) :
    (∀ pathname, IsPathname pathname →
      (pathPatternMatches pattern pathname = true ↔ pathname ∈ patternLanguage pattern)) ↔
      '\u0001' ∉ pattern ∧ '\u0000' ∉ pattern := by
  have hlanguage : patternLanguage pattern = pathLanguage pattern := if_neg hend
  constructor
  · intro hall
    have hpath : IsPathname
        (pattern.filter fun c => c ≠ '*' && c ≠ '\u0000' && c ≠ '\u0001') :=
      isPathname_filter h.slash h.space (by decide)
    have hmem := (hall _ hpath).mp
      ((matches_plain hend hpath.2).mpr (compileStars_erased pattern))
    rw [hlanguage] at hmem
    constructor
    · intro hin
      have hle := path_count_le hmem (c := '\u0001') (by decide)
      have hpos := List.count_pos_iff.mpr hin
      rw [count_filter_of_neg (by decide)] at hle
      omega
    · intro hin
      have hle := path_count_le hmem (c := '\u0000') (by decide)
      have hpos := List.count_pos_iff.mpr hin
      rw [count_filter_of_neg (by decide)] at hle
      omega
  · rintro ⟨hone, hzero⟩ pathname hpath
    rw [matches_plain hend hpath.2, compileStars_language hzero hone, hlanguage]

theorem globs_ending {base : List Char} (h : Accepted (base ++ ['/', '*', '*'])) :
    (∀ pathname, IsPathname pathname →
      (pathPatternMatches (base ++ ['/', '*', '*']) pathname = true ↔
        pathname ∈ patternLanguage (base ++ ['/', '*', '*']))) ↔
      '\u0001' ∉ base ∧
        ∀ after, afterDoubleStar base = some after → coversSegments after = true := by
  have hspace : ∀ c ∈ base, isWhiteSpace c = false :=
    fun c hc => h.space c (List.mem_append_left _ hc)
  have hslash : base ≠ [] → base.head? = some '/' := by
    intro hne
    obtain ⟨c, rest, rfl⟩ := List.exists_cons_of_ne_nil hne
    exact h.slash
  rw [patternLanguage_ending]
  constructor
  · intro hall
    have hone : '\u0001' ∉ base := by
      intro hin
      have hpath : IsPathname (base.filter fun c => c ≠ '*' && c ≠ '\u0001') :=
        isPathname_filter (hslash (List.ne_nil_of_mem hin)) hspace (by decide)
      have hnothing : [] ∈ subtreeText := mem_subtreeText.mpr (.inl rfl)
      have hcode := Language.append_mem_mul (compileBase_erased base) hnothing
      rw [List.append_nil] at hcode
      have hmem := (hall _ hpath).mp ((matches_ending hpath.2).mpr hcode)
      obtain ⟨v, hv, s, -, hword⟩ := Language.mem_mul.mp hmem
      have hle := path_count_le hv (c := '\u0001') (by decide)
      have hpos := List.count_pos_iff.mpr hin
      have hsum := congrArg (List.count '\u0001') hword
      rw [List.count_append, count_filter_of_neg (by decide)] at hsum
      omega
    refine ⟨hone, fun after hafter => ?_⟩
    by_contra hcovers
    obtain ⟨before, hbase, hlanguage⟩ := (path_of_afterDoubleStar base).2 after hafter
    obtain ⟨x, hx, hnot⟩ := @detour_not_mem before after (by simpa using hcovers)
    have hpath : IsPathname (detour x before after) := by
      have hne : base ≠ [] := by
        rw [hbase]
        simp
      refine isPathname_detour hx ?_ ?_
      · rw [← hbase]
        exact hslash hne
      · rw [← hbase]
        exact hspace
    have hnothing : [] ∈ subtreeText := mem_subtreeText.mpr (.inl rfl)
    have hword := Language.append_mem_mul (detour_mem x before after) hnothing
    rw [List.append_nil, ← hlanguage] at hword
    have hcode := (matches_ending hpath.2).mp ((hall _ hpath).mpr hword)
    rw [compileBase_language hone, hbase] at hcode
    exact hnot hcode
  · rintro ⟨hone, hcovers⟩ pathname hpath
    rw [matches_ending hpath.2, compileBase_language hone, readings_agree hcovers]

/-- A pattern means what it says exactly when it is not misread. -/
theorem path_globs (value : JsValue) (pattern : List Char)
    (h : normalizePathPattern value = .ok pattern) :
    (∀ pathname, IsPathname pathname →
      (regexTest (matcherSource pattern) pathname = true ↔
        pathname ∈ patternLanguage pattern)) ↔ ¬ Misread pattern := by
  have haccepted := normalizePathPattern_accepted h
  simp only [regexTest_matcherSource haccepted]
  by_cases hend : ['/', '*', '*'] <:+ pattern
  · obtain ⟨base, rfl⟩ := hend
    rw [globs_ending haccepted, Misread, if_pos (List.suffix_append _ _), take_ending, not_or]
    refine and_congr ?_ ?_
    · rw [List.mem_append, not_or]
      exact (and_iff_left (by decide)).symm
    · constructor
      · rintro hcovers ⟨after, hafter, hfalse⟩
        rw [hcovers after hafter] at hfalse
        cases hfalse
      · intro hnone after hafter
        by_contra hfalse
        exact hnone ⟨after, hafter, by simpa using hfalse⟩
  · rw [globs_plain haccepted hend, Misread, if_neg hend, not_or]

theorem path_globs_ending :
    (∀ pathname, IsPathname pathname →
      (regexTest (matcherSource "/api/**".toList) pathname = true ↔
        pathname ∈ patternLanguage "/api/**".toList)) ↔ ¬ Misread "/api/**".toList :=
  path_globs (.string "/api/**".toList) "/api/**".toList (by decide +kernel)

/-- The `**` of the base does not take the slash between `x` and `y`. -/
theorem inner_doubleStar_stops :
    normalizePathPattern (.string "/a/**/b/**".toList) = .ok "/a/**/b/**".toList ∧
      IsPathname "/a/x/y/b".toList ∧
      "/a/x/y/b".toList ∈ patternLanguage "/a/**/b/**".toList ∧
      regexTest (matcherSource "/a/**/b/**".toList) "/a/x/y/b".toList = false := by
  have hlines : ("/a/x/y/b".toList.any isLineTerminator) = false := by decide +kernel
  have hpathname : IsPathname "/a/x/y/b".toList :=
    ⟨rfl, fun c hc => Bool.eq_false_of_not_eq_true (List.any_eq_false.mp hlines c hc)⟩
  refine ⟨by decide +kernel, hpathname, ?_, by decide +kernel⟩
  have hrest : "/b".toList ∈ pathLanguage "/b".toList := base_le_path (erase_mem "/b".toList)
  have hany : "x/y".toList ++ "/b".toList ∈ anyText * pathLanguage "/b".toList :=
    Language.append_mem_mul (Set.mem_univ _) hrest
  have hbase : "/a/x/y/b".toList ∈ pathLanguage "/a/**/b".toList :=
    mem_literal_mul.mpr ⟨_, mem_literal_mul.mpr ⟨_, mem_literal_mul.mpr ⟨_, hany, rfl⟩, rfl⟩, rfl⟩
  have hnothing : [] ∈ subtreeText := mem_subtreeText.mpr (.inl rfl)
  have hword := Language.append_mem_mul hbase hnothing
  rw [← patternLanguage_ending] at hword
  exact hword

end BurrowGate.Routes
