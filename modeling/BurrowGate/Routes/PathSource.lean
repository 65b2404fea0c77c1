import BurrowGate.Js.Value
import BurrowGate.Routes.RoutePolicy

/-!
# `route-policy-service.ts`: from a path pattern to a regular expression

A pattern is escaped and its stars are replaced, through two control characters, by the
source of a regular expression. Read as one, this source is the list of matchers that
`compilePattern` gives. The cache of compiled patterns is left out.
-/

namespace BurrowGate.Routes

open Js

/-! ## Accepted patterns -/

def requiredString (value : JsValue) (label : String) (maximum : Nat) :
    Except String (List Char) :=
  let result := trim (value.orElse (.string [])).toText
  if result = [] then .error (label ++ " is required")
  else if maximum < utf16Length result then
    .error (label ++ " must be at most " ++ toString maximum ++ " characters")
  else .ok result

def normalizePathPattern (value : JsValue) : Except String (List Char) :=
  (requiredString value "Path pattern" 2048).bind fun pattern =>
    if pattern.head? ≠ some '/' then .error "Path pattern must start with /"
    else if (pattern.contains '?' || pattern.contains '#') = true then
      .error "Path pattern must not contain a query string or fragment"
    else if pattern.any isWhiteSpace = true then
      .error "Path pattern must not contain whitespace"
    else .ok pattern

/-- What the checks leave. -/
structure Accepted (pattern : List Char) : Prop where
  slash : pattern.head? = some '/'
  query : '?' ∉ pattern
  space : ∀ c ∈ pattern, isWhiteSpace c = false

theorem normalizePathPattern_accepted {value : JsValue} {pattern : List Char}
    (h : normalizePathPattern value = .ok pattern) : Accepted pattern := by
  unfold normalizePathPattern at h
  cases hrequired : requiredString value "Path pattern" 2048 with
  | error message =>
      rw [hrequired] at h
      cases h
  | ok result =>
      rw [hrequired] at h
      dsimp only [Except.bind] at h
      split at h
      · cases h
      · rename_i hslash
        split at h
        · cases h
        · rename_i hquery
          split at h
          · cases h
          · rename_i hspace
            obtain rfl := Except.ok.inj h
            refine ⟨by simpa using hslash, ?_, fun c hc => ?_⟩
            · intro hin
              simp [hin] at hquery
            · by_contra hblank
              exact hspace (List.any_eq_true.mpr ⟨c, hc, by simpa using hblank⟩)

/-! ## The source of the regular expression -/

/-- `/[.+^${}()|[\]\\]/` -/
def isEscaped (c : Char) : Bool :=
  ['.', '+', '^', '$', '\x7b', '\x7d', '(', ')', '|', '[', ']', '\\'].contains c

def escapeRegex (value : List Char) : List Char :=
  value.flatMap fun c => if isEscaped c then ['\\', c] else [c]

/-- `replaceAll` with a text that is not empty; `skip` characters belong to the last hit. -/
def replaceFrom (search replacement : List Char) : Nat → List Char → List Char
  | _, [] => []
  | skip + 1, _ :: rest => replaceFrom search replacement skip rest
  | 0, c :: rest =>
      if search.isPrefixOf (c :: rest) then
        replacement ++ replaceFrom search replacement (search.length - 1) rest
      else c :: replaceFrom search replacement 0 rest

def replaceAll (text search replacement : List Char) : List Char :=
  replaceFrom search replacement 0 text

def doubleStar : List Char := ['\u0000']

def singleStar : List Char := ['\u0001']

def segmentSource : List Char := ['[', '^', '/', ']', '*']

def subtreeSource : List Char := ['(', '?', ':', '/', '.', '*', ')', '?']

def matcherSource (pattern : List Char) : List Char :=
  if ['/', '*', '*'] <:+ pattern then
    let base := pattern.take (pattern.length - 3)
    replaceAll (replaceAll (escapeRegex base) ['*'] singleStar) singleStar segmentSource ++
      subtreeSource
  else
    let doubled := replaceAll (escapeRegex pattern) ['*', '*'] doubleStar
    let stars := replaceAll doubled ['*'] singleStar
    replaceAll (replaceAll stars doubleStar ['.', '*']) singleStar segmentSource

/-- The matchers a source is read as, none for other syntax. -/
def parseFrom : Nat → List Char → Option (List PathMatcher)
  | _, [] => some []
  | skip + 1, _ :: rest => parseFrom skip rest
  | 0, c :: rest =>
      if segmentSource.isPrefixOf (c :: rest) then (parseFrom 4 rest).map (.singleStar :: ·)
      else if ['.', '*'].isPrefixOf (c :: rest) then (parseFrom 1 rest).map (.doubleStar :: ·)
      else if subtreeSource.isPrefixOf (c :: rest) then (parseFrom 7 rest).map (.subtree :: ·)
      else if c = '\\' then
        match rest with
        | d :: _ => if isEscaped d then (parseFrom 1 rest).map (.literal d :: ·) else none
        | [] => none
      else if isEscaped c ∨ c = '*' ∨ c = '?' then none
      else (parseFrom 0 rest).map (.literal c :: ·)

/-- `new RegExp("^" + source + "$", "u").test(text)` -/
def regexTest (source text : List Char) : Bool := (parseFrom 0 source).any (matchPath · text)

example : regexTest (matcherSource "/a.b/*/**".toList) "/a.b/c/d".toList = true ∧
    regexTest (matcherSource "/a.b/*/**".toList) "/axb/c".toList = false := by decide +kernel

/-! ## The source reads as the compiled pattern -/

def render : PathMatcher → List Char
  | .literal c => if isEscaped c then ['\\', c] else [c]
  | .singleStar => segmentSource
  | .doubleStar => ['.', '*']
  | .subtree => subtreeSource

/-- A character that the source can hold as itself. -/
def IsPlain (m : PathMatcher) : Prop := ∀ c, m = .literal c → c ≠ '*' ∧ c ≠ '?'

theorem parseFrom_render {m : PathMatcher} (hm : IsPlain m) (rest : List Char) :
    parseFrom 0 (render m ++ rest) = (parseFrom 0 rest).map (m :: ·) := by
  cases m with
  | singleStar => rfl
  | doubleStar => rfl
  | subtree => rfl
  | literal c =>
      obtain ⟨hstar, hquestion⟩ := hm c rfl
      rw [render]
      by_cases hescaped : isEscaped c = true
      · rw [if_pos hescaped]
        show parseFrom 0 ('\\' :: c :: rest) = _
        rw [parseFrom, if_neg (by simp [segmentSource, List.isPrefixOf]),
          if_neg (by simp [List.isPrefixOf]), if_neg (by simp [subtreeSource, List.isPrefixOf]),
          if_pos rfl, if_pos hescaped]
        rfl
      · rw [if_neg hescaped]
        show parseFrom 0 (c :: rest) = _
        have hne : ∀ d, isEscaped d = true → d ≠ c := by
          rintro d hd rfl
          exact hescaped hd
        have hbracket := hne '[' (by decide)
        have hdot := hne '.' (by decide)
        have hparen := hne '(' (by decide)
        have hslash := hne '\\' (by decide)
        rw [parseFrom.eq_def]
        dsimp only
        rw [if_neg (by simp [segmentSource, List.isPrefixOf, hbracket]),
          if_neg (by simp [List.isPrefixOf, hdot]),
          if_neg (by simp [subtreeSource, List.isPrefixOf, hparen]), if_neg hslash.symm,
          if_neg (by simp [hescaped, hstar, hquestion])]

theorem parseFrom_flatMap_render {ms : List PathMatcher} (hms : ∀ m ∈ ms, IsPlain m) :
    parseFrom 0 (ms.flatMap render) = some ms := by
  induction ms with
  | nil => rfl
  | cons m ms ih =>
      rw [List.flatMap_cons, parseFrom_render (hms m List.mem_cons_self),
        ih fun n hn => hms n (List.mem_cons_of_mem _ hn)]
      rfl

/-- Replacing one character replaces each of them on its own. -/
theorem replaceAll_singleton (text : List Char) (s : Char) (replacement : List Char) :
    replaceAll text [s] replacement =
      text.flatMap fun c => if c = s then replacement else [c] := by
  unfold replaceAll
  induction text with
  | nil => rfl
  | cons c text ih =>
      rw [replaceFrom, List.flatMap_cons, ← ih]
      by_cases hc : c = s
      · subst hc
        simp [List.isPrefixOf]
      · have hs : s ≠ c := fun h => hc h.symm
        simp [List.isPrefixOf, hc, hs]

theorem compileBase_source (base : List Char) :
    replaceAll (replaceAll (escapeRegex base) ['*'] singleStar) singleStar segmentSource =
      (compileBase base).flatMap render := by
  rw [replaceAll_singleton, singleStar, replaceAll_singleton, escapeRegex, compileBase,
    List.flatMap_assoc, List.flatMap_assoc, List.flatMap_map]
  refine List.flatMap_congr fun c _ => ?_
  by_cases hstar : c = '*'
  · subst hstar
    rfl
  · by_cases hone : c = '\u0001'
    · subst hone
      rfl
    · by_cases hescaped : isEscaped c = true
      · simp [hescaped, hstar, hone, render]
      · simp [hescaped, hstar, hone, render]

theorem replaceFrom_cons {search replacement rest : List Char} {c : Char}
    (h : search.head? ≠ some c) (hne : search ≠ []) :
    replaceFrom search replacement 0 (c :: rest) =
      c :: replaceFrom search replacement 0 rest := by
  obtain ⟨s, search, rfl⟩ := List.exists_cons_of_ne_nil hne
  have hs : s ≠ c := by simpa using h
  rw [replaceFrom, if_neg (by simp [List.isPrefixOf, hs])]

/-- The two stars that `**` takes are the first two of each run, as in `compileStars`. -/
theorem compileStars_source (pattern : List Char) :
    (replaceFrom ['*', '*'] doubleStar 0 (escapeRegex pattern)).flatMap (fun c =>
        if c = '*' ∨ c = '\u0001' then segmentSource
        else if c = '\u0000' then ['.', '*'] else [c]) =
      (compileStars pattern).flatMap render := by
  induction pattern using compileStars.induct with
  | case1 rest ih =>
      rw [compileStars, List.flatMap_cons, ← ih]
      rfl
  | case2 rest hnext ih =>
      have hhead : ∀ c rest', escapeRegex rest = c :: rest' → c ≠ '*' := by
        intro c rest' heq
        cases rest with
        | nil => cases heq
        | cons d rest =>
            have hd : d ≠ '*' := fun h => hnext rest (by rw [h])
            rw [escapeRegex, List.flatMap_cons] at heq
            split at heq
            · obtain ⟨rfl, -⟩ := List.cons.inj heq
              decide
            · obtain ⟨rfl, -⟩ := List.cons.inj heq
              exact hd
      have hescape : escapeRegex ('*' :: rest) = '*' :: escapeRegex rest := rfl
      have hreplace : replaceFrom ['*', '*'] doubleStar 0 ('*' :: escapeRegex rest) =
          '*' :: replaceFrom ['*', '*'] doubleStar 0 (escapeRegex rest) := by
        rw [replaceFrom, if_neg]
        cases heq : escapeRegex rest with
        | nil => simp [List.isPrefixOf]
        | cons c rest' =>
            have hc := hhead c rest' heq
            simpa [List.isPrefixOf] using hc.symm
      rw [compileStars, hescape, hreplace, List.flatMap_cons, ih]
      · rfl
      · exact hnext
  | case3 c rest hdouble hstar ih =>
      have hone : ∀ d, d ≠ '*' → ∀ text, replaceFrom ['*', '*'] doubleStar 0 (d :: text) =
          d :: replaceFrom ['*', '*'] doubleStar 0 text := by
        intro d hd text
        exact replaceFrom_cons (by simpa using hd.symm) (by simp)
      have hc : c ≠ '*' := hstar
      rw [compileStars, List.flatMap_cons, ← ih, escapeRegex, List.flatMap_cons]
      · by_cases hescaped : isEscaped c = true
        · have hzero : c ≠ '\u0000' := by
            rintro rfl
            cases hescaped
          have hone' : c ≠ '\u0001' := by
            rintro rfl
            cases hescaped
          rw [if_pos hescaped, if_neg hzero, if_neg hone']
          show (replaceFrom _ _ 0 ('\\' :: c :: escapeRegex rest)).flatMap _ = _
          rw [hone '\\' (by decide), hone c hc]
          simp [hc, hzero, hone', render, hescaped]
        · rw [if_neg hescaped]
          show (replaceFrom _ _ 0 (c :: escapeRegex rest)).flatMap _ = _
          rw [hone c hc, List.flatMap_cons]
          congr 1
          by_cases hzero : c = '\u0000'
          · subst hzero
            rfl
          · by_cases hone' : c = '\u0001'
            · subst hone'
              rfl
            · simp [hc, hzero, hone', render, hescaped]
      · exact hdouble
      · exact hstar
  | case4 => rfl

theorem matcherSource_eq (pattern : List Char) :
    matcherSource pattern = (compilePattern pattern).flatMap render := by
  unfold matcherSource compilePattern
  split
  · dsimp only
    rw [compileBase_source, List.flatMap_append]
    rfl
  · dsimp only
    rw [← compileStars_source, doubleStar, singleStar, replaceAll_singleton,
      replaceAll_singleton, replaceAll_singleton, List.flatMap_assoc, List.flatMap_assoc,
      replaceAll]
    refine List.flatMap_congr fun c _ => ?_
    by_cases hstar : c = '*'
    · subst hstar
      rfl
    · by_cases hzero : c = '\u0000'
      · subst hzero
        rfl
      · by_cases hone : c = '\u0001'
        · subst hone
          rfl
        · simp [hstar, hzero, hone]

theorem compileStars_plain {pattern : List Char} (h : '?' ∉ pattern) :
    ∀ m ∈ compileStars pattern, IsPlain m := by
  induction pattern using compileStars.induct with
  | case1 rest ih =>
      rw [compileStars]
      refine List.forall_mem_cons.mpr ⟨fun d hd => ?_, ih fun hin => h (by simp [hin])⟩
      cases hd
  | case2 rest hnext ih =>
      rw [compileStars]
      · refine List.forall_mem_cons.mpr ⟨fun d hd => ?_, ih fun hin => h (by simp [hin])⟩
        cases hd
      · exact hnext
  | case3 c rest hdouble hstar ih =>
      rw [compileStars]
      · refine List.forall_mem_cons.mpr ⟨fun d hd => ?_, ih fun hin => h (by simp [hin])⟩
        split at hd
        · cases hd
        · split at hd
          · cases hd
          · obtain rfl := PathMatcher.literal.inj hd
            exact ⟨hstar, fun heq => h (by simp [heq])⟩
      · exact hdouble
      · exact hstar
  | case4 =>
      intro m hm
      cases hm

theorem compilePattern_plain {pattern : List Char} (h : '?' ∉ pattern) :
    ∀ m ∈ compilePattern pattern, IsPlain m := by
  unfold compilePattern
  split
  · intro m hm
    rcases List.mem_snoc.mp hm with hm | rfl
    · obtain ⟨c, hc, rfl⟩ := List.mem_map.mp hm
      intro d hd
      split at hd
      · cases hd
      · rename_i hstar
        obtain rfl := PathMatcher.literal.inj hd
        refine ⟨fun heq => hstar (.inl heq), fun heq => h ?_⟩
        rw [← heq]
        exact List.mem_of_mem_take hc
    · intro d hd
      cases hd
  · exact compileStars_plain h

/-- The regular expression tests what the compiled pattern matches. -/
theorem regexTest_matcherSource {pattern : List Char} (h : Accepted pattern)
    (pathname : List Char) :
    regexTest (matcherSource pattern) pathname = pathPatternMatches pattern pathname := by
  unfold regexTest
  rw [matcherSource_eq, parseFrom_flatMap_render (compilePattern_plain h.query)]
  rfl

end BurrowGate.Routes
