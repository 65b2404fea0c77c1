import BurrowGate.Ruleset.ManagedRuleSet

/-!
# What is appended to a query

A rule that looks for a text in the query still finds it when parameters are appended, as long as
their escapes are well formed wherever a decoding changes the rest: one broken escape ends the
decoding of the whole field, and what is found without it is found again.
-/

namespace BurrowGate.Ruleset.Managed

open Js
open Lib

/-! ## The suffix along the transforms -/

/-- The passes of `url-decode` over a field and the text behind it, which go on as long as the
escapes of both are well formed. -/
def decodeBoth : Nat → List Char → List Char → List Char × List Char
  | 0, field, suffix => (field, suffix)
  | passes + 1, field, suffix =>
      match decodeURIComponent field, decodeURIComponent suffix with
      | some field', some suffix' => decodeBoth passes field' suffix'
      | _, _ => (field, suffix)

def transformBoth (cases : CaseTable) (both : List Char × List Char) :
    RuleTransform → List Char × List Char
  | .urlDecode => decodeBoth 2 both.1 both.2
  | .lowercase => (cases.toLowerCase both.1, cases.toLowerCase both.2)
  | .uppercase => (cases.toUpperCase both.1, cases.toUpperCase both.2)
  | .trim => (trim both.1, trim both.2)
  | .collapseWhitespace => (collapseWhitespace both.1, collapseWhitespace both.2)

/-- What becomes of the field in front of the suffix. -/
def fieldBefore (cases : CaseTable) (transforms : List RuleTransform)
    (field suffix : List Char) : List Char :=
  (transforms.foldl (transformBoth cases) (field, suffix)).1

/-- In every pass that changes the field the escapes of the suffix are well formed. -/
def passesDecode : Nat → List Char → List Char → Bool
  | 0, _, _ => true
  | passes + 1, field, suffix =>
      (decodeURIComponent field).all fun field' =>
        match decodeURIComponent suffix with
        | none => field' = field
        | some suffix' => passesDecode passes field' suffix'

/-- So they are in the passes of each `url-decode` among the transforms. -/
def SuffixDecodes (cases : CaseTable) :
    List RuleTransform → List Char × List Char → Bool
  | [], _ => true
  | transform :: transforms, both =>
      (transform ≠ .urlDecode || passesDecode 2 both.1 both.2) &&
        SuffixDecodes cases transforms (transformBoth cases both transform)

/-! ## One transform -/

/-- The field with a suffix is the field, white space, and what has become of the suffix. -/
structure Extends (whole field suffix : List Char) : Prop where
  start : ∃ rest, suffix = '&' :: rest
  parts : ∃ blank, (∀ c ∈ blank, isWhiteSpace c = true) ∧ whole = field ++ (blank ++ suffix)

theorem plain_of_isWhiteSpace {c : Char} (h : isWhiteSpace c = true) :
    c ≠ '%' ∧ digitValue c = none := by
  constructor
  · rintro rfl
    exact absurd h (by decide)
  · rw [digitValue, if_neg (not_between_of_isWhiteSpace h (by decide) (by decide)),
      if_neg (not_between_of_isWhiteSpace h (by decide) (by decide)),
      if_neg (not_between_of_isWhiteSpace h (by decide) (by decide))]

theorem decodeURIComponent_blank {blank : List Char} (h : ∀ c ∈ blank, isWhiteSpace c = true)
    (more : List Char) :
    decodeURIComponent (blank ++ more) = (decodeURIComponent more).map (blank ++ ·) := by
  induction blank with
  | nil => simp
  | cons c blank ih =>
      rw [List.forall_mem_cons] at h
      rw [List.cons_append, decodeURIComponent_cons (plain_of_isWhiteSpace h.1).1, ih h.2,
        Option.map_map]
      rfl

theorem urlDecodePasses_fixed {passes : Nat} {value : List Char}
    (h : decodeURIComponent value = some value) : urlDecodePasses passes value = value := by
  cases passes with
  | zero => rfl
  | succ passes =>
      rw [urlDecodePasses, h]
      exact if_pos rfl

theorem urlDecodePasses_succ (passes : Nat) (value : List Char) :
    urlDecodePasses (passes + 1) value =
      match decodeURIComponent value with
      | none => value
      | some next => urlDecodePasses passes next := by
  rw [urlDecodePasses]
  cases h : decodeURIComponent value with
  | none => rfl
  | some next =>
      dsimp only
      by_cases heq : next = value
      · subst heq
        rw [if_pos rfl, urlDecodePasses_fixed h]
      · rw [if_neg heq]

variable {whole field suffix : List Char}

/-- By induction on the passes: where one of the two has a broken escape the whole has one, and
no decoding goes on. -/
theorem Extends.decode (h : Extends whole field suffix) (passes : Nat) :
    Extends (urlDecodePasses passes whole) (decodeBoth passes field suffix).1
      (decodeBoth passes field suffix).2 := by
  induction passes generalizing whole field suffix with
  | zero => exact h
  | succ passes ih =>
      obtain ⟨rest, rfl⟩ := h.start
      obtain ⟨blank, hblank, rfl⟩ := h.parts
      rw [decodeBoth, urlDecodePasses_succ]
      cases hfield : decodeURIComponent field with
      | none =>
          have hwhole : decodeURIComponent (field ++ (blank ++ '&' :: rest)) = none := by
            cases blank with
            | nil => exact decodeURIComponent_append_none hfield (by decide) (by decide) rest
            | cons c blank =>
                rw [List.forall_mem_cons] at hblank
                obtain ⟨hpercent, hdigit⟩ := plain_of_isWhiteSpace hblank.1
                exact decodeURIComponent_append_none hfield hpercent hdigit _
          rw [hwhole]
          exact h
      | some field' =>
          rw [decodeURIComponent_append hfield, decodeURIComponent_blank hblank]
          cases hsuffix : decodeURIComponent ('&' :: rest) with
          | none => exact h
          | some suffix' =>
              rw [decodeURIComponent_cons (by decide)] at hsuffix
              obtain ⟨rest', -, rfl⟩ := Option.map_eq_some_iff.mp hsuffix
              exact ih ⟨⟨rest', rfl⟩, ⟨blank, hblank, rfl⟩⟩

theorem Extends.lowercase (h : Extends whole field suffix) (cases : CaseTable) :
    Extends (cases.toLowerCase whole) (cases.toLowerCase field) (cases.toLowerCase suffix) := by
  obtain ⟨rest, rfl⟩ := h.start
  obtain ⟨blank, hblank, rfl⟩ := h.parts
  exact ⟨CaseTable.toLowerCase_ampersand rest,
    ⟨blank, hblank, CaseTable.toLowerCase_append field hblank rest⟩⟩

/-- Where white space is trimmed at the end, an ampersand stops it. -/
theorem trimEnd_ampersand (rest : List Char) :
    ∃ rest', ∀ cs, trimEnd (cs ++ '&' :: rest) = cs ++ '&' :: rest' := by
  have hreverse : ∀ cs : List Char, (cs ++ '&' :: rest).reverse =
      rest.reverse ++ '&' :: cs.reverse := by
    intro cs
    simp
  refine ⟨(rest.reverse.dropWhile isWhiteSpace).reverse, ?_⟩
  intro cs
  have hstop : ('&' :: cs.reverse).dropWhile isWhiteSpace = '&' :: cs.reverse := rfl
  rw [trimEnd, hreverse, List.dropWhile_append]
  split
  · rename_i hempty
    rw [List.isEmpty_iff.mp hempty, hstop]
    simp
  · simp

theorem Extends.trim (h : Extends whole field suffix) :
    Extends (Js.trim whole) (Js.trim field) (Js.trim suffix) := by
  obtain ⟨rest, rfl⟩ := h.start
  obtain ⟨blank, hblank, rfl⟩ := h.parts
  obtain ⟨rest', hrest⟩ := trimEnd_ampersand rest
  have hsuffix : Js.trim ('&' :: rest) = '&' :: rest' := hrest []
  have hskip : trimStart (blank ++ '&' :: rest) = '&' :: rest := by
    rw [trimStart, List.dropWhile_append_of_pos hblank]
    rfl
  refine ⟨⟨rest', hsuffix⟩, ?_⟩
  rw [hsuffix]
  by_cases hempty : trimStart field = []
  · have hwhole : trimStart (field ++ (blank ++ '&' :: rest)) = '&' :: rest := by
      rw [trimStart, List.dropWhile_append]
      rw [trimStart] at hempty
      rw [hempty, List.isEmpty_nil, if_pos rfl]
      exact hskip
    have hfield : Js.trim field = [] := by
      rw [Js.trim, hempty]
      rfl
    refine ⟨[], by simp, ?_⟩
    rw [hfield, Js.trim, hwhole]
    exact hrest []
  · have hwhole : trimStart (field ++ (blank ++ '&' :: rest)) =
        trimStart field ++ blank ++ '&' :: rest := by
      rw [trimStart, List.dropWhile_append, if_neg, List.append_assoc]
      · rfl
      · rw [List.isEmpty_iff]
        exact hempty
    obtain ⟨tail, htail, hblankTail⟩ := trimEnd_append (trimStart field)
    refine ⟨tail ++ blank, ?_, ?_⟩
    · intro c hc
      rcases List.mem_append.mp hc with hc | hc
      · exact hblankTail c hc
      · exact hblank c hc
    · rw [Js.trim, hwhole, hrest, Js.trim, List.append_assoc tail, ← List.append_assoc (trimEnd _),
        ← htail, List.append_assoc]

/-! ## All transforms -/

theorem decodeBoth_fst {passes : Nat} (h : passesDecode passes field suffix = true) :
    (decodeBoth passes field suffix).1 = urlDecodePasses passes field := by
  induction passes generalizing field suffix with
  | zero => rfl
  | succ passes ih =>
      rw [passesDecode] at h
      rw [decodeBoth, urlDecodePasses_succ]
      cases hfield : decodeURIComponent field with
      | none => rfl
      | some field' =>
          rw [hfield, Option.all_some] at h
          cases hsuffix : decodeURIComponent suffix with
          | none =>
              rw [hsuffix] at h
              obtain rfl := of_decide_eq_true h
              exact (urlDecodePasses_fixed hfield).symm
          | some suffix' =>
              rw [hsuffix] at h
              exact ih h

/-- The transforms that only decode, fold and trim. -/
def KeepsSuffix (transform : RuleTransform) : Prop :=
  transform = .urlDecode ∨ transform = .lowercase ∨ transform = .trim

variable {engine : Engine}

theorem Extends.transform (h : Extends whole field suffix) {transform : RuleTransform}
    (hkeeps : KeepsSuffix transform) :
    Extends (applyTransform engine whole transform)
      (transformBoth engine.cases (field, suffix) transform).1
      (transformBoth engine.cases (field, suffix) transform).2 := by
  rcases hkeeps with rfl | rfl | rfl
  · exact h.decode 2
  · exact h.lowercase engine.cases
  · exact h.trim

theorem Extends.transforms (h : Extends whole field suffix) {transforms : List RuleTransform}
    (hkeeps : ∀ transform ∈ transforms, KeepsSuffix transform) :
    ∃ suffix', Extends (transforms.foldl (applyTransform engine) whole)
      (fieldBefore engine.cases transforms field suffix) suffix' := by
  induction transforms generalizing whole field suffix with
  | nil => exact ⟨suffix, h⟩
  | cons transform transforms ih =>
      rw [List.forall_mem_cons] at hkeeps
      exact ih (h.transform hkeeps.1) hkeeps.2

/-- Then the field becomes what it becomes without the suffix. -/
theorem fieldBefore_eq {transforms : List RuleTransform}
    (hkeeps : ∀ transform ∈ transforms, KeepsSuffix transform)
    (h : SuffixDecodes engine.cases transforms (field, suffix) = true) :
    fieldBefore engine.cases transforms field suffix =
      transforms.foldl (applyTransform engine) field := by
  induction transforms generalizing field suffix with
  | nil => rfl
  | cons transform transforms ih =>
      rw [List.forall_mem_cons] at hkeeps
      rw [SuffixDecodes, Bool.and_eq_true, Bool.or_eq_true] at h
      obtain ⟨hdecode, hrest⟩ := h
      have hfirst : (transformBoth engine.cases (field, suffix) transform).1 =
          applyTransform engine field transform := by
        rcases hkeeps.1 with rfl | rfl | rfl
        · exact decodeBoth_fst (hdecode.resolve_left (by decide))
        · rfl
        · rfl
      rw [List.foldl_cons, ← hfirst]
      exact ih hkeeps.2 hrest

/-! ## The rule -/

/-- A field that is within the limit is not cut. -/
theorem bounded_eq {maximum : Nat} {value : List Char} (h : utf16Length value ≤ maximum) :
    bounded value maximum = value := by
  induction value generalizing maximum with
  | nil => rfl
  | cons c value ih =>
      have hcons : utf16Length (c :: value) = utf16Length [c] + utf16Length value := by
        simp [utf16Length]
      rw [hcons] at h
      rw [bounded, if_pos (by omega), ih (by omega)]

theorem utf16Length_append (cs ds : List Char) :
    utf16Length (cs ++ ds) = utf16Length cs + utf16Length ds := by
  simp [utf16Length]

/-- `&name=value` -/
def parameter (name value : List Char) : List Char := '&' :: (name ++ '=' :: value)

def ManagedRuleSetContext.append (context : ManagedRuleSetContext) (suffix : List Char) :
    ManagedRuleSetContext :=
  { context with search := context.search ++ suffix }

/-- The leaf looks for a text in the query, with the transforms that only decode, fold and trim. -/
structure SearchesQuery (leaf : CompiledLeaf) : Prop where
  operator : leaf.operator = .contains
  negate : leaf.negate = false
  source : leaf.source = .query ∨ leaf.source = .requestTarget
  transforms : ∀ transform ∈ leaf.transforms, KeepsSuffix transform

/-- The text that the leaf reads. -/
def fieldText (leaf : CompiledLeaf) (context : ManagedRuleSetContext) : List Char :=
  (rawField context leaf.source leaf.header).getD []

variable {leaf : CompiledLeaf} {context : ManagedRuleSetContext}

theorem SearchesQuery.fieldText_append (h : SearchesQuery leaf) (suffix : List Char) :
    fieldText leaf (context.append suffix) = fieldText leaf context ++ suffix := by
  rw [fieldText, fieldText]
  rcases h.source with hsource | hsource
  · rw [hsource]
    rfl
  · rw [hsource]
    exact (List.append_assoc ..).symm

theorem SearchesQuery.resolveValue (h : SearchesQuery leaf)
    (hlength : utf16Length (fieldText leaf context) ≤ maxFieldLength) :
    Managed.resolveValue engine leaf context =
      leaf.transforms.foldl (applyTransform engine) (fieldText leaf context) := by
  have hsource : leaf.source ≠ .header := by
    rcases h.source with hsource | hsource
    · rw [hsource]; decide
    · rw [hsource]; decide
  rw [Managed.resolveValue, if_neg hsource, ← fieldText, bounded_eq hlength]

theorem SearchesQuery.evaluate_eq (h : SearchesQuery leaf) :
    evaluateCondition engine (.leaf leaf) context =
      operatorResult engine leaf (Managed.resolveValue engine leaf context) := by
  have hexists : leaf.operator ≠ .exists := by
    rw [h.operator]; decide
  have hnegate : ¬ leaf.negate = true := by
    rw [h.negate]; decide
  rw [evaluateCondition, BoolTree.eval, evaluateLeaf, if_neg hexists]
  dsimp only
  rw [if_neg hnegate]

theorem SearchesQuery.operatorResult_mono (h : SearchesQuery leaf)
    (hextends : Extends whole field suffix) (hfound : operatorResult engine leaf field = true) :
    operatorResult engine leaf whole = true := by
  have hsub : ∀ {long short suffix : List Char}, Extends long short suffix →
      short <:+: long := by
    intro long short suffix hextends
    obtain ⟨blank, -, hparts⟩ := hextends.parts
    rw [hparts]
    exact (List.prefix_append _ _).isInfix
  rw [operatorResult, h.operator] at hfound ⊢
  dsimp only at hfound ⊢
  rw [decide_eq_true_iff] at hfound ⊢
  cases hfold : leaf.caseInsensitive with
  | false =>
      rw [hfold] at hfound
      exact hfound.trans (hsub hextends)
  | true =>
      rw [hfold] at hfound
      exact hfound.trans (hsub (hextends.lowercase engine.cases))

/-- Whatever is found in the field as far as it decodes in front of the parameter is found again,
and that is all of it when the parameter decodes wherever a pass changes the field. -/
theorem appended_query_keeps_match {rule : CompiledRule} (hrule : rule.condition = .leaf leaf)
    (hsearches : SearchesQuery leaf) (name value : List Char)
    (hlength : utf16Length (fieldText leaf (context.append (parameter name value))) ≤
      maxFieldLength) :
    (SuffixDecodes engine.cases leaf.transforms (fieldText leaf context, parameter name value) →
      evaluateCondition engine rule.condition context = true →
        evaluateCondition engine rule.condition (context.append (parameter name value)) = true) ∧
    (operatorResult engine leaf (fieldBefore engine.cases leaf.transforms
        (fieldText leaf context) (parameter name value)) = true →
      evaluateCondition engine rule.condition (context.append (parameter name value)) = true) := by
  rw [hrule]
  have hwhole := @SearchesQuery.fieldText_append leaf context hsearches (parameter name value)
  have hfield : utf16Length (fieldText leaf context) ≤ maxFieldLength := by
    rw [hwhole, utf16Length_append] at hlength
    omega
  have hstart : Extends (fieldText leaf (context.append (parameter name value)))
      (fieldText leaf context) (parameter name value) :=
    ⟨⟨_, rfl⟩, ⟨[], by simp, hwhole⟩⟩
  obtain ⟨suffix, hextends⟩ := @Extends.transforms _ _ _ engine hstart _ hsearches.transforms
  have hfound : operatorResult engine leaf (fieldBefore engine.cases leaf.transforms
      (fieldText leaf context) (parameter name value)) = true →
        evaluateCondition engine (.leaf leaf) (context.append (parameter name value)) = true := by
    intro hshown
    rw [hsearches.evaluate_eq, hsearches.resolveValue hlength]
    exact hsearches.operatorResult_mono hextends hshown
  refine ⟨fun hdecodes hmatch => hfound ?_, hfound⟩
  rw [hsearches.evaluate_eq, hsearches.resolveValue hfield] at hmatch
  rw [fieldBefore_eq hsearches.transforms hdecodes]
  exact hmatch

/-! ## A script in a query -/

/-- The engine for texts in ASCII; no regular expression is tested. -/
def asciiEngine : Engine := ⟨asciiCases, fun _ _ => false⟩

/-- `contains text`, on the decoded query in lower case -/
def textLeaf (text : List Char) : CompiledLeaf where
  source := .query
  header := none
  transforms := [.urlDecode, .lowercase]
  operator := .contains
  regex := none
  value := some text
  caseInsensitive := false
  negate := false

def textRule (text : List Char) : CompiledRule :=
  ⟨⟨"XSS-1".toList, "Script".toList, "xss".toList, .high, .query⟩, .leaf (textLeaf text)⟩

/-- `GET /` with the query -/
def textRequest (search : List Char) : ManagedRuleSetContext :=
  ⟨"GET".toList, "/".toList, search, fun _ => none⟩

theorem textLeaf_searchesQuery (text : List Char) : SearchesQuery (textLeaf text) where
  operator := rfl
  negate := rfl
  source := .inl rfl
  transforms := by
    intro transform hmem
    rcases List.mem_cons.mp hmem with rfl | hmem
    · exact .inl rfl
    · exact .inr (.inl (List.mem_singleton.mp hmem))

/-- An escape behind an escaped script, and a broken one behind a text without escapes and behind
one with an escape. -/
theorem appended_query_keeps_match_script :
    evaluateCondition asciiEngine (textRule "<script".toList).condition
        ((textRequest "?q=%3CScript%3E".toList).append
          (parameter "x".toList "%2541".toList)) = true ∧
      evaluateCondition asciiEngine (textRule "javascript:".toList).condition
        ((textRequest "?q=javascript:a".toList).append (parameter "x".toList "%".toList)) = true ∧
      evaluateCondition asciiEngine (textRule "javascript:".toList).condition
        ((textRequest "?q=javascript:%20".toList).append (parameter "x".toList "%".toList)) =
          true := by
  refine ⟨?_, ?_, ?_⟩
  · exact (appended_query_keeps_match rfl (textLeaf_searchesQuery _) "x".toList "%2541".toList
      (by decide +kernel)).1 (by decide +kernel) (by decide +kernel)
  · exact (appended_query_keeps_match rfl (textLeaf_searchesQuery _) "x".toList "%".toList
      (by decide +kernel)).1 (by decide +kernel) (by decide +kernel)
  · exact (appended_query_keeps_match rfl (textLeaf_searchesQuery _) "x".toList "%".toList
      (by decide +kernel)).2 (by decide +kernel)

/-- The characters that a URL keeps in its query. -/
def isQueryChar (c : Char) : Bool := '!' ≤ c && c ≤ '~' && !(['"', '#', '<', '>'].contains c)

/-- A percent sign at the end of the query leaves the script encoded. -/
theorem broken_escape_hides_script : ¬ ∀ (engine : Engine) (rule : CompiledRule)
    (leaf : CompiledLeaf) (context : ManagedRuleSetContext) (name value : List Char),
      rule.condition = .leaf leaf → SearchesQuery leaf →
        (∀ c ∈ name ++ value, isQueryChar c = true) →
          utf16Length (fieldText leaf (context.append (parameter name value))) ≤ maxFieldLength →
            evaluateCondition engine rule.condition context = true →
              evaluateCondition engine rule.condition
                (context.append (parameter name value)) = true := by
  intro hclaim
  have hmatch := hclaim asciiEngine (textRule "<script".toList) _
    (textRequest "?q=%3CScript%3E".toList) "x".toList "%".toList rfl
    (textLeaf_searchesQuery _) (List.all_eq_true.mp (by decide +kernel)) (by decide +kernel)
    (by decide +kernel)
  have hmiss : evaluateCondition asciiEngine (textRule "<script".toList).condition
      ((textRequest "?q=%3CScript%3E".toList).append (parameter "x".toList "%".toList)) =
        false := by
    decide +kernel
  rw [hmiss] at hmatch
  cases hmatch

end BurrowGate.Ruleset.Managed
