import BurrowGate.Ruleset.StreamRuleSet
import Mathlib.Data.List.Nodup

/-!
# Rules over fields that have not been decoded

Every leaf but an `exists` is false without its field. A rule over absent fields alone thus
has the value of its condition with false for each leaf, which a negation above a leaf turns
into a match.
-/

namespace BurrowGate.Ruleset

open Js
open Lib

variable {js : Builtins} {fields : StreamRuleSetContext} {node : CompiledCondition}
  {protocol rulesetId : List Char}

/-- Comparisons and their negations are false where the field is unknown. -/
theorem evaluateLeaf_absent {leaf : CompiledLeaf} (hoperator : leaf.operator ≠ .exists)
    (habsent : fields leaf.field = none) : evaluateLeaf js leaf fields = false := by
  rw [evaluateLeaf, if_neg hoperator, habsent]
  rfl

theorem evaluateCondition_absent (hexists : ∀ leaf ∈ node.leaves, leaf.operator ≠ .exists)
    (habsent : ∀ leaf ∈ node.leaves, fields leaf.field = none) :
    evaluateCondition js node fields = node.eval fun _ => false := by
  apply BoolTree.eval_congr
  intro leaf hleaf
  exact evaluateLeaf_absent (hexists leaf hleaf) (habsent leaf hleaf)

/-! ## Rule ids -/

theorem ok_of_bind {α β : Type} {x : Compile α} {f : α → Compile β} {b : β}
    (h : x >>= f = .ok b) : ∃ a, x = .ok a ∧ f a = .ok b := by
  cases x with
  | error e => cases h
  | ok a => exact ⟨a, rfl, h⟩

theorem compileRule_ok {value : JsValue} {index : Nat} {seen seen' : List (List Char)}
    {rule : CompiledRule}
    (h : compileRule js value protocol rulesetId index seen = .ok (rule, seen')) :
    rule.match.ruleId ∉ seen ∧ seen' = rule.match.ruleId :: seen := by
  rw [compileRule] at h
  split at h
  · cases h
  obtain ⟨id, -, h⟩ := ok_of_bind h
  split at h
  · cases h
  split at h
  · cases h
  rename_i hseen
  split at h
  · cases h
  split at h
  · cases h
  obtain ⟨-, -, h⟩ := ok_of_bind h
  obtain ⟨title, -, h⟩ := ok_of_bind h
  obtain ⟨category, -, h⟩ := ok_of_bind h
  obtain ⟨⟨condition, nodes⟩, -, h⟩ := ok_of_bind h
  cases h
  exact ⟨fun hmem => hseen (List.contains_iff_mem.mpr hmem), rfl⟩

theorem compileRules_nodup {index : Nat} {rules : List JsValue} {seen : List (List Char)}
    {compiled : List CompiledRule}
    (h : compileRules js protocol rulesetId index rules seen = .ok compiled) :
    (compiled.map (·.match.ruleId)).Nodup ∧ ∀ rule ∈ compiled, rule.match.ruleId ∉ seen := by
  induction rules generalizing index seen compiled with
  | nil =>
      cases h
      exact ⟨List.nodup_nil, fun rule hrule => (by cases hrule)⟩
  | cons rule rules ih =>
      rw [compileRules] at h
      obtain ⟨⟨first, seen'⟩, hfirst, hcontinue⟩ := ok_of_bind h
      obtain ⟨rest, hrest, hcompiled⟩ := ok_of_bind hcontinue
      obtain ⟨hnew, hseen⟩ := compileRule_ok hfirst
      obtain ⟨hnodup, hfresh⟩ := ih hrest
      rw [hseen] at hfresh
      have hother : ∀ rule ∈ rest, rule.match.ruleId ≠ first.match.ruleId ∧
          rule.match.ruleId ∉ seen := by
        intro rule hrule
        exact not_or.mp (List.mem_cons.not.mp (hfresh rule hrule))
      obtain rfl := Except.ok.inj hcompiled
      split
      · refine ⟨?_, ?_⟩
        · rw [List.map_cons, List.nodup_cons]
          refine ⟨?_, hnodup⟩
          intro hmem
          obtain ⟨rule, hrule, heq⟩ := List.mem_map.mp hmem
          exact (hother rule hrule).1 heq
        · intro rule hrule
          rcases List.mem_cons.mp hrule with rfl | hrule
          · exact hnew
          · exact (hother rule hrule).2
      · exact ⟨hnodup, fun rule hrule => (hother rule hrule).2⟩

/-- The rules of an accepted document have different ids. -/
theorem compileStreamRuleSet_nodup {document : JsValue} {ruleSet : StreamRuleSet}
    (h : compileStreamRuleSet js document = .ok ruleSet) :
    (ruleSet.compiledRules.map (·.match.ruleId)).Nodup := by
  rw [compileStreamRuleSet] at h
  split at h
  · cases h
  obtain ⟨schemaVersion, -, h⟩ := ok_of_bind h
  split at h
  · cases h
  obtain ⟨id, -, h⟩ := ok_of_bind h
  split at h
  · cases h
  obtain ⟨title, -, h⟩ := ok_of_bind h
  obtain ⟨version, -, h⟩ := ok_of_bind h
  obtain ⟨description, -, h⟩ := ok_of_bind h
  obtain ⟨protocol, -, h⟩ := ok_of_bind h
  split at h
  · cases h
  obtain ⟨decode, -, h⟩ := ok_of_bind h
  split at h
  · split at h
    · cases h
    split at h
    · cases h
    obtain ⟨compiledRules, hrules, h⟩ := ok_of_bind h
    cases h
    exact (compileRules_nodup hrules).1
  · cases h

/-! ## Reports -/

/-- A rule is reported where its condition holds, and nowhere else. -/
theorem reported_iff {document : JsValue} {ruleSet : StreamRuleSet} {rule : CompiledRule}
    (h : compileStreamRuleSet js document = .ok ruleSet) (hrule : rule ∈ ruleSet.compiledRules) :
    (∃ found ∈ ruleSet.inspect js fields, found.ruleId = rule.match.ruleId) ↔
      evaluateCondition js rule.condition fields = true := by
  constructor
  · rintro ⟨found, hfound, hid⟩
    obtain ⟨other, hother, rfl⟩ := List.mem_map.mp hfound
    obtain ⟨hmem, hholds⟩ := List.mem_filter.mp hother
    obtain rfl : other = rule :=
      List.inj_on_of_nodup_map (compileStreamRuleSet_nodup h) hmem hrule hid
    exact hholds
  · intro hholds
    exact ⟨rule.match, List.mem_map.mpr ⟨rule, List.mem_filter.mpr ⟨hrule, hholds⟩, rfl⟩, rfl⟩

/-- Built-ins that a comparison of two ASCII texts does not use. -/
def plainBuiltins : Builtins where
  regExpError _ := none
  test _ _ := false
  toLowerCase text := text
  toUpperCase text := text
  number _ := none
  numberText _ := []

/-- A document with one rule. -/
def userNameDocument (condition : JsValue) : JsValue :=
  let text (s : String) : JsValue := .string s.toList
  .object [("schemaVersion".toList, text "1"), ("id".toList, text "local"),
    ("title".toList, text "Local rules"), ("version".toList, text "1"),
    ("protocol".toList, text "minecraft-java"),
    ("rules".toList, .array [.object [("id".toList, text "R1"), ("title".toList, text "Users"),
      ("category".toList, text "login"), ("severity".toList, text "high"),
      ("location".toList, text "login"), ("match".toList, condition)]])]

/-- `username` equals `admin`. -/
def isAdmin (negate : Bool) : JsValue :=
  .object [("field".toList, .string "username".toList),
    ("operator".toList, .string "equals".toList), ("value".toList, .string "admin".toList),
    ("negate".toList, .boolean negate)]

def isAdminLeaf (negate : Bool) : CompiledLeaf :=
  ⟨"username".toList, [], .equals, none, some "admin".toList, false, negate⟩

def userNameRule (condition : CompiledCondition) : CompiledRule :=
  ⟨⟨"R1".toList, "local".toList, "Users".toList, "login".toList, .high, .login⟩, condition⟩

def userNameRuleSet (condition : CompiledCondition) : StreamRuleSet :=
  ⟨"local".toList, "Local rules".toList, "1".toList, [], "minecraft-java".toList, ⟨3000, 2048⟩,
    [userNameRule condition]⟩

end BurrowGate.Ruleset
