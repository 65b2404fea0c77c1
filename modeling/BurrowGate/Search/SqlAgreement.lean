import BurrowGate.Lib.BoolTree
import BurrowGate.Search.QueryParser
import BurrowGate.Search.SearchSql

/-!
# Search in memory and in SQL

A row and the columns hold the same values. Every term then has a definite value in SQL, so `NOT`
and the three-valued connectives do not tell the two apart. They differ in wildcards only: the
regular expression takes `ſ` for an `s`, the small letters of the `LIKE` pattern do not. Such a
term counts in memory alone, and the two agree where it makes no difference to the query.
-/

namespace BurrowGate.Search

open Js
open Lib
open Lib.Glob

/-! ## Rows and columns -/

/-- `raw` is what JavaScript has of the column's value. -/
inductive Denotes (numeric : Bool) : JsValue → SqlValue → Prop
  | null : Denotes numeric .null .null
  | number (h : numeric = true) (q : ℚ) (text : List Char) :
      Denotes numeric (.number (some q) text) (.number q)
  | text (h : numeric = false) {value : List Char} (hascii : ∀ c ∈ value, isAscii c = true) :
      Denotes numeric (.string value) (.text value)

/-- `get` and `sql` of every field denote the same column, of the field's type. -/
structure SameColumns {ρ : Type} (schema : SearchSchema ρ) (column : List Char → SqlValue)
    (row : ρ) : Prop where
  dynamic : schema.dynamic.isNone = true
  fields : ∀ field ∈ schema.fields, ∃ name get, field.sql = some name ∧ field.get = some get ∧
    Denotes field.type.isNumeric (get row) (column name)

/-- A wildcard value with `ſ` and else only characters that ASCII can match. -/
def slips (type : SearchFieldType) : ValueMatch → Bool
  | .equals value true =>
      !type.isNumeric && value.contains LONG_S &&
        value.all fun c => isAscii c || c = LONG_S || c = KELVIN
  | _ => false

/-! ## Queries as formulas -/

section Formulas

variable {ρ : Type}

mutual

/-- The query over its terms. -/
def formula : SearchNode ρ → BoolTree (SearchNode ρ)
  | .and children => .all (formulas children)
  | .or children => .any (formulas children)
  | .not child => .not (formula child)
  | .text value => .leaf (.text value)
  | .field field path valueMatch => .leaf (.field field path valueMatch)

def formulas : List (SearchNode ρ) → List (BoolTree (SearchNode ρ))
  | [] => []
  | child :: children => formula child :: formulas children

end

def isFieldTerm : SearchNode ρ → Bool
  | .field _ _ _ => true
  | _ => false

/-- The query has no free text. -/
def FieldsOnly (node : SearchNode ρ) : Prop :=
  ∀ leaf ∈ (formula node).leaves, isFieldTerm leaf = true

/-- The value of a term on the row. `slipping` is whether a term that slips counts when the row's
value matches it. -/
def termValue (runtime : SearchRuntime) (schema : SearchSchema ρ) (row : ρ) (slipping : Bool) :
    SearchNode ρ → Bool
  | .field field path valueMatch =>
      matchesValue runtime field (rawValue schema row field path) valueMatch &&
        (slipping || !slips field.type valueMatch)
  | _ => false

/-- It makes no difference to the query whether the terms that slip and match the row are true or
false. -/
def Indifferent (runtime : SearchRuntime) (schema : SearchSchema ρ) (row : ρ)
    (node : SearchNode ρ) : Prop :=
  (formula node).eval (termValue runtime schema row true) =
    (formula node).eval (termValue runtime schema row false)

instance (runtime : SearchRuntime) (schema : SearchSchema ρ) (row : ρ) (node : SearchNode ρ) :
    Decidable (Indifferent runtime schema row node) :=
  inferInstanceAs (Decidable (_ = _))

variable {children : List (SearchNode ρ)}

theorem fieldsOnly_child {tree : SearchNode ρ}
    (h : ∀ leaf ∈ BoolTree.leavesOf (formulas children), isFieldTerm leaf = true)
    (htree : tree ∈ children) : FieldsOnly tree := by
  induction children with
  | nil => cases htree
  | cons child children ih =>
      rw [formulas, BoolTree.leavesOf, List.forall_mem_append] at h
      rcases List.mem_cons.mp htree with rfl | htree
      · exact h.1
      · exact ih h.2 htree

theorem evalEvery_formulas (v : SearchNode ρ → Bool) :
    BoolTree.evalEvery v (formulas children) =
      (children.map fun child => (formula child).eval v).all id := by
  induction children with
  | nil => rfl
  | cons child children ih => rw [formulas, BoolTree.evalEvery, ih, List.map_cons, List.all_cons, id]

theorem evalSome_formulas (v : SearchNode ρ → Bool) :
    BoolTree.evalSome v (formulas children) =
      (children.map fun child => (formula child).eval v).any id := by
  induction children with
  | nil => rfl
  | cons child children ih => rw [formulas, BoolTree.evalSome, ih, List.map_cons, List.any_cons, id]

end Formulas

/-- The statement selects the row. -/
def selects (column : List Char → SqlValue) (predicate : Option SqlPredicate) : Bool :=
  match predicate with
  | none => true
  | some predicate => predicate.eval column = some true

/-! ## Wildcards -/

/-- An escaped character stands for itself. -/
theorem likeItems_escape (c : Char) (pattern : List Char) :
    likeItems ('!' :: c :: pattern) = .literal c :: likeItems pattern := by
  rw [likeItems.eq_def]
  exact if_pos rfl

theorem likeItems_cons {c : Char} (h : c ≠ '!') (pattern : List Char) :
    likeItems (c :: pattern) =
      (if c = '%' then .any else if c = '_' then .one else .literal c) :: likeItems pattern := by
  rw [likeItems.eq_def]
  dsimp only
  rw [if_neg h]
  by_cases hany : c = '%'
  · rw [if_pos hany, if_pos hany]
  · rw [if_neg hany, if_neg hany]
    by_cases hone : c = '_'
    · rw [if_pos hone, if_pos hone]
    · rw [if_neg hone, if_neg hone]

theorem likeItems_flatMap (value : List Char) :
    likeItems (value.flatMap likeChar) = value.map globItem := by
  induction value with
  | nil => rfl
  | cons c value ih =>
      rw [List.flatMap_cons, List.map_cons, ← ih, likeChar, globItem]
      split
      · exact likeItems_cons (by decide) _
      split
      · exact likeItems_cons (by decide) _
      split
      · exact likeItems_escape c _
      · rename_i hspecial
        simp only [not_or] at hspecial
        obtain ⟨hescape, hany, hone⟩ := hspecial
        rw [List.singleton_append, likeItems_cons hescape, if_neg hany, if_neg hone]

theorem like_likePattern (cases : CaseTable) (text value : List Char) :
    like (text.map asciiLower) (likePattern cases value) =
      Matches (fun p t => p = asciiLower t) ((cases.toLowerCase value).map globItem) text := by
  unfold like likePattern
  rw [likeItems_flatMap, matches_text_map]

theorem globItem_of_not_ascii {c : Char} (h : isAscii c = false) : globItem c = .literal c := by
  have hany : c ≠ GLOB_ANY := by
    rintro rfl
    cases h
  have hone : c ≠ GLOB_ONE := by
    rintro rfl
    cases h
  rw [globItem, if_neg hany, if_neg hone]

/-- Small letters keep the wildcards. -/
theorem globItem_fold (cases : CaseTable) {c : Char} (h : isAscii c = true ∨ c = KELVIN) :
    globItem (cases.fold c) = (globItem c).map cases.fold := by
  rcases h with h | rfl
  · have hchar : (asciiLower c = GLOB_ANY ↔ c = GLOB_ANY) ∧
        (asciiLower c = GLOB_ONE ↔ c = GLOB_ONE) :=
      of_isAscii (P := fun c => (asciiLower c = GLOB_ANY ↔ c = GLOB_ANY) ∧
        (asciiLower c = GLOB_ONE ↔ c = GLOB_ONE)) (by decide) h
    unfold globItem
    rw [cases.fold_ascii c h]
    by_cases hany : c = GLOB_ANY
    · rw [if_pos (hchar.1.mpr hany), if_pos hany]
      rfl
    · rw [if_neg (mt hchar.1.mp hany), if_neg hany]
      by_cases hone : c = GLOB_ONE
      · rw [if_pos (hchar.2.mpr hone), if_pos hone]
        rfl
      · rw [if_neg (mt hchar.2.mp hone), if_neg hone]
        change _ = Item.literal (cases.fold c)
        rw [cases.fold_ascii c h]
  · have hkelvin : globItem KELVIN = .literal KELVIN := globItem_of_not_ascii (by decide)
    rw [hkelvin]
    change globItem (cases.fold KELVIN) = .literal (cases.fold KELVIN)
    rw [cases.fold_kelvin]
    rfl

section Wildcards

variable (cases : CaseTable) {value text : List Char} (htext : ∀ c ∈ text, isAscii c = true)

include htext

/-- Small letters and folding are the same on what ASCII can match, `ſ` apart. -/
theorem globTest_eq_like (hvalue : ∀ c ∈ value, isAscii c = true ∨ c = KELVIN) :
    globTest cases value text = like (text.map asciiLower) (likePattern cases value) := by
  have hitems : (cases.toLowerCase value).map globItem =
      (value.map globItem).map (Item.map cases.fold) := by
    rw [CaseTable.toLowerCase_eq_fold hvalue, List.map_map, List.map_map]
    exact List.map_congr_left fun c hc => globItem_fold cases (hvalue c hc)
  rw [like_likePattern, hitems, globTest, matches_map]
  intro p _ t ht
  rw [cases.fold_ascii t (htext t ht)]

/-- A character that is not of ASCII matches no column. -/
theorem like_eq_false {c : Char} (hc : c ∈ value) (hascii : isAscii c = false)
    (hkelvin : c ≠ KELVIN) :
    like (text.map asciiLower) (likePattern cases value) = false := by
  obtain ⟨d, hd, hother⟩ := @CaseTable.mem_toLowerCase_of_not_ascii cases value c hc hascii hkelvin
  rw [like_likePattern, Bool.eq_false_iff]
  intro hmatch
  have hitem : .literal d ∈ (cases.toLowerCase value).map globItem :=
    List.mem_map.mpr ⟨d, hd, globItem_of_not_ascii hother⟩
  obtain ⟨t, ht, hsame⟩ := exists_of_matches hmatch hitem
  have heq : d = asciiLower t := decide_eq_true_iff.mp hsame
  rw [heq, isAscii_asciiLower (htext t ht)] at hother
  cases hother

theorem globTest_eq_false {c : Char} (hc : c ∈ value) (hascii : isAscii c = false)
    (hlong : c ≠ LONG_S) (hkelvin : c ≠ KELVIN) : globTest cases value text = false := by
  rw [globTest, Bool.eq_false_iff]
  intro hmatch
  have hitem : .literal c ∈ value.map globItem :=
    List.mem_map.mpr ⟨c, hc, globItem_of_not_ascii hascii⟩
  obtain ⟨t, ht, hsame⟩ := exists_of_matches hmatch hitem
  have heq : cases.fold c = cases.fold t := decide_eq_true_iff.mp hsame
  have hfold := cases.fold_other c hascii hlong hkelvin
  rw [heq, cases.fold_ascii t (htext t ht), isAscii_asciiLower (htext t ht)] at hfold
  cases hfold

/-- `LIKE` finds what the regular expression finds, without the values that slip. -/
theorem like_eq_globTest {type : SearchFieldType} (htype : type.isNumeric = false) :
    like (text.map asciiLower) (likePattern cases value) =
      (globTest cases value text && !slips type (.equals value true)) := by
  by_cases hfamiliar : ∀ c ∈ value, isAscii c = true ∨ c = KELVIN
  · have hlong : value.contains LONG_S = false := by
      rw [Bool.eq_false_iff, ne_eq, List.contains_iff_mem]
      intro hmem
      rcases hfamiliar LONG_S hmem with h | h
      · cases h
      · cases h
    rw [← globTest_eq_like cases htext hfamiliar, slips, hlong, Bool.and_false, Bool.false_and,
      Bool.not_false, Bool.and_true]
  · push Not at hfamiliar
    obtain ⟨c, hc, hascii, hkelvin⟩ := hfamiliar
    replace hascii := Bool.eq_false_iff.mpr hascii
    rw [like_eq_false cases htext hc hascii hkelvin]
    by_cases hforeign : ∃ d ∈ value, isAscii d = false ∧ d ≠ LONG_S ∧ d ≠ KELVIN
    · obtain ⟨d, hd, hother, hlong, hkelvin'⟩ := hforeign
      rw [globTest_eq_false cases htext hd hother hlong hkelvin', Bool.false_and]
    · push Not at hforeign
      have hlong : c = LONG_S := by
        by_contra hne
        exact hkelvin (hforeign c hc hascii hne)
      have hcontains : value.contains LONG_S = true := by
        rw [List.contains_iff_mem, ← hlong]
        exact hc
      have hall : (value.all fun c => isAscii c || c = LONG_S || c = KELVIN) = true := by
        rw [List.all_eq_true]
        intro d hd
        cases hd' : isAscii d with
        | true => rfl
        | false =>
            by_cases hlong : d = LONG_S
            · simp [hlong]
            · simp [hforeign d hd hd' hlong]
      rw [slips, htype, hcontains, hall]
      exact (Bool.and_false _).symm

end Wildcards

/-! ## Terms -/

variable (runtime : SearchRuntime)

theorem sqlAnd_some (x y : Bool) : sqlAnd (some x) (some y) = some (x && y) := by
  cases x <;> cases y <;> rfl

theorem sqlOr_some (x y : Bool) : sqlOr (some x) (some y) = some (x || y) := by
  cases x <;> cases y <;> rfl

/-- Without a number the guard decides. -/
theorem sqlAnd_false (x : Option Bool) : sqlAnd (some false) x = some false := (rfl)

theorem eval_numberPredicate {raw : JsValue} {column : List Char → SqlValue} {name : List Char}
    (h : Denotes true raw (column name)) (valueMatch : ValueMatch) :
    (numberPredicate name valueMatch).eval column = some (matchesNumber raw valueMatch) := by
  generalize hvalue : column name = v at h
  cases h with
  | null =>
      cases valueMatch <;>
        simp [numberPredicate, SqlPredicate.eval, hvalue, matchesNumber, finiteNumber, sqlAnd_false]
  | number _ q text =>
      cases valueMatch <;>
        simp [numberPredicate, SqlPredicate.eval, hvalue, matchesNumber, finiteNumber,
          JsValue.toNumber, sqlAnd_some, SqlOperator.holds, Comparison.holds]
  | text htype => cases htype

/-- A column of texts holds what the row's value reads as. -/
theorem Denotes.text? {raw : JsValue} {v : SqlValue} (h : Denotes false raw v) :
    v.text? = some (stringValue runtime raw) ∧
      ∀ c ∈ stringValue runtime raw, isAscii c = true := by
  cases h with
  | null =>
      refine ⟨rfl, ?_⟩
      intro c hc
      cases hc
  | number htype => cases htype
  | text _ hascii => exact ⟨rfl, hascii⟩

theorem eval_textPredicate {type : SearchFieldType} (htype : type.isNumeric = false)
    {raw : JsValue} {column : List Char → SqlValue} {name : List Char}
    (h : Denotes false raw (column name)) {valueMatch : ValueMatch} (hfits : valueMatch.Fits type) :
    ∃ predicate, textPredicate runtime.cases name valueMatch = .ok predicate ∧
      predicate.eval column =
        some (matchesText runtime raw valueMatch && !slips type valueMatch) := by
  obtain ⟨htext, hascii⟩ := h.text? runtime
  cases valueMatch with
  | «exists» =>
      refine ⟨_, rfl, ?_⟩
      rw [SqlPredicate.eval, htext]
      exact congrArg some (Bool.and_true _).symm
  | equals value glob =>
      cases glob with
      | false =>
          refine ⟨_, rfl, ?_⟩
          rw [SqlPredicate.eval, htext, Option.map_some, matchesText,
            CaseTable.toLowerCase_ascii hascii]
          exact congrArg some (Bool.and_true _).symm
      | true =>
          refine ⟨_, rfl, ?_⟩
          rw [SqlPredicate.eval, htext, Option.map_some, matchesText,
            like_eq_globTest runtime.cases hascii htype]
  | compare comparison value =>
      rw [ValueMatch.Fits, htype] at hfits
      cases hfits
  | range low high =>
      rw [ValueMatch.Fits, htype] at hfits
      cases hfits

/-- A term is definite in SQL, with the value it has in memory unless it slips. -/
theorem eval_fieldPredicate {ρ : Type} {field : SearchField ρ} {raw : JsValue}
    {column : List Char → SqlValue} {name : List Char}
    (h : Denotes field.type.isNumeric raw (column name)) {valueMatch : ValueMatch}
    (hfits : valueMatch.Fits field.type) :
    ∃ predicate, fieldPredicate runtime.cases name field.type.isNumeric valueMatch = .ok predicate ∧
      predicate.eval column =
        some (matchesValue runtime field raw valueMatch && !slips field.type valueMatch) := by
  unfold fieldPredicate matchesValue
  cases htype : field.type.isNumeric with
  | true =>
      rw [htype] at h
      have hslips : slips field.type valueMatch = false := by
        unfold slips
        split
        · rw [htype]
          rfl
        · rfl
      refine ⟨_, rfl, ?_⟩
      rw [hslips, Bool.not_false, Bool.and_true]
      exact eval_numberPredicate h valueMatch
  | false =>
      rw [htype] at h
      exact eval_textPredicate runtime htype h hfits

/-! ## Trees -/

/-- The predicate's value is known. -/
def Settled (column : List Char → SqlValue) (predicate : SqlPredicate) (b : Bool) : Prop :=
  predicate.eval column = some b

theorem foldl_settled {column : List Char → SqlValue}
    {operator : SqlPredicate → SqlPredicate → SqlPredicate} {op : Bool → Bool → Bool}
    (hop : ∀ {p q : SqlPredicate} {x y : Bool}, Settled column p x → Settled column q y →
      Settled column (operator p q) (op x y))
    {first : SqlPredicate} {x : Bool} (hfirst : Settled column first x)
    {predicates : List SqlPredicate} {values : List Bool}
    (h : List.Forall₂ (Settled column) predicates values) :
    Settled column (predicates.foldl operator first) (values.foldl op x) := by
  induction h generalizing first x with
  | nil => exact hfirst
  | cons hhead _ ih => exact ih (hop hfirst hhead)

theorem foldl_and (x : Bool) (values : List Bool) :
    values.foldl (· && ·) x = (x && values.all id) := by
  induction values generalizing x with
  | nil => exact (Bool.and_true x).symm
  | cons y values ih => rw [List.foldl_cons, ih, List.all_cons, Bool.and_assoc, id]

theorem foldl_or (x : Bool) (values : List Bool) :
    values.foldl (· || ·) x = (x || values.any id) := by
  induction values generalizing x with
  | nil => exact (Bool.or_false x).symm
  | cons y values ih => rw [List.foldl_cons, ih, List.any_cons, Bool.or_assoc, id]

theorem joined_settled {column : List Char → SqlValue}
    {operator : SqlPredicate → SqlPredicate → SqlPredicate} {op : Bool → Bool → Bool}
    (hop : ∀ {p q : SqlPredicate} {x y : Bool}, Settled column p x → Settled column q y →
      Settled column (operator p q) (op x y))
    {predicates : List SqlPredicate} {first : Bool} {values : List Bool}
    (h : List.Forall₂ (Settled column) predicates (first :: values)) :
    Settled column (joined operator predicates) (values.foldl op first) := by
  cases h with
  | cons hhead htail => exact foldl_settled hop hhead htail

variable {ρ : Type} {schema : SearchSchema ρ} {row : ρ}

theorem evaluateEvery_eq (children : List (SearchNode ρ)) :
    evaluateEvery runtime schema row children =
      (children.map (evaluateNode runtime schema row)).all id := by
  induction children with
  | nil => rfl
  | cons child children ih => rw [evaluateEvery, ih, List.map_cons, List.all_cons, id]

theorem evaluateSome_eq (children : List (SearchNode ρ)) :
    evaluateSome runtime schema row children =
      (children.map (evaluateNode runtime schema row)).any id := by
  induction children with
  | nil => rfl
  | cons child children ih => rw [evaluateSome, ih, List.map_cons, List.any_cons, id]

/-- The value in memory is that of the formula, all terms counted. -/
theorem evaluateNode_eq {node : SearchNode ρ} (hadmissible : Admissible schema node)
    (hfields : FieldsOnly node) : evaluateNode runtime schema row node =
      (formula node).eval (termValue runtime schema row true) := by
  induction hadmissible with
  | @and children _ _ ih =>
      rw [evaluateNode, formula, BoolTree.eval, evalEvery_formulas, evaluateEvery_eq]
      congr 1
      apply List.map_congr_left
      intro child hchild
      exact ih child hchild (fieldsOnly_child hfields hchild)
  | @or children _ _ ih =>
      rw [evaluateNode, formula, BoolTree.eval, evalSome_formulas, evaluateSome_eq]
      congr 1
      apply List.map_congr_left
      intro child hchild
      exact ih child hchild (fieldsOnly_child hfields hchild)
  | not _ ih =>
      rw [evaluateNode, formula, BoolTree.eval, ih hfields]
  | text value => cases hfields _ (List.mem_singleton_self _)
  | field hfield hvalue =>
      rw [evaluateNode, formula, BoolTree.eval, termValue, Bool.true_or, Bool.and_true]

variable {column : List Char → SqlValue}

theorem compileAll_settled {value : SearchNode ρ → Bool} {children : List (SearchNode ρ)}
    (h : ∀ child ∈ children, ∃ predicate, compile runtime.cases schema child = .ok predicate ∧
      Settled column predicate (value child)) :
    ∃ predicates, compileAll runtime.cases schema children = .ok predicates ∧
      List.Forall₂ (Settled column) predicates (children.map value) := by
  induction children with
  | nil => exact ⟨[], rfl, .nil⟩
  | cons child children ih =>
      rw [List.forall_mem_cons] at h
      obtain ⟨⟨predicate, hcompile, hvalue⟩, hchildren⟩ := h
      obtain ⟨predicates, hall, hvalues⟩ := ih hchildren
      refine ⟨predicate :: predicates, ?_, .cons hvalue hvalues⟩
      rw [compileAll, hcompile, hall]
      rfl

/-- By induction on the tree: the compiled predicate is definite, with the value of the formula
where the terms that slip do not count. -/
theorem compile_settled (hcolumns : SameColumns schema column row) {node : SearchNode ρ}
    (hadmissible : Admissible schema node) (hfields : FieldsOnly node) :
    ∃ predicate, compile runtime.cases schema node = .ok predicate ∧
      Settled column predicate ((formula node).eval (termValue runtime schema row false)) := by
  induction hadmissible with
  | @and children hne _ ih =>
      obtain ⟨predicates, hall, hvalues⟩ := compileAll_settled runtime
        fun child hchild => ih child hchild (fieldsOnly_child hfields hchild)
      refine ⟨joined .and predicates, by rw [compile, hall]; rfl, ?_⟩
      rw [formula, BoolTree.eval, evalEvery_formulas]
      cases hmap : children.map fun child =>
          (formula child).eval (termValue runtime schema row false) with
      | nil => exact absurd (List.map_eq_nil_iff.mp hmap) hne
      | cons first values =>
          rw [hmap] at hvalues
          rw [List.all_cons, id, ← foldl_and]
          apply joined_settled _ hvalues
          intro p q x y hp hq
          rw [Settled, SqlPredicate.eval, hp, hq, sqlAnd_some]
  | @or children hne _ ih =>
      obtain ⟨predicates, hall, hvalues⟩ := compileAll_settled runtime
        fun child hchild => ih child hchild (fieldsOnly_child hfields hchild)
      refine ⟨joined .or predicates, by rw [compile, hall]; rfl, ?_⟩
      rw [formula, BoolTree.eval, evalSome_formulas]
      cases hmap : children.map fun child =>
          (formula child).eval (termValue runtime schema row false) with
      | nil => exact absurd (List.map_eq_nil_iff.mp hmap) hne
      | cons first values =>
          rw [hmap] at hvalues
          rw [List.any_cons, id, ← foldl_or]
          apply joined_settled _ hvalues
          intro p q x y hp hq
          rw [Settled, SqlPredicate.eval, hp, hq, sqlOr_some]
  | not _ ih =>
      obtain ⟨predicate, hcompile, hvalue⟩ := ih hfields
      refine ⟨.not predicate, by rw [compile, hcompile]; rfl, ?_⟩
      rw [Settled, SqlPredicate.eval, hvalue]
      rfl
  | text value => cases hfields _ (List.mem_singleton_self _)
  | @field field path valueMatch hfield hvalue =>
      obtain ⟨rfl, hmem⟩ := hfield hcolumns.dynamic
      obtain ⟨name, get, hsql, hget, hdenotes⟩ := hcolumns.fields field hmem
      obtain ⟨predicate, hpredicate, hagrees⟩ := eval_fieldPredicate runtime hdenotes hvalue
      refine ⟨predicate, ?_, ?_⟩
      · rw [compile, hsql]
        exact hpredicate
      · rw [Settled, formula, BoolTree.eval, termValue, rawValue, hget]
        exact hagrees

/-! ## Queries -/

/-- The statement can be made, and it selects the row when the search in memory does. -/
def Agrees (schema : SearchSchema ρ) (row : ρ) (column : List Char → SqlValue)
    (node : Option (SearchNode ρ)) : Prop :=
  ∃ predicate, searchSql runtime.cases schema node = .ok predicate ∧
    (evaluateSearch runtime schema row node = true ↔ selects column predicate = true)

/-- Memory and SQL agree on a query and a row exactly when the terms that slip make no difference
there. -/
theorem search_agrees_with_sql (runtime : SearchRuntime) (schema : SearchSchema ρ)
    (column : List Char → SqlValue) (row : ρ) (input : List Char) (parsed : ParsedSearch ρ)
    (hcolumns : SameColumns schema column row)
    (hparsed : parseSearch runtime.cases schema input = .ok parsed)
    (hfields : ∀ node ∈ parsed.node, FieldsOnly node) :
    Agrees runtime schema row column parsed.node ↔
      ∀ node ∈ parsed.node, Indifferent runtime schema row node := by
  cases hnode : parsed.node with
  | none =>
      constructor
      · intro _ node hnone
        cases hnone
      · intro _
        exact ⟨none, rfl, Iff.rfl⟩
  | some node =>
      rcases parseSearch_ends runtime.cases schema input with ⟨error, herror⟩ | ⟨other, hok, hall⟩
      · rw [hparsed] at herror
        cases herror
      obtain rfl := Except.ok.inj (hparsed.symm.trans hok)
      obtain ⟨predicate, hcompile, hvalue⟩ :=
        compile_settled runtime hcolumns (hall node hnode) (hfields node hnode)
      have hsearch : searchSql runtime.cases schema (some node) = .ok (some predicate) := by
        rw [searchSql, hcompile]
        rfl
      have hselects : selects column (some predicate) = true ↔
          (formula node).eval (termValue runtime schema row false) = true := by
        rw [selects, hvalue, decide_eq_true_iff, Option.some_inj]
      have hmemory : evaluateSearch runtime schema row (some node) =
          (formula node).eval (termValue runtime schema row true) :=
        evaluateNode_eq runtime (hall node hnode) (hfields node hnode)
      constructor
      · rintro ⟨made, hmade, hiff⟩ other hother
        obtain rfl := Option.some.inj hother
        obtain rfl := Except.ok.inj (hsearch.symm.trans hmade)
        rw [hmemory, hselects] at hiff
        exact Bool.eq_iff_iff.mpr hiff
      · intro hindifferent
        refine ⟨some predicate, hsearch, ?_⟩
        rw [hmemory, hselects]
        exact Bool.eq_iff_iff.mp (hindifferent node rfl)

/-! ## Rows of paths -/

def asciiRuntime : SearchRuntime := ⟨asciiCases, fun _ => []⟩

def pathField : SearchField (List Char) :=
  ⟨"path".toList, [], .text, some "path".toList, some .string⟩

def pathSchema : SearchSchema (List Char) :=
  ⟨[pathField], ["path".toList], [], some id, none⟩

def pathColumn (path : List Char) : List Char → SqlValue := fun _ => .text path

theorem pathColumns {path : List Char} (h : path.all isAscii = true) :
    SameColumns pathSchema (pathColumn path) path where
  dynamic := rfl
  fields field hfield := by
    rw [List.mem_singleton.mp hfield]
    exact ⟨_, _, rfl, rfl, .text rfl (List.all_eq_true.mp h)⟩

theorem toOption_eq_some {ε α : Type} {x : Except ε α} {a : α} (h : x.toOption = some a) :
    x = .ok a := by
  cases x with
  | error error => cases h
  | ok b => exact congrArg Except.ok (Option.some.inj h)

/-- The terms are terms of fields, those that slip make no difference. -/
def isSettled (path : List Char) (node : SearchNode (List Char)) : Bool :=
  (formula node).leaves.all isFieldTerm && decide (Indifferent asciiRuntime pathSchema path node)

/-- `path:"secret" OR NOT path:ſ*`: on the path `secret` the second term slips, the first is true. -/
theorem search_agrees_with_sql_masked : ∃ parsed,
    parseSearch asciiCases pathSchema "path:\"secret\" OR NOT path:ſ*".toList = .ok parsed ∧
    parsed.node.isSome = true ∧
    Agrees asciiRuntime pathSchema "secret".toList (pathColumn "secret".toList) parsed.node := by
  have hparse : ((parseSearch asciiCases pathSchema
      "path:\"secret\" OR NOT path:ſ*".toList).toOption.any fun parsed =>
        parsed.node.any (isSettled "secret".toList)) = true := by
    decide +kernel
  obtain ⟨parsed, hparsed, hnode⟩ := (Option.any_eq_true ..).mp hparse
  obtain ⟨node, hsome, hkind⟩ := (Option.any_eq_true ..).mp hnode
  obtain ⟨hleaves, hindifferent⟩ := (Bool.and_eq_true_iff ..).mp hkind
  have hok := toOption_eq_some hparsed
  refine ⟨parsed, hok, by rw [hsome]; rfl, ?_⟩
  apply (search_agrees_with_sql asciiRuntime pathSchema _ _ _ parsed _ hok _).mpr
  · intro other hother
    obtain rfl := Option.some.inj (hsome.symm.trans hother)
    exact of_decide_eq_true hindifferent
  · exact pathColumns (by decide)
  · intro other hother
    obtain rfl := Option.some.inj (hsome.symm.trans hother)
    exact List.all_eq_true.mp hleaves

/-- `path:ſ*` finds the path `secret` in memory and not in SQL. -/
theorem long_s_matches_in_memory : ∃ parsed,
    parseSearch asciiCases pathSchema "path:ſ*".toList = .ok parsed ∧
    (∀ node ∈ parsed.node, FieldsOnly node) ∧
    SameColumns pathSchema (pathColumn "secret".toList) "secret".toList ∧
    ¬ Agrees asciiRuntime pathSchema "secret".toList (pathColumn "secret".toList) parsed.node := by
  have hparse : ((parseSearch asciiCases pathSchema "path:ſ*".toList).toOption.any fun parsed =>
      (parsed.node.any fun node => (formula node).leaves.all isFieldTerm) &&
      evaluateSearch asciiRuntime pathSchema "secret".toList parsed.node &&
      (searchSql asciiCases pathSchema parsed.node).toOption.any fun predicate =>
        !selects (pathColumn "secret".toList) predicate) = true := by
    decide +kernel
  obtain ⟨parsed, hparsed, hfacts⟩ := (Option.any_eq_true ..).mp hparse
  rw [Bool.and_eq_true, Bool.and_eq_true] at hfacts
  obtain ⟨⟨hnode, hmemory⟩, hsql⟩ := hfacts
  obtain ⟨node, hsome, hkind⟩ := (Option.any_eq_true ..).mp hnode
  obtain ⟨predicate, hpredicate, hselects⟩ := (Option.any_eq_true ..).mp hsql
  refine ⟨parsed, toOption_eq_some hparsed, ?_, pathColumns (by decide), ?_⟩
  · intro other hother
    obtain rfl := Option.some.inj (hsome.symm.trans hother)
    exact List.all_eq_true.mp hkind
  · rintro ⟨other, hother, hiff⟩
    obtain rfl := Except.ok.inj ((toOption_eq_some hpredicate).symm.trans hother)
    rw [hiff.mp hmemory] at hselects
    cases hselects

end BurrowGate.Search
