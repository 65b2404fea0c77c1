import BurrowGate.Search.SearchQuery

/-!
# The parser ends

Every call of the parser takes fewer tokens for its subterms, so the fuel of `parseSearch` is never
spent. The same induction shows which trees it builds.
-/

namespace BurrowGate.Search

open Js

variable {ρ : Type}

/-! ## Admissible trees -/

/-- A field of texts is never compared with bounds. -/
def ValueMatch.Fits (type : SearchFieldType) : ValueMatch → Prop
  | .exists | .equals _ _ => True
  | .compare _ _ | .range _ _ => type.isNumeric = true

/-- Where a schema has no dynamic fields, every field of the tree is one of its own. -/
def FieldFits (schema : SearchSchema ρ) (field : SearchField ρ) (path : Option (List Char)) :
    Prop :=
  schema.dynamic.isNone = true → path = none ∧ field ∈ schema.fields

/-- The trees that the parser builds: inner nodes have children. -/
inductive Admissible (schema : SearchSchema ρ) : SearchNode ρ → Prop
  | and {children : List (SearchNode ρ)} (hne : children ≠ [])
      (h : ∀ child ∈ children, Admissible schema child) : Admissible schema (.and children)
  | or {children : List (SearchNode ρ)} (hne : children ≠ [])
      (h : ∀ child ∈ children, Admissible schema child) : Admissible schema (.or children)
  | not {child : SearchNode ρ} (h : Admissible schema child) : Admissible schema (.not child)
  | text (value : List Char) : Admissible schema (.text value)
  | field {field : SearchField ρ} {path : Option (List Char)} {valueMatch : ValueMatch}
      (hfield : FieldFits schema field path) (hvalue : valueMatch.Fits field.type) :
      Admissible schema (.field field path valueMatch)

theorem Admissible.collapse {schema : SearchSchema ρ}
    {node : List (SearchNode ρ) → SearchNode ρ}
    (hnode : ∀ children, children ≠ [] → (∀ child ∈ children, Admissible schema child) →
      Admissible schema (node children))
    {first : SearchNode ρ} {others : List (SearchNode ρ)} (hfirst : Admissible schema first)
    (hothers : ∀ child ∈ others, Admissible schema child) :
    Admissible schema (collapse node (first :: others)) := by
  cases others with
  | nil => exact hfirst
  | cons second others =>
      apply hnode _ (List.cons_ne_nil _ _)
      intro child hchild
      rcases List.mem_cons.mp hchild with rfl | hchild
      · exact hfirst
      · exact hothers child hchild

theorem withPathAll_eq (path : List Char) (children : List (SearchNode ρ)) :
    withPathAll path children = children.map (withPath path) := by
  induction children with
  | nil => rfl
  | cons child children ih => rw [withPathAll, ih, List.map_cons]

/-- Paths are of dynamic fields only. -/
theorem Admissible.withPath {schema : SearchSchema ρ} (hdynamic : schema.dynamic.isSome = true)
    (path : List Char) {node : SearchNode ρ} (h : Admissible schema node) :
    Admissible schema (withPath path node) := by
  have hnone : schema.dynamic.isNone ≠ true := by
    intro hnone
    rw [Option.isNone_iff_eq_none] at hnone
    rw [hnone] at hdynamic
    cases hdynamic
  have hall : ∀ {children : List (SearchNode ρ)},
      (∀ child ∈ children, Admissible schema (Search.withPath path child)) →
      ∀ child ∈ children.map (Search.withPath path), Admissible schema child := by
    intro children ih child hchild
    obtain ⟨before, hbefore, rfl⟩ := List.mem_map.mp hchild
    exact ih before hbefore
  induction h with
  | and hne _ ih =>
      rw [Search.withPath, withPathAll_eq]
      exact .and (fun hmap => hne (List.map_eq_nil_iff.mp hmap)) (hall ih)
  | or hne _ ih =>
      rw [Search.withPath, withPathAll_eq]
      exact .or (fun hmap => hne (List.map_eq_nil_iff.mp hmap)) (hall ih)
  | not _ ih => exact .not ih
  | text value => exact .text value
  | field _ hvalue => exact .field (fun h => absurd h hnone) hvalue

theorem Admissible.withPath? {schema : SearchSchema ρ} {path : Option (List Char)}
    (hpath : schema.dynamic.isNone = true → path = none) {node : SearchNode ρ}
    (h : Admissible schema node) : Admissible schema (withPath? path node) := by
  cases path with
  | none => exact h
  | some path =>
      apply Admissible.withPath _ path h
      cases hdynamic : schema.dynamic with
      | none => cases hpath (by rw [hdynamic]; rfl)
      | some dynamic => rfl

theorem resolveField_fits {config : ParserConfig ρ} {name : List Char} {field : SearchField ρ}
    {path : Option (List Char)} (h : resolveField config name = some (field, path)) :
    FieldFits config.schema field path := by
  intro hnone
  unfold resolveField at h
  dsimp only at h
  split at h
  · rename_i found hfind
    cases h
    exact ⟨rfl, List.mem_of_find?_eq_some hfind⟩
  · rw [Option.isNone_iff_eq_none] at hnone
    rw [hnone] at h
    cases h

/-! ## Values -/

theorem parseNumber_fits {field : SearchField ρ} (hnumeric : field.type.isNumeric = true)
    (valueMatch : ValueMatch) : valueMatch.Fits field.type := by
  cases valueMatch with
  | «exists» => trivial
  | equals value glob => trivial
  | compare comparison value => exact hnumeric
  | range low high => exact hnumeric

theorem parseValue_fits {cases : CaseTable} {field : SearchField ρ} {value : List Char}
    {quoted : Bool} {position : Nat} {valueMatch : ValueMatch}
    (h : parseValue cases field value quoted position = .ok valueMatch) :
    valueMatch.Fits field.type := by
  by_cases hnumeric : field.type.isNumeric = true
  · exact parseNumber_fits hnumeric valueMatch
  · unfold parseValue at h
    simp only [hnumeric, Bool.and_false, Bool.false_eq_true, if_false] at h
    split at h
    · cases h
    split at h
    · cases h
      trivial
    split at h
    · cases hcidr : cidrPattern value position with
      | error error =>
          rw [hcidr] at h
          cases h
      | ok pattern =>
          rw [hcidr] at h
          cases h
          trivial
    · cases h
      trivial

/-! ## The result of a parser -/

/-- The parser ends, and where it succeeds fewer than `limit` tokens are left. -/
inductive Reads {α : Type} (good : α → Prop) (limit : Nat) : Parse (α × ParserState) → Prop
  | error (error : SearchSyntaxError) : Reads good limit (.error (.syntaxError error))
  | ok {a : α} {s : ParserState} (hgood : good a) (hlimit : s.tokens.length < limit) :
      Reads good limit (.ok (a, s))

theorem Reads.bind {α β : Type} {good : α → Prop} {good' : β → Prop} {limit limit' : Nat}
    {x : Parse (α × ParserState)} {f : α × ParserState → Parse (β × ParserState)}
    (hx : Reads good limit x)
    (hf : ∀ a s, good a → s.tokens.length < limit → Reads good' limit' (f (a, s))) :
    Reads good' limit' (x >>= f) := by
  cases hx with
  | error error => exact .error error
  | ok hgood hlimit => exact hf _ _ hgood hlimit

theorem Reads.mono {α : Type} {good : α → Prop} {limit limit' : Nat}
    {x : Parse (α × ParserState)} (h : Reads good limit x) (hle : limit ≤ limit') :
    Reads good limit' x := by
  cases h with
  | error error => exact .error error
  | ok hgood hlimit => exact .ok hgood (lt_of_lt_of_le hlimit hle)

variable {config : ParserConfig ρ}

theorem reads_fieldTerm {field : SearchField ρ} {path : Option (List Char)}
    (hfield : FieldFits config.schema field path) (w : Word) (value : List Char) (position : Nat)
    (s : ParserState) :
    Reads (Admissible config.schema) (s.tokens.length + 1)
      (fieldTerm config field path w value position s) := by
  unfold fieldTerm countTerm
  split
  · exact .error _
  · cases hvalue : parseValue config.cases field value w.quoted position with
    | error error => exact .error error
    | ok valueMatch => exact .ok (.field hfield (parseValue_fits hvalue)) (Nat.lt_succ_self _)

theorem reads_textTerm (schema : SearchSchema ρ) (w : Word) (s : ParserState) :
    Reads (Admissible schema) (s.tokens.length + 1) (textTerm w s) := by
  unfold textTerm countTerm
  split
  · exact .error _
  · change Reads _ _ (if maxValueLength < utf16Length (unglob w.value) then _ else _)
    split
    · exact .error _
    · exact .ok (.text _) (Nat.lt_succ_self _)

/-- The closing parenthesis of a group. -/
theorem reads_closing {good : SearchNode ρ → Prop} {node : SearchNode ρ} (hgood : good node)
    {s : ParserState} {limit : Nat} (hlimit : s.tokens.length < limit) (position : Nat) :
    Reads good limit (do return (node, ← expectClosing position s)) := by
  unfold expectClosing
  split
  · rename_i rest htokens
    apply Reads.ok hgood
    rw [htokens, List.length_cons] at hlimit
    change rest.length < limit
    omega
  · exact .error _

/-! ## The parser on fewer tokens -/

/-- A group takes its field from the schema. -/
def BoundFits (schema : SearchSchema ρ) (bound : Option (SearchField ρ)) : Prop :=
  ∀ field ∈ bound, FieldFits schema field none

/-- The parser with this fuel ends on as many tokens as the fuel is enough for. -/
structure Ends (config : ParserConfig ρ) (fuel : Nat) : Prop where
  or : ∀ depth bound s, BoundFits config.schema bound → 6 * s.tokens.length + 5 ≤ fuel →
    Reads (Admissible config.schema) s.tokens.length (parseOr config fuel depth bound s)
  orRest : ∀ depth bound s, BoundFits config.schema bound → 6 * s.tokens.length + 4 ≤ fuel →
    Reads (fun others => ∀ child ∈ others, Admissible config.schema child)
      (s.tokens.length + 1) (parseOrRest config fuel depth bound s)
  and : ∀ depth bound s, BoundFits config.schema bound → 6 * s.tokens.length + 4 ≤ fuel →
    Reads (Admissible config.schema) s.tokens.length (parseAnd config fuel depth bound s)
  andRest : ∀ depth bound s, BoundFits config.schema bound → 6 * s.tokens.length + 4 ≤ fuel →
    Reads (fun others => ∀ child ∈ others, Admissible config.schema child)
      (s.tokens.length + 1) (parseAndRest config fuel depth bound s)
  unary : ∀ depth bound s, BoundFits config.schema bound → 6 * s.tokens.length + 3 ≤ fuel →
    Reads (Admissible config.schema) s.tokens.length (parseUnary config fuel depth bound s)
  primary : ∀ depth bound token s, BoundFits config.schema bound →
    6 * s.tokens.length + 8 ≤ fuel →
    Reads (Admissible config.schema) (s.tokens.length + 1)
      (parsePrimary config fuel depth bound token s)
  word : ∀ depth bound w s, BoundFits config.schema bound → 6 * s.tokens.length + 7 ≤ fuel →
    Reads (Admissible config.schema) (s.tokens.length + 1)
      (parseWord config fuel depth bound w s)

section Step

variable {fuel : Nat} (ih : Ends config fuel) (depth : Nat) {bound : Option (SearchField ρ)}
  (hbound : BoundFits config.schema bound) (s : ParserState)

include ih hbound

theorem parseOr_ends (h : 6 * s.tokens.length + 5 ≤ fuel + 1) :
    Reads (Admissible config.schema) s.tokens.length (parseOr config (fuel + 1) depth bound s) := by
  rw [parseOr]
  apply (ih.and depth bound s hbound (by omega)).bind
  intro first s₁ hfirst hs₁
  apply (ih.orRest depth bound s₁ hbound (by omega)).bind
  intro others s₂ hothers hs₂
  exact .ok (.collapse (fun _ => .or) hfirst hothers) (by omega)

theorem parseOrRest_ends (h : 6 * s.tokens.length + 4 ≤ fuel + 1) :
    Reads (fun others => ∀ child ∈ others, Admissible config.schema child)
      (s.tokens.length + 1) (parseOrRest config (fuel + 1) depth bound s) := by
  have hnone : ∀ child ∈ ([] : List (SearchNode ρ)), Admissible config.schema child := by simp
  rw [parseOrRest]
  split
  · exact .ok hnone (Nat.lt_succ_self _)
  rename_i token tokens htokens
  have hlength : s.tokens.length = tokens.length + 1 := by rw [htokens, List.length_cons]
  split
  · split
    · apply (ih.and depth bound { s with tokens } hbound (by dsimp only; omega)).bind
      intro child s₁ hchild hs₁
      dsimp only at hs₁
      apply (ih.orRest depth bound s₁ hbound (by omega)).bind
      intro others s₂ hothers hs₂
      exact .ok (List.forall_mem_cons.mpr ⟨hchild, hothers⟩) (by omega)
    · exact .error _
  · exact .ok hnone (Nat.lt_succ_self _)

theorem parseAnd_ends (h : 6 * s.tokens.length + 4 ≤ fuel + 1) :
    Reads (Admissible config.schema) s.tokens.length
      (parseAnd config (fuel + 1) depth bound s) := by
  rw [parseAnd]
  apply (ih.unary depth bound s hbound (by omega)).bind
  intro first s₁ hfirst hs₁
  apply (ih.andRest depth bound s₁ hbound (by omega)).bind
  intro others s₂ hothers hs₂
  exact .ok (.collapse (fun _ => .and) hfirst hothers) (by omega)

theorem parseAndRest_ends (h : 6 * s.tokens.length + 4 ≤ fuel + 1) :
    Reads (fun others => ∀ child ∈ others, Admissible config.schema child)
      (s.tokens.length + 1) (parseAndRest config (fuel + 1) depth bound s) := by
  have hnone : ∀ child ∈ ([] : List (SearchNode ρ)), Admissible config.schema child := by simp
  have hmore : ∀ s' : ParserState, s'.tokens.length ≤ s.tokens.length →
      Reads (fun others => ∀ child ∈ others, Admissible config.schema child)
        (s.tokens.length + 1) ((parseUnary config fuel depth bound s').bind fun first =>
          (parseAndRest config fuel depth bound first.2).bind fun others =>
            .ok (first.1 :: others.1, others.2)) := by
    intro s' hs'
    apply (ih.unary depth bound s' hbound (by omega)).bind
    intro child s₁ hchild hs₁
    dsimp only
    apply (ih.andRest depth bound s₁ hbound (by omega)).bind
    intro others s₂ hothers hs₂
    exact .ok (List.forall_mem_cons.mpr ⟨hchild, hothers⟩) (by dsimp only; omega)
  rw [parseAndRest]
  split
  · exact .ok hnone (Nat.lt_succ_self _)
  rename_i token tokens htokens
  have hlength : s.tokens.length = tokens.length + 1 := by rw [htokens, List.length_cons]
  split
  · split
    · apply hmore { s with tokens }
      dsimp only
      omega
    · exact .error _
  · split
    · exact hmore s le_rfl
    · exact .ok hnone (Nat.lt_succ_self _)

theorem parseUnary_ends (h : 6 * s.tokens.length + 3 ≤ fuel + 1) :
    Reads (Admissible config.schema) s.tokens.length
      (parseUnary config (fuel + 1) depth bound s) := by
  rw [parseUnary]
  split
  · exact .error _
  rename_i token tokens htokens
  have hlength : s.tokens.length = tokens.length + 1 := by rw [htokens, List.length_cons]
  split
  · split
    · apply (ih.unary depth bound { s with tokens } hbound (by dsimp only; omega)).bind
      intro child s₁ hchild hs₁
      dsimp only at hs₁
      exact .ok (.not hchild) (by omega)
    · exact .error _
  · apply (ih.primary depth bound token { s with tokens } hbound (by dsimp only; omega)).mono
    dsimp only
    omega

theorem parsePrimary_ends (token : Token) (h : 6 * s.tokens.length + 8 ≤ fuel + 1) :
    Reads (Admissible config.schema) (s.tokens.length + 1)
      (parsePrimary config (fuel + 1) depth bound token s) := by
  rw [parsePrimary.eq_def]
  cases token with
  | opening position =>
      dsimp only
      unfold enter
      split
      · exact .error _
      · apply (ih.or (depth + 1) bound s hbound (by omega)).bind
        intro inner s₁ hinner hs₁
        exact reads_closing hinner (Nat.lt_succ_of_lt hs₁) position
  | closing position => exact .error _
  | word w =>
      apply (ih.word depth bound w s hbound (by omega)).bind
      intro node s₁ hnode hs₁
      apply Reads.ok _ hs₁
      cases w.negated with
      | true => exact .not hnode
      | false => exact hnode

theorem parseWord_ends (w : Word) (h : 6 * s.tokens.length + 7 ≤ fuel + 1) :
    Reads (Admissible config.schema) (s.tokens.length + 1)
      (parseWord config (fuel + 1) depth bound w s) := by
  rw [parseWord.eq_def]
  dsimp only
  split
  · rename_i field
    exact reads_fieldTerm (hbound field rfl) w w.value w.position s
  split
  · exact reads_textTerm config.schema w s
  rename_i name rest hname
  split
  · exact reads_textTerm config.schema w s
  split
  · exact reads_textTerm config.schema w { s with warnings := s.warnings ++ [warning name w.raw] }
  rename_i field path hresolve
  have hfits := resolveField_fits hresolve
  split
  · split
    · rename_i position tokens htokens
      have hlength : s.tokens.length = tokens.length + 1 := by rw [htokens, List.length_cons]
      have hgroup : BoundFits config.schema (some field) := by
        intro bound hfield hnone
        obtain rfl := Option.some.inj hfield
        exact ⟨rfl, (hfits hnone).2⟩
      unfold enter
      split
      · exact .error _
      · apply (ih.or (depth + 1) (some field) { s with tokens } hgroup (by dsimp only; omega)).bind
        intro inner s₁ hinner hs₁
        dsimp only at hs₁
        have hlimit : s₁.tokens.length < s.tokens.length + 1 := by omega
        exact reads_closing (hinner.withPath? fun hnone => (hfits hnone).1) hlimit position
    · split
      · exact reads_fieldTerm hfits w _ _ s
      · exact .error _
  · exact reads_fieldTerm hfits w _ _ s

end Step

theorem ends (config : ParserConfig ρ) (fuel : Nat) : Ends config fuel := by
  induction fuel with
  | zero =>
      exact ⟨fun _ _ _ _ h => by omega, fun _ _ _ _ h => by omega, fun _ _ _ _ h => by omega,
        fun _ _ _ _ h => by omega, fun _ _ _ _ h => by omega, fun _ _ _ _ _ h => by omega,
        fun _ _ _ _ _ h => by omega⟩
  | succ fuel ih =>
      exact
        { or := fun depth _ s hbound h => parseOr_ends ih depth hbound s h
          orRest := fun depth _ s hbound h => parseOrRest_ends ih depth hbound s h
          and := fun depth _ s hbound h => parseAnd_ends ih depth hbound s h
          andRest := fun depth _ s hbound h => parseAndRest_ends ih depth hbound s h
          unary := fun depth _ s hbound h => parseUnary_ends ih depth hbound s h
          primary := fun depth _ token s hbound h => parsePrimary_ends ih depth hbound s token h
          word := fun depth _ w s hbound h => parseWord_ends ih depth hbound s w h }

/-! ## The whole query -/

/-- A query is parsed, or it has a syntax error. -/
theorem parseSearch_ends (cases : CaseTable) (schema : SearchSchema ρ) (input : List Char) :
    (∃ error, parseSearch cases schema input = .error (.syntaxError error)) ∨
      ∃ parsed, parseSearch cases schema input = .ok parsed ∧
        ∀ node ∈ parsed.node, Admissible schema node := by
  unfold parseSearch
  dsimp only
  split
  · exact .inl ⟨_, rfl⟩
  split
  · exact .inl ⟨_, rfl⟩
  rename_i tokens htokens
  unfold parse
  by_cases hempty : tokens = []
  · rw [if_pos hempty]
    exact .inr ⟨_, rfl, fun node h => by cases h⟩
  · rw [if_neg hempty]
    have hends := (ends ⟨schema, cases, (tokens.getLast?.map Token.position).getD 0⟩
      (parserFuel tokens)).or 0 none ⟨tokens, 0, []⟩ (fun field h => by cases h) le_rfl
    generalize parseOr _ _ _ _ _ = result at hends ⊢
    cases hends with
    | error error => exact .inl ⟨error, rfl⟩
    | ok hgood hlimit =>
        rename_i node s
        obtain ⟨tokens, terms, warnings⟩ := s
        cases tokens with
        | nil =>
            right
            refine ⟨_, rfl, ?_⟩
            intro other hother
            obtain rfl := Option.some.inj hother
            exact hgood
        | cons token tokens =>
            left
            cases token <;> exact ⟨_, rfl⟩

end BurrowGate.Search
