import BurrowGate.Lib.Precedence
import BurrowGate.Search.SearchQuery
import Mathlib.Data.List.Forall2

/-!
# The parser on well formed tokens

Tokens that stand for an expression are read as its tree. One lemma for each way to build an
expression; the loops of the parser are followed operand by operand.
-/

namespace BurrowGate.Search

open Js
open Lib.Precedence

variable {ρ : Type}

/-- The nodes that the operators build. -/
def nodeBuilder : Builder (SearchNode ρ) := ⟨collapse .and, collapse .or, .not⟩

variable (config : ParserConfig ρ)

/-! ## Tokens and symbols -/

/-- The word is a term whose node is `node`, whatever comes next. -/
structure TermWord (w : Word) (node : SearchNode ρ) : Prop where
  no_operator : ∀ operator, isOperator config (.word w) operator = false
  no_dash : isDash (.word w) = false
  parses : ∀ fuel depth s, s.terms + 1 ≤ maxTerms →
    parsePrimary config (fuel + 2) depth none (.word w) s =
      .ok (node, { s with terms := s.terms + 1 })

inductive Stands : Token → Symbol (SearchNode ρ) → Prop
  | operand {w : Word} {node : SearchNode ρ} (h : TermWord config w node) :
      Stands (.word w) (.operand node)
  | and {token : Token} (h : isOperator config token .and = true) : Stands token .and
  | or {token : Token} (h : isOperator config token .or = true) : Stands token .or
  | not {token : Token} (h : isOperator config token .not = true) : Stands token .not
  | dash {token : Token} (h : isDash token = true) : Stands token .not
  | opening (position : Nat) : Stands (.opening position) .opening
  | closing (position : Nat) : Stands (.closing position) .closing

variable {config}

/-- A word is one operator at most. -/
theorem isOperator_unique {token : Token} {operator other : Operator}
    (h : isOperator config token operator = true) (hother : isOperator config token other = true) :
    operator = other := by
  cases token with
  | opening position => cases h
  | closing position => cases h
  | word w =>
      rw [isOperator, Bool.and_eq_true, decide_eq_true_iff] at h hother
      have htext : operator.text = other.text := h.2.symm.trans hother.2
      cases operator <;> cases other <;> first | rfl | exact absurd htext (by decide)

theorem isOperator_eq_false {token : Token} {operator other : Operator}
    (h : isOperator config token operator = true) (hne : operator ≠ other) :
    isOperator config token other = false := by
  rw [Bool.eq_false_iff]
  intro hother
  exact hne (isOperator_unique h hother)

theorem isOperator_of_isDash {token : Token} (h : isDash token = true) (operator : Operator) :
    isOperator config token operator = false := by
  cases token with
  | opening position => cases h
  | closing position => cases h
  | word w =>
      rw [isDash, Bool.and_eq_true, decide_eq_true_iff] at h
      have hupper : config.cases.toUpperCase ['-'] = ['-'] := by
        rw [CaseTable.toUpperCase, List.flatMap_singleton, config.cases.upper_ascii '-' (by decide)]
        rfl
      rw [isOperator, h.1, hupper, Bool.and_eq_false_iff]
      right
      cases operator <;> decide

/-- Such a token starts a term and is no connective. -/
theorem Stands.starts {token : Token} {symbol : Symbol (SearchNode ρ)}
    (h : Stands config token symbol) (hstarts : symbol.starts = true) (rest : List Token) :
    startsTerm config (token :: rest) = true ∧ isOperator config token .and = false ∧
      isOperator config token .or = false := by
  have hstart : (∀ position, token ≠ .closing position) →
      isOperator config token .and = false → isOperator config token .or = false →
      startsTerm config (token :: rest) = true ∧ isOperator config token .and = false ∧
        isOperator config token .or = false := by
    intro hclosing hand hor
    refine ⟨?_, hand, hor⟩
    cases token with
    | opening position => rfl
    | closing position => exact absurd rfl (hclosing position)
    | word w =>
        change (!isOperator config (.word w) .and && !isOperator config (.word w) .or) = true
        rw [hand, hor]
        rfl
  cases h with
  | operand h => exact hstart (fun _ h => by cases h) (h.no_operator .and) (h.no_operator .or)
  | and h => cases hstarts
  | or h => cases hstarts
  | not h =>
      apply hstart
      · rintro position rfl
        cases h
      · exact isOperator_eq_false h (by decide)
      · exact isOperator_eq_false h (by decide)
  | dash h =>
      apply hstart
      · rintro position rfl
        cases h
      · exact isOperator_of_isDash h .and
      · exact isOperator_of_isDash h .or
  | opening position => exact hstart (fun _ h => by cases h) rfl rfl
  | closing position => cases hstarts

/-- The first token of an expression. -/
theorem Phrase.starts {depth : Nat} {level : Level} {symbols : List (Symbol (SearchNode ρ))}
    {nodes : List (SearchNode ρ)} (h : Phrase nodeBuilder depth level symbols nodes)
    {tokens : List Token} (htokens : List.Forall₂ (Stands config) tokens symbols)
    (rest : List Token) :
    ∃ token others, tokens ++ rest = token :: others ∧
      startsTerm config (tokens ++ rest) = true ∧ isOperator config token .and = false ∧
      isOperator config token .or = false := by
  obtain ⟨first, others, rfl, hstarts⟩ := h.head
  cases htokens with
  | cons hfirst _ => exact ⟨_, _, rfl, hfirst.starts hstarts _⟩

/-! ## What is read -/

/-- `AND` does not go on here, nor does juxtaposition. -/
structure EndsAnd (config : ParserConfig ρ) (rest : List Token) : Prop where
  no_term : startsTerm config rest = false
  no_and : ∀ token ∈ rest.head?, isOperator config token .and = false

structure EndsOr (config : ParserConfig ρ) (rest : List Token) : Prop extends
    EndsAnd config rest where
  no_or : ∀ token ∈ rest.head?, isOperator config token .or = false

theorem endsOr_nil : EndsOr config [] :=
  ⟨⟨rfl, fun _ h => by cases h⟩, fun _ h => by cases h⟩

theorem endsOr_closing (position : Nat) (rest : List Token) :
    EndsOr config (.closing position :: rest) := by
  refine ⟨⟨rfl, ?_⟩, ?_⟩
  · intro token h
    obtain rfl := Option.some.inj h
    rfl
  · intro token h
    obtain rfl := Option.some.inj h
    rfl

theorem endsAnd_or {token : Token} (h : isOperator config token .or = true) (rest : List Token) :
    EndsAnd config (token :: rest) := by
  constructor
  · cases token with
    | opening position => cases h
    | closing position => cases h
    | word w =>
        change (!isOperator config (.word w) .and && !isOperator config (.word w) .or) = false
        rw [h, Bool.not_true, Bool.and_false]
  · intro other hother
    obtain rfl := Option.some.inj hother
    exact isOperator_eq_false h (by decide)

variable (config)

/-- Where the parser begins: at the tokens, with the groups and terms that it has counted. -/
structure Start where
  depth : Nat
  terms : Nat
  warnings : List (List Char)

def Start.state (start : Start) (tokens : List Token) : ParserState :=
  ⟨tokens, start.terms, start.warnings⟩

def Start.after (start : Start) (symbols : List (Symbol (SearchNode ρ))) : Start :=
  { start with terms := start.terms + operands symbols }

/-- The limits are kept. -/
def Start.Within (start : Start) (depth : Nat) (symbols : List (Symbol (SearchNode ρ))) : Prop :=
  start.depth + depth ≤ maxDepth ∧ start.terms + operands symbols ≤ maxTerms

def ReadsNegation (tokens : List Token) (symbols : List (Symbol (SearchNode ρ)))
    (node : SearchNode ρ) (start : Start) : Prop :=
  ∀ fuel rest, 6 * tokens.length + 3 ≤ fuel →
    parseUnary config fuel start.depth none (start.state (tokens ++ rest)) =
      .ok (node, (start.after symbols).state rest)

/-- The first operand, and the others in the loop. -/
def ReadsConjunction (tokens : List Token) (symbols : List (Symbol (SearchNode ρ)))
    (nodes : List (SearchNode ρ)) (start : Start) : Prop :=
  ∀ fuel rest, 6 * tokens.length + 3 ≤ fuel → EndsAnd config rest →
    ∃ first others s, nodes = first :: others ∧
      parseUnary config fuel start.depth none (start.state (tokens ++ rest)) = .ok (first, s) ∧
      parseAndRest config fuel start.depth none s = .ok (others, (start.after symbols).state rest)

def ReadsDisjunction (tokens : List Token) (symbols : List (Symbol (SearchNode ρ)))
    (nodes : List (SearchNode ρ)) (start : Start) : Prop :=
  ∀ fuel rest, 6 * tokens.length + 4 ≤ fuel → EndsOr config rest →
    ∃ first others s, nodes = first :: others ∧
      parseAnd config fuel start.depth none (start.state (tokens ++ rest)) = .ok (first, s) ∧
      parseOrRest config fuel start.depth none s = .ok (others, (start.after symbols).state rest)

/-- The parser of the level reads the tokens as the operands. -/
def ReadsLevel (level : Level) (tokens : List Token) (symbols : List (Symbol (SearchNode ρ)))
    (nodes : List (SearchNode ρ)) (start : Start) : Prop :=
  match level with
  | .negation => ∀ node, nodes = [node] → ReadsNegation config tokens symbols node start
  | .conjunction => ReadsConjunction config tokens symbols nodes start
  | .disjunction => ReadsDisjunction config tokens symbols nodes start

variable {config} {start : Start} {tokens others : List Token}
  {symbols more : List (Symbol (SearchNode ρ))} {node : SearchNode ρ}
  {nodes rest : List (SearchNode ρ)}

theorem Start.after_append (start : Start) (symbols more : List (Symbol (SearchNode ρ))) :
    (start.after symbols).after more = start.after (symbols ++ more) := by
  rw [Start.after, Start.after, Start.after, operands_append, ← Nat.add_assoc]

theorem Start.after_cons (start : Start) {symbol : Symbol (SearchNode ρ)}
    (h : symbol.isOperand = false) (symbols : List (Symbol (SearchNode ρ))) :
    start.after (symbol :: symbols) = start.after symbols := by
  rw [Start.after, Start.after, operands_cons h]

/-! ## Operands -/

theorem reads_operand {w : Word} (h : TermWord config w node)
    (hterms : start.terms + 1 ≤ maxTerms) :
    ReadsNegation config [.word w] [.operand node] node start := by
  intro fuel rest hfuel
  obtain ⟨fuel, rfl⟩ := Nat.exists_eq_add_of_le' hfuel
  have hparse := h.parses (fuel + 6) start.depth (start.state rest) hterms
  change parseUnary config (fuel + 8 + 1) start.depth none _ = _
  rw [parseUnary]
  change (if isOperator config (.word w) .not || isDash (.word w) then _ else _) = _
  rw [h.no_operator, h.no_dash]
  exact hparse

theorem reads_not {token : Token} (htoken : Stands config token .not)
    (hstarts : ∀ rest, startsTerm config (tokens ++ rest) = true)
    (h : ReadsNegation config tokens symbols node start) :
    ReadsNegation config (token :: tokens) (.not :: symbols) (.not node) start := by
  intro fuel rest hfuel
  obtain ⟨fuel, rfl⟩ := Nat.exists_eq_add_of_le' hfuel
  have hcondition : (isOperator config token .not || isDash token) = true := by
    cases htoken with
    | not h => rw [h, Bool.true_or]
    | dash h => rw [h, Bool.or_true]
  have hinner := h (fuel + 6 * (tokens.length + 1) + 2) rest (by omega)
  change parseUnary config (fuel + 6 * (tokens.length + 1) + 2 + 1) start.depth none _ = _
  rw [parseUnary]
  change (if isOperator config token .not || isDash token then
    if startsTerm config (tokens ++ rest) then _ else _ else _) = _
  rw [if_pos hcondition, if_pos (hstarts rest)]
  change (parseUnary config _ start.depth none (start.state (tokens ++ rest)) >>= _) = _
  rw [hinner, start.after_cons rfl]
  rfl

theorem reads_group {opening closing : Nat}
    (hdepth : start.depth < maxDepth)
    (h : ReadsDisjunction config tokens symbols nodes { start with depth := start.depth + 1 }) :
    ReadsNegation config (.opening opening :: (tokens ++ [Token.closing closing]))
      (.opening :: (symbols ++ [Symbol.closing])) (collapse .or nodes) start := by
  intro fuel rest hfuel
  obtain ⟨fuel, rfl⟩ := Nat.exists_eq_add_of_le' hfuel
  obtain ⟨first, more, s, rfl, hfirst, hmore⟩ :=
    h (fuel + 6 * tokens.length + 12) (.closing closing :: rest) (by omega)
      (endsOr_closing closing rest)
  have hlength : (Token.opening opening :: (tokens ++ [Token.closing closing])).length =
      tokens.length + 2 := by
    rw [List.length_cons, List.length_append, List.length_singleton]
  have hafter : start.after (.opening :: (symbols ++ [Symbol.closing])) = start.after symbols := by
    rw [start.after_cons rfl, ← start.after_append]
    rfl
  rw [hlength, hafter]
  change parseUnary config (fuel + 6 * tokens.length + 12 + 1 + 1 + 1) start.depth none _ = _
  rw [parseUnary]
  change parsePrimary config _ start.depth none (.opening opening)
    (start.state ((tokens ++ [Token.closing closing]) ++ rest)) = _
  rw [parsePrimary.eq_def]
  dsimp only
  rw [enter, if_neg (not_le.mpr hdepth), List.append_assoc, List.singleton_append]
  change (parseOr config _ (start.depth + 1) none
    (start.state (tokens ++ .closing closing :: rest)) >>= _) = _
  rw [parseOr]
  change parseAnd config _ (start.depth + 1) none
    (start.state (tokens ++ .closing closing :: rest)) = _ at hfirst
  rw [hfirst]
  change ((parseOrRest config _ (start.depth + 1) none s >>= _) >>= _) = _
  change parseOrRest config _ (start.depth + 1) none s = _ at hmore
  rw [hmore]
  rfl

/-! ## Connectives -/

theorem parseAndRest_stops (fuel : Nat) {rest : List Token} (h : EndsAnd config rest) :
    parseAndRest config (fuel + 1) start.depth none (start.state rest) =
      .ok ([], start.state rest) := by
  rw [parseAndRest]
  cases rest with
  | nil => rfl
  | cons token rest =>
      change (if isOperator config token .and then _ else
        if startsTerm config (token :: rest) then _ else _) = _
      rw [h.no_and token rfl, h.no_term]
      rfl

theorem parseOrRest_stops (fuel : Nat) {rest : List Token} (h : EndsOr config rest) :
    parseOrRest config (fuel + 1) start.depth none (start.state rest) =
      .ok ([], start.state rest) := by
  rw [parseOrRest]
  cases rest with
  | nil => rfl
  | cons token rest =>
      change (if isOperator config token .or then _ else _) = _
      rw [h.no_or token rfl]
      rfl

theorem reads_single (h : ReadsNegation config tokens symbols node start) :
    ReadsConjunction config tokens symbols [node] start := by
  intro fuel rest hfuel hends
  obtain ⟨fuel, rfl⟩ := Nat.exists_eq_add_of_le' hfuel
  exact ⟨node, [], _, rfl, h _ rest hfuel,
    @parseAndRest_stops _ config (start.after symbols) _ rest hends⟩

/-- The operands behind the first one, with `AND` before them or without. -/
theorem reads_next {fuel : Nat} {rest next : List Token} (hends : EndsAnd config rest)
    (hfuel : 6 * others.length + 3 ≤ fuel)
    (h : ReadsNegation config tokens symbols node start)
    (hothers : ReadsConjunction config others more nodes (start.after symbols))
    (hnext : ∀ s,
      parseAndRest config (fuel + 1) start.depth none ((start.after symbols).state next) = .ok s ↔
      (do
        let (child, s) ← parseUnary config fuel start.depth none
          ((start.after symbols).state (others ++ rest))
        let (others, s) ← parseAndRest config fuel start.depth none s
        return (child :: others, s)) = .ok s)
    (htokens : 6 * tokens.length + 3 ≤ fuel + 1) :
    ∃ first others s, node :: nodes = first :: others ∧
      parseUnary config (fuel + 1) start.depth none (start.state (tokens ++ next)) =
        .ok (first, s) ∧
      parseAndRest config (fuel + 1) start.depth none s =
        .ok (others, (start.after (symbols ++ more)).state rest) := by
  obtain ⟨first, later, s, rfl, hfirst, hlater⟩ := hothers fuel rest hfuel hends
  refine ⟨node, first :: later, _, rfl, h (fuel + 1) next htokens, ?_⟩
  rw [hnext]
  change parseUnary config fuel start.depth none _ = _ at hfirst
  rw [hfirst]
  change (parseAndRest config fuel start.depth none s >>= _) = _
  change parseAndRest config fuel start.depth none s = _ at hlater
  rw [hlater, start.after_append]
  rfl

theorem reads_and {token : Token} (htoken : isOperator config token .and = true)
    (hstarts : ∀ rest, startsTerm config (others ++ rest) = true)
    (h : ReadsNegation config tokens symbols node start)
    (hothers : ReadsConjunction config others more nodes (start.after symbols)) :
    ReadsConjunction config (tokens ++ token :: others) (symbols ++ Symbol.and :: more)
      (node :: nodes) start := by
  intro fuel rest hfuel hends
  rw [List.length_append, List.length_cons] at hfuel
  obtain ⟨fuel, rfl⟩ : ∃ less, fuel = less + 1 := ⟨fuel - 1, by omega⟩
  have hafter : start.after (symbols ++ Symbol.and :: more) = start.after (symbols ++ more) := by
    rw [← start.after_append, ← start.after_append, Start.after_cons _ rfl]
  rw [hafter, List.append_assoc, List.cons_append]
  apply reads_next hends (by omega) h hothers _ (by omega)
  intro s
  rw [parseAndRest]
  change (if isOperator config token .and then
    if startsTerm config (others ++ rest) then _ else _ else _) = _ ↔ _
  rw [if_pos htoken, if_pos (hstarts rest)]
  exact Iff.rfl

theorem reads_adjacent (hstarts : ∀ rest, ∃ token tail, others ++ rest = token :: tail ∧
      startsTerm config (others ++ rest) = true ∧ isOperator config token .and = false)
    (h : ReadsNegation config tokens symbols node start)
    (hothers : ReadsConjunction config others more nodes (start.after symbols))
    (hnonempty : tokens ≠ []) :
    ReadsConjunction config (tokens ++ others) (symbols ++ more) (node :: nodes) start := by
  intro fuel rest hfuel hends
  have hpos := List.length_pos_of_ne_nil hnonempty
  rw [List.length_append] at hfuel
  obtain ⟨fuel, rfl⟩ : ∃ less, fuel = less + 1 := ⟨fuel - 1, by omega⟩
  rw [List.append_assoc]
  apply reads_next hends (by omega) h hothers _ (by omega)
  intro s
  obtain ⟨token, tail, heq, hterm, hand⟩ := hstarts rest
  rw [heq] at hterm ⊢
  rw [parseAndRest]
  change (if isOperator config token .and then _ else
    if startsTerm config (token :: tail) then _ else _) = _ ↔ _
  rw [hand, if_pos hterm]
  exact Iff.rfl

/-- A conjunction is collapsed to its only operand. -/
theorem parseAnd_of_reads {fuel : Nat} {rest : List Token}
    (h : ReadsConjunction config tokens symbols nodes start)
    (hfuel : 6 * tokens.length + 3 ≤ fuel) (hends : EndsAnd config rest) :
    parseAnd config (fuel + 1) start.depth none (start.state (tokens ++ rest)) =
      .ok (collapse .and nodes, (start.after symbols).state rest) := by
  obtain ⟨first, later, s, rfl, hfirst, hlater⟩ := h fuel rest hfuel hends
  rw [parseAnd, hfirst]
  change (parseAndRest config fuel start.depth none s >>= _) = _
  rw [hlater]
  rfl

theorem reads_alone (h : ReadsConjunction config tokens symbols nodes start) :
    ReadsDisjunction config tokens symbols [collapse .and nodes] start := by
  intro fuel rest hfuel hends
  obtain ⟨fuel, rfl⟩ : ∃ less, fuel = less + 1 := ⟨fuel - 1, by omega⟩
  exact ⟨_, [], _, rfl, parseAnd_of_reads h (by omega) hends.toEndsAnd,
    @parseOrRest_stops _ config (start.after symbols) _ rest hends⟩

theorem reads_or {token : Token} (htoken : isOperator config token .or = true)
    (hstarts : ∀ rest, startsTerm config (others ++ rest) = true)
    (h : ReadsConjunction config tokens symbols nodes start)
    (hothers : ReadsDisjunction config others more rest (start.after symbols)) :
    ReadsDisjunction config (tokens ++ token :: others) (symbols ++ Symbol.or :: more)
      (collapse .and nodes :: rest) start := by
  intro fuel tail hfuel hends
  rw [List.length_append, List.length_cons] at hfuel
  obtain ⟨fuel, rfl⟩ : ∃ less, fuel = less + 1 := ⟨fuel - 1, by omega⟩
  have hafter : start.after (symbols ++ Symbol.or :: more) = start.after (symbols ++ more) := by
    rw [← start.after_append, ← start.after_append, Start.after_cons _ rfl]
  obtain ⟨first, later, s, rfl, hfirst, hlater⟩ := hothers fuel tail (by omega) hends
  refine ⟨collapse .and nodes, first :: later,
    (start.after symbols).state (token :: (others ++ tail)), rfl, ?_, ?_⟩
  · rw [List.append_assoc, List.cons_append]
    exact parseAnd_of_reads h (by omega) (endsAnd_or htoken _)
  · rw [parseOrRest]
    change (if isOperator config token .or then
      if startsTerm config (others ++ tail) then
        parseAnd config fuel start.depth none ((start.after symbols).state (others ++ tail)) >>= _
      else _ else _) = _
    rw [if_pos htoken, if_pos (hstarts tail)]
    change parseAnd config fuel start.depth none _ = _ at hfirst
    rw [hfirst]
    change (parseOrRest config fuel start.depth none s >>= _) = _
    change parseOrRest config fuel start.depth none s = _ at hlater
    rw [hlater, hafter, start.after_append]
    rfl

/-! ## Expressions -/

theorem Start.Within.left {depth : Nat} (h : start.Within depth (symbols ++ more)) :
    start.Within depth symbols := by
  obtain ⟨hdepth, hterms⟩ := h
  rw [operands_append] at hterms
  exact ⟨hdepth, by omega⟩

theorem Start.Within.right {depth : Nat} (h : start.Within depth (symbols ++ more)) :
    (start.after symbols).Within depth more := by
  obtain ⟨hdepth, hterms⟩ := h
  rw [operands_append] at hterms
  refine ⟨hdepth, ?_⟩
  change start.terms + operands symbols + operands more ≤ maxTerms
  omega

theorem Start.Within.tail {depth : Nat} {symbol : Symbol (SearchNode ρ)}
    (h : start.Within depth (symbol :: symbols)) (hsymbol : symbol.isOperand = false) :
    start.Within depth symbols := by
  obtain ⟨hdepth, hterms⟩ := h
  rw [operands_cons hsymbol] at hterms
  exact ⟨hdepth, hterms⟩

theorem forall₂_append {α β : Type} {R : α → β → Prop} {l : List α} {first second : List β}
    (h : List.Forall₂ R l (first ++ second)) :
    ∃ a b, l = a ++ b ∧ List.Forall₂ R a first ∧ List.Forall₂ R b second :=
  ⟨l.take first.length, l.drop first.length, (List.take_append_drop ..).symm,
    List.forall₂_take_append l first second h, List.forall₂_drop_append l first second h⟩

/-- By induction on the expression: its tokens are read as its operands. -/
theorem reads_phrase {depth : Nat} {level : Level} {symbols : List (Symbol (SearchNode ρ))}
    {nodes : List (SearchNode ρ)} (h : Phrase nodeBuilder depth level symbols nodes) :
    ∀ {tokens : List Token} {start : Start}, List.Forall₂ (Stands config) tokens symbols →
      start.Within depth symbols → ReadsLevel config level tokens symbols nodes start := by
  induction h with
  | operand depth node =>
      intro tokens start htokens hwithin
      cases htokens with
      | cons htoken hnil =>
          cases hnil
          cases htoken with
          | operand hword =>
              intro other heq
              obtain ⟨rfl, -⟩ := List.cons.inj heq
              exact reads_operand hword hwithin.2
  | not h ih =>
      intro tokens start htokens hwithin
      cases htokens with
      | cons htoken hrest =>
          intro other heq
          obtain ⟨rfl, -⟩ := List.cons.inj heq
          apply reads_not htoken _ (ih hrest (hwithin.tail rfl) _ rfl)
          intro rest
          obtain ⟨-, -, -, hterm, -⟩ := Phrase.starts h hrest rest
          exact hterm
  | group h ih =>
      intro tokens start htokens hwithin
      cases htokens with
      | cons hopening hrest =>
          cases hopening with
          | opening position =>
              obtain ⟨inner, last, rfl, hinner, hlast⟩ := forall₂_append hrest
              cases hlast with
              | cons hclosing hnil =>
                  cases hnil
                  cases hclosing with
                  | closing position' =>
                      obtain ⟨hdepth, hterms⟩ := (hwithin.tail rfl).left
                      intro other heq
                      obtain ⟨rfl, -⟩ := List.cons.inj heq
                      apply reads_group (by omega)
                      apply ih hinner
                      exact ⟨by dsimp only; omega, hterms⟩
  | single h ih =>
      intro tokens start htokens hwithin
      exact reads_single (ih htokens hwithin _ rfl)
  | and h hothers ih ihothers =>
      intro tokens start htokens hwithin
      obtain ⟨left, right, rfl, hleft, hright⟩ := forall₂_append htokens
      cases hright with
      | cons htoken hright =>
          cases htoken with
          | and hand =>
              apply reads_and hand _ (ih hleft hwithin.left _ rfl)
              · exact ihothers hright (hwithin.right.tail rfl)
              · intro rest
                obtain ⟨-, -, -, hterm, -⟩ := Phrase.starts hothers hright rest
                exact hterm
  | adjacent h hothers ih ihothers =>
      intro tokens start htokens hwithin
      obtain ⟨left, right, rfl, hleft, hright⟩ := forall₂_append htokens
      apply reads_adjacent _ (ih hleft hwithin.left _ rfl) (ihothers hright hwithin.right)
      · rintro rfl
        obtain ⟨token, tail, heq, -⟩ := Phrase.starts h hleft []
        cases heq
      · intro rest
        obtain ⟨token, tail, heq, hterm, hand, -⟩ := Phrase.starts hothers hright rest
        exact ⟨token, tail, heq, hterm, hand⟩
  | alone h ih =>
      intro tokens start htokens hwithin
      exact reads_alone (ih htokens hwithin)
  | or h hothers ih ihothers =>
      intro tokens start htokens hwithin
      obtain ⟨left, right, rfl, hleft, hright⟩ := forall₂_append htokens
      cases hright with
      | cons htoken hright =>
          cases htoken with
          | or hor =>
              apply reads_or hor _ (ih hleft hwithin.left)
              · exact ihothers hright (hwithin.right.tail rfl)
              · intro rest
                obtain ⟨-, -, -, hterm, -⟩ := Phrase.starts hothers hright rest
                exact hterm

/-- A whole expression of tokens is parsed as its tree. -/
theorem parse_phrase {depth : Nat} {nodes : List (SearchNode ρ)}
    (h : Phrase nodeBuilder depth .disjunction symbols nodes)
    (htokens : List.Forall₂ (Stands config) tokens symbols) (hdepth : depth ≤ maxDepth)
    (hterms : operands symbols ≤ maxTerms) :
    parse config (parserFuel tokens) tokens = .ok (some (collapse .or nodes), []) := by
  have hwithin : (Start.mk 0 0 []).Within depth symbols :=
    ⟨by dsimp only; omega, by dsimp only; omega⟩
  obtain ⟨first, others, s, rfl, hfirst, hothers⟩ :=
    reads_phrase h htokens hwithin (6 * tokens.length + 4) [] le_rfl endsOr_nil
  have hne : tokens ≠ [] := by
    rintro rfl
    obtain ⟨token, tail, heq, -⟩ := Phrase.starts h htokens []
    cases heq
  rw [List.append_nil] at hfirst
  rw [parse, if_neg hne, parserFuel, parseOr]
  change ((parseAnd config (6 * tokens.length + 4) 0 none ⟨tokens, 0, []⟩ >>= _) >>= _) = _
  change parseAnd config (6 * tokens.length + 4) 0 none ⟨tokens, 0, []⟩ = _ at hfirst
  rw [hfirst]
  change ((parseOrRest config (6 * tokens.length + 4) 0 none s >>= _) >>= _) = _
  change parseOrRest config (6 * tokens.length + 4) 0 none s = _ at hothers
  rw [hothers]
  rfl

end BurrowGate.Search
