import BurrowGate.Search.Phrases

/-!
# Literal values in queries

A value is written in quotes, or with a backslash before each character. The tokenizer reads both
back, and terms that are combined with operators and parentheses give the tree of the expression.
-/

namespace BurrowGate.Search

open Js
open Lib.Precedence

variable {ρ : Type}

/-! ## Literals -/

/-- A name that `FIELD_PREFIX` takes before a colon. -/
def IsFieldName (name : List Char) : Prop :=
  name.head?.any isNameStart = true ∧ ∀ c ∈ name, isNameChar c = true

/-- A text field, by a name that is resolved to it, and the value to look for. -/
structure Literal (cases : CaseTable) (schema : SearchSchema ρ) where
  name : List Char
  field : SearchField ρ
  value : List Char
  quoted : Bool
  isFieldName : IsFieldName name
  resolves : resolveField ⟨schema, cases, 0⟩ name = some (field, none)
  textField : field.type = .text
  plain : ∀ c ∈ value, c ≠ GLOB_ANY ∧ c ≠ GLOB_ONE
  short : utf16Length value ≤ maxValueLength
  nonempty : quoted = false → value ≠ []

def escapeQuoted (c : Char) : List Char := if c = '"' ∨ c = '\\' then ['\\', c] else [c]

def escapeAlways (c : Char) : List Char := ['\\', c]

variable {cases : CaseTable} {schema : SearchSchema ρ}

/-- What stands behind the colon. -/
def Literal.valueText (literal : Literal cases schema) : List Char :=
  if literal.quoted then '"' :: (literal.value.flatMap escapeQuoted ++ ['"'])
  else literal.value.flatMap escapeAlways

def Literal.text (literal : Literal cases schema) : List Char :=
  literal.name ++ ':' :: literal.valueText

/-- The field equals the value, without wildcards. -/
def Literal.node (literal : Literal cases schema) : SearchNode ρ :=
  .field literal.field none (.equals literal.value false)

/-! ## Expressions -/

inductive Lexeme (cases : CaseTable) (schema : SearchSchema ρ)
  | term (negated : Bool) (literal : Literal cases schema)
  | and
  | or
  | not
  | dash
  | opening
  | closing

def Lexeme.text : Lexeme cases schema → List Char
  | .term true literal => '-' :: literal.text
  | .term false literal => literal.text
  | .and => "AND".toList
  | .or => "OR".toList
  | .not => "NOT".toList
  | .dash => ['-']
  | .opening => ['(']
  | .closing => [')']

def Lexeme.symbol : Lexeme cases schema → Symbol (SearchNode ρ)
  | .term true literal => .operand (.not literal.node)
  | .term false literal => .operand literal.node
  | .and => .and
  | .or => .or
  | .not => .not
  | .dash => .not
  | .opening => .opening
  | .closing => .closing

/-- A word that the next one would go on with. -/
def Lexeme.isOpen : Lexeme cases schema → Bool
  | .term _ literal => !literal.quoted
  | .opening | .closing => false
  | _ => true

def Lexeme.isWord : Lexeme cases schema → Bool
  | .opening | .closing => false
  | _ => true

/-- Lexemes, each with the white space behind it. -/
abbrev Layout (cases : CaseTable) (schema : SearchSchema ρ) : Type :=
  List (Lexeme cases schema × List Char)

def Layout.text (layout : Layout cases schema) : List Char :=
  layout.flatMap fun (lexeme, gap) => lexeme.text ++ gap

def Layout.symbols (layout : Layout cases schema) : List (Symbol (SearchNode ρ)) :=
  layout.map fun (lexeme, _) => lexeme.symbol

def IsGap (gap : List Char) : Prop := ∀ c ∈ gap, isWhiteSpace c = true

/-- There is white space between words, a quoted value before a word apart. -/
def Layout.Spaced : Layout cases schema → Prop
  | [] => True
  | (lexeme, gap) :: layout =>
      IsGap gap ∧
      (lexeme.isOpen = true → gap = [] → ∀ next ∈ layout.head?, next.1.isWord = false) ∧
      Layout.Spaced layout

/-! ## Words of the tokenizer -/

/-- A word ends before the text. -/
def Breaks (text : List Char) : Prop :=
  ∀ c ∈ text.head?, isWhiteSpace c = true ∨ c = '(' ∨ c = ')'

theorem Pending.add_add (p : Pending) (raw value raw' value' : List Char) :
    (p.add raw value).add raw' value' = p.add (raw ++ raw') (value ++ value') := by
  rw [Pending.add, Pending.add, Pending.add, List.append_assoc, List.append_assoc]

theorem Pending.add_nil (p : Pending) : p.add [] [] = p := by
  rw [Pending.add, List.append_nil, List.append_nil]

theorem tokenizeFrom_blank (pending : Option Pending) (index : Nat) {c : Char}
    (h : isWhiteSpace c = true) (rest : List Char) :
    tokenizeFrom (.plain pending) index (c :: rest) =
      (tokenizeFrom (.plain none) (index + 1) rest).map (flush pending) := by
  delta tokenizeFrom
  exact if_pos h

theorem tokenizeFrom_opening (pending : Option Pending) (index : Nat) (rest : List Char) :
    tokenizeFrom (.plain pending) index ('(' :: rest) =
      (tokenizeFrom (.plain none) (index + 1) rest).map
        (flush pending <| .opening index :: ·) := by
  delta tokenizeFrom
  exact (if_neg (by decide)).trans (if_pos rfl)

theorem tokenizeFrom_closing (pending : Option Pending) (index : Nat) (rest : List Char) :
    tokenizeFrom (.plain pending) index (')' :: rest) =
      (tokenizeFrom (.plain none) (index + 1) rest).map
        (flush pending <| .closing index :: ·) := by
  delta tokenizeFrom
  exact (if_neg (by decide)).trans ((if_neg (by decide)).trans (if_pos rfl))

/-- A dash before a character that is not white space negates the word. -/
theorem tokenizeFrom_negated (index : Nat) {c : Char} (h : isWhiteSpace c = false)
    (rest : List Char) :
    tokenizeFrom (.plain none) index ('-' :: c :: rest) =
      tokenizeFrom (.plain (some ⟨index, true, [], []⟩)) (index + 1) (c :: rest) := by
  have hdash : (Option.isNone (none : Option Pending) && decide ('-' = '-') &&
      (c :: rest).head?.any fun next => !isWhiteSpace next) = true := by
    rw [List.head?_cons, Option.any_some, h]
    rfl
  delta tokenizeFrom
  exact (if_neg (by decide)).trans ((if_neg (by decide)).trans ((if_neg (by decide)).trans
    (if_pos hdash)))

/-- Any other dash is a word of its own. -/
theorem tokenizeFrom_dash (index : Nat) {rest : List Char}
    (h : ∀ c ∈ rest.head?, isWhiteSpace c = true) :
    tokenizeFrom (.plain none) index ('-' :: rest) =
      tokenizeFrom (.plain (some ⟨index, false, ['-'], ['-']⟩)) (index + 1) rest := by
  have hdash : (Option.isNone (none : Option Pending) && decide ('-' = '-') &&
      rest.head?.any fun next => !isWhiteSpace next) = false := by
    cases rest with
    | nil => rfl
    | cons c rest =>
        rw [List.head?_cons, Option.any_some, h c rfl]
        rfl
  delta tokenizeFrom
  exact (if_neg (by decide)).trans ((if_neg (by decide)).trans ((if_neg (by decide)).trans
    ((if_neg (Bool.eq_false_iff.mp hdash)).trans ((if_neg (by decide)).trans
      (if_neg (by decide))))))

/-- A character that neither ends a word nor quotes or escapes. -/
structure Ordinary (c : Char) : Prop where
  blank : isWhiteSpace c = false
  opening : c ≠ '('
  closing : c ≠ ')'
  quote : c ≠ '"'
  slash : c ≠ '\\'

/-- A character in the middle of a word. -/
theorem tokenizeFrom_ordinary {c : Char} (h : Ordinary c) (p : Pending) (index : Nat)
    (rest : List Char) :
    tokenizeFrom (.plain (some p)) index (c :: rest) =
      tokenizeFrom (.plain (some (p.add [c] [globChar c]))) (index + utf16Length [c]) rest := by
  delta tokenizeFrom
  exact (if_neg (Bool.eq_false_iff.mp h.blank)).trans ((if_neg h.opening).trans
    ((if_neg h.closing).trans ((if_neg Bool.false_ne_true).trans ((if_neg h.quote).trans
      (if_neg h.slash)))))

/-- The first character of a word. -/
theorem tokenizeFrom_first {c : Char} (h : Ordinary c) (hdash : c ≠ '-') (index : Nat)
    (rest : List Char) :
    tokenizeFrom (.plain none) index (c :: rest) =
      tokenizeFrom (.plain (some ⟨index, false, [c], [globChar c]⟩)) (index + utf16Length [c])
        rest := by
  have hnegated : (Option.isNone (none : Option Pending) && decide (c = '-') &&
      rest.head?.any fun next => !isWhiteSpace next) = false := by
    rw [decide_eq_false hdash]
    rfl
  delta tokenizeFrom
  exact (if_neg (Bool.eq_false_iff.mp h.blank)).trans ((if_neg h.opening).trans
    ((if_neg h.closing).trans ((if_neg (Bool.eq_false_iff.mp hnegated)).trans
      ((if_neg h.quote).trans (if_neg h.slash)))))

theorem tokenizeFrom_escaped (p : Pending) (index : Nat) (c : Char) (rest : List Char) :
    tokenizeFrom (.plain (some p)) index ('\\' :: c :: rest) =
      tokenizeFrom (.plain (some (p.add ['\\', c] [c]))) (index + 1 + utf16Length [c]) rest :=
  rfl

/-- A quote behind a field's name and the colon. -/
theorem tokenizeFrom_quote {p : Pending} (h : mayQuote p.raw = true) (index : Nat)
    (rest : List Char) :
    tokenizeFrom (.plain (some p)) index ('"' :: rest) =
      tokenizeFrom (.quoted (p.add ['"'] []) index) (index + 1) rest := by
  delta tokenizeFrom
  exact (if_neg (by decide)).trans ((if_neg (by decide)).trans ((if_neg (by decide)).trans
    ((if_neg Bool.false_ne_true).trans ((if_pos rfl).trans (if_pos h)))))

theorem tokenizeFrom_quoted_escaped (p : Pending) (start index : Nat) (c : Char)
    (rest : List Char) :
    tokenizeFrom (.quoted p start) index ('\\' :: c :: rest) =
      tokenizeFrom (.quoted (p.add ['\\', c] [c]) start) (index + 1 + utf16Length [c]) rest :=
  rfl

theorem tokenizeFrom_quoted_closing (p : Pending) (start index : Nat) (rest : List Char) :
    tokenizeFrom (.quoted p start) index ('"' :: rest) =
      (tokenizeFrom (.plain none) (index + 1) rest).map
        (.word ⟨p.position, p.raw ++ ['"'], p.value ++ [], true, p.negated⟩ :: ·) := by
  delta tokenizeFrom
  exact (if_neg (by decide)).trans (if_pos rfl)

theorem tokenizeFrom_quoted_plain {c : Char} (hslash : c ≠ '\\') (hquote : c ≠ '"') (p : Pending)
    (start index : Nat) (rest : List Char) :
    tokenizeFrom (.quoted p start) index (c :: rest) =
      tokenizeFrom (.quoted (p.add [c] [c]) start) (index + utf16Length [c]) rest := by
  delta tokenizeFrom
  exact (if_neg hslash).trans (if_neg hquote)

/-- Ordinary characters go on with the word. -/
theorem tokenizeFrom_word {text : List Char} (h : ∀ c ∈ text, Ordinary c) (p : Pending)
    (index : Nat) (rest : List Char) :
    ∃ next, tokenizeFrom (.plain (some p)) index (text ++ rest) =
      tokenizeFrom (.plain (some (p.add text (text.map globChar)))) next rest := by
  induction text generalizing p index with
  | nil => exact ⟨index, by rw [List.map_nil, p.add_nil]; rfl⟩
  | cons c text ih =>
      rw [List.forall_mem_cons] at h
      obtain ⟨next, hnext⟩ := ih h.2 (p.add [c] [globChar c]) (index + utf16Length [c])
      refine ⟨next, ?_⟩
      rw [List.cons_append, tokenizeFrom_ordinary h.1, hnext, p.add_add]
      rfl

theorem tokenizeFrom_escapes (value : List Char) (p : Pending) (index : Nat) (rest : List Char) :
    ∃ next, tokenizeFrom (.plain (some p)) index (value.flatMap escapeAlways ++ rest) =
      tokenizeFrom (.plain (some (p.add (value.flatMap escapeAlways) value))) next rest := by
  induction value generalizing p index with
  | nil => exact ⟨index, by rw [List.flatMap_nil, p.add_nil]; rfl⟩
  | cons c value ih =>
      obtain ⟨next, hnext⟩ := ih (p.add ['\\', c] [c]) (index + 1 + utf16Length [c])
      refine ⟨next, ?_⟩
      change tokenizeFrom _ index ('\\' :: c :: (value.flatMap escapeAlways ++ rest)) = _
      rw [tokenizeFrom_escaped, hnext, p.add_add]
      rfl

/-- Inside the quotes, up to the closing one. -/
theorem tokenizeFrom_quoted (value : List Char) (p : Pending) (start index : Nat)
    (rest : List Char) :
    ∃ next, tokenizeFrom (.quoted p start) index (value.flatMap escapeQuoted ++ '"' :: rest) =
      (tokenizeFrom (.plain none) next rest).map
        (.word ⟨p.position, p.raw ++ (value.flatMap escapeQuoted ++ ['"']), p.value ++ value, true,
          p.negated⟩ :: ·) := by
  induction value generalizing p index with
  | nil =>
      exact ⟨index + 1, tokenizeFrom_quoted_closing p start index rest⟩
  | cons c value ih =>
      by_cases hspecial : c = '"' ∨ c = '\\'
      · obtain ⟨next, hnext⟩ := ih (p.add ['\\', c] [c]) (index + 1 + utf16Length [c])
        refine ⟨next, ?_⟩
        rw [List.flatMap_cons, escapeQuoted, if_pos hspecial]
        change tokenizeFrom _ index ('\\' :: c :: (value.flatMap escapeQuoted ++ '"' :: rest)) = _
        rw [tokenizeFrom_quoted_escaped, hnext]
        simp [Pending.add]
      · obtain ⟨next, hnext⟩ := ih (p.add [c] [c]) (index + utf16Length [c])
        refine ⟨next, ?_⟩
        rw [List.flatMap_cons, escapeQuoted, if_neg hspecial]
        rw [not_or] at hspecial
        change tokenizeFrom _ index (c :: (value.flatMap escapeQuoted ++ '"' :: rest)) = _
        rw [tokenizeFrom_quoted_plain hspecial.2 hspecial.1, hnext]
        simp [Pending.add]

/-- A word that ends gives its token. -/
theorem tokenizeFrom_flush (p : Pending) (index : Nat) {rest : List Char} (h : Breaks rest) :
    tokenizeFrom (.plain (some p)) index rest =
      (tokenizeFrom (.plain none) index rest).map (p.token :: ·) := by
  cases rest with
  | nil => rfl
  | cons c rest =>
      have hmap : ∀ (f g : List Token → List Token) (x : Tokenize),
          (x.map f).map g = x.map (g ∘ f) := by
        intro f g x
        cases x <;> rfl
      rcases h c rfl with hblank | rfl | rfl
      · rw [tokenizeFrom_blank (some p) index hblank, tokenizeFrom_blank none index hblank, hmap]
        rfl
      · rw [tokenizeFrom_opening, tokenizeFrom_opening, hmap]
        rfl
      · rw [tokenizeFrom_closing, tokenizeFrom_closing, hmap]
        rfl

theorem tokenizeFrom_gap {gap : List Char} (h : IsGap gap) (index : Nat) (rest : List Char) :
    ∃ next, tokenizeFrom (.plain none) index (gap ++ rest) =
      tokenizeFrom (.plain none) next rest := by
  induction gap generalizing index with
  | nil => exact ⟨index, rfl⟩
  | cons c gap ih =>
      obtain ⟨next, hnext⟩ := ih (fun d hd => h d (List.mem_cons_of_mem c hd)) (index + 1)
      refine ⟨next, ?_⟩
      rw [List.cons_append, tokenizeFrom_blank none index (h c List.mem_cons_self), hnext]
      cases tokenizeFrom (.plain none) next rest <;> rfl

/-! ## Names of fields -/

theorem isAscii_of_isNameChar {c : Char} (h : isNameChar c = true) : isAscii c = true := by
  have hle : ∀ {high : Char}, c ≤ high → high.val.toNat ≤ 0x7f → isAscii c = true := by
    intro high hc hhigh
    have hc' : c.val.toNat ≤ high.val.toNat := UInt32.le_iff_toNat_le.mp (Char.le_def.mp hc)
    exact decide_eq_true (UInt32.le_iff_toNat_le.mpr (le_trans hc' hhigh))
  rw [isNameChar, isNameStart, isDigit] at h
  simp only [Bool.or_eq_true, Bool.and_eq_true, decide_eq_true_eq] at h
  rcases h with (((⟨-, h⟩ | ⟨-, h⟩) | rfl) | ⟨-, h⟩) | rfl
  · exact hle h (by decide)
  · exact hle h (by decide)
  · decide
  · exact hle h (by decide)
  · decide

/-- Such a character is read as it stands. -/
structure Verbatim (c : Char) : Prop extends Ordinary c where
  dash : c ≠ '-'
  glob : globChar c = c
  any : c ≠ GLOB_ANY
  one : c ≠ GLOB_ONE

theorem verbatim_of_isNameChar {c : Char} (h : isNameChar c = true) : Verbatim c := by
  obtain ⟨hblank, hopening, hclosing, hquote, hslash, hdash, hglob, hany, hone⟩ :=
    of_isAscii (P := fun c => isNameChar c = true → isWhiteSpace c = false ∧ c ≠ '(' ∧ c ≠ ')' ∧
      c ≠ '"' ∧ c ≠ '\\' ∧ c ≠ '-' ∧ globChar c = c ∧ c ≠ GLOB_ANY ∧ c ≠ GLOB_ONE)
      (by decide) (isAscii_of_isNameChar h) h
  exact ⟨⟨hblank, hopening, hclosing, hquote, hslash⟩, hdash, hglob, hany, hone⟩

theorem verbatim_colon : Verbatim ':' :=
  ⟨⟨by decide, by decide, by decide, by decide, by decide⟩, by decide, by decide, by decide,
    by decide⟩

theorem map_globChar {text : List Char} (h : ∀ c ∈ text, Verbatim c) :
    text.map globChar = text := by
  rw [List.map_congr_left fun c hc => (h c hc).glob]
  exact List.map_id text

/-- A word begins. -/
theorem tokenizeFrom_start {text : List Char} (h : ∀ c ∈ text, Verbatim c) (hne : text ≠ [])
    (index : Nat) (rest : List Char) :
    ∃ next, tokenizeFrom (.plain none) index (text ++ rest) =
      tokenizeFrom (.plain (some ⟨index, false, text, text⟩)) next rest := by
  cases text with
  | nil => exact absurd rfl hne
  | cons c text =>
      rw [List.forall_mem_cons] at h
      obtain ⟨next, hnext⟩ := tokenizeFrom_word (fun d hd => (h.2 d hd).toOrdinary)
        ⟨index, false, [c], [globChar c]⟩ (index + utf16Length [c]) rest
      refine ⟨next, ?_⟩
      rw [List.cons_append, tokenizeFrom_first h.1.toOrdinary h.1.dash, hnext, h.1.glob,
        Pending.add, map_globChar h.2]
      rfl

theorem fieldPrefix_name {name : List Char} (h : IsFieldName name) (rest : List Char) :
    fieldPrefix (name ++ ':' :: rest) = some (name, rest) := by
  have hhead : (name ++ ':' :: rest).head?.any isNameStart = true := by
    cases name with
    | nil => cases h.1
    | cons c name => exact h.1
  have hdrop : (name ++ ':' :: rest).dropWhile isNameChar = ':' :: rest := by
    rw [List.dropWhile_append_of_pos h.2]
    rfl
  have htake : (name ++ ':' :: rest).takeWhile isNameChar = name := by
    rw [List.takeWhile_append_of_pos h.2]
    exact List.append_nil name
  rw [fieldPrefix, if_pos hhead, hdrop, htake]
  rfl

theorem mayQuote_name {name : List Char} (h : IsFieldName name) :
    mayQuote (name ++ [':']) = true := by
  rw [mayQuote, fieldPrefix_name h []]
  simp

/-! ## Tokens of lexemes -/

/-- The token of the lexeme at a position. -/
def Lexeme.token (lexeme : Lexeme cases schema) (position : Nat) : Token :=
  match lexeme with
  | .term negated literal =>
      .word ⟨position, literal.text, literal.name ++ ':' :: literal.value, literal.quoted, negated⟩
  | .and => .word ⟨position, "AND".toList, "AND".toList, false, false⟩
  | .or => .word ⟨position, "OR".toList, "OR".toList, false, false⟩
  | .not => .word ⟨position, "NOT".toList, "NOT".toList, false, false⟩
  | .dash => .word ⟨position, ['-'], ['-'], false, false⟩
  | .opening => .opening position
  | .closing => .closing position

/-- The value of a term, behind the name and the colon. -/
theorem tokenizeFrom_value (literal : Literal cases schema) (position : Nat) (negated : Bool)
    (index : Nat) {rest : List Char} (hrest : literal.quoted = false → Breaks rest) :
    ∃ next, tokenizeFrom
        (.plain (some ⟨position, negated, literal.name ++ [':'], literal.name ++ [':']⟩)) index
        (literal.valueText ++ rest) =
      (tokenizeFrom (.plain none) next rest).map
        ((Lexeme.term negated literal).token position :: ·) := by
  rw [Lexeme.token, Literal.text, Literal.valueText]
  cases hquoted : literal.quoted with
  | true =>
      obtain ⟨next, hnext⟩ := tokenizeFrom_quoted literal.value
        (Pending.add ⟨position, negated, literal.name ++ [':'], literal.name ++ [':']⟩ ['"'] [])
        index (index + 1) rest
      refine ⟨next, ?_⟩
      rw [if_pos rfl, List.cons_append, List.append_assoc, List.singleton_append,
        tokenizeFrom_quote (mayQuote_name literal.isFieldName), hnext]
      simp [Pending.add]
  | false =>
      obtain ⟨next, hnext⟩ := tokenizeFrom_escapes literal.value
        ⟨position, negated, literal.name ++ [':'], literal.name ++ [':']⟩ index rest
      refine ⟨next, ?_⟩
      rw [if_neg Bool.false_ne_true, hnext, tokenizeFrom_flush _ next (hrest hquoted)]
      simp [Pending.token, Pending.add]

theorem tokenizeFrom_term (literal : Literal cases schema) (negated : Bool) (index : Nat)
    {rest : List Char} (hrest : literal.quoted = false → Breaks rest) :
    ∃ next, tokenizeFrom (.plain none) index ((Lexeme.term negated literal).text ++ rest) =
      (tokenizeFrom (.plain none) next rest).map
        ((Lexeme.term negated literal).token index :: ·) := by
  have hname : ∀ c ∈ literal.name ++ [':'], Verbatim c := by
    intro c hc
    rcases List.mem_snoc.mp hc with hc | hc
    · exact verbatim_of_isNameChar (literal.isFieldName.2 c hc)
    · rw [hc]
      exact verbatim_colon
  have htext : ∀ tail, literal.text ++ tail =
      (literal.name ++ [':']) ++ (literal.valueText ++ tail) := by
    intro tail
    simp [Literal.text]
  cases negated with
  | false =>
      obtain ⟨middle, hmiddle⟩ := tokenizeFrom_start hname (by simp) index
        (literal.valueText ++ rest)
      obtain ⟨next, hnext⟩ := tokenizeFrom_value literal index false middle hrest
      refine ⟨next, ?_⟩
      rw [Lexeme.text, htext, hmiddle, hnext]
  | true =>
      obtain ⟨middle, hmiddle⟩ := tokenizeFrom_word (fun c hc => (hname c hc).toOrdinary)
        ⟨index, true, [], []⟩ (index + 1) (literal.valueText ++ rest)
      obtain ⟨next, hnext⟩ := tokenizeFrom_value literal index true middle hrest
      refine ⟨next, ?_⟩
      obtain ⟨c, name, hcons⟩ : ∃ c name, literal.name ++ [':'] = c :: name := by
        cases literal.name with
        | nil => exact ⟨_, _, rfl⟩
        | cons c name => exact ⟨_, _, rfl⟩
      have hblank : isWhiteSpace c = false := by
        rw [hcons] at hname
        exact (hname c List.mem_cons_self).blank
      rw [Lexeme.text, List.cons_append, htext]
      rw [hcons, List.cons_append, tokenizeFrom_negated index hblank, ← List.cons_append, ← hcons,
        hmiddle, Pending.add, map_globChar hname]
      exact hnext

/-- An operator is a word of letters. -/
theorem tokenizeFrom_operator {text : List Char} (h : ∀ c ∈ text, Verbatim c) (hne : text ≠ [])
    (index : Nat) {rest : List Char} (hrest : Breaks rest) :
    ∃ next, tokenizeFrom (.plain none) index (text ++ rest) =
      (tokenizeFrom (.plain none) next rest).map
        (.word ⟨index, text, text, false, false⟩ :: ·) := by
  obtain ⟨next, hnext⟩ := tokenizeFrom_start h hne index rest
  refine ⟨next, ?_⟩
  rw [hnext, tokenizeFrom_flush _ next hrest, Pending.token, if_neg hne]

/-- A dash with a break behind it stands for itself. -/
theorem tokenizeFrom_single_dash (index : Nat) {rest : List Char} (hrest : Breaks rest) :
    ∃ next, tokenizeFrom (.plain none) index ('-' :: rest) =
      (tokenizeFrom (.plain none) next rest).map
        (.word ⟨index, ['-'], ['-'], false, false⟩ :: ·) := by
  refine ⟨index + 1, ?_⟩
  by_cases hblank : ∀ c ∈ rest.head?, isWhiteSpace c = true
  · rw [tokenizeFrom_dash index hblank, tokenizeFrom_flush _ _ hrest]
    rfl
  · cases rest with
    | nil => exact absurd (fun c hc => by cases hc) hblank
    | cons c rest =>
        have hc : isWhiteSpace c = false := by
          rw [Bool.eq_false_iff]
          intro hc
          apply hblank
          intro d hd
          obtain rfl := Option.some.inj hd
          exact hc
        rw [tokenizeFrom_negated index hc, tokenizeFrom_flush _ _ hrest]
        rfl

theorem operator_verbatim (operator : Operator) :
    (∀ c ∈ operator.text, Verbatim c) ∧ operator.text ≠ [] := by
  have hname : operator.text.all isNameChar = true := by cases operator <;> decide
  constructor
  · intro c hc
    exact verbatim_of_isNameChar (List.all_eq_true.mp hname c hc)
  · cases operator <;> decide

theorem tokenizeFrom_lexeme (lexeme : Lexeme cases schema) (index : Nat) {rest : List Char}
    (hrest : lexeme.isOpen = true → Breaks rest) :
    ∃ next, tokenizeFrom (.plain none) index (lexeme.text ++ rest) =
      (tokenizeFrom (.plain none) next rest).map (lexeme.token index :: ·) := by
  cases lexeme with
  | term negated literal =>
      apply tokenizeFrom_term literal negated index
      intro hquoted
      exact hrest (by rw [Lexeme.isOpen, hquoted]; rfl)
  | and =>
      obtain ⟨hverbatim, hne⟩ := operator_verbatim .and
      exact tokenizeFrom_operator hverbatim hne index (hrest rfl)
  | or =>
      obtain ⟨hverbatim, hne⟩ := operator_verbatim .or
      exact tokenizeFrom_operator hverbatim hne index (hrest rfl)
  | not =>
      obtain ⟨hverbatim, hne⟩ := operator_verbatim .not
      exact tokenizeFrom_operator hverbatim hne index (hrest rfl)
  | dash => exact tokenizeFrom_single_dash index (hrest rfl)
  | opening => exact ⟨index + 1, tokenizeFrom_opening none index rest⟩
  | closing => exact ⟨index + 1, tokenizeFrom_closing none index rest⟩

/-- The token is the lexeme's. -/
def IsToken (token : Token) (lexeme : Lexeme cases schema) : Prop :=
  ∃ position, token = lexeme.token position

theorem breaks_layout {lexeme : Lexeme cases schema} {gap : List Char}
    {layout : Layout cases schema} (h : Layout.Spaced ((lexeme, gap) :: layout)) (hopen : lexeme.isOpen = true) :
    Breaks (gap ++ layout.text) := by
  obtain ⟨hgap, hnext, -⟩ := h
  cases gap with
  | cons c gap =>
      intro d hd
      obtain rfl := Option.some.inj hd
      exact .inl (hgap c List.mem_cons_self)
  | nil =>
      cases layout with
      | nil =>
          intro d hd
          cases hd
      | cons next layout =>
          obtain ⟨next, gap⟩ := next
          have hword := hnext hopen rfl _ rfl
          cases next with
          | opening =>
              intro d hd
              obtain rfl := Option.some.inj hd
              exact .inr (.inl rfl)
          | closing =>
              intro d hd
              obtain rfl := Option.some.inj hd
              exact .inr (.inr rfl)
          | _ => cases hword

/-- By induction on the layout: every lexeme gives its token. -/
theorem tokenizeFrom_layout {layout : Layout cases schema} (h : layout.Spaced) (index : Nat) :
    ∃ tokens, tokenizeFrom (.plain none) index layout.text = .ok tokens ∧
      List.Forall₂ IsToken tokens (layout.map Prod.fst) := by
  induction layout generalizing index with
  | nil => exact ⟨[], rfl, .nil⟩
  | cons first layout ih =>
      obtain ⟨lexeme, gap⟩ := first
      obtain ⟨middle, hmiddle⟩ := tokenizeFrom_lexeme lexeme index (breaks_layout h)
      obtain ⟨next, hnext⟩ := tokenizeFrom_gap h.1 middle (Layout.text layout)
      obtain ⟨tokens, htokens, hall⟩ := ih h.2.2 next
      refine ⟨lexeme.token index :: tokens, ?_, .cons ⟨index, rfl⟩ hall⟩
      have htext : Layout.text ((lexeme, gap) :: layout) =
          lexeme.text ++ (gap ++ Layout.text layout) := by
        rw [Layout.text, List.flatMap_cons, List.append_assoc]
        rfl
      rw [htext, hmiddle, hnext, htokens]
      rfl

/-! ## Terms -/

theorem unglob_plain {value : List Char} (h : ∀ c ∈ value, c ≠ GLOB_ANY ∧ c ≠ GLOB_ONE) :
    unglob value = value := by
  have hmap : ∀ c ∈ value,
      (if c = GLOB_ANY then '*' else if c = GLOB_ONE then '?' else c) = id c := by
    intro c hc
    rw [if_neg (h c hc).1, if_neg (h c hc).2]
    rfl
  rw [unglob, List.map_congr_left hmap, List.map_id]

theorem parseValue_literal (literal : Literal cases schema) (position : Nat) :
    parseValue cases literal.field literal.value literal.quoted position =
      .ok (.equals literal.value false) := by
  have hshort := not_lt.mpr literal.short
  have hany : GLOB_ANY ∉ literal.value := fun h => (literal.plain _ h).1 rfl
  have hone : GLOB_ONE ∉ literal.value := fun h => (literal.plain _ h).2 rfl
  have hexists : literal.value ≠ [GLOB_ANY] := by
    intro h
    rw [h] at hany
    exact hany List.mem_cons_self
  have hglob : hasGlob literal.value = false := by
    rw [hasGlob, Bool.or_eq_false_iff, List.contains_eq_mem, List.contains_eq_mem]
    exact ⟨decide_eq_false hany, decide_eq_false hone⟩
  have hnumeric : SearchFieldType.isNumeric .text = false := by decide
  rw [parseValue, if_neg hshort, literal.textField, hglob, hnumeric]
  simp [hexists, unglob_plain literal.plain]

variable (lastPosition : Nat)

theorem colon_mem_toUpperCase (literal : Literal cases schema) :
    ':' ∈ cases.toUpperCase literal.text := by
  rw [CaseTable.toUpperCase, Literal.text, List.flatMap_append, List.flatMap_cons,
    cases.upper_ascii ':' (by decide)]
  exact List.mem_append_right _ (List.mem_append_left _ List.mem_cons_self)

theorem valueText_ne_nil (literal : Literal cases schema) :
    literal.valueText ≠ [] ∧ notAField literal.valueText = false := by
  rw [Literal.valueText]
  cases hquoted : literal.quoted with
  | true => exact ⟨List.cons_ne_nil _ _, rfl⟩
  | false =>
      cases hvalue : literal.value with
      | nil => exact absurd hvalue (literal.nonempty hquoted)
      | cons c value => exact ⟨List.cons_ne_nil _ _, rfl⟩

theorem termWord (literal : Literal cases schema) (position : Nat) (negated : Bool) :
    TermWord ⟨schema, cases, lastPosition⟩
      ⟨position, literal.text, literal.name ++ ':' :: literal.value, literal.quoted, negated⟩
      (if negated then .not literal.node else literal.node) where
  no_operator operator := by
    have hne : cases.toUpperCase literal.text ≠ operator.text := by
      intro h
      have hmem := colon_mem_toUpperCase literal
      rw [h] at hmem
      cases operator <;> exact absurd hmem (by decide)
    rw [isOperator, decide_eq_false hne, Bool.and_false]
  no_dash := by
    have hne : literal.text ≠ ['-'] := by
      intro h
      have hmem : ':' ∈ literal.text := List.mem_append_right _ List.mem_cons_self
      rw [h] at hmem
      exact absurd hmem (by decide)
    rw [isDash, decide_eq_false hne, Bool.false_and]
  parses fuel depth s hterms := by
    obtain ⟨hne, hfield⟩ := valueText_ne_nil literal
    have hprefixed : fieldPrefix literal.text = some (literal.name, literal.valueText) :=
      fieldPrefix_name literal.isFieldName literal.valueText
    have hresolves : resolveField ⟨schema, cases, lastPosition⟩ literal.name =
        some (literal.field, none) := literal.resolves
    have hdrop : (literal.name ++ ':' :: literal.value).drop (literal.name.length + 1) =
        literal.value := by
      rw [List.drop_append, List.drop_of_length_le (Nat.le_succ _), Nat.add_sub_cancel_left]
      rfl
    rw [parsePrimary.eq_def]
    dsimp only
    rw [parseWord.eq_def]
    dsimp only
    rw [hprefixed]
    dsimp only
    rw [if_neg (Bool.eq_false_iff.mp hfield), hresolves]
    dsimp only
    rw [if_neg hne, fieldTerm, countTerm, if_neg (not_lt.mpr hterms), hdrop]
    dsimp only
    rw [parseValue_literal]
    rfl

/-! ## Expressions of literals -/

theorem toUpperCase_operator (operator : Operator) :
    cases.toUpperCase operator.text = operator.text := by
  have hupper : ∀ {text : List Char}, text.all (fun c => isAscii c && asciiUpper c = c) = true →
      cases.toUpperCase text = text := by
    intro text h
    induction text with
    | nil => rfl
    | cons c text ih =>
        rw [List.all_cons, Bool.and_eq_true, Bool.and_eq_true, decide_eq_true_iff] at h
        obtain ⟨⟨hascii, hself⟩, htext⟩ := h
        have hrest := ih htext
        rw [CaseTable.toUpperCase] at hrest ⊢
        rw [List.flatMap_cons, hrest, cases.upper_ascii c hascii, hself]
        rfl
  apply hupper
  cases operator <;> decide

theorem isOperator_of_text (operator : Operator) (position : Nat) :
    isOperator (⟨schema, cases, lastPosition⟩ : ParserConfig ρ)
      (.word ⟨position, operator.text, operator.text, false, false⟩) operator = true := by
  rw [isOperator, toUpperCase_operator, decide_eq_true rfl]
  rfl

theorem stands {token : Token} {lexeme : Lexeme cases schema} (h : IsToken token lexeme) :
    Stands ⟨schema, cases, lastPosition⟩ token lexeme.symbol := by
  obtain ⟨position, rfl⟩ := h
  cases lexeme with
  | term negated literal =>
      cases negated with
      | true => exact .operand (termWord lastPosition literal position true)
      | false => exact .operand (termWord lastPosition literal position false)
  | and => exact .and (isOperator_of_text lastPosition .and position)
  | or => exact .or (isOperator_of_text lastPosition .or position)
  | not => exact .not (isOperator_of_text lastPosition .not position)
  | dash => exact .dash rfl
  | opening => exact .opening position
  | closing => exact .closing position

/-- What `parseSearch` would take out of a query. -/
def NoGlob (text : List Char) : Prop := ∀ c ∈ text, c ≠ GLOB_ANY ∧ c ≠ GLOB_ONE

theorem noGlob_of_all {text : List Char}
    (h : (text.all fun c => c ≠ GLOB_ANY && c ≠ GLOB_ONE) = true) : NoGlob text := by
  intro c hc
  have hchar := List.all_eq_true.mp h c hc
  rwa [Bool.and_eq_true, decide_eq_true_iff, decide_eq_true_iff] at hchar

theorem NoGlob.append {text more : List Char} (h : NoGlob text) (hmore : NoGlob more) :
    NoGlob (text ++ more) :=
  List.forall_mem_append.mpr ⟨h, hmore⟩

theorem NoGlob.flatMap {value : List Char} (h : NoGlob value) {escape : Char → List Char}
    (hescape : ∀ c, ∀ d ∈ escape c, d = '\\' ∨ d = c) : NoGlob (value.flatMap escape) := by
  intro d hd
  obtain ⟨c, hc, hd⟩ := List.mem_flatMap.mp hd
  rcases hescape c d hd with rfl | rfl
  · decide
  · exact h d hc

theorem noGlob_gap {gap : List Char} (h : IsGap gap) : NoGlob gap := by
  intro c hc
  have hblank := h c hc
  constructor
  · rintro rfl
    exact absurd hblank (by decide)
  · rintro rfl
    exact absurd hblank (by decide)

theorem noGlob_literal (literal : Literal cases schema) : NoGlob literal.text := by
  have hname : NoGlob literal.name := by
    intro c hc
    have hverbatim := verbatim_of_isNameChar (literal.isFieldName.2 c hc)
    exact ⟨hverbatim.any, hverbatim.one⟩
  have hvalue : NoGlob literal.valueText := by
    rw [Literal.valueText]
    split
    · have hquotes : NoGlob ['"'] := noGlob_of_all rfl
      have hescaped : NoGlob (literal.value.flatMap escapeQuoted) := by
        apply NoGlob.flatMap literal.plain
        intro c d hd
        unfold escapeQuoted at hd
        split at hd
        · simpa using hd
        · exact .inr (List.mem_singleton.mp hd)
      exact hquotes.append (hescaped.append hquotes)
    · apply NoGlob.flatMap literal.plain
      intro c d hd
      simpa [escapeAlways] using hd
  have hcolon : NoGlob [':'] := noGlob_of_all rfl
  exact hname.append (hcolon.append hvalue)

theorem noGlob_lexeme (lexeme : Lexeme cases schema) : NoGlob lexeme.text := by
  cases lexeme with
  | term negated literal =>
      cases negated with
      | true =>
          have hdash : NoGlob ['-'] := noGlob_of_all rfl
          exact hdash.append (noGlob_literal literal)
      | false => exact noGlob_literal literal
  | _ => exact noGlob_of_all rfl

theorem noGlob_layout {layout : Layout cases schema} (h : layout.Spaced) :
    NoGlob layout.text := by
  induction layout with
  | nil =>
      intro c hc
      cases hc
  | cons first layout ih =>
      obtain ⟨lexeme, gap⟩ := first
      exact ((noGlob_lexeme lexeme).append (noGlob_gap h.1)).append (ih h.2.2)

theorem parseSearch_layout {lead : List Char} {layout : Layout cases schema}
    {nodes : List (SearchNode ρ)} (hlead : IsGap lead) (hspaced : layout.Spaced)
    (hphrase : Phrase nodeBuilder maxDepth .disjunction layout.symbols nodes)
    (hterms : operands layout.symbols ≤ maxTerms)
    (hlength : utf16Length (lead ++ layout.text) ≤ maxLength) :
    parseSearch cases schema (lead ++ layout.text) = .ok ⟨some (collapse .or nodes), []⟩ := by
  have hsource : (lead ++ layout.text).filter (fun c => c ≠ GLOB_ANY && c ≠ GLOB_ONE) =
      lead ++ layout.text := by
    rw [List.filter_eq_self]
    intro c hc
    obtain ⟨hany, hone⟩ := (noGlob_gap hlead).append (noGlob_layout hspaced) c hc
    rw [decide_eq_true hany, decide_eq_true hone]
    rfl
  obtain ⟨start, hstart⟩ := tokenizeFrom_gap hlead 0 layout.text
  obtain ⟨tokens, htokens, hall⟩ := tokenizeFrom_layout hspaced start
  have hstands : List.Forall₂
      (Stands ⟨schema, cases, (tokens.getLast?.map Token.position).getD 0⟩) tokens
      layout.symbols := by
    have hmap : layout.symbols = (layout.map Prod.fst).map Lexeme.symbol := by
      rw [List.map_map]
      rfl
    rw [hmap, List.forall₂_map_right_iff]
    exact hall.imp fun token lexeme h => stands _ h
  have hparse := parse_phrase hphrase hstands le_rfl hterms
  rw [parseSearch]
  dsimp only
  rw [hsource, if_neg (not_lt.mpr hlength), tokenize, hstart, htokens]
  change (parse _ (parserFuel tokens) tokens >>= _) = _
  rw [hparse]
  rfl

/-- Both spellings of a literal give its term, and expressions of literals the tree of the
grammar. -/
theorem literal_search (cases : CaseTable) (schema : SearchSchema ρ) :
    (∀ literal : Literal cases schema, utf16Length literal.text ≤ maxLength →
      parseSearch cases schema literal.text = .ok ⟨some literal.node, []⟩) ∧
    ∀ (lead : List Char) (layout : Layout cases schema) (nodes : List (SearchNode ρ)),
      IsGap lead → layout.Spaced →
      Phrase nodeBuilder maxDepth .disjunction layout.symbols nodes →
      operands layout.symbols ≤ maxTerms → utf16Length (lead ++ layout.text) ≤ maxLength →
      parseSearch cases schema (lead ++ layout.text) = .ok ⟨some (collapse .or nodes), []⟩ := by
  constructor
  · intro literal hlength
    have htext : Layout.text [(Lexeme.term false literal, [])] = literal.text := by
      simp [Layout.text, Lexeme.text]
    have hnone : IsGap [] := by
      intro c hc
      cases hc
    have hspaced : Layout.Spaced [(Lexeme.term false literal, [])] := by
      refine ⟨hnone, ?_, trivial⟩
      intro _ _ next hnext
      cases hnext
    have hterms : operands (Layout.symbols [(Lexeme.term false literal, [])]) ≤ maxTerms := by
      change 0 + 1 ≤ 64
      omega
    have hparse := @parseSearch_layout ρ cases schema [] _ _ hnone hspaced
      (.alone (.single (.operand _ literal.node))) hterms (by rw [htext]; exact hlength)
    rw [htext] at hparse
    exact hparse
  · intro lead layout nodes hlead hspaced hphrase hterms hlength
    exact parseSearch_layout hlead hspaced hphrase hterms hlength

/-! ## Rows with a path and an agent -/

def agentPath : SearchField Unit := ⟨"path".toList, [], .text, none, none⟩

def agentField : SearchField Unit := ⟨"user-agent".toList, [], .text, none, none⟩

def agentSchema : SearchSchema Unit := ⟨[agentPath, agentField], [], [], none, none⟩

theorem isFieldName_path : IsFieldName "path".toList :=
  ⟨by decide, fun c hc => List.all_eq_true.mp (by decide : "path".toList.all isNameChar = true) c hc⟩

def pathLiteral (value : List Char) (quoted : Bool) (plain : NoGlob value)
    (short : utf16Length value ≤ maxValueLength) (nonempty : quoted = false → value ≠ []) :
    Literal asciiCases agentSchema :=
  ⟨"path".toList, agentPath, value, quoted, isFieldName_path, rfl, rfl, plain, short, nonempty⟩

def quotedLiteral : Literal asciiCases agentSchema :=
  pathLiteral "a b".toList true (noGlob_of_all (by decide)) (by decide) (fun h => by cases h)

def starLiteral : Literal asciiCases agentSchema :=
  pathLiteral ['*'] false (noGlob_of_all (by decide)) (by decide) (fun _ => by decide)

/-- `NOT (path:"a b" OR -path:\*)` -/
def negatedGroup : Layout asciiCases agentSchema :=
  [(.not, [' ']), (.opening, []), (.term false quotedLiteral, [' ']), (.or, [' ']),
    (.term true starLiteral, []), (.closing, [])]

theorem literal_search_group :
    parseSearch asciiCases agentSchema ([] ++ negatedGroup.text) =
      .ok ⟨some (.not (.or [quotedLiteral.node, .not starLiteral.node])), []⟩ := by
  have hphrase : Phrase nodeBuilder maxDepth .disjunction negatedGroup.symbols
      [collapse .and [.not (collapse .or [collapse .and [quotedLiteral.node],
        collapse .and [.not starLiteral.node]])]] :=
    .alone (.single (.not (.group (.or (.single (.operand _ quotedLiteral.node))
      (.alone (.single (.operand _ (.not starLiteral.node))))))))
  have hspaced : negatedGroup.Spaced := by
    simp [negatedGroup, Layout.Spaced, IsGap, Lexeme.isOpen, Lexeme.isWord, isWhiteSpace]
  exact (literal_search asciiCases agentSchema).2 [] negatedGroup _ (fun c hc => by cases hc)
    hspaced hphrase (by decide) (by decide +kernel)

def longLiteral : Literal asciiCases agentSchema :=
  pathLiteral (List.replicate 512 'a') true (noGlob_of_all (by decide +kernel)) (by decide +kernel)
    (fun h => by cases h)

/-- Four terms side by side. -/
def longQuery : Layout asciiCases agentSchema :=
  [(.term false longLiteral, [' ']), (.term false longLiteral, [' ']),
    (.term false longLiteral, [' ']), (.term false longLiteral, [])]

def isNegatedText (text : List Char) : SearchNode Unit → Bool
  | .not (.text value) => value = text
  | _ => false

/-- Within the limits of depth and terms a query can be too long; a dash negates what follows it
once, and a name that is no identifier cannot be written before a value. -/
theorem literal_search_limits :
    (longQuery.Spaced ∧
      (∃ nodes, Phrase nodeBuilder maxDepth .disjunction longQuery.symbols nodes) ∧
      operands longQuery.symbols ≤ maxTerms ∧
      parseSearch asciiCases agentSchema longQuery.text =
        .error (.syntaxError ⟨"Queries can be at most 2000 characters".toList, maxLength⟩)) ∧
    ((parseSearch asciiCases agentSchema "--path:\\a".toList).toOption.any fun parsed =>
      parsed.node.any (isNegatedText "-path:a".toList)) = true ∧
    (parseSearch asciiCases agentSchema "user-agent:\"a\"".toList).toOption.isNone = true := by
  refine ⟨⟨?_, ⟨[collapse .and (List.replicate 4 longLiteral.node)], ?_⟩, by decide, ?_⟩,
    by decide +kernel, by decide +kernel⟩
  · simp [longQuery, Layout.Spaced, IsGap, Lexeme.isWord, isWhiteSpace]
  · have hterm : Phrase nodeBuilder maxDepth .negation [.operand longLiteral.node]
        [longLiteral.node] := .operand _ longLiteral.node
    exact .alone (.adjacent hterm (.adjacent hterm (.adjacent hterm (.single hterm))))
  · have hlong : maxLength < utf16Length (longQuery.text.filter fun c =>
        c ≠ GLOB_ANY && c ≠ GLOB_ONE) := by
      decide +kernel
    rw [parseSearch]
    dsimp only
    rw [if_pos hlong]
    rfl

end BurrowGate.Search
