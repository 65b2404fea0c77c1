import BurrowGate.Form.UrlEncoded
import BurrowGate.Lib.Occurrence

/-!
# `BlockedNameScanner` of `request-input-inspector.ts`

The names are matched as they are, ignoring case: the constructor of the source escapes
what has a meaning in a regular expression. The policy only admits visible ASCII.
-/

namespace BurrowGate.Form

open Lib.Occurrence

/-- What `parseBlockedMultipartFields` admits: `/^[\x21-\x7e]{1,128}$/`. -/
structure BlockedName where
  text : Bytes
  nonempty : text ≠ []
  short : text.length ≤ 128
  visible : text.all (fun b => 0x21 ≤ b && b ≤ 0x7e) = true

/-- The case of an ASCII letter is ignored. No other Latin-1 character is a visible ASCII
character in another case. -/
def canonicalize (b : UInt8) : UInt8 := if 0x61 ≤ b && b ≤ 0x7a then b - 0x20 else b

structure BlockedNameScanner where
  names : List BlockedName
  carryLength : Nat
  carry : Bytes := []

/-- A name occurs in a text, ignoring case. -/
def Occurs (names : List BlockedName) (text : Bytes) : Prop :=
  ∃ name ∈ names, name.text.map canonicalize <:+: text.map canonicalize

namespace BlockedNameScanner

def new (names : List BlockedName) : BlockedNameScanner :=
  { names, carryLength := (names.map (·.text.length)).foldr max 0 - 1 }

/-- `pattern.test` -/
def test (names : List BlockedName) (text : Bytes) : Bool :=
  names.any fun name => text.tails.any fun rest =>
    (name.text.map canonicalize).isPrefixOf (rest.map canonicalize)

def feed (s : BlockedNameScanner) (chunk : Bytes) : Bool × BlockedNameScanner :=
  let text := s.carry ++ chunk
  (test s.names text, { s with carry := window s.carryLength text })

theorem test_iff (names : List BlockedName) (text : Bytes) :
    test names text = true ↔ Occurs names text := by
  unfold test Occurs
  rw [List.any_eq_true]
  refine exists_congr fun name => and_congr_right fun _ => ?_
  rw [List.any_eq_true]
  constructor
  · rintro ⟨rest, hrest, hmatch⟩
    obtain ⟨before, rfl⟩ := (List.mem_tails _ _).mp hrest
    rw [List.map_append]
    exact (List.isPrefixOf_iff_prefix.mp hmatch).isInfix.trans ( List.suffix_append _ _).isInfix
  · rintro ⟨before, after, hocc⟩
    refine ⟨text.drop before.length, (List.mem_tails _ _).mpr ( List.drop_suffix _ _), ?_⟩
    rw [List.isPrefixOf_iff_prefix, List.map_drop, ← hocc, List.append_assoc, List.drop_left]
    exact List.prefix_append _ _

theorem occurs_append {names : List BlockedName} {text : Bytes} (h : Occurs names text)
    (more : Bytes) : Occurs names (text ++ more) := by
  obtain ⟨name, hname, hocc⟩ := h
  refine ⟨name, hname, ?_⟩
  rw [List.map_append]
  exact hocc.trans ( List.prefix_append _ _).isInfix

theorem length_le_carryLength {names : List BlockedName} {name : BlockedName} (h : name ∈ names) :
    name.text.length ≤ (new names).carryLength + 1 := by
  have hmax : name.text.length ≤ (names.map (·.text.length)).foldr max 0 := by
    induction names with
    | nil => cases h
    | cons first rest ih =>
        rw [List.map_cons, List.foldr_cons]
        rcases List.mem_cons.mp h with rfl | h
        · exact Nat.le_max_left _ _
        · exact (ih h).trans (Nat.le_max_right _ _)
  have hpos := List.length_pos_of_ne_nil name.nonempty
  show _ ≤ (names.map (·.text.length)).foldr max 0 - 1 + 1
  omega

/-- The scanner after the bytes of a body in which no name occurs. -/
structure Watching (s : BlockedNameScanner) (names : List BlockedName) (body : Bytes) : Prop where
  names_eq : s.names = names
  carryLength : s.carryLength = (new names).carryLength
  carry : s.carry = window (new names).carryLength body
  clean : ¬Occurs names body

theorem watching_new (names : List BlockedName) : (new names).Watching names [] := by
  refine ⟨rfl, rfl, List.drop_nil.symm, ?_⟩
  rintro ⟨name, -, hocc⟩
  exact name.nonempty (List.map_eq_nil_iff.mp (List.infix_nil.mp hocc))

/-- A chunk is reported when it completes a name, wherever the name starts. -/
theorem Watching.feed {s : BlockedNameScanner} {names : List BlockedName} {body : Bytes}
    (h : s.Watching names body) (chunk : Bytes) :
    ((s.feed chunk).1 = true ↔ Occurs names (body ++ chunk)) ∧
      ((s.feed chunk).1 = false → (s.feed chunk).2.Watching names (body ++ chunk)) := by
  have hreport : (s.feed chunk).1 = true ↔ Occurs names (body ++ chunk) := by
    show test s.names (s.carry ++ chunk) = true ↔ _
    rw [test_iff, h.names_eq, h.carry]
    refine exists_congr fun name => and_congr_right fun hname => ?_
    have hclean : ¬name.text.map canonicalize <:+: body.map canonicalize :=
      fun hocc => h.clean ⟨name, hname, hocc⟩
    have hlength : (name.text.map canonicalize).length ≤ (new names).carryLength + 1 := by
      rw [List.length_map]
      exact length_le_carryLength hname
    have hwindow : (window (new names).carryLength body).map canonicalize =
        window (new names).carryLength (body.map canonicalize) := by
      rw [window, window, List.map_drop, List.length_map]
    rw [List.map_append, List.map_append, hwindow]
    exact (infix_append_iff hlength hclean).symm
  refine ⟨hreport, fun hfalse => ⟨h.names_eq, h.carryLength, ?_, ?_⟩⟩
  · show window s.carryLength (s.carry ++ chunk) = _
    rw [h.carryLength, h.carry, window_append]
  · rw [← hreport, hfalse]
    exact Bool.false_ne_true

end BlockedNameScanner

end BurrowGate.Form
