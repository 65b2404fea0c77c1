import BurrowGate.Js.TextCoding

/-!
# `decodeURIComponent`

The escapes of a text are read first, and the bytes they stand for are decoded as UTF-8 where
they follow each other. Both fail as a whole, so how a text is decoded where it is cut in two
depends on the first part alone.
-/

namespace BurrowGate.Js

/-- A character that stands for itself, or the byte of an escape. -/
inductive UriUnit
  | literal (c : Char)
  | escaped (byte : UInt8)

def hexByte (high low : Char) : Option UInt8 := do
  let h ← digitValue high
  let l ← digitValue low
  return UInt8.ofNat (h * 16 + l)

/-- `none` where a percent sign is not followed by two hexadecimal digits. -/
def uriUnits : List Char → Option (List UriUnit)
  | [] => some []
  | c :: cs =>
      if c = '%' then
        match cs with
        | high :: low :: rest =>
            (hexByte high low).bind fun byte => (uriUnits rest).map (.escaped byte :: ·)
        | _ => none
      else (uriUnits cs).map (.literal c :: ·)

/-- The strict decoder: a sequence that has begun is completed by the next escapes. -/
def decodeUnits : Option Utf8Sequence → List UriUnit → Option (List Char)
  | none, [] => some []
  | some _, [] => none
  | none, .literal c :: units => (decodeUnits none units).map (c :: ·)
  | some _, .literal _ :: _ => none
  | none, .escaped b :: units =>
      if b ≤ 0x7f then (decodeUnits none units).map (Char.ofNat b.toNat :: ·)
      else
        match (leadByte b).2 with
        | none => none
        | some s => decodeUnits (some s) units
  | some s, .escaped b :: units =>
      if s.lower ≤ b ∧ b ≤ s.upper then
        let codePoint := s.codePoint * 64 + (b.toNat - 0x80)
        if s.needed = 1 then (decodeUnits none units).map (Char.ofNat codePoint :: ·)
        else decodeUnits (some ⟨codePoint, s.needed - 1, 0x80, 0xbf⟩) units
      else none

/-- `none` is the `URIError`. -/
def decodeURIComponent (cs : List Char) : Option (List Char) :=
  (uriUnits cs).bind (decodeUnits none)

theorem uriUnits_literal {c : Char} (h : c ≠ '%') (cs : List Char) :
    uriUnits (c :: cs) = (uriUnits cs).map (.literal c :: ·) := by
  rw [uriUnits.eq_def]
  exact if_neg h

theorem uriUnits_escape (high low : Char) (rest : List Char) :
    uriUnits ('%' :: high :: low :: rest) =
      (hexByte high low).bind fun byte => (uriUnits rest).map (.escaped byte :: ·) := by
  rw [uriUnits.eq_def]
  exact if_pos rfl

/-- What a text begins with. -/
inductive UriText : List Char → Prop
  | nil : UriText []
  | escape (high low : Char) (rest : List Char) : UriText rest →
      UriText ('%' :: high :: low :: rest)
  | broken (cs : List Char) : cs.length < 2 → UriText ('%' :: cs)
  | literal (c : Char) (cs : List Char) : c ≠ '%' → UriText cs → UriText (c :: cs)

theorem uriText (cs : List Char) : UriText cs := by
  induction h : cs.length using Nat.strongRecOn generalizing cs with
  | ind n ih =>
      cases cs with
      | nil => exact .nil
      | cons c cs =>
          rw [List.length_cons] at h
          by_cases hc : c = '%'
          · subst hc
            by_cases hshort : cs.length < 2
            · exact .broken cs hshort
            · obtain ⟨high, cs, rfl⟩ := List.exists_cons_of_length_pos (by omega : 0 < cs.length)
              rw [List.length_cons] at hshort h
              obtain ⟨low, rest, rfl⟩ := List.exists_cons_of_length_pos (by omega : 0 < cs.length)
              rw [List.length_cons] at h
              exact .escape high low rest (ih rest.length (by omega) rest rfl)
          · exact .literal c cs hc (ih cs.length (by omega) cs rfl)

theorem uriUnits_broken {cs : List Char} (h : cs.length < 2) : uriUnits ('%' :: cs) = none := by
  rw [uriUnits.eq_def]
  dsimp only
  rw [if_pos rfl]
  split
  · rename_i high low rest
    rw [List.length_cons, List.length_cons] at h
    omega
  · rfl

/-! ## A text in two parts -/

theorem uriUnits_append {cs : List Char} {units : List UriUnit} (h : uriUnits cs = some units)
    (more : List Char) : uriUnits (cs ++ more) = (uriUnits more).map (units ++ ·) := by
  induction uriText cs generalizing units with
  | nil =>
      obtain rfl := Option.some.inj h
      simp
  | escape high low rest _ ih =>
      rw [uriUnits_escape] at h
      obtain ⟨byte, hbyte, hrest⟩ := Option.bind_eq_some_iff.mp h
      obtain ⟨units', hunits, rfl⟩ := Option.map_eq_some_iff.mp hrest
      rw [List.cons_append, List.cons_append, List.cons_append, uriUnits_escape, hbyte,
        Option.bind_some, ih hunits, Option.map_map]
      rfl
  | broken cs hshort =>
      rw [uriUnits_broken hshort] at h
      cases h
  | literal c cs hc _ ih =>
      rw [uriUnits_literal hc] at h
      obtain ⟨units', hunits, rfl⟩ := Option.map_eq_some_iff.mp h
      rw [List.cons_append, uriUnits_literal hc, ih hunits, Option.map_map]
      rfl

theorem hexByte_eq_none {high low : Char} (h : digitValue high = none ∨ digitValue low = none) :
    hexByte high low = none := by
  rcases h with hhigh | hlow
  · simp [hexByte, hhigh]
  · cases hhigh : digitValue high with
    | none => simp [hexByte, hhigh]
    | some value => simp [hexByte, hhigh, hlow]

/-- A broken escape is not mended by a character that no escape contains. -/
theorem uriUnits_append_none {cs : List Char} (h : uriUnits cs = none) {c : Char}
    (hdigit : digitValue c = none) (more : List Char) : uriUnits (cs ++ c :: more) = none := by
  induction uriText cs with
  | nil => cases h
  | escape high low rest _ ih =>
      rw [uriUnits_escape] at h
      rw [List.cons_append, List.cons_append, List.cons_append, uriUnits_escape]
      cases hbyte : hexByte high low with
      | none => rfl
      | some byte =>
          rw [hbyte, Option.bind_some, Option.map_eq_none_iff] at h
          rw [Option.bind_some, ih h]
          rfl
  | broken cs hshort =>
      cases cs with
      | nil =>
          cases more with
          | nil => exact uriUnits_broken (by simp)
          | cons d more =>
              rw [List.cons_append, List.nil_append, uriUnits_escape,
                hexByte_eq_none (.inl hdigit)]
              rfl
      | cons a cs =>
          cases cs with
          | nil =>
              rw [List.cons_append, List.cons_append, List.nil_append, uriUnits_escape,
                hexByte_eq_none (.inr hdigit)]
              rfl
          | cons b cs =>
              rw [List.length_cons, List.length_cons] at hshort
              omega
  | literal d cs hd _ ih =>
      rw [uriUnits_literal hd, Option.map_eq_none_iff] at h
      rw [List.cons_append, uriUnits_literal hd, ih h]
      rfl

theorem decodeUnits_append {state : Option Utf8Sequence} {units : List UriUnit} {out : List Char}
    (h : decodeUnits state units = some out) (more : List UriUnit) :
    decodeUnits state (units ++ more) = (decodeUnits none more).map (out ++ ·) := by
  induction units generalizing state out with
  | nil =>
      cases state with
      | none =>
          obtain rfl := Option.some.inj h
          simp
      | some s => cases h
  | cons unit units ih =>
      have hmap : ∀ {c : Char}, (decodeUnits none units).map (c :: ·) = some out →
          (decodeUnits none (units ++ more)).map (c :: ·) =
            (decodeUnits none more).map (out ++ ·) := by
        intro c hc
        obtain ⟨out', hout, rfl⟩ := Option.map_eq_some_iff.mp hc
        rw [ih hout, Option.map_map]
        rfl
      cases state with
      | none =>
          cases unit with
          | literal c => exact hmap h
          | escaped b =>
              rw [decodeUnits] at h
              rw [List.cons_append, decodeUnits]
              split at h
              · rw [if_pos ‹_›]
                exact hmap h
              · rw [if_neg ‹_›]
                cases hlead : (leadByte b).2 with
                | none => rw [hlead] at h; cases h
                | some s =>
                    rw [hlead] at h
                    exact ih h
      | some s =>
          cases unit with
          | literal c => cases h
          | escaped b =>
              rw [decodeUnits] at h
              rw [List.cons_append, decodeUnits]
              dsimp only at h ⊢
              split at h
              · rw [if_pos ‹_›]
                split at h
                · rw [if_pos ‹_›]
                  exact hmap h
                · rw [if_neg ‹_›]
                  exact ih h
              · cases h

/-- A sequence that is not complete is broken off by a character. -/
theorem decodeUnits_append_none {state : Option Utf8Sequence} {units : List UriUnit}
    (h : decodeUnits state units = none) (c : Char) (more : List UriUnit) :
    decodeUnits state (units ++ .literal c :: more) = none := by
  induction units generalizing state with
  | nil =>
      cases state with
      | none => cases h
      | some s => rfl
  | cons unit units ih =>
      have hmap : ∀ {d : Char}, (decodeUnits none units).map (d :: ·) = none →
          (decodeUnits none (units ++ .literal c :: more)).map (d :: ·) = none := by
        intro d hd
        rw [Option.map_eq_none_iff] at hd ⊢
        exact ih hd
      cases state with
      | none =>
          cases unit with
          | literal d => exact hmap h
          | escaped b =>
              rw [decodeUnits] at h
              rw [List.cons_append, decodeUnits]
              split at h
              · rw [if_pos ‹_›]
                exact hmap h
              · rw [if_neg ‹_›]
                cases hlead : (leadByte b).2 with
                | none => rfl
                | some s =>
                    rw [hlead] at h
                    exact ih h
      | some s =>
          cases unit with
          | literal d => rfl
          | escaped b =>
              rw [decodeUnits] at h
              rw [List.cons_append, decodeUnits]
              dsimp only at h ⊢
              split at h
              · rw [if_pos ‹_›]
                split at h
                · rw [if_pos ‹_›]
                  exact hmap h
                · rw [if_neg ‹_›]
                  exact ih h
              · rw [if_neg ‹_›]

variable {cs decoded : List Char}

/-- Where the first part decodes, the rest decides. -/
theorem decodeURIComponent_append (h : decodeURIComponent cs = some decoded) (more : List Char) :
    decodeURIComponent (cs ++ more) = (decodeURIComponent more).map (decoded ++ ·) := by
  obtain ⟨units, hunits, hdecoded⟩ := Option.bind_eq_some_iff.mp h
  rw [decodeURIComponent, decodeURIComponent, uriUnits_append hunits]
  cases uriUnits more with
  | none => rfl
  | some units' =>
      rw [Option.map_some, Option.bind_some, Option.bind_some]
      exact decodeUnits_append hdecoded units'

/-- Where the first part does not decode, nothing does that goes on with a plain character. -/
theorem decodeURIComponent_append_none (h : decodeURIComponent cs = none) {c : Char}
    (hpercent : c ≠ '%') (hdigit : digitValue c = none) (more : List Char) :
    decodeURIComponent (cs ++ c :: more) = none := by
  rw [decodeURIComponent] at h ⊢
  cases hunits : uriUnits cs with
  | none => rw [uriUnits_append_none hunits hdigit]; rfl
  | some units =>
      rw [hunits, Option.bind_some] at h
      rw [uriUnits_append hunits, uriUnits_literal hpercent]
      cases uriUnits more with
      | none => rfl
      | some units' =>
          rw [Option.map_some, Option.map_some, Option.bind_some]
          exact decodeUnits_append_none h c units'

theorem decodeURIComponent_cons {c : Char} (h : c ≠ '%') (cs : List Char) :
    decodeURIComponent (c :: cs) = (decodeURIComponent cs).map (c :: ·) := by
  rw [decodeURIComponent, decodeURIComponent, uriUnits_literal h]
  cases uriUnits cs with
  | none => rfl
  | some units => rfl

end BurrowGate.Js
