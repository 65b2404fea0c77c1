import Mathlib.Data.List.Basic
import Mathlib.Algebra.Order.Ring.Nat
import Mathlib.Algebra.BigOperators.Group.List.Basic
import Mathlib.Data.List.TakeWhile

/-!
# Words, marks and blanks

A lexer for texts of three kinds of characters: blanks separate, a mark is a
token by itself, and a run of other characters is a word. At a blank or a mark
the tokens of a text fall apart into those before and after it.
-/

namespace BurrowGate.Lib.Lexer

variable {α β : Type*} {blank mark : α → Bool}

inductive Token (α : Type*)
  | mark (c : α)
  | word (cs : List α)
  deriving DecidableEq

/-- Put a character in front of the word that starts the tokens. -/
def consWord (c : α) : List (Token α) → List (Token α)
  | .word w :: ts => .word (c :: w) :: ts
  | ts => .word [c] :: ts

def isLetter (blank mark : α → Bool) (c : α) : Bool := !blank c && !mark c

def lex (blank mark : α → Bool) : List α → List (Token α)
  | [] => []
  | c :: cs =>
      if blank c then lex blank mark cs
      else if mark c then .mark c :: lex blank mark cs
      else if cs.head?.any (isLetter blank mark) then consWord c (lex blank mark cs)
      else .word [c] :: lex blank mark cs

/-- A text without the blanks at its ends. -/
def strip (blank : α → Bool) (cs : List α) : List α :=
  ((cs.dropWhile blank).reverse.dropWhile blank).reverse

theorem lex_cons_blank {c : α} (h : blank c = true) (cs : List α) :
    lex blank mark (c :: cs) = lex blank mark cs := by
  rw [lex, if_pos h]

theorem lex_cons_mark {c : α} (hb : blank c = false) (hm : mark c = true) (cs : List α) :
    lex blank mark (c :: cs) = .mark c :: lex blank mark cs := by
  rw [lex, if_neg (Bool.eq_false_iff.mp hb), if_pos hm]

theorem lex_ne_nil_of_letter {c : α} (h : isLetter blank mark c = true) (cs : List α) :
    ∃ w ts, lex blank mark (c :: cs) = .word (c :: w) :: ts := by
  obtain ⟨hb, hm⟩ := (Bool.and_eq_true _ _).mp h
  rw [Bool.not_eq_true'] at hb hm
  rw [lex, if_neg (Bool.eq_false_iff.mp hb), if_neg (Bool.eq_false_iff.mp hm)]
  split
  · cases lex blank mark cs with
    | nil => exact ⟨[], [], rfl⟩
    | cons t ts =>
        cases t with
        | mark d => exact ⟨[], .mark d :: ts, rfl⟩
        | word w => exact ⟨w, ts, rfl⟩
  · exact ⟨[], _, rfl⟩

/-- A text falls apart in front of a character that is no letter. -/
theorem lex_append_break {s : α} (hs : isLetter blank mark s = false) (xs ys : List α) :
    lex blank mark (xs ++ s :: ys) = lex blank mark xs ++ lex blank mark (s :: ys) := by
  induction xs with
  | nil => rfl
  | cons c xs ih =>
      have hhead : (xs ++ s :: ys).head?.any (isLetter blank mark) =
          xs.head?.any (isLetter blank mark) := by
        cases xs with
        | nil => simpa using hs
        | cons x xs => rfl
      rw [List.cons_append]
      conv => lhs; rw [lex]
      conv => rhs; rw [lex]
      rw [hhead, ih]
      split
      · rfl
      · split
        · rfl
        · split
          · rename_i hletter
            cases xs with
            | nil => cases hletter
            | cons x xs =>
                obtain ⟨w, ts, hlex⟩ := lex_ne_nil_of_letter (by simpa using hletter) xs
                rw [hlex]
                rfl
          · rfl

theorem lex_blanks {cs : List α} (h : ∀ c ∈ cs, blank c = true) (ys : List α) :
    lex blank mark (cs ++ ys) = lex blank mark ys := by
  induction cs with
  | nil => rfl
  | cons c cs ih =>
      rw [List.cons_append, lex_cons_blank (h c List.mem_cons_self)]
      exact ih fun d hd => h d (List.mem_cons_of_mem _ hd)

/-- Only blanks have no tokens. -/
theorem blank_of_lex_eq_nil {cs : List α} (h : lex blank mark cs = []) :
    ∀ c ∈ cs, blank c = true := by
  induction cs with
  | nil => simp
  | cons c cs ih =>
      by_cases hb : blank c = true
      · rw [lex_cons_blank hb] at h
        intro d hd
        rcases List.mem_cons.mp hd with rfl | hd
        · exact hb
        · exact ih h d hd
      · by_cases hm : mark c = true
        · rw [lex_cons_mark (Bool.eq_false_iff.mpr hb) hm] at h
          cases h
        · obtain ⟨w, ts, hlex⟩ := lex_ne_nil_of_letter
            (show isLetter blank mark c = true by simp [isLetter, hb, hm]) cs
          rw [hlex] at h
          cases h

theorem lex_word {w : List α} (hw : ∀ c ∈ w, isLetter blank mark c = true) (hne : w ≠ []) :
    lex blank mark w = [.word w] := by
  induction w with
  | nil => exact absurd rfl hne
  | cons c w ih =>
      have hc := hw c List.mem_cons_self
      obtain ⟨hb, hm⟩ := (Bool.and_eq_true _ _).mp hc
      rw [Bool.not_eq_true'] at hb hm
      rw [lex, if_neg (Bool.eq_false_iff.mp hb), if_neg (Bool.eq_false_iff.mp hm)]
      cases w with
      | nil => rfl
      | cons d w =>
          have hd := hw d (List.mem_cons_of_mem _ List.mem_cons_self)
          rw [if_pos (by simpa using hd),
            ih (fun e he => hw e (List.mem_cons_of_mem _ he)) (List.cons_ne_nil _ _)]
          rfl

theorem lex_blanks_after {cs ys : List α} (h : ∀ c ∈ ys, blank c = true) :
    lex blank mark (cs ++ ys) = lex blank mark cs := by
  cases ys with
  | nil => rw [List.append_nil]
  | cons y ys =>
      have hy : isLetter blank mark y = false := by
        simp [isLetter, h y List.mem_cons_self]
      have hnil : lex blank mark (y :: ys) = [] := by
        have hblank : lex blank mark (y :: ys ++ []) = lex blank mark [] := lex_blanks h []
        rwa [List.append_nil] at hblank
      rw [lex_append_break hy, hnil, List.append_nil]

/-- A single word is a run of letters with blanks around it. -/
theorem eq_of_lex_eq_word {cs w : List α} (h : lex blank mark cs = [.word w]) :
    ∃ before after, cs = before ++ w ++ after ∧ (∀ c ∈ before, blank c = true) ∧
      (∀ c ∈ after, blank c = true) ∧ (∀ c ∈ w, isLetter blank mark c = true) ∧ w ≠ [] := by
  induction cs generalizing w with
  | nil => cases h
  | cons c cs ih =>
      by_cases hb : blank c = true
      · rw [lex_cons_blank hb] at h
        obtain ⟨before, after, rfl, hbefore, hafter, hw, hne⟩ := ih h
        refine ⟨c :: before, after, rfl, fun d hd => ?_, hafter, hw, hne⟩
        rcases List.mem_cons.mp hd with rfl | hd
        · exact hb
        · exact hbefore d hd
      · by_cases hm : mark c = true
        · rw [lex_cons_mark (Bool.eq_false_iff.mpr hb) hm] at h
          cases h
        · have hc : isLetter blank mark c = true := by simp [isLetter, hb, hm]
          rw [lex, if_neg hb, if_neg hm] at h
          split at h
          · rename_i hletter
            cases cs with
            | nil => cases hletter
            | cons d cs =>
                have hd : isLetter blank mark d = true := by simpa using hletter
                obtain ⟨v, ts, hlex⟩ := lex_ne_nil_of_letter hd cs
                rw [hlex] at h
                obtain ⟨hword, rfl⟩ := List.cons.inj h
                obtain rfl := Token.word.inj hword
                obtain ⟨before, after, heq, hbefore, hafter, hw, -⟩ := ih hlex
                cases before with
                | nil =>
                    refine ⟨[], after, by rw [heq]; rfl, by simp, hafter, fun e he => ?_,
                      List.cons_ne_nil _ _⟩
                    rcases List.mem_cons.mp he with rfl | he
                    · exact hc
                    · exact hw e he
                | cons b before =>
                    obtain ⟨rfl, -⟩ := List.cons.inj heq
                    have hblank := hbefore d List.mem_cons_self
                    simp [isLetter, hblank] at hd
          · obtain ⟨hword, hnil⟩ := List.cons.inj h
            obtain rfl := Token.word.inj hword
            refine ⟨[], cs, rfl, by simp, blank_of_lex_eq_nil hnil, fun e he => ?_,
              List.cons_ne_nil _ _⟩
            exact List.mem_singleton.mp he ▸ hc

/-! ## Stripping -/

theorem strip_spec (blank : α → Bool) (cs : List α) : ∃ before after,
    cs = before ++ strip blank cs ++ after ∧ (∀ c ∈ before, blank c = true) ∧ ∀ c ∈ after, blank c = true := by
  refine ⟨cs.takeWhile blank, ((cs.dropWhile blank).reverse.takeWhile blank).reverse, ?_,
    fun c hc => List.mem_takeWhile_imp hc, fun c hc => List.mem_takeWhile_imp (List.mem_reverse.mp hc)⟩
  have hend := List.takeWhile_append_dropWhile (p := blank) (l := (cs.dropWhile blank).reverse)
  have hrev := congrArg List.reverse hend
  rw [List.reverse_append, List.reverse_reverse] at hrev
  rw [strip, List.append_assoc, hrev, List.takeWhile_append_dropWhile]

theorem lex_strip (cs : List α) : lex blank mark (strip blank cs) = lex blank mark cs := by
  obtain ⟨before, after, heq, hbefore, hafter⟩ := strip_spec blank cs
  conv => rhs; rw [heq, List.append_assoc, lex_blanks hbefore, lex_blanks_after hafter]

theorem dropWhile_blanks {before w : List α} (hb : ∀ c ∈ before, blank c = true)
    (hw : w.head?.all fun c => !blank c) : (before ++ w).dropWhile blank = w := by
  rw [List.dropWhile_append_of_pos hb]
  cases w with
  | nil => rfl
  | cons c w =>
      exact List.dropWhile_cons_of_neg (by simpa using hw)

/-- A run without blanks at its ends is what remains of it and blanks around it. -/
theorem strip_of_append {before w after : List α} (hb : ∀ c ∈ before, blank c = true)
    (ha : ∀ c ∈ after, blank c = true) (hw : ∀ c ∈ w, blank c = false) (hne : w ≠ []) :
    strip blank (before ++ w ++ after) = w := by
  have hends : ∀ v : List α, (∀ c ∈ v, blank c = false) → v.head?.all fun c => !blank c := by
    intro v hv
    cases v with
    | nil => rfl
    | cons c v => simpa using hv c List.mem_cons_self
  have hfront : (w ++ after).head?.all fun c => !blank c := by
    cases w with
    | nil => exact absurd rfl hne
    | cons c w => simpa using hw c List.mem_cons_self
  rw [strip, List.append_assoc, dropWhile_blanks hb hfront, List.reverse_append,
    dropWhile_blanks (fun c hc => ha c (List.mem_reverse.mp hc))
      (hends _ fun c hc => hw c (List.mem_reverse.mp hc)), List.reverse_reverse]

/-! ## Parsing a list of parts -/

/-- All parts, or nothing. -/
def parseAll (f : α → Option β) : List α → Option (List β)
  | [] => some []
  | x :: xs => (f x).bind fun y => (parseAll f xs).map (y :: ·)

theorem parseAll_append (f : α → Option β) (xs ys : List α) :
    parseAll f (xs ++ ys) =
      (parseAll f xs).bind fun us => (parseAll f ys).map (us ++ ·) := by
  induction xs with
  | nil => simp [parseAll]
  | cons x xs ih =>
      rw [List.cons_append, parseAll, parseAll, ih]
      cases f x with
      | none => rfl
      | some y =>
          cases parseAll f xs with
          | none => rfl
          | some us =>
              cases parseAll f ys <;> rfl

theorem parseAll_forall₂ {f : α → Option β} {xs : List α} {ys : List β}
    (h : parseAll f xs = some ys) : List.Forall₂ (fun x y => f x = some y) xs ys := by
  induction xs generalizing ys with
  | nil =>
      obtain rfl := Option.some.inj h
      exact .nil
  | cons x xs ih =>
      obtain ⟨y, hy, h⟩ := Option.bind_eq_some_iff.mp h
      obtain ⟨us, hus, rfl⟩ := Option.map_eq_some_iff.mp h
      exact .cons hy (ih hus)

theorem parseAll_isSome {f : α → Option β} {xs : List α} {ys : List β}
    (h : parseAll f xs = some ys) : ∀ x ∈ xs, ∃ y ∈ ys, f x = some y := by
  induction xs generalizing ys with
  | nil => simp
  | cons x xs ih =>
      obtain ⟨y, hy, h⟩ := Option.bind_eq_some_iff.mp h
      obtain ⟨us, hus, rfl⟩ := Option.map_eq_some_iff.mp h
      intro z hz
      rcases List.mem_cons.mp hz with rfl | hz
      · exact ⟨y, List.mem_cons_self, hy⟩
      · obtain ⟨u, hu, hzu⟩ := ih hus z hz
        exact ⟨u, List.mem_cons_of_mem _ hu, hzu⟩

theorem parseAll_mem {f : α → Option β} {xs : List α} {ys : List β}
    (h : parseAll f xs = some ys) : ∀ y ∈ ys, ∃ x ∈ xs, f x = some y := by
  induction xs generalizing ys with
  | nil =>
      obtain rfl := Option.some.inj h
      simp
  | cons x xs ih =>
      obtain ⟨y, hy, h⟩ := Option.bind_eq_some_iff.mp h
      obtain ⟨us, hus, rfl⟩ := Option.map_eq_some_iff.mp h
      intro z hz
      rcases List.mem_cons.mp hz with rfl | hz
      · exact ⟨x, List.mem_cons_self, hy⟩
      · obtain ⟨w, hw, hwz⟩ := ih hus z hz
        exact ⟨w, List.mem_cons_of_mem _ hw, hwz⟩

theorem parseAll_eq_some {f : α → Option β} {xs : List α} (h : ∀ x ∈ xs, (f x).isSome = true) :
    ∃ ys, parseAll f xs = some ys := by
  induction xs with
  | nil => exact ⟨[], rfl⟩
  | cons x xs ih =>
      obtain ⟨y, hy⟩ := Option.isSome_iff_exists.mp (h x List.mem_cons_self)
      obtain ⟨ys, hys⟩ := ih fun z hz => h z (List.mem_cons_of_mem _ hz)
      exact ⟨y :: ys, by rw [parseAll, hy, hys]; rfl⟩

/-! ## Counting -/

/-- The parts between separators have all the tokens that are none. -/
theorem count_splitOnP [BEq α] [LawfulBEq α] {p : α → Bool} {t : α} (ht : p t = false)
    (xs : List α) : ((xs.splitOnP p).map (·.count t)).sum = xs.count t := by
  induction xs with
  | nil => simp
  | cons x xs ih =>
      rw [List.splitOnP_cons_eq_if_modifyHead, List.count_cons, ← ih]
      split
      · rename_i hx
        have hne : (x == t) = false := by
          rw [beq_eq_false_iff_ne]
          rintro rfl
          rw [ht] at hx
          cases hx
        simp [hne]
      · cases hsplit : xs.splitOnP p with
        | nil => exact absurd hsplit (List.splitOnP_ne_nil p xs)
        | cons part parts =>
            simp only [List.modifyHead_cons, List.map_cons, List.sum_cons, List.count_cons]
            omega

/-- A text has one part more than separators. -/
theorem length_splitOn [BEq α] [LawfulBEq α] (a : α) (xs : List α) :
    (xs.splitOn a).length = xs.count a + 1 := by
  induction xs with
  | nil => simp
  | cons x xs ih =>
      rw [List.splitOn_cons_eq_if_modifyHead, List.count_cons]
      split
      · rw [List.length_cons, ih]
      · rw [List.length_modifyHead, ih]

theorem count_intercalate [BEq α] [LawfulBEq α] {a t : α} (h : a ≠ t) (xss : List (List α)) :
    ([a].intercalate xss).count t = (xss.map (·.count t)).sum := by
  induction xss with
  | nil => simp
  | cons xs xss ih =>
      cases xss with
      | nil => simp
      | cons ys xss =>
          rw [List.intercalate_cons_cons, List.count_append, List.count_append, ih, List.map_cons,
            List.sum_cons, List.count_singleton, beq_false_of_ne h]
          simp

/-- Joining puts a separator between two parts. -/
theorem count_separator_intercalate [BEq α] [LawfulBEq α] {a : α} {xss : List (List α)}
    (h : xss ≠ []) : ([a].intercalate xss).count a + 1 =
      (xss.map (·.count a)).sum + xss.length := by
  induction xss with
  | nil => exact absurd rfl h
  | cons xs xss ih =>
      cases xss with
      | nil => simp
      | cons ys xss =>
          have hrest := ih (List.cons_ne_nil _ _)
          rw [List.intercalate_cons_cons, List.count_append, List.count_append, List.map_cons,
            List.sum_cons, List.length_cons, List.count_singleton, beq_self_eq_true, if_pos rfl]
          omega

theorem mem_intercalate {a t : α} {xss : List (List α)} (h : t ∈ [a].intercalate xss) :
    t = a ∨ ∃ xs ∈ xss, t ∈ xs := by
  induction xss with
  | nil => cases h
  | cons xs xss ih =>
      cases xss with
      | nil =>
          rw [List.intercalate_singleton] at h
          exact .inr ⟨xs, List.mem_cons_self, h⟩
      | cons ys xss =>
          rw [List.intercalate_cons_cons, List.mem_append, List.mem_append, List.mem_singleton] at h
          rcases h with (hin | heq) | hrest
          · exact .inr ⟨xs, List.mem_cons_self, hin⟩
          · exact .inl heq
          · rcases ih hrest with heq | ⟨zs, hzs, hin⟩
            · exact .inl heq
            · exact .inr ⟨zs, List.mem_cons_of_mem _ hzs, hin⟩

/-- Equal measures of corresponding members have equal sums. -/
theorem sum_map_forall₂ {r : α → β → Prop} {f : α → Nat} {g : β → Nat} {xs : List α} {ys : List β}
    (h : List.Forall₂ r xs ys) (hr : ∀ x y, r x y → f x = g y) :
    (xs.map f).sum = (ys.map g).sum := by
  induction h with
  | nil => rfl
  | cons hxy _ ih => rw [List.map_cons, List.map_cons, List.sum_cons, List.sum_cons, hr _ _ hxy, ih]

end BurrowGate.Lib.Lexer
