import Mathlib.Data.List.Infix

/-!
# Occurrences of a pattern

An occurrence ends behind some beginning of a text. One that ends in the second part of a text
is seen in that part and a window: the end of the first part, as long as the pattern less one.
-/

namespace BurrowGate.Lib.Occurrence

variable {α : Type*}

/-- The last elements of a text, at most `n`. -/
def window (n : Nat) (text : List α) : List α := text.drop (text.length - n)

theorem window_suffix (n : Nat) (text : List α) : window n text <:+ text := List.drop_suffix _ _

theorem length_window (n : Nat) (text : List α) : (window n text).length = min n text.length := by
  rw [window, List.length_drop]
  omega

/-- The window of a text is that of its own window and what follows. -/
theorem window_append (n : Nat) (first second : List α) :
    window n (window n first ++ second) = window n (first ++ second) := by
  have hleft : window n (window n first ++ second) <:+ first ++ second := by
    refine (window_suffix n _).trans ⟨first.take (first.length - n), ?_⟩
    rw [← List.append_assoc, window, List.take_append_drop]
  have hlen : (window n (window n first ++ second)).length =
      (window n (first ++ second)).length := by
    simp only [length_window, List.length_append]
    omega
  have hsuffix := List.suffix_of_suffix_length_le hleft (window_suffix n _) (Nat.le_of_eq hlen)
  exact hsuffix.eq_of_length hlen

/-- An occurrence that ends behind `k` elements starts a pattern's length before. -/
theorem suffix_take_iff {pattern text : List α} {k : Nat} (hk : k ≤ text.length) :
    pattern <:+ text.take k ↔ pattern.length ≤ k ∧ pattern <+: text.drop (k - pattern.length) := by
  have hlen : (text.take k).length = k := by
    rw [List.length_take]
    omega
  constructor
  · rintro ⟨before, hbefore⟩
    have hsum : before.length + pattern.length = k := by
      rw [← List.length_append, hbefore, hlen]
    refine ⟨by omega, text.drop k, ?_⟩
    have hstart : k - pattern.length = before.length := by omega
    conv => rhs; rw [← List.take_append_drop k text, ← hbefore]
    rw [hstart, List.append_assoc, List.drop_left]
  · rintro ⟨hle, after, hafter⟩
    refine ⟨text.take (k - pattern.length), ?_⟩
    have hsplit : text = text.take (k - pattern.length) ++ (pattern ++ after) := by
      rw [hafter, List.take_append_drop]
    have hstart : (text.take (k - pattern.length)).length = k - pattern.length := by
      rw [List.length_take]
      omega
    have hwhole : (text.take (k - pattern.length) ++ pattern).length = k := by
      rw [List.length_append, hstart]
      omega
    have htake := congrArg (List.take k) hsplit
    rw [← List.append_assoc, List.take_append_of_le_length (Nat.le_of_eq hwhole.symm)] at htake
    rw [htake]
    exact (List.take_of_length_le (Nat.le_of_eq hwhole)).symm

/-- What occurs in a text that is continued, but not in the text, occurs in the window and the
continuation. -/
theorem infix_append_iff {pattern first second : List α} {n : Nat} (hn : pattern.length ≤ n + 1)
    (h : ¬pattern <:+: first) :
    pattern <:+: first ++ second ↔ pattern <:+: window n first ++ second := by
  have hsplit : first = first.take (first.length - n) ++ window n first :=
    (List.take_append_drop _ _).symm
  constructor
  · rintro ⟨before, after, hocc⟩
    -- The occurrence ends behind the first part, so it starts within the window.
    have hend : first.length < before.length + pattern.length := by
      by_contra hle
      apply h
      refine ⟨before, first.drop (before.length + pattern.length), ?_⟩
      have htake : first.take (before.length + pattern.length) = before ++ pattern := by
        have := congrArg (List.take (before.length + pattern.length)) hocc
        rw [List.take_append_of_le_length (by rw [List.length_append]),
          List.take_of_length_le (by rw [List.length_append]),
          List.take_append_of_le_length (by omega)] at this
        exact this.symm
      rw [← htake, List.take_append_drop]
    have hstart : first.length - n ≤ before.length := by omega
    refine ⟨before.drop (first.length - n), after, ?_⟩
    have hdrop := congrArg (List.drop (first.length - n)) hocc
    rw [List.append_assoc, List.drop_append_of_le_length hstart,
      List.drop_append_of_le_length (by omega)] at hdrop
    rw [List.append_assoc]
    exact hdrop
  · intro hocc
    refine hocc.trans ?_
    refine List.IsSuffix.isInfix ⟨first.take (first.length - n), ?_⟩
    rw [← List.append_assoc, ← hsplit]

end BurrowGate.Lib.Occurrence
