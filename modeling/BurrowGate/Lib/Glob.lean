import Mathlib.Data.List.Infix

/-!
# Wildcard patterns

A pattern is a list of literals and of wildcards for one symbol and for any number of symbols.
Symbols of the pattern and of the text may be of different kinds; how a literal is compared with
a symbol of the text is a parameter.
-/

namespace BurrowGate.Lib.Glob

variable {α β γ : Type*}

inductive Item (α : Type*)
  | any
  | one
  | literal (a : α)
  deriving DecidableEq

/-- The whole text matches the whole pattern. -/
def Matches (same : α → β → Bool) : List (Item α) → List β → Bool
  | [], text => text.isEmpty
  | .any :: items, text => text.tails.any (Matches same items)
  | .one :: items, text =>
      match text with
      | [] => false
      | _ :: text => Matches same items text
  | .literal a :: items, text =>
      match text with
      | [] => false
      | b :: text => same a b && Matches same items text

variable {same : α → β → Bool} {other : γ → β → Bool} {items : List (Item α)} {text : List β}

/-- Every literal of a pattern that matches is compared with a symbol of the text. -/
theorem exists_of_matches (h : Matches same items text = true) {a : α}
    (ha : .literal a ∈ items) : ∃ b ∈ text, same a b = true := by
  induction items generalizing text with
  | nil => cases ha
  | cons item items ih =>
      cases item with
      | any =>
          obtain ⟨rest, hrest, hmatch⟩ := List.any_eq_true.mp h
          have hitem := (List.mem_cons.mp ha).resolve_left fun h => (by cases h)
          obtain ⟨b, hb, hsame⟩ := ih hmatch hitem
          exact ⟨b, ((List.mem_tails ..).mp hrest).subset hb, hsame⟩
      | one =>
          cases text with
          | nil => cases h
          | cons c text =>
              have hitem := (List.mem_cons.mp ha).resolve_left fun h => (by cases h)
              obtain ⟨b, hb, hsame⟩ := ih h hitem
              exact ⟨b, List.mem_cons_of_mem c hb, hsame⟩
      | literal a' =>
          cases text with
          | nil => cases h
          | cons c text =>
              obtain ⟨hhead, htail⟩ := (Bool.and_eq_true_iff ..).mp h
              rcases List.mem_cons.mp ha with heq | ha
              · obtain rfl := Item.literal.inj heq
                exact ⟨c, List.mem_cons_self, hhead⟩
              · obtain ⟨b, hb, hsame⟩ := ih htail ha
                exact ⟨b, List.mem_cons_of_mem c hb, hsame⟩

def Item.map (f : α → γ) : Item α → Item γ
  | .any => .any
  | .one => .one
  | .literal a => .literal (f a)

/-- Two patterns that differ in their literals only match the same texts when corresponding
literals compare alike with the symbols of the text. -/
theorem matches_map (f : α → γ) (h : ∀ a, .literal a ∈ items → ∀ b ∈ text,
    other (f a) b = same a b) : Matches other (items.map (Item.map f)) text =
      Matches same items text := by
  induction items generalizing text with
  | nil => rfl
  | cons item items ih =>
      cases item with
      | any =>
          rw [Bool.eq_iff_iff]
          change text.tails.any _ = true ↔ text.tails.any _ = true
          rw [List.any_eq_true, List.any_eq_true]
          apply exists_congr
          intro rest
          apply and_congr_right
          intro hrest
          rw [ih]
          intro a ha b hb
          exact h a (List.mem_cons_of_mem _ ha) b (((List.mem_tails ..).mp hrest).subset hb)
      | one =>
          cases text with
          | nil => rfl
          | cons c text =>
              apply ih
              intro a ha b hb
              exact h a (List.mem_cons_of_mem _ ha) b (List.mem_cons_of_mem c hb)
      | literal a' =>
          cases text with
          | nil => rfl
          | cons c text =>
              have hrest := @ih text fun a ha b hb =>
                h a (List.mem_cons_of_mem _ ha) b (List.mem_cons_of_mem c hb)
              have hhead := h a' List.mem_cons_self c List.mem_cons_self
              change (other (f a') c && Matches other _ text) = (same a' c && Matches same _ text)
              rw [hhead, hrest]

/-- Comparing literals with transformed symbols is matching the transformed text. -/
theorem matches_text_map {δ : Type*} (f : δ → β) (text : List δ) :
    Matches same items (text.map f) = Matches (fun a d => same a (f d)) items text := by
  induction items generalizing text with
  | nil => cases text <;> rfl
  | cons item items ih =>
      cases item with
      | any =>
          change (text.map f).tails.any _ = text.tails.any _
          rw [List.map_tails, List.any_map]
          congr 1
          funext rest
          exact ih rest
      | one =>
          cases text with
          | nil => rfl
          | cons d text => exact ih text
      | literal a =>
          cases text with
          | nil => rfl
          | cons d text =>
              change (same a (f d) && _) = (same a (f d) && _)
              rw [ih text]

end BurrowGate.Lib.Glob
