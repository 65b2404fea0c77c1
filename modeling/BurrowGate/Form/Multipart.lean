import BurrowGate.Form.UrlEncoded
import BurrowGate.Js.Text
import BurrowGate.Lib.Occurrence

/-!
# `MultipartScanner` of `request-input-inspector.ts`

`feed` searches the delimiter in the chunk behind what it carried over, and walks the
bytes up to its end. `run` looks for a delimiter behind every byte of the whole body; the
scanner is in the state of `run` after every chunk.
-/

namespace BurrowGate.Form

open Js
open Lib.Occurrence

def LF : UInt8 := 0x0a
def CR : UInt8 := 0x0d

inductive MultipartMode
  | delimiterLine
  | headers
  | content
  deriving DecidableEq

/-- The fields of the scanner that `walk` works on. -/
structure MultipartCounts where
  parts : Nat := 0
  maxDepth : Nat := 0
  mode : MultipartMode := .content
  lineLength : Nat := 0
  depth : Nat := 0
  deriving DecidableEq

structure MultipartScanner extends MultipartCounts where
  delimiter : Bytes
  carry : Bytes := []
  deriving DecidableEq

/-- `latin1Bytes` keeps the low byte of each code unit. -/
def latin1Bytes (value : List Char) : Bytes := (value.flatMap utf16Units).map UInt32.toUInt8

def delimiterOf (boundary : List Char) : Bytes := latin1Bytes ('-' :: '-' :: boundary)

theorem delimiterOf_ne_nil (boundary : List Char) : delimiterOf boundary ≠ [] :=
  List.cons_ne_nil _ _

/-- `data.indexOf(pattern, start)` for a pattern that is not empty. -/
def indexOf (pattern : Bytes) : Bytes → Nat → Nat → Option Nat
  | [], _, _ => none
  | b :: rest, index, start =>
      if start ≤ index ∧ pattern.isPrefixOf (b :: rest) = true then some index
      else indexOf pattern rest (index + 1) start

theorem indexOf_bounds {pattern data : Bytes} {index start m : Nat}
    (h : indexOf pattern data index start = some m) :
    start ≤ m ∧ index ≤ m ∧ m < index + data.length := by
  induction data generalizing index with
  | nil => cases h
  | cons b rest ih =>
      rw [indexOf] at h
      rw [List.length_cons]
      split at h
      · rename_i hmatch
        obtain rfl := Option.some.inj h
        exact ⟨hmatch.1, Nat.le_refl _, by omega⟩
      · obtain ⟨hstart, hindex, hlt⟩ := ih h
        exact ⟨hstart, by omega, by omega⟩

namespace MultipartCounts

/-- One turn of the loop of `walk`. -/
def walkByte (s : MultipartCounts) (byte : UInt8) : MultipartCounts :=
  match s.mode with
  | .content => s
  | .delimiterLine =>
      if byte = LF then { s with mode := .headers, lineLength := 0, depth := 0 } else s
  | .headers =>
      if byte = LF then
        { s with
          mode := if s.lineLength = 0 then .content else .headers
          lineLength := 0 }
      else if byte = CR then s
      else if byte = OPEN_BRACKET then
        { s with
          lineLength := s.lineLength + 1
          depth := s.depth + 1
          maxDepth := if s.maxDepth < s.depth + 1 then s.depth + 1 else s.maxDepth }
      else { s with lineLength := s.lineLength + 1 }

/-- The loop stops in the content of a part. -/
def walk (s : MultipartCounts) : Bytes → MultipartCounts
  | [] => s
  | b :: rest => if s.mode = .content then s else (s.walkByte b).walk rest

/-- What follows a delimiter. -/
def mark (s : MultipartCounts) : MultipartCounts :=
  { s with parts := s.parts + 1, mode := .delimiterLine }

/-- The loop of `feed`. -/
def scan (delimiter data : Bytes) (s : MultipartCounts) (cursor searchFrom : Nat) :
    MultipartCounts :=
  match _h : indexOf delimiter data 0 searchFrom with
  | none => s.walk (data.drop cursor)
  | some found =>
      let stop := found + delimiter.length
      scan delimiter data (s.walk ((data.take stop).drop cursor)).mark stop (found + 1)
termination_by data.length - searchFrom
decreasing_by
  have := indexOf_bounds _h
  omega

/-- The byte-by-byte automaton: every byte is walked, and behind it a delimiter may end. `before`
are the bytes before. -/
def run (delimiter : Bytes) : Bytes → MultipartCounts → Bytes → MultipartCounts
  | _, s, [] => s
  | before, s, b :: rest =>
      let before := before ++ [b]
      let s := s.walkByte b
      run delimiter before (if delimiter.isSuffixOf before then s.mark else s) rest

end MultipartCounts

namespace MultipartScanner

def new (boundary : List Char) : MultipartScanner := { delimiter := delimiterOf boundary }

def feed (s : MultipartScanner) (chunk : Bytes) : MultipartScanner :=
  let data := s.carry ++ chunk
  { s.toMultipartCounts.scan s.delimiter data s.carry.length 0 with
    delimiter := s.delimiter
    carry := window (s.delimiter.length - 1) data }

end MultipartScanner

/-! ## The search -/

theorem indexOf_none {pattern data : Bytes} {index start : Nat} (hpattern : pattern ≠ [])
    (h : indexOf pattern data index start = none) {i : Nat} (hi : start ≤ index + i) :
    ¬pattern <+: data.drop i := by
  induction data generalizing index i with
  | nil =>
      rw [List.drop_nil]
      intro hmatch
      exact hpattern ( List.prefix_nil.mp hmatch)
  | cons b rest ih =>
      rw [indexOf] at h
      split at h
      · cases h
      · rename_i hmatch
        cases i with
        | zero =>
            intro hprefix
            exact hmatch ⟨hi, List.isPrefixOf_iff_prefix.mpr hprefix⟩
        | succ i => exact ih h (by omega)

theorem indexOf_some {pattern data : Bytes} {index start m : Nat}
    (h : indexOf pattern data index start = some m) :
    pattern <+: data.drop (m - index) ∧
      ∀ i, start ≤ index + i → index + i < m → ¬pattern <+: data.drop i := by
  induction data generalizing index with
  | nil => cases h
  | cons b rest ih =>
      rw [indexOf] at h
      split at h
      · rename_i hmatch
        obtain rfl := Option.some.inj h
        refine ⟨?_, fun i _ hlt => absurd hlt (by omega)⟩
        rw [Nat.sub_self]
        exact List.isPrefixOf_iff_prefix.mp hmatch.2
      · rename_i hmatch
        obtain ⟨hfound, hfirst⟩ := ih h
        have hindex := (indexOf_bounds h).2.1
        refine ⟨?_, fun i hi hlt => ?_⟩
        · have hsucc : m - index = m - (index + 1) + 1 := by omega
          rw [hsucc]
          exact hfound
        · cases i with
          | zero =>
              intro hprefix
              exact hmatch ⟨hi, List.isPrefixOf_iff_prefix.mpr hprefix⟩
          | succ i => exact hfirst i (by omega) (by omega)

/-! ## Walking and marking -/

namespace MultipartCounts

variable {delimiter : Bytes}

theorem walkByte_content {s : MultipartCounts} (h : s.mode = .content) (b : UInt8) :
    s.walkByte b = s := by
  rw [walkByte, h]

theorem walk_eq_foldl (s : MultipartCounts) (bytes : Bytes) :
    s.walk bytes = bytes.foldl walkByte s := by
  induction bytes generalizing s with
  | nil => rfl
  | cons b rest ih =>
      rw [walk, List.foldl_cons]
      split
      · rename_i hcontent
        have hstay : ∀ bytes : Bytes, bytes.foldl walkByte s = s := by
          intro bytes
          induction bytes with
          | nil => rfl
          | cons c bytes ih => rw [List.foldl_cons, walkByte_content hcontent, ih]
        rw [walkByte_content hcontent, hstay]
      · exact ih _

theorem run_append (before : Bytes) (s : MultipartCounts) (first second : Bytes) :
    run delimiter before s (first ++ second) =
      run delimiter (before ++ first) (run delimiter before s first) second := by
  induction first generalizing before s with
  | nil => rw [List.append_nil]; rfl
  | cons b first ih =>
      rw [List.cons_append, run, run, ih, List.append_assoc, List.singleton_append]

/-- Bytes behind none of which a delimiter ends are walked. -/
theorem run_unmarked {before rest : Bytes} (s : MultipartCounts)
    (h : ∀ first second, rest = first ++ second → first ≠ [] → ¬delimiter <:+ before ++ first) :
    run delimiter before s rest = s.walk rest := by
  rw [walk_eq_foldl]
  induction rest generalizing before s with
  | nil => rfl
  | cons b rest ih =>
      have hb : ¬delimiter.isSuffixOf (before ++ [b]) = true := by
        rw [List.isSuffixOf_iff_suffix]
        exact h [b] rest rfl (List.cons_ne_nil _ _)
      rw [run, List.foldl_cons, if_neg hb]
      refine ih _ fun first second hsplit hne => ?_
      have hfirst := h (b :: first) second (by rw [hsplit]; rfl) (List.cons_ne_nil _ _)
      rw [List.append_assoc]
      exact hfirst

/-- Bytes behind the last of which only a delimiter ends are walked and marked. -/
theorem run_marked {before rest : Bytes} (s : MultipartCounts) (hrest : rest ≠ [])
    (hend : delimiter <:+ before ++ rest)
    (h : ∀ first second, rest = first ++ second → first ≠ [] → second ≠ [] →
      ¬delimiter <:+ before ++ first) :
    run delimiter before s rest = (s.walk rest).mark := by
  obtain ⟨start, b, hconcat⟩ := (List.eq_nil_or_concat rest).resolve_left hrest
  rw [List.concat_eq_append] at hconcat
  subst hconcat
  have hstart : run delimiter before s start = s.walk start := by
    apply run_unmarked
    intro first second hsplit hne
    refine h first (second ++ [b]) ?_ hne (by simp)
    rw [hsplit, List.append_assoc]
  have hb : (before ++ start ++ [b]) = before ++ (start ++ [b]) := List.append_assoc _ _ _
  rw [run_append, hstart, walk_eq_foldl, walk_eq_foldl, List.foldl_append, run, run, hb,
    if_pos (List.isSuffixOf_iff_suffix.mpr hend)]
  rfl

/-! ## The loop of `feed` -/

/-- The search looks at every delimiter that ends behind the cursor. `lead` is what came before
the data. -/
structure Searching (delimiter lead data : Bytes) (cursor searchFrom : Nat) : Prop where
  cursor_le : cursor ≤ data.length
  lead : lead = [] ∨ delimiter.length ≤ cursor + 1
  found : ∀ i < searchFrom, i + delimiter.length ≤ cursor
  ahead : cursor < searchFrom + delimiter.length

/-- A delimiter that ends behind the cursor starts within the data, where the search goes on. -/
theorem Searching.starts {lead data : Bytes} {cursor searchFrom k : Nat}
    (h : Searching delimiter lead data cursor searchFrom) (hk : cursor < k) (hle : k ≤ data.length)
    (hend : delimiter <:+ lead ++ data.take k) :
    delimiter.length ≤ k ∧ searchFrom ≤ k - delimiter.length ∧
      delimiter <+: data.drop (k - delimiter.length) := by
  have htake : (data.take k).length = k := by
    rw [List.length_take]
    omega
  have hlen : delimiter.length ≤ k := by
    rcases h.lead with rfl | hlead
    · have := hend.length_le
      rw [List.nil_append, htake] at this
      exact this
    · omega
  have hdata : delimiter <:+ data.take k :=
    List.suffix_of_suffix_length_le hend ( List.suffix_append _ _) (by omega)
  obtain ⟨-, hstart⟩ := (suffix_take_iff hle).mp hdata
  refine ⟨hlen, ?_, hstart⟩
  by_contra hlt
  have := h.found (k - delimiter.length) (by omega)
  omega

theorem Searching.next {lead data : Bytes} {cursor searchFrom m : Nat} (hne : delimiter ≠ [])
    (h : Searching delimiter lead data cursor searchFrom) (hm : cursor < m + delimiter.length)
    (hle : m + delimiter.length ≤ data.length) :
    Searching delimiter lead data (m + delimiter.length) (m + 1) := by
  have hpos := List.length_pos_of_ne_nil hne
  refine ⟨hle, ?_, fun i hi => by omega, by omega⟩
  rcases h.lead with hlead | hlead
  · exact .inl hlead
  · exact .inr (by omega)

/-- Where a stretch of the data from the cursor is cut. -/
theorem take_of_split {data first second : Bytes} {cursor stop : Nat} (hstop : stop ≤ data.length)
    (hcursor : cursor ≤ stop) (hsplit : (data.take stop).drop cursor = first ++ second) :
    data.take cursor ++ first = data.take (cursor + first.length) ∧
      cursor + first.length + second.length = stop := by
  have hlen := congrArg List.length hsplit
  rw [List.length_drop, List.length_take, List.length_append, Nat.min_eq_left hstop] at hlen
  have hwhole : data.take stop = data.take cursor ++ (first ++ second) := by
    rw [← hsplit]
    have := List.take_append_drop cursor (data.take stop)
    rw [List.take_take, Nat.min_eq_left hcursor] at this
    exact this.symm
  refine ⟨?_, by omega⟩
  have hcount : (data.take cursor ++ first).length = cursor + first.length := by
    rw [List.length_append, List.length_take]
    omega
  have htake := congrArg (List.take (cursor + first.length)) hwhole
  rw [List.take_take, Nat.min_eq_left (by omega), ← List.append_assoc,
    List.take_append_of_le_length (Nat.le_of_eq hcount.symm),
    List.take_of_length_le (Nat.le_of_eq hcount)] at htake
  exact htake.symm

theorem scan_eq_run {lead data : Bytes} (hne : delimiter ≠ []) (s : MultipartCounts)
    {cursor searchFrom : Nat} (h : Searching delimiter lead data cursor searchFrom) :
    scan delimiter data s cursor searchFrom =
      run delimiter (lead ++ data.take cursor) s (data.drop cursor) := by
  fun_induction scan delimiter data s cursor searchFrom with
  | case1 s cursor searchFrom hnone =>
      rw [run_unmarked]
      intro first second hsplit hfirst hend
      have hpos := List.length_pos_of_ne_nil hfirst
      have hdata : (data.take data.length).drop cursor = first ++ second := by
        rw [List.take_length, hsplit]
      obtain ⟨htake, hlen⟩ := take_of_split (Nat.le_refl _) h.cursor_le hdata
      rw [List.append_assoc, htake] at hend
      obtain ⟨-, hstart, hmatch⟩ := h.starts (by omega) (by omega) hend
      exact indexOf_none hne hnone (by omega) hmatch
  | case2 s cursor searchFrom m hsome stop ih =>
      obtain ⟨hfound, hfirst⟩ := indexOf_some hsome
      obtain ⟨hm, -, hlt⟩ := indexOf_bounds hsome
      rw [Nat.sub_zero] at hfound
      have hstop : stop ≤ data.length := by
        have := hfound.length_le
        rw [List.length_drop] at this
        show m + delimiter.length ≤ data.length
        omega
      have hahead := h.ahead
      have hcursor : cursor < stop := by
        show cursor < m + delimiter.length
        omega
      rw [ih (h.next hne hcursor hstop)]
      have hdrop : data.drop cursor = (data.take stop).drop cursor ++ data.drop stop := by
        conv => lhs; rw [← List.take_append_drop stop data]
        rw [List.drop_append_of_le_length]
        rw [List.length_take]
        omega
      obtain ⟨hjoin, -⟩ := take_of_split hstop (Nat.le_of_lt hcursor)
        (List.append_nil ((data.take stop).drop cursor)).symm
      have hlen : cursor + ((data.take stop).drop cursor).length = stop := by
        rw [List.length_drop, List.length_take]
        omega
      rw [hlen] at hjoin
      have hmarked : run delimiter (lead ++ data.take cursor) s ((data.take stop).drop cursor) =
          (s.walk ((data.take stop).drop cursor)).mark := by
        apply run_marked
        · intro hnil
          rw [hnil, List.length_nil] at hlen
          omega
        · rw [List.append_assoc, hjoin]
          refine (( suffix_take_iff hstop).mpr ⟨?_, ?_⟩).trans ( List.suffix_append _ _)
          · show delimiter.length ≤ m + delimiter.length
            omega
          · have hback : stop - delimiter.length = m := Nat.add_sub_cancel _ _
            rw [hback]
            exact hfound
        · intro first second hsplit hfirstne hsecondne hend
          have hpos := List.length_pos_of_ne_nil hfirstne
          have hpos' := List.length_pos_of_ne_nil hsecondne
          obtain ⟨htake, hsum⟩ := take_of_split hstop (Nat.le_of_lt hcursor) hsplit
          rw [List.append_assoc, htake] at hend
          obtain ⟨hdelim, hstart, hmatch⟩ := h.starts (by omega) (by omega) hend
          refine hfirst _ (by omega) ?_ hmatch
          have hstopEq : stop = m + delimiter.length := rfl
          omega
      rw [hdrop, run_append, hmarked, List.append_assoc, hjoin]

end MultipartCounts

/-! ## The scanner and the automaton -/

/-- The scanner after the bytes of a body. -/
structure MultipartScanner.Scanned (s : MultipartScanner) (delimiter body : Bytes) : Prop where
  delimiter_eq : s.delimiter = delimiter
  carry : s.carry = window (delimiter.length - 1) body
  counts : s.toMultipartCounts = MultipartCounts.run delimiter [] {} body

theorem MultipartScanner.scanned_new (boundary : List Char) :
    (MultipartScanner.new boundary).Scanned (delimiterOf boundary) [] :=
  ⟨rfl, List.drop_nil.symm, rfl⟩

theorem MultipartScanner.Scanned.feed {s : MultipartScanner} {delimiter body : Bytes}
    (h : s.Scanned delimiter body) (hne : delimiter ≠ []) (chunk : Bytes) :
    (s.feed chunk).Scanned delimiter (body ++ chunk) := by
  have hpos := List.length_pos_of_ne_nil hne
  refine ⟨h.delimiter_eq, ?_, ?_⟩
  · show window (s.delimiter.length - 1) (s.carry ++ chunk) = _
    rw [h.delimiter_eq, h.carry, window_append]
  · show s.toMultipartCounts.scan s.delimiter (s.carry ++ chunk) s.carry.length 0 = _
    have hcarry : s.carry.length = min (delimiter.length - 1) body.length := by
      rw [h.carry, length_window]
    have hsplit : body.take (body.length - (delimiter.length - 1)) ++ s.carry = body := by
      rw [h.carry]
      exact List.take_append_drop _ _
    have hsearching : MultipartCounts.Searching delimiter
        (body.take (body.length - (delimiter.length - 1))) (s.carry ++ chunk) s.carry.length 0 := by
      refine ⟨?_, ?_, fun i hi => by omega, by omega⟩
      · rw [List.length_append]
        omega
      · by_cases hlong : delimiter.length - 1 ≤ body.length
        · exact .inr (by omega)
        · refine .inl ?_
          rw [Nat.sub_eq_zero_of_le (by omega), List.take_zero]
    rw [h.delimiter_eq, MultipartCounts.scan_eq_run hne _ hsearching, List.take_left, List.drop_left,
      hsplit, MultipartCounts.run_append, List.nil_append, ← h.counts]

end BurrowGate.Form
