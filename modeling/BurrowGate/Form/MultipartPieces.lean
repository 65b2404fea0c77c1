import BurrowGate.Form.Multipart

/-!
# What the automaton counts in a multipart body

A body is cut behind each delimiter. The parts are the occurrences of the delimiter; the
depth of a part is the number of brackets in its header block, which starts behind the
line of the delimiter and ends with an empty line.
-/

namespace BurrowGate.Form

/-- How often a delimiter ends in a body. -/
def occurrences (delimiter body : Bytes) : Nat := body.inits.countP (delimiter.isSuffixOf ·)

/-- The rest of a body, cut behind each delimiter; `before` is what stands before it. -/
def piecesFrom (delimiter : Bytes) : Bytes → Bytes → List Bytes
  | _, [] => [[]]
  | before, b :: rest =>
      let before := before ++ [b]
      if delimiter.isSuffixOf before then [b] :: piecesFrom delimiter before rest
      else (piecesFrom delimiter before rest).modifyHead (b :: ·)

/-- The pieces behind the first delimiter. -/
def partPieces (delimiter body : Bytes) : List Bytes := (piecesFrom delimiter [] body).tail

/-- What follows the line of the delimiter. -/
def afterLine : Bytes → Bytes
  | [] => []
  | b :: rest => if b = LF then rest else afterLine rest

/-- Up to the first line without a byte but carriage returns; `empty` is whether the line has none
so far. -/
def untilEmptyLine (empty : Bool) : Bytes → Bytes
  | [] => []
  | b :: rest =>
      if b = LF then if empty then [] else b :: untilEmptyLine true rest
      else b :: untilEmptyLine (empty && b = CR) rest

def headerBlock (piece : Bytes) : Bytes := untilEmptyLine true (afterLine piece)

/-- The largest number of brackets in a header block. -/
def headerDepth (pieces : List Bytes) : Nat :=
  (pieces.map fun piece => (headerBlock piece).count OPEN_BRACKET).foldr max 0

example :
    let body := "--b\r\nA: [x][\r\n [\r\n\r\n[[[[[--b\nB: [\n\n--b--".toUTF8.toList
    occurrences (delimiterOf ['b']) body = 3 ∧
      headerDepth (partPieces (delimiterOf ['b']) body) = 3 ∧
      (((MultipartScanner.new ['b']).feed (body.take 7)).feed (body.drop 7)).maxDepth = 3 := by
  decide +kernel

namespace MultipartCounts

/-! ## A piece -/

theorem foldl_content {s : MultipartCounts} (h : s.mode = .content) (bytes : Bytes) :
    bytes.foldl walkByte s = s := by
  induction bytes with
  | nil => rfl
  | cons b bytes ih => rw [List.foldl_cons, walkByte_content h, ih]

theorem foldl_headers {s : MultipartCounts} (h : s.mode = .headers) (hdepth : s.depth ≤ s.maxDepth)
    (bytes : Bytes) :
    (bytes.foldl walkByte s).maxDepth =
      max s.maxDepth (s.depth + (untilEmptyLine (s.lineLength = 0) bytes).count OPEN_BRACKET) := by
  induction bytes generalizing s with
  | nil =>
      show s.maxDepth = max s.maxDepth (s.depth + 0)
      omega
  | cons b rest ih =>
      rw [List.foldl_cons, walkByte, h, untilEmptyLine]
      dsimp only
      by_cases hlf : b = LF
      · subst hlf
        rw [if_pos rfl, if_pos rfl]
        by_cases hempty : s.lineLength = 0
        · rw [if_pos hempty, if_pos (decide_eq_true hempty), foldl_content rfl]
          show s.maxDepth = max s.maxDepth (s.depth + 0)
          omega
        · rw [if_neg hempty, if_neg (by simpa using hempty)]
          refine (@ih { s with mode := .headers, lineLength := 0 } rfl hdepth).trans ?_
          show max s.maxDepth (s.depth + (untilEmptyLine (decide (0 = 0)) rest).count OPEN_BRACKET) = _
          rw [List.count_cons_of_ne (by decide), decide_eq_true rfl]
      · rw [if_neg hlf, if_neg hlf]
        by_cases hcr : b = CR
        · subst hcr
          rw [if_pos rfl, ih h hdepth, List.count_cons_of_ne (by decide), decide_eq_true rfl,
            Bool.and_true]
        · have hnonempty : (decide (s.lineLength = 0) && decide (b = CR)) = false := by
            rw [decide_eq_false hcr, Bool.and_false]
          have hnonempty' : decide (s.lineLength + 1 = 0) = false := rfl
          rw [if_neg hcr, hnonempty]
          by_cases hbracket : b = OPEN_BRACKET
          · subst hbracket
            have hmax : (if s.maxDepth < s.depth + 1 then s.depth + 1 else s.maxDepth) =
                max s.maxDepth (s.depth + 1) := by
              split <;> omega
            rw [if_pos rfl, hmax, List.count_cons_self]
            refine (@ih { s with
              mode := .headers
              lineLength := s.lineLength + 1
              depth := s.depth + 1
              maxDepth := max s.maxDepth (s.depth + 1) } rfl (Nat.le_max_right _ _)).trans ?_
            show max (max s.maxDepth (s.depth + 1))
              (s.depth + 1 + (untilEmptyLine (decide (s.lineLength + 1 = 0)) rest).count OPEN_BRACKET) = _
            rw [hnonempty']
            omega
          · rw [if_neg hbracket, List.count_cons_of_ne hbracket]
            refine (@ih { s with mode := .headers, lineLength := s.lineLength + 1 } rfl hdepth).trans ?_
            show max s.maxDepth
              (s.depth + (untilEmptyLine (decide (s.lineLength + 1 = 0)) rest).count OPEN_BRACKET) = _
            rw [hnonempty']

theorem foldl_delimiterLine {s : MultipartCounts} (h : s.mode = .delimiterLine) (piece : Bytes) :
    (piece.foldl walkByte s).maxDepth =
      max s.maxDepth ((headerBlock piece).count OPEN_BRACKET) := by
  induction piece generalizing s with
  | nil => exact (Nat.max_zero _).symm
  | cons b rest ih =>
      rw [List.foldl_cons, walkByte, h]
      dsimp only
      by_cases hlf : b = LF
      · subst hlf
        rw [if_pos rfl, foldl_headers rfl (Nat.zero_le _)]
        show max s.maxDepth (0 + (headerBlock (LF :: rest)).count OPEN_BRACKET) = _
        rw [Nat.zero_add]
      · have hblock : headerBlock (b :: rest) = headerBlock rest := by
          rw [headerBlock, afterLine, if_neg hlf, headerBlock]
        rw [if_neg hlf, hblock]
        exact ih h

theorem walkByte_parts (s : MultipartCounts) (b : UInt8) : (s.walkByte b).parts = s.parts := by
  unfold walkByte
  repeat' split
  all_goals rfl

/-! ## The body -/

/-- From a state within a piece, the run counts the delimiters to come and the header blocks of
the pieces behind them. -/
theorem run_pieces (delimiter before rest : Bytes) (s : MultipartCounts) :
    ∃ first more, piecesFrom delimiter before rest = first :: more ∧
      (run delimiter before s rest).parts = s.parts + more.length ∧
      (run delimiter before s rest).maxDepth =
        max (first.foldl walkByte s).maxDepth (headerDepth more) := by
  induction rest generalizing before s with
  | nil => exact ⟨[], [], rfl, rfl, (Nat.max_zero _).symm⟩
  | cons b rest ih =>
      rw [piecesFrom, run]
      split
      · obtain ⟨first, more, hpieces, hparts, hdepth⟩ := ih (before ++ [b]) (s.walkByte b).mark
        refine ⟨[b], first :: more, by rw [hpieces], ?_, ?_⟩
        · rw [hparts, List.length_cons]
          show (s.walkByte b).parts + 1 + more.length = _
          rw [walkByte_parts]
          omega
        · rw [hdepth, foldl_delimiterLine rfl, Nat.max_assoc]
          rfl
      · obtain ⟨first, more, hpieces, hparts, hdepth⟩ := ih (before ++ [b]) (s.walkByte b)
        refine ⟨b :: first, more, by rw [hpieces]; rfl, ?_, hdepth⟩
        rw [hparts, walkByte_parts]

theorem length_piecesFrom (delimiter before rest : Bytes) :
    (piecesFrom delimiter before rest).length +
        (if delimiter.isSuffixOf before = true then 1 else 0) =
      1 + rest.inits.countP fun start => delimiter.isSuffixOf (before ++ start) := by
  induction rest generalizing before with
  | nil =>
      show 1 + _ = 1 + [[]].countP _
      rw [List.countP_singleton, List.append_nil]
  | cons b rest ih =>
      have hb := ih (before ++ [b])
      have hcount : (rest.inits.map (b :: ·)).countP
            (fun start => delimiter.isSuffixOf (before ++ start)) =
          rest.inits.countP fun start => delimiter.isSuffixOf (before ++ [b] ++ start) := by
        rw [List.countP_map]
        congr 1
        funext start
        show delimiter.isSuffixOf (before ++ b :: start) = _
        rw [List.append_assoc]
        rfl
      rw [List.inits_cons, List.countP_cons, List.append_nil, hcount, piecesFrom]
      split at hb
      · rename_i hmark
        rw [if_pos hmark, List.length_cons]
        omega
      · rename_i hmark
        rw [if_neg hmark, List.length_modifyHead]
        omega

/-- The automaton counts the occurrences of the delimiter and the largest depth of a header
block. -/
theorem run_counts {delimiter : Bytes} (hne : delimiter ≠ []) (body : Bytes) :
    (run delimiter [] {} body).parts = occurrences delimiter body ∧
      (run delimiter [] {} body).maxDepth = headerDepth (partPieces delimiter body) := by
  obtain ⟨first, more, hpieces, hparts, hdepth⟩ := run_pieces delimiter [] body {}
  constructor
  · have hlength := length_piecesFrom delimiter [] body
    have hstart : ¬delimiter.isSuffixOf [] = true := by
      rw [List.isSuffixOf_iff_suffix, List.suffix_nil]
      exact hne
    rw [if_neg hstart, hpieces, List.length_cons] at hlength
    rw [hparts, occurrences]
    show 0 + more.length = body.inits.countP fun start => delimiter.isSuffixOf ([] ++ start)
    omega
  · rw [hdepth, foldl_content rfl, partPieces, hpieces]
    exact Nat.zero_max _

end MultipartCounts

end BurrowGate.Form
