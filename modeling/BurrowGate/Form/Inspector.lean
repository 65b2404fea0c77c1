import BurrowGate.Form.BlockedNames
import BurrowGate.Form.MultipartPieces
import BurrowGate.Form.UrlEncodedCounts

/-!
# `FormBodyInspector` of `request-input-inspector.ts`

`verdict` is what the whole body deserves: the limits applied to its counts. A chunk is
answered with the verdict of the bytes up to its end, until the first violation, which
is the answer from then on.
-/

namespace BurrowGate.Form

open Js

/-- The limits that the inspection reads; zero is no limit. -/
structure RequestLimits where
  maxInputFields : Nat
  maxMultipartParts : Nat
  maxInputNestingDepth : Nat

structure RequestLimitViolation where
  status : Nat
  code : List Char
  message : List Char
  deriving DecidableEq

structure FormBodyInspector where
  urlEncoded : Option UrlEncodedScanner
  multipart : Option MultipartScanner
  blocked : Option BlockedNameScanner
  limits : RequestLimits
  violation : Option RequestLimitViolation := none

def fieldsViolation : RequestLimitViolation :=
  { status := 413
    code := "request_input_fields_too_many".toList
    message := "The form body has more fields than this route's configured limit.".toList }

def nestingViolation : RequestLimitViolation :=
  { status := 400
    code := "request_input_nesting_too_deep".toList
    message := "A request field is nested deeper than this route's configured limit.".toList }

def fieldBlockedViolation : RequestLimitViolation :=
  { status := 403
    code := "request_form_field_blocked".toList
    message := "The multipart body contains a field name that is blocked on this route.".toList }

def partsViolation : RequestLimitViolation :=
  { status := 413
    code := "request_multipart_parts_too_many".toList
    message := "The multipart body has more parts than this route's configured limit.".toList }

namespace FormBodyInspector

/-- The constructor; without a boundary the body is URL-encoded. -/
def new (boundary : Option (List Char)) (limits : RequestLimits)
    (blockedMultipartFields : List BlockedName) : FormBodyInspector :=
  match boundary with
  | none => { urlEncoded := some {}, multipart := none, blocked := none, limits }
  | some boundary =>
      { urlEncoded := none
        multipart := some (.new boundary)
        blocked :=
          if blockedMultipartFields.isEmpty then none else some (.new blockedMultipartFields)
        limits }

def reject (s : FormBodyInspector) (violation : RequestLimitViolation) :
    Option RequestLimitViolation × FormBodyInspector :=
  (some violation, { s with violation := some violation })

/-- `blocked?.feed(chunk)` -/
def feedBlocked (s : FormBodyInspector) (chunk : Bytes) : Bool × FormBodyInspector :=
  match s.blocked with
  | none => (false, s)
  | some blocked =>
      let (found, blocked) := blocked.feed chunk
      (found, { s with blocked := some blocked })

def push (s : FormBodyInspector) (chunk : Bytes) :
    Option RequestLimitViolation × FormBodyInspector :=
  match s.violation with
  | some violation => (some violation, s)
  | none =>
      match s.urlEncoded with
      | some urlEncoded =>
          let urlEncoded := urlEncoded.feed chunk
          let s := { s with urlEncoded := some urlEncoded }
          if 0 < s.limits.maxInputFields ∧ s.limits.maxInputFields < urlEncoded.fields then
            s.reject fieldsViolation
          else if 0 < s.limits.maxInputNestingDepth ∧
              s.limits.maxInputNestingDepth < urlEncoded.maxDepth then
            s.reject nestingViolation
          else (none, s)
      | none =>
          let (found, s) := s.feedBlocked chunk
          if found then s.reject fieldBlockedViolation
          else
            match s.multipart with
            | none => (none, s)
            | some multipart =>
                let multipart := multipart.feed chunk
                let s := { s with multipart := some multipart }
                if 0 < s.limits.maxMultipartParts ∧ s.limits.maxMultipartParts < multipart.parts then
                  s.reject partsViolation
                else if 0 < s.limits.maxInputNestingDepth ∧
                    s.limits.maxInputNestingDepth < multipart.maxDepth then
                  s.reject nestingViolation
                else (none, s)

/-- The answers to the chunks of a body, and the inspector after them. -/
def pushAll (s : FormBodyInspector) : List Bytes →
    List (Option RequestLimitViolation) × FormBodyInspector
  | [] => ([], s)
  | chunk :: chunks =>
      let (report, next) := s.push chunk
      let (reports, last) := next.pushAll chunks
      (report :: reports, last)

end FormBodyInspector

/-! ## The verdict on a body -/

/-- The violation of the counts of a body, in the order of the checks. -/
def verdict (boundary : Option (List Char)) (limits : RequestLimits) (names : List BlockedName)
    (body : Bytes) : Option RequestLimitViolation :=
  match boundary with
  | none =>
      if 0 < limits.maxInputFields ∧ limits.maxInputFields < countFields (segments body) then
        some fieldsViolation
      else if 0 < limits.maxInputNestingDepth ∧
          limits.maxInputNestingDepth < keyDepth (segments body) then
        some nestingViolation
      else none
  | some boundary =>
      if BlockedNameScanner.test names body then some fieldBlockedViolation
      else if 0 < limits.maxMultipartParts ∧
          limits.maxMultipartParts < occurrences (delimiterOf boundary) body then
        some partsViolation
      else if 0 < limits.maxInputNestingDepth ∧
          limits.maxInputNestingDepth < headerDepth (partPieces (delimiterOf boundary) body) then
        some nestingViolation
      else none

/-- The counts of an inspector are those of a body. -/
def HasCounts (s : FormBodyInspector) (boundary : Option (List Char)) (body : Bytes) : Prop :=
  match boundary with
  | none => ∃ urlEncoded, s.urlEncoded = some urlEncoded ∧
      urlEncoded.fields = countFields (segments body) ∧
      urlEncoded.maxDepth = keyDepth (segments body)
  | some boundary => ∃ multipart, s.multipart = some multipart ∧
      multipart.parts = occurrences (delimiterOf boundary) body ∧
      multipart.maxDepth = headerDepth (partPieces (delimiterOf boundary) body)

theorem verdict_blocked_iff (boundary : List Char) (limits : RequestLimits)
    (names : List BlockedName) (body : Bytes) :
    verdict (some boundary) limits names body = some fieldBlockedViolation ↔ Occurs names body := by
  have hparts : partsViolation ≠ fieldBlockedViolation := by decide
  have hnesting : nestingViolation ≠ fieldBlockedViolation := by decide
  rw [← BlockedNameScanner.test_iff, verdict]
  split
  · rename_i hfound
    exact ⟨fun _ => hfound, fun _ => rfl⟩
  · rename_i hfound
    refine ⟨fun h => ?_, fun h => absurd h hfound⟩
    split at h
    · exact absurd (Option.some.inj h) hparts
    · split at h
      · exact absurd (Option.some.inj h) hnesting
      · cases h

/-! ## Counts grow -/

theorem UrlEncodedScanner.stepKey_le (s : UrlEncodedScanner) (b : UInt8) :
    s.fields ≤ (s.stepKey b).fields ∧ s.maxDepth ≤ (s.stepKey b).maxDepth := by
  unfold UrlEncodedScanner.stepKey
  split
  · exact ⟨Nat.le_refl _, Nat.le_refl _⟩
  · split
    · exact ⟨Nat.le_refl _, Nat.le_refl _⟩
    · split
      · refine ⟨Nat.le_refl _, ?_⟩
        show s.maxDepth ≤ if s.maxDepth < s.depth + 1 then s.depth + 1 else s.maxDepth
        split <;> omega
      · split
        · exact ⟨Nat.le_refl _, Nat.le_refl _⟩
        · exact ⟨Nat.le_refl _, Nat.le_refl _⟩

theorem UrlEncodedScanner.step_le (s : UrlEncodedScanner) (b : UInt8) :
    s.fields ≤ (s.step b).fields ∧ s.maxDepth ≤ (s.step b).maxDepth := by
  unfold UrlEncodedScanner.step
  split
  · exact ⟨Nat.le_refl _, Nat.le_refl _⟩
  · split
    · obtain ⟨hfields, hdepth⟩ := UrlEncodedScanner.stepKey_le { s with
        atFieldStart := false, fields := s.fields + 1, inKey := true, depth := 0, percent := 0 } b
      exact ⟨(Nat.le_succ _).trans hfields, hdepth⟩
    · exact UrlEncodedScanner.stepKey_le s b

theorem UrlEncodedScanner.run_le (s : UrlEncodedScanner) (body : Bytes) :
    s.fields ≤ (s.run body).fields ∧ s.maxDepth ≤ (s.run body).maxDepth := by
  induction body generalizing s with
  | nil => exact ⟨Nat.le_refl _, Nat.le_refl _⟩
  | cons b body ih =>
      obtain ⟨hfields, hdepth⟩ := s.step_le b
      obtain ⟨hfields', hdepth'⟩ := ih (s.step b)
      exact ⟨hfields.trans hfields', hdepth.trans hdepth'⟩

theorem MultipartCounts.walkByte_le (s : MultipartCounts) (b : UInt8) :
    s.maxDepth ≤ (s.walkByte b).maxDepth := by
  unfold MultipartCounts.walkByte
  split
  · exact Nat.le_refl _
  · split
    · exact Nat.le_refl _
    · exact Nat.le_refl _
  · split
    · exact Nat.le_refl _
    · split
      · exact Nat.le_refl _
      · split
        · show s.maxDepth ≤ if s.maxDepth < s.depth + 1 then s.depth + 1 else s.maxDepth
          split <;> omega
        · exact Nat.le_refl _

theorem MultipartCounts.run_le (delimiter before : Bytes) (s : MultipartCounts) (body : Bytes) :
    s.parts ≤ (run delimiter before s body).parts ∧
      s.maxDepth ≤ (run delimiter before s body).maxDepth := by
  induction body generalizing before s with
  | nil => exact ⟨Nat.le_refl _, Nat.le_refl _⟩
  | cons b body ih =>
      have hparts := walkByte_parts s b
      have hdepth := walkByte_le s b
      rw [run]
      split
      · obtain ⟨hparts', hdepth'⟩ := ih (before ++ [b]) (s.walkByte b).mark
        have hmark : (s.walkByte b).mark.parts = (s.walkByte b).parts + 1 := rfl
        exact ⟨by omega, hdepth.trans hdepth'⟩
      · obtain ⟨hparts', hdepth'⟩ := ih (before ++ [b]) (s.walkByte b)
        exact ⟨by omega, hdepth.trans hdepth'⟩

/-- A violation of a body is one of every body that continues it. -/
theorem verdict_append {boundary : Option (List Char)} {limits : RequestLimits}
    {names : List BlockedName} {body : Bytes} (h : verdict boundary limits names body ≠ none)
    (more : Bytes) : verdict boundary limits names (body ++ more) ≠ none := by
  unfold verdict at h ⊢
  cases boundary with
  | none =>
      obtain ⟨hfields, hdepth⟩ := UrlEncodedScanner.run_le (UrlEncodedScanner.run {} body) more
      rw [← UrlEncodedScanner.run_append, (UrlEncodedScanner.run_counts _).1,
        (UrlEncodedScanner.run_counts _).1] at hfields
      rw [← UrlEncodedScanner.run_append, (UrlEncodedScanner.run_counts _).2,
        (UrlEncodedScanner.run_counts _).2] at hdepth
      dsimp only at h ⊢
      split at h
      · rw [if_pos (by omega)]
        exact Option.some_ne_none _
      · split
        · exact Option.some_ne_none _
        · split at h
          · rw [if_pos (by omega)]
            exact Option.some_ne_none _
          · exact absurd rfl h
  | some boundary =>
      have hne := delimiterOf_ne_nil boundary
      obtain ⟨hparts, hdepth⟩ := MultipartCounts.run_le (delimiterOf boundary) ([] ++ body)
        (MultipartCounts.run (delimiterOf boundary) [] {} body) more
      rw [← MultipartCounts.run_append, (MultipartCounts.run_counts hne _).1,
        (MultipartCounts.run_counts hne _).1] at hparts
      rw [← MultipartCounts.run_append, (MultipartCounts.run_counts hne _).2,
        (MultipartCounts.run_counts hne _).2] at hdepth
      dsimp only at h ⊢
      split
      · exact Option.some_ne_none _
      · rename_i hclean
        rw [if_neg] at h
        · split
          · exact Option.some_ne_none _
          · rw [if_neg (by omega)] at h
            split at h
            · rw [if_pos (by omega)]
              exact Option.some_ne_none _
            · exact absurd rfl h
        · intro hfound
          rw [BlockedNameScanner.test_iff] at hclean hfound
          exact hclean (BlockedNameScanner.occurs_append hfound more)

/-! ## One chunk -/

/-- The inspector after a body without a violation. -/
structure Inspected (s : FormBodyInspector) (boundary : Option (List Char))
    (limits : RequestLimits) (names : List BlockedName) (body : Bytes) : Prop where
  limits_eq : s.limits = limits
  violation : s.violation = none
  urlencoded : boundary = none → ∃ urlEncoded, s.urlEncoded = some urlEncoded ∧
    SameCounts urlEncoded (UrlEncodedScanner.run {} body)
  multipart : ∀ text, boundary = some text → s.urlEncoded = none ∧
    (∃ multipart, s.multipart = some multipart ∧ multipart.Scanned (delimiterOf text) body) ∧
    ((s.blocked = none ∧ names = []) ∨
      ∃ blocked, s.blocked = some blocked ∧ blocked.Watching names body)

theorem inspected_new (boundary : Option (List Char)) (limits : RequestLimits)
    (names : List BlockedName) :
    Inspected (.new boundary limits names) boundary limits names [] := by
  cases boundary with
  | none => exact ⟨rfl, rfl, fun _ => ⟨{}, rfl, SameCounts.refl _⟩, (fun _ h => by cases h)⟩
  | some boundary =>
      refine ⟨rfl, rfl, (fun h => by cases h), fun text htext => ?_⟩
      obtain rfl := Option.some.inj htext
      refine ⟨rfl, ⟨_, rfl, MultipartScanner.scanned_new _⟩, ?_⟩
      cases names with
      | nil => exact .inl ⟨rfl, rfl⟩
      | cons name names => exact .inr ⟨_, rfl, BlockedNameScanner.watching_new _⟩

/-- What pushing a chunk must do after a body without a violation. -/
def Answers (result : Option RequestLimitViolation × FormBodyInspector)
    (boundary : Option (List Char)) (limits : RequestLimits) (names : List BlockedName)
    (body : Bytes) : Prop :=
  result.1 = verdict boundary limits names body ∧ result.2.violation = result.1 ∧
    (result.1 = none → Inspected result.2 boundary limits names body)

theorem answers_reject {s : FormBodyInspector} {boundary : Option (List Char)}
    {limits : RequestLimits} {names : List BlockedName} {body : Bytes}
    {violation : RequestLimitViolation}
    (h : verdict boundary limits names body = some violation) :
    Answers (s.reject violation) boundary limits names body :=
  ⟨h.symm, rfl, (fun hnone => by cases hnone)⟩

theorem push_urlencoded {s : FormBodyInspector} {limits : RequestLimits}
    {names : List BlockedName} {body : Bytes} (h : Inspected s none limits names body)
    (chunk : Bytes) : Answers (s.push chunk) none limits names (body ++ chunk) := by
  obtain ⟨urlEncoded, hsome, hsame⟩ := h.urlencoded rfl
  have hfeed : SameCounts (urlEncoded.feed chunk) (UrlEncodedScanner.run {} (body ++ chunk)) := by
    rw [UrlEncodedScanner.run_append]
    exact feedFrom_sameCounts chunk (List.suffix_refl chunk) hsame
  have hfields := hfeed.fields.trans (UrlEncodedScanner.run_counts (body ++ chunk)).1
  have hdepth := hfeed.maxDepth.trans (UrlEncodedScanner.run_counts (body ++ chunk)).2
  unfold FormBodyInspector.push
  rw [h.violation, hsome]
  dsimp only
  rw [h.limits_eq, hfields, hdepth]
  by_cases hmany : 0 < limits.maxInputFields ∧
      limits.maxInputFields < countFields (segments (body ++ chunk))
  · rw [if_pos hmany]
    exact answers_reject (if_pos hmany)
  · rw [if_neg hmany]
    by_cases hdeep : 0 < limits.maxInputNestingDepth ∧
        limits.maxInputNestingDepth < keyDepth (segments (body ++ chunk))
    · rw [if_pos hdeep]
      exact answers_reject ((if_neg hmany).trans (if_pos hdeep))
    · rw [if_neg hdeep]
      refine ⟨((if_neg hmany).trans (if_neg hdeep)).symm, rfl, fun _ => ?_⟩
      exact ⟨rfl, rfl, fun _ => ⟨_, rfl, hfeed⟩, (fun _ ht => by cases ht)⟩

theorem push_multipart {s : FormBodyInspector} {boundary : List Char} {limits : RequestLimits}
    {names : List BlockedName} {body : Bytes} (h : Inspected s (some boundary) limits names body)
    (chunk : Bytes) : Answers (s.push chunk) (some boundary) limits names (body ++ chunk) := by
  have hne := delimiterOf_ne_nil boundary
  obtain ⟨hnone, ⟨multipart, hsome, hscanned⟩, hblocked⟩ := h.multipart boundary rfl
  have hfeed := hscanned.feed hne chunk
  have hparts : (multipart.feed chunk).parts =
      occurrences (delimiterOf boundary) (body ++ chunk) := by
    rw [hfeed.counts, (MultipartCounts.run_counts hne _).1]
  have hdepth : (multipart.feed chunk).maxDepth =
      headerDepth (partPieces (delimiterOf boundary) (body ++ chunk)) := by
    rw [hfeed.counts, (MultipartCounts.run_counts hne _).2]
  -- The search for names, which leaves the rest of the inspector as it is.
  obtain ⟨blocked, hfound, hwatching⟩ : ∃ blocked, s.feedBlocked chunk =
        (BlockedNameScanner.test names (body ++ chunk), { s with blocked }) ∧
      (BlockedNameScanner.test names (body ++ chunk) = false →
        (blocked = none ∧ names = []) ∨
          ∃ scanner, blocked = some scanner ∧ scanner.Watching names (body ++ chunk)) := by
    rcases hblocked with ⟨hnames, rfl⟩ | ⟨scanner, hscanner, hwatch⟩
    · refine ⟨none, ?_, fun _ => .inl ⟨rfl, rfl⟩⟩
      rw [FormBodyInspector.feedBlocked, hnames]
      show (false, s) = (false, { s with blocked := none })
      rw [← hnames]
    · obtain ⟨hreport, hclean⟩ := hwatch.feed chunk
      have htest : (scanner.feed chunk).1 = BlockedNameScanner.test names (body ++ chunk) := by
        rw [Bool.eq_iff_iff, BlockedNameScanner.test_iff]
        exact hreport
      refine ⟨some (scanner.feed chunk).2, ?_, fun hfalse => .inr ⟨_, rfl, ?_⟩⟩
      · rw [FormBodyInspector.feedBlocked, hscanner, ← htest]
      · exact hclean (htest.trans hfalse)
  unfold FormBodyInspector.push
  rw [h.violation, hnone]
  dsimp only
  rw [hfound]
  dsimp only
  by_cases hname : BlockedNameScanner.test names (body ++ chunk) = true
  · rw [if_pos hname]
    exact answers_reject (if_pos hname)
  · rw [if_neg hname, hsome]
    dsimp only
    rw [h.limits_eq, hparts, hdepth]
    by_cases hmany : 0 < limits.maxMultipartParts ∧
        limits.maxMultipartParts < occurrences (delimiterOf boundary) (body ++ chunk)
    · rw [if_pos hmany]
      exact answers_reject ((if_neg hname).trans (if_pos hmany))
    · rw [if_neg hmany]
      by_cases hdeep : 0 < limits.maxInputNestingDepth ∧ limits.maxInputNestingDepth <
          headerDepth (partPieces (delimiterOf boundary) (body ++ chunk))
      · rw [if_pos hdeep]
        exact answers_reject ((if_neg hname).trans ((if_neg hmany).trans (if_pos hdeep)))
      · rw [if_neg hdeep]
        refine ⟨((if_neg hname).trans ((if_neg hmany).trans (if_neg hdeep))).symm, h.violation,
          fun _ => ⟨rfl, h.violation, (fun hb => by cases hb), fun text htext => ?_⟩⟩
        obtain rfl := Option.some.inj htext
        exact ⟨hnone, ⟨_, rfl, hfeed⟩, hwatching (Bool.not_eq_true _ ▸ hname)⟩

/-- A chunk is answered with the verdict of the bytes up to its end. -/
theorem Inspected.push {s : FormBodyInspector} {boundary : Option (List Char)}
    {limits : RequestLimits} {names : List BlockedName} {body : Bytes}
    (h : Inspected s boundary limits names body) (chunk : Bytes) :
    Answers (s.push chunk) boundary limits names (body ++ chunk) := by
  cases boundary with
  | none => exact push_urlencoded h chunk
  | some boundary => exact push_multipart h chunk

/-! ## All chunks -/

theorem Inspected.hasCounts {s : FormBodyInspector} {boundary : Option (List Char)}
    {limits : RequestLimits} {names : List BlockedName} {body : Bytes}
    (h : Inspected s boundary limits names body) : HasCounts s boundary body := by
  cases boundary with
  | none =>
      obtain ⟨urlEncoded, hsome, hsame⟩ := h.urlencoded rfl
      obtain ⟨hfields, hdepth⟩ := UrlEncodedScanner.run_counts body
      exact ⟨urlEncoded, hsome, hsame.fields.trans hfields, hsame.maxDepth.trans hdepth⟩
  | some boundary =>
      obtain ⟨-, ⟨multipart, hsome, hscanned⟩, -⟩ := h.multipart boundary rfl
      obtain ⟨hparts, hdepth⟩ := MultipartCounts.run_counts (delimiterOf_ne_nil boundary) body
      refine ⟨multipart, hsome, ?_, ?_⟩
      · rw [hscanned.counts, hparts]
      · rw [hscanned.counts, hdepth]

theorem pushAll_append (s : FormBodyInspector) (first second : List Bytes) :
    s.pushAll (first ++ second) =
      ((s.pushAll first).1 ++ ((s.pushAll first).2.pushAll second).1,
        ((s.pushAll first).2.pushAll second).2) := by
  induction first generalizing s with
  | nil => rfl
  | cons chunk first ih =>
      rw [List.cons_append, FormBodyInspector.pushAll, FormBodyInspector.pushAll]
      dsimp only
      rw [ih]
      rfl

/-- After a violation every chunk is answered with it. -/
theorem pushAll_violation {s : FormBodyInspector} {violation : RequestLimitViolation}
    (h : s.violation = some violation) (chunks : List Bytes) :
    s.pushAll chunks = (List.replicate chunks.length (some violation), s) := by
  induction chunks with
  | nil => rfl
  | cons chunk chunks ih =>
      have hpush : s.push chunk = (some violation, s) := by
        rw [FormBodyInspector.push, h]
      rw [FormBodyInspector.pushAll, hpush]
      dsimp only
      rw [ih]
      rfl

/-- While nothing is reported, the inspector is that of the bytes so far. -/
theorem Inspected.pushAll {s : FormBodyInspector} {boundary : Option (List Char)}
    {limits : RequestLimits} {names : List BlockedName} {body : Bytes}
    (h : Inspected s boundary limits names body) {chunks : List Bytes}
    (hnone : ∀ report ∈ (s.pushAll chunks).1, report = none) :
    Inspected (s.pushAll chunks).2 boundary limits names (body ++ chunks.flatten) := by
  induction chunks generalizing s body with
  | nil =>
      rw [List.flatten_nil, List.append_nil]
      exact h
  | cons chunk chunks ih =>
      have hpush := (h.push chunk).2.2 (hnone _ List.mem_cons_self)
      have hrest := ih hpush fun report hreport => hnone report (List.mem_cons_of_mem _ hreport)
      rw [List.flatten_cons, ← List.append_assoc]
      exact hrest

/-- Something is reported on the way exactly when the whole body deserves it. -/
theorem Inspected.reports_iff {s : FormBodyInspector} {boundary : Option (List Char)}
    {limits : RequestLimits} {names : List BlockedName} {body : Bytes}
    (h : Inspected s boundary limits names body)
    (hclean : verdict boundary limits names body = none) (chunks : List Bytes) :
    (∃ violation, some violation ∈ (s.pushAll chunks).1) ↔
      verdict boundary limits names (body ++ chunks.flatten) ≠ none := by
  induction chunks generalizing s body with
  | nil =>
      rw [List.flatten_nil, List.append_nil, hclean]
      constructor
      · rintro ⟨_, hmem⟩
        cases hmem
      · intro hne
        exact absurd rfl hne
  | cons chunk chunks ih =>
      obtain ⟨hreport, hviolation, hnext⟩ := h.push chunk
      rw [List.flatten_cons, ← List.append_assoc, FormBodyInspector.pushAll]
      dsimp only
      cases hanswer : (s.push chunk).1 with
      | none =>
          rw [hanswer] at hreport
          rw [← ih (hnext hanswer) hreport.symm]
          refine exists_congr fun violation => ?_
          rw [List.mem_cons]
          exact ⟨fun hmem => hmem.resolve_left (Option.some_ne_none _), .inr⟩
      | some violation =>
          rw [hanswer] at hreport
          constructor
          · intro _
            refine verdict_append ?_ _
            rw [← hreport]
            exact Option.some_ne_none _
          · intro _
            exact ⟨violation, List.mem_cons_self⟩

theorem verdict_nil (boundary : Option (List Char)) (limits : RequestLimits)
    (names : List BlockedName) : verdict boundary limits names [] = none := by
  unfold verdict
  cases boundary with
  | none => exact (if_neg (by rintro ⟨-, h⟩; cases h)).trans (if_neg (by rintro ⟨-, h⟩; cases h))
  | some boundary =>
      have hnames : ¬BlockedNameScanner.test names [] = true := by
        rw [BlockedNameScanner.test_iff]
        exact (BlockedNameScanner.watching_new names).clean
      have hparts : occurrences (delimiterOf boundary) [] = 0 :=
        (MultipartCounts.run_counts (delimiterOf_ne_nil boundary) []).1.symm
      have hdepth : headerDepth (partPieces (delimiterOf boundary) []) = 0 := rfl
      dsimp only
      rw [if_neg hnames, hparts, hdepth, if_neg (by omega), if_neg (by omega)]

/-- A violation is reported on some chunk exactly when the whole body, as one chunk, is answered
with one. Until then the counts are those of the bytes so far, a chunk is answered with the
verdict of the bytes up to its end, which names a blocked field exactly when one occurs in them,
and from the first violation on every chunk is answered with it. -/
theorem form_inspection_of_chunks (boundary : Option (List Char)) (limits : RequestLimits)
    (names : List BlockedName) (chunks : List Bytes) :
    ((∃ violation, some violation ∈
          ((FormBodyInspector.new boundary limits names).pushAll chunks).1) ↔
        ∃ violation, ((FormBodyInspector.new boundary limits names).push chunks.flatten).1 =
          some violation) ∧
      ((∀ report ∈ ((FormBodyInspector.new boundary limits names).pushAll chunks).1, report = none) →
        HasCounts ((FormBodyInspector.new boundary limits names).pushAll chunks).2 boundary
          chunks.flatten) ∧
      (∀ earlier chunk later, chunks = earlier ++ chunk :: later →
        (∀ report ∈ ((FormBodyInspector.new boundary limits names).pushAll earlier).1,
          report = none) →
        (((FormBodyInspector.new boundary limits names).pushAll earlier).2.push chunk).1 =
            verdict boundary limits names (earlier.flatten ++ chunk) ∧
          (∀ violation,
            verdict boundary limits names (earlier.flatten ++ chunk) = some violation →
            ((FormBodyInspector.new boundary limits names).pushAll chunks).1 =
              ((FormBodyInspector.new boundary limits names).pushAll earlier).1 ++
                List.replicate (later.length + 1) (some violation)) ∧
          ∀ text, boundary = some text →
            ((((FormBodyInspector.new boundary limits names).pushAll earlier).2.push chunk).1 =
                some fieldBlockedViolation ↔
              ∃ name ∈ names, name.text.map canonicalize <:+:
                (earlier.flatten ++ chunk).map canonicalize)) := by
  have hnew := inspected_new boundary limits names
  refine ⟨?_, fun hnone => (hnew.pushAll hnone).hasCounts, ?_⟩
  · rw [hnew.reports_iff (verdict_nil boundary limits names), (hnew.push chunks.flatten).1,
      Option.ne_none_iff_exists']
  · rintro earlier chunk later rfl hnone
    obtain ⟨hreport, hviolation, -⟩ := (hnew.pushAll hnone).push chunk
    rw [List.nil_append] at hreport
    refine ⟨hreport, fun violation hverdict => ?_, ?_⟩
    · rw [hreport, hverdict] at hviolation
      rw [pushAll_append, FormBodyInspector.pushAll]
      dsimp only
      rw [pushAll_violation hviolation, hreport, hverdict]
      rfl
    · rintro text rfl
      rw [hreport, verdict_blocked_iff]
      rfl

/-- The counts stop with the first violation, and a blocked name behind it is not reported. -/
theorem form_inspection_stops_counting :
    ¬∀ (boundary : List Char) (limits : RequestLimits) (names : List BlockedName)
      (chunks : List Bytes),
      HasCounts ((FormBodyInspector.new (some boundary) limits names).pushAll chunks).2
          (some boundary) chunks.flatten ∧
        (some fieldBlockedViolation ∈
            ((FormBodyInspector.new (some boundary) limits names).pushAll chunks).1 ↔
          Occurs names chunks.flatten) := by
  intro h
  obtain ⟨hcounts, -⟩ := h ['b'] { maxInputFields := 0, maxMultipartParts := 1, maxInputNestingDepth := 0 }
    [{ text := [0x58], nonempty := by decide, short := by decide, visible := by decide }]
    ["--b--b".toUTF8.toList, "--bX".toUTF8.toList]
  obtain ⟨multipart, hsome, hparts, -⟩ := hcounts
  have hkept : (((FormBodyInspector.new (some ['b'])
      { maxInputFields := 0, maxMultipartParts := 1, maxInputNestingDepth := 0 }
      [{ text := [0x58], nonempty := by decide, short := by decide, visible := by decide }]).pushAll
      ["--b--b".toUTF8.toList, "--bX".toUTF8.toList]).2.multipart.map (·.parts)) = some 2 := by
    decide +kernel
  rw [hsome] at hkept
  have hall : occurrences (delimiterOf ['b'])
      ["--b--b".toUTF8.toList, "--bX".toUTF8.toList].flatten = 3 := by
    decide +kernel
  rw [hall] at hparts
  rw [Option.map_some, hparts] at hkept
  cases hkept

end BurrowGate.Form
