import BurrowGate.Js.CaseTable
import Mathlib.Data.List.Basic

/-!
# Body capture

`captureBufferedBody` and `tapBodyForCapture` of `body-capture-service.ts`. The decompressors of
`node:zlib` are a parameter. A stream is the chunks that its source yields, how the source ends,
and where the reader of the forwarded body gives up, if it does.
-/

namespace BurrowGate.BodyCapture

open Js

inductive CompressedFormat
  | gzip
  | deflate
  | brotli
  | zstd
  deriving DecidableEq

inductive DecompressionFormat
  | identity
  | compressed (format : CompressedFormat)
  | unsupported
  deriving DecidableEq

structure CapturedBody where
  text : List Char
  truncated : Bool
  contentType : Option (List Char)
  deriving DecidableEq

/-- The promise `captured`. -/
inductive Captured
  | unsettled
  | settled (value : Option CapturedBody)
  deriving DecidableEq

/-- What the reader of a stream meets behind its chunks. -/
inductive Ending
  | closed
  | failed
  | waiting
  deriving DecidableEq

/-- A streaming decompressor is given the chunks so far and whether their source has closed. What
it yields is what its reader gets before the ending. -/
structure Zlib where
  gunzipSync : List UInt8 → Option (List UInt8)
  brotliDecompressSync : List UInt8 → Option (List UInt8)
  zstdDecompressSync : List UInt8 → Option (List UInt8)
  inflateSync : List UInt8 → Option (List UInt8)
  inflateRawSync : List UInt8 → Option (List UInt8)
  streamed : CompressedFormat → List (List UInt8) → Bool → List (List UInt8) × Ending

structure Delivery where
  chunks : List (List UInt8)
  closed : Bool
  cancelledAfter : Option Nat
  deriving DecidableEq

structure Tapped where
  body : List (List UInt8)
  captured : Captured

section

variable (table : CaseTable) (zlib : Zlib)

/-! ## The content type and the encoding -/

def isLineTerminator (c : Char) : Bool := ['\n', '\r', '\u2028', '\u2029'].contains c

/-- `TEXT_CONTENT_TYPE.test(base)` -/
def textContentType (base : List Char) : Bool :=
  "text/".toList.isPrefixOf base ||
    (["json", "xml", "javascript", "x-javascript", "x-www-form-urlencoded", "x-ndjson",
      "ld+json"].any fun subtype => base = "application/".toList ++ subtype.toList) ||
    ["+json", "+xml"].any fun suffix =>
      suffix.toList.isSuffixOf base &&
        !(base.take (base.length - suffix.length)).any isLineTerminator

/-- `contentType.split(";")[0].trim().toLowerCase()` -/
def baseContentType (contentType : List Char) : List Char :=
  table.toLowerCase (trim (contentType.takeWhile (· ≠ ';')))

def isTextContentType : Option (List Char) → Bool
  | none => false
  | some contentType =>
      let base := baseContentType table contentType
      !base.isEmpty && textContentType base

def isAllowedContentType (contentType : Option (List Char))
    (allowedContentTypes : List (List Char)) : Bool :=
  isTextContentType table contentType &&
    (allowedContentTypes.contains ['*'] ||
      contentType.any fun value => allowedContentTypes.contains (baseContentType table value))

def decompressionFormat (contentEncoding : Option (List Char)) : DecompressionFormat :=
  let value := contentEncoding.map fun encoding => table.toLowerCase (trim encoding)
  match value.map String.ofList with
  | none | some "" | some "identity" => .identity
  | some "gzip" | some "x-gzip" => .compressed .gzip
  | some "deflate" => .compressed .deflate
  | some "br" => .compressed .brotli
  | some "zstd" => .compressed .zstd
  | some _ => .unsupported

/-! ## A body that is read already -/

def decompressBufferSync (buffer : List UInt8) : CompressedFormat → Option (List UInt8)
  | .gzip => zlib.gunzipSync buffer
  | .brotli => zlib.brotliDecompressSync buffer
  | .zstd => zlib.zstdDecompressSync buffer
  | .deflate => zlib.inflateSync buffer <|> zlib.inflateRawSync buffer

def captureBufferedBody (buffer : List UInt8) (contentType : Option (List Char)) (maxBytes : Nat)
    (contentEncoding : Option (List Char)) (allowedContentTypes : List (List Char)) :
    Option CapturedBody :=
  if maxBytes = 0 || !isAllowedContentType table contentType allowedContentTypes then none
  else
    let decoded := match decompressionFormat table contentEncoding with
      | .unsupported => none
      | .identity => some buffer
      | .compressed format => decompressBufferSync zlib buffer format
    decoded.map fun decoded =>
      let truncated := decide (decoded.length > maxBytes)
      { text := textDecode (if truncated then decoded.take maxBytes else decoded)
        truncated, contentType }

def bufferedCapture (chunks : List (List UInt8)) (contentType : Option (List Char))
    (truncated : Bool) : CapturedBody :=
  { text := textDecode chunks.flatten, truncated, contentType }

/-! ## A body that is not compressed -/

/-- `settled` is what the promise has been settled with. -/
structure IdentityTap where
  settled : Option CapturedBody
  chunks : List (List UInt8)
  received : Nat
  enqueued : List (List UInt8)

def transform (contentType : Option (List Char)) (maxBytes : Nat) (tap : IdentityTap)
    (chunk : List UInt8) : IdentityTap :=
  let kept :=
    if tap.settled.isNone then
      let remaining := maxBytes - tap.received
      let tap :=
        if remaining > 0 then
          let piece := if chunk.length > remaining then chunk.take remaining else chunk
          { tap with chunks := tap.chunks ++ [piece], received := tap.received + piece.length }
        else tap
      if tap.received ≥ maxBytes then
        { tap with settled := some (bufferedCapture tap.chunks contentType true) }
      else tap
    else tap
  { kept with enqueued := kept.enqueued ++ [chunk] }

def flush (contentType : Option (List Char)) (tap : IdentityTap) : Option CapturedBody :=
  tap.settled <|>
    if tap.chunks.length > 0 then some (bufferedCapture tap.chunks contentType false) else none

/-- The chunks that pass before the reader of the forwarded body gives up. -/
def Delivery.passed (body : Delivery) : List (List UInt8) :=
  match body.cancelledAfter with
  | none => body.chunks
  | some count => body.chunks.take count

/-- The source closes, and its reader gets there. -/
def Delivery.completes (body : Delivery) : Bool := body.closed && body.cancelledAfter.isNone

/-- `flush` runs only where the stream completes: not when it is cancelled or fails. -/
def tapIdentityBody (body : Delivery) (contentType : Option (List Char)) (maxBytes : Nat) :
    Tapped :=
  let tap := body.passed.foldl (transform contentType maxBytes) ⟨none, [], 0, []⟩
  { body := tap.enqueued
    captured :=
      if body.completes then .settled (flush contentType tap)
      else match tap.settled with
        | some value => .settled (some value)
        | none => .unsettled }

/-! ## A compressed body -/

/-- The loop of `captureCompressed` over what the decompressor yields. -/
def captureDecoded (contentType : Option (List Char)) (maxBytes : Nat)
    (chunks : List (List UInt8)) (received : Nat) : List (List UInt8) → Ending → Captured
  | [], .closed =>
      .settled (if chunks.length > 0 then some (bufferedCapture chunks contentType false) else none)
  | [], .failed => .settled none
  | [], .waiting => .unsettled
  | value :: rest, ending =>
      if value.length = 0 then captureDecoded contentType maxBytes chunks received rest ending
      else
        let remaining := maxBytes - received
        let piece := if value.length > remaining then value.take remaining else value
        if received + piece.length ≥ maxBytes then
          .settled (some (bufferedCapture (chunks ++ [piece]) contentType true))
        else
          captureDecoded contentType maxBytes (chunks ++ [piece]) (received + piece.length) rest
            ending

/-- The branch of `tee` that is captured gets the whole source, also when the other one is
cancelled. -/
def captureCompressed (body : Delivery) (contentType : Option (List Char)) (maxBytes : Nat)
    (format : CompressedFormat) : Captured :=
  let decompressed := zlib.streamed format body.chunks body.closed
  captureDecoded contentType maxBytes [] 0 decompressed.1 decompressed.2

def tapBodyForCapture (body : Delivery) (contentType : Option (List Char)) (maxBytes : Nat)
    (contentEncoding : Option (List Char)) (allowedContentTypes : List (List Char)) : Tapped :=
  if maxBytes = 0 || !isAllowedContentType table contentType allowedContentTypes then
    ⟨body.passed, .settled none⟩
  else match decompressionFormat table contentEncoding with
    | .unsupported => ⟨body.passed, .settled none⟩
    | .identity => tapIdentityBody body contentType maxBytes
    | .compressed format => ⟨body.passed, captureCompressed zlib body contentType maxBytes format⟩

end

/-! ## The law -/

/-- The synchronous decompressor of each streaming one. -/
def Zlib.decodeSync (zlib : Zlib) (buffer : List UInt8) : CompressedFormat → Option (List UInt8)
  | .gzip => zlib.gunzipSync buffer
  | .brotli => zlib.brotliDecompressSync buffer
  | .zstd => zlib.zstdDecompressSync buffer
  | .deflate => zlib.inflateSync buffer

/-- On a whole body both produce the same bytes or both fail. -/
def Zlib.Agrees (zlib : Zlib) : Prop :=
  ∀ format chunks,
    match zlib.decodeSync chunks.flatten format with
    | some bytes =>
        (zlib.streamed format chunks true).1.flatten = bytes ∧
          (zlib.streamed format chunks true).2 = .closed
    | none => (zlib.streamed format chunks true).2 = .failed

section

variable (table : CaseTable) (zlib : Zlib) (body : Delivery) (contentType : Option (List Char))
  (maxBytes : Nat) (contentEncoding : Option (List Char)) (allowedContentTypes : List (List Char))

structure SameCapture : Prop where
  forwarded : (tapBodyForCapture table zlib body contentType maxBytes contentEncoding
    allowedContentTypes).body = body.passed
  equal : body.completes = true →
    (tapBodyForCapture table zlib body contentType maxBytes contentEncoding
      allowedContentTypes).captured =
      .settled (captureBufferedBody table zlib body.chunks.flatten contentType maxBytes
        contentEncoding allowedContentTypes)
  settles : (tapBodyForCapture table zlib body contentType maxBytes contentEncoding
    allowedContentTypes).captured ≠ .unsettled

def IdentityOrderly : Prop :=
  if body.completes then body.chunks ≠ [] ∧ body.chunks.flatten.length ≠ maxBytes
  else maxBytes ≤ body.passed.flatten.length

/-- What the streaming decompressor yields before its ending. -/
def decodedBytes (format : CompressedFormat) : List UInt8 :=
  (zlib.streamed format body.chunks body.closed).1.flatten

def DecodedOrderly (format : CompressedFormat) : Prop :=
  match zlib.decodeSync body.chunks.flatten format,
      decompressBufferSync zlib body.chunks.flatten format with
  | some bytes, _ => bytes ≠ [] ∧ bytes.length ≠ maxBytes
  | none, none => (decodedBytes zlib body format).length < maxBytes
  -- Only `inflateRawSync` accepts the body.
  | none, some raw =>
      maxBytes ≤ (decodedBytes zlib body format).length ∧ maxBytes < raw.length ∧
        textDecode ((decodedBytes zlib body format).take maxBytes) =
          textDecode (raw.take maxBytes)

def CompressedOrderly (format : CompressedFormat) : Prop :=
  ((zlib.streamed format body.chunks body.closed).2 = .waiting →
    maxBytes ≤ (decodedBytes zlib body format).length) ∧
  (body.completes = true → DecodedOrderly zlib body maxBytes format)

/-- Nothing is captured, or the body completes with a length that is neither nothing nor the limit,
or what arrives of it reaches the limit. -/
def Orderly : Prop :=
  maxBytes = 0 ∨ isAllowedContentType table contentType allowedContentTypes = false ∨
    match decompressionFormat table contentEncoding with
    | .unsupported => True
    | .identity => IdentityOrderly body maxBytes
    | .compressed format => CompressedOrderly zlib body maxBytes format

end

variable {table : CaseTable} {zlib : Zlib} {body : Delivery} {contentType : Option (List Char)}
  {maxBytes : Nat} {contentEncoding : Option (List Char)} {allowedContentTypes : List (List Char)}

/-! ## What is captured of the bytes that arrive -/

/-- The capture of the first `maxBytes` bytes. -/
def cut (contentType : Option (List Char)) (maxBytes : Nat) (bytes : List UInt8) : CapturedBody :=
  ⟨textDecode (bytes.take maxBytes), true, contentType⟩

/-- A piece is the chunk as far as the limit allows. -/
theorem piece_eq_take (chunk : List UInt8) (remaining : Nat) :
    (if chunk.length > remaining then chunk.take remaining else chunk) = chunk.take remaining := by
  split
  · rfl
  · rename_i hfits
    exact (List.take_of_length_le (Nat.le_of_not_gt hfits)).symm

/-- The state of the tap when `chunks` have passed. -/
structure Tracks (contentType : Option (List Char)) (maxBytes : Nat) (chunks : List (List UInt8))
    (tap : IdentityTap) : Prop where
  enqueued : tap.enqueued = chunks
  reached : maxBytes ≤ chunks.flatten.length →
    tap.settled = some (cut contentType maxBytes chunks.flatten)
  below : chunks.flatten.length < maxBytes →
    tap.settled = none ∧ tap.chunks = chunks ∧ tap.received = chunks.flatten.length

theorem transform_of_settled {tap : IdentityTap} (h : tap.settled.isNone = false)
    (chunk : List UInt8) :
    transform contentType maxBytes tap chunk =
      { tap with enqueued := tap.enqueued ++ [chunk] } := by
  rw [transform, h]
  rfl

theorem Tracks.transform {chunks : List (List UInt8)} {tap : IdentityTap}
    (h : Tracks contentType maxBytes chunks tap) (chunk : List UInt8) :
    Tracks contentType maxBytes (chunks ++ [chunk])
      (transform contentType maxBytes tap chunk) := by
  have hflatten : (chunks ++ [chunk]).flatten = chunks.flatten ++ chunk := by simp
  by_cases hreached : maxBytes ≤ chunks.flatten.length
  · have hsettled := h.reached hreached
    have hkept : tap.settled.isNone = false := by rw [hsettled]; rfl
    rw [transform_of_settled hkept]
    refine ⟨by rw [← h.enqueued], fun _ => ?_, fun hbelow => ?_⟩
    · rw [hflatten, cut, List.take_append_of_le_length hreached]
      exact hsettled
    · rw [hflatten, List.length_append] at hbelow
      omega
  · obtain ⟨hnone, hchunks, hreceived⟩ := h.below (Nat.lt_of_not_le hreached)
    have hopen : tap.settled.isNone = true := by rw [hnone]; rfl
    have hremaining : maxBytes - tap.received > 0 := by omega
    have hroom : tap.received + (chunk.take (maxBytes - tap.received)).length ≥ maxBytes ↔
        maxBytes ≤ chunks.flatten.length + chunk.length := by
      rw [List.length_take]
      omega
    simp only [BodyCapture.transform, hopen, if_true, if_pos hremaining, piece_eq_take]
    by_cases hfull : maxBytes ≤ chunks.flatten.length + chunk.length
    · rw [if_pos (hroom.mpr hfull)]
      refine ⟨by rw [← h.enqueued], fun _ => ?_, fun hbelow => ?_⟩
      · have htake : (chunks.flatten ++ chunk).take maxBytes =
            chunks.flatten ++ chunk.take (maxBytes - tap.received) := by
          rw [List.take_append, List.take_of_length_le (Nat.le_of_not_le hreached), hreceived]
        rw [hflatten, cut, htake, bufferedCapture, hchunks]
        simp
      · rw [hflatten, List.length_append] at hbelow
        omega
    · rw [if_neg (fun hge => hfull (hroom.mp hge))]
      have hwhole : chunk.take (maxBytes - tap.received) = chunk :=
        List.take_of_length_le (by omega)
      refine ⟨by rw [← h.enqueued], fun hbeyond => ?_, fun _ => ⟨hnone, ?_, ?_⟩⟩
      · rw [hflatten, List.length_append] at hbeyond
        omega
      · rw [hwhole, hchunks]
      · rw [hwhole, hreceived, hflatten, List.length_append]

theorem tracks_foldl (contentType : Option (List Char)) (hmax : 0 < maxBytes)
    (chunks : List (List UInt8)) :
    Tracks contentType maxBytes chunks
      (chunks.foldl (transform contentType maxBytes) ⟨none, [], 0, []⟩) := by
  induction chunks using List.reverseRecOn with
  | nil =>
      exact ⟨rfl, fun hreached => absurd hmax (by simpa using hreached), fun _ => ⟨rfl, rfl, rfl⟩⟩
  | append_singleton chunks chunk ih =>
      rw [List.foldl_append]
      exact ih.transform chunk

/-- The capture of bytes that stay below the limit. -/
def whole (contentType : Option (List Char)) (decoded : List UInt8) : Ending → Captured
  | .closed =>
      .settled (if decoded = [] then none else some ⟨textDecode decoded, false, contentType⟩)
  | .failed => .settled none
  | .waiting => .unsettled

/-- The capture of a compressed body. -/
def outcome (contentType : Option (List Char)) (maxBytes : Nat) (decoded : List UInt8)
    (ending : Ending) : Captured :=
  if maxBytes ≤ decoded.length then .settled (some (cut contentType maxBytes decoded))
  else whole contentType decoded ending

theorem captureDecoded_eq_outcome {chunks : List (List UInt8)} {received : Nat}
    (hreceived : received = chunks.flatten.length) (hbelow : received < maxBytes)
    (hempty : chunks.flatten = [] → chunks = []) (values : List (List UInt8)) (ending : Ending) :
    captureDecoded contentType maxBytes chunks received values ending =
      outcome contentType maxBytes (chunks.flatten ++ values.flatten) ending := by
  induction values generalizing chunks received with
  | nil =>
      have hunder : ¬ maxBytes ≤ (chunks.flatten ++ ([] : List (List UInt8)).flatten).length := by
        simp only [List.flatten_nil, List.append_nil]
        omega
      rw [outcome, if_neg hunder]
      cases ending with
      | closed =>
          have hiff : chunks.length > 0 ↔ ¬ chunks.flatten = [] := by
            rw [gt_iff_lt, List.length_pos_iff, not_iff_not]
            exact ⟨fun h => (by rw [h]; rfl), hempty⟩
          simp only [captureDecoded, whole, List.flatten_nil, List.append_nil, hiff,
            bufferedCapture, ite_not]
      | failed => rw [captureDecoded, whole]
      | waiting => rw [captureDecoded, whole]
  | cons value values ih =>
      rw [captureDecoded]
      by_cases hvalue : value.length = 0
      · rw [if_pos hvalue, ih hreceived hbelow hempty, List.flatten_cons,
          List.length_eq_zero_iff.mp hvalue, List.nil_append]
      · rw [if_neg hvalue]
        simp only [piece_eq_take]
        by_cases hfull : maxBytes ≤ received + value.length
        · have hge : received + (value.take (maxBytes - received)).length ≥ maxBytes := by
            rw [List.length_take]
            omega
          have hlong : maxBytes ≤ (chunks.flatten ++ (value :: values).flatten).length := by
            simp only [List.flatten_cons, List.length_append]
            omega
          have htake : (chunks.flatten ++ (value ++ values.flatten)).take maxBytes =
              chunks.flatten ++ value.take (maxBytes - received) := by
            rw [List.take_append, List.take_of_length_le (by omega), ← hreceived,
              List.take_append_of_le_length (by omega)]
          rw [if_pos hge, outcome, if_pos hlong, cut, List.flatten_cons, htake, bufferedCapture]
          simp
        · have hlt : ¬ received + (value.take (maxBytes - received)).length ≥ maxBytes := by
            rw [List.length_take]
            omega
          have hwhole : value.take (maxBytes - received) = value :=
            List.take_of_length_le (by omega)
          rw [if_neg hlt, hwhole, ih (by simp [hreceived]) (by omega)]
          · simp
          · intro hnone
            have hnil : value = [] := by
              rw [List.flatten_append, List.append_eq_nil_iff] at hnone
              simpa using hnone.2
            exact absurd (List.length_eq_zero_iff.mpr hnil) hvalue

theorem captureCompressed_eq_outcome (hmax : 0 < maxBytes) (format : CompressedFormat) :
    captureCompressed zlib body contentType maxBytes format =
      outcome contentType maxBytes (zlib.streamed format body.chunks body.closed).1.flatten
        (zlib.streamed format body.chunks body.closed).2 := by
  rw [captureCompressed]
  exact captureDecoded_eq_outcome rfl hmax (fun _ => rfl) _ _

/-! ## Both captures of the same bytes -/

/-- The capture of bytes that are read already. -/
def buffered (contentType : Option (List Char)) (maxBytes : Nat) (bytes : List UInt8) :
    CapturedBody :=
  if bytes.length > maxBytes then cut contentType maxBytes bytes
  else ⟨textDecode bytes, false, contentType⟩

/-- The two part at the limit itself, and where nothing has arrived. -/
theorem settled_eq_buffered_iff (contentType : Option (List Char)) (hmax : 0 < maxBytes)
    {bytes : List UInt8} {absent : Prop} [Decidable absent] (habsent : absent → bytes = []) :
    ((if maxBytes ≤ bytes.length then Captured.settled (some (cut contentType maxBytes bytes))
      else .settled (if absent then none else some ⟨textDecode bytes, false, contentType⟩)) =
        .settled (some (buffered contentType maxBytes bytes))) ↔
      ¬ absent ∧ bytes.length ≠ maxBytes := by
  by_cases hreached : maxBytes ≤ bytes.length
  · have hpresent : ¬ absent := by
      intro h
      rw [habsent h, List.length_nil] at hreached
      omega
    rw [if_pos hreached, Captured.settled.injEq, Option.some.injEq, buffered]
    by_cases hlong : bytes.length > maxBytes
    · rw [if_pos hlong]
      exact iff_of_true rfl ⟨hpresent, by omega⟩
    · rw [if_neg hlong]
      have hlimit : bytes.length = maxBytes := by omega
      refine iff_of_false (fun h => ?_) fun h => h.2 hlimit
      exact absurd (congrArg CapturedBody.truncated h) (by simp [cut])
  · have hshort : ¬ bytes.length > maxBytes := by omega
    rw [if_neg hreached, Captured.settled.injEq, buffered, if_neg hshort]
    by_cases hgone : absent
    · rw [if_pos hgone]
      exact iff_of_false (fun h => (by cases h)) fun h => h.1 hgone
    · rw [if_neg hgone]
      exact iff_of_true rfl ⟨hgone, by omega⟩

theorem failed_eq_none_iff {decoded : List UInt8} :
    outcome contentType maxBytes decoded .failed = .settled none ↔ decoded.length < maxBytes := by
  rw [outcome, whole]
  split
  · exact iff_of_false (fun h => (by cases h)) (by omega)
  · exact iff_of_true rfl (by omega)

theorem failed_eq_buffered_iff {decoded raw : List UInt8} :
    outcome contentType maxBytes decoded .failed =
        .settled (some (buffered contentType maxBytes raw)) ↔
      maxBytes ≤ decoded.length ∧ maxBytes < raw.length ∧
        textDecode (decoded.take maxBytes) = textDecode (raw.take maxBytes) := by
  rw [outcome, whole, buffered]
  by_cases hreached : maxBytes ≤ decoded.length
  · rw [if_pos hreached, Captured.settled.injEq, Option.some.injEq]
    by_cases hlong : raw.length > maxBytes
    · rw [if_pos hlong, cut, cut, CapturedBody.mk.injEq]
      exact ⟨fun h => ⟨hreached, hlong, h.1⟩, fun h => ⟨h.2.2, rfl, rfl⟩⟩
    · rw [if_neg hlong]
      refine iff_of_false (fun h => ?_) fun h => hlong h.2.1
      exact absurd (congrArg CapturedBody.truncated h) (by simp [cut])
  · rw [if_neg hreached]
    exact iff_of_false (fun h => (by cases h)) fun h => hreached h.1

theorem passed_of_completes (h : body.completes = true) : body.passed = body.chunks := by
  have hnone := (Bool.and_eq_true_iff.mp h).2
  rw [Delivery.passed, Option.isNone_iff_eq_none.mp hnone]

theorem tapIdentityBody_body (hmax : 0 < maxBytes) :
    (tapIdentityBody body contentType maxBytes).body = body.passed :=
  (tracks_foldl contentType hmax body.passed).enqueued

theorem tapIdentityBody_captured (body : Delivery) (contentType : Option (List Char))
    (hmax : 0 < maxBytes) :
    (tapIdentityBody body contentType maxBytes).captured =
      if maxBytes ≤ body.passed.flatten.length then
        .settled (some (cut contentType maxBytes body.passed.flatten))
      else if body.completes then
        .settled (if body.passed = [] then none
          else some ⟨textDecode body.passed.flatten, false, contentType⟩)
      else .unsettled := by
  have htap := tracks_foldl contentType hmax body.passed
  rw [tapIdentityBody]
  generalize body.passed.foldl (transform contentType maxBytes) ⟨none, [], 0, []⟩ = tap at htap
  by_cases hreached : maxBytes ≤ body.passed.flatten.length
  · rw [if_pos hreached, flush, htap.reached hreached]
    simp
  · obtain ⟨hnone, hchunks, -⟩ := htap.below (Nat.lt_of_not_le hreached)
    have hiff : body.passed.length > 0 ↔ ¬ body.passed = [] := by
      rw [gt_iff_lt, List.length_pos_iff]
    rw [if_neg hreached, flush, hnone, hchunks]
    simp only [hiff, ite_not, bufferedCapture]
    rfl

theorem captureBufferedBody_eq (zlib : Zlib) (buffer : List UInt8) (hmax : 0 < maxBytes)
    (hallowed : isAllowedContentType table contentType allowedContentTypes = true)
    (contentEncoding : Option (List Char)) :
    captureBufferedBody table zlib buffer contentType maxBytes contentEncoding
        allowedContentTypes =
      match decompressionFormat table contentEncoding with
      | .unsupported => none
      | .identity => some (buffered contentType maxBytes buffer)
      | .compressed format =>
          (decompressBufferSync zlib buffer format).map (buffered contentType maxBytes) := by
  have hcapture : ∀ bytes : List UInt8,
      (⟨textDecode (if decide (bytes.length > maxBytes) = true then bytes.take maxBytes else bytes),
        decide (bytes.length > maxBytes), contentType⟩ : CapturedBody) =
        buffered contentType maxBytes bytes := by
    intro bytes
    rw [buffered]
    by_cases hlong : bytes.length > maxBytes
    · simp [hlong, cut]
    · simp [hlong]
  have hguard : (decide (maxBytes = 0) ||
      !isAllowedContentType table contentType allowedContentTypes) = false := by
    rw [hallowed, Bool.not_true, Bool.or_false]
    exact decide_eq_false (by omega)
  rw [captureBufferedBody, hguard]
  cases decompressionFormat table contentEncoding with
  | unsupported => rfl
  | identity =>
      simp only [Bool.false_eq_true, if_false, Option.map_some, hcapture]
  | compressed format =>
      simp only [Bool.false_eq_true, if_false, hcapture]

/-! ## When the capture does not depend on how the body arrives -/

theorem sameCapture_of_ignored (h : (decide (maxBytes = 0) ||
    !isAllowedContentType table contentType allowedContentTypes) = true) :
    SameCapture table zlib body contentType maxBytes contentEncoding allowedContentTypes := by
  refine ⟨?_, fun _ => ?_, ?_⟩
  · rw [tapBodyForCapture, if_pos h]
  · rw [tapBodyForCapture, if_pos h, captureBufferedBody, if_pos h]
  · rw [tapBodyForCapture, if_pos h]
    exact fun heq => (by cases heq)

theorem identity_iff (hmax : 0 < maxBytes)
    (hallowed : isAllowedContentType table contentType allowedContentTypes = true)
    (hformat : decompressionFormat table contentEncoding = .identity) :
    SameCapture table zlib body contentType maxBytes contentEncoding allowedContentTypes ↔
      IdentityOrderly body maxBytes := by
  have htap : tapBodyForCapture table zlib body contentType maxBytes contentEncoding
      allowedContentTypes = tapIdentityBody body contentType maxBytes := by
    rw [tapBodyForCapture, hallowed, hformat]
    simp [Nat.ne_of_gt hmax]
  have hbuffered : captureBufferedBody table zlib body.chunks.flatten contentType maxBytes
      contentEncoding allowedContentTypes =
        some (buffered contentType maxBytes body.chunks.flatten) := by
    rw [captureBufferedBody_eq zlib _ hmax hallowed, hformat]
  have hcaptured := tapIdentityBody_captured body contentType hmax
  rw [IdentityOrderly]
  cases hcompletes : body.completes with
  | true =>
      have hpassed := passed_of_completes hcompletes
      rw [hcompletes, hpassed, if_pos rfl] at hcaptured
      have hempty : body.chunks = [] → body.chunks.flatten = [] := by
        intro hnone
        rw [hnone]
        rfl
      rw [if_pos rfl, ← settled_eq_buffered_iff contentType hmax hempty, ← hcaptured]
      constructor
      · intro h
        rw [← hbuffered, ← htap]
        exact h.equal hcompletes
      · intro h
        refine ⟨?_, fun _ => ?_, ?_⟩
        · rw [htap]
          exact tapIdentityBody_body hmax
        · rw [htap, hbuffered]
          exact h
        · rw [htap, h]
          exact fun heq => (by cases heq)
  | false =>
      rw [hcompletes] at hcaptured
      simp only [Bool.false_eq_true, if_false] at hcaptured ⊢
      constructor
      · intro h
        by_contra hbelow
        rw [if_neg hbelow] at hcaptured
        exact h.settles (by rw [htap, hcaptured])
      · intro hreached
        refine ⟨?_, fun hdone => ?_, ?_⟩
        · rw [htap]
          exact tapIdentityBody_body hmax
        · rw [hcompletes] at hdone
          cases hdone
        · rw [htap, hcaptured, if_pos hreached]
          exact fun heq => (by cases heq)

theorem outcome_waiting_iff (contentType : Option (List Char)) {decoded : List UInt8}
    {ending : Ending} :
    outcome contentType maxBytes decoded ending ≠ .unsettled ↔
      (ending = .waiting → maxBytes ≤ decoded.length) := by
  rw [outcome]
  by_cases hreached : maxBytes ≤ decoded.length
  · rw [if_pos hreached]
    exact iff_of_true (fun heq => (by cases heq)) fun _ => hreached
  · rw [if_neg hreached]
    cases ending with
    | closed => exact iff_of_true (fun heq => (by cases heq)) fun heq => (by cases heq)
    | failed => exact iff_of_true (fun heq => (by cases heq)) fun heq => (by cases heq)
    | waiting => exact iff_of_false (fun hne => hne rfl) fun h => hreached (h rfl)

/-- `inflateRawSync` is only asked where `inflateSync` fails. -/
theorem decompressBufferSync_of_decodeSync {buffer bytes : List UInt8} {format : CompressedFormat}
    (h : zlib.decodeSync buffer format = some bytes) :
    decompressBufferSync zlib buffer format = some bytes := by
  cases format with
  | gzip => exact h
  | brotli => exact h
  | zstd => exact h
  | deflate =>
      have hinflate : zlib.inflateSync buffer = some bytes := h
      rw [decompressBufferSync, hinflate]
      rfl

/-- What the stream captures is what the buffer gives. -/
theorem outcome_eq_iff (hzlib : zlib.Agrees) (contentType : Option (List Char))
    (hmax : 0 < maxBytes) (hcompletes : body.completes = true) (format : CompressedFormat) :
    outcome contentType maxBytes (decodedBytes zlib body format)
        (zlib.streamed format body.chunks body.closed).2 =
      .settled ((decompressBufferSync zlib body.chunks.flatten format).map
        (buffered contentType maxBytes)) ↔ DecodedOrderly zlib body maxBytes format := by
  have hclosed : body.closed = true := (Bool.and_eq_true_iff.mp hcompletes).1
  have hagrees := hzlib format body.chunks
  rw [DecodedOrderly, decodedBytes, hclosed]
  cases hdecode : zlib.decodeSync body.chunks.flatten format with
  | some bytes =>
      rw [hdecode] at hagrees
      obtain ⟨hbytes, hend⟩ := hagrees
      rw [decompressBufferSync_of_decodeSync hdecode, hbytes, hend, outcome, whole,
        Option.map_some]
      exact settled_eq_buffered_iff contentType hmax fun hnone => hnone
  | none =>
      rw [hdecode] at hagrees
      have hend : (zlib.streamed format body.chunks true).2 = .failed := hagrees
      rw [hend]
      cases decompressBufferSync zlib body.chunks.flatten format with
      | none => exact failed_eq_none_iff
      | some raw => exact failed_eq_buffered_iff

theorem compressed_iff (hzlib : zlib.Agrees) (hmax : 0 < maxBytes)
    (hallowed : isAllowedContentType table contentType allowedContentTypes = true)
    {format : CompressedFormat}
    (hformat : decompressionFormat table contentEncoding = .compressed format) :
    SameCapture table zlib body contentType maxBytes contentEncoding allowedContentTypes ↔
      CompressedOrderly zlib body maxBytes format := by
  have htap : tapBodyForCapture table zlib body contentType maxBytes contentEncoding
      allowedContentTypes =
        ⟨body.passed, outcome contentType maxBytes (decodedBytes zlib body format)
          (zlib.streamed format body.chunks body.closed).2⟩ := by
    rw [tapBodyForCapture, hallowed, hformat, decodedBytes, ← captureCompressed_eq_outcome hmax]
    simp [Nat.ne_of_gt hmax]
  have hbuffered := captureBufferedBody_eq zlib body.chunks.flatten hmax hallowed contentEncoding
  rw [hformat] at hbuffered
  rw [CompressedOrderly, ← outcome_waiting_iff contentType]
  constructor
  · intro h
    refine ⟨?_, fun hcompletes => ?_⟩
    · have hsettles := h.settles
      rw [htap] at hsettles
      exact hsettles
    · have hcaptured := h.equal hcompletes
      rw [htap, hbuffered] at hcaptured
      exact (outcome_eq_iff hzlib contentType hmax hcompletes format).mp hcaptured
  · rintro ⟨hsettles, hsame⟩
    refine ⟨by rw [htap], fun hcompletes => ?_, ?_⟩
    · rw [htap, hbuffered]
      exact (outcome_eq_iff hzlib contentType hmax hcompletes format).mpr (hsame hcompletes)
    · rw [htap]
      exact hsettles

/-- Decompressors on a body that begins with a zero byte, which none of them accepts. -/
def refusing : Zlib where
  gunzipSync _ := none
  brotliDecompressSync _ := none
  zstdDecompressSync _ := none
  inflateSync _ := none
  inflateRawSync _ := none
  streamed _ chunks closed :=
    ([], if closed || !chunks.flatten.isEmpty then .failed else .waiting)

theorem refusing_agrees : refusing.Agrees := by
  intro format chunks
  cases format with
  | gzip => rfl
  | deflate => rfl
  | brotli => rfl
  | zstd => rfl

def wholeDelivery (chunks : List (List UInt8)) : Delivery := ⟨chunks, true, none⟩

end BurrowGate.BodyCapture
