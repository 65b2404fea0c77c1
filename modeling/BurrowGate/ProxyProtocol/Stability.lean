import BurrowGate.Lib.Chunks
import BurrowGate.ProxyProtocol.IncomingHeader

/-!
# More data does not change a verdict

What was recognized in some data, a header or an error, is recognized in every
extension of the data. So the ingress does not depend on the chunks.
-/

namespace BurrowGate.ProxyProtocol

open Lib.Chunks

/-! ## The starts of headers -/

theorem prefixMatches_iff {data start : Bytes} :
    prefixMatches data start = true ↔ data <+: start ∨ start <+: data := by
  rw [prefixMatches, decide_eq_true_iff]
  rcases Nat.le_total data.length start.length with hle | hle
  · rw [Nat.min_eq_left hle, List.take_length]
    constructor
    · intro h
      rw [h]
      exact .inl ( List.take_prefix _ _)
    · rintro (h | h)
      · exact List.prefix_iff_eq_take.mp h
      · rw [h.eq_of_length_le hle, List.take_length]
  · rw [Nat.min_eq_right hle, List.take_length]
    constructor
    · intro h
      rw [← h]
      exact .inr ( List.take_prefix _ _)
    · rintro (h | h)
      · rw [h.eq_of_length_le hle, List.take_length]
      · exact (List.prefix_iff_eq_take.mp h).symm

/-- A mismatch stays one. -/
theorem prefixMatches_append_false {data start : Bytes} (h : prefixMatches data start = false)
    (more : Bytes) : prefixMatches (data ++ more) start = false := by
  rw [← Bool.not_eq_true] at h ⊢
  intro hmore
  apply h
  rw [prefixMatches_iff] at hmore ⊢
  rcases hmore with hmore | hmore
  · exact .inl (( List.prefix_append data more).trans hmore)
  · exact List.prefix_or_prefix_of_prefix ( List.prefix_append data more) hmore

/-- Once the start is complete, nothing changes. -/
theorem prefixMatches_append {data start : Bytes} (h : start.length ≤ data.length)
    (more : Bytes) : prefixMatches (data ++ more) start = prefixMatches data start := by
  have hmore : start.length ≤ (data ++ more).length := by
    rw [List.length_append]
    omega
  simp only [prefixMatches, Nat.min_eq_right h, Nat.min_eq_right hmore,
    List.take_append_of_le_length h]

theorem isProxyHeaderPrefix_append {data : Bytes} {verdict : Bool}
    (h : isProxyHeaderPrefix data = some verdict) (more : Bytes) :
    isProxyHeaderPrefix (data ++ more) = some verdict := by
  unfold isProxyHeaderPrefix at h ⊢
  dsimp only at h ⊢
  have hlength : data.length ≤ (data ++ more).length := by
    rw [List.length_append]
    omega
  split at h
  · rename_i hnone
    obtain rfl := Option.some.inj h
    simp only [Bool.and_eq_true, Bool.not_eq_true'] at hnone
    rw [if_pos (by simp [prefixMatches_append_false hnone.1, prefixMatches_append_false hnone.2])]
  · split at h
    · rename_i hone
      obtain rfl := Option.some.inj h
      simp only [Bool.or_eq_true, Bool.and_eq_true, decide_eq_true_eq] at hone
      have hone' : (prefixMatches (data ++ more) V1_PREFIX = true ∧
            V1_PREFIX.length ≤ (data ++ more).length) ∨
          (prefixMatches (data ++ more) V2_SIGNATURE = true ∧
            V2_SIGNATURE.length ≤ (data ++ more).length) := by
        rcases hone with ⟨hmatch, hlen⟩ | ⟨hmatch, hlen⟩
        · exact .inl ⟨(prefixMatches_append hlen more).trans hmatch, hlen.trans hlength⟩
        · exact .inr ⟨(prefixMatches_append hlen more).trans hmatch, hlen.trans hlength⟩
      rw [if_neg, if_pos (by simpa using hone')]
      rcases hone' with ⟨hmatch, -⟩ | ⟨hmatch, -⟩
      · simp [hmatch]
      · simp [hmatch]
    · cases h

/-! ## The text form -/

theorem indexOfCrlf_append {data : Bytes} {i : Nat} (h : indexOfCrlf data = some i) (more : Bytes) :
    indexOfCrlf (data ++ more) = some i ∧ i + 2 ≤ data.length := by
  induction data generalizing i with
  | nil => cases h
  | cons b rest ih =>
      rw [indexOfCrlf] at h
      rw [List.cons_append, indexOfCrlf]
      split at h
      · rename_i hcrlf
        obtain rfl := Option.some.inj h
        obtain ⟨c, tail, rfl⟩ : ∃ c tail, rest = c :: tail := by
          cases rest with
          | nil => cases hcrlf.2
          | cons c tail => exact ⟨c, tail, rfl⟩
        refine ⟨if_pos hcrlf, ?_⟩
        simp
      · rename_i hcrlf
        obtain ⟨j, hj, rfl⟩ := Option.map_eq_some_iff.mp h
        obtain ⟨hmore, hle⟩ := ih hj
        have hne : rest ≠ [] := by
          rintro rfl
          cases hj
        have hhead : (rest ++ more).head? = rest.head? := by
          obtain ⟨c, tail, rfl⟩ := List.exists_cons_of_ne_nil hne
          rfl
        rw [hhead, if_neg hcrlf, hmore]
        refine ⟨rfl, ?_⟩
        rw [List.length_cons]
        omega

/-- A line end that comes with more data is not within the data. -/
theorem indexOfCrlf_none_append {data more : Bytes} {i : Nat} (h : indexOfCrlf data = none)
    (hmore : indexOfCrlf (data ++ more) = some i) : data.length < i + 2 := by
  induction data generalizing i with
  | nil => exact Nat.zero_lt_succ _
  | cons b rest ih =>
      rw [indexOfCrlf] at h
      rw [List.cons_append, indexOfCrlf] at hmore
      rw [List.length_cons]
      split at h
      · cases h
      · rename_i hcrlf
        split at hmore
        · rename_i hend
          cases rest with
          | nil =>
              show 0 + 1 < i + 2
              omega
          | cons c tail => exact absurd hend hcrlf
        · obtain ⟨j, hj, rfl⟩ := Option.map_eq_some_iff.mp hmore
          have hlt := ih (Option.map_eq_none_iff.mp h) hj
          omega

theorem indexOfCrlf_eq_none {data : Bytes} (h : 0x0d ∉ data) : indexOfCrlf data = none := by
  induction data with
  | nil => rfl
  | cons b rest ih =>
      have hb : b ≠ 0x0d := fun heq => h (heq ▸ List.mem_cons_self)
      rw [indexOfCrlf, if_neg (fun hc => hb hc.1), ih fun hin => h (List.mem_cons_of_mem _ hin)]
      rfl

theorem parseV1_append {data : Bytes} (h : parseV1 data ≠ .ok none) (more : Bytes) :
    parseV1 (data ++ more) = parseV1 data := by
  unfold parseV1 at h ⊢
  cases hend : indexOfCrlf data with
  | some i =>
      obtain ⟨hmore, hle⟩ := indexOfCrlf_append hend more
      rw [hmore]
      dsimp only
      rw [List.take_append_of_le_length (by omega)]
  | none =>
      rw [hend] at h
      dsimp only at h ⊢
      split at h
      · rename_i hlong
        rw [if_pos hlong]
        cases hmore : indexOfCrlf (data ++ more) with
        | none =>
            have : 107 ≤ (data ++ more).length := by
              rw [List.length_append]
              omega
            exact if_pos this
        | some i =>
            have := indexOfCrlf_none_append hend hmore
            exact if_pos (show 107 < i + 2 by omega)
      · exact absurd rfl h

/-- Data that is still shorter than the start of the text form is incomplete. -/
theorem parseV1_short {data : Bytes} (hmatch : prefixMatches data V1_PREFIX = true)
    (hlen : data.length < V1_PREFIX.length) : parseV1 data = .ok none := by
  have hstart : data <+: V1_PREFIX := by
    rcases prefixMatches_iff.mp hmatch with h | h
    · exact h
    · have := h.length_le
      omega
  have hcrlf : indexOfCrlf data = none := by
    apply indexOfCrlf_eq_none
    intro hin
    have : (0x0d : UInt8) ∈ V1_PREFIX := hstart.subset hin
    revert this
    decide
  have hshort : ¬107 ≤ data.length := by
    have : V1_PREFIX.length = 6 := rfl
    omega
  unfold parseV1
  rw [hcrlf]
  exact if_neg hshort

/-! ## The binary form -/

theorem byteAt_append {data : Bytes} {i : Nat} (h : i < data.length) (more : Bytes) :
    byteAt (data ++ more) i = byteAt data i := by
  rw [byteAt, byteAt, List.getD_eq_getElem?_getD, List.getElem?_append_left h,
    ← List.getD_eq_getElem?_getD]

theorem readUInt16BE_append {data : Bytes} {i : Nat} (h : i + 1 < data.length) (more : Bytes) :
    readUInt16BE (data ++ more) i = readUInt16BE data i := by
  rw [readUInt16BE, readUInt16BE, byteAt_append (by omega), byteAt_append h]

theorem extensionsFit_append {data : Bytes} {bytes : Nat} (h : bytes ≤ data.length) (more : Bytes)
    (offset : Nat) : extensionsFit (data ++ more) bytes offset = extensionsFit data bytes offset := by
  fun_induction extensionsFit data bytes offset with
  | case1 offset hend =>
      rw [extensionsFit, if_pos hend]
  | case2 offset hend hshort =>
      rw [extensionsFit, if_neg hend, if_pos hshort]
  | case3 offset hend hshort next hlong =>
      rw [extensionsFit, if_neg hend, if_neg hshort, readUInt16BE_append (by omega)]
      exact if_pos hlong
  | case4 offset hend hshort next hlong ih =>
      rw [extensionsFit, if_neg hend, if_neg hshort, readUInt16BE_append (by omega)]
      dsimp only
      rw [if_neg hlong]
      exact ih

theorem readAddress_append {data : Bytes} {length offset : Nat} (hlength : length = 4 ∨ length = 16)
    (h : offset + length ≤ data.length) (more : Bytes) :
    readAddress (data ++ more) length offset = readAddress data length offset := by
  have hdrop : (data ++ more).drop offset = data.drop offset ++ more :=
    List.drop_append_of_le_length (by omega)
  unfold readAddress
  rw [hdrop]
  rcases hlength with rfl | rfl
  · rw [if_pos rfl, if_pos rfl, List.take_append_of_le_length]
    rw [List.length_drop]
    omega
  · rw [if_neg (by decide), if_neg (by decide), List.take_append_of_le_length]
    rw [List.length_drop]
    omega

theorem v2Connection_append {data : Bytes} {command length : Nat}
    (h : 16 + length ≤ data.length) (more : Bytes) :
    v2Connection (data ++ more) command length = v2Connection data command length := by
  unfold v2Connection
  dsimp only
  rw [byteAt_append (by omega), extensionsFit_append h]
  have haddress : (if byteAt data 13 = 0x11 then 4 else 16) = 4 ∨
      (if byteAt data 13 = 0x11 then 4 else 16) = 16 := by
    split
    · exact .inl rfl
    · exact .inr rfl
  generalize (if byteAt data 13 = 0x11 then 4 else 16) = addressLength at haddress ⊢
  by_cases hblock : length < addressLength * 2 + 4
  · rw [if_pos hblock, if_pos hblock]
  · rw [readAddress_append haddress (by omega), readAddress_append haddress (by omega),
      readUInt16BE_append (by omega), readUInt16BE_append (by omega)]

theorem parseV2_append {data : Bytes} (h : parseV2 data ≠ .ok none) (more : Bytes) :
    parseV2 (data ++ more) = parseV2 data := by
  have hlen : ¬data.length < 16 := by
    intro hlt
    exact h (if_pos hlt)
  have hmore : ¬(data ++ more).length < 16 := by
    rw [List.length_append]
    omega
  unfold parseV2 at h ⊢
  dsimp only at h ⊢
  rw [if_neg hlen] at h
  rw [if_neg hlen, if_neg hmore, byteAt_append (by omega), readUInt16BE_append (by omega)]
  by_cases hversion : byteAt data 12 >>> 4 ≠ 2
  · rw [if_pos hversion, if_pos hversion]
  rw [if_neg hversion] at h ⊢
  rw [if_neg hversion]
  by_cases hcommand : byteAt data 12 % 16 ≠ 0 ∧ byteAt data 12 % 16 ≠ 1
  · rw [if_pos hcommand, if_pos hcommand]
  rw [if_neg hcommand] at h ⊢
  rw [if_neg hcommand]
  by_cases hmax : MAX_PROXY_HEADER_BYTES < 16 + readUInt16BE data 14
  · rw [if_pos hmax, if_pos hmax]
  rw [if_neg hmax] at h ⊢
  rw [if_neg hmax]
  by_cases hcomplete : data.length < 16 + readUInt16BE data 14
  · rw [if_pos hcomplete] at h
    exact absurd rfl h
  have hcomplete' : ¬(data ++ more).length < 16 + readUInt16BE data 14 := by
    rw [List.length_append]
    omega
  rw [if_neg hcomplete, if_neg hcomplete', v2Connection_append (by omega)]

/-! ## Both forms -/

/-- A header or an error is what every extension of the data gives. -/
theorem parseIncomingProxyHeader_append {data : Bytes}
    (h : parseIncomingProxyHeader data ≠ .ok none) (more : Bytes) :
    parseIncomingProxyHeader (data ++ more) = parseIncomingProxyHeader data := by
  unfold parseIncomingProxyHeader at h ⊢
  cases hv1 : prefixMatches data V1_PREFIX with
  | true =>
      rw [hv1, if_pos rfl] at h
      have hlen : V1_PREFIX.length ≤ data.length := by
        by_contra hshort
        exact h (parseV1_short hv1 (Nat.lt_of_not_le hshort))
      rw [prefixMatches_append hlen, hv1, if_pos rfl, if_pos rfl]
      exact parseV1_append h more
  | false =>
      rw [hv1, if_neg Bool.false_ne_true] at h
      rw [prefixMatches_append_false hv1, if_neg Bool.false_ne_true, if_neg Bool.false_ne_true]
      cases hv2 : prefixMatches data V2_SIGNATURE with
      | false =>
          rw [prefixMatches_append_false hv2]
          exact (if_pos rfl).trans (if_pos rfl).symm
      | true =>
          rw [hv2] at h
          have hparse : parseV2 data ≠ .ok none := h
          have hlen : V2_SIGNATURE.length ≤ data.length := by
            by_contra hshort
            have hsig : V2_SIGNATURE.length = 12 := rfl
            exact hparse (if_pos (by omega))
          rw [prefixMatches_append hlen, hv2]
          exact parseV2_append hparse more

/-- A header lies within the data. -/
theorem parseIncomingProxyHeader_bytes_le {data : Bytes} {parsed : ParsedProxyHeader}
    (h : parseIncomingProxyHeader data = .ok (some parsed)) : parsed.bytes ≤ data.length := by
  unfold parseIncomingProxyHeader at h
  split at h
  · unfold parseV1 at h
    split at h
    · split at h <;> cases h
    · rename_i lineEnd hend
      obtain ⟨-, hle⟩ := indexOfCrlf_append hend []
      split at h
      · cases h
      · dsimp only at h
        split at h
        · cases h
          exact hle
        · cases hline : v1Connection (latin1Text (data.take lineEnd)) with
          | error message =>
              rw [hline] at h
              cases h
          | ok connection =>
              rw [hline] at h
              cases h
              exact hle
  · split at h
    · cases h
    · unfold parseV2 at h
      dsimp only at h
      split at h
      · cases h
      split at h
      · cases h
      split at h
      · cases h
      split at h
      · cases h
      split at h
      · cases h
      rename_i hcomplete
      cases hconnection : v2Connection data (byteAt data 12 % 16) (readUInt16BE data 14) with
      | error message =>
          rw [hconnection] at h
          cases h
      | ok connection =>
          rw [hconnection] at h
          cases h
          exact Nat.le_of_not_lt hcomplete

/-- While it is open whether the data starts a header, the header is incomplete. -/
theorem parse_of_undecided {data : Bytes} (h : isProxyHeaderPrefix data = none) :
    parseIncomingProxyHeader data = .ok none := by
  unfold isProxyHeaderPrefix at h
  dsimp only at h
  split at h
  · cases h
  · rename_i hsome
    split at h
    · cases h
    · rename_i hshort
      simp only [Bool.or_eq_true, Bool.and_eq_true, decide_eq_true_eq, not_or, not_and,
        Nat.not_le] at hshort
      unfold parseIncomingProxyHeader
      cases hv1 : prefixMatches data V1_PREFIX with
      | true =>
          rw [if_pos rfl]
          exact parseV1_short hv1 (hshort.1 hv1)
      | false =>
          have hv2 : prefixMatches data V2_SIGNATURE = true := by
            simpa [hv1] using hsome
          rw [if_neg Bool.false_ne_true, hv2]
          have hlt := hshort.2 hv2
          have hsig : V2_SIGNATURE.length = 12 := rfl
          exact if_pos (show data.length < 16 by omega)

/-! ## The ingress -/

theorem receive_absorbs (allowDirect : Bool) (direct : IncomingProxyConnection) :
    Absorbs (receive allowDirect direct) := by
  intro state first second
  cases state with
  | destroyed => rfl
  | bridged connection payload =>
      show IngressState.bridged connection (payload ++ first ++ second) = _
      rw [List.append_assoc]
      rfl
  | buffering before =>
      conv => rhs; rw [receive]
      conv => lhs; arg 3; rw [receive]
      dsimp only
      rw [← List.append_assoc]
      generalize before ++ first = data
      by_cases hdirect : (allowDirect && isProxyHeaderPrefix data = some false) = true
      · obtain ⟨hallow, hprefix⟩ := (Bool.and_eq_true _ _).mp hdirect
        have hmore := isProxyHeaderPrefix_append (of_decide_eq_true hprefix) second
        rw [if_pos hdirect, if_pos (by simp [hallow, hmore])]
        rfl
      · rw [if_neg hdirect]
        by_cases hparse : parseIncomingProxyHeader data = .ok none
        · rw [hparse]
          rfl
        · have hmore := parseIncomingProxyHeader_append hparse second
          have hdirect' : ¬(allowDirect &&
              isProxyHeaderPrefix (data ++ second) = some false) = true := by
            intro hd
            obtain ⟨hallow, hfalse⟩ := (Bool.and_eq_true _ _).mp hd
            cases hdata : isProxyHeaderPrefix data with
            | none => exact hparse (parse_of_undecided hdata)
            | some verdict =>
                rw [isProxyHeaderPrefix_append hdata second] at hfalse
                apply hdirect
                rw [hdata, hallow]
                exact hfalse
          rw [if_neg hdirect', hmore]
          cases hresult : parseIncomingProxyHeader data with
          | error message => rfl
          | ok header =>
              cases header with
              | none => exact absurd hresult hparse
              | some parsed =>
                  have hle := parseIncomingProxyHeader_bytes_le hresult
                  show IngressState.bridged _ (data.drop parsed.bytes ++ second) =
                    IngressState.bridged _ ((data ++ second).drop parsed.bytes)
                  rw [List.drop_append_of_le_length hle]

theorem inspect_absorbs (direct : IncomingProxyConnection) : Absorbs (inspect direct) := by
  intro state first second
  cases state with
  | destroyed => rfl
  | bridged connection payload =>
      show IngressState.bridged connection (payload ++ first ++ second) = _
      rw [List.append_assoc]
      rfl
  | buffering before =>
      conv => rhs; rw [inspect]
      conv => lhs; arg 2; rw [inspect]
      rw [← List.append_assoc]
      generalize before ++ first = data
      cases hdata : isProxyHeaderPrefix data with
      | none => rfl
      | some verdict =>
          rw [isProxyHeaderPrefix_append hdata second]
          cases verdict with
          | true => rfl
          | false => rfl

end BurrowGate.ProxyProtocol
