import BurrowGate.Firewall.NftScript

/-!
# When the replace script says what it should

The tokens of the script are those of its lines, and between the braces those of
the pasted texts with commas between them. Counting braces and commas shows that
a script that says what it should has no stray one, so each pasted text is read
as one element.
-/

namespace BurrowGate.Firewall

open Js
open Net
open Lib.Lexer

/-! ## Characters -/

theorem address_letter {c : Char} (h : isAddressCharacter c = true) :
    isLetter isNftBlank isNftMark c = true := by
  by_contra hc
  have hcases : isNftBlank c = true ∨ isNftMark c = true := by
    by_contra hnone
    rw [not_or] at hnone
    exact hc (by simp [isLetter, hnone.1, hnone.2])
  have hchars : c ∈ [' ', '\t', '{', '}', ',', '/', ';', '\n'] := by
    rcases hcases with hb | hm
    · rcases (Bool.or_eq_true _ _).mp hb with h1 | h1 <;> rw [of_decide_eq_true h1] <;> decide
    · simp only [isNftMark, Bool.or_eq_true, decide_eq_true_eq] at hm
      rcases hm with ((((rfl | rfl) | rfl) | rfl) | rfl) | rfl <;> decide
  have hnone : [' ', '\t', '{', '}', ',', '/', ';', '\n'].all (!isAddressCharacter ·) = true := by
    decide
  have hno := List.all_eq_true.mp hnone c hchars
  rw [h] at hno
  cases hno

theorem not_white_of_range {lo hi c : Char} (hl : lo ≤ c) (hh : c ≤ hi) (hlo : '!' ≤ lo)
    (hhi : hi ≤ '~') : isWhiteSpace c = false := by
  have hmin : '!' ≤ c := Char.le_trans hlo hl
  have hmax : c ≤ '~' := Char.le_trans hh hhi
  rw [Bool.eq_false_iff]
  intro hw
  simp only [isWhiteSpace, Bool.or_eq_true, Bool.and_eq_true, decide_eq_true_eq] at hw
  have hrange : ∀ d : Char, c = d → '!' ≤ d ∧ d ≤ '~' := fun d hd => hd ▸ ⟨hmin, hmax⟩
  rcases hw with ((((((((((((((h | h) | h) | h) | h) | h) | h) | h) | ⟨h, -⟩) | h) | h) | h) | h) | h)
    | h)
  all_goals first
    | exact absurd (hrange _ h) (by decide)
    | exact absurd (Char.le_trans h hmax) (by decide)

theorem address_not_white {c : Char} (h : isAddressCharacter c = true) :
    isWhiteSpace c = false := by
  rw [isAddressCharacter, Bool.or_eq_true, Bool.or_eq_true, decide_eq_true_eq,
    decide_eq_true_eq] at h
  rcases h with (hhex | rfl) | rfl
  · unfold isHexDigit digitValue at hhex
    split at hhex
    · rename_i hr
      exact not_white_of_range hr.1 hr.2 (by decide) (by decide)
    · split at hhex
      · rename_i hr
        exact not_white_of_range hr.1 hr.2 (by decide) (by decide)
      · split at hhex
        · rename_i hr
          exact not_white_of_range hr.1 hr.2 (by decide) (by decide)
        · cases hhex
  · decide
  · decide

theorem zone_not_white {c : Char} (h : isZoneCharacter c = true) : isWhiteSpace c = false := by
  simp only [isZoneCharacter, isDigit, Bool.or_eq_true, Bool.and_eq_true, decide_eq_true_eq] at h
  rcases h with ((((⟨h1, h2⟩ | ⟨h1, h2⟩) | ⟨h1, h2⟩) | rfl) | rfl) | rfl
  · exact not_white_of_range h1 h2 (by decide) (by decide)
  · exact not_white_of_range h1 h2 (by decide) (by decide)
  · exact not_white_of_range h1 h2 (by decide) (by decide)
  · decide
  · decide
  · decide

theorem isIP_not_white {ip : List Char} {version : IpVersion} (h : isIP ip = some version) :
    ∀ c ∈ ip, isWhiteSpace c = false := by
  intro c hc
  rcases isIP_characters h c hc with hchar | ⟨-, rfl | hzone⟩
  · exact address_not_white hchar
  · decide
  · exact zone_not_white hzone

theorem white_of_blank {c : Char} (h : isNftBlank c = true) : isWhiteSpace c = true := by
  rcases (Bool.or_eq_true _ _).mp h with h1 | h1 <;> rw [of_decide_eq_true h1] <;> decide

theorem blank_ne_slash {c : Char} (h : isNftBlank c = true) : c ≠ '/' := by
  rintro rfl
  cases h

theorem letter_ne_slash {c : Char} (h : isLetter isNftBlank isNftMark c = true) : c ≠ '/' := by
  rintro rfl
  cases h

theorem plainAddress_spec {a : List Char} (h : plainAddress a = true) :
    (∀ c ∈ a, isAddressCharacter c = true) ∧ a ≠ [] := by
  obtain ⟨hip, hzone⟩ := (Bool.and_eq_true _ _).mp h
  obtain ⟨version, hversion⟩ := Option.isSome_iff_exists.mp hip
  refine ⟨fun c hc => ?_, ?_⟩
  · rcases isIP_characters hversion c hc with hchar | ⟨hmem, -⟩
    · exact hchar
    · simp [hmem] at hzone
  · rintro rfl
    cases hip

theorem plainLength_spec {p : List Char} (h : plainLength p = true) :
    (∀ c ∈ p, isAddressCharacter c = true) ∧ p ≠ [] := by
  obtain ⟨hne, hall⟩ := (Bool.and_eq_true _ _).mp h
  exact ⟨fun c hc => isAddressCharacter_of_isDigit (List.all_eq_true.mp hall c hc),
    of_decide_eq_true hne⟩

/-! ## One pasted text -/

theorem nftTokens_word {a : List Char} (ha : ∀ c ∈ a, isAddressCharacter c = true) (hne : a ≠ []) :
    nftTokens a = [.word a] :=
  lex_word (fun c hc => address_letter (ha c hc)) hne

theorem nftTokens_slash (x y : List Char) :
    nftTokens (x ++ '/' :: y) = nftTokens x ++ .mark '/' :: nftTokens y := by
  unfold nftTokens
  rw [lex_append_break (by decide), lex_cons_mark (by decide) (by decide)]

theorem splitOn_slash {x y : List Char} (hx : '/' ∉ x) (hy : '/' ∉ y) :
    (x ++ '/' :: y).splitOn '/' = [x, y] := by
  rw [List.splitOn_append_cons_self, List.splitOn_eq_singleton hx, List.splitOn_eq_singleton hy]
  rfl

/-- A text that is one word has no slash, and the word is what stripping leaves of it. -/
theorem strip_of_word {x w : List Char} (h : nftTokens x = [.word w]) :
    strip isNftBlank x = w ∧ '/' ∉ x := by
  obtain ⟨before, after, rfl, hbefore, hafter, hw, hne⟩ := eq_of_lex_eq_word h
  refine ⟨strip_of_append hbefore hafter (fun c hc => ?_) hne, fun hmem => ?_⟩
  · simpa using ((Bool.and_eq_true _ _).mp (hw c hc)).1
  · rcases List.mem_append.mp hmem with hmem | hmem
    · rcases List.mem_append.mp hmem with hmem | hmem
      · exact blank_ne_slash (hbefore _ hmem) rfl
      · exact letter_ne_slash (hw _ hmem) rfl
    · exact blank_ne_slash (hafter _ hmem) rfl

/-- Slashes of the tokens are slashes of the text. -/
theorem mem_of_mark_mem {m : Char} {x : List Char} (h : Token.mark m ∈ nftTokens x) : m ∈ x := by
  by_contra hm
  unfold nftTokens at h
  induction x with
  | nil => cases h
  | cons c x ih =>
      have hcx := not_or.mp (List.mem_cons.not.mp hm)
      by_cases hb : isNftBlank c = true
      · rw [lex_cons_blank hb] at h
        exact ih h hcx.2
      · by_cases hmark : isNftMark c = true
        · rw [lex_cons_mark (Bool.eq_false_iff.mpr hb) hmark] at h
          rcases List.mem_cons.mp h with heq | h
          · exact hcx.1 (Token.mark.inj heq)
          · exact ih h hcx.2
        · rw [lex, if_neg hb, if_neg hmark] at h
          split at h
          · rename_i hletter
            cases x with
            | nil => cases hletter
            | cons d x =>
                obtain ⟨w, ts, hlex⟩ := lex_ne_nil_of_letter (by simpa using hletter) x
                rw [hlex] at h ih
                rcases List.mem_cons.mp h with heq | h
                · cases heq
                · exact ih (List.mem_cons_of_mem _ h) hcx.2
          · rcases List.mem_cons.mp h with heq | h
            · cases heq
            · exact ih h hcx.2

/-- The tokens of an element: words and slashes. -/
theorem element_tokens {ts : List NftToken} {e : NftElement} (h : parseElement ts = some e) :
    ∀ m : Char, m ≠ '/' → Token.mark m ∉ ts := by
  intro m hm hmem
  unfold parseElement at h
  split at h
  · simp at hmem
  · simp only [List.mem_cons, Token.mark.injEq, reduceCtorEq, false_or, List.not_mem_nil,
      or_false] at hmem
    exact hm hmem
  · cases h

theorem plain_of_element {c : List Char} {e : NftElement}
    (h : parseElement (nftTokens c) = some e) : isPlainCidr c = true := by
  unfold parseElement at h
  split at h
  · rename_i a htokens
    split at h
    · rename_i hplain
      obtain ⟨hstrip, hslash⟩ := strip_of_word htokens
      rw [isPlainCidr, List.splitOn_eq_singleton hslash]
      dsimp only
      rwa [hstrip]
    · cases h
  · rename_i a p htokens
    split at h
    · rename_i hplain
      have hmem : '/' ∈ c := by
        refine mem_of_mark_mem ?_
        rw [htokens]
        simp
      obtain ⟨x, y, rfl, hx⟩ := List.eq_append_cons_of_mem hmem
      rw [nftTokens_slash] at htokens
      have hnot : Token.mark '/' ∉ nftTokens x := fun hin => hx (mem_of_mark_mem hin)
      have hxy : nftTokens x = [.word a] ∧ nftTokens y = [.word p] := by
        cases hxt : nftTokens x with
        | nil =>
            rw [hxt] at htokens
            cases htokens
        | cons t ts =>
            rw [hxt, List.cons_append] at htokens
            obtain ⟨rfl, hrest⟩ := List.cons.inj htokens
            cases ts with
            | nil =>
                obtain ⟨-, hy⟩ := List.cons.inj hrest
                exact ⟨rfl, hy⟩
            | cons u ts =>
                obtain ⟨rfl, -⟩ := List.cons.inj hrest
                rw [hxt] at hnot
                simp at hnot
      obtain ⟨hstripx, -⟩ := strip_of_word hxy.1
      obtain ⟨hstripy, hy⟩ := strip_of_word hxy.2
      rw [isPlainCidr, splitOn_slash hx hy]
      dsimp only
      rwa [hstripx, hstripy]
    · cases h
  · cases h

theorem element_of_plain {c : List Char} (h : isPlainCidr c = true) :
    ∃ e, parseElement (nftTokens c) = some e ∧
      e.address = strip isNftBlank ((c.splitOn '/').headD []) := by
  have hjoin : ['/'].intercalate (c.splitOn '/') = c := List.intercalate_splitOn '/'
  have hword : ∀ x, plainAddress (strip isNftBlank x) = true →
      nftTokens x = [.word (strip isNftBlank x)] := by
    intro x hx
    obtain ⟨hchars, hne⟩ := plainAddress_spec hx
    rw [← nftTokens_word hchars hne]
    exact (lex_strip x).symm
  unfold isPlainCidr at h
  split at h
  · rename_i a hsplit
    rw [hsplit] at hjoin ⊢
    rw [List.intercalate_singleton] at hjoin
    subst hjoin
    refine ⟨{ address := strip isNftBlank a, length := none }, ?_, rfl⟩
    rw [hword a h, parseElement, if_pos h]
  · rename_i a p hsplit
    rw [hsplit] at hjoin ⊢
    obtain ⟨ha, hp⟩ := (Bool.and_eq_true _ _).mp h
    have hc : c = a ++ '/' :: p := by
      rw [← hjoin]
      simp
    have hlength : nftTokens p = [.word (strip isNftBlank p)] := by
      obtain ⟨hchars, hne⟩ := plainLength_spec hp
      rw [← nftTokens_word hchars hne]
      exact (lex_strip p).symm
    refine ⟨{ address := strip isNftBlank a, length := some (strip isNftBlank p) }, ?_, rfl⟩
    rw [hc, nftTokens_slash, hword a ha, hlength, List.singleton_append, parseElement, if_pos h]
  · cases h

theorem parseIp_version {ip : List Char} {p : ParsedIp} (h : parseIp ip = some p) :
    isIP ip = some p.version := by
  unfold parseIp at h
  split at h
  · rename_i hip
    obtain ⟨v, -, rfl⟩ := Option.map_eq_some_iff.mp h
    exact hip
  · rename_i hip
    obtain ⟨v, -, rfl⟩ := Option.map_eq_some_iff.mp h
    exact hip
  · cases h

theorem isIP_no_slash {ip : List Char} {version : IpVersion} (h : isIP ip = some version) :
    '/' ∉ ip := by
  intro hmem
  rcases isIP_characters h _ hmem with hchar | ⟨-, hpercent | hzone⟩
  · cases hchar
  · cases hpercent
  · cases hzone

theorem white_ne_slash {text : List Char} (h : ∀ c ∈ text, isWhiteSpace c = true) : '/' ∉ text := by
  intro hmem
  have := h _ hmem
  cases this

/-- What `parseCidr` reads as the address is the text in front of the first slash, trimmed. -/
theorem parseCidr_front {c : List Char} {parsed : ParsedCidr} (h : parseCidr c = some parsed) :
    isIP (strip isWhiteSpace ((c.splitOn '/').headD [])) = some parsed.version := by
  unfold parseCidr at h
  split at h
  · cases h
  · rename_i t rest hsplit
    obtain ⟨p, hp, h⟩ := Option.bind_eq_some_iff.mp h
    obtain ⟨length, -, rfl⟩ := Option.map_eq_some_iff.mp h
    have hip := parseIp_version hp
    have hne : t ≠ [] := by
      rintro rfl
      cases hip
    have hslash := isIP_no_slash hip
    have hjoin : ['/'].intercalate ((trim c).splitOn '/') = trim c := List.intercalate_splitOn '/'
    rw [hsplit] at hjoin
    obtain ⟨lead, tail, heq, hlead, htail⟩ := trim_append c
    have hfront : ∃ after, (c.splitOn '/').headD [] = lead ++ t ++ after ∧
        ∀ d ∈ after, isWhiteSpace d = true := by
      cases rest with
      | nil =>
          rw [List.intercalate_singleton] at hjoin
          refine ⟨tail, ?_, htail⟩
          have hno : '/' ∉ c := by
            rw [heq, ← hjoin, List.mem_append, List.mem_append, not_or, not_or]
            exact ⟨⟨white_ne_slash hlead, hslash⟩, white_ne_slash htail⟩
          rw [List.splitOn_eq_singleton hno]
          conv => lhs; rw [heq, ← hjoin]
          rfl
      | cons second rest =>
          refine ⟨[], ?_, by simp⟩
          have hc : c = lead ++ t ++ '/' :: (['/'].intercalate (second :: rest) ++ tail) := by
            rw [heq, ← hjoin]
            simp [List.intercalate_cons_cons]
          have hno : '/' ∉ lead ++ t := by
            rw [List.mem_append, not_or]
            exact ⟨white_ne_slash hlead, hslash⟩
          rw [hc, List.splitOn_append_cons_self, List.splitOn_eq_singleton hno, List.append_nil]
          rfl
    obtain ⟨after, hx, hafter⟩ := hfront
    rw [hx, strip_of_append hlead hafter (isIP_not_white hip) hne]
    exact hip

/-- The address of a plain text that `parseCidr` accepts has the family it was accepted with. -/
theorem plain_family {c : List Char} {parsed : ParsedCidr} (hplain : isPlainCidr c = true)
    (hparse : parseCidr c = some parsed) :
    isIP (strip isNftBlank ((c.splitOn '/').headD [])) = some parsed.version := by
  have haddress : plainAddress (strip isNftBlank ((c.splitOn '/').headD [])) = true := by
    unfold isPlainCidr at hplain
    split at hplain
    · rename_i a hsplit
      rwa [hsplit]
    · rename_i a p hsplit
      rw [hsplit]
      exact ((Bool.and_eq_true _ _).mp hplain).1
    · cases hplain
  obtain ⟨hchars, hne⟩ := plainAddress_spec haddress
  obtain ⟨before, after, hx, hbefore, hafter⟩ :=
    strip_spec isNftBlank ((c.splitOn '/').headD [])
  have hsame : strip isWhiteSpace ((c.splitOn '/').headD []) =
      strip isNftBlank ((c.splitOn '/').headD []) := by
    conv => lhs; rw [hx]
    exact strip_of_append (fun d hd => white_of_blank (hbefore d hd))
      (fun d hd => white_of_blank (hafter d hd)) (fun d hd => address_not_white (hchars d hd)) hne
  rw [← hsame]
  exact parseCidr_front hparse

/-! ## The tokens of the script -/

def addHeader (set : List Char) : List NftToken :=
  [.word "add".toList, .word "element".toList, .word "inet".toList, .word NFT_TABLE, .word set,
    .mark '{']

/-- The tokens between the braces. -/
def listTokens (cidrs : List (List Char)) : List NftToken :=
  [.mark ','].intercalate (cidrs.map nftTokens)

theorem nftTokens_space (x y : List Char) :
    nftTokens (x ++ ' ' :: y) = nftTokens x ++ nftTokens y := by
  unfold nftTokens
  rw [lex_append_break (by decide), lex_cons_blank (by decide)]

theorem nftTokens_mark {m : Char} (hm : isNftMark m = true) (hb : isNftBlank m = false)
    (x y : List Char) : nftTokens (x ++ m :: y) = nftTokens x ++ .mark m :: nftTokens y := by
  unfold nftTokens
  rw [lex_append_break (by simp [isLetter, hm]), lex_cons_mark hb hm]

theorem nftTokens_join (cidrs : List (List Char)) :
    nftTokens (", ".toList.intercalate cidrs) = listTokens cidrs := by
  unfold listTokens
  induction cidrs with
  | nil => rfl
  | cons c cidrs ih =>
      cases cidrs with
      | nil => rw [List.intercalate_singleton, List.map_singleton, List.intercalate_singleton]
      | cons d cidrs =>
          rw [List.intercalate_cons_cons, List.map_cons, List.map_cons, List.intercalate_cons_cons,
            List.append_assoc, List.append_assoc, ← List.map_cons, ← ih]
          show nftTokens (c ++ ',' :: ([] ++ ' ' :: ", ".toList.intercalate (d :: cidrs))) = _
          rw [nftTokens_mark (by decide) (by decide), nftTokens_space]
          rfl

theorem nftTokens_addLine {set : List Char} (hset : nftTokens set = [.word set])
    (cidrs : List (List Char)) : nftTokens (addLine set cidrs) =
      addHeader set ++ (listTokens cidrs ++ [Token.mark '}']) := by
  have hline : addLine set cidrs = "add element inet burrowgate".toList ++ ' ' ::
      (set ++ ' ' :: ([] ++ '{' :: ([] ++ ' ' :: (", ".toList.intercalate cidrs ++ ' ' :: ['}'])))) := by
    unfold addLine NFT_TABLE
    simp only [List.append_assoc]
    rfl
  have hwords : nftTokens "add element inet burrowgate".toList =
      [.word "add".toList, .word "element".toList, .word "inet".toList, .word NFT_TABLE] := by
    decide +kernel
  have hclose : nftTokens ['}'] = [Token.mark '}'] := by decide +kernel
  rw [hline, nftTokens_space, nftTokens_space, nftTokens_mark (by decide) (by decide),
    nftTokens_space, nftTokens_space, nftTokens_join, hwords, hset, hclose]
  rfl

theorem nftTokens_flushLine {set : List Char} (hset : nftTokens set = [.word set]) :
    nftTokens (flushLine set) =
      [.word "flush".toList, .word "set".toList, .word "inet".toList, .word NFT_TABLE, .word set] := by
  have hline : flushLine set = "flush set inet burrowgate".toList ++ ' ' :: set := by
    unfold flushLine NFT_TABLE
    simp only [List.append_assoc]
    rfl
  have hwords : nftTokens "flush set inet burrowgate".toList =
      [.word "flush".toList, .word "set".toList, .word "inet".toList, .word NFT_TABLE] := by
    decide +kernel
  rw [hline, nftTokens_space, hwords, hset]
  rfl

theorem nftTokens_set_v4 : nftTokens NFT_SET_V4 = [.word NFT_SET_V4] := by decide +kernel

theorem nftTokens_set_v6 : nftTokens NFT_SET_V6 = [.word NFT_SET_V6] := by decide +kernel

/-- The commands of the script are those of its lines. -/
theorem commandTokens_script {lines : List (List Char)} (hne : lines ≠ []) :
    commandTokens (nftTokens (['\n'].intercalate lines ++ ['\n'])) =
      lines.flatMap fun line => commandTokens (nftTokens line) := by
  have hline : ∀ line rest : List Char, commandTokens (nftTokens (line ++ '\n' :: rest)) =
      commandTokens (nftTokens line) ++ commandTokens (nftTokens rest) := by
    intro line rest
    unfold commandTokens
    rw [nftTokens_mark (by decide) (by decide), List.splitOnP_append_cons _ _ (by decide),
      List.filter_append]
  induction lines with
  | nil => exact absurd rfl hne
  | cons line lines ih =>
      rw [List.flatMap_cons]
      cases lines with
      | nil =>
          rw [List.intercalate_singleton, hline]
          rfl
      | cons next lines =>
          rw [List.intercalate_cons_cons, List.append_assoc, List.append_assoc,
            ← ih (List.cons_ne_nil _ _), List.singleton_append, hline]

theorem parseNftScript_replace (v4 v6 : List (List Char)) :
    parseNftScript (buildNftReplaceScript v4 v6) =
      parseAll parseNftCommand ((replaceLines v4 v6).flatMap fun line =>
        commandTokens (nftTokens line)) := by
  unfold parseNftScript buildNftReplaceScript
  rw [commandTokens_script (by simp [replaceLines])]

/-! ## Counting braces and commas -/

def NftCommand.braces : NftCommand → Nat
  | .flushSet _ _ => 0
  | .addElement _ _ _ => 1

def NftCommand.commas : NftCommand → Nat
  | .flushSet _ _ => 0
  | .addElement _ _ elements => elements.length - 1

theorem parseElements_counts {ts : List NftToken} {es : List NftElement}
    (h : parseElements ts = some es) :
    ts.count (.mark '}') = 0 ∧ ts.count (.mark ',') = es.length - 1 := by
  have hparts := parseAll_forall₂ h
  have hlength : ts.count (.mark ',') + 1 = es.length := by
    rw [← length_splitOn, hparts.length_eq]
  refine ⟨?_, by omega⟩
  have hzero := sum_map_forall₂ (f := (·.count (Token.mark '}'))) (g := fun _ => 0) hparts
    fun part e he => List.count_eq_zero.mpr (element_tokens he '}' (by decide))
  have hsum := count_splitOnP (p := (· == Token.mark ',')) (t := Token.mark '}') (by decide) ts
  rw [← List.splitOn_eq_splitOnP, hzero] at hsum
  rw [← hsum]
  simp

/-- A command's braces come in pairs, and its commas separate its elements. -/
theorem command_counts {ts : List NftToken} {cmd : NftCommand}
    (h : parseNftCommand ts = some cmd) :
    ts.count (.mark '}') = cmd.braces ∧ ts.count (.mark ',') = cmd.commas ∧
      (.mark '{' ∈ ts → .mark '}' ∈ ts) := by
  unfold parseNftCommand at h
  split at h
  · split at h
    · obtain rfl := Option.some.inj h
      refine ⟨by simp [NftCommand.braces], by simp [NftCommand.commas], fun hmem => ?_⟩
      simp at hmem
    · cases h
  · rename_i add element inet table name rest
    split at h
    · rename_i hwords
      obtain ⟨es, hes, rfl⟩ := Option.map_eq_some_iff.mp h
      obtain ⟨hbraces, hcommas⟩ := parseElements_counts hes
      have hrest := List.dropLast_append_getLast? _ hwords.2.2.2
      refine ⟨?_, ?_, fun _ => ?_⟩
      · rw [← hrest]
        simp [hbraces, NftCommand.braces]
      · rw [← hrest]
        simp [hcommas, NftCommand.commas]
      · rw [← hrest]
        simp
    · cases h
  · cases h

theorem sum_commandTokens {t : NftToken} (ht : isSeparator t = false) (ts : List NftToken) :
    ((commandTokens ts).map (·.count t)).sum = ts.count t := by
  have hfilter : ∀ parts : List (List NftToken),
      ((parts.filter (· ≠ [])).map (·.count t)).sum = (parts.map (·.count t)).sum := by
    intro parts
    induction parts with
    | nil => rfl
    | cons part parts ih =>
        by_cases hpart : part = []
        · rw [List.filter_cons_of_neg (by simp [hpart]), ih, List.map_cons, List.sum_cons, hpart,
            List.count_nil, Nat.zero_add]
        · rw [List.filter_cons_of_pos (by simp [hpart]), List.map_cons, List.map_cons,
            List.sum_cons, List.sum_cons, ih]
  unfold commandTokens
  rw [hfilter, count_splitOnP ht]

theorem sum_flatMap_map {α β : Type*} (f : α → List β) (g : β → Nat) (xs : List α) :
    ((xs.flatMap f).map g).sum = (xs.map fun x => ((f x).map g).sum).sum := by
  induction xs with
  | nil => rfl
  | cons x xs ih =>
      rw [List.flatMap_cons, List.map_append, List.sum_append, ih, List.map_cons, List.sum_cons]

/-- The tokens of a kind in the pasted texts. -/
def pasted (m : Char) (cidrs : List (List Char)) : Nat :=
  (cidrs.map fun c => (nftTokens c).count (.mark m)).sum

theorem addLine_braces {set : List Char} (hset : nftTokens set = [.word set])
    (cidrs : List (List Char)) :
    (nftTokens (addLine set cidrs)).count (.mark '}') = pasted '}' cidrs + 1 := by
  rw [nftTokens_addLine hset]
  unfold listTokens
  rw [List.count_append, List.count_append, count_intercalate (by decide), List.map_map]
  simp [addHeader, pasted, Function.comp_def]

theorem addLine_commas {set : List Char} (hset : nftTokens set = [.word set])
    {cidrs : List (List Char)} (hne : cidrs ≠ []) :
    (nftTokens (addLine set cidrs)).count (.mark ',') = pasted ',' cidrs + (cidrs.length - 1) := by
  have hpos : 0 < cidrs.length := List.length_pos_of_ne_nil hne
  have hlists : cidrs.map nftTokens ≠ [] := by simpa using hne
  have hcount := count_separator_intercalate (a := Token.mark ',') hlists
  rw [List.map_map, List.length_map] at hcount
  change (listTokens cidrs).count (.mark ',') + 1 = pasted ',' cidrs + cidrs.length at hcount
  have hheader : (addHeader set).count (.mark ',') = 0 := by simp [addHeader]
  have hclose : [Token.mark '}'].count (.mark ',') = 0 := by decide
  rw [nftTokens_addLine hset, List.count_append, List.count_append, hheader, hclose]
  omega

theorem flushLine_counts {set : List Char} (hset : nftTokens set = [.word set]) (m : Char) :
    (nftTokens (flushLine set)).count (.mark m) = 0 := by
  rw [nftTokens_flushLine hset]
  simp

theorem replaceLines_braces (v4 v6 : List (List Char)) :
    ((replaceLines v4 v6).map fun line => (nftTokens line).count (.mark '}')).sum =
      (if v4 = [] then 0 else pasted '}' v4 + 1) + if v6 = [] then 0 else pasted '}' v6 + 1 := by
  have h4 := flushLine_counts nftTokens_set_v4 '}'
  have h6 := flushLine_counts nftTokens_set_v6 '}'
  have a4 := addLine_braces nftTokens_set_v4 v4
  have a6 := addLine_braces nftTokens_set_v6 v6
  unfold replaceLines
  split <;> split <;> simp [h4, h6, a4, a6]

theorem replaceLines_commas (v4 v6 : List (List Char)) :
    ((replaceLines v4 v6).map fun line => (nftTokens line).count (.mark ',')).sum =
      (pasted ',' v4 + (v4.length - 1)) + (pasted ',' v6 + (v6.length - 1)) := by
  have h4 := flushLine_counts nftTokens_set_v4 ','
  have h6 := flushLine_counts nftTokens_set_v6 ','
  have a4 := fun h : v4 ≠ [] => addLine_commas nftTokens_set_v4 h
  have a6 := fun h : v6 ≠ [] => addLine_commas nftTokens_set_v6 h
  have hnil : pasted ',' [] = 0 := rfl
  unfold replaceLines
  split <;> split <;> simp_all

theorem replaceCommands_braces (e4 e6 : List NftElement) :
    ((replaceCommands e4 e6).map NftCommand.braces).sum =
      (if e4 = [] then 0 else 1) + if e6 = [] then 0 else 1 := by
  unfold replaceCommands
  split <;> split <;> rfl

theorem replaceCommands_commas (e4 e6 : List NftElement) :
    ((replaceCommands e4 e6).map NftCommand.commas).sum = (e4.length - 1) + (e6.length - 1) := by
  unfold replaceCommands
  split <;> split <;> simp_all [NftCommand.commas]

/-- A script that says what it should has no braces and commas but its own. -/
theorem pasted_eq_zero {v4 v6 : List (List Char)} {e4 e6 : List NftElement}
    (h : parseNftScript (buildNftReplaceScript v4 v6) = some (replaceCommands e4 e6))
    (h4 : e4.length = v4.length) (h6 : e6.length = v6.length) :
    (pasted '}' v4 = 0 ∧ pasted '}' v6 = 0) ∧ pasted ',' v4 = 0 ∧ pasted ',' v6 = 0 := by
  rw [parseNftScript_replace] at h
  have hall := parseAll_forall₂ h
  have hbraces := sum_map_forall₂ hall fun ts cmd hts => (command_counts hts).1
  have hcommas := sum_map_forall₂ hall fun ts cmd hts => (command_counts hts).2.1
  rw [sum_flatMap_map] at hbraces hcommas
  simp only [sum_commandTokens (t := Token.mark '}') (by decide)] at hbraces
  simp only [sum_commandTokens (t := Token.mark ',') (by decide)] at hcommas
  rw [replaceLines_braces, replaceCommands_braces] at hbraces
  rw [replaceLines_commas, replaceCommands_commas] at hcommas
  have e4nil : e4 = [] ↔ v4 = [] := by
    rw [← List.length_eq_zero_iff, ← List.length_eq_zero_iff, h4]
  have e6nil : e6 = [] ↔ v6 = [] := by
    rw [← List.length_eq_zero_iff, ← List.length_eq_zero_iff, h6]
  have hempty : ∀ cidrs, cidrs = [] → pasted '}' cidrs = 0 := by
    rintro cidrs rfl
    rfl
  have h4zero := hempty v4
  have h6zero := hempty v6
  simp only [e4nil, e6nil] at hbraces
  refine ⟨?_, by omega, by omega⟩
  split at hbraces <;> split at hbraces <;> constructor <;> first | omega | simp_all

/-! ## The two directions -/

theorem header_no_separator (set : List Char) :
    (∀ t ∈ addHeader set, isSeparator t = false) ∧ Token.mark '}' ∉ addHeader set := by
  constructor
  · intro t ht
    simp only [addHeader, List.mem_cons, List.not_mem_nil, or_false] at ht
    rcases ht with rfl | rfl | rfl | rfl | rfl | rfl <;> rfl
  · simp [addHeader]

theorem mark_not_mem_of_pasted {m : Char} {cidrs : List (List Char)} (h : pasted m cidrs = 0)
    {c : List Char} (hc : c ∈ cidrs) : Token.mark m ∉ nftTokens c := by
  have hzero := List.sum_eq_zero_iff_forall_eq_nat.mp h _ (List.mem_map_of_mem hc)
  exact List.count_eq_zero.mp hzero

/-- Where the pasted texts have no closing brace, a separator among them would leave a command
without one. -/
theorem listTokens_no_separator {set : List Char} (hset : nftTokens set = [.word set])
    {cidrs : List (List Char)} (hbraces : pasted '}' cidrs = 0)
    (hall : ∀ seg ∈ commandTokens (nftTokens (addLine set cidrs)),
      (parseNftCommand seg).isSome = true) :
    ∀ t ∈ listTokens cidrs, isSeparator t = false := by
  obtain ⟨hheader, hbrace⟩ := header_no_separator set
  by_contra hnone
  have hfound : ((listTokens cidrs).find? isSeparator).isSome = true := by
    rw [List.find?_isSome]
    by_contra hall
    exact hnone fun t ht => Bool.eq_false_iff.mpr fun hsep => hall ⟨t, ht, hsep⟩
  obtain ⟨u, hu⟩ := Option.isSome_iff_exists.mp hfound
  obtain ⟨hsep, front, rest, hsplit, hfront⟩ := List.find?_eq_some_iff_append.mp hu
  have hbefore : ∀ v ∈ addHeader set ++ front, isSeparator v = false := by
    intro v hv
    rcases List.mem_append.mp hv with hv | hv
    · exact hheader v hv
    · simpa using hfront v hv
  have hmem : addHeader set ++ front ∈ commandTokens (nftTokens (addLine set cidrs)) := by
    unfold commandTokens
    rw [nftTokens_addLine hset, hsplit, List.append_assoc, ← List.append_assoc,
      List.cons_append, List.splitOnP_append_cons_of_forall_mem hbefore u hsep]
    exact List.mem_filter.mpr ⟨List.mem_cons_self, by simp [addHeader]⟩
  obtain ⟨cmd, hcmd⟩ := Option.isSome_iff_exists.mp (hall _ hmem)
  have hclosed := (command_counts hcmd).2.2 (List.mem_append_left _ (by simp [addHeader]))
  rcases List.mem_append.mp hclosed with hin | hin
  · exact hbrace hin
  · have hlist : Token.mark '}' ∈ listTokens cidrs := hsplit ▸ List.mem_append_left _ hin
    rcases mem_intercalate hlist with heq | ⟨ts, hts, hts'⟩
    · cases heq
    · obtain ⟨c, hc, rfl⟩ := List.mem_map.mp hts
      exact mark_not_mem_of_pasted hbraces hc hts'

theorem commandTokens_addLine {set : List Char} (hset : nftTokens set = [.word set])
    {cidrs : List (List Char)} (h : ∀ t ∈ listTokens cidrs, isSeparator t = false) :
    commandTokens (nftTokens (addLine set cidrs)) =
      [addHeader set ++ (listTokens cidrs ++ [Token.mark '}'])] := by
  have hall : ∀ t ∈ addHeader set ++ (listTokens cidrs ++ [Token.mark '}']), isSeparator t = false := by
    intro t ht
    rcases List.mem_append.mp ht with ht | ht
    · exact (header_no_separator set).1 t ht
    · rcases List.mem_snoc.mp ht with ht | ht
      · exact h t ht
      · exact ht ▸ rfl
  unfold commandTokens
  rw [nftTokens_addLine hset, List.splitOnP_eq_singleton hall]
  rfl

theorem parseNftCommand_add (set : List Char) (ts : List NftToken) :
    parseNftCommand (addHeader set ++ (ts ++ [Token.mark '}'])) =
      (parseElements ts).map (.addElement NFT_TABLE set) := by
  show parseNftCommand (.word "add".toList :: .word "element".toList :: .word "inet".toList ::
    .word NFT_TABLE :: .word set :: .mark '{' :: (ts ++ [Token.mark '}'])) = _
  unfold parseNftCommand
  simp

theorem parse_flushLine {set : List Char} (hset : nftTokens set = [.word set]) :
    parseAll parseNftCommand (commandTokens (nftTokens (flushLine set))) =
      some [.flushSet NFT_TABLE set] := by
  rw [nftTokens_flushLine hset]
  rfl

/-- Without stray commas the list falls apart into the pasted texts. -/
theorem splitOn_listTokens {cidrs : List (List Char)} (hne : cidrs ≠ [])
    (h : ∀ c ∈ cidrs, Token.mark ',' ∉ nftTokens c) :
    (listTokens cidrs).splitOn (.mark ',') = cidrs.map nftTokens := by
  refine List.splitOn_intercalate _ (fun ts hts => ?_) (by simpa using hne)
  obtain ⟨c, hc, rfl⟩ := List.mem_map.mp hts
  exact h c hc

/-- A line that is read as additions has plain texts only. -/
theorem plain_of_commands {set : List Char} (hset : nftTokens set = [.word set])
    {cidrs : List (List Char)} (hne : cidrs ≠ []) (hbraces : pasted '}' cidrs = 0)
    (hcommas : pasted ',' cidrs = 0)
    (hall : ∀ seg ∈ commandTokens (nftTokens (addLine set cidrs)),
      (parseNftCommand seg).isSome = true) :
    ∀ c ∈ cidrs, isPlainCidr c = true := by
  have hsep := listTokens_no_separator hset hbraces hall
  have hsegs := commandTokens_addLine hset hsep
  have hsome := hall _ (by rw [hsegs]; exact List.mem_singleton.mpr rfl)
  rw [parseNftCommand_add, Option.isSome_map] at hsome
  obtain ⟨es, hes⟩ := Option.isSome_iff_exists.mp hsome
  unfold parseElements at hes
  rw [splitOn_listTokens hne fun c hc => mark_not_mem_of_pasted hcommas hc] at hes
  intro c hc
  obtain ⟨e, -, he⟩ := parseAll_isSome hes _ (List.mem_map_of_mem hc)
  exact plain_of_element he

/-- A line of plain texts is one addition with an element for each. -/
theorem commands_of_plain {set : List Char} (hset : nftTokens set = [.word set])
    {cidrs : List (List Char)} (hne : cidrs ≠ []) {version : IpVersion}
    (hplain : ∀ c ∈ cidrs, isPlainCidr c = true)
    (hfamily : ∀ c ∈ cidrs, (parseCidr c).any (·.version = version) = true) :
    ∃ es, parseAll parseNftCommand (commandTokens (nftTokens (addLine set cidrs))) =
        some [.addElement NFT_TABLE set es] ∧ es.length = cidrs.length ∧
      ∀ e ∈ es, isIP e.address = some version := by
  have hmarks : ∀ c ∈ cidrs, ∀ m, m ≠ '/' → Token.mark m ∉ nftTokens c := by
    intro c hc
    obtain ⟨e, he, -⟩ := element_of_plain (hplain c hc)
    exact element_tokens he
  have hsep : ∀ t ∈ listTokens cidrs, isSeparator t = false := by
    intro t ht
    rw [Bool.eq_false_iff]
    intro hsep
    rcases mem_intercalate ht with rfl | ⟨ts, hts, hts'⟩
    · cases hsep
    · obtain ⟨c, hc, rfl⟩ := List.mem_map.mp hts
      rcases (Bool.or_eq_true _ _).mp hsep with heq | heq
      · exact hmarks c hc '\n' (by decide) (of_decide_eq_true heq ▸ hts')
      · exact hmarks c hc ';' (by decide) (of_decide_eq_true heq ▸ hts')
  have hsplit := splitOn_listTokens hne fun c hc => hmarks c hc ',' (by decide)
  have hparses : ∀ ts ∈ cidrs.map nftTokens, (parseElement ts).isSome = true := by
    intro ts hts
    obtain ⟨c, hc, rfl⟩ := List.mem_map.mp hts
    obtain ⟨e, he, -⟩ := element_of_plain (hplain c hc)
    rw [he]
    rfl
  obtain ⟨es, hes⟩ := parseAll_eq_some hparses
  have hforall := parseAll_forall₂ hes
  refine ⟨es, ?_, ?_, fun e he => ?_⟩
  · rw [commandTokens_addLine hset hsep, parseAll, parseNftCommand_add]
    unfold parseElements
    rw [hsplit, hes]
    rfl
  · rw [← hforall.length_eq, List.length_map]
  · obtain ⟨ts, hts, hparse⟩ := parseAll_mem hes e he
    obtain ⟨c, hc, rfl⟩ := List.mem_map.mp hts
    obtain ⟨e', he', haddress⟩ := element_of_plain (hplain c hc)
    obtain rfl := Option.some.inj (he'.symm.trans hparse)
    obtain ⟨parsed, hparsed, hversion⟩ := (Option.any_eq_true _ _).mp (hfamily c hc)
    rw [haddress, plain_family (hplain c hc) hparsed, of_decide_eq_true hversion]

theorem mem_split {cidrs : List (List Char)} {c : List Char} :
    (c ∈ (splitCidrsByFamily cidrs).1 ∨ c ∈ (splitCidrsByFamily cidrs).2) ↔
      c ∈ cidrs ∧ (parseCidr c).isSome = true := by
  unfold splitCidrsByFamily
  rw [List.mem_filter, List.mem_filter]
  cases parseCidr c with
  | none => simp
  | some parsed =>
      cases hv : parsed.version <;> simp [hv]

theorem addition_commands {set : List Char} (hset : nftTokens set = [.word set])
    {cidrs : List (List Char)} {version : IpVersion} (hplain : ∀ c ∈ cidrs, isPlainCidr c = true)
    (hfamily : ∀ c ∈ cidrs, (parseCidr c).any (·.version = version) = true) :
    ∃ es, parseAll parseNftCommand ((if cidrs = [] then [] else [addLine set cidrs]).flatMap
        fun line => commandTokens (nftTokens line)) =
          some (if es = [] then [] else [.addElement NFT_TABLE set es]) ∧
      es.length = cidrs.length ∧ ∀ e ∈ es, isIP e.address = some version := by
  by_cases hne : cidrs = []
  · subst hne
    exact ⟨[], rfl, rfl, by simp⟩
  · obtain ⟨es, hparse, hlength, hes⟩ := commands_of_plain hset hne hplain hfamily
    have hesne : es ≠ [] := by
      rintro rfl
      exact hne (List.length_eq_zero_iff.mp hlength.symm)
    refine ⟨es, ?_, hlength, hes⟩
    rw [if_neg hne, if_neg hesne, List.flatMap_singleton, hparse]

/-- The script says what it should exactly when every accepted text is plain. -/
theorem nft_script_contained (cidrs : List (List Char)) :
    Contained cidrs ↔
      ∀ c ∈ cidrs, (parseCidr c).isSome = true → isPlainCidr c = true := by
  constructor
  · rintro ⟨e4, e6, hscript, h4, h6, -, -⟩ c hc haccepted
    obtain ⟨⟨hb4, hb6⟩, hc4, hc6⟩ := pasted_eq_zero hscript h4 h6
    rw [parseNftScript_replace] at hscript
    have hall : ∀ line ∈ replaceLines (splitCidrsByFamily cidrs).1 (splitCidrsByFamily cidrs).2,
        ∀ seg ∈ commandTokens (nftTokens line), (parseNftCommand seg).isSome = true := by
      intro line hline seg hseg
      obtain ⟨cmd, -, hcmd⟩ := parseAll_isSome hscript seg (List.mem_flatMap.mpr ⟨line, hline, hseg⟩)
      rw [hcmd]
      rfl
    rcases mem_split.mpr ⟨hc, haccepted⟩ with hin | hin
    · have hne := List.ne_nil_of_mem hin
      refine plain_of_commands nftTokens_set_v4 hne hb4 hc4 (hall _ ?_) c hin
      unfold replaceLines
      rw [if_neg hne]
      simp
    · have hne := List.ne_nil_of_mem hin
      refine plain_of_commands nftTokens_set_v6 hne hb6 hc6 (hall _ ?_) c hin
      unfold replaceLines
      rw [if_neg hne]
      simp
  · intro hplain
    have hsplit : ∀ c, c ∈ (splitCidrsByFamily cidrs).1 ∨ c ∈ (splitCidrsByFamily cidrs).2 →
        isPlainCidr c = true := by
      intro c hc
      obtain ⟨hin, haccepted⟩ := mem_split.mp hc
      exact hplain c hin haccepted
    have hplain4 : ∀ c ∈ (splitCidrsByFamily cidrs).1, isPlainCidr c = true :=
      fun c hc => hsplit c (.inl hc)
    have hplain6 : ∀ c ∈ (splitCidrsByFamily cidrs).2, isPlainCidr c = true :=
      fun c hc => hsplit c (.inr hc)
    obtain ⟨e4, hparse4, hlength4, hfamily4⟩ := addition_commands nftTokens_set_v4 hplain4
      fun c hc => (List.mem_filter.mp hc).2
    obtain ⟨e6, hparse6, hlength6, hfamily6⟩ := addition_commands nftTokens_set_v6 hplain6
      fun c hc => (List.mem_filter.mp hc).2
    refine ⟨e4, e6, ?_, hlength4, hlength6, hfamily4, hfamily6⟩
    rw [parseNftScript_replace]
    unfold replaceLines replaceCommands
    rw [List.cons_append, List.flatMap_cons, List.flatMap_append, List.flatMap_cons,
      parseAll_append, parseAll_append, parseAll_append, parse_flushLine nftTokens_set_v4,
      parse_flushLine nftTokens_set_v6, hparse4, hparse6]
    rfl

/-- The text behind a second slash is never looked at; it closes the list and flushes the ruleset. -/
def injectedCidr : List Char := "1.2.3.4/24/ \x7d\nflush ruleset\nadd element x y \x7b z".toList

theorem nft_script_injected :
    (parseCidr injectedCidr).isSome = true ∧ ¬ Contained [injectedCidr] := by
  refine ⟨by decide +kernel, ?_⟩
  rintro ⟨e4, e6, hscript, -⟩
  have hnone : (parseNftScript (buildNftReplaceScript (splitCidrsByFamily [injectedCidr]).1
      (splitCidrsByFamily [injectedCidr]).2)).isNone = true := by
    decide +kernel
  rw [hscript] at hnone
  cases hnone

end BurrowGate.Firewall
