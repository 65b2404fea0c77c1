import BurrowGate.Js.Text

/-!
# `node:path` on POSIX

`normalize`, `join` and `resolve`, with the separator `/`. An absolute path that is normal is
`absolutePath names`, and possibly a slash behind it.
-/

namespace BurrowGate.Js

/-- A segment that names an entry of a directory. -/
def IsName (segment : List Char) : Prop :=
  segment ≠ [] ∧ segment ≠ ['.'] ∧ segment ≠ ['.', '.'] ∧ '/' ∉ segment

instance (segment : List Char) : Decidable (IsName segment) :=
  inferInstanceAs (Decidable (_ ∧ _ ∧ _ ∧ _))

def pushSegment (allowAboveRoot : Bool) (out : List (List Char)) (segment : List Char) :
    List (List Char) :=
  if segment = [] ∨ segment = ['.'] then out
  else if segment = ['.', '.'] then
    if out ≠ [] ∧ out.getLast? ≠ some ['.', '.'] then out.dropLast
    else if allowAboveRoot then out ++ [segment]
    else out
  else out ++ [segment]

/-- The segments of `normalizeString(path, allowAboveRoot)`. -/
def normalizeString (path : List Char) (allowAboveRoot : Bool) : List (List Char) :=
  (path.splitOn '/').foldl (pushSegment allowAboveRoot) []

def isAbsolute (path : List Char) : Bool := path.head? = some '/'

def joinSegments (segments : List (List Char)) : List Char := ['/'].intercalate segments

def normalize (path : List Char) : List Char :=
  let segments := normalizeString path (!isAbsolute path)
  let root := if isAbsolute path then ['/'] else []
  let trailing := if path.getLast? = some '/' then ['/'] else []
  if segments = [] then if isAbsolute path then ['/'] else '.' :: trailing
  else root ++ joinSegments segments ++ trailing

def join (paths : List (List Char)) : List Char :=
  let joined := joinSegments (paths.filter (!·.isEmpty))
  if joined = [] then ['.'] else normalize joined

/-- `resolve(...paths)` in the working directory `cwd`, which is absolute. -/
def resolve (cwd : List Char) (paths : List (List Char)) : List Char :=
  let resolved := paths.foldl (fun before path =>
    if path = [] then before
    else if isAbsolute path then path ++ ['/']
    else before ++ path ++ ['/']) (cwd ++ ['/'])
  '/' :: joinSegments (normalizeString resolved false)

/-! ## Segments -/

/-- The text of a path from the root. -/
def absolutePath (names : List (List Char)) : List Char := '/' :: joinSegments names

variable {path : List Char} {names : List (List Char)}

theorem not_mem_of_mem_splitOn {sep : Char} {segment : List Char}
    (h : segment ∈ path.splitOn sep) : sep ∉ segment := by
  induction path generalizing segment with
  | nil =>
      obtain rfl := List.mem_singleton.mp h
      exact List.not_mem_nil
  | cons c path ih =>
      rw [List.splitOn_cons_eq_if_modifyHead] at h
      split at h
      · rcases List.mem_cons.mp h with rfl | hrest
        · exact List.not_mem_nil
        · exact ih hrest
      · rename_i hc
        obtain ⟨first, rest, hsplit⟩ :=
          List.exists_cons_of_ne_nil (List.splitOn_ne_nil sep path)
        rw [hsplit, List.modifyHead_cons] at h
        rcases List.mem_cons.mp h with rfl | hrest
        · intro hmem
          rcases List.mem_cons.mp hmem with heq | hin
          · exact hc (by simp [heq])
          · exact ih (by rw [hsplit]; exact List.mem_cons_self) hin
        · exact ih (by rw [hsplit]; exact List.mem_cons_of_mem _ hrest)

theorem isName_pushSegment {out : List (List Char)} (hout : ∀ name ∈ out, IsName name)
    {segment : List Char} (hsegment : '/' ∉ segment) :
    ∀ name ∈ pushSegment false out segment, IsName name := by
  rw [pushSegment]
  split
  · exact hout
  · rename_i hplain
    obtain ⟨hempty, hdot⟩ := not_or.mp hplain
    split
    · split
      · exact fun name hname => hout name (List.dropLast_subset _ hname)
      · exact hout
    · intro name hname
      rcases List.mem_snoc.mp hname with hold | rfl
      · exact hout name hold
      · exact ⟨hempty, hdot, ‹_›, hsegment⟩

theorem isName_foldl {out segments : List (List Char)} (hout : ∀ name ∈ out, IsName name)
    (hsegments : ∀ segment ∈ segments, '/' ∉ segment) :
    ∀ name ∈ segments.foldl (pushSegment false) out, IsName name := by
  induction segments generalizing out with
  | nil => exact hout
  | cons segment segments ih =>
      exact ih (isName_pushSegment hout (hsegments segment List.mem_cons_self))
        fun other hother => hsegments other (List.mem_cons_of_mem _ hother)

theorem isName_normalizeString (path : List Char) :
    ∀ name ∈ normalizeString path false, IsName name :=
  isName_foldl (fun _ hname => (by cases hname)) fun _ hsegment => not_mem_of_mem_splitOn hsegment

theorem foldl_pushSegment (allowAboveRoot : Bool) (out : List (List Char))
    (hnames : ∀ name ∈ names, IsName name) :
    names.foldl (pushSegment allowAboveRoot) out = out ++ names := by
  induction names generalizing out with
  | nil => exact (List.append_nil out).symm
  | cons name names ih =>
      obtain ⟨hempty, hdot, hdots, -⟩ := hnames name List.mem_cons_self
      rw [List.foldl_cons, pushSegment, if_neg (not_or.mpr ⟨hempty, hdot⟩), if_neg hdots,
        ih _ fun other hother => hnames other (List.mem_cons_of_mem _ hother)]
      simp

theorem normalizeString_append (path rest : List Char) (allowAboveRoot : Bool) :
    normalizeString (path ++ '/' :: rest) allowAboveRoot =
      (rest.splitOn '/').foldl (pushSegment allowAboveRoot)
        (normalizeString path allowAboveRoot) := by
  rw [normalizeString, List.splitOn_append_cons_self, List.foldl_append, ← normalizeString]

/-- A slash at the end adds nothing. -/
theorem normalizeString_slash (path : List Char) (allowAboveRoot : Bool) :
    normalizeString (path ++ ['/']) allowAboveRoot = normalizeString path allowAboveRoot := by
  rw [normalizeString_append]
  rfl

theorem splitOn_absolutePath (hnames : ∀ name ∈ names, IsName name) (hne : names ≠ []) :
    (absolutePath names).splitOn '/' = [] :: names := by
  have hsplit : (joinSegments names).splitOn '/' = names :=
    List.splitOn_intercalate '/' (fun name hname => (hnames name hname).2.2.2) hne
  have hcut := List.splitOn_append_cons_self (a := '/') [] (joinSegments names)
  rw [hsplit] at hcut
  exact hcut

theorem normalizeString_absolutePath (hnames : ∀ name ∈ names, IsName name)
    (allowAboveRoot : Bool) : normalizeString (absolutePath names) allowAboveRoot = names := by
  by_cases hne : names = []
  · subst hne
    rfl
  · rw [normalizeString, splitOn_absolutePath hnames hne]
    exact foldl_pushSegment allowAboveRoot [] hnames

theorem absolutePath_injective {others : List (List Char)} (hnames : ∀ name ∈ names, IsName name)
    (hothers : ∀ name ∈ others, IsName name) (h : absolutePath names = absolutePath others) :
    names = others := by
  have hread := congrArg (fun path => normalizeString path false) h
  rw [normalizeString_absolutePath hnames, normalizeString_absolutePath hothers] at hread
  exact hread

theorem absolutePath_append {more : List (List Char)} (hne : names ≠ []) (hmore : more ≠ []) :
    absolutePath (names ++ more) = absolutePath names ++ '/' :: joinSegments more := by
  induction names with
  | nil => exact absurd rfl hne
  | cons name names ih =>
      rw [absolutePath, absolutePath, joinSegments, joinSegments, List.cons_append]
      by_cases hlast : names = []
      · subst hlast
        rw [List.nil_append, List.intercalate_cons_of_ne_nil hmore, List.intercalate_singleton]
        simp [joinSegments]
      · have htail := ih hlast
        rw [absolutePath, absolutePath, joinSegments, joinSegments, List.cons_append,
          List.cons.injEq] at htail
        rw [List.intercalate_cons_of_ne_nil (by simp [hlast]), htail.2,
          List.intercalate_cons_of_ne_nil hlast]
        simp

theorem mem_absolutePath {c : Char} (h : c ∈ absolutePath names) :
    c = '/' ∨ ∃ name ∈ names, c ∈ name := by
  rcases List.mem_cons.mp h with heq | hin
  · exact .inl heq
  · rw [joinSegments] at hin
    induction names with
    | nil => cases hin
    | cons name names ih =>
        by_cases hlast : names = []
        · subst hlast
          rw [List.intercalate_singleton] at hin
          exact .inr ⟨name, List.mem_cons_self, hin⟩
        · rw [List.intercalate_cons_of_ne_nil hlast] at hin
          rcases List.mem_append.mp hin with hfirst | hrest
          · rcases List.mem_snoc.mp hfirst with hname | hslash
            · exact .inr ⟨name, List.mem_cons_self, hname⟩
            · exact .inl hslash
          · rcases ih (List.mem_cons_of_mem _ hrest) hrest with heq | ⟨other, hother, hin⟩
            · exact .inl heq
            · exact .inr ⟨other, List.mem_cons_of_mem _ hother, hin⟩

theorem absolutePath_concat_append (init : List (List Char)) (last more : List Char) :
    absolutePath (init ++ [last]) ++ more = absolutePath (init ++ [last ++ more]) := by
  by_cases hinit : init = []
  · subst hinit
    simp [absolutePath, joinSegments]
  · rw [absolutePath_append hinit (by simp), absolutePath_append hinit (by simp)]
    simp [joinSegments]

/-! ## Normal paths -/

/-- A normal absolute path; only the root itself ends in its one slash anyway. -/
def normalText (names : List (List Char)) (slash : Bool) : List Char :=
  absolutePath names ++ if slash && !names.isEmpty then ['/'] else []

theorem normalText_eq (names : List (List Char)) (slash : Bool) :
    normalText names slash = absolutePath names ∨
      (slash = true ∧ names ≠ [] ∧ normalText names slash = absolutePath names ++ ['/']) := by
  cases slash with
  | false => exact .inl (List.append_nil _)
  | true =>
      cases names with
      | nil => exact .inl rfl
      | cons name names => exact .inr ⟨rfl, by simp, rfl⟩

theorem isAbsolute_normalText (slash : Bool) : isAbsolute (normalText names slash) = true := rfl

theorem normalizeString_normalText (hnames : ∀ name ∈ names, IsName name) (slash : Bool) :
    normalizeString (normalText names slash) false = names := by
  rcases normalText_eq names slash with heq | ⟨-, -, heq⟩
  · rw [heq, normalizeString_absolutePath hnames]
  · rw [heq, normalizeString_slash, normalizeString_absolutePath hnames]

theorem normalize_absolute (h : isAbsolute path = true) :
    normalize path =
      normalText (normalizeString path false) (decide (path.getLast? = some '/')) := by
  rw [normalize, normalText, h, Bool.not_true]
  by_cases hempty : normalizeString path false = []
  · simp [hempty, absolutePath, joinSegments]
  · simp [hempty, absolutePath]

theorem absolutePath_ne_append_slash (hnames : ∀ name ∈ names, IsName name) (hne : names ≠ [])
    (text : List Char) : absolutePath names ≠ text ++ ['/'] := by
  intro heq
  have hsplit := splitOn_absolutePath hnames hne
  rw [heq, List.splitOn_append_cons_self] at hsplit
  have hlast := congrArg List.getLast? hsplit
  rw [List.getLast?_append, List.getLast?_cons_of_ne_nil hne] at hlast
  have hmem : [] ∈ names := List.mem_of_getLast? hlast.symm
  exact (hnames [] hmem).1 rfl

theorem getLast?_normalText (hnames : ∀ name ∈ names, IsName name) (hne : names ≠ [])
    (slash : Bool) : (normalText names slash).getLast? = some '/' ↔ slash = true := by
  cases slash with
  | true =>
      rcases normalText_eq names true with heq | ⟨-, -, heq⟩
      · exact absurd heq (by simp [normalText, hne])
      · rw [heq]
        simp
  | false =>
      refine iff_of_false (fun hlast => ?_) (by decide)
      obtain ⟨text, htext⟩ := List.getLast?_eq_some_iff.mp hlast
      rw [normalText, Bool.false_and, if_neg (by decide), List.append_nil] at htext
      exact absolutePath_ne_append_slash hnames hne text htext

theorem normalize_normalText (hnames : ∀ name ∈ names, IsName name) (slash : Bool) :
    normalize (normalText names slash) = normalText names slash := by
  rw [normalize_absolute (isAbsolute_normalText slash), normalizeString_normalText hnames]
  by_cases hne : names = []
  · subst hne
    simp [normalText]
  · simp only [getLast?_normalText hnames hne slash, Bool.decide_eq_true]

/-- What `join` makes of a normal root and any path. -/
theorem normalize_join (hnames : ∀ name ∈ names, IsName name) (rest : List Char) :
    ∃ slash, (slash = true → rest.getLast? = some '/') ∧
      normalize (join [absolutePath names, rest]) =
        normalText ((rest.splitOn '/').foldl (pushSegment false) names) slash := by
  have hjoined : ∃ path slash, (slash = true → rest.getLast? = some '/') ∧
      join [absolutePath names, rest] = normalText (normalizeString path false) slash ∧
      normalizeString path false = (rest.splitOn '/').foldl (pushSegment false) names := by
    by_cases hrest : rest = []
    · subst hrest
      refine ⟨absolutePath names, false, by simp, ?_, ?_⟩
      · have hnormal := normalize_normalText hnames false
        rw [normalText, Bool.false_and, if_neg (by decide), List.append_nil] at hnormal
        rw [normalizeString_absolutePath hnames]
        simpa [join, joinSegments, absolutePath, normalText] using hnormal
      · rw [normalizeString_absolutePath hnames]
        rfl
    · have htext : join [absolutePath names, rest] =
          normalize (absolutePath names ++ '/' :: rest) := by
        simp [join, joinSegments, absolutePath, hrest]
      have habsolute : isAbsolute (absolutePath names ++ '/' :: rest) = true := rfl
      rw [htext, normalize_absolute habsolute]
      refine ⟨_, _, fun hslash => ?_, rfl, ?_⟩
      · have hlast := of_decide_eq_true hslash
        rw [List.getLast?_append, List.getLast?_cons_of_ne_nil hrest] at hlast
        cases hend : rest.getLast? with
        | none => exact absurd (List.getLast?_eq_none_iff.mp hend) hrest
        | some c => rw [hend] at hlast; exact hlast
      · rw [normalizeString_append, normalizeString_absolutePath hnames]
  obtain ⟨path, slash, hslash, hjoin, hsegments⟩ := hjoined
  refine ⟨slash, hslash, ?_⟩
  rw [hjoin, normalize_normalText (isName_normalizeString path), hsegments]

theorem splitOn_normalText (hnames : ∀ name ∈ names, IsName name) (hne : names ≠ [])
    (slash : Bool) : ∃ tail, (tail = [] ∨ tail = [[]]) ∧
      (normalText names slash).splitOn '/' = [] :: (names ++ tail) := by
  rcases normalText_eq names slash with heq | ⟨-, -, heq⟩
  · refine ⟨[], .inl rfl, ?_⟩
    rw [heq, splitOn_absolutePath hnames hne, List.append_nil]
  · refine ⟨[[]], .inr rfl, ?_⟩
    rw [heq, List.splitOn_append_cons_self, splitOn_absolutePath hnames hne]
    rfl

/-- A path that goes on behind `base` has its names. -/
theorem isPrefix_of_normalText {base : List (List Char)} (hbase : ∀ name ∈ base, IsName name)
    (hne : base ≠ []) (hnames : ∀ name ∈ names, IsName name) {slash : Bool} {rest : List Char}
    (h : normalText names slash = absolutePath base ++ '/' :: rest) : base <+: names := by
  have hsplit := congrArg (List.splitOn '/') h
  rw [List.splitOn_append_cons_self, splitOn_absolutePath hbase hne] at hsplit
  have hrest : 0 < (rest.splitOn '/').length :=
    List.length_pos_iff.mpr (List.splitOn_ne_nil '/' rest)
  by_cases hroot : names = []
  · subst hroot
    have hlength := congrArg List.length hsplit
    have hroot : ((normalText [] slash).splitOn '/').length = 2 := by
      rw [normalText, List.isEmpty_nil, Bool.not_true, Bool.and_false]
      rfl
    have hbelow := List.length_pos_iff.mpr hne
    rw [hroot, List.length_append, List.length_cons] at hlength
    omega
  · obtain ⟨tail, htail, hcut⟩ := splitOn_normalText hnames hroot slash
    rw [hcut, List.cons_append, List.cons.injEq] at hsplit
    have hlength := congrArg List.length hsplit.2
    have hshort : tail.length ≤ 1 := by
      rcases htail with rfl | rfl
      · exact Nat.zero_le 1
      · exact Nat.le_refl 1
    rw [List.length_append, List.length_append] at hlength
    exact List.prefix_of_prefix_length_le ⟨_, hsplit.2.symm⟩ (List.prefix_append names tail)
      (by omega)

/-- A name is put below a normal path. -/
theorem join_name (hnames : ∀ name ∈ names, IsName name) (slash : Bool) {name : List Char}
    (hname : IsName name) :
    join [normalText names slash, name] = absolutePath (names ++ [name]) := by
  obtain ⟨hempty, hdot, hdots, hslash⟩ := hname
  have htext : join [normalText names slash, name] =
      normalize (normalText names slash ++ '/' :: name) := by
    simp [join, joinSegments, normalText, absolutePath, hempty]
  have habsolute : isAbsolute (normalText names slash ++ '/' :: name) = true := rfl
  have hsplit : name.splitOn '/' = [name] := List.splitOn_eq_singleton hslash
  have hlast : (normalText names slash ++ '/' :: name).getLast? ≠ some '/' := by
    rw [List.getLast?_append, List.getLast?_cons_of_ne_nil hempty]
    cases hend : name.getLast? with
    | none => exact absurd (List.getLast?_eq_none_iff.mp hend) hempty
    | some c =>
        rintro heq
        obtain rfl : c = '/' := Option.some.inj heq
        exact hslash (List.mem_of_getLast? hend)
  rw [htext, normalize_absolute habsolute, normalizeString_append,
    normalizeString_normalText hnames, hsplit, decide_eq_false hlast, normalText, Bool.false_and,
    if_neg (by decide), List.append_nil, List.foldl_cons, List.foldl_nil, pushSegment,
    if_neg (not_or.mpr ⟨hempty, hdot⟩), if_neg hdots]

/-- The test for a path inside a directory, which finds nothing inside the root. -/
theorem inside_iff {base : List (List Char)} (hbase : ∀ name ∈ base, IsName name)
    (hnames : ∀ name ∈ names, IsName name) (slash : Bool) :
    (normalText names slash = absolutePath base ∨
        absolutePath base ++ ['/'] <+: normalText names slash) ↔
      if base = [] then names = [] else base <+: names := by
  have hequal : normalText names slash = absolutePath base → names = base := by
    intro heq
    have hread := congrArg (fun path => normalizeString path false) heq
    rwa [normalizeString_normalText hnames, normalizeString_absolutePath hbase] at hread
  by_cases hroot : base = []
  · subst hroot
    rw [if_pos rfl]
    constructor
    · rintro (heq | ⟨rest, hrest⟩)
      · exact hequal heq
      · by_contra hne
        obtain ⟨tail, -, hcut⟩ := splitOn_normalText hnames hne slash
        have htext : normalText names slash = [] ++ '/' :: ([] ++ '/' :: rest) := hrest.symm
        rw [htext, List.splitOn_append_cons_self, List.splitOn_append_cons_self] at hcut
        obtain ⟨name, names', rfl⟩ := List.exists_cons_of_ne_nil hne
        have hname : [] = name := (List.cons.inj (List.cons.inj hcut).2).1
        exact (hnames name List.mem_cons_self).1 hname.symm
    · rintro rfl
      left
      rw [normalText, List.isEmpty_nil, Bool.not_true, Bool.and_false]
      rfl
  · rw [if_neg hroot]
    constructor
    · rintro (heq | ⟨rest, hrest⟩)
      · obtain rfl := hequal heq
        exact List.prefix_refl names
      · have htext : normalText names slash = absolutePath base ++ '/' :: rest := by
          rw [← hrest, List.append_assoc]
          rfl
        exact isPrefix_of_normalText hbase hroot hnames htext
    · rintro ⟨more, rfl⟩
      by_cases hmore : more = []
      · subst hmore
        rw [List.append_nil]
        rcases normalText_eq base slash with heq | ⟨-, -, heq⟩
        · exact .inl heq
        · exact .inr (heq ▸ List.prefix_refl _)
      · right
        rw [normalText, absolutePath_append hroot hmore, List.append_assoc]
        exact List.prefix_append_right_inj _ |>.mpr ⟨_, rfl⟩

end BurrowGate.Js
