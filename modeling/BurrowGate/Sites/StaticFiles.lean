import BurrowGate.Js.PosixPath
import BurrowGate.Js.UriEncoding

/-!
# Static origins

How a static root is accepted (`origin-pool-service.ts`) and which file a request is answered with
(`static-origin-service.ts`), on a POSIX file system without symbolic links.
-/

namespace BurrowGate.StaticFiles

open Js

/-! ## The file system -/

inductive EntryKind
  | file
  | directory
  | other
  deriving DecidableEq

/-- What there is at a path from the root. -/
structure FileSystem where
  entry : List (List Char) → Option EntryKind
  root : entry [] = some .directory
  parent : ∀ path name, entry (path ++ [name]) ≠ none → entry path = some .directory
  named : ∀ path name, entry (path ++ [name]) ≠ none → IsName name ∧ '\x00' ∉ name

/-- The place that the rest of a path leads to; each segment needs a directory to start from. -/
def walk (fs : FileSystem) (current : List (List Char)) : List (List Char) →
    Option (List (List Char))
  | [] => some current
  | segment :: rest =>
      if fs.entry current = some .directory then
        if segment = [] ∨ segment = ['.'] then walk fs current rest
        else if segment = ['.', '.'] then walk fs current.dropLast rest
        else walk fs (current ++ [segment]) rest
      else none

/-- `stat` of an absolute path; `none` where it throws. -/
def stat (fs : FileSystem) (path : List Char) : Option EntryKind :=
  if path.contains '\x00' then none else (walk fs [] (path.splitOn '/')).bind fs.entry

/-! ## The settings of a static origin -/

def requiredString (value fallback : Option (List Char)) (label : List Char) (maximum : Nat) :
    Except (List Char) (List Char) :=
  let result := trim ((value.or fallback).getD [])
  if result = [] then .error (label ++ " is required".toList)
  else if utf16Length result > maximum then
    .error (label ++ s!" must be at most {maximum} characters".toList)
  else .ok result

def resolveJailedPath (cwd rootDirectory raw : List Char) : Except (List Char) (List Char) :=
  let base := resolve cwd [rootDirectory]
  let resolved := resolve cwd [base, raw]
  if resolved ≠ base && !(base ++ ['/']).isPrefixOf resolved then
    .error ("Path must resolve inside ".toList ++ base)
  else .ok resolved

def normalizeStaticRoot (fs : FileSystem) (cwd rootDirectory : List Char)
    (value fallback : Option (List Char)) : Except (List Char) (List Char) := do
  let raw ← requiredString value fallback "Static root".toList 1024
  match resolveJailedPath cwd rootDirectory raw with
  | .error _ =>
      .error ("Static root must resolve inside ".toList ++ resolve cwd [rootDirectory])
  | .ok resolved =>
      match stat fs resolved with
      | none => .error ("Static root ".toList ++ resolved ++ " does not exist".toList)
      | some .directory => .ok resolved
      | some _ => .error ("Static root ".toList ++ resolved ++ " is not a directory".toList)

/-- `value` is what `String(value ?? "")` makes of it, and `none` for `undefined`. -/
def staticIndexFile (value fallback : Option (List Char)) :
    Except (List Char) (Option (List Char)) :=
  match value with
  | none => .ok fallback
  | some value =>
      let raw := trim value
      if raw = [] then .ok (some "index.html".toList)
      else if raw.contains '/' || raw.contains '\\' || utf16Length raw > 255 then
        .error "Static index file must be a bare filename".toList
      else .ok (some raw)

/-- The index files that can be stored, by any number of edits. -/
inductive AcceptedIndexFile : Option (List Char) → Prop
  | absent : AcceptedIndexFile none
  | default : AcceptedIndexFile (some "index.html".toList)
  | edited {value fallback stored : Option (List Char)} : AcceptedIndexFile fallback →
      staticIndexFile value fallback = .ok stored → AcceptedIndexFile stored

structure SiteOriginRecord where
  originUrl : List Char
  staticIndexFile : Option (List Char)
  staticSpaFallback : Bool

/-! ## Serving -/

def resolveStaticFile (fs : FileSystem) (root urlPath indexFile : List Char) :
    Option (List Char) :=
  (decodeURIComponent urlPath).bind fun decoded =>
    if decoded.contains '\x00' then none
    else
      let candidate := normalize (join [root, decoded])
      if candidate ≠ root && !(root ++ ['/']).isPrefixOf candidate then none
      else
        match stat fs candidate with
        | some .file => some candidate
        | some .directory =>
            let indexPath := join [candidate, indexFile]
            if stat fs indexPath = some .file then some indexPath else none
        | _ => none

inductive StaticResponse
  | methodNotAllowed
  | notFound
  | file (path : List Char)
  deriving DecidableEq

/-- `origin.static_index_file || "index.html"` -/
def SiteOriginRecord.indexFile (origin : SiteOriginRecord) : List Char :=
  match origin.staticIndexFile with
  | none | some [] => "index.html".toList
  | some name => name

def serveStaticOrigin (fs : FileSystem) (origin : SiteOriginRecord) (method pathname : List Char) :
    StaticResponse :=
  if method ≠ "GET".toList ∧ method ≠ "HEAD".toList then .methodNotAllowed
  else
    let root := origin.originUrl
    let exact := resolveStaticFile fs root pathname origin.indexFile
    let clean := if pathname.getLast? = some '/' then none
      else resolveStaticFile fs root (pathname ++ ".html".toList) origin.indexFile
    let fallback := if origin.staticSpaFallback then
      resolveStaticFile fs root ['/'] origin.indexFile else none
    match exact.or (clean.or fallback) with
    | none => .notFound
    | some path => .file path

/-! ## The law -/

/-- `path` lies at `names` below `root`. -/
def Beneath (root : List Char) (names : List (List Char)) (path : List Char) : Prop :=
  names ≠ [] ∧ ∃ base, (∀ name ∈ base ++ names, IsName name) ∧ root = absolutePath base ∧
    path = absolutePath (base ++ names)

/-- The request is for a file below the root, by any encoding of its path. -/
def Requests (fs : FileSystem) (root pathname : List Char) (names : List (List Char))
    (path : List Char) : Prop :=
  Beneath root names path ∧ stat fs path = some .file ∧
    decodeURIComponent pathname = some (absolutePath names)

structure Jailed (fs : FileSystem) (origin : SiteOriginRecord) (pathname : List Char) : Prop where
  beneath : ∀ method path, serveStaticOrigin fs origin method pathname = .file path →
    ∃ names, Beneath origin.originUrl names path
  served : ∀ names path, Requests fs origin.originUrl pathname names path →
    ∀ method, method = "GET".toList ∨ method = "HEAD".toList →
      serveStaticOrigin fs origin method pathname = .file path

/-- The root is not the root of the file system; or no file is requested but the one that the
fallback for single-page applications finds. -/
def Reachable (fs : FileSystem) (origin : SiteOriginRecord) (pathname : List Char) : Prop :=
  origin.originUrl ≠ ['/'] ∨
    ∀ names path, Requests fs origin.originUrl pathname names path →
      origin.staticSpaFallback = true ∧ names = [origin.indexFile]

variable {fs : FileSystem} {origin : SiteOriginRecord} {root pathname indexFile : List Char}
  {base names : List (List Char)}

/-! ## What `stat` finds -/

theorem FileSystem.directory_of_append {more : List (List Char)}
    (h : fs.entry (names ++ more) ≠ none) (hmore : more ≠ []) :
    fs.entry names = some .directory := by
  induction more using List.reverseRecOn with
  | nil => exact absurd rfl hmore
  | append_singleton more name ih =>
      rw [← List.append_assoc] at h
      have hparent := fs.parent (names ++ more) name h
      by_cases hlast : more = []
      · rw [hlast, List.append_nil] at hparent
        exact hparent
      · exact ih (by rw [hparent]; simp) hlast

theorem FileSystem.isName_of_entry (h : fs.entry names ≠ none) :
    ∀ name ∈ names, IsName name ∧ '\x00' ∉ name := by
  induction names using List.reverseRecOn with
  | nil => exact fun _ hname => (by cases hname)
  | append_singleton names last ih =>
      have hparent := fs.parent names last h
      intro name hname
      rcases List.mem_snoc.mp hname with hold | rfl
      · exact ih (by rw [hparent]; simp) name hold
      · exact fs.named names name h

theorem walk_names (current : List (List Char)) (hnames : ∀ name ∈ names, IsName name) :
    (walk fs current names).bind fs.entry = fs.entry (current ++ names) := by
  induction names generalizing current with
  | nil => simp [walk]
  | cons name names ih =>
      obtain ⟨hempty, hdot, hdots, -⟩ := hnames name List.mem_cons_self
      rw [walk]
      by_cases hdirectory : fs.entry current = some .directory
      · rw [if_pos hdirectory, if_neg (not_or.mpr ⟨hempty, hdot⟩), if_neg hdots,
          ih _ fun other hother => hnames other (List.mem_cons_of_mem _ hother)]
        simp
      · rw [if_neg hdirectory, Option.bind_none]
        by_contra hne
        exact hdirectory (fs.directory_of_append (fun h => hne h.symm) (by simp))

theorem walk_slash (current : List (List Char)) (hnames : ∀ name ∈ names, IsName name)
    {kind : EntryKind} (h : (walk fs current (names ++ [[]])).bind fs.entry = some kind) :
    kind = .directory ∧ fs.entry (current ++ names) = some .directory := by
  induction names generalizing current with
  | nil =>
      rw [List.nil_append, walk] at h
      split at h
      · rename_i hdirectory
        rw [if_pos (.inl rfl), walk, Option.bind_some, hdirectory] at h
        rw [List.append_nil]
        exact ⟨(Option.some.inj h).symm, hdirectory⟩
      · cases h
  | cons name names ih =>
      obtain ⟨hempty, hdot, hdots, -⟩ := hnames name List.mem_cons_self
      rw [List.cons_append, walk] at h
      by_cases hdirectory : fs.entry current = some .directory
      · rw [if_pos hdirectory, if_neg (not_or.mpr ⟨hempty, hdot⟩), if_neg hdots] at h
        have hrest := ih _ (fun other hother => hnames other (List.mem_cons_of_mem _ hother)) h
        rw [List.append_assoc] at hrest
        exact hrest
      · rw [if_neg hdirectory] at h
        cases h

theorem stat_absolutePath (hnames : ∀ name ∈ names, IsName name) :
    stat fs (absolutePath names) = fs.entry names := by
  rw [stat]
  split
  · rename_i hnul
    by_contra hne
    rcases mem_absolutePath (List.contains_iff_mem.mp hnul) with heq | ⟨name, hname, hin⟩
    · exact absurd heq (by decide)
    · exact (fs.isName_of_entry (fun h => hne h.symm) name hname).2 hin
  · by_cases hroot : names = []
    · subst hroot
      have hwalk : walk fs [] ((absolutePath []).splitOn '/') = some [] := by
        have hsplit : (absolutePath []).splitOn '/' = [[], []] := rfl
        rw [hsplit, walk, if_pos fs.root, if_pos (.inl rfl), walk, if_pos fs.root,
          if_pos (.inl rfl), walk]
      rw [hwalk, Option.bind_some]
    · rw [splitOn_absolutePath hnames hroot, walk, if_pos fs.root, if_pos (.inl rfl),
        walk_names [] hnames, List.nil_append]

/-- A slash at the end of a path is for directories. -/
theorem stat_normalText (hnames : ∀ name ∈ names, IsName name) {slash : Bool} {kind : EntryKind}
    (h : stat fs (normalText names slash) = some kind) :
    fs.entry names = some kind ∧
      (kind = .file → normalText names slash = absolutePath names) := by
  rcases normalText_eq names slash with heq | ⟨-, hne, heq⟩
  · rw [heq, stat_absolutePath hnames] at h
    exact ⟨h, fun _ => heq⟩
  · rw [heq, stat] at h
    split at h
    · cases h
    · rw [List.splitOn_append_cons_self, splitOn_absolutePath hnames hne] at h
      have hwalk : (walk fs [] ([] :: (names ++ [[]]))).bind fs.entry = some kind := h
      rw [walk, if_pos fs.root, if_pos (.inl rfl)] at hwalk
      obtain ⟨rfl, hentry⟩ := walk_slash [] hnames hwalk
      exact ⟨hentry, fun hfile => (by cases hfile)⟩

/-! ## The settings -/

theorem AcceptedIndexFile.noSlash {stored : Option (List Char)} (h : AcceptedIndexFile stored) :
    ∀ name, stored = some name → '/' ∉ name := by
  induction h with
  | absent => exact fun _ hname => (by cases hname)
  | default =>
      intro name hname
      rw [← Option.some.inj hname]
      decide
  | edited _ hstored ih =>
      rename_i value fallback stored _
      cases value with
      | none =>
          obtain rfl := Except.ok.inj hstored
          exact ih
      | some value =>
          rw [staticIndexFile] at hstored
          split at hstored
          · intro name hname
            rw [← Except.ok.inj hstored] at hname
            rw [← Option.some.inj hname]
            decide
          · split at hstored
            · cases hstored
            · rename_i hbare
              intro name hname
              rw [← Except.ok.inj hstored] at hname
              obtain rfl := Option.some.inj hname
              simp only [Bool.or_eq_true, not_or, List.contains_iff_mem] at hbare
              exact hbare.1.1

theorem indexFile_noSlash (h : AcceptedIndexFile origin.staticIndexFile) :
    origin.indexFile ≠ [] ∧ '/' ∉ origin.indexFile := by
  rw [SiteOriginRecord.indexFile]
  split
  · decide
  · decide
  · rename_i name hempty hname
    exact ⟨hempty, h.noSlash name hname⟩

theorem normalizeStaticRoot_ok {cwd rootDirectory : List Char}
    {value fallback : Option (List Char)}
    (h : normalizeStaticRoot fs cwd rootDirectory value fallback = .ok root) :
    ∃ base, (∀ name ∈ base, IsName name) ∧ root = absolutePath base ∧
      fs.entry base = some .directory := by
  rw [normalizeStaticRoot] at h
  cases hraw : requiredString value fallback "Static root".toList 1024 with
  | error message => rw [hraw] at h; cases h
  | ok raw =>
      rw [hraw] at h
      have hresolve : ∀ paths, ∃ base, (∀ name ∈ base, IsName name) ∧
          resolve cwd paths = absolutePath base :=
        fun paths => ⟨_, isName_normalizeString _, rfl⟩
      obtain ⟨base, hnames, hbase⟩ := hresolve [resolve cwd [rootDirectory], raw]
      have hjailed : resolveJailedPath cwd rootDirectory raw = .ok (absolutePath base) ∨
          ∃ message, resolveJailedPath cwd rootDirectory raw = .error message := by
        rw [resolveJailedPath]
        split
        · exact .inr ⟨_, rfl⟩
        · rw [hbase]
          exact .inl rfl
      rcases hjailed with hok | ⟨message, herror⟩
      · simp only [bind, Except.bind, hok, stat_absolutePath hnames] at h
        split at h
        · cases h
        · rename_i hdirectory
          obtain rfl := Except.ok.inj h
          exact ⟨base, hnames, rfl, hdirectory⟩
        · cases h
      · simp only [bind, Except.bind, herror] at h
        cases h

/-! ## What is resolved -/

theorem outside_iff {candidate : List Char} :
    (decide (candidate ≠ root) && !(root ++ ['/']).isPrefixOf candidate) = true ↔
      ¬ (candidate = root ∨ root ++ ['/'] <+: candidate) := by
  rw [Bool.and_eq_true, decide_eq_true_eq, Bool.not_eq_true', not_or,
    ← List.isPrefixOf_iff_prefix, Bool.not_eq_true]

/-- An index file of a directory is a file of that name. -/
theorem index_cases (hnames : ∀ name ∈ names, IsName name) (slash : Bool)
    (hdirectory : fs.entry names = some .directory) (hempty : indexFile ≠ [])
    (hslash : '/' ∉ indexFile)
    (hfile : stat fs (join [normalText names slash, indexFile]) = some .file) :
    IsName indexFile := by
  by_contra hbad
  have hdots : indexFile = ['.'] ∨ indexFile = ['.', '.'] := by
    by_contra hplain
    obtain ⟨hdot, hdotdot⟩ := not_or.mp hplain
    exact hbad ⟨hempty, hdot, hdotdot, hslash⟩
  have htext : join [normalText names slash, indexFile] =
      normalize (normalText names slash ++ '/' :: indexFile) := by
    simp [join, joinSegments, normalText, absolutePath, hempty]
  have habsolute : isAbsolute (normalText names slash ++ '/' :: indexFile) = true := rfl
  have hplaces : ∀ name ∈ pushSegment false names indexFile, IsName name :=
    isName_pushSegment hnames hslash
  rw [htext, normalize_absolute habsolute, normalizeString_append,
    normalizeString_normalText hnames, List.splitOn_eq_singleton hslash, List.foldl_cons,
    List.foldl_nil] at hfile
  have hentry := (stat_normalText hplaces hfile).1
  have hself : fs.entry names ≠ some .file := by rw [hdirectory]; decide
  rcases hdots with rfl | rfl
  · exact hself hentry
  · rw [pushSegment, if_neg (by decide), if_pos rfl] at hentry
    split at hentry
    · rename_i hbelow
      obtain ⟨init, last, rfl⟩ : ∃ init last, names = init ++ [last] :=
        ⟨_, _, (List.dropLast_concat_getLast hbelow.1).symm⟩
      rw [List.dropLast_concat] at hentry
      have hparent := fs.parent init last (by rw [hdirectory]; simp)
      rw [hparent] at hentry
      cases hentry
    · exact hself hentry

theorem resolveStaticFile_cases {urlPath path : List Char}
    (hbase : ∀ name ∈ base, IsName name) (hempty : indexFile ≠ []) (hslash : '/' ∉ indexFile)
    (h : resolveStaticFile fs (absolutePath base) urlPath indexFile = some path) :
    ∃ decoded place, decodeURIComponent urlPath = some decoded ∧
      place = (decoded.splitOn '/').foldl (pushSegment false) base ∧
      (if base = [] then place = [] else base <+: place) ∧
      ((fs.entry place = some .file ∧ path = absolutePath place) ∨
        (fs.entry place = some .directory ∧ IsName indexFile ∧
          path = absolutePath (place ++ [indexFile]))) := by
  obtain ⟨decoded, hdecoded, hfound⟩ := Option.bind_eq_some_iff.mp h
  obtain ⟨slash, -, hcandidate⟩ := normalize_join hbase decoded
  have hplace : ∀ name ∈ (decoded.splitOn '/').foldl (pushSegment false) base, IsName name :=
    isName_foldl hbase fun _ hsegment => not_mem_of_mem_splitOn hsegment
  refine ⟨decoded, _, hdecoded, rfl, ?_⟩
  rw [hcandidate] at hfound
  split at hfound
  · cases hfound
  · dsimp only at hfound
    split at hfound
    · cases hfound
    · rename_i hinside
      rw [outside_iff, Decidable.not_not, inside_iff hbase hplace] at hinside
      refine ⟨hinside, ?_⟩
      split at hfound
      · rename_i hfile
        obtain ⟨hentry, htext⟩ := stat_normalText hplace hfile
        rw [htext rfl] at hfound
        exact .inl ⟨hentry, (Option.some.inj hfound).symm⟩
      · rename_i hdirectory
        have hentry := (stat_normalText hplace hdirectory).1
        split at hfound
        · rename_i hindex
          have hname := index_cases hplace slash hentry hempty hslash hindex
          rw [join_name hplace slash hname] at hfound
          exact .inr ⟨hentry, hname, (Option.some.inj hfound).symm⟩
        · cases hfound
      · cases hfound

theorem beneath_of_resolve {urlPath path : List Char} (hbase : ∀ name ∈ base, IsName name)
    (hdirectory : fs.entry base = some .directory) (hempty : indexFile ≠ [])
    (hslash : '/' ∉ indexFile)
    (h : resolveStaticFile fs (absolutePath base) urlPath indexFile = some path) :
    ∃ names, Beneath (absolutePath base) names path := by
  obtain ⟨decoded, place, -, hplace, hinside, hfound⟩ :=
    resolveStaticFile_cases hbase hempty hslash h
  have hnames : ∀ name ∈ place, IsName name := by
    rw [hplace]
    exact isName_foldl hbase fun _ hsegment => not_mem_of_mem_splitOn hsegment
  obtain ⟨more, rfl⟩ : base <+: place := by
    split at hinside
    · rw [‹base = []›]
      exact List.nil_prefix
    · exact hinside
  rcases hfound with ⟨hfile, rfl⟩ | ⟨-, hname, rfl⟩
  · refine ⟨more, ?_, base, hnames, rfl, rfl⟩
    rintro rfl
    rw [List.append_nil, hdirectory] at hfile
    cases hfile
  · refine ⟨more ++ [indexFile], by simp, base, ?_, rfl, by rw [List.append_assoc]⟩
    intro name hmem
    rw [← List.append_assoc] at hmem
    rcases List.mem_snoc.mp hmem with hold | rfl
    · exact hnames name hold
    · exact hname

/-- The file that is asked for, below a root that is not the root of the file system. -/
theorem resolve_requested (hnames : ∀ name ∈ base ++ names, IsName name) (hbelow : base ≠ [])
    (hne : names ≠ []) (hfile : fs.entry (base ++ names) = some .file)
    (hdecoded : decodeURIComponent pathname = some (absolutePath names)) :
    resolveStaticFile fs (absolutePath base) pathname indexFile =
      some (absolutePath (base ++ names)) := by
  have hbase : ∀ name ∈ base, IsName name :=
    fun name hname => hnames name (List.mem_append_left _ hname)
  have hrest : ∀ name ∈ names, IsName name :=
    fun name hname => hnames name (List.mem_append_right _ hname)
  obtain ⟨slash, hslash, hcandidate⟩ := normalize_join hbase (absolutePath names)
  have hplain : slash = false := by
    cases slash with
    | false => rfl
    | true =>
        obtain ⟨text, htext⟩ := List.getLast?_eq_some_iff.mp (hslash rfl)
        exact absurd htext (absolutePath_ne_append_slash hrest hne text)
  have hplace : ((absolutePath names).splitOn '/').foldl (pushSegment false) base =
      base ++ names := by
    rw [splitOn_absolutePath hrest hne]
    exact foldl_pushSegment false base hrest
  have hnul : (absolutePath names).contains '\x00' = false := by
    by_contra hin
    rw [Bool.not_eq_false, List.contains_iff_mem] at hin
    rcases mem_absolutePath hin with heq | ⟨name, hname, hmem⟩
    · exact absurd heq (by decide)
    · have hentry : fs.entry (base ++ names) ≠ none := by rw [hfile]; simp
      exact (fs.isName_of_entry hentry name (List.mem_append_right _ hname)).2 hmem
  have htext : normalText (base ++ names) false = absolutePath (base ++ names) :=
    List.append_nil _
  have hinside := (inside_iff hbase hnames false).mpr (by
    rw [if_neg hbelow]
    exact List.prefix_append base names)
  rw [resolveStaticFile, hdecoded, Option.bind_some, hnul]
  dsimp only
  rw [hcandidate, hplain, hplace, if_neg (by decide),
    if_neg (fun hout => outside_iff.mp hout hinside), htext, stat_absolutePath hnames, hfile]

/-! ## The root of the file system -/

/-- Below the root of the file system nothing is resolved. -/
theorem resolve_root_none {urlPath : List Char} (hnames : ∀ name ∈ names, IsName name)
    (hne : names ≠ []) (hempty : indexFile ≠ []) (hslash : '/' ∉ indexFile)
    (hdecoded : decodeURIComponent urlPath = some (absolutePath names)) :
    resolveStaticFile fs (absolutePath []) urlPath indexFile = none := by
  rw [Option.eq_none_iff_forall_ne_some]
  intro path h
  obtain ⟨decoded, place, hdecoded', hplace, hinside, -⟩ :=
    resolveStaticFile_cases (fun _ hname => (by cases hname)) hempty hslash h
  rw [if_pos rfl] at hinside
  obtain rfl := Option.some.inj (hdecoded.symm.trans hdecoded')
  rw [splitOn_absolutePath hnames hne] at hplace
  have hfold : ([] :: names).foldl (pushSegment false) [] = names :=
    foldl_pushSegment false [] hnames
  exact hne (hfold.symm.trans (hplace.symm.trans hinside))

theorem isName_html {name : List Char} (h : IsName name) : IsName (name ++ ".html".toList) := by
  have hlength : (name ++ ".html".toList).length = name.length + 5 := by
    rw [List.length_append]
    rfl
  refine ⟨?_, ?_, ?_, ?_⟩
  · intro heq
    rw [heq] at hlength
    exact absurd hlength (by simp)
  · intro heq
    rw [heq] at hlength
    exact absurd hlength (by simp)
  · intro heq
    rw [heq, List.length_cons, List.length_cons, List.length_nil] at hlength
    omega
  · rw [List.mem_append, not_or]
    exact ⟨h.2.2.2, by decide⟩

/-- Nor is a clean URL. -/
theorem resolve_root_html (hnames : ∀ name ∈ names, IsName name) (hne : names ≠ [])
    (hempty : indexFile ≠ []) (hslash : '/' ∉ indexFile)
    (hdecoded : decodeURIComponent pathname = some (absolutePath names)) :
    resolveStaticFile fs (absolutePath []) (pathname ++ ".html".toList) indexFile = none := by
  obtain ⟨init, last, rfl⟩ : ∃ init last, names = init ++ [last] :=
    ⟨_, _, (List.dropLast_concat_getLast hne).symm⟩
  have hhtml : decodeURIComponent ".html".toList = some ".html".toList := by decide
  have hlong : ∀ name ∈ init ++ [last ++ ".html".toList], IsName name := by
    intro name hname
    rcases List.mem_snoc.mp hname with hold | rfl
    · exact hnames name (List.mem_append_left _ hold)
    · exact isName_html (hnames last (List.mem_append_right _ List.mem_cons_self))
  apply resolve_root_none hlong (by simp) hempty hslash
  rw [decodeURIComponent_append hdecoded, hhtml, Option.map_some, absolutePath_concat_append]

theorem resolve_root_index (hindex : IsName indexFile)
    (hfile : fs.entry [indexFile] = some .file) :
    resolveStaticFile fs (absolutePath []) ['/'] indexFile = some (absolutePath [indexFile]) := by
  have hdecoded : decodeURIComponent ['/'] = some ['/'] := by decide
  have hcandidate : normalize (join [absolutePath [], ['/']]) = absolutePath [] := by decide
  have hnames : ∀ name ∈ ([] : List (List Char)), IsName name := fun _ hname => (by cases hname)
  have hindexPath : join [absolutePath [], indexFile] = absolutePath [indexFile] :=
    join_name hnames false hindex
  have hsingle : ∀ name ∈ [indexFile], IsName name := by
    intro name hname
    obtain rfl := List.mem_singleton.mp hname
    exact hindex
  rw [resolveStaticFile, hdecoded, Option.bind_some, if_neg (by decide)]
  dsimp only
  rw [hcandidate, if_neg (fun hout => outside_iff.mp hout (.inl rfl)), stat_absolutePath hnames,
    fs.root]
  dsimp only
  rw [hindexPath, stat_absolutePath hsingle, if_pos hfile]

theorem serve_exact {method path : List Char}
    (hmethod : method = "GET".toList ∨ method = "HEAD".toList)
    (h : resolveStaticFile fs origin.originUrl pathname origin.indexFile = some path) :
    serveStaticOrigin fs origin method pathname = .file path := by
  rw [serveStaticOrigin, if_neg (fun hother => hmethod.elim hother.1 hother.2)]
  dsimp only
  rw [h, Option.some_or]

theorem serve_fallback {method path : List Char}
    (hmethod : method = "GET".toList ∨ method = "HEAD".toList)
    (hexact : resolveStaticFile fs origin.originUrl pathname origin.indexFile = none)
    (hclean : resolveStaticFile fs origin.originUrl (pathname ++ ".html".toList)
      origin.indexFile = none) (hspa : origin.staticSpaFallback = true)
    (h : resolveStaticFile fs origin.originUrl ['/'] origin.indexFile = some path) :
    serveStaticOrigin fs origin method pathname = .file path := by
  rw [serveStaticOrigin, if_neg (fun hother => hmethod.elim hother.1 hother.2)]
  dsimp only
  rw [hexact, hclean, h, hspa, ite_self, Option.none_or, Option.none_or, if_pos rfl]

theorem serve_cases {method path : List Char}
    (h : serveStaticOrigin fs origin method pathname = .file path) :
    resolveStaticFile fs origin.originUrl pathname origin.indexFile = some path ∨
      resolveStaticFile fs origin.originUrl (pathname ++ ".html".toList) origin.indexFile =
        some path ∨
      (origin.staticSpaFallback = true ∧
        resolveStaticFile fs origin.originUrl ['/'] origin.indexFile = some path) := by
  rw [serveStaticOrigin] at h
  split at h
  · cases h
  · dsimp only at h
    split at h
    · cases h
    · rename_i found hfound
      obtain rfl : found = path := by injection h
      rcases Option.or_eq_some_iff.mp hfound with hexact | ⟨-, hrest⟩
      · exact .inl hexact
      · rcases Option.or_eq_some_iff.mp hrest with hclean | ⟨-, hfallback⟩
        · split at hclean
          · cases hclean
          · exact .inr (.inl hclean)
        · split at hfallback
          · exact .inr (.inr ⟨‹_›, hfallback⟩)
          · cases hfallback

/-! ## Both directions -/

theorem jailed_below (pathname : List Char) (hindex : AcceptedIndexFile origin.staticIndexFile)
    (hbase : ∀ name ∈ base, IsName name) (hdirectory : fs.entry base = some .directory)
    (hroot : origin.originUrl = absolutePath base) (method path : List Char)
    (h : serveStaticOrigin fs origin method pathname = .file path) :
    ∃ names, Beneath origin.originUrl names path := by
  obtain ⟨hempty, hslash⟩ := indexFile_noSlash hindex
  rw [hroot]
  rcases serve_cases h with hfound | hfound | ⟨-, hfound⟩
  · exact beneath_of_resolve hbase hdirectory hempty hslash (hroot ▸ hfound)
  · exact beneath_of_resolve hbase hdirectory hempty hslash (hroot ▸ hfound)
  · exact beneath_of_resolve hbase hdirectory hempty hslash (hroot ▸ hfound)

theorem Requests.entry {path : List Char} (hbase : ∀ name ∈ base, IsName name)
    (h : Requests fs (absolutePath base) pathname names path) :
    (∀ name ∈ base ++ names, IsName name) ∧ names ≠ [] ∧ path = absolutePath (base ++ names) ∧
      fs.entry (base ++ names) = some .file ∧
      decodeURIComponent pathname = some (absolutePath names) := by
  obtain ⟨⟨hne, base', hnames, hroot, hpath⟩, hfile, hdecoded⟩ := h
  have hsame := absolutePath_injective hbase
    (fun name hname => hnames name (List.mem_append_left _ hname)) hroot
  subst hsame
  rw [hpath, stat_absolutePath hnames] at hfile
  exact ⟨hnames, hne, hpath, hfile, hdecoded⟩

/-- No path escapes the root, and every file below it is served, just where the file can be
reached. -/
theorem jailed_iff (fs : FileSystem) (cwd rootDirectory : List Char)
    (value fallback : Option (List Char)) (origin : SiteOriginRecord)
    (hroot : normalizeStaticRoot fs cwd rootDirectory value fallback = .ok origin.originUrl)
    (hindex : AcceptedIndexFile origin.staticIndexFile) (pathname : List Char) :
    Jailed fs origin pathname ↔ Reachable fs origin pathname := by
  obtain ⟨base, hbase, horigin, hdirectory⟩ := normalizeStaticRoot_ok hroot
  obtain ⟨hempty, hslash⟩ := indexFile_noSlash hindex
  have hbeneath := jailed_below pathname hindex hbase hdirectory horigin
  by_cases hbelow : base = []
  · subst hbelow
    have hnone : ∀ names path, Requests fs origin.originUrl pathname names path →
        resolveStaticFile fs origin.originUrl pathname origin.indexFile = none ∧
          resolveStaticFile fs origin.originUrl (pathname ++ ".html".toList)
            origin.indexFile = none := by
      intro names path hrequest
      rw [horigin] at hrequest ⊢
      obtain ⟨hnames, hne, -, -, hdecoded⟩ := hrequest.entry hbase
      exact ⟨resolve_root_none hnames hne hempty hslash hdecoded,
        resolve_root_html hnames hne hempty hslash hdecoded⟩
    constructor
    · intro h
      right
      intro names path hrequest
      obtain ⟨hexact, hclean⟩ := hnone names path hrequest
      rcases serve_cases (h.served names path hrequest _ (.inl rfl)) with hfound | hfound |
        ⟨hspa, hfound⟩
      · rw [hexact] at hfound
        cases hfound
      · rw [hclean] at hfound
        cases hfound
      · refine ⟨hspa, ?_⟩
        rw [horigin] at hfound hrequest
        obtain ⟨hnames, -, hpath, -, -⟩ := hrequest.entry hbase
        obtain ⟨-, place, -, -, hinside, hplace⟩ :=
          resolveStaticFile_cases hbase hempty hslash hfound
        rw [if_pos rfl] at hinside
        subst hinside
        rcases hplace with ⟨hfile, -⟩ | ⟨-, hname, hplace⟩
        · rw [fs.root] at hfile
          cases hfile
        · have hsingle : ∀ name ∈ [] ++ [origin.indexFile], IsName name := by
            intro name hmem
            obtain rfl := List.mem_singleton.mp hmem
            exact hname
          exact absolutePath_injective hnames hsingle (hpath.symm.trans hplace)
    · rintro (hother | hfallback)
      · exact absurd horigin hother
      · refine ⟨hbeneath, fun names path hrequest method hmethod => ?_⟩
        obtain ⟨hexact, hclean⟩ := hnone names path hrequest
        obtain ⟨hspa, rfl⟩ := hfallback names path hrequest
        have hentry := hrequest
        rw [horigin] at hentry
        obtain ⟨hnames, -, hpath, hfile, -⟩ := hentry.entry hbase
        have hname : IsName origin.indexFile := hnames _ List.mem_cons_self
        apply serve_fallback hmethod hexact hclean hspa
        rw [horigin, hpath]
        exact resolve_root_index hname hfile
  · have hother : origin.originUrl ≠ ['/'] := by
      intro heq
      have hroot' : absolutePath base = absolutePath [] := horigin.symm.trans heq
      exact hbelow (absolutePath_injective hbase (fun _ hname => (by cases hname)) hroot')
    refine iff_of_true ⟨hbeneath, fun names path hrequest method hmethod => ?_⟩ (.inl hother)
    rw [horigin] at hrequest
    obtain ⟨hnames, hne, hpath, hfile, hdecoded⟩ := hrequest.entry hbase
    apply serve_exact hmethod
    rw [horigin, hpath]
    exact resolve_requested hnames hbelow hne hfile hdecoded

/-- `/srv/a` and `/b` -/
def twoFiles : FileSystem where
  entry path :=
    if path = [] ∨ path = ["srv".toList] then some .directory
    else if path = ["srv".toList, "a".toList] ∨ path = ["b".toList] then some .file
    else none
  root := rfl
  parent path name h := by
    have hpath : path = (path ++ [name]).dropLast := (List.dropLast_concat ..).symm
    split at h
    · rename_i hdirectory
      rcases hdirectory with heq | heq
      · exact absurd heq (by simp)
      · rw [hpath, heq]
        rfl
    · split at h
      · rename_i hfile
        rcases hfile with heq | heq
        · rw [hpath, heq]
          rfl
        · rw [hpath, heq]
          rfl
      · exact absurd rfl h
  named path name h := by
    have hname : some name = (path ++ [name]).getLast? := List.getLast?_concat.symm
    split at h
    · rename_i hdirectory
      rcases hdirectory with heq | heq
      · exact absurd heq (by simp)
      · rw [heq] at hname
        obtain rfl := Option.some.inj hname
        decide
    · split at h
      · rename_i hfile
        rcases hfile with heq | heq
        · rw [heq] at hname
          obtain rfl := Option.some.inj hname
          decide
        · rw [heq] at hname
          obtain rfl := Option.some.inj hname
          decide
      · exact absurd rfl h

theorem jailed_iff_srv :
    Jailed twoFiles ⟨"/srv".toList, some "index.html".toList, false⟩ "/%61".toList := by
  have hroot : normalizeStaticRoot twoFiles ['/'] "/srv".toList (some ".".toList) none =
      .ok "/srv".toList := by
    rfl
  exact (jailed_iff twoFiles ['/'] "/srv".toList (some ".".toList) none
    ⟨"/srv".toList, some "index.html".toList, false⟩ hroot .default "/%61".toList).mpr
    (.inl (by decide))

/-- With the root `/` the files below it are refused. -/
theorem root_serves_nothing :
    ¬ ∀ (fs : FileSystem) (cwd rootDirectory : List Char) (value fallback : Option (List Char))
      (origin : SiteOriginRecord),
      normalizeStaticRoot fs cwd rootDirectory value fallback = .ok origin.originUrl →
      AcceptedIndexFile origin.staticIndexFile → ∀ pathname, Jailed fs origin pathname := by
  intro hall
  have hroot : normalizeStaticRoot twoFiles ['/'] ['/'] (some ['/']) none = .ok ['/'] := rfl
  have hjailed := hall twoFiles ['/'] ['/'] (some ['/']) none
    ⟨['/'], some "index.html".toList, false⟩ hroot .default "/b".toList
  have hnames : ∀ name ∈ [] ++ ["b".toList], IsName name :=
    fun name hname => by
      obtain rfl := List.mem_singleton.mp hname
      decide
  have hserved := hjailed.served ["b".toList] "/b".toList
    ⟨⟨by decide, [], hnames, rfl, rfl⟩, by decide, by decide⟩ "GET".toList (.inl rfl)
  have hrefused : serveStaticOrigin twoFiles ⟨['/'], some "index.html".toList, false⟩
      "GET".toList "/b".toList = .notFound := by
    decide +kernel
  rw [hrefused] at hserved
  cases hserved

end BurrowGate.StaticFiles
