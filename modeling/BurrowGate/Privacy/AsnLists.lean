import BurrowGate.Js.Value
import BurrowGate.Lib.OrderedMap
import Mathlib.Data.List.Basic

/-!
# `network-privacy-service.ts`: the ASN lists

The manifest and the category lists are fetched from a CDN and cached on disk. Refreshes
of one process do not overlap; a step is what happens between two awaits, and `restart`
may come at any of them. The CDN publishes what it likes at any time. A disk write is
atomic and does not fail; the failures are those of the network and of the process.
-/

namespace BurrowGate.Privacy

open Js Lib

abbrev CategoryId : Type := List Char

/-- `Set<number>` in insertion order. -/
abbrev AsnSet : Type := List Int

/-! ## Parsing a category list -/

/-- `body.split(/\r?\n/u)` -/
def splitLines : List Char → List (List Char)
  | [] => [[]]
  | '\r' :: '\n' :: cs => [] :: splitLines cs
  | '\n' :: cs => [] :: splitLines cs
  | c :: cs =>
      match splitLines cs with
      | [] => [[c]]
      | line :: lines => (c :: line) :: lines

/-- What `.` does not match. -/
def isLineTerminator (c : Char) : Bool :=
  c = '\n' || c = '\r' || c = '\u2028' || c = '\u2029'

/-- `/^(\d+)\s+\S.*$/u` on a trimmed line, and the number when it is a positive safe integer. -/
def asnOfLine (line : List Char) : Option Int :=
  let digits := line.takeWhile isDigit
  let rest := line.dropWhile isDigit
  match digits, rest.takeWhile isWhiteSpace, rest.dropWhile isWhiteSpace with
  | _ :: _, _ :: _, _ :: tail =>
      if tail.any isLineTerminator then none
      else (safeInteger (toNumber digits)).filter (0 < ·)
  | _, _, _ => none

/-- `result.add(asn)` -/
def AsnSet.add (asns : AsnSet) (asn : Int) : AsnSet :=
  if asns.contains asn then asns else asns ++ [asn]

def parseAsnList (body : List Char) : AsnSet :=
  (splitLines body).foldl
    (fun result line => ((asnOfLine (trim line)).map result.add).getD result) []

example : parseAsnList "64500 Example\r\n 64501\tOther \n64500 Again\n0 Zero\nx\n7\n".toList =
    [64500, 64501] := by decide +kernel

/-! ## Parsing the manifest -/

def isSlugCharacter (c : Char) : Bool := ('a' ≤ c && c ≤ 'z') || isDigit c

/-- `/^[a-z0-9]+(?:-[a-z0-9]+)*$/u` -/
def isCategoryId (text : List Char) : Bool :=
  (text.splitOn '-').all fun part => !part.isEmpty && part.all isSlugCharacter

/-- `/^[a-z0-9]+(?:-[a-z0-9]+)*\.txt$/u` -/
def isCategoryFile (text : List Char) : Bool :=
  let stem := text.take (text.length - 4)
  text = stem ++ ".txt".toList && isCategoryId stem

/-- What `parseAsnListManifest` keeps of an entry. -/
structure AsnListManifestCategory where
  id : CategoryId
  label : List Char
  description : List Char
  file : List Char
  id_ok : isCategoryId id = true
  file_ok : isCategoryFile file = true
  label_ok : label ≠ []

structure AsnListManifest where
  generatedAt : Option (List Char)
  categories : List AsnListManifestCategory
  nonempty : categories ≠ []

def AsnListManifest.ids (m : AsnListManifest) : List CategoryId := m.categories.map (·.id)

/-- `typeof label === "string" && label ? label : id` -/
def labelOr (label : JsValue) (id : CategoryId) : List Char :=
  match label.string? with
  | none | some [] => id
  | some (c :: cs) => c :: cs

theorem isCategoryId_ne_nil {id : CategoryId} (h : isCategoryId id = true) : id ≠ [] := by
  rintro rfl
  exact absurd h (by decide)

theorem labelOr_ne_nil (label : JsValue) {id : CategoryId} (h : isCategoryId id = true) :
    labelOr label id ≠ [] := by
  rw [labelOr]
  split
  · exact isCategoryId_ne_nil h
  · exact isCategoryId_ne_nil h
  · exact List.cons_ne_nil _ _

def parseCategory (entry : JsValue) : Option AsnListManifestCategory :=
  match (entry.entries.get "id".toList).string?, (entry.entries.get "file".toList).string? with
  | some id, some file =>
      if hid : isCategoryId id = true then
        if hfile : isCategoryFile file = true then
          let label := entry.entries.get "label".toList
          let description := ((entry.entries.get "description".toList).string?).getD []
          some ⟨id, labelOr label id, description, file, hid, hfile, labelOr_ne_nil label hid⟩
        else none
      else none
  | _, _ => none

/-- `none` where the source throws. -/
def parseAsnListManifest (body : JsValue) : Option AsnListManifest :=
  match body.entries.get "categories".toList with
  | .array items =>
      let categories := items.filterMap parseCategory
      if h : categories ≠ [] then
        some ⟨(body.entries.get "generatedAt".toList).string?, categories, h⟩
      else none
  | _ => none

/-- The value that `JSON.stringify` is given, as `JSON.parse` reads it back. -/
def AsnListManifestCategory.json (c : AsnListManifestCategory) : JsValue :=
  .object [("id".toList, .string c.id), ("label".toList, .string c.label),
    ("description".toList, .string c.description), ("file".toList, .string c.file)]

def AsnListManifest.json (m : AsnListManifest) : JsValue :=
  .object [("generatedAt".toList, m.generatedAt.elim .null .string),
    ("categories".toList, .array (m.categories.map AsnListManifestCategory.json))]

theorem parseCategory_json (c : AsnListManifestCategory) : parseCategory c.json = some c := by
  obtain ⟨id, label, description, file, hid, hfile, hlabel⟩ := c
  obtain ⟨x, xs, rfl⟩ := List.exists_cons_of_ne_nil hlabel
  change (if h : isCategoryId id = true then
    if h' : isCategoryFile file = true then some _ else none else none) = _
  rw [dif_pos hid, dif_pos hfile]
  rfl

/-- What a refresh writes is read back unchanged. -/
theorem parseAsnListManifest_json (m : AsnListManifest) : parseAsnListManifest m.json = some m := by
  obtain ⟨stamp, categories, hne⟩ := m
  have hcategories : (categories.map AsnListManifestCategory.json).filterMap parseCategory =
      categories := by
    rw [List.filterMap_map]
    have hid : parseCategory ∘ AsnListManifestCategory.json = some := funext parseCategory_json
    rw [hid, List.filterMap_some]
  change (if h : (categories.map AsnListManifestCategory.json).filterMap parseCategory ≠ [] then
    some (AsnListManifest.mk (JsValue.string? (stamp.elim .null .string)) _ h) else none) = _
  rw [dif_pos (by rw [hcategories]; exact hne)]
  congr 2
  cases stamp <;> rfl

def mergeAsnListCategories (remote cached : List AsnListManifestCategory) :
    List AsnListManifestCategory :=
  remote ++ cached.filter fun c => !(remote.map (·.id)).contains c.id

/-! ## The state -/

/-- What the CDN serves: the manifest, none when its text is not JSON, and the list files. -/
structure Publication where
  manifest : Option JsValue
  files : List Char → Option (List Char)

/-- The lists published with a manifest. -/
def Publication.lists (p : Publication) (m : AsnListManifest) :
    List (CategoryId × Option (List Char)) :=
  m.categories.map fun c => (c.id, p.files c.file)

/-- A category in `Promise.all`: in `fetchText`, in `atomicWrite`, or with its result, which
is the previous list when the request failed. -/
inductive CategoryResult
  | fetching
  | storing (body : List Char)
  | settled (failed : Bool) (asns : AsnSet)

/-- Where `refreshAsnLists` is suspended. `lists` is what was published with `remote`. -/
inductive RefreshStage
  | idle
  | fetchingManifest
  | writingManifest (remote : AsnListManifest) (lists : List (CategoryId × Option (List Char)))
  | downloading (remote : AsnListManifest) (localOnly keep : List CategoryId)
      (results : List (CategoryId × CategoryResult))
  | pruning (keep : List CategoryId) (stale : List CategoryId) (failed : Bool)

/-- The cached manifest with its `mtimeMs`, and the `asn-<id>.txt` files. `lists`, `fetched` and
`refreshed` are not read by any step: the lists published with the cached manifest, the
categories whose list was downloaded since that manifest was written, and the refreshes
that ended without a failed request, each with its lists and with `asnData`. -/
structure PrivacyState where
  clock : Int
  published : Publication
  manifestFile : Option (JsValue × Int)
  asnFiles : OrderedMap CategoryId (List Char)
  asnData : OrderedMap CategoryId AsnSet
  stage : RefreshStage
  lists : List (CategoryId × Option (List Char))
  fetched : List CategoryId
  refreshed : List (List (CategoryId × Option (List Char)) × OrderedMap CategoryId AsnSet)

def PrivacyState.Initial (s : PrivacyState) : Prop :=
  s.stage = .idle ∧ s.lists = [] ∧ s.fetched = [] ∧ s.refreshed = []

inductive PrivacyAction
  | clock (now : Int)
  | publish (p : Publication)
  | refresh
  | manifestFails
  | manifestFetched
  | manifestWritten
  | categoryFetched (i : Nat)
  | categoryFails (i : Nat)
  | categoryWritten (i : Nat)
  | finish
  | prune
  | restart

/-! ## The steps -/

def refreshInterval : Int := 24 * 60 * 60 * 1000

/-- `asnData.get(id) ?? new Set()` -/
def held (data : OrderedMap CategoryId AsnSet) (id : CategoryId) : AsnSet := (data.get? id).getD []

def loadAsnCategoryFromDisk (files : OrderedMap CategoryId (List Char)) (id : CategoryId) :
    Option AsnSet :=
  ((files.get? id).map parseAsnList).filter fun asns => !asns.isEmpty

def readCachedManifest (s : PrivacyState) : Option AsnListManifest :=
  s.manifestFile.bind fun file => parseAsnListManifest file.1

/-- `asnData` of a new process after `loadCachedLists`. -/
def loadCachedLists (s : PrivacyState) : OrderedMap CategoryId AsnSet :=
  match readCachedManifest s with
  | none => .empty
  | some m =>
      OrderedMap.empty.setAll (m.ids.filterMap fun id =>
        (loadAsnCategoryFromDisk s.asnFiles id).map (Prod.mk id))

/-- The cache is less than a day old and some list is held: `refreshAsnLists` returns at once. -/
def cacheIsFresh (s : PrivacyState) : Bool :=
  s.manifestFile.any fun file => s.clock - file.2 < refreshInterval && s.asnData.size ≠ 0

/-- `remote.generatedAt !== null && remote.generatedAt === cached?.generatedAt` -/
def unchanged (s : PrivacyState) (remote : AsnListManifest) : Bool :=
  remote.generatedAt.any fun stamp =>
    (readCachedManifest s).any fun cached => cached.generatedAt = some stamp

theorem merge_ne_nil (remote : AsnListManifest) (cached : List AsnListManifestCategory) :
    mergeAsnListCategories remote.categories cached ≠ [] := fun h =>
  remote.nonempty (List.append_eq_nil_iff.mp h).1

def manifestWritten (s : PrivacyState) (remote : AsnListManifest)
    (lists : List (CategoryId × Option (List Char))) : PrivacyState :=
  let cached := ((readCachedManifest s).map (·.categories)).getD []
  let merged : AsnListManifest :=
    ⟨remote.generatedAt, mergeAsnListCategories remote.categories cached, merge_ne_nil remote cached⟩
  let localOnly := merged.ids.filter fun id => !remote.ids.contains id
  let same := unchanged s remote
  { s with
    manifestFile := some (merged.json, s.clock)
    lists := lists
    fetched := if same then s.fetched else []
    stage := .downloading remote localOnly merged.ids (remote.ids.map fun id =>
      (id, if same then .settled false (held s.asnData id) else .fetching)) }

def settledEntry (entry : CategoryId × CategoryResult) : Option (Bool × CategoryId × AsnSet) :=
  match entry.2 with
  | .settled failed asns => some (failed, entry.1, asns)
  | .fetching | .storing _ => none

/-- `localResults` -/
def localResults (s : PrivacyState) (localOnly : List CategoryId) : List (CategoryId × AsnSet) :=
  localOnly.map fun id => (id, (loadAsnCategoryFromDisk s.asnFiles id).getD (held s.asnData id))

/-- One category goes on; the file of `categoryFetched` is the one the CDN serves now. -/
def categoryStep (s : PrivacyState) (remote : AsnListManifest) (localOnly keep : List CategoryId)
    (results : List (CategoryId × CategoryResult)) (i : Nat) :
    PrivacyAction → CategoryId × CategoryResult → Option PrivacyState
  | .categoryFetched _, (id, .fetching) =>
      (remote.categories[i]?.bind fun c => s.published.files c.file).map fun body =>
        { s with stage := .downloading remote localOnly keep (results.set i (id, .storing body)) }
  | .categoryFails _, (id, .fetching) =>
      some { s with
        stage := .downloading remote localOnly keep
          (results.set i (id, .settled true (held s.asnData id))) }
  | .categoryWritten _, (id, .storing body) =>
      some { s with
        asnFiles := s.asnFiles.set id body
        fetched := id :: s.fetched
        stage := .downloading remote localOnly keep
          (results.set i (id, .settled false (parseAsnList body))) }
  | _, _ => none

def refreshStep (s : PrivacyState) : PrivacyAction → RefreshStage → Option PrivacyState
  | .manifestFails, .fetchingManifest => some { s with stage := .idle }
  | .manifestFetched, .fetchingManifest =>
      match s.published.manifest.bind parseAsnListManifest with
      | some remote =>
          some { s with stage := .writingManifest remote (s.published.lists remote) }
      | none => some { s with stage := .idle }
  | .manifestWritten, .writingManifest remote lists => some (manifestWritten s remote lists)
  | .categoryFetched i, .downloading remote localOnly keep results =>
      results[i]?.bind (categoryStep s remote localOnly keep results i (.categoryFetched i))
  | .categoryFails i, .downloading remote localOnly keep results =>
      results[i]?.bind (categoryStep s remote localOnly keep results i (.categoryFails i))
  | .categoryWritten i, .downloading remote localOnly keep results =>
      results[i]?.bind (categoryStep s remote localOnly keep results i (.categoryWritten i))
  | .finish, .downloading _ localOnly keep results =>
      if results.all fun entry => (settledEntry entry).isSome then
        let settled := results.filterMap settledEntry
        some { s with
          asnData := OrderedMap.empty.setAll (settled.map Prod.snd ++ localResults s localOnly)
          stage := .pruning keep (s.asnFiles.keys.filter fun id => !keep.contains id)
            (settled.any Prod.fst) }
      else none
  | .prune, .pruning keep (id :: stale) failed =>
      some { s with asnFiles := s.asnFiles.erase id, stage := .pruning keep stale failed }
  | .prune, .pruning _ [] failed =>
      some { s with
        stage := .idle
        refreshed := if failed then s.refreshed else (s.lists, s.asnData) :: s.refreshed }
  | _, _ => none

def privacyStep (s : PrivacyState) (a : PrivacyAction) : Option PrivacyState :=
  match a with
  | .clock now => some { s with clock := now }
  | .publish p => some { s with published := p }
  | .refresh =>
      match s.stage with
      | .idle =>
          if cacheIsFresh s then some { s with refreshed := (s.lists, s.asnData) :: s.refreshed }
          else some { s with stage := .fetchingManifest }
      | _ => none
  | .restart => some { s with stage := .idle, asnData := loadCachedLists s }
  | .manifestFails | .manifestFetched | .manifestWritten | .categoryFetched _ | .categoryFails _
  | .categoryWritten _ | .finish | .prune => refreshStep s a s.stage

end BurrowGate.Privacy
