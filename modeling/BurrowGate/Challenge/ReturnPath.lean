import BurrowGate.Challenge.Completion
import BurrowGate.Js.UrlReference

/-!
# `http.ts`: `safeReturnPath`

The path that a challenge flow and a sign-in redirect to, resolved against the URL of the site.
-/

namespace BurrowGate.Challenge

open Js Lib.Run Lib.Calls

variable {config : ChallengeConfig} {s t : ChallengeSystem}

def safeReturnPath (value : Option Text) : Text :=
  match value with
  | none => "/".toList
  | some value =>
      if value = [] ∨ ¬"/".toList <+: value ∨ "//".toList <+: value then "/".toList else value

/-- What `createFlow` reads of a site. -/
structure SiteRecord where
  id : Text
  challengePolicy : List ChallengePolicyStep

def createFlow (id : Text) (site : SiteRecord) (returnPath ip uaHash : Text)
    (policy : Option (List ChallengePolicyStep)) (now challengeTtlSeconds : Nat) :
    ChallengeFlowRecord where
  id := id
  siteId := site.id
  returnPath := safeReturnPath (some returnPath)
  clientIp := ip
  userAgentHash := uaHash
  currentStep := 0
  policy := policy.getD site.challengePolicy
  status := .pending
  expiresAt := now + challengeTtlSeconds * 1000
  completedAt := none

/-- The redirect of the answer `{ done: true, redirect, cookie }` that a call ends with once its
session is created. -/
def ChallengeCall.redirect : ChallengeCall → Option Text
  | .createAccessSession read => some read.returnPath
  | _ => none

/-! ## The path of a flow -/

/-- The flow as a call has read it. -/
def ChallengeCall.readFlow : ChallengeCall → Option ChallengeFlowRecord
  | .site read | .step read _ | .create read _ _ | .insertStep read _ _ | .evaluate read _
  | .consumeStep read _ _ | .completeStep read _ _ | .updateFlowStep read | .completeFlow read
  | .createAccessSession read => some read
  | .flow _ | .failStepAttempt _ | .done => none

/-- The call has read no flow, or one that returns to `path`. -/
def ChallengeCall.returnsTo (path : Text) (call : ChallengeCall) : Prop :=
  ∀ flow, call.readFlow = some flow → flow.returnPath = path

structure ReturnsTo (path : Text) (s : ChallengeSystem) : Prop where
  row : s.store.flow.returnPath = path
  calls : ∀ call ∈ s.calls, call.returnsTo path

theorem returnsTo_flow {path : Text} {flow : ChallengeFlowRecord} {call : ChallengeCall}
    (hread : call.readFlow = some flow ∨ call.readFlow = none) (hflow : flow.returnPath = path) :
    call.returnsTo path := by
  intro other hother
  rcases hread with hread | hread
  · rw [hread] at hother
    obtain rfl := Option.some.inj hother
    exact hflow
  · rw [hread] at hother
    cases hother

theorem withStep_returnsTo {path : Text} {flow : ChallengeFlowRecord} {row : ChallengeStepRecord}
    {caller : CurrentStepCaller} (hflow : flow.returnPath = path) :
    (withStep config flow row caller).returnsTo path := by
  have hread : (withStep config flow row caller).readFlow = some flow ∨
      (withStep config flow row caller).readFlow = none := by
    cases caller with
    | page => exact .inr rfl
    | next => exact .inr rfl
    | verify =>
        rw [withStep]
        split
        · exact .inr rfl
        · exact .inl rfl
  exact returnsTo_flow hread hflow

theorem completed_returnPath (now : Nat) (flow : ChallengeFlowRecord) :
    (flow.completed now).returnPath = flow.returnPath := by
  rw [ChallengeFlowRecord.completed]
  split <;> rfl

/-- A call reads the path with the flow, and no write changes it. -/
theorem challengeCall_returnsTo {path : Text} {store after : ChallengeStore}
    {c n : ChallengeCall} {e : ChallengeEvent} (hrow : store.flow.returnPath = path)
    (hc : c.returnsTo path) (h : challengeCall config store c e = some (after, n)) :
    after.flow.returnPath = path ∧ n.returnsTo path := by
  have hdone : ChallengeCall.done.returnsTo path := returnsTo_flow (.inr rfl) hrow
  cases e with
  | throws =>
      rw [challengeCall] at h
      split at h
      · cases h
      · cases h
        exact ⟨hrow, hdone⟩
  | verified success =>
      cases c with
      | evaluate flow step =>
          have hflow := hc flow rfl
          cases success with
          | true => cases h; exact ⟨hrow, returnsTo_flow (.inl rfl) hflow⟩
          | false => cases h; exact ⟨hrow, returnsTo_flow (.inr rfl) hflow⟩
      | _ => cases h
  | resolves =>
      rw [challengeCall] at h
      cases c with
      | flow caller =>
          simp only [resolveCall] at h
          split at h
          · cases h; exact ⟨hrow, hdone⟩
          · cases h
            refine ⟨hrow, ?_⟩
            split
            · exact returnsTo_flow (.inl rfl) hrow
            · exact returnsTo_flow (.inl rfl) hrow
      | site flow => cases h; exact ⟨hrow, returnsTo_flow (.inl rfl) (hc flow rfl)⟩
      | step flow caller =>
          have hflow := hc flow rfl
          simp only [resolveCall] at h
          cases h
          refine ⟨hrow, ?_⟩
          split
          · exact withStep_returnsTo hflow
          · cases flow.policy[flow.currentStep]? with
            | none => exact hdone
            | some spec => exact returnsTo_flow (.inl rfl) hflow
      | create flow spec caller =>
          cases h; exact ⟨hrow, returnsTo_flow (.inl rfl) (hc flow rfl)⟩
      | insertStep flow step caller =>
          simp only [resolveCall] at h
          split at h
          · cases h; exact ⟨hrow, hdone⟩
          · cases h; exact ⟨hrow, withStep_returnsTo (hc flow rfl)⟩
      | evaluate flow step => cases h
      | failStepAttempt step => cases h; exact ⟨hrow, hdone⟩
      | consumeStep flow step consumedAt =>
          simp only [resolveCall] at h
          split at h
          · cases h; exact ⟨hrow, hdone⟩
          · cases h; exact ⟨hrow, returnsTo_flow (.inl rfl) (hc flow rfl)⟩
      | completeStep flow step consumedAt =>
          cases h
          refine ⟨hrow, ?_⟩
          split
          · exact returnsTo_flow (.inl rfl) (hc flow rfl)
          · exact returnsTo_flow (.inl rfl) (hc flow rfl)
      | updateFlowStep flow =>
          cases h
          have hflow := hc flow rfl
          exact ⟨hrow, returnsTo_flow (.inl rfl) hflow⟩
      | completeFlow flow =>
          cases h
          exact ⟨(completed_returnPath ..).trans hrow, returnsTo_flow (.inl rfl) (hc flow rfl)⟩
      | createAccessSession flow => cases h; exact ⟨hrow, hdone⟩
      | done => cases h

theorem ReturnsTo.step {path : Text} {a : ChallengeAction} (h : ReturnsTo path s)
    (hstep : challengeStep config s a = some t) : ReturnsTo path t := by
  cases a with
  | start c =>
      simp only [challengeStep, Lib.Calls.step] at hstep
      split at hstep
      · cases hstep
        refine ⟨h.row, fun call hcall => ?_⟩
        rcases List.mem_snoc.mp hcall with hold | rfl
        · exact h.calls call hold
        · apply returnsTo_flow (.inr _) h.row
          rcases Bool.or_eq_true_iff.mp ‹startsFlow call = true› with hpage | hverify
          · rw [of_decide_eq_true hpage]; rfl
          · rw [of_decide_eq_true hverify]; rfl
      · cases hstep
  | call i e =>
      obtain ⟨c, hc, hrest⟩ := Option.bind_eq_some_iff.mp hstep
      obtain ⟨⟨after, n⟩, hcall, heq⟩ := Option.map_eq_some_iff.mp hrest
      cases heq
      obtain ⟨hrow, hn⟩ := challengeCall_returnsTo h.row
        (h.calls c (List.mem_of_getElem? hc)) hcall
      refine ⟨hrow, fun call hmem => ?_⟩
      rcases List.mem_or_eq_of_mem_set hmem with hold | rfl
      · exact h.calls call hold
      · exact hn
  | world ms => cases hstep; exact ⟨h.row, h.calls⟩

/-- Every redirect of a flow is to the path it was created with. -/
theorem redirect_of_reach {start : ChallengeSystem} (hstart : StartsFlow start)
    (h : Reach (challengeStep config) Any (· = start) t) {call : ChallengeCall}
    (hcall : call ∈ t.calls) {path : Text} (hredirect : call.redirect = some path) :
    path = start.store.flow.returnPath := by
  have hreturns : ReturnsTo start.store.flow.returnPath t := by
    apply h.invariant
    · intro s hs
      rw [hs]
      refine ⟨rfl, fun call hcall => ?_⟩
      rw [hstart.idle] at hcall
      cases hcall
    · intro s a s' _ hs _ hstep
      exact hs.step hstep
  cases call with
  | createAccessSession flow =>
      cases hredirect
      exact hreturns.calls _ hcall flow rfl
  | _ => cases hredirect

/-! ## The site's origin -/

/-- A sign-in and every challenge flow that was given the path redirect to the site, whichever
site it is. -/
structure StaysOnSite {H : Type} (host : List Char → Option H) (value : Text) : Prop where
  signIn : ∀ site : Origin H, resolveOrigin host site (safeReturnPath (some value)) = some site
  flow : ∀ (site : Origin H) (config : ChallengeConfig) (start t : ChallengeSystem)
    (id : Text) (record : SiteRecord) (ip uaHash : Text)
    (policy : Option (List ChallengePolicyStep)) (now challengeTtlSeconds : Nat),
    StartsFlow start →
    start.store.flow =
      createFlow id record value ip uaHash policy now challengeTtlSeconds →
    Reach (challengeStep config) Any (· = start) t →
    ∀ call ∈ t.calls, ∀ path, call.redirect = some path →
      resolveOrigin host site path = some site

/-- A slash that no slash follows directly, but a slash or a backslash does once tabs and
newlines are removed. -/
def leavesSite : Text → Bool
  | '/' :: rest => rest.head? ≠ some '/' && startsWithSlash (rest.filter (!isTabOrNewline ·))
  | _ => false

theorem leavesSite_cases {value : Text} (h : leavesSite value = true) :
    ∃ rest, value = '/' :: rest ∧ safeReturnPath (some value) = '/' :: rest ∧
      startsWithSlash (rest.filter (!isTabOrNewline ·)) = true := by
  unfold leavesSite at h
  split at h
  · rename_i rest
    obtain ⟨hhead, hslash⟩ := Bool.and_eq_true_iff.mp h
    refine ⟨rest, rfl, ?_, hslash⟩
    have hkept : ¬('/' :: rest = [] ∨ ¬"/".toList <+: '/' :: rest ∨
        "//".toList <+: '/' :: rest) := by
      rintro (hempty | hslash | ⟨tail, htail⟩)
      · cases hempty
      · exact hslash ⟨rest, rfl⟩
      · obtain rfl : '/' :: tail = rest := List.cons.inj htail |>.2
        exact absurd rfl (of_decide_eq_true hhead)
    rw [safeReturnPath, if_neg hkept]
  · cases h

/-- Otherwise only one slash begins the path. -/
theorem safeReturnPath_of_not_leavesSite {value : Text} (h : leavesSite value = false) :
    ∃ rest, safeReturnPath (some value) = '/' :: rest ∧
      startsWithSlash (rest.filter (!isTabOrNewline ·)) = false := by
  by_cases hroot : value = [] ∨ ¬"/".toList <+: value ∨ "//".toList <+: value
  · exact ⟨[], by rw [safeReturnPath, if_pos hroot]; rfl, rfl⟩
  · rw [safeReturnPath, if_neg hroot]
    have hslash : "/".toList <+: value := by
      by_contra hnot
      exact hroot (.inr (.inl hnot))
    obtain ⟨rest, rfl⟩ := hslash
    refine ⟨rest, rfl, ?_⟩
    have hhead : rest.head? ≠ some '/' := by
      intro hhead
      obtain ⟨tail, rfl⟩ : ∃ tail, rest = '/' :: tail := by
        cases rest with
        | nil => cases hhead
        | cons c tail => cases hhead; exact ⟨tail, rfl⟩
      exact hroot (.inr (.inr ⟨tail, rfl⟩))
    have hcases : (decide (rest.head? ≠ some '/') &&
        startsWithSlash (rest.filter (!isTabOrNewline ·))) = false := h
    rw [decide_eq_true hhead, Bool.true_and] at hcases
    exact hcases

/-- A path that does not leave the site resolves to the site's origin. -/
theorem resolveOrigin_safeReturnPath {H : Type} {host : List Char → Option H} {value : Text}
    (h : leavesSite value = false) (site : Origin H) :
    resolveOrigin host site (safeReturnPath (some value)) = some site := by
  obtain ⟨rest, hpath, hslash⟩ := safeReturnPath_of_not_leavesSite h
  rw [hpath, resolveOrigin_slash, hslash, if_neg Bool.false_ne_true]

/-- The redirects stay on every site exactly when the path does not leave it. -/
theorem return_path_stays {H : Type} [Inhabited H] (host : List Char → Option H)
    (value : Text) : StaysOnSite host value ↔ leavesSite value = false := by
  constructor
  · intro h
    by_contra hleaves
    obtain ⟨rest, -, hpath, hslash⟩ := leavesSite_cases (eq_true_of_ne_false hleaves)
    have hgiven : ∀ site : Origin H,
        authority host site.scheme (afterSlashes rest) = some site := by
      intro site
      have hsite := h.signIn site
      rw [hpath, resolveOrigin_slash, if_pos hslash] at hsite
      exact hsite
    -- The text decides the port, so it cannot be that of two sites.
    have hfirst := hgiven ⟨.http, default, none⟩
    have hsecond := hgiven ⟨.http, default, some 8080⟩
    exact absurd (hfirst.symm.trans hsecond) (by simp)
  · intro h
    refine ⟨fun site => resolveOrigin_safeReturnPath h site, ?_⟩
    intro site config start t id record ip uaHash policy now ttl hstart hflow hreach call hcall
      path hredirect
    have hpath := redirect_of_reach hstart hreach hcall hredirect
    rw [hpath, hflow]
    exact resolveOrigin_safeReturnPath h site

/-- A backslash after the slash: the browser goes to the host behind it. -/
theorem backslash_leaves_site :
    ¬ ∀ value : Text, StaysOnSite (some : List Char → Option (List Char)) value := by
  intro h
  have hsite := (h "/\\evil.example".toList).signIn ⟨.https, "shop.example".toList, none⟩
  have hevil : resolveOrigin (some : List Char → Option (List Char))
      ⟨.https, "shop.example".toList, none⟩
      (safeReturnPath (some "/\\evil.example".toList)) =
        some ⟨.https, "evil.example".toList, none⟩ := by decide +kernel
  exact absurd (hevil.symm.trans hsite) (by decide)

end BurrowGate.Challenge
