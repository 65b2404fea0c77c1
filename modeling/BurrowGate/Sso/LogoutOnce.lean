import BurrowGate.Sso.BackchannelLogout

/-!
# Logout tokens are used once

The memory of a used identifier lasts as long after its use as a token is fresh after its
issue. That covers a token issued before it is delivered, and no other.
-/

namespace BurrowGate.Sso

open Lib.Run

variable {jwt : JwtVerifier} {users : List AccessUser} {s s' : LogoutState} {a : DeliverLogout}

/-! ## One delivery -/

theorem checkLogoutClaims_eq_ok {claims : LogoutClaims} {now : ℚ} {jti : Text}
    (h : checkLogoutClaims claims now = .ok jti) :
    claims.IsFresh now ∧ jti = claims.jti.getD [] := by
  rw [checkLogoutClaims] at h
  split at h
  · cases h
  split at h
  · cases h
  split at h
  · cases h
  split at h
  · cases h
  split at h
  · cases h
  · rename_i hfresh
    exact ⟨not_not.mp hfresh, (Except.ok.inj h).symm⟩

theorem mem_sweep {used : UsedLogoutTokenIds} {now : ℚ} {entry : Text × ℚ} (hmem : entry ∈ used)
    (hlive : now < entry.2) : entry ∈ sweepUsedLogoutTokenIds used now :=
  List.mem_filter.mpr ⟨hmem, decide_eq_true hlive⟩

/-- Everything `handleAccessBackchannelLogout` can do. -/
inductive Handles (jwt : JwtVerifier) (users : List AccessUser) (s : LogoutState)
    (a : DeliverLogout) : LogoutState → Prop
  | rejected (used : UsedLogoutTokenIds) :
      (∀ entry ∈ s.used, a.now < entry.2 → entry ∈ used) →
      Handles jwt users s a (s.record a used s.sessions .rejected)
  | verified (jti : Text) (sessions : List AccessSession) (outcome : LogoutOutcome) :
      checkLogoutClaims (jwt.claims a.logoutToken) a.now = .ok jti →
      (sweepUsedLogoutTokenIds s.used a.now).any (·.1 = jti) = false →
      ((outcome = .failed ∧ revokeNamed users a.siteId (jwt.claims a.logoutToken).identity a.now
          a.failures s.sessions = none) ∨
        (outcome = .handled ∧ revokeNamed users a.siteId (jwt.claims a.logoutToken).identity a.now
          a.failures s.sessions = some sessions)) →
      Handles jwt users s a (s.record a (sweepUsedLogoutTokenIds s.used a.now ++
        [(jti, a.now + LOGOUT_TOKEN_FRESHNESS_MS)]) sessions outcome)

theorem handle_handles (jwt : JwtVerifier) (users : List AccessUser) (s : LogoutState)
    (a : DeliverLogout) : Handles jwt users s a (handleAccessBackchannelLogout jwt users s a) := by
  rw [handleAccessBackchannelLogout]
  split
  · rw [verifyBackchannelLogoutToken]
    cases hcheck : checkLogoutClaims (jwt.claims a.logoutToken) a.now with
    | error message => exact .rejected _ fun _ hmem _ => hmem
    | ok jti =>
        cases hused : (sweepUsedLogoutTokenIds s.used a.now).any (·.1 = jti) with
        | true =>
            simp only [hused, if_true]
            exact .rejected _ fun _ hmem hlive => mem_sweep hmem hlive
        | false =>
            simp only [hused, Bool.false_eq_true, if_false]
            cases hrevoke : revokeNamed users a.siteId (jwt.claims a.logoutToken).identity a.now
              a.failures s.sessions with
            | none => exact .verified jti _ .failed hcheck hused (.inl ⟨rfl, hrevoke⟩)
            | some sessions => exact .verified jti _ .handled hcheck hused (.inr ⟨rfl, hrevoke⟩)
  · exact .rejected _ fun _ hmem _ => hmem

/-! ## Revocation -/

theorem revokeWhere_revokes {p : AccessSession → Bool} {now : ℚ} {sessions : List AccessSession}
    {session : AccessSession} (hmem : session ∈ revokeWhere p now sessions)
    (h : p session = true) : session.revokedAt.isSome := by
  obtain ⟨before, -, rfl⟩ := List.mem_map.mp hmem
  by_cases hbefore : p before = true
  · rw [if_pos hbefore, AccessSession.revoke]
    cases before.revokedAt <;> rfl
  · rw [if_neg hbefore] at h
    exact absurd h hbefore

theorem revokeWhere_keeps {p : AccessSession → Bool} {now : ℚ} {sessions : List AccessSession}
    {q : AccessSession → Prop} (hq : ∀ session, q (session.revoke now) ↔ q session)
    (h : ∀ session ∈ sessions, q session → session.revokedAt.isSome) :
    ∀ session ∈ revokeWhere p now sessions, q session → session.revokedAt.isSome := by
  intro session hmem hsession
  obtain ⟨before, hbefore, rfl⟩ := List.mem_map.mp hmem
  split at hsession
  · rename_i hp
    rw [if_pos hp]
    have hold := h before hbefore ((hq before).mp hsession)
    rw [AccessSession.revoke]
    cases hrevoked : before.revokedAt with
    | none =>
        rw [hrevoked] at hold
        cases hold
    | some time => rfl
  · rename_i hp
    rw [if_neg hp]
    exact h before hbefore hsession

/-- When the calls succeed, every session the token names is revoked. -/
theorem revokeNamed_revokes {siteId : Text} {identity : BackchannelLogoutIdentity} {now : ℚ}
    {failures : DatabaseFailures} {sessions sessions' : List AccessSession}
    (hnames : truthy identity.sid = true ∨ truthy identity.subject = true)
    (h : revokeNamed users siteId identity now failures sessions = some sessions') :
    ∀ session ∈ sessions', Names users siteId identity session → session.revokedAt.isSome := by
  obtain ⟨⟨swept, revoked⟩, hsid, hrest⟩ := Option.bind_eq_some_iff.mp h
  intro session hmem hname
  by_cases htruthy : truthy identity.sid = true
  · rw [if_pos htruthy] at hsid
    rw [Names, if_pos htruthy] at hname
    have hswept : ∀ session ∈ swept, hasSid siteId (identity.sid.getD []) session = true →
        session.revokedAt.isSome := by
      split at hsid
      · cases hsid
      · obtain ⟨rfl, rfl⟩ := Prod.mk.inj (Option.some.inj hsid)
        exact fun session hmem hhas => revokeWhere_revokes hmem hhas
    dsimp only at hrest
    split at hrest
    · split at hrest
      · cases hrest
      split at hrest
      · obtain rfl := Option.some.inj hrest
        exact hswept session hmem hname
      · split at hrest
        · cases hrest
        · obtain rfl := Option.some.inj hrest
          exact revokeWhere_keeps (q := fun session => hasSid siteId _ session = true)
            (fun _ => Iff.rfl) hswept session hmem hname
    · obtain rfl := Option.some.inj hrest
      exact hswept session hmem hname
  · rw [if_neg htruthy] at hsid
    rw [Names, if_neg htruthy] at hname
    obtain ⟨user, huser, hof⟩ := hname
    obtain ⟨rfl, rfl⟩ := Prod.mk.inj (Option.some.inj hsid)
    have hsubject : truthy identity.subject = true := hnames.resolve_left htruthy
    dsimp only at hrest
    rw [hsubject, Bool.and_true, if_pos (by rfl), huser] at hrest
    split at hrest
    · cases hrest
    dsimp only at hrest
    split at hrest
    · cases hrest
    · obtain rfl := Option.some.inj hrest
      exact revokeWhere_revokes hmem hof

/-! ## The run -/

/-- An accepted token was issued before its delivery, and until its freshness has certainly
passed its identifier is remembered. -/
structure Remembered (jwt : JwtVerifier) (users : List AccessUser) (s : LogoutState) : Prop where
  accepted : ∀ d ∈ s.deliveries, d.outcome ≠ .rejected →
    (jwt.claims d.logoutToken).issuedAt < d.deliveredAt ∧
      (((jwt.claims d.logoutToken).jti.getD [], d.deliveredAt + LOGOUT_TOKEN_FRESHNESS_MS) ∈ s.used ∨
        d.deliveredAt + LOGOUT_TOKEN_FRESHNESS_MS ≤ s.now)
  neverFailed : ∀ d ∈ s.deliveries, d.outcome ≠ .failed
  once : s.deliveries.Pairwise fun d d' =>
    d.logoutToken = d'.logoutToken → d.outcome ≠ .rejected → d'.outcome = .rejected
  revoked : ∀ d ∈ s.deliveries, d.outcome = .handled → ∀ session ∈ d.sessions,
    Names users d.siteId (jwt.claims d.logoutToken).identity session → session.revokedAt.isSome

/-- A token that was accepted is no longer fresh, or its identifier is found. -/
theorem Remembered.not_accepted {jti : Text} {d : Delivery} (h : Remembered jwt users s)
    (hnow : s.now ≤ a.now) (hd : d ∈ s.deliveries) (haccepted : d.outcome ≠ .rejected)
    (htoken : d.logoutToken = a.logoutToken)
    (hcheck : checkLogoutClaims (jwt.claims a.logoutToken) a.now = .ok jti) :
    (sweepUsedLogoutTokenIds s.used a.now).any (·.1 = jti) = true := by
  obtain ⟨hissued, hremembered⟩ := h.accepted d hd haccepted
  obtain ⟨⟨-, hfresh⟩, hjti⟩ := checkLogoutClaims_eq_ok hcheck
  rw [htoken] at hissued hremembered
  have hage : a.now - (jwt.claims a.logoutToken).issuedAt ≤ LOGOUT_TOKEN_FRESHNESS_MS :=
    (le_abs_self _).trans hfresh
  have hlive : a.now < d.deliveredAt + LOGOUT_TOKEN_FRESHNESS_MS := by linarith
  rcases hremembered with hused | hpassed
  · rw [List.any_eq_true]
    exact ⟨_, mem_sweep hused hlive, decide_eq_true hjti.symm⟩
  · linarith

theorem truthy_of_check {claims : LogoutClaims} {now : ℚ} {jti : Text}
    (h : checkLogoutClaims claims now = .ok jti) :
    truthy claims.identity.sid = true ∨ truthy claims.identity.subject = true := by
  rw [checkLogoutClaims] at h
  split at h
  · cases h
  split at h
  · cases h
  split at h
  · cases h
  · rename_i hneither
    rw [Bool.and_eq_true, Bool.not_eq_true', Bool.not_eq_true', not_and_or, Bool.not_eq_false,
      Bool.not_eq_false] at hneither
    exact hneither.symm

theorem revokeNamed_isSome {siteId : Text} {identity : BackchannelLogoutIdentity} {now : ℚ}
    {failures : DatabaseFailures} {sessions : List AccessSession}
    (hsid : failures.revokeBySid = false) (hfind : failures.findUser = false)
    (huser : failures.revokeByUser = false) :
    revokeNamed users siteId identity now failures sessions ≠ none := by
  simp only [revokeNamed, hsid, hfind, huser, Bool.false_eq_true, if_false]
  split
  · simp only [Option.bind_some]
    split
    · split <;> exact Option.some_ne_none _
    · exact Option.some_ne_none _
  · simp only [Option.bind_some]
    split
    · split <;> exact Option.some_ne_none _
    · exact Option.some_ne_none _

theorem Remembered.step (h : Remembered jwt users s) (hc : IssuedBeforeDelivery jwt s a)
    (hstep : logoutStep jwt users s a = some s') : Remembered jwt users s' := by
  rw [logoutStep] at hstep
  split at hstep
  case isFalse => cases hstep
  rename_i hnow
  obtain rfl := Option.some.inj hstep
  obtain ⟨hissued, hsid, hfind, huser⟩ := hc
  have hhandles := handle_handles jwt users s a
  generalize handleAccessBackchannelLogout jwt users s a = t at hhandles
  cases hhandles with
  | rejected used hkept =>
      refine ⟨fun d hd haccepted => ?_, fun d hd => ?_, ?_, fun d hd houtcome => ?_⟩
      · rcases List.mem_snoc.mp hd with hold | rfl
        · obtain ⟨hbefore, hremembered⟩ := h.accepted d hold haccepted
          refine ⟨hbefore, ?_⟩
          rcases hremembered with hused | hpassed
          · by_cases hlive : a.now < d.deliveredAt + LOGOUT_TOKEN_FRESHNESS_MS
            · exact .inl (hkept _ hused hlive)
            · exact .inr (not_lt.mp hlive)
          · exact .inr (hpassed.trans hnow)
        · exact absurd rfl haccepted
      · rcases List.mem_snoc.mp hd with hold | rfl
        · exact h.neverFailed d hold
        · exact LogoutOutcome.noConfusion
      · refine List.pairwise_append.mpr ⟨h.once, List.pairwise_singleton _ _, fun d _ d' hd' => ?_⟩
        obtain rfl := List.mem_singleton.mp hd'
        exact fun _ _ => rfl
      · rcases List.mem_snoc.mp hd with hold | rfl
        · exact h.revoked d hold houtcome
        · cases houtcome
  | verified jti sessions outcome hcheck hused hresult =>
      obtain ⟨hfresh, hjti⟩ := checkLogoutClaims_eq_ok hcheck
      have hhandled : outcome = .handled ∧ revokeNamed users a.siteId
          (jwt.claims a.logoutToken).identity a.now a.failures s.sessions = some sessions := by
        rcases hresult with ⟨-, hnone⟩ | hhandled
        · exact absurd hnone (revokeNamed_isSome hsid hfind huser)
        · exact hhandled
      refine ⟨fun d hd haccepted => ?_, fun d hd => ?_, ?_, fun d hd houtcome => ?_⟩
      · rcases List.mem_snoc.mp hd with hold | rfl
        · obtain ⟨hbefore, hremembered⟩ := h.accepted d hold haccepted
          refine ⟨hbefore, ?_⟩
          rcases hremembered with hmem | hpassed
          · by_cases hlive : a.now < d.deliveredAt + LOGOUT_TOKEN_FRESHNESS_MS
            · exact .inl (List.mem_append_left _ (mem_sweep hmem hlive))
            · exact .inr (not_lt.mp hlive)
          · exact .inr (hpassed.trans hnow)
        · refine ⟨hissued hfresh, .inl (List.mem_append_right _ ?_)⟩
          rw [hjti]
          exact List.mem_singleton.mpr rfl
      · rcases List.mem_snoc.mp hd with hold | rfl
        · exact h.neverFailed d hold
        · show outcome ≠ .failed
          rw [hhandled.1]
          exact LogoutOutcome.noConfusion
      · refine List.pairwise_append.mpr ⟨h.once, List.pairwise_singleton _ _, fun d hd d' hd' => ?_⟩
        obtain rfl := List.mem_singleton.mp hd'
        intro htoken haccepted
        rw [h.not_accepted hnow hd haccepted htoken hcheck] at hused
        cases hused
      · rcases List.mem_snoc.mp hd with hold | rfl
        · exact h.revoked d hold houtcome
        · exact revokeNamed_revokes (truthy_of_check hcheck) hhandled.2

/-- When every fresh token is delivered after its issue and no database call fails, no token is
accepted twice and each accepted one revokes what it names. -/
theorem logout_tokens_once (jwt : JwtVerifier) (users : List AccessUser)
    (h : Reach (logoutStep jwt users) (IssuedBeforeDelivery jwt) StartsLogout s) :
    LogoutHonoured jwt users s := by
  have hremembered : Remembered jwt users s := by
    refine h.invariant (I := fun s => Remembered jwt users s) ?_ ?_
    · rintro s ⟨-, hdeliveries⟩
      refine ⟨?_, ?_, ?_, ?_⟩
      · rw [hdeliveries]
        exact fun _ hd => (by cases hd)
      · rw [hdeliveries]
        exact fun _ hd => (by cases hd)
      · rw [hdeliveries]
        exact List.Pairwise.nil
      · rw [hdeliveries]
        exact fun _ hd => (by cases hd)
    · intro s a s' _ hs hc hstep
      exact hs.step hc hstep
  refine ⟨hremembered.once, hremembered.revoked, ?_⟩
  refine hremembered.once.imp_of_mem fun hd _ _ => ?_
  intro _ _ hfailed
  exact absurd hfailed (hremembered.neverFailed _ hd)

/-! ## Runs -/

/-- The claims of tokens that name the subject `alice`, issued after as many seconds as the
token has characters. -/
def plainVerifier : JwtVerifier where
  claims token := ⟨false, true, some "alice".toList, none, some token, some token.length⟩
  accepts _ _ _ := true

def plainUsers : List AccessUser := [⟨"user_1".toList, some "alice".toList⟩]

def plainSessions : List AccessSession :=
  [⟨"site_1".toList, none, some "user_1".toList, none⟩]

def plainStart : LogoutState := ⟨[], plainSessions, 0, []⟩

def deliver (token : Text) (now : ℚ) : DeliverLogout :=
  ⟨"site_1".toList, token, now, ⟨false, false, false⟩⟩

/-- A token of the first second comes twice. -/
def deliveredTwice : List DeliverLogout := [deliver "t".toList 2000, deliver "t".toList 3000]

theorem logout_tokens_once_delivered :
    ∃ s, execIf (logoutStep plainVerifier plainUsers) (IssuedBeforeDelivery plainVerifier) plainStart
        deliveredTwice = some s ∧
      s.deliveries.map (·.outcome) = [.handled, .rejected] ∧
      LogoutHonoured plainVerifier plainUsers s := by
  obtain ⟨s, hs, houtcomes⟩ := (Option.any_eq_true ..).mp
    (show (execIf (logoutStep plainVerifier plainUsers) (IssuedBeforeDelivery plainVerifier)
      plainStart deliveredTwice).any
      (fun s => s.deliveries.map (·.outcome) = [.handled, .rejected]) = true by decide +kernel)
  exact ⟨s, hs, of_decide_eq_true houtcomes,
    logout_tokens_once plainVerifier plainUsers (execIf_reach (.start ⟨rfl, rfl⟩) hs)⟩

/-- A token of the first second is delivered at its beginning and five minutes later. -/
def deliveredEarly : List DeliverLogout := [deliver "t".toList 1000, deliver "t".toList 301000]

theorem logout_token_replayed :
    ¬ ∀ (jwt : JwtVerifier) (users : List AccessUser) (s : LogoutState),
      Reach (logoutStep jwt users) Any StartsLogout s → LogoutHonoured jwt users s := by
  intro h
  obtain ⟨s, hs, hboth⟩ := (Option.any_eq_true ..).mp
    (show (exec (logoutStep plainVerifier plainUsers) plainStart deliveredEarly).any
      (fun s => s.deliveries.map (fun d => (d.logoutToken, d.outcome)) =
        [("t".toList, .handled), ("t".toList, .handled)]) = true by decide +kernel)
  have honce := (h plainVerifier plainUsers s (exec_reach (.start ⟨rfl, rfl⟩) hs)).once
  have hpairs : (s.deliveries.map fun d => (d.logoutToken, d.outcome)).Pairwise fun d d' =>
      d.1 = d'.1 → d.2 ≠ .rejected → d'.2 = .rejected := List.pairwise_map.mpr honce
  rw [of_decide_eq_true hboth, List.pairwise_pair] at hpairs
  exact absurd (hpairs rfl LogoutOutcome.noConfusion) LogoutOutcome.noConfusion

end BurrowGate.Sso
