import BurrowGate.Sso.SingleSignOn
import Mathlib.Data.List.Nodup

/-!
# Single sign-on does not cross identities

Accounts are looked up by the subject alone and linked by an address that nobody need have
verified. `NamesOnePerson` excludes both.
-/

namespace BurrowGate.Sso

open Lib.Run

variable {realm : SsoRealm} {locals : List SsoUser} {s t : SsoState} {a : SsoAction}
  {users users' : List SsoUser} {user : SsoUser}

/-- The account with the id is linked to the subject of the issuer. -/
def Holds (users : List SsoUser) (userId issuer subject : Text) : Prop :=
  ∃ row ∈ users, row.id = userId ∧ row.ssoSubject = some subject ∧ row.ssoIssuer = some issuer

def SsoUser.key (user : SsoUser) : Text × Text := (user.id, user.username)

/-- What is known of a call at its stage. -/
def Fits (realm : SsoRealm) (users : List SsoUser) (l : SsoLogin) : Prop :=
  match l.stage with
  | .bySubject => True
  | .byUsername username | .provision username =>
      l.identity.email.bind (normalizeUsername realm) = some username
  | .link existing => existing.key ∈ users.map SsoUser.key ∧
      l.identity.email.bind (normalizeUsername realm) = some existing.username
  | .assign user => Holds users user.id l.issuer l.identity.subject

/-- Why a local account is linked. -/
def Justified (realm : SsoRealm) (links : List SsoLink) (user : SsoUser) (issuer subject : Text) :
    Prop :=
  ∃ link ∈ links, link.userId = user.id ∧ link.username = user.username ∧
    link.issuer = issuer ∧ link.identity.subject = subject ∧ link.Asserted realm

structure Identified (realm : SsoRealm) (locals : List SsoUser) (s : SsoState) : Prop where
  ids : (s.users.map (·.id)).Nodup
  kept : ∀ user ∈ locals, user.key ∈ s.users.map SsoUser.key
  logins : ∀ l ∈ s.logins, Fits realm s.users l
  signIns : ∀ r ∈ s.signIns, Holds s.users r.userId r.issuer r.subject
  justified : ∀ user ∈ locals, ∀ issuer subject, Holds s.users user.id issuer subject →
    Justified realm s.links user issuer subject

/-! ## Changes of the accounts -/

theorem Fits.mono {l : SsoLogin} (h : Fits realm users l)
    (hkeys : ∀ k ∈ users.map SsoUser.key, k ∈ users'.map SsoUser.key)
    (hholds : ∀ userId issuer subject, Holds users userId issuer subject →
      Holds users' userId issuer subject) : Fits realm users' l := by
  rw [Fits] at h ⊢
  cases hstage : l.stage with
  | bySubject => exact trivial
  | byUsername username =>
      rw [hstage] at h
      exact h
  | link existing =>
      rw [hstage] at h
      exact ⟨hkeys _ h.1, h.2⟩
  | provision username =>
      rw [hstage] at h
      exact h
  | assign user =>
      rw [hstage] at h
      exact hholds _ _ _ h

/-- Rows with one id are one row. -/
theorem eq_of_id (hids : (users.map (·.id)).Nodup) {row row' : SsoUser} (hrow : row ∈ users)
    (hrow' : row' ∈ users) (h : row.id = row'.id) : row = row' :=
  List.inj_on_of_nodup_map hids hrow hrow' h

theorem map_id_updateUser (users : List SsoUser) (user : SsoUser) :
    (updateUser users user).map (·.id) = users.map (·.id) := by
  rw [updateUser, List.map_map]
  refine List.map_congr_left fun row _ => ?_
  show (if row.id = user.id then user else row).id = row.id
  split
  · rename_i heq
    exact heq.symm
  · rfl

theorem mem_updateUser {row : SsoUser} (h : row ∈ updateUser users user) :
    row = user ∨ row ∈ users ∧ row.id ≠ user.id := by
  obtain ⟨before, hbefore, rfl⟩ := List.mem_map.mp h
  split
  · exact .inl rfl
  · rename_i hne
    exact .inr ⟨hbefore, hne⟩

/-- The written row takes the place of the row with its id. -/
theorem updateUser_mem {row : SsoUser} (h : row ∈ users) (hid : row.id = user.id) :
    user ∈ updateUser users user :=
  List.mem_map.mpr ⟨row, h, if_pos hid⟩

theorem updateUser_mem_of_ne {row : SsoUser} (h : row ∈ users) (hne : row.id ≠ user.id) :
    row ∈ updateUser users user :=
  List.mem_map.mpr ⟨row, h, if_neg hne⟩

/-- Linking an account that is linked to nobody else keeps every link. -/
theorem Holds.updateUser {userId issuer subject : Text} (h : Holds users userId issuer subject)
    (hfree : ∀ row ∈ users, row.id = user.id → row.ssoSubject = none ∨
      (row.ssoSubject = user.ssoSubject ∧ row.ssoIssuer = user.ssoIssuer)) :
    Holds (updateUser users user) userId issuer subject := by
  obtain ⟨row, hrow, rfl, hsubject, hissuer⟩ := h
  by_cases hid : row.id = user.id
  · rcases hfree row hrow hid with hnone | ⟨hsame, hsame'⟩
    · rw [hnone] at hsubject
      cases hsubject
    · exact ⟨user, updateUser_mem hrow hid, hid.symm, hsame ▸ hsubject, hsame' ▸ hissuer⟩
  · exact ⟨row, updateUser_mem_of_ne hrow hid, rfl, hsubject, hissuer⟩

/-- What holds after an update held before, or is what was written. -/
theorem Holds.of_updateUser {userId issuer subject : Text}
    (h : Holds (Sso.updateUser users user) userId issuer subject) :
    Holds users userId issuer subject ∨
      (userId = user.id ∧ user.ssoSubject = some subject ∧ user.ssoIssuer = some issuer) := by
  obtain ⟨row, hrow, rfl, hsubject, hissuer⟩ := h
  rcases mem_updateUser hrow with rfl | ⟨hold, -⟩
  · exact .inr ⟨rfl, hsubject, hissuer⟩
  · exact .inl ⟨row, hold, rfl, hsubject, hissuer⟩

theorem Holds.append {userId issuer subject : Text} (h : Holds users userId issuer subject)
    (user : SsoUser) : Holds (users ++ [user]) userId issuer subject := by
  obtain ⟨row, hrow, hfacts⟩ := h
  exact ⟨row, List.mem_append_left _ hrow, hfacts⟩

/-- Steps that leave the accounts. -/
theorem Identified.frame (h : Identified realm locals s) (husers : t.users = s.users)
    (hlinks : t.links = s.links) (hlogins : ∀ l ∈ t.logins, l ∈ s.logins ∨ Fits realm s.users l)
    (hsignIns : ∀ r ∈ t.signIns, r ∈ s.signIns ∨ Holds s.users r.userId r.issuer r.subject) :
    Identified realm locals t := by
  refine ⟨?_, ?_, fun l hl => ?_, fun r hr => ?_, ?_⟩
  · rw [husers]
    exact h.ids
  · rw [husers]
    exact h.kept
  · rw [husers]
    exact (hlogins l hl).elim (h.logins l) id
  · rw [husers]
    exact (hsignIns r hr).elim (h.signIns r) id
  · rw [husers, hlinks]
    exact h.justified

theorem Identified.goOn {i : Nat} {l : SsoLogin} {stage : LoginStage}
    (h : Identified realm locals s) (hfits : Fits realm s.users { l with stage }) :
    Identified realm locals (s.goOn i l stage) := by
  refine h.frame rfl rfl (fun m hm => ?_) fun r hr => .inl hr
  rcases List.mem_or_eq_of_mem_set hm with hold | rfl
  · exact .inl hold
  · exact .inr hfits

theorem Identified.throw (h : Identified realm locals s) (i : Nat) :
    Identified realm locals (s.throw i) :=
  h.frame rfl rfl (fun _ hm => .inl (List.mem_of_mem_eraseIdx hm)) fun _ hr => .inl hr

/-! ## The statements of a call -/

section Advance

variable {i : Nat} {l : SsoLogin}

theorem Identified.findByEmail (h : Identified realm locals s) :
    Identified realm locals (findByEmail realm s i l) := by
  rw [Sso.findByEmail]
  split
  · exact h.throw i
  · exact h.throw i
  · rename_i email _ hemail
    split
    · exact h.throw i
    · rename_i username husername
      refine h.goOn ?_
      show l.identity.email.bind (normalizeUsername realm) = some username
      rw [hemail]
      exact husername

theorem Identified.link {existing : SsoUser} (h : Identified realm locals s)
    (hkey : existing.key ∈ s.users.map SsoUser.key)
    (hemail : l.identity.email.bind (normalizeUsername realm) = some existing.username)
    (hverified : l.identity.emailVerified = true)
    (hfree : ∀ row ∈ s.users, row.id = existing.id → row.ssoSubject = none ∨
      (row.ssoSubject = some l.identity.subject ∧ row.ssoIssuer = some l.issuer))
    (hstage : l.stage = .link existing) : Identified realm locals (advanceLogin realm s i l) := by
  obtain ⟨row, hrow, hrowKey⟩ := List.mem_map.mp hkey
  obtain ⟨hid, hname⟩ := Prod.mk.inj hrowKey
  have hholds : ∀ userId issuer subject, Holds s.users userId issuer subject →
      Holds (updateUser s.users (linked existing l.issuer l.identity)) userId issuer subject :=
    fun _ _ _ hold => hold.updateUser hfree
  have hkeys : ∀ k ∈ s.users.map SsoUser.key,
      k ∈ (updateUser s.users (linked existing l.issuer l.identity)).map SsoUser.key := by
    intro k hk
    obtain ⟨other, hother, rfl⟩ := List.mem_map.mp hk
    by_cases hsame : other.id = existing.id
    · have heq : other = row := eq_of_id h.ids hother hrow (hsame.trans hid.symm)
      rw [heq, hrowKey]
      exact List.mem_map.mpr ⟨_, updateUser_mem hrow hid, rfl⟩
    · exact List.mem_map.mpr ⟨other, updateUser_mem_of_ne hother hsame, rfl⟩
  rw [advanceLogin, hstage]
  refine ⟨?_, fun user huser => hkeys _ (h.kept user huser), fun m hm => ?_, fun r hr =>
    hholds _ _ _ (h.signIns r hr), fun user huser issuer subject hold => ?_⟩
  · show (List.map _ (updateUser _ _)).Nodup
    rw [map_id_updateUser]
    exact h.ids
  · rcases List.mem_or_eq_of_mem_set hm with hold | rfl
    · exact (h.logins m hold).mono hkeys hholds
    · exact ⟨_, updateUser_mem hrow hid, rfl, rfl, rfl⟩
  · rcases hold.of_updateUser with hbefore | ⟨huserId, hsubject, hissuer⟩
    · obtain ⟨link, hlink, hfacts⟩ := h.justified user huser issuer subject hbefore
      exact ⟨link, List.mem_append_left _ hlink, hfacts⟩
    · have hlocal := h.kept user huser
      obtain ⟨localRow, hlocalRow, hlocalKey⟩ := List.mem_map.mp hlocal
      obtain ⟨hlocalId, hlocalName⟩ := Prod.mk.inj hlocalKey
      have heq : localRow = row :=
        eq_of_id h.ids hlocalRow hrow (hlocalId.trans (huserId.trans hid.symm))
      refine ⟨⟨existing.id, existing.username, l.issuer, l.identity⟩,
        List.mem_append_right _ (List.mem_singleton.mpr rfl), huserId.symm, ?_,
        Option.some.inj hissuer, Option.some.inj hsubject, hverified, hemail⟩
      rw [← hname, ← heq]
      exact hlocalName

theorem Identified.provision {username : Text} (h : Identified realm locals s)
    (hstage : l.stage = .provision username) :
    Identified realm locals (advanceLogin realm s i l) := by
  rw [advanceLogin, hstage]
  dsimp only
  cases hinsert : insertUser s.users (provisioned realm username l.issuer l.identity) with
  | none => exact h.throw i
  | some users =>
      rw [insertUser] at hinsert
      split at hinsert
      · cases hinsert
      rename_i htaken
      obtain rfl := Option.some.inj hinsert
      have hfresh : ∀ row ∈ s.users,
          row.id ≠ (provisioned realm username l.issuer l.identity).id := by
        intro row hrow hid
        apply htaken
        rw [List.any_eq_true]
        refine ⟨row, hrow, ?_⟩
        rw [Bool.or_eq_true]
        exact .inl (decide_eq_true hid)
      have hkeys : ∀ k ∈ s.users.map SsoUser.key, k ∈ (s.users ++
          [provisioned realm username l.issuer l.identity]).map SsoUser.key := by
        intro k hk
        rw [List.map_append]
        exact List.mem_append_left _ hk
      refine ⟨?_, fun user huser => hkeys _ (h.kept user huser), fun m hm => ?_, fun r hr =>
        (h.signIns r hr).append _, fun user huser issuer subject hold => ?_⟩
      · dsimp only
        rw [List.map_append, List.nodup_append]
        refine ⟨h.ids, List.nodup_singleton _, fun id hid other hother heq => ?_⟩
        obtain ⟨row, hrow, rfl⟩ := List.mem_map.mp hid
        obtain rfl := List.mem_singleton.mp hother
        exact hfresh row hrow heq
      · rcases List.mem_or_eq_of_mem_set hm with hold | rfl
        · exact (h.logins m hold).mono hkeys fun _ _ _ hold => hold.append _
        · exact ⟨_, List.mem_append_right _ (List.mem_singleton.mpr rfl), rfl, rfl, rfl⟩
      · obtain ⟨row, hrow, hid, hsubject, hissuer⟩ := hold
        rcases List.mem_snoc.mp hrow with hbefore | rfl
        · exact h.justified user huser issuer subject ⟨row, hbefore, hid, hsubject, hissuer⟩
        · obtain ⟨localRow, hlocalRow, hlocalKey⟩ := List.mem_map.mp (h.kept user huser)
          exact absurd ((Prod.mk.inj hlocalKey).1.trans hid.symm) (hfresh localRow hlocalRow)

theorem Identified.advance (h : Identified realm locals s) (hc : NamesOnePerson s (.advance i))
    (hlogin : s.logins[i]? = some l) : Identified realm locals (advanceLogin realm s i l) := by
  have hfits := h.logins l (List.mem_of_getElem? hlogin)
  rw [NamesOnePerson, hlogin, Option.all_some] at hc
  rw [Fits] at hfits
  cases hstage : l.stage with
  | bySubject =>
      rw [hstage] at hc
      rw [advanceLogin, hstage]
      dsimp only
      cases hfound : userBySsoSubject s.users l.identity.subject with
      | none => exact h.findByEmail
      | some user =>
          dsimp only at hc
          rw [hfound, Option.all_some, decide_eq_true_iff] at hc
          refine h.goOn ⟨user, List.mem_of_find?_eq_some hfound, rfl, ?_, hc⟩
          have hsubject := List.find?_some hfound
          exact of_decide_eq_true hsubject
  | byUsername username =>
      rw [hstage] at hfits
      rw [advanceLogin, hstage]
      dsimp only
      cases hfound : userByUsername s.users username with
      | none => exact h.goOn hfits
      | some existing =>
          dsimp only
          split
          · exact h.throw i
          · refine h.goOn ⟨List.mem_map.mpr ⟨existing, List.mem_of_find?_eq_some hfound, rfl⟩, ?_⟩
            have hname := List.find?_some hfound
            exact hfits.trans (congrArg some (of_decide_eq_true hname).symm)
  | link existing =>
      rw [hstage] at hfits hc
      rw [Bool.and_eq_true, List.all_eq_true] at hc
      refine h.link hfits.1 hfits.2 hc.1 (fun row hrow hid => ?_) hstage
      have hrow := hc.2 row hrow
      rw [Bool.or_eq_true, Bool.or_eq_true, Bool.and_eq_true, decide_eq_true_iff,
        decide_eq_true_iff, decide_eq_true_iff, decide_eq_true_iff] at hrow
      rcases hrow with (hne | hnone) | hsame
      · exact absurd hid hne
      · exact .inl hnone
      · exact .inr hsame
  | provision username => exact h.provision hstage
  | assign user =>
      rw [hstage] at hfits
      rw [advanceLogin, hstage]
      refine h.frame rfl rfl (fun _ hm => .inl (List.mem_of_mem_eraseIdx hm)) fun r hr => ?_
      dsimp only at hr
      split at hr
      · rcases List.mem_snoc.mp hr with hold | rfl
        · exact .inl hold
        · exact .inr hfits
      · exact .inl hr

end Advance

theorem Identified.step (h : Identified realm locals s) (hc : NamesOnePerson s a)
    (hstep : ssoStep realm s a = some t) : Identified realm locals t := by
  cases a with
  | saveSettings siteId settings =>
      rw [ssoStep] at hstep
      split at hstep
      · obtain rfl := Option.some.inj hstep
        exact h.frame rfl rfl (fun _ hl => .inl hl) fun _ hr => .inl hr
      · cases hstep
  | login siteId identity =>
      obtain ⟨issuer, -, rfl⟩ := Option.map_eq_some_iff.mp hstep
      refine h.frame rfl rfl (fun l hl => ?_) fun _ hr => .inl hr
      rcases List.mem_snoc.mp hl with hold | rfl
      · exact .inl hold
      · exact .inr trivial
  | advance i =>
      obtain ⟨l, hlogin, rfl⟩ := Option.map_eq_some_iff.mp hstep
      exact h.advance hc hlogin

/-- When a subject is one issuer's and accounts are linked by verified addresses alone, two
sign-ins share an account only with their issuer and subject, and a local account is only
returned to the person whose provider asserted its address. -/
theorem sign_ins_separate (realm : SsoRealm) (locals : List SsoUser)
    (h : Reach (ssoStep realm) NamesOnePerson (StartsSso locals) s) : SsoLaws realm locals s := by
  have hidentified : Identified realm locals s := by
    refine h.invariant (I := fun s => Identified realm locals s) ?_ ?_
    · rintro s ⟨husers, hids, hunlinked, hlogins, -, hsignIns⟩
      refine ⟨?_, fun user huser => ?_, ?_, ?_, fun user huser issuer subject hold => ?_⟩
      · rw [husers]
        exact hids
      · rw [husers]
        exact List.mem_map.mpr ⟨user, huser, rfl⟩
      · rw [hlogins]
        exact fun _ hl => (by cases hl)
      · rw [hsignIns]
        exact fun _ hr => (by cases hr)
      · obtain ⟨row, hrow, -, hsubject, -⟩ := hold
        rw [husers] at hrow
        rw [(hunlinked row hrow).1] at hsubject
        cases hsubject
    · intro s a t _ hs hc hstep
      exact hs.step hc hstep
  refine ⟨fun r hr r' hr' huser => ?_, fun r hr user huser hid => ?_⟩
  · obtain ⟨row, hrow, hid, hsubject, hissuer⟩ := hidentified.signIns r hr
    obtain ⟨row', hrow', hid', hsubject', hissuer'⟩ := hidentified.signIns r' hr'
    obtain rfl := eq_of_id hidentified.ids hrow hrow' (hid.trans (huser.trans hid'.symm))
    exact ⟨Option.some.inj (hissuer.symm.trans hissuer'),
      Option.some.inj (hsubject.symm.trans hsubject')⟩
  · have hholds := hidentified.signIns r hr
    rw [hid] at hholds
    exact hidentified.justified user huser r.issuer r.subject hholds

/-! ## The realms and their runs -/

def accessRealm (toLowerCase subjectHash : Text → Text) : SsoRealm :=
  ⟨toLowerCase, subjectHash, "user_sso_".toList, true⟩

def exampleRealm : SsoRealm := accessRealm (·.map Char.toLower) id

def exampleLocals : List SsoUser :=
  [⟨"user_1".toList, "a@b.example".toList, true, none, .password, none⟩]

def exampleSettings (issuer : Text) : SsoSettings := ⟨true, some issuer, some "client".toList, true⟩

/-- Two sites with an issuer each. -/
def exampleSso : SsoState where
  settings siteId := exampleSettings (if siteId = "site_1".toList then "i".toList else "j".toList)
  users := exampleLocals
  memberships := []
  logins := []
  links := []
  signIns := []

theorem exampleLocals_nodup : (exampleLocals.map (·.id)).Nodup := by
  decide +kernel

theorem exampleSso_starts : StartsSso exampleLocals exampleSso := by
  refine ⟨rfl, exampleLocals_nodup, ?_, rfl, rfl, rfl⟩
  intro user huser
  obtain rfl := List.mem_singleton.mp huser
  exact ⟨rfl, rfl, rfl⟩

theorem exampleSubject_ne : "1".toList ≠ [] := by
  decide +kernel

def exampleIdentity (email : Option Text) (emailVerified : Bool) : VerifiedOidcIdentity :=
  ⟨"1".toList, email, emailVerified, exampleSubject_ne⟩

/-- The owner of the address signs in twice. -/
def signedInTwice : List SsoAction :=
  [.login "site_1".toList (exampleIdentity (some "A@b.example".toList) true), .advance 0,
    .advance 0, .advance 0, .advance 0,
    .login "site_1".toList (exampleIdentity none false), .advance 0, .advance 0]

theorem sign_ins_separate_twice :
    ∃ s, execIf (ssoStep exampleRealm) NamesOnePerson exampleSso signedInTwice = some s ∧
      s.signIns = [⟨"i".toList, "1".toList, "user_1".toList⟩, ⟨"i".toList, "1".toList,
        "user_1".toList⟩] ∧ SsoLaws exampleRealm exampleLocals s := by
  obtain ⟨s, hs, hsignIns⟩ := (Option.any_eq_true ..).mp
    (show (execIf (ssoStep exampleRealm) NamesOnePerson exampleSso signedInTwice).any
      (fun s => s.signIns = [⟨"i".toList, "1".toList, "user_1".toList⟩,
        ⟨"i".toList, "1".toList, "user_1".toList⟩]) = true by decide +kernel)
  exact ⟨s, hs, of_decide_eq_true hsignIns,
    sign_ins_separate exampleRealm exampleLocals (execIf_reach (.start exampleSso_starts) hs)⟩

/-- The same subject of two issuers, at two sites. -/
def signedInAtBoth : List SsoAction :=
  [.login "site_1".toList (exampleIdentity (some "x@y.example".toList) true), .advance 0,
    .advance 0, .advance 0, .advance 0,
    .login "site_2".toList (exampleIdentity (some "z@y.example".toList) true), .advance 0,
    .advance 0]

theorem sign_ins_cross :
    ¬ ∀ (realm : SsoRealm) (locals : List SsoUser) (s : SsoState),
      Reach (ssoStep realm) Any (StartsSso locals) s → SsoLaws realm locals s := by
  intro h
  obtain ⟨s, hs, hcross⟩ := (Option.any_eq_true ..).mp
    (show (exec (ssoStep exampleRealm) exampleSso signedInAtBoth).any
      (fun s => s.signIns = [⟨"i".toList, "1".toList, "user_sso_1".toList⟩,
        ⟨"j".toList, "1".toList, "user_sso_1".toList⟩]) = true by decide +kernel)
  have hlaws := h exampleRealm exampleLocals s (exec_reach (.start exampleSso_starts) hs)
  have hseparate := hlaws.separate
  rw [of_decide_eq_true hcross] at hseparate
  have hissuer := (hseparate _ List.mem_cons_self _
    (List.mem_cons_of_mem _ List.mem_cons_self) rfl).1
  exact absurd hissuer (by decide)

end BurrowGate.Sso
