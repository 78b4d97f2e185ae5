import MyStockIQ.LoggingIn
/-!
# Whose code it is

A referral is looked up by its code alone: a sign-up takes the inviter of the
first row with the code, and the first free slot of any. An admin's invitation
uses the code of the admin's first referral, and makes one up if there is none.
Nothing checks whether the code made up is another admin's. So a code has one
inviter as long as no draw hits a code that is there (`one_inviter_iff`).
-/

open SharedStore Prog

namespace MyStockIQ.Sessions

/-! ## Referrals of a code -/

/-- The rows of one code have one inviter. -/
def OneInviter (referrals : List SignUp.Referral) : Prop :=
  ∀ a ∈ referrals, ∀ b ∈ referrals, a.referral_code = b.referral_code → a.inviter_id = b.inviter_id

/-- A code belongs to one inviter, and the slot that `create` gives to a new
user is one of the inviter who was issued the code of the form. -/
structure Owned (db : SignUp.Accounts) : Prop where
  one_inviter : OneInviter db.referrals
  slot : ∀ code spot, (db.referralSpots code).head? = some spot →
    ∀ row ∈ db.referrals, row.referral_code = code → spot.inviter_id = row.inviter_id

/-- A slot is a row of its code. -/
theorem owned_iff {db : SignUp.Accounts} : Owned db ↔ OneInviter db.referrals := by
  constructor
  · intro h
    exact h.one_inviter
  · intro h
    refine ⟨h, ?_⟩
    intro code spot hspot row hrow hcode
    obtain ⟨hmem, hkey⟩ := List.mem_filter.1 (List.mem_of_head? hspot)
    simp only [decide_eq_true_eq] at hkey
    exact h spot hmem row hrow (hkey.1.trans hcode.symm)

section
variable {referrals : List SignUp.Referral} {referral : SignUp.Referral}

theorem OneInviter.append (h : OneInviter referrals)
    (hlast : ∀ row ∈ referrals, row.referral_code = referral.referral_code → row.inviter_id = referral.inviter_id) :
    OneInviter (referrals ++ [referral]) := by
  intro a ha b hb hcode
  rcases List.mem_append.1 ha with ha | ha <;> rcases List.mem_append.1 hb with hb | hb
  · exact h a ha b hb hcode
  · rw [List.mem_singleton.1 hb] at hcode ⊢
    exact hlast a ha hcode
  · rw [List.mem_singleton.1 ha] at hcode ⊢
    exact (hlast b hb hcode.symm).symm
  · rw [List.mem_singleton.1 ha, List.mem_singleton.1 hb]

theorem OneInviter.of_append (h : OneInviter (referrals ++ [referral])) : OneInviter referrals := by
  intro a ha b hb hcode
  exact h a (List.mem_append_left _ ha) b (List.mem_append_left _ hb) hcode

/-- Another row of a code there is, with its inviter. -/
theorem OneInviter.append_same (h : OneInviter referrals) {old : SignUp.Referral} (hold : old ∈ referrals)
    (hcode : referral.referral_code = old.referral_code) (hinviter : referral.inviter_id = old.inviter_id) :
    OneInviter (referrals ++ [referral]) := by
  apply h.append
  intro row hrow hsame
  rw [hinviter]
  exact h row hrow old hold (hsame.trans hcode)

/-- A row of an inviter who has none: its code is another's already, or nobody's yet. -/
theorem OneInviter.append_first_iff (h : OneInviter referrals)
    (hfirst : ∀ row ∈ referrals, row.inviter_id ≠ referral.inviter_id) :
    OneInviter (referrals ++ [referral]) ↔ ∀ row ∈ referrals, row.referral_code ≠ referral.referral_code := by
  constructor
  · intro happ row hrow hcode
    exact hfirst row hrow
      (happ row (List.mem_append_left _ hrow) referral (List.mem_append_right _ (List.mem_singleton_self _)) hcode)
  · intro hnew
    apply h.append
    intro row hrow hcode
    exact absurd hcode (hnew row hrow)

end

/-! ## Sign-ups and invitations -/

/-- The site, and the sequence of the ids of users. -/
structure Roster where
  db : Site
  user_seq : Nat

inductive Joining where
  | signUp (digest : String → String) (generated : Nat) (params : SignUp.UserParams) (referral_code : Option String)
  | invite (jar : Jar) (email : Option String) (generated : Nat)

def Roster.signUp (r : Roster) (digest : String → String) (generated : Nat) (params : SignUp.UserParams)
    (referral_code : Option String) : Roster :=
  let accounts := ((SignUp.UsersController.create digest generated params referral_code).run SignUp.Accounts.exec
    (r.db.accounts r.user_seq)).2
  { db := { r.db.withAccounts accounts with referrals := accounts.referrals, referral_seq := accounts.referral_seq }
    user_seq := accounts.user_seq }

def Roster.run (bcrypt : BCrypt) (r : Roster) : Joining → Roster
  | .signUp digest generated params referral_code => r.signUp digest generated params referral_code
  | .invite jar email generated => { r with db := ((AdminRequest.createReferral email generated).run bcrypt jar r.db).2 }

/-- The row of an invitation with a code that `generate_code` made up. -/
def firstReferral (user : User) (email : Option String) (generated : Nat) : SignUp.Referral :=
  ⟨0, some (generated : Int), email, some user.id, none⟩

/-- A code that is made up and saved is nobody's yet. Only an admin without
referrals has one made up. -/
def Roster.DrawsFresh (bcrypt : BCrypt) (r : Roster) : Joining → Prop
  | .signUp _ _ _ _ => True
  | .invite jar email generated => ∀ user, r.db.currentUser bcrypt jar = some user → user.admin = true →
      r.db.referralsOf user.id = [] → (firstReferral user email generated).valid true = true →
      ∀ row ∈ r.db.referrals, row.referral_code ≠ some (generated : Int)

/-- So it is at each step. -/
def Roster.AllFresh (bcrypt : BCrypt) : Roster → List Joining → Prop
  | _, [] => True
  | r, joining :: rest => r.DrawsFresh bcrypt joining ∧ (r.run bcrypt joining).AllFresh bcrypt rest

/-! ## A step -/

theorem inviter_id_of {db : SignUp.Accounts} {referral : SignUp.Referral} {referrer : SignUp.User}
    (h : db.inviter referral = some referrer) : referral.inviter_id = some referrer.id := by
  obtain ⟨id, hid, hfound⟩ := Option.bind_eq_some_iff.1 h
  have hkey : referrer.id = id := by simpa using List.find?_some hfound
  rw [hid, hkey]

/-- A sign-up adds no referral, or a slot like the first row of the code of the form. -/
theorem signUp_adds (r : Roster) (digest : String → String) (generated : Nat) (params : SignUp.UserParams)
    (referral_code : Option String) :
    (r.signUp digest generated params referral_code).db.referrals = r.db.referrals ∨
    ∃ old ∈ r.db.referrals, ∃ spot : SignUp.Referral,
      (r.signUp digest generated params referral_code).db.referrals = r.db.referrals ++ [spot] ∧
      spot.referral_code = old.referral_code ∧ spot.inviter_id = old.inviter_id := by
  let db := r.db.accounts r.user_seq
  show (SignUp.Accounts.referrals (Prog.run SignUp.Accounts.exec _ db).2) = _ ∨ _
  cases hfound : db.referral (SignUp.castInteger referral_code) with
  | none =>
    rw [SignUp.create_unknown digest generated params hfound]
    exact .inl rfl
  | some old =>
    by_cases hadmin : ∃ referrer, db.inviter old = some referrer ∧ referrer.admin = true
    · obtain ⟨referrer, hinviter, hadmin⟩ := hadmin
      rcases SignUp.create_admin digest generated params hfound hinviter hadmin with hraised | hspot
      · rw [hraised]
        exact .inl rfl
      · right
        have hcode : old.referral_code = SignUp.castInteger referral_code := by simpa using List.find?_some hfound
        refine ⟨old, List.mem_of_find?_eq_some hfound,
          ⟨db.referral_seq, SignUp.castInteger referral_code, some "noemail@noemail.com", some referrer.id, none⟩,
          ?_, hcode.symm, (inviter_id_of hinviter).symm⟩
        show (SignUp.Accounts.referrals (Prog.run SignUp.Accounts.exec _ db).2) = _
        rw [hspot]
        rfl
    · have hrefused : ∀ referrer, db.inviter old = some referrer → referrer.admin = false := by
        intro referrer hinviter
        by_contra htrue
        exact hadmin ⟨referrer, hinviter, by simpa using htrue⟩
      obtain ⟨messages, hrun, -⟩ := SignUp.create_refused digest generated params hfound hrefused
      rw [hrun]
      exact .inl rfl

/-- The code of an invitation: of the admin's first referral, or else the one made up. -/
def Site.codeFor (db : Site) (user_id generated : Nat) : Option Int :=
  match (db.referralsOf user_id).head? with
  | some referral => referral.referral_code
  | none => some (generated : Int)

/-- An admin's invitation is saved if it is valid. -/
theorem run_invite {bcrypt : BCrypt} {db : Site} {jar : Jar} {user : User} (h : db.currentUser bcrypt jar = some user)
    (hadmin : user.admin = true) (email : Option String) (generated : Nat) :
    ((AdminRequest.createReferral email generated).run bcrypt jar db).2 =
      if SignUp.Referral.valid ⟨0, db.codeFor user.id generated, email, some user.id, none⟩ true then
        db.exec (.insertReferral ⟨0, db.codeFor user.id generated, email, some user.id, none⟩)
      else db := by
  obtain ⟨self, hrun, hsession, hcurrent⟩ := run_redirect_some h
  rw [hadmin] at hrun
  refine (congrArg Prod.snd (run_bind_ok Site.exec hrun _)).trans ?_
  simp only [Controller.currentUser, hsession, hcurrent, Bool.not_true, Bool.false_eq_true, if_false, bind_eq, ret_bind,
    orNil, select, query_bind, run_step, exec_select]
  unfold Site.codeFor
  cases (db.referralsOf user.id).head? <;> dsimp only <;> split <;> rfl

section
variable {bcrypt : BCrypt} {r : Roster}

theorem invite_fresh_iff (h : OneInviter r.db.referrals) (jar : Jar) (email : Option String) (generated : Nat) :
    OneInviter (r.run bcrypt (.invite jar email generated)).db.referrals ↔
      r.DrawsFresh bcrypt (.invite jar email generated) := by
  simp only [Roster.run, Roster.DrawsFresh]
  cases hcurrent : r.db.currentUser bcrypt jar with
  | none =>
    rw [run_createReferral_none hcurrent]
    simp [h]
  | some user =>
    cases hadmin : user.admin with
    | false =>
      rw [run_not_admin hcurrent hadmin]
      simp [h, hadmin]
    | true =>
      rw [run_invite hcurrent hadmin]
      cases hfirst : r.db.referralsOf user.id with
      | nil =>
        have hnone : ∀ row ∈ r.db.referrals, row.inviter_id ≠ some user.id := by
          simpa [Site.referralsOf, List.filter_eq_nil_iff] using hfirst
        have hcode : r.db.codeFor user.id generated = some (generated : Int) := by simp [Site.codeFor, hfirst]
        rw [hcode]
        split
        · next hvalid =>
          refine Iff.trans (h.append_first_iff hnone) ⟨?_, ?_⟩
          · rintro hfresh _ ⟨rfl⟩ - - -
            exact hfresh
          · intro hfresh
            exact hfresh user rfl hadmin hfirst hvalid
        · next hinvalid =>
          refine iff_of_true h ?_
          rintro _ ⟨rfl⟩ - - hvalid
          exact absurd hvalid hinvalid
      | cons old rest =>
        have hold : old ∈ r.db.referrals ∧ old.inviter_id = some user.id := by
          have hmem : old ∈ r.db.referralsOf user.id := hfirst ▸ List.mem_cons_self
          simpa [Site.referralsOf] using hmem
        have hcode : r.db.codeFor user.id generated = old.referral_code := by simp [Site.codeFor, hfirst]
        rw [hcode]
        refine iff_of_true ?_ ?_
        · split
          · exact h.append_same hold.1 rfl hold.2.symm
          · exact h
        · rintro _ ⟨rfl⟩ - hnil -
          rw [hfirst] at hnil
          cases hnil

/-- A step keeps a code with one inviter if and only if it makes up no code that is there. -/
theorem step_fresh_iff (h : OneInviter r.db.referrals) (joining : Joining) :
    OneInviter (r.run bcrypt joining).db.referrals ↔ r.DrawsFresh bcrypt joining := by
  cases joining with
  | invite jar email generated => exact invite_fresh_iff h jar email generated
  | signUp digest generated params referral_code =>
    refine iff_of_true ?_ trivial
    rcases signUp_adds r digest generated params referral_code with hsame | ⟨old, hold, spot, hadds, hcode, hinviter⟩
    · exact hsame ▸ h
    · exact hadds ▸ h.append_same hold hcode hinviter

/-! ## Runs -/

/-- A step adds one referral at most. -/
theorem run_adds (bcrypt : BCrypt) (r : Roster) (joining : Joining) :
    (r.run bcrypt joining).db.referrals = r.db.referrals ∨
    ∃ referral, (r.run bcrypt joining).db.referrals = r.db.referrals ++ [referral] := by
  cases joining with
  | signUp digest generated params referral_code =>
    rcases signUp_adds r digest generated params referral_code with hsame | ⟨-, -, spot, hadds, -⟩
    · exact .inl hsame
    · exact .inr ⟨spot, hadds⟩
  | invite jar email generated =>
    simp only [Roster.run]
    cases hcurrent : r.db.currentUser bcrypt jar with
    | none =>
      rw [run_createReferral_none hcurrent]
      exact .inl rfl
    | some user =>
      cases hadmin : user.admin with
      | false =>
        rw [run_not_admin hcurrent hadmin]
        exact .inl rfl
      | true =>
        rw [run_invite hcurrent hadmin]
        split
        · exact .inr ⟨_, rfl⟩
        · exact .inl rfl

/-- Nothing repairs a code with two inviters. -/
theorem OneInviter.of_run {joining : Joining} (h : OneInviter (r.run bcrypt joining).db.referrals) :
    OneInviter r.db.referrals := by
  rcases run_adds bcrypt r joining with hsame | ⟨referral, hadds⟩
  · rwa [hsame] at h
  · rw [hadds] at h
    exact h.of_append

theorem OneInviter.of_runs {joinings : List Joining}
    (h : OneInviter (joinings.foldl (Roster.run bcrypt) r).db.referrals) : OneInviter r.db.referrals := by
  induction joinings generalizing r with
  | nil => exact h
  | cons joining joinings ih => exact (ih h).of_run

theorem runs_fresh_iff (h : OneInviter r.db.referrals) (joinings : List Joining) :
    OneInviter (joinings.foldl (Roster.run bcrypt) r).db.referrals ↔ r.AllFresh bcrypt joinings := by
  induction joinings generalizing r with
  | nil => exact iff_of_true h trivial
  | cons joining joinings ih =>
    rw [List.foldl_cons, Roster.AllFresh, ← step_fresh_iff h joining]
    constructor
    · intro hrun
      have hstep : OneInviter (r.run bcrypt joining).db.referrals := hrun.of_runs
      exact ⟨hstep, (ih hstep).1 hrun⟩
    · rintro ⟨hstep, hfresh⟩
      exact (ih hstep).2 hfresh

/-- After any sign-ups and invitations a code belongs to one inviter, as it did
before, if and only if every code that was made up and saved was nobody's then. -/
theorem one_inviter_iff (bcrypt : BCrypt) {start : Roster} (hstart : OneInviter start.db.referrals)
    (joinings : List Joining) :
    Owned ((joinings.foldl (Roster.run bcrypt) start).db.accounts (joinings.foldl (Roster.run bcrypt) start).user_seq) ↔
      start.AllFresh bcrypt joinings := by
  rw [owned_iff]
  exact runs_fresh_iff hstart joinings

end

/-! ## Two admins -/

/-- An admin with this id and username. -/
def adminOf (id : Nat) (username : String) : User :=
  ⟨⟨⟨id, username⟩, username ++ "@example.com", "password", true⟩, none⟩

def twoAdmins : Roster := ⟨⟨[adminOf 1 "first", adminOf 2 "second"], [], [], [], 1⟩, 3⟩

theorem oneInviter_nil : OneInviter [] := by
  intro a ha
  cases ha

/-- An admin who is signed in invites a friend. -/
def invites (user_id generated : Nat) : Joining := .invite ⟨some user_id, none, none⟩ (some "friend@example.com") generated

/-- The friend signs up with the code. -/
def friendSignsUp : Joining := .signUp id 54321 SignUp.validForm (some "12345")

theorem one_inviter_friend :
    Owned (([invites 1 12345, friendSignsUp].foldl (Roster.run plain) twoAdmins).db.accounts
      ([invites 1 12345, friendSignsUp].foldl (Roster.run plain) twoAdmins).user_seq) := by
  refine (one_inviter_iff plain oneInviter_nil _).2 ⟨?_, trivial, trivial⟩
  intro user _ _ _ _ row hrow
  cases hrow

/-- Both admins draw the same code. -/
theorem one_code_two_inviters : ¬∀ (bcrypt : BCrypt) (start : Roster) (joinings : List Joining),
    OneInviter start.db.referrals →
      Owned ((joinings.foldl (Roster.run bcrypt) start).db.accounts
        (joinings.foldl (Roster.run bcrypt) start).user_seq) := by
  intro h
  have howned := h plain twoAdmins [invites 1 12345, invites 2 12345] oneInviter_nil
  have hfirst : (⟨1, some 12345, some "friend@example.com", some 1, none⟩ : SignUp.Referral) ∈
      ([invites 1 12345, invites 2 12345].foldl (Roster.run plain) twoAdmins).db.referrals := by decide +kernel
  have hsecond : (⟨2, some 12345, some "friend@example.com", some 2, none⟩ : SignUp.Referral) ∈
      ([invites 1 12345, invites 2 12345].foldl (Roster.run plain) twoAdmins).db.referrals := by decide +kernel
  have hsame := howned.one_inviter _ hfirst _ hsecond rfl
  cases hsame

end MyStockIQ.Sessions
