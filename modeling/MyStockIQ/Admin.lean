import MyStockIQ.Sessions
/-!
# What only an admin should do

`redirect_non_admin_user` guards the deletion of a user and the making of a
referral. It sends away who is signed in and no admin. Who is not signed in
goes through: a referral then fails on `nil`, and the deletion is done.
-/

open SharedStore Prog

namespace MyStockIQ.Sessions

/-- `redirect_non_admin_user`: whether the request ends here, sent to the root. -/
def Controller.redirectNonAdminUser (self : Controller) (bcrypt : BCrypt) : Request (Controller × Bool) := do
  let (self, found) ← self.currentUser bcrypt
  match found with
  | some _ =>
    let (self, found) ← self.currentUser bcrypt
    let user ← orNil found "admin?"
    return (self, !user.admin)
  | none => return (self, false)

def UsersController.destroy (self : Controller) (bcrypt : BCrypt) (username : String) : Request Reply := do
  let (_, redirected) ← self.redirectNonAdminUser bcrypt
  if redirected then return .root
  else
    let found ← select (.userNamed (some username)) (·.userNamed (some username))
    let user ← orNil found "destroy"
    write (.destroyUser user.id)
    return .users

/-- `user.referrals` -/
def Site.referralsOf (db : Site) (user_id : Nat) : List SignUp.Referral :=
  db.referrals.filter (·.inviter_id = some user_id)

/-- `create`, where `generated` is the code `generate_code` makes up. The mail to
`email` is left out. -/
def ReferralsController.create (self : Controller) (bcrypt : BCrypt) (email : Option String) (generated : Nat) :
    Request Reply := do
  let (self, redirected) ← self.redirectNonAdminUser bcrypt
  if redirected then return .root
  else
    let (_, found) ← self.currentUser bcrypt
    let user ← orNil found "referrals"
    let existing ← select (.referralsOf user.id) fun db => (db.referralsOf user.id).head?
    let referral_code := match existing with
      | some referral => referral.referral_code
      | none => some (generated : Int)
    let referral : SignUp.Referral := ⟨0, referral_code, email, some user.id, none⟩
    if referral.valid true then
      write (.insertReferral referral)
      return .ok
    else return .ok

/-- The requests for admins only. -/
inductive AdminRequest where
  | destroyUser (username : String)
  | createReferral (email : Option String) (generated : Nat)

def AdminRequest.run (bcrypt : BCrypt) (jar : Jar) (db : Site) : AdminRequest → Except SignUp.Error Reply × Site
  | destroyUser username => (UsersController.destroy ⟨jar, none⟩ bcrypt username).run Site.exec db
  | createReferral email generated => (ReferralsController.create ⟨jar, none⟩ bcrypt email generated).run Site.exec db

section
variable (bcrypt : BCrypt) (db : Site) (jar : Jar)

/-- Who is not signed in the first time is not the next time. -/
theorem run_currentUser_none {bcrypt : BCrypt} {db : Site} {jar : Jar} (h : db.currentUser bcrypt jar = none) :
    (Controller.currentUser ⟨jar, none⟩ bcrypt).run Site.exec db = (.ok (⟨jar, none⟩, none), db) := by
  obtain ⟨session, signed, token⟩ := jar
  cases session with
  | some id =>
    have hmissing : db.user id = none := h
    simp only [Controller.currentUser, select, bind_eq, query_bind, run_step, exec_select, hmissing]
    rfl
  | none =>
    cases signed with
    | none => rfl
    | some id =>
      simp only [Controller.currentUser, select, bind_eq, query_bind, run_step, exec_select]
      cases hfound : db.user id with
      | none => rfl
      | some user =>
        have hauth : ¬user.authenticated bcrypt token = true := by
          simpa [Site.currentUser, hfound, Option.filter] using h
        simp only [hauth]
        rfl

/-- The guard lets through who is not signed in. -/
theorem run_redirect_none {bcrypt : BCrypt} {db : Site} {jar : Jar} (h : db.currentUser bcrypt jar = none) :
    (Controller.redirectNonAdminUser ⟨jar, none⟩ bcrypt).run Site.exec db = (.ok (⟨jar, none⟩, false), db) := by
  unfold Controller.redirectNonAdminUser
  rw [bind_eq, run_bind_ok Site.exec (run_currentUser_none h)]
  rfl

/-- The guard redirects who is signed in and no admin, and keeps who it found. -/
theorem run_redirect_some {bcrypt : BCrypt} {db : Site} {jar : Jar} {user : User}
    (h : db.currentUser bcrypt jar = some user) : ∃ self : Controller,
    (Controller.redirectNonAdminUser ⟨jar, none⟩ bcrypt).run Site.exec db = (.ok (self, !user.admin), db) ∧
      self.session_user_id = some user.id ∧ self.current_user = some user := by
  obtain ⟨self, hrun, hself⟩ := run_currentUser bcrypt db jar
  obtain ⟨hsession, hcurrent⟩ := hself user h
  unfold Controller.redirectNonAdminUser
  rw [bind_eq, run_bind_ok Site.exec hrun, h]
  refine ⟨self, ?_, hsession, hcurrent⟩
  simp only [Controller.currentUser, hsession, hcurrent, bind_eq, ret_bind, orNil]
  rfl

/-- Nobody who is signed in and no admin changes anything. -/
theorem run_not_admin {bcrypt : BCrypt} {db : Site} {jar : Jar} {user : User}
    (h : db.currentUser bcrypt jar = some user) (hadmin : user.admin = false) (request : AdminRequest) :
    request.run bcrypt jar db = (.ok .root, db) := by
  obtain ⟨self, hrun, -⟩ := run_redirect_some h
  rw [hadmin] at hrun
  cases request with
  | destroyUser username => exact run_bind_ok Site.exec hrun _
  | createReferral email generated => exact run_bind_ok Site.exec hrun _

/-- Without a session or good cookies a referral fails on `nil`. -/
theorem run_createReferral_none {bcrypt : BCrypt} {db : Site} {jar : Jar} (h : db.currentUser bcrypt jar = none)
    (email : Option String) (generated : Nat) :
    (AdminRequest.createReferral email generated).run bcrypt jar db = (.error (.noMethodError "referrals"), db) := by
  refine (run_bind_ok Site.exec (run_redirect_none h) _).trans ?_
  simp only [Bool.false_eq_true, if_false, bind_eq]
  rw [run_bind_ok Site.exec (run_currentUser_none h)]
  rfl

/-- Without a session or good cookies a user is deleted all the same. -/
theorem run_destroyUser_none {bcrypt : BCrypt} {db : Site} {jar : Jar} (h : db.currentUser bcrypt jar = none)
    (username : String) :
    ((AdminRequest.destroyUser username).run bcrypt jar db).2 =
      match db.userNamed (some username) with
      | some user => db.exec (.destroyUser user.id)
      | none => db := by
  simp only [AdminRequest.run, UsersController.destroy]
  rw [bind_eq, run_bind_ok Site.exec (run_redirect_none h)]
  simp only [Bool.false_eq_true, if_false, select, write, bind_eq, query_bind, run_step, exec_select]
  cases db.userNamed (some username) with
  | none => rfl
  | some user => rfl

/-- A deletion takes a row away. -/
theorem destroyUser_ne {db : Site} {user : User} (h : user ∈ db.users) : db.exec (.destroyUser user.id) ≠ db := by
  intro heq
  have hkept : user ∈ (db.exec (.destroyUser user.id)).users := by rwa [heq]
  simp [Site.exec] at hkept

/-- The request changes the tables only if the current user is an admin. -/
def AdminOnly (bcrypt : BCrypt) (jar : Jar) (db : Site) (request : AdminRequest) : Prop :=
  (request.run bcrypt jar db).2 ≠ db → ∃ user, db.currentUser bcrypt jar = some user ∧ user.admin = true

/-- So it is for who is signed in. Who is not can delete any user there is. -/
theorem adminOnly_iff (request : AdminRequest) :
    AdminOnly bcrypt jar db request ↔ db.currentUser bcrypt jar ≠ none ∨
      ∀ username, request = .destroyUser username → db.userNamed (some username) = none := by
  unfold AdminOnly
  cases hcurrent : db.currentUser bcrypt jar with
  | some user =>
    cases hadmin : user.admin with
    | true => simp [hadmin]
    | false => simp [run_not_admin hcurrent hadmin request]
  | none =>
    cases request with
    | createReferral email generated => simp [run_createReferral_none hcurrent]
    | destroyUser username =>
      rw [run_destroyUser_none hcurrent]
      cases hfound : db.userNamed (some username) with
      | none => simp [hfound]
      | some user =>
        have hmem : user ∈ db.users := List.mem_of_find?_eq_some hfound
        simp [hfound, destroyUser_ne hmem]

end

/-- Without a session and without cookies, the one user is deleted by name. -/
theorem anyone_deletes : ¬∀ bcrypt jar db request, AdminOnly bcrypt jar db request := by
  intro h
  obtain ⟨user, huser, -⟩ := h plain ⟨none, none, none⟩ signedOut.db (.destroyUser "analyst") (by decide)
  cases huser

end MyStockIQ.Sessions
