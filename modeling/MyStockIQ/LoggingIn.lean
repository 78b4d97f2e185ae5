import MyStockIQ.Admin
import Mathlib.Data.List.TakeWhile
/-!
# Logging in with what one registered with

A user is saved with the username and the email downcased. `sessions#create`
downcases an email before it looks it up, but not a username. So the email one
registered with always works, and the username does if it was typed without
capital letters (`registered_logs_in_iff`).
-/

open SharedStore Prog

namespace MyStockIQ.Sessions

/-! ## Capital letters -/

/-- A capital letter goes 32 up, past the others. -/
theorem toLower_cases (c : Char) :
    c.toLower = c ∨ 65 ≤ c.toNat ∧ c.toNat ≤ 90 ∧ c.toLower.toNat = c.toNat + 32 := by
  unfold Char.toLower
  split
  · next h =>
    right
    have hlow : 65 ≤ c.val.toNat := UInt32.le_iff_toNat_le.1 h.1
    have hhigh : c.val.toNat ≤ 90 := UInt32.le_iff_toNat_le.1 h.2
    refine ⟨hlow, hhigh, ?_⟩
    show (c.val + 32).toNat = c.val.toNat + 32
    rw [UInt32.toNat_add]
    apply Nat.mod_eq_of_lt
    show c.val.toNat + 32 < 4294967296
    omega
  · exact .inl rfl

theorem char_toLower_toLower (c : Char) : c.toLower.toLower = c.toLower := by
  rcases toLower_cases c with h | ⟨hlow, -, h⟩
  · rw [h, h]
  · rcases toLower_cases c.toLower with h' | ⟨-, hhigh, -⟩
    · exact h'
    · omega

/-- Only an `@` is downcased to one. -/
theorem toLower_at (c : Char) : c.toLower = '@' ↔ c = '@' := by
  rcases toLower_cases c with h | ⟨hlow, -, h⟩
  · rw [h]
  · have hat : ('@' : Char).toNat = 64 := rfl
    constructor
    · intro heq
      rw [heq, hat] at h
      omega
    · rintro rfl
      rw [hat] at hlow
      omega

theorem toList_toLower (s : String) : s.toLower.toList = s.toList.map Char.toLower := by
  show (s.map Char.toLower).toList = _
  rw [String.toList_map]

theorem toLower_toLower (s : String) : s.toLower.toLower = s.toLower := by
  apply String.toList_injective
  rw [toList_toLower, toList_toLower, List.map_map]
  apply List.map_congr_left
  intro c _
  exact char_toLower_toLower c

theorem at_mem_toLower (s : String) : '@' ∈ s.toLower.toList ↔ '@' ∈ s.toList := by
  rw [toList_toLower, List.mem_map]
  constructor
  · rintro ⟨c, hc, hat⟩
    rwa [(toLower_at c).1 hat] at hc
  · intro h
    exact ⟨'@', h, rfl⟩

/-! ## Validations -/

theorem at_not_mem_username {username : String} (h : SignUp.usernameFormat username = true) : '@' ∉ username.toList := by
  intro hat
  simp only [SignUp.usernameFormat, Bool.and_eq_true, List.all_eq_true] at h
  exact absurd (h.2 '@' hat) (by decide)

theorem at_mem_email {email : String} (h : SignUp.emailFormat email = true) : '@' ∈ email.toList := by
  by_contra hat
  have hall : email.toList.dropWhile (fun c => !decide (c = '@')) = [] := by
    apply List.dropWhile_eq_nil_iff.2
    intro c hc
    simp only [Bool.not_eq_true', decide_eq_false_iff_not]
    rintro rfl
    exact hat hc
  simp [SignUp.emailFormat, hall] at h

theorem messageIf_nil {condition : Bool} {message : String} : messageIf condition message = [] ↔ condition = false := by
  cases condition <;> simp [messageIf]

theorem usernameErrors_format {username : String} {taken : Bool} (h : SignUp.usernameErrors username taken = []) :
    SignUp.usernameFormat username = true := by
  simp only [SignUp.usernameErrors, List.append_eq_nil_iff, messageIf_nil] at h
  simpa using h.1.2

theorem emailErrors_format {email : String} {taken : Bool} (h : SignUp.emailErrors email taken = []) :
    SignUp.emailFormat email = true := by
  simp only [SignUp.emailErrors, List.append_eq_nil_iff, messageIf_nil] at h
  simpa using h.1.2

/-! ## Saving a user -/

/-- The row a new user becomes. -/
def newRow (user : SignUp.NewUser) (digest : String → String) (id : Nat) : SignUp.User where
  id := id
  username := (user.params.username.getD "").toLower
  email := (user.params.email.getD "").toLower
  password_digest := digest (user.params.password.getD "")
  admin := user.admin

/-- A new user that passes the validations and the indexes. -/
structure Acceptable (user : SignUp.NewUser) (db : SignUp.Accounts) : Prop where
  username : SignUp.usernameFormat (user.params.username.getD "") = true
  email : SignUp.emailFormat (user.params.email.getD "") = true
  free : ∀ other ∈ db.users, other.username ≠ (user.params.username.getD "").toLower ∧
    other.email ≠ (user.params.email.getD "").toLower

/-- A new user is saved as one row with the next id, or nothing is. -/
theorem run_save (user : SignUp.NewUser) (digest : String → String) (db : SignUp.Accounts) :
    (∃ result, (user.save digest).run SignUp.Accounts.exec db = (result, db) ∧ ∀ id, result ≠ .ok (some id)) ∨
      Acceptable user db ∧ (user.save digest).run SignUp.Accounts.exec db = (.ok (some db.user_seq),
        { db with users := db.users ++ [newRow user digest db.user_seq], user_seq := db.user_seq + 1 }) := by
  have herrors : user.errors.run SignUp.Accounts.exec db = (.ok _, db) := rfl
  unfold SignUp.NewUser.save
  rw [bind_eq, run_bind_ok SignUp.Accounts.exec herrors]
  split
  · next hnil =>
    simp only [List.append_eq_nil_iff] at hnil
    obtain ⟨⟨⟨hname, hmail⟩, -⟩, -⟩ := hnil
    have hrun : (Prog.step (.insertUser (newRow user digest 0)) fun db =>
        if db.indexed (newRow user digest 0) then .raise .recordNotUnique else .ret (some db.user_seq) :
          SignUp.Request (Option Nat)).run SignUp.Accounts.exec db =
        (if db.indexed (newRow user digest 0) then .raise .recordNotUnique else .ret (some db.user_seq) :
          SignUp.Request (Option Nat)).run SignUp.Accounts.exec (db.exec (.insertUser (newRow user digest 0))) := rfl
    by_cases hindexed : db.indexed (newRow user digest 0) = true
    · have hstays : db.exec (.insertUser (newRow user digest 0)) = db := if_pos hindexed
      refine .inl ⟨.error .recordNotUnique, ?_, by simp⟩
      refine hrun.trans ?_
      rw [hstays, if_pos hindexed]
      rfl
    · refine .inr ⟨⟨usernameErrors_format hname, emailErrors_format hmail, ?_⟩, ?_⟩
      · intro other hother
        simp only [SignUp.Accounts.indexed, List.any_eq_true, decide_eq_true_eq, not_exists, not_and, not_or] at hindexed
        exact hindexed other hother
      · refine hrun.trans ?_
        rw [if_neg hindexed, run_ret]
        exact congrArg _ (if_neg hindexed)
  · exact .inl ⟨_, rfl, by simp⟩

/-! ## `UserSettingsController` -/

/-- The full messages after `valid?` on the row of a user, with a new email. The password is not assigned. -/
def User.errors (self : User) (email : Option String) : Request (List String) := do
  let username_taken ← select (.userNamed (some self.username)) fun db =>
    db.users.any fun user => user.id ≠ self.id ∧ self.username.toLower = user.username.toLower
  let email_taken ← select (.userMailed (email.getD "")) fun db =>
    db.users.any fun user => user.id ≠ self.id ∧ email.any (·.toLower = user.email.toLower)
  return SignUp.usernameErrors self.username username_taken ++ SignUp.emailErrors (email.getD "") email_taken ++
    SignUp.adminErrors self.admin

/-- `update`, of which the email is kept here. It answers with the id of the user, if the user was saved. -/
def UserSettingsController.update (self : Controller) (bcrypt : BCrypt) (email : Option String) :
    Request (Controller × Option Nat) := do
  let (self, found) ← self.currentUser bcrypt
  let user ← orNil found "email="
  let errors ← user.errors email
  match errors with
  | [] =>
    let username := user.username.toLower
    let email := (email.getD "").toLower
    .step (.updateUser user.id username email user.remember_digest) fun db =>
      if db.taken user.id username email then .raise .recordNotUnique else .ret (self, some user.id)
  | _ => return (self, none)

/-! ## Registered users -/

/-- What a row of `users` was last saved with, as it was typed. -/
structure Credentials where
  username : String
  email : String
  password : String

/-- The site and its browsers, the sequence of the ids of users, and what was typed for each user. -/
structure Registry (B : Type) where
  world : World B
  user_seq : Nat
  typed : Nat → Option Credentials

/-- What saves a user, changes one, or signs one in. -/
inductive Deed (B : Type) where
  | save (user : SignUp.NewUser) (salt : String)
  | settings (browser : B) (email : Option String)
  | admin (browser : B) (request : AdminRequest)
  | visit (visit : Visit B)

/-- The tables of a sign-up. -/
def Site.accounts (db : Site) (user_seq : Nat) : SignUp.Accounts :=
  ⟨db.users.map (·.toSignUpUser), db.referrals, user_seq, db.referral_seq⟩

/-- The users after a sign-up. A new one has no token. -/
def Site.withAccounts (db : Site) (accounts : SignUp.Accounts) : Site :=
  { db with users := db.users ++ (accounts.users.drop db.users.length).map fun row => ⟨row, none⟩ }

section
variable {B : Type} [DecidableEq B]

def Registry.save (bcrypt : BCrypt) (r : Registry B) (user : SignUp.NewUser) (salt : String) : Registry B :=
  match (user.save (bcrypt.create salt)).run SignUp.Accounts.exec (r.world.db.accounts r.user_seq) with
  | (.ok (some id), accounts) =>
    { world := { r.world with db := r.world.db.withAccounts accounts }
      user_seq := accounts.user_seq
      typed := Function.update r.typed id
        (some ⟨user.params.username.getD "", user.params.email.getD "", user.params.password.getD ""⟩) }
  | _ => r

/-- The tables and the jar after a request of a browser. -/
def World.after {α : Type} (w : World B) (browser : B) (jar : α → Jar) (outcome : Except SignUp.Error α × Site) : World B :=
  w.answer browser (fun _ => []) jar outcome

def Registry.settings (bcrypt : BCrypt) (r : Registry B) (browser : B) (email : Option String) : Registry B :=
  let outcome := (UserSettingsController.update ⟨r.world.jars browser, none⟩ bcrypt email).run Site.exec r.world.db
  { r with
    world := r.world.after browser (·.1.toJar) outcome
    typed := match outcome.1 with
      | .ok (_, some id) =>
        Function.update r.typed id ((r.typed id).map fun credentials => { credentials with email := email.getD "" })
      | _ => r.typed }

def Registry.run (bcrypt : BCrypt) (r : Registry B) : Deed B → Registry B
  | .save user salt => r.save bcrypt user salt
  | .settings browser email => r.settings bcrypt browser email
  | .admin browser request => { r with world.db := (request.run bcrypt (r.world.jars browser) r.world.db).2 }
  | .visit visit => { r with world := r.world.visit bcrypt visit }

end

/-! ## The rows of `users` -/

/-- The row is what was typed, downcased. -/
structure Row (bcrypt : BCrypt) (credentials : Credentials) (user : User) : Prop where
  username : user.username = credentials.username.toLower
  email : user.email = credentials.email.toLower
  password : ∃ salt, user.password_digest = bcrypt.create salt credentials.password
  username_format : SignUp.usernameFormat credentials.username = true
  email_format : SignUp.emailFormat credentials.email = true

/-- Each user has an id, a username and an email of its own, and is what was typed for it. -/
structure Kept (bcrypt : BCrypt) (users : List User) (user_seq : Nat) (typed : Nat → Option Credentials) : Prop where
  ids : users.Pairwise fun a b => a.id ≠ b.id
  usernames : users.Pairwise fun a b => a.username ≠ b.username
  emails : users.Pairwise fun a b => a.email ≠ b.email
  fresh : ∀ user ∈ users, user.id < user_seq
  rows : ∀ user ∈ users, ∃ credentials, typed user.id = some credentials ∧ Row bcrypt credentials user

section
variable {bcrypt : BCrypt} {users : List User} {user_seq : Nat} {typed : Nat → Option Credentials} {user : User}

theorem Row.lower {credentials : Credentials} (h : Row bcrypt credentials user) :
    user.username.toLower = user.username ∧ user.email.toLower = user.email := by
  rw [h.username, h.email]
  exact ⟨toLower_toLower _, toLower_toLower _⟩

theorem Kept.lower (h : Kept bcrypt users user_seq typed) (hmem : user ∈ users) :
    user.username.toLower = user.username ∧ user.email.toLower = user.email := by
  obtain ⟨credentials, -, hrow⟩ := h.rows user hmem
  exact hrow.lower

theorem Kept.eq_of_id (h : Kept bcrypt users user_seq typed) {other : User} (hmem : user ∈ users)
    (hother : other ∈ users) (hid : other.id = user.id) : other = user := by
  have hkeys : UniqueKeys (fun user : User => user.id) users := h.ids
  exact hkeys.eq hother hmem hid

/-- Fewer users. -/
theorem Kept.sublist (h : Kept bcrypt users user_seq typed) {users' : List User} (hsub : users'.Sublist users) :
    Kept bcrypt users' user_seq typed where
  ids := h.ids.sublist hsub
  usernames := h.usernames.sublist hsub
  emails := h.emails.sublist hsub
  fresh user hmem := h.fresh user (hsub.subset hmem)
  rows user hmem := h.rows user (hsub.subset hmem)

theorem pairwise_snoc {R : User → User → Prop} (h : users.Pairwise R) (hlast : ∀ other ∈ users, R other user) :
    (users ++ [user]).Pairwise R := by
  refine List.pairwise_append.2 ⟨h, List.pairwise_singleton _ _, ?_⟩
  intro a ha b hb
  rw [List.mem_singleton.1 hb]
  exact hlast a ha

/-- One more user, with a username and an email of its own. -/
theorem Kept.append (h : Kept bcrypt users user_seq typed) {credentials : Credentials}
    (hrow : Row bcrypt credentials user) (hid : user.id = user_seq)
    (hfree : ∀ other ∈ users, other.username ≠ user.username ∧ other.email ≠ user.email) :
    Kept bcrypt (users ++ [user]) (user_seq + 1) (Function.update typed user_seq (some credentials)) := by
  refine ⟨pairwise_snoc h.ids ?_, pairwise_snoc h.usernames fun other hother => (hfree other hother).1,
    pairwise_snoc h.emails fun other hother => (hfree other hother).2, ?_, ?_⟩
  · intro other hother
    rw [hid]
    exact (h.fresh other hother).ne
  · intro other hother
    rcases List.mem_append.1 hother with hold | hnew
    · exact Nat.lt_succ_of_lt (h.fresh other hold)
    · rw [List.mem_singleton.1 hnew, hid]
      exact Nat.lt_succ_self _
  · intro other hother
    rcases List.mem_append.1 hother with hold | hnew
    · have hne : other.id ≠ user_seq := (h.fresh other hold).ne
      obtain ⟨typed', htyped, hrow'⟩ := h.rows other hold
      exact ⟨typed', by rw [Function.update_of_ne hne, htyped], hrow'⟩
    · rw [List.mem_singleton.1 hnew, hid, Function.update_self]
      exact ⟨credentials, rfl, hrow⟩

/-- The row of one user is set anew, to a username and an email no other has. -/
theorem Kept.set (h : Kept bcrypt users user_seq typed) {credentials : Credentials} {set : User → User}
    (hmem : user ∈ users) (hid : ∀ row, (set row).id = row.id) (hrow : Row bcrypt credentials (set user))
    (hfree : ∀ other ∈ users, other.id ≠ user.id →
      other.username ≠ (set user).username ∧ other.email ≠ (set user).email) :
    Kept bcrypt (users.map fun row => if row.id = user.id then set row else row) user_seq
      (Function.update typed user.id (some credentials)) := by
  have hcases : ∀ row ∈ users, (row = user ∧ (if row.id = user.id then set row else row) = set user) ∨
      (row.id ≠ user.id ∧ (if row.id = user.id then set row else row) = row) := by
    intro row hmem'
    by_cases heq : row.id = user.id
    · have hsame := h.eq_of_id hmem hmem' heq
      exact .inl ⟨hsame, by rw [if_pos heq, hsame]⟩
    · exact .inr ⟨heq, if_neg heq⟩
  -- What tells the rows apart still does: only one of two rows can be the one that is set.
  have hapart {κ : Type} {key : User → κ} (hkeys : users.Pairwise fun a b => key a ≠ key b)
      (hset : ∀ other ∈ users, other.id ≠ user.id → key other ≠ key (set user)) :
      (users.map fun row => if row.id = user.id then set row else row).Pairwise fun a b => key a ≠ key b := by
    refine List.pairwise_map.2 ((hkeys.and h.ids).imp_of_mem ?_)
    rintro a b ha hb ⟨hkey, hids⟩
    rcases hcases a ha with ⟨hsame, heq⟩ | ⟨hne, heq⟩ <;> rcases hcases b hb with ⟨hsame', heq'⟩ | ⟨hne', heq'⟩ <;>
      rw [heq, heq']
    · exact absurd (by rw [hsame, hsame']) hids
    · exact (hset b hb hne').symm
    · exact hset a ha hne
    · exact hkey
  refine ⟨hapart h.ids ?_, hapart h.usernames fun other hother hne => (hfree other hother hne).1,
    hapart h.emails fun other hother hne => (hfree other hother hne).2, ?_, ?_⟩
  · intro other _ hne
    rwa [hid]
  · intro row hrow'
    obtain ⟨old, hold, rfl⟩ := List.mem_map.1 hrow'
    rcases hcases old hold with ⟨-, heq⟩ | ⟨-, heq⟩ <;> rw [heq]
    · rw [hid]
      exact h.fresh user hmem
    · exact h.fresh old hold
  · intro row hrow'
    obtain ⟨old, hold, rfl⟩ := List.mem_map.1 hrow'
    rcases hcases old hold with ⟨-, heq⟩ | ⟨hne, heq⟩ <;> rw [heq]
    · rw [hid, Function.update_self]
      exact ⟨credentials, rfl, hrow⟩
    · rw [Function.update_of_ne hne]
      exact h.rows old hold

end

/-! ## Requests -/

section
variable {bcrypt : BCrypt} {db : Site} {user_seq : Nat} {typed : Nat → Option Credentials} {user : User}

/-- An `UPDATE` of a user, to an email that is downcased. -/
theorem Kept.updateUser (h : Kept bcrypt db.users user_seq typed) (hmem : user ∈ db.users) {credentials : Credentials}
    (htyped : typed user.id = some credentials) {email : String} (hformat : SignUp.emailFormat email = true)
    (hfree : db.taken user.id user.username.toLower email.toLower = false) (remember_digest : Option String) :
    Kept bcrypt (db.exec (.updateUser user.id user.username.toLower email.toLower remember_digest)).users user_seq
      (Function.update typed user.id (some { credentials with email := email })) := by
  obtain ⟨credentials', htyped', hrow⟩ := h.rows user hmem
  obtain rfl : credentials = credentials' := Option.some.inj (htyped.symm.trans htyped')
  let set (row : User) : User :=
    { row with username := user.username.toLower, email := email.toLower, remember_digest := remember_digest }
  have hset : Row bcrypt { credentials with email := email } (set user) := by
    refine ⟨?_, rfl, hrow.password, hrow.username_format, hformat⟩
    show user.username.toLower = credentials.username.toLower
    rw [hrow.lower.1, hrow.username]
  have hexec : db.exec (.updateUser user.id user.username.toLower email.toLower remember_digest) =
      { db with users := db.users.map fun row => if row.id = user.id then set row else row } := by
    simp only [Site.exec, hfree, Bool.false_eq_true, if_false]
    rfl
  rw [hexec]
  refine h.set hmem (fun _ => rfl) hset ?_
  intro other hother hne
  simp only [Site.taken, List.any_eq_false, decide_eq_true_eq, not_and, not_or] at hfree
  exact hfree other hother hne

/-- A user is saved with a new token, or without one. -/
theorem Kept.saved (h : Kept bcrypt db.users user_seq typed) (hmem : user ∈ db.users)
    (hfree : db.taken user.id user.username.toLower user.email.toLower = false) (remember_digest : Option String) :
    Kept bcrypt (db.saved user remember_digest).users user_seq typed := by
  obtain ⟨credentials, htyped, hrow⟩ := h.rows user hmem
  have hemail : user.email.toLower = credentials.email.toLower := by rw [hrow.lower.2, hrow.email]
  rw [hemail] at hfree
  have hkept := h.updateUser hmem htyped hrow.email_format hfree remember_digest
  rw [← hemail] at hkept
  have hsame : Function.update typed user.id (some credentials) = typed := by
    rw [← htyped]
    exact Function.update_eq_self _ _
  rwa [hsame] at hkept

variable {B : Type} [DecidableEq B]

theorem answer_db {α : Type} (w : World B) (browser : B) (events : α → List Event) (jar : α → Jar)
    (outcome : Except SignUp.Error α × Site) : (w.answer browser events jar outcome).db = outcome.2 := by
  unfold World.answer
  split <;> rfl

theorem Kept.visit {w : World B} (h : Kept bcrypt w.db.users user_seq typed) (visit : Visit B) :
    Kept bcrypt (w.visit bcrypt visit).db.users user_seq typed := by
  cases visit with
  | login browser email password remember_token salt =>
    rw [World.visit, answer_db]
    rcases run_login bcrypt w.db (w.jars browser) email password remember_token salt with
      ⟨result, hrun, -⟩ | ⟨user, self, hmem, hfree, -, hrun⟩ <;> rw [hrun]
    · exact h
    · exact h.saved hmem hfree _
  | logout browser =>
    rw [World.visit, answer_db]
    rcases run_logout bcrypt w.db (w.jars browser) with ⟨result, hrun, -⟩ | ⟨user, self, hfound, hfree, hrun⟩ <;>
      rw [hrun]
    · exact h
    · exact h.saved (currentUser_mem hfound) hfree _
  | page browser =>
    obtain ⟨self, hrun, -⟩ := run_currentUser bcrypt w.db (w.jars browser)
    rw [World.visit, answer_db, hrun]
    exact h
  | close browser => exact h

/-- What an admin's request does to the users: it may delete some. -/
def Stmt.Deletes : Stmt → Prop
  | .updateUser _ _ _ _ => False
  | _ => True

theorem users_sublist {stmt : Stmt} (h : stmt.Deletes) (db : Site) : (db.exec stmt).users.Sublist db.users := by
  cases stmt with
  | updateUser id username email remember_digest => exact h.elim
  | destroyUser id => exact List.filter_sublist
  | _ => exact List.Sublist.refl _

theorem deletes_currentUser (self : Controller) : (self.currentUser bcrypt).Only Stmt.Deletes := by
  unfold Controller.currentUser
  split
  · split
    · trivial
    · exact .bind ((only_query _ _).2 trivial) fun _ => trivial
  · refine .bind ((only_query _ _).2 trivial) fun found => ?_
    split
    · split <;> trivial
    · trivial
  · trivial

theorem deletes_orNil {α : Type} (value : Option α) (method : String) : (orNil value method).Only Stmt.Deletes := by
  cases value <;> trivial

theorem deletes_redirect (self : Controller) : (self.redirectNonAdminUser bcrypt).Only Stmt.Deletes := by
  refine .bind (deletes_currentUser self) fun ⟨self, found⟩ => ?_
  cases found with
  | none => trivial
  | some user => exact .bind (deletes_currentUser self) fun _ => .bind (deletes_orNil _ _) fun _ => trivial

theorem Kept.admin (h : Kept bcrypt db.users user_seq typed) (jar : Jar) (request : AdminRequest) :
    Kept bcrypt (request.run bcrypt jar db).2.users user_seq typed := by
  have hkept {α : Type} {p : Request α} (hp : p.Only Stmt.Deletes) :
      Kept bcrypt (p.run Site.exec db).2.users user_seq typed :=
    hp.run_inv (I := fun db => Kept bcrypt db.users user_seq typed) (fun db _ hs h => h.sublist (users_sublist hs db)) h
  cases request with
  | destroyUser username =>
    refine hkept (.bind (deletes_redirect _) fun ⟨_, redirected⟩ => ?_)
    cases redirected with
    | true => trivial
    | false =>
      exact .bind ((only_query _ _).2 trivial) fun _ => .bind (deletes_orNil _ _) fun _ =>
        .bind ((only_exec _).2 trivial) fun _ => trivial
  | createReferral email generated =>
    have hsave (referral : SignUp.Referral) : (if referral.valid true then do
        write (.insertReferral referral)
        return .ok
      else return .ok : Request Reply).Only Stmt.Deletes := by
      split
      · exact .bind ((only_exec _).2 trivial) fun _ => trivial
      · trivial
    refine hkept (.bind (deletes_redirect _) fun ⟨self, redirected⟩ => ?_)
    cases redirected with
    | true => trivial
    | false =>
      exact .bind (deletes_currentUser self) fun _ => .bind (deletes_orNil _ _) fun _ =>
        .bind ((only_query _ _).2 trivial) fun _ => hsave _

/-- The settings save the user who is signed in, with the new email, or nothing. -/
theorem run_settings (bcrypt : BCrypt) (db : Site) (jar : Jar) (email : Option String) :
    (∃ result, (UserSettingsController.update ⟨jar, none⟩ bcrypt email).run Site.exec db = (result, db) ∧
      ∀ self id, result ≠ .ok (self, some id)) ∨
    ∃ user self, user ∈ db.users ∧ SignUp.emailFormat (email.getD "") = true ∧
      db.taken user.id user.username.toLower (email.getD "").toLower = false ∧
      (UserSettingsController.update ⟨jar, none⟩ bcrypt email).run Site.exec db = (.ok (self, some user.id),
        db.exec (.updateUser user.id user.username.toLower (email.getD "").toLower user.remember_digest)) := by
  obtain ⟨self, hrun, -⟩ := run_currentUser bcrypt db jar
  unfold UserSettingsController.update
  rw [bind_eq, run_bind_ok Site.exec hrun]
  cases hfound : db.currentUser bcrypt jar with
  | none => exact .inl ⟨_, rfl, by simp⟩
  | some user =>
    simp only [orNil, bind_eq, ret_bind]
    have herrors : (user.errors email).run Site.exec db = (.ok _, db) := rfl
    rw [run_bind_ok Site.exec herrors]
    split
    · next hnil =>
      simp only [List.append_eq_nil_iff] at hnil
      cases htaken : db.taken user.id user.username.toLower (email.getD "").toLower with
      | true =>
        refine .inl ⟨.error .recordNotUnique, ?_, by simp⟩
        simp [htaken, Site.exec]
      | false =>
        refine .inr ⟨user, self, currentUser_mem hfound, emailErrors_format hnil.1.2, htaken, ?_⟩
        rw [run_step, htaken]
        rfl
    · exact .inl ⟨_, rfl, by simp⟩

theorem Kept.settings {r : Registry B} (h : Kept bcrypt r.world.db.users r.user_seq r.typed) (browser : B)
    (email : Option String) :
    Kept bcrypt (r.settings bcrypt browser email).world.db.users r.user_seq (r.settings bcrypt browser email).typed := by
  simp only [Registry.settings, World.after, answer_db]
  rcases run_settings bcrypt r.world.db (r.world.jars browser) email with
    ⟨result, hrun, hnone⟩ | ⟨user, self, hmem, hformat, hfree, hrun⟩ <;> rw [hrun]
  · dsimp only
    split
    · next self id => exact absurd rfl (hnone self id)
    · exact h
  · obtain ⟨credentials, htyped, -⟩ := h.rows user hmem
    have hkept := h.updateUser hmem htyped hformat hfree user.remember_digest
    dsimp only
    rwa [htyped, Option.map_some]

omit [DecidableEq B] in
theorem Kept.save {r : Registry B} (h : Kept bcrypt r.world.db.users r.user_seq r.typed) (user : SignUp.NewUser)
    (salt : String) : Kept bcrypt (r.save bcrypt user salt).world.db.users (r.save bcrypt user salt).user_seq
      (r.save bcrypt user salt).typed := by
  unfold Registry.save
  rcases run_save user (bcrypt.create salt) (r.world.db.accounts r.user_seq) with
    ⟨result, hrun, hnone⟩ | ⟨hacceptable, hrun⟩ <;> rw [hrun]
  · split
    · next id accounts heq => exact absurd (congrArg Prod.fst heq) (hnone id)
    · exact h
  · let row : User := ⟨newRow user (bcrypt.create salt) r.user_seq, none⟩
    have husers : (r.world.db.withAccounts
        { r.world.db.accounts r.user_seq with
          users := (r.world.db.accounts r.user_seq).users ++ [newRow user (bcrypt.create salt) r.user_seq]
          user_seq := r.user_seq + 1 }).users = r.world.db.users ++ [row] := by
      simp [Site.withAccounts, Site.accounts, row]
    have hrow : Row bcrypt ⟨user.params.username.getD "", user.params.email.getD "", user.params.password.getD ""⟩ row :=
      ⟨rfl, rfl, ⟨salt, rfl⟩, hacceptable.username, hacceptable.email⟩
    have hkept := h.append hrow rfl fun other hother =>
      hacceptable.free other.toSignUpUser (List.mem_map_of_mem hother)
    dsimp only
    rw [← husers] at hkept
    exact hkept

theorem Kept.run {r : Registry B} (h : Kept bcrypt r.world.db.users r.user_seq r.typed) (deed : Deed B) :
    Kept bcrypt (r.run bcrypt deed).world.db.users (r.run bcrypt deed).user_seq (r.run bcrypt deed).typed := by
  cases deed with
  | save user salt =>
    rw [Registry.run]
    exact h.save user salt
  | settings browser email =>
    rw [Registry.run]
    exact h.settings browser email
  | admin browser request => exact h.admin (r.world.jars browser) request
  | visit visit => exact h.visit visit

theorem Kept.runs {r : Registry B} (h : Kept bcrypt r.world.db.users r.user_seq r.typed) (deeds : List (Deed B)) :
    Kept bcrypt (deeds.foldl (Registry.run bcrypt) r).world.db.users (deeds.foldl (Registry.run bcrypt) r).user_seq
      (deeds.foldl (Registry.run bcrypt) r).typed := by
  induction deeds generalizing r with
  | nil => exact h
  | cons deed deeds ih => exact ih (h.run deed)

/-! ## Logging in -/

/-- The form signs in this user. -/
def SignsIn (bcrypt : BCrypt) (db : Site) (jar : Jar) (remember_token salt identifier password : String) (user_id : Nat) :
    Prop :=
  ∃ answer db', (SessionsController.create ⟨jar, none⟩ bcrypt (some identifier) (some password) remember_token salt).run
    Site.exec db = (.ok answer, db') ∧ signedIn answer = some user_id

theorem signsIn_of_named (jar : Jar) (remember_token salt : String) {identifier password : String}
    (hnamed : (namedUser identifier).run Site.exec db = (.ok (some user), db))
    (hpassword : bcrypt.isPassword user.password_digest password = true)
    (hfree : db.taken user.id user.username.toLower user.email.toLower = false) :
    SignsIn bcrypt db jar remember_token salt identifier password user.id := by
  let self : Controller :=
    { Controller.logIn ⟨jar, none⟩ user with signed_user_id := some user.id, remember_token := some remember_token }
  refine ⟨(self, .feed), db.saved user (some (bcrypt.create salt remember_token)), ?_, rfl⟩
  unfold SessionsController.create
  simp only [orNil, bind_eq, ret_bind]
  rw [run_bind_ok Site.exec hnamed]
  simp only [Option.getD_some, hpassword, if_true, Controller.remember, User.remember, User.save, bind_eq, step_bind,
    run_step, hfree, Bool.false_eq_true, if_false, ret_bind, pure_eq, run_ret]
  rfl

theorem not_signsIn_of_none (jar : Jar) (remember_token salt : String) {identifier : String}
    (hnamed : (namedUser identifier).run Site.exec db = (.ok none, db)) (password : String) (user_id : Nat) :
    ¬SignsIn bcrypt db jar remember_token salt identifier password user_id := by
  rintro ⟨answer, db', hrun, hsigned⟩
  unfold SessionsController.create at hrun
  simp only [orNil, bind_eq, ret_bind] at hrun
  rw [run_bind_ok Site.exec hnamed] at hrun
  obtain ⟨hanswer, -⟩ := Prod.mk.inj hrun
  obtain rfl := Except.ok.inj hanswer
  cases hsigned

theorem Kept.free (h : Kept bcrypt db.users user_seq typed) (hmem : user ∈ db.users) :
    db.taken user.id user.username.toLower user.email.toLower = false := by
  obtain ⟨hname, hmail⟩ := h.lower hmem
  rw [hname, hmail]
  apply List.any_eq_false.2
  intro other hother
  simp only [decide_eq_true_eq]
  rintro ⟨hne, heq | heq⟩
  · have hkeys : UniqueKeys (fun user : User => user.username) db.users := h.usernames
    exact hne (by rw [hkeys.eq hother hmem heq])
  · have hkeys : UniqueKeys (fun user : User => user.email) db.users := h.emails
    exact hne (by rw [hkeys.eq hother hmem heq])

/-- By email one finds the user. -/
theorem Kept.named_email (h : Kept bcrypt db.users user_seq typed) (hmem : user ∈ db.users) {credentials : Credentials}
    (hrow : Row bcrypt credentials user) :
    (namedUser credentials.email).run Site.exec db = (.ok (some user), db) := by
  have hat : credentials.email.toLower.toList.contains '@' = true := by
    rw [List.contains_iff_mem, at_mem_toLower]
    exact at_mem_email hrow.email_format
  have hfound : db.userMailed credentials.email.toLower = some user := by
    rw [← hrow.email]
    have hkeys : UniqueKeys (fun user : User => user.email) db.users := h.emails
    exact hkeys.lookup_eq hmem
  unfold namedUser
  rw [if_pos hat]
  exact congrArg (fun found => (Except.ok found, db)) hfound

/-- By username one finds the user, if it has no capital letters, and otherwise nobody. -/
theorem Kept.named_username (h : Kept bcrypt db.users user_seq typed) (hmem : user ∈ db.users)
    {credentials : Credentials} (hrow : Row bcrypt credentials user) :
    (namedUser credentials.username).run Site.exec db =
      (.ok (if credentials.username.toLower = credentials.username then some user else none), db) := by
  have hat : ¬credentials.username.toLower.toList.contains '@' = true := by
    rw [List.contains_iff_mem, at_mem_toLower]
    exact at_not_mem_username hrow.username_format
  have hfound : db.userNamed (some credentials.username) =
      if credentials.username.toLower = credentials.username then some user else none := by
    split
    · next hlower =>
      have hkeys : UniqueKeys (fun user : User => user.username) db.users := h.usernames
      have hkey := hkeys.lookup_eq hmem
      rw [hrow.username, hlower] at hkey
      simpa [Site.userNamed, lookup] using hkey
    · next hcapital =>
      apply List.find?_eq_none.2
      intro other hother
      simp only [Option.some.injEq, decide_eq_true_eq]
      intro heq
      have hlower := (h.lower hother).1
      rw [heq] at hlower
      exact hcapital hlower
  unfold namedUser
  rw [if_neg hat]
  exact congrArg (fun found => (Except.ok found, db)) hfound

/-- In whatever order users are saved, change their email, are deleted and log in and out, the
username and the email of a user, as they were typed, sign in that user with the password, if
and only if the username was typed without capital letters. -/
theorem registered_logs_in_iff (bcrypt : BCrypt) {start : Registry B} (hstart : start.world.db.users = [])
    (deeds : List (Deed B)) {user : User} (hmem : user ∈ (deeds.foldl (Registry.run bcrypt) start).world.db.users)
    {credentials : Credentials} (htyped : (deeds.foldl (Registry.run bcrypt) start).typed user.id = some credentials)
    (jar : Jar) (remember_token salt : String) :
    (∀ identifier, identifier = credentials.username ∨ identifier = credentials.email →
      SignsIn bcrypt (deeds.foldl (Registry.run bcrypt) start).world.db jar remember_token salt identifier
        credentials.password user.id) ↔
      credentials.username.toLower = credentials.username := by
  have hempty : Kept bcrypt start.world.db.users start.user_seq start.typed := by
    rw [hstart]
    exact ⟨.nil, .nil, .nil, by simp, by simp⟩
  have hkept := hempty.runs deeds
  obtain ⟨credentials', htyped', hrow⟩ := hkept.rows user hmem
  obtain rfl : credentials = credentials' := Option.some.inj (htyped.symm.trans htyped')
  have hpassword : bcrypt.isPassword user.password_digest credentials.password = true := by
    obtain ⟨salt', hdigest⟩ := hrow.password
    rw [hdigest]
    exact (bcrypt.accepts salt' _ _).2 rfl
  have hname := hkept.named_username hmem hrow
  constructor
  · intro h
    by_contra hcapital
    rw [if_neg hcapital] at hname
    exact not_signsIn_of_none jar remember_token salt hname _ _ (h credentials.username (.inl rfl))
  · rintro hlower identifier (rfl | rfl)
    · rw [if_pos hlower] at hname
      exact signsIn_of_named jar remember_token salt hname hpassword (hkept.free hmem)
    · exact signsIn_of_named jar remember_token salt (hkept.named_email hmem hrow) hpassword (hkept.free hmem)

end

/-! ## A username with capitals -/

def noUsers : Registry Bool := ⟨⟨⟨[], [], [], [], 1⟩, fun _ => ⟨none, none, none⟩, []⟩, 1, fun _ => none⟩

/-- An admin with this username. -/
def adminNamed (username : String) : SignUp.NewUser :=
  ⟨⟨some username, some "Dylan@Example.com", some "password", some "password"⟩, true⟩

def saveOf (username : String) : List (Deed Bool) := [.save (adminNamed username) ""]

/-- The row of the admin. -/
def rowOf (username : String) : User := ⟨⟨⟨1, username⟩, "dylan@example.com", "password", true⟩, none⟩

def typedFor (username : String) : Credentials := ⟨username, "Dylan@Example.com", "password"⟩

theorem registered_logs_in_dylan : SignsIn plain ((saveOf "dylan").foldl (Registry.run plain) noUsers).world.db
    ⟨none, none, none⟩ "token" "" "Dylan@Example.com" "password" 1 := by
  have hmem : rowOf "dylan" ∈ ((saveOf "dylan").foldl (Registry.run plain) noUsers).world.db.users := by decide +kernel
  have htyped : ((saveOf "dylan").foldl (Registry.run plain) noUsers).typed 1 = some (typedFor "dylan") := by rfl
  exact (registered_logs_in_iff plain rfl (saveOf "dylan") hmem htyped ⟨none, none, none⟩ "token" "").2 (by decide +kernel)
    "Dylan@Example.com" (.inr rfl)

/-- The username of the tests is registered, and signs in nobody. -/
theorem capitals_sign_in_nobody : ¬∀ (bcrypt : BCrypt) (start : Registry Bool) (deeds : List (Deed Bool)) (user : User)
    (credentials : Credentials), start.world.db.users = [] →
      user ∈ (deeds.foldl (Registry.run bcrypt) start).world.db.users →
      (deeds.foldl (Registry.run bcrypt) start).typed user.id = some credentials →
      ∀ jar remember_token salt identifier, identifier = credentials.username ∨ identifier = credentials.email →
        SignsIn bcrypt (deeds.foldl (Registry.run bcrypt) start).world.db jar remember_token salt identifier
          credentials.password user.id := by
  intro h
  have hmem : rowOf "withcapitals" ∈ ((saveOf "WithCapitals").foldl (Registry.run plain) noUsers).world.db.users := by
    decide +kernel
  have htyped : ((saveOf "WithCapitals").foldl (Registry.run plain) noUsers).typed 1 = some (typedFor "WithCapitals") := by
    rfl
  have hlower := (registered_logs_in_iff plain rfl (saveOf "WithCapitals") hmem htyped ⟨none, none, none⟩ "token" "").1
    (h plain noUsers (saveOf "WithCapitals") (rowOf "withcapitals") (typedFor "WithCapitals") rfl hmem htyped
      ⟨none, none, none⟩ "token" "")
  revert hlower
  decide +kernel

end MyStockIQ.Sessions
