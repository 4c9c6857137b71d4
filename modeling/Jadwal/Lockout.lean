import Jadwal.SessionGrants

/-!
# The lock of an account

`loginWithCheck` statement by statement.  The call reads the account once and then acts on
what it read: it resets a lock that had run out, counts a failure, stamps a new lock, clears
both after a success.  Between two statements other calls run theirs.

A call alone does what `SessionGrants` says of it (`alone_eq_loginWithCheck`).  Among others,
the success and the stamp are guarded, by the password and by the count in the row.  The reset
is not, so a call that read an old lock can lift a new one; `lock_lifted_iff` says that nothing
else does.
-/

namespace Jadwal

/-! ## The statements -/

theorem Account.key_failed (u : Account) :
    Keyed.key { u with failedLoginAttempts := u.failedLoginAttempts + 1 } = Keyed.key u := rfl

theorem Account.key_locked (env : AuthEnv) (now : Instant) (u : Account) :
    Keyed.key { u with
      lockedUntil :=
        if env.lockoutThreshold ≤ u.failedLoginAttempts then
          some (now + env.lockoutDuration * minute)
        else u.lockedUntil } = Keyed.key u := rfl

/-- The statement a call runs next, with the account as the call holds it. -/
inductive LoginStage
  | findUser
  | checkLock (user : Account)
  | resetExpired (user : Account)
  | verifyPassword (user : Account)
  | countFailure (user : Account)
  | stampLock (user : Account)
  | checkAccount (user : Account)
  | resetAttempts (user : Account)
  | issueTokens (user : Account)
  deriving DecidableEq, Repr

namespace LoginStage

/-- The account a call holds. -/
def user? : LoginStage → Option Account
  | findUser => none
  | checkLock user | resetExpired user | verifyPassword user | countFailure user
  | stampLock user | checkAccount user | resetAttempts user | issueTokens user => some user

/-- The call has compared the password and found it right. -/
def verified : LoginStage → Bool
  | checkAccount _ | resetAttempts _ | issueTokens _ => true
  | _ => false

/-- The account whose run-out lock the statement resets. -/
def resets : LoginStage → Option Id
  | resetExpired user => some user.id
  | _ => none

/-- One statement: what it leaves in the database, and the next one, if the call goes on. -/
def run (env : AuthEnv) (now : Instant) (db : AuthDb) (email password : String) :
    LoginStage → AuthDb × Option LoginStage
  | findUser => (db, (db.findByEmail email).map checkLock)
  | checkLock user =>
      if user.lockedUntil.any (fun until_ => now < until_) then (db, none)
      else if user.lockedUntil.isSome then (db, some (resetExpired user))
      else (db, some (verifyPassword user))
  | resetExpired user =>
      (Jadwal.resetAttempts db user.id,
        some (verifyPassword { user with failedLoginAttempts := 0, lockedUntil := none }))
  | verifyPassword user =>
      match user.password with
      | none => (db, none)
      | some hash =>
          if env.bcryptCompare password hash then (db, some (checkAccount user))
          else (db, some (countFailure user))
  | countFailure user =>
      let updated := db.updateUser user.id (fun u => { u with
        failedLoginAttempts := u.failedLoginAttempts + 1 }) Account.key_failed
      let attempts := ((updated.users.find? user.id).map Account.failedLoginAttempts).getD 0
      (updated, if env.lockoutThreshold ≤ attempts then some (stampLock user) else none)
  | stampLock user =>
      (db.updateUser user.id (fun u => { u with
        lockedUntil :=
          if env.lockoutThreshold ≤ u.failedLoginAttempts then
            some (now + env.lockoutDuration * minute)
          else u.lockedUntil }) (Account.key_locked env now), none)
  | checkAccount user =>
      if loginAllowed db user then
        if 0 < user.failedLoginAttempts ∨ user.lockedUntil.isSome then
          (db, some (resetAttempts user))
        else (db, some (issueTokens user))
      else (db, none)
  | resetAttempts user => (Jadwal.resetAttempts db user.id, some (issueTokens user))
  | issueTokens user => ((db.issueTokens env.policy now user.id none none).db, none)

/-- What the statement does to the row of the user. -/
def write (env : AuthEnv) (now : Instant) (stage : LoginStage) (u : Id) (row : Account) :
    Account :=
  if stage.user?.map Account.id = some u then
    match stage with
    | resetExpired _ | resetAttempts _ => { row with failedLoginAttempts := 0, lockedUntil := none }
    | countFailure _ => { row with failedLoginAttempts := row.failedLoginAttempts + 1 }
    | stampLock _ => { row with
        lockedUntil :=
          if env.lockoutThreshold ≤ row.failedLoginAttempts then
            some (now + env.lockoutDuration * minute)
          else row.lockedUntil }
    | _ => row
  else row

end LoginStage

variable {env : AuthEnv} {now : Instant} {db db' : AuthDb} {u : Id} {email password : String}

/-- Issuing tokens leaves the accounts. -/
theorem AuthDb.issueTokens_users {policy : SessionPolicy} {userId : Id}
    {started : Option Instant} {family : Option Id} :
    (db.issueTokens policy now userId started family).db.users = db.users := by
  cases family with
  | none =>
      simp only [AuthDb.issueTokens, Option.elim_none, AuthDb.randomUUID, AuthDb.createToken]
      split
      · rfl
      · rename_i h
        obtain ⟨_, _, rfl⟩ := Option.map_eq_some_iff.mp h
        rfl
  | some family =>
      simp only [AuthDb.issueTokens, Option.elim_some, AuthDb.createToken]
      split
      · rfl
      · rename_i h
        obtain ⟨_, _, rfl⟩ := Option.map_eq_some_iff.mp h
        rfl

/-- **What a statement does to an account.** -/
theorem LoginStage.run_row {stage : LoginStage} {next : Option LoginStage}
    (h : stage.run env now db email password = (db', next)) :
    db'.users.find? u = (db.users.find? u).map (stage.write env now u) := by
  have hsame : ∀ f : Account → Account, (∀ row, f row = row) →
      db.users.find? u = (db.users.find? u).map f := by
    intro f hf
    rw [funext hf]
    exact Option.map_id'.symm
  have hupdate : ∀ (id : Id) (f : Account → Account)
      (hf : ∀ row, Keyed.key (f row) = Keyed.key row),
      (db.updateUser id f hf).users.find? u =
        (db.users.find? u).map (fun row => if id = u then f row else row) := by
    intro id f hf
    refine (Table.find?_update db.users id f hf u).trans ?_
    by_cases hid : u = id
    · simp [hid]
    · simp [hid, Ne.symm hid]
  cases stage with
  | findUser =>
      cases h
      exact hsame _ fun _ => rfl
  | checkLock user =>
      obtain rfl : db = db' := by
        simp only [LoginStage.run] at h
        split at h
        · exact congrArg Prod.fst h
        · split at h <;> exact congrArg Prod.fst h
      exact hsame _ fun _ => by simp [write]
  | resetExpired user =>
      cases h
      refine (hupdate _ _ _).trans (congrArg (Option.map · _) (funext fun row => ?_))
      simp [write, user?]
  | verifyPassword user =>
      obtain rfl : db = db' := by
        simp only [LoginStage.run] at h
        split at h
        · exact congrArg Prod.fst h
        · split at h <;> exact congrArg Prod.fst h
      exact hsame _ fun _ => by simp [write]
  | countFailure user =>
      cases h
      refine (hupdate _ _ _).trans (congrArg (Option.map · _) (funext fun row => ?_))
      simp [write, user?]
  | stampLock user =>
      cases h
      refine (hupdate _ _ _).trans (congrArg (Option.map · _) (funext fun row => ?_))
      simp [write, user?]
  | checkAccount user =>
      obtain rfl : db = db' := by
        simp only [LoginStage.run] at h
        split at h
        · split at h <;> exact congrArg Prod.fst h
        · exact congrArg Prod.fst h
      exact hsame _ fun _ => by simp [write]
  | resetAttempts user =>
      cases h
      refine (hupdate _ _ _).trans (congrArg (Option.map · _) (funext fun row => ?_))
      simp [write, user?]
  | issueTokens user =>
      cases h
      rw [AuthDb.issueTokens_users]
      exact hsame _ fun _ => by simp [write]

/-! ## One call alone -/

/-- A call that nothing interrupts, for so many statements. -/
def LoginStage.alone (env : AuthEnv) (now : Instant) (email password : String) :
    Nat → AuthDb → LoginStage → AuthDb
  | 0, db, _ => db
  | n + 1, db, stage =>
      match stage.run env now db email password with
      | (db, none) => db
      | (db, some next) => alone env now email password n db next

/-- An update that changes nothing. -/
theorem AuthDb.updateUser_self {id : Id} {f : Account → Account}
    {hf : ∀ row, Keyed.key (f row) = Keyed.key row}
    (h : ∀ row, db.users.find? id = some row → f row = row) : db.updateUser id f hf = db := by
  have hsame : db.users.update id f hf = db.users := by
    apply Table.update_self
    intro row hrow hid
    exact h row (hid ▸ Table.find?_key hrow)
  simp only [AuthDb.updateUser, hsame]

/-- A reset of an account without failures and lock changes nothing. -/
theorem resetAttempts_self
    (h : ∀ row, db.users.find? u = some row →
      row.failedLoginAttempts = 0 ∧ row.lockedUntil = none) : resetAttempts db u = db := by
  apply AuthDb.updateUser_self
  intro row hrow
  obtain ⟨hzero, hnone⟩ := h row hrow
  rw [← hzero, ← hnone]

/-- The second reset of the attempts does nothing. -/
theorem resetAttempts_twice : resetAttempts (resetAttempts db u) u = resetAttempts db u := by
  apply resetAttempts_self
  intro row hrow
  rw [resetAttempts, AuthDb.updateUser, Table.find?_update, if_pos rfl,
    Option.map_eq_some_iff] at hrow
  obtain ⟨_, _, rfl⟩ := hrow
  exact ⟨rfl, rfl⟩

namespace LoginStage

/-- A call by itself ends at its last stage. -/
theorem alone_stops {stage : LoginStage} {n : Nat}
    (h : stage.run env now db email password = (db', none)) :
    alone env now email password (n + 1) db stage = db' := by
  simp only [alone, h]

/-- It goes from stage to stage. -/
theorem alone_goes {stage next : LoginStage} {n : Nat}
    (h : stage.run env now db email password = (db', some next)) :
    alone env now email password (n + 1) db stage =
      alone env now email password n db' next := by
  simp only [alone, h]

/-- The count and the stamp, one after the other, are `wrongPassword`. -/
theorem alone_countFailure (user : Account) (n : Nat) :
    alone env now email password (n + 2) db (countFailure user) =
      wrongPassword env now db user.id := by
  have hrun : (countFailure user).run env now db email password =
      (db.updateUser user.id (fun u => { u with failedLoginAttempts := u.failedLoginAttempts + 1 }),
        if env.lockoutThreshold ≤
            (((db.updateUser user.id (fun u => { u with
              failedLoginAttempts := u.failedLoginAttempts + 1 })).users.find? user.id).map
                Account.failedLoginAttempts).getD 0 then some (stampLock user) else none) := rfl
  split at hrun
  · refine (alone_goes hrun).trans ?_
    exact alone_stops rfl
  · rename_i hbelow
    refine (alone_stops hrun).trans (Eq.symm ?_)
    apply AuthDb.updateUser_self
    intro row hrow
    rw [hrow] at hbelow
    have hbelow' : ¬ env.lockoutThreshold ≤ row.failedLoginAttempts := hbelow
    simp only [hbelow', if_false]

/-- After the right password: the checks on the account, the reset when there is something to
reset, and the tokens. -/
theorem alone_checkAccount (user : Account) (n : Nat)
    (hclean : user.failedLoginAttempts = 0 → user.lockedUntil = none →
      Jadwal.resetAttempts db user.id = db) :
    alone env now email password (n + 3) db (checkAccount user) =
      if loginAllowed db user = false then db
      else ((Jadwal.resetAttempts db user.id).issueTokens env.policy now user.id none none).db := by
  by_cases hallowed : loginAllowed db user = true
  · rw [if_neg (by simp [hallowed])]
    by_cases hdirty : 0 < user.failedLoginAttempts ∨ user.lockedUntil.isSome = true
    · have hrun : (checkAccount user).run env now db email password =
          (db, some (resetAttempts user)) := by
        simp only [run, hallowed, hdirty, if_true]
      rw [alone_goes hrun, alone_goes rfl]
      exact alone_stops rfl
    · have hrun : (checkAccount user).run env now db email password =
          (db, some (issueTokens user)) := by
        simp only [run, hallowed, hdirty, if_true, if_false]
      obtain ⟨hzero, hnone⟩ := not_or.mp hdirty
      rw [alone_goes hrun, hclean (by omega) (by simpa using hnone)]
      exact alone_stops rfl
  · have hrun : (checkAccount user).run env now db email password = (db, none) := by
      simp [run, hallowed]
    rw [if_pos (by simpa using hallowed)]
    exact alone_stops hrun

/-- The comparison of the password and what follows it. -/
theorem alone_verifyPassword (user : Account) (n : Nat)
    (hclean : user.failedLoginAttempts = 0 → user.lockedUntil = none →
      Jadwal.resetAttempts db user.id = db) :
    alone env now email password (n + 4) db (verifyPassword user) =
      (match user.password with
        | none => (⟨db, none⟩ : Authed)
        | some hash =>
            if env.bcryptCompare password hash = false then
              ⟨wrongPassword env now db user.id, none⟩
            else if loginAllowed db user = false then ⟨db, none⟩
            else (Jadwal.resetAttempts db user.id).issueTokens env.policy now user.id none
              none).db := by
  cases hhash : user.password with
  | none =>
      have hrun : (verifyPassword user).run env now db email password = (db, none) := by
        simp [run, hhash]
      exact alone_stops hrun
  | some hash =>
      by_cases hright : env.bcryptCompare password hash = true
      · have hrun : (verifyPassword user).run env now db email password =
            (db, some (checkAccount user)) := by
          simp [run, hhash, hright]
        rw [alone_goes hrun, alone_checkAccount user n hclean]
        simp only [hright, Bool.true_eq_false, if_false]
        split <;> rfl
      · have hrun : (verifyPassword user).run env now db email password =
            (db, some (countFailure user)) := by
          simp [run, hhash, hright]
        rw [alone_goes hrun, alone_countFailure user (n + 1)]
        simp [hright]

end LoginStage

/-- **A call alone is `loginWithCheck`.** -/
theorem alone_eq_loginWithCheck (env : AuthEnv) (now : Instant) (db : AuthDb)
    (email password : String) :
    LoginStage.alone env now email password 7 db .findUser =
      (loginWithCheck env now db email password false).db := by
  unfold loginWithCheck
  simp only [Bool.false_eq_true, if_false]
  cases hfind : db.findByEmail email with
  | none =>
      have hrun : LoginStage.findUser.run env now db email password = (db, none) := by
        simp [LoginStage.run, hfind]
      exact LoginStage.alone_stops hrun
  | some user =>
      have hrow : db.users.find? user.id = some user :=
        Table.find?_key (Table.first?_eq_some hfind).1
      have hfound : LoginStage.findUser.run env now db email password =
          (db, some (.checkLock user)) := by
        simp [LoginStage.run, hfind]
      rw [LoginStage.alone_goes hfound]
      by_cases hlocked : user.lockedUntil.any (fun until_ => now < until_) = true
      · have hrun : (LoginStage.checkLock user).run env now db email password = (db, none) := by
          simp only [LoginStage.run, hlocked, if_true]
        simp only [hlocked, if_true]
        exact LoginStage.alone_stops hrun
      by_cases hexpired : user.lockedUntil.isSome = true
      · have hrun : (LoginStage.checkLock user).run env now db email password =
            (db, some (.resetExpired user)) := by
          simp only [LoginStage.run, hlocked, hexpired, if_true, if_false, Bool.false_eq_true]
        rw [LoginStage.alone_goes hrun, LoginStage.alone_goes rfl]
        simp only [hlocked, hexpired, if_true, if_false, Bool.false_eq_true]
        exact LoginStage.alone_verifyPassword _ 0 fun _ _ => resetAttempts_twice
      · have hrun : (LoginStage.checkLock user).run env now db email password =
            (db, some (.verifyPassword user)) := by
          simp only [LoginStage.run, hlocked, hexpired, if_false, Bool.false_eq_true]
        rw [LoginStage.alone_goes hrun]
        simp only [hlocked, hexpired, if_false, Bool.false_eq_true]
        refine LoginStage.alone_verifyPassword _ 1 fun hzero hnone => resetAttempts_self ?_
        intro row hrow'
        obtain rfl := Option.some.inj (hrow.symm.trans hrow')
        exact ⟨hzero, hnone⟩

/-! ## The account -/

namespace AuthDb

def passwordOf (db : AuthDb) (u : Id) : Option String := (db.users.find? u).bind Account.password

def lockOf (db : AuthDb) (u : Id) : Option Instant := (db.users.find? u).bind Account.lockedUntil

/-- The password is the right one. -/
def accepts (env : AuthEnv) (db : AuthDb) (u : Id) (password : String) : Bool :=
  (db.passwordOf u).any (fun hash => env.bcryptCompare password hash)

/-- The lock lies in the future. -/
def locked (now : Instant) (db : AuthDb) (u : Id) : Bool :=
  (db.lockOf u).any (fun until_ => now < until_)

end AuthDb

/-- No stage writes the password. -/
@[simp] theorem LoginStage.write_password (stage : LoginStage) (row : Account) :
    (stage.write env now u row).password = row.password := by
  unfold LoginStage.write
  split
  · cases stage <;> rfl
  · rfl

/-- What a statement can do to the row: nothing, a reset, a count or a stamp. -/
theorem LoginStage.write_cases (stage : LoginStage) (row : Account) :
    (stage.write env now u row = row ∧ ∀ held, stage = .stampLock held → held.id ≠ u) ∨
      (stage.write env now u row).failedLoginAttempts = 0 ∨
      (∃ held, stage = .countFailure held ∧ held.id = u) ∨
      ∃ held, stage = .stampLock held ∧ held.id = u := by
  by_cases hown : stage.user?.map Account.id = some u
  · obtain ⟨user, huser, hid⟩ := Option.map_eq_some_iff.mp hown
    cases stage with
    | findUser => cases huser
    | resetExpired held =>
        right; left
        simp only [write, if_pos hown]
    | countFailure held =>
        right; right; left
        exact ⟨held, rfl, by rw [Option.some.inj huser, hid]⟩
    | stampLock held =>
        right; right; right
        exact ⟨held, rfl, by rw [Option.some.inj huser, hid]⟩
    | resetAttempts held =>
        right; left
        simp only [write, if_pos hown]
    | _ =>
        left
        refine ⟨?_, fun _ h => by cases h⟩
        simp only [write, ite_self]
  · left
    refine ⟨?_, fun held hstamp hid => hown ?_⟩
    · unfold write
      exact if_neg hown
    · rw [hstamp, ← hid]
      rfl

/-- At the threshold the stamp locks the account. -/
theorem LoginStage.stampLock_locks {held row : Account}
    (h : env.lockoutThreshold ≤
      ((stampLock held).write env now held.id row).failedLoginAttempts) :
    ((stampLock held).write env now held.id row).lockedUntil ≠ none := by
  simp only [write, user?, Option.map_some, if_true] at h ⊢
  rw [if_pos h]
  exact Option.some_ne_none _

/-- No stage changes the password of an account. -/
theorem LoginStage.run_passwordOf {stage : LoginStage} {next : Option LoginStage}
    (h : stage.run env now db email password = (db', next)) :
    db'.passwordOf u = db.passwordOf u := by
  rw [AuthDb.passwordOf, run_row h, Option.bind_map, AuthDb.passwordOf]
  refine congrArg (Option.bind _) (funext fun row => ?_)
  exact LoginStage.write_password stage row

/-- A statement that takes a lock away is one of the two resets. -/
theorem LoginStage.run_unlocks {stage : LoginStage} {next : Option LoginStage}
    (h : stage.run env now db email password = (db', next)) (hlocked : db.lockOf u ≠ none)
    (hfree : db'.lockOf u = none) :
    ∃ user, user.id = u ∧ (stage = .resetExpired user ∨ stage = .resetAttempts user) := by
  rw [AuthDb.lockOf, run_row h, Option.bind_map] at hfree
  obtain ⟨until_, hbefore⟩ := Option.ne_none_iff_exists'.mp hlocked
  obtain ⟨row, hrow, hlock⟩ := Option.bind_eq_some_iff.mp hbefore
  rw [hrow, Option.bind_some] at hfree
  simp only [Function.comp_apply, LoginStage.write] at hfree
  split at hfree
  · rename_i hown
    obtain ⟨user, huser, rfl⟩ := Option.map_eq_some_iff.mp hown
    cases stage with
    | resetExpired user' => exact ⟨user', congrArg Account.id (Option.some.inj huser), .inl rfl⟩
    | resetAttempts user' => exact ⟨user', congrArg Account.id (Option.some.inj huser), .inr rfl⟩
    | stampLock user' =>
        by_cases hcount : env.lockoutThreshold ≤ row.failedLoginAttempts
        · simp [hcount] at hfree
        · simp [hcount, hlock] at hfree
    | _ => exact absurd hfree (by simp [hlock])
  · exact absurd hfree (by simp [hlock])

/-- The reset of an expired lock unlocks the account. -/
theorem LoginStage.resetExpired_unlocks {stage : LoginStage} {next : Option LoginStage}
    (h : stage.run env now db email password = (db', next)) (hresets : stage.resets = some u) :
    db'.lockOf u = none := by
  cases stage with
  | resetExpired user =>
      obtain rfl := Option.some.inj hresets
      rw [AuthDb.lockOf, run_row h, Option.bind_map, Option.bind_eq_none_iff]
      intro row _
      simp [write, user?]
  | _ => cases hresets

/-- What a call knows: it holds the password of the account, and past the comparison it
has presented the right one. -/
structure LoginStage.Knows (env : AuthEnv) (db : AuthDb) (u : Id) (password : String)
    (stage : LoginStage) : Prop where
  read : ∀ user ∈ stage.user?, user.id = u → user.password = db.passwordOf u
  right : ∀ user ∈ stage.user?, user.id = u → stage.verified = true →
    db.accepts env u password = true

/-- What a stage knows it knows while the password stays. -/
theorem LoginStage.Knows.keep {stage : LoginStage} (h : stage.Knows env db u password)
    (hpassword : db'.passwordOf u = db.passwordOf u) : stage.Knows env db' u password := by
  refine ⟨fun user huser hid => (h.read user huser hid).trans hpassword.symm,
    fun user huser hid hverified => ?_⟩
  rw [AuthDb.accepts, hpassword]
  exact h.right user huser hid hverified

/-- A statement keeps what the call knows. -/
theorem LoginStage.Knows.run {stage next : LoginStage} (h : stage.Knows env db u password)
    (hrun : stage.run env now db email password = (db', some next)) :
    next.Knows env db' u password := by
  have hpassword := run_passwordOf (u := u) hrun
  refine LoginStage.Knows.keep ?_ hpassword
  cases stage with
  | findUser =>
      cases hfind : db.findByEmail email with
      | none => simp [LoginStage.run, hfind] at hrun
      | some user =>
          simp only [LoginStage.run, hfind, Option.map_some, Prod.mk.injEq, Option.some.injEq]
            at hrun
          obtain ⟨_, rfl⟩ := hrun
          refine ⟨fun user' huser hid => ?_, fun _ _ _ hverified => by cases hverified⟩
          obtain rfl := Option.some.inj huser
          have hrow : db.users.find? user.id = some user :=
            Table.find?_key (Table.first?_eq_some hfind).1
          rw [AuthDb.passwordOf, ← hid, hrow]
          rfl
  | checkLock user =>
      simp only [LoginStage.run] at hrun
      split at hrun
      · cases hrun
      · split at hrun
        · cases hrun
          exact ⟨h.read, fun _ _ _ hverified => by cases hverified⟩
        · cases hrun
          exact ⟨h.read, fun _ _ _ hverified => by cases hverified⟩
  | resetExpired user =>
      cases hrun
      refine ⟨fun user' huser hid => ?_, fun _ _ _ hverified => by cases hverified⟩
      obtain rfl := Option.some.inj huser
      exact h.read user rfl hid
  | verifyPassword user =>
      simp only [LoginStage.run] at hrun
      split at hrun
      · cases hrun
      · rename_i hash hhash
        split at hrun
        · rename_i hright
          cases hrun
          refine ⟨h.read, fun user' huser hid _ => ?_⟩
          obtain rfl := Option.some.inj huser
          rw [AuthDb.accepts, ← h.read user rfl hid, hhash]
          exact hright
        · cases hrun
          exact ⟨h.read, fun _ _ _ hverified => by cases hverified⟩
  | countFailure user =>
      simp only [LoginStage.run, Prod.mk.injEq, Option.ite_none_right_eq_some,
        Option.some.injEq] at hrun
      obtain ⟨_, _, rfl⟩ := hrun
      exact ⟨h.read, fun _ _ _ hverified => by cases hverified⟩
  | stampLock user => cases hrun
  | checkAccount user =>
      simp only [LoginStage.run] at hrun
      split at hrun
      · split at hrun
        · cases hrun
          exact ⟨h.read, fun user' huser hid _ => h.right user' huser hid rfl⟩
        · cases hrun
          exact ⟨h.read, fun user' huser hid _ => h.right user' huser hid rfl⟩
      · cases hrun
  | resetAttempts user =>
      cases hrun
      exact ⟨h.read, fun user' huser hid _ => h.right user' huser hid rfl⟩
  | issueTokens user => cases hrun

/-! ## Calls at the same time -/

/-- A call of `loginWithCheck`; it has returned or thrown when no statement is left. -/
structure LoginCall where
  email : String
  password : String
  stage : Option LoginStage
  deriving DecidableEq, Repr

/-- The clock, the tables, the calls so far, and those that lifted a lock of the watched
account before it had run out; no statement reads the last. -/
structure LoginWorld where
  now : Instant
  db : AuthDb
  calls : List LoginCall
  lifted : List LoginCall

/-- The clock moves, a call comes in, or a call runs its next statement. -/
inductive LoginStep
  | tick (elapsed : Nat)
  | begin (email password : String) (limited : Bool)
  | run (index : Nat)
  deriving DecidableEq, Repr

namespace LoginWorld

/-- The lock of the account is in force before and gone after. -/
def lifts (w : LoginWorld) (u : Id) (db : AuthDb) : Bool :=
  w.db.locked w.now u ∧ db.lockOf u = none

/-- A call the counter on Redis refuses reads no table. -/
def step (env : AuthEnv) (u : Id) (w : LoginWorld) : LoginStep → Option LoginWorld
  | .tick elapsed => some { w with now := w.now + elapsed }
  | .begin email password limited =>
      if limited then some w
      else some { w with calls := w.calls ++ [⟨email, password, some .findUser⟩] }
  | .run index =>
      (w.calls[index]?).bind fun call => call.stage.map fun stage =>
        let (db, next) := stage.run env w.now w.db call.email call.password
        { w with
          db := db
          calls := w.calls.set index { call with stage := next }
          lifted := if w.lifts u db then w.lifted ++ [call] else w.lifted }

/-- The account has no lock and no failures, and nobody is logging in. -/
structure Initial (u : Id) (w : LoginWorld) : Prop where
  unlocked : ∃ user, w.db.users.find? u = some user ∧ user.failedLoginAttempts = 0 ∧
    user.lockedUntil = none
  idle : w.calls = []
  fresh : w.lifted = []

/-- The condition on a step: when a call with a wrong password resets a lock that had run
out, no lock is in force. -/
def ResetsExpired (env : AuthEnv) (u : Id) (w : LoginWorld) : LoginStep → Prop
  | .run index => ∀ call ∈ w.calls[index]?, ∀ stage ∈ call.stage,
      stage.resets = some u → w.db.locked w.now u = true →
        w.db.accepts env u call.password = true
  | _ => True

instance (env : AuthEnv) (u : Id) (w : LoginWorld) (a : LoginStep) :
    Decidable (w.ResetsExpired env u a) := by
  unfold ResetsExpired
  split <;> infer_instance

/-- A step is a tick, a call that comes in or is refused, or a statement of a call. -/
theorem step_cases {w w' : LoginWorld} {a : LoginStep} (h : w.step env u a = some w') :
    ((∀ index, a ≠ .run index) ∧ ∃ now calls, w' = { w with now := now, calls := calls } ∧
      w.calls <+: calls ∧ ∀ call ∈ calls, call ∈ w.calls ∨ call.stage = some .findUser) ∨
    ∃ index call stage db next, a = .run index ∧ w.calls[index]? = some call ∧
      call.stage = some stage ∧
      stage.run env w.now w.db call.email call.password = (db, next) ∧
      w' = ⟨w.now, db, w.calls.set index { call with stage := next },
        if w.lifts u db then w.lifted ++ [call] else w.lifted⟩ := by
  cases a with
  | tick elapsed =>
      left
      cases h
      exact ⟨fun _ h => (by cases h), _, _, rfl, List.prefix_rfl, fun call hcall => .inl hcall⟩
  | begin email password limited =>
      left
      simp only [step] at h
      split at h
      · cases h
        exact ⟨fun _ h => (by cases h), _, _, rfl, List.prefix_rfl, fun call hcall => .inl hcall⟩
      · cases h
        refine ⟨fun _ h => (by cases h), _, _, rfl, List.prefix_append _ _, fun call hcall => ?_⟩
        rcases List.mem_append.mp hcall with hold | hnew
        · exact .inl hold
        · exact .inr (by rw [List.mem_singleton.mp hnew])
  | run index =>
      right
      simp only [step, Option.bind_eq_some_iff, Option.map_eq_some_iff] at h
      obtain ⟨call, hcall, stage, hstage, rfl⟩ := h
      exact ⟨index, call, stage, _, _, rfl, hcall, hstage, rfl, rfl⟩

/-- The invariant of all runs: the calls know the password of the account, and a count at the
threshold has its lock or a call about to stamp it. -/
structure Sound (env : AuthEnv) (u : Id) (w : LoginWorld) : Prop where
  knows : ∀ call ∈ w.calls, ∀ stage ∈ call.stage, stage.Knows env w.db u call.password
  stamped : ∀ user, w.db.users.find? u = some user →
    env.lockoutThreshold ≤ user.failedLoginAttempts → user.lockedUntil = none →
      ∃ (index : Nat) (call : LoginCall) (held : Account), w.calls[index]? = some call ∧
        call.stage = some (.stampLock held) ∧ held.id = u

/-- At the start no login is under way. -/
theorem Initial.sound {w : LoginWorld} (h : w.Initial u) (hpos : 0 < env.lockoutThreshold) :
    w.Sound env u := by
  refine ⟨fun call hcall => ?_, fun user huser hcount => ?_⟩
  · rw [h.idle] at hcall
    cases hcall
  · obtain ⟨user', huser', hzero, _⟩ := h.unlocked
    obtain rfl := Option.some.inj (huser'.symm.trans huser)
    omega

/-- **One step keeps the locks sound.** -/
theorem Sound.step {w w' : LoginWorld} {a : LoginStep} (hpos : 0 < env.lockoutThreshold)
    (h : w.Sound env u) (hstep : w.step env u a = some w') : w'.Sound env u := by
  rcases step_cases hstep with ⟨_, now, calls, rfl, hgrown, hcalls⟩ |
    ⟨index, call, stage, db, next, rfl, hcall, hstage, hrun, rfl⟩
  · refine ⟨fun call hcall stage hstage => ?_, fun user huser hcount hfree => ?_⟩
    · rcases hcalls call hcall with hold | hnew
      · exact h.knows call hold stage hstage
      · obtain rfl : LoginStage.findUser = stage := Option.some.inj (hnew.symm.trans hstage)
        exact ⟨fun _ huser => (by cases huser), fun _ huser => (by cases huser)⟩
    · obtain ⟨index, call, held, hcall, hstamp⟩ := h.stamped user huser hcount hfree
      refine ⟨index, call, held, ?_, hstamp⟩
      obtain ⟨hlt, rfl⟩ := List.getElem?_eq_some_iff.mp hcall
      exact (List.getElem?_eq_some_iff.mpr
        ⟨hlt.trans_le hgrown.length_le, (hgrown.getElem hlt).symm⟩)
  have hmem := List.mem_of_getElem? hcall
  have hlt := (List.getElem?_eq_some_iff.mp hcall).1
  refine ⟨fun other hother stage' hstage' => ?_, fun user huser hcount hfree => ?_⟩
  · rcases List.mem_or_eq_of_mem_set hother with hold | rfl
    · exact (h.knows other hold stage' hstage').keep (LoginStage.run_passwordOf hrun)
    · obtain rfl := Option.mem_def.mp hstage'
      exact (h.knows call hmem stage hstage).run hrun
  · have hrow := LoginStage.run_row (u := u) hrun
    have hafter : db.users.find? u = some user := huser
    obtain ⟨row, hbefore, rfl⟩ := Option.map_eq_some_iff.mp (hrow.symm.trans hafter)
    rcases @LoginStage.write_cases env w.now u stage row with
      ⟨hsame, hnot⟩ | hzero | ⟨held, rfl, rfl⟩ | ⟨held, rfl, rfl⟩
    · -- the call that stamps is another one
      rw [hsame] at hcount hfree
      obtain ⟨j, stamping, held, hj, hstamp, hid⟩ := h.stamped row hbefore hcount hfree
      refine ⟨j, stamping, held, ?_, hstamp, hid⟩
      have hne : index ≠ j := by
        rintro rfl
        obtain rfl := Option.some.inj (hj.symm.trans hcall)
        exact hnot held (Option.some.inj (hstage.symm.trans hstamp)) hid
      rw [List.getElem?_set_ne hne, hj]
    · omega
    · -- this call counted the failure, and stamps next
      refine ⟨index, { call with stage := next }, held, List.getElem?_set_self hlt, ?_, rfl⟩
      obtain ⟨rfl, rfl⟩ := Prod.mk.inj hrun
      simp only [hafter, Option.map_some, Option.getD_some, if_pos hcount]
    · exact absurd hfree (LoginStage.stampLock_locks hcount)

/-- No step changes the password. -/
theorem step_passwordOf {w w' : LoginWorld} {a : LoginStep} (h : w.step env u a = some w') :
    w'.db.passwordOf u = w.db.passwordOf u := by
  rcases step_cases h with ⟨_, now, calls, rfl, _⟩ | ⟨_, _, _, _, _, _, _, _, hrun, rfl⟩
  · rfl
  · exact LoginStage.run_passwordOf hrun

/-- Every lock was lifted by a call that presented the right password. -/
def RightlyLifted (env : AuthEnv) (u : Id) (w : LoginWorld) : Prop :=
  ∀ call ∈ w.lifted, w.db.accepts env u call.password = true

/-- **A step lifts no lock without the right password, unless it resets a lock that is in
force.** -/
theorem RightlyLifted.step_iff {w w' : LoginWorld} {a : LoginStep} (h : w.Sound env u)
    (hstep : w.step env u a = some w') :
    w'.RightlyLifted env u ↔ w.RightlyLifted env u ∧ w.ResetsExpired env u a := by
  have hpassword := step_passwordOf hstep
  have haccepts : ∀ password, w'.db.accepts env u password = w.db.accepts env u password := by
    intro password
    rw [AuthDb.accepts, AuthDb.accepts, hpassword]
  simp only [RightlyLifted, haccepts]
  rcases step_cases hstep with ⟨hnot, now, calls, rfl, _⟩ |
    ⟨index, call, stage, db, next, rfl, hcall, hstage, hrun, rfl⟩
  · have hok : w.ResetsExpired env u a := by
      unfold ResetsExpired
      split
      · exact absurd rfl (hnot _)
      · trivial
    exact (and_iff_left hok).symm
  have hmem := List.mem_of_getElem? hcall
  have hok : w.ResetsExpired env u (.run index) ↔ (stage.resets = some u →
      w.db.locked w.now u = true → w.db.accepts env u call.password = true) := by
    simp only [ResetsExpired, hcall, hstage, Option.mem_some_iff, forall_eq']
  rw [hok]
  by_cases hlifts : w.lifts u db = true
  · obtain ⟨hlocked, hfree⟩ := of_decide_eq_true hlifts
    have hlock : w.db.lockOf u ≠ none := by
      intro hnone
      rw [AuthDb.locked, hnone] at hlocked
      cases hlocked
    simp only [hlifts, if_true, List.forall_mem_append, List.forall_mem_singleton]
    refine and_congr_right fun _ => ?_
    obtain ⟨user, rfl, rfl | rfl⟩ := LoginStage.run_unlocks hrun hlock hfree
    · simp only [LoginStage.resets, hlocked, forall_const]
    · have hright := (h.knows call hmem _ hstage).right user rfl rfl rfl
      simp only [hright, implies_true]
  · simp only [hlifts, if_false, Bool.false_eq_true]
    refine (and_iff_left fun hresets hlocked => ?_).symm
    -- a reset would have lifted the lock
    refine absurd (decide_eq_true ⟨hlocked, ?_⟩) hlifts
    exact LoginStage.resetExpired_unlocks hrun hresets

/-- Along every run under the condition, locks are lifted rightly. -/
theorem rightlyLifted_of_run {w₀ w : LoginWorld} (h : w₀.Initial u)
    (hpos : 0 < env.lockoutThreshold) (run : Run (step env u) (ResetsExpired env u) w₀ w) :
    w.RightlyLifted env u := by
  have hboth : w.Sound env u ∧ w.RightlyLifted env u := by
    refine run.invariant (fun w => w.Sound env u ∧ w.RightlyLifted env u) ?_ ⟨h.sound hpos, ?_⟩
    · intro w a w' ⟨hsound, hright⟩ hok hstep
      exact ⟨hsound.step hpos hstep, (RightlyLifted.step_iff hsound hstep).mpr ⟨hright, hok⟩⟩
    · intro call hcall
      rw [h.fresh] at hcall
      cases hcall
  exact hboth.2

/-- **Who lifts a lock.**  In every run from an account without a lock or failures: the locks
in force were lifted by the right password exactly when each reset of a run-out lock by a
wrong one found no lock in force; and when nobody is logging in, a count at the threshold has
its lock. -/
theorem lock_lifted_iff {w₀ w : LoginWorld} (h : w₀.Initial u) (hpos : 0 < env.lockoutThreshold)
    (run : Run (step env u) (fun _ _ => True) w₀ w) :
    (w.RightlyLifted env u ↔ Run (step env u) (ResetsExpired env u) w₀ w) ∧
      ((∀ call ∈ w.calls, call.stage = none) → ∀ user, w.db.users.find? u = some user →
        env.lockoutThreshold ≤ user.failedLoginAttempts → user.lockedUntil ≠ none) := by
  have hall : w.Sound env u ∧ (w.RightlyLifted env u ↔
      Run (step env u) (ResetsExpired env u) w₀ w) := by
    induction run with
    | nil =>
        refine ⟨h.sound hpos, fun _ => .nil _, fun _ call hcall => ?_⟩
        rw [h.fresh] at hcall
        cases hcall
    | snoc run guard fire ih =>
        obtain ⟨hsound, ih⟩ := ih
        refine ⟨hsound.step hpos fire, fun hright => ?_, fun hrun => ?_⟩
        · obtain ⟨hbefore, hok⟩ := (RightlyLifted.step_iff hsound fire).mp hright
          exact (ih.mp hbefore).snoc hok fire
        · exact rightlyLifted_of_run h hpos hrun
  refine ⟨hall.2, fun hidle user huser hcount hfree => ?_⟩
  obtain ⟨index, call, held, hcall, hstamp, _⟩ := hall.1.stamped user huser hcount hfree
  rw [hidle call (List.mem_of_getElem? hcall)] at hstamp
  cases hstamp

/-! ## A lock lifted by the wrong password -/

/-- Passwords are compared as they stand. -/
def lobbyEnv : AuthEnv where
  bcryptCompare := fun password hash => password = hash

def noor : Account :=
  { id := 1, email := "noor@jadwal", password := some "right", emailVerified := true }

/-- One account, nobody logging in. -/
def lobby : LoginWorld where
  now := 0
  db :=
    { users := ⟨[noor], by decide⟩
      vendors := ⟨[], by decide⟩
      refreshTokens := ⟨[], by decide⟩ }
  calls := []
  lifted := []

theorem lobby_initial : lobby.Initial 1 := ⟨⟨_, rfl, rfl, rfl⟩, rfl, rfl⟩

/-- A call comes in and runs some of its statements. -/
def login (password : String) (index statements : Nat) : List LoginStep :=
  .begin "noor@jadwal" password false :: List.replicate statements (.run index)

/-- Five wrong passwords. -/
def fiveWrong : List LoginStep :=
  login "wrong" 0 4 ++ login "wrong" 1 4 ++ login "wrong" 2 4 ++ login "wrong" 3 4 ++
    login "wrong" 4 5

/-- The lock runs out; a slow call finds it run out, five others lock the account anew, and
the slow call, with a wrong password, resets the new lock. -/
theorem slow_call_lifts_new_lock : lobby.Initial 1 ∧
    ∃ w, Run (step lobbyEnv 1) (fun _ _ => True) lobby w ∧ ¬ w.RightlyLifted lobbyEnv 1 := by
  refine ⟨lobby_initial, ?_⟩
  obtain ⟨w, run, h⟩ := @Run.of_execAll_test _ _ (step lobbyEnv 1) (fun _ _ => True) _
    (fiveWrong ++ [.tick 900000] ++ login "wrong" 5 2 ++ login "wrong" 6 5 ++
      login "wrong" 7 4 ++ login "wrong" 8 4 ++ login "wrong" 9 4 ++ login "wrong" 10 5 ++
      [.run 5])
    lobby (fun w => w.lifted.any (fun call => w.db.accepts lobbyEnv 1 call.password = false))
    (by decide +kernel)
  refine ⟨w, run, fun hright => ?_⟩
  obtain ⟨call, hcall, hwrong⟩ := List.any_eq_true.mp h
  rw [hright call hcall] at hwrong
  cases of_decide_eq_true hwrong

/-- Five wrong passwords lock the account. -/
theorem lock_lifted_iff_locked :
    ∃ w, w.db.lockOf 1 ≠ none ∧
      (w.RightlyLifted lobbyEnv 1 ↔ Run (step lobbyEnv 1) (ResetsExpired lobbyEnv 1) lobby w) ∧
      ((∀ call ∈ w.calls, call.stage = none) → ∀ user, w.db.users.find? 1 = some user →
        lobbyEnv.lockoutThreshold ≤ user.failedLoginAttempts → user.lockedUntil ≠ none) := by
  obtain ⟨w, run, h⟩ := @Run.of_execAll_test _ _ (step lobbyEnv 1) (fun _ _ => True) _
    fiveWrong lobby (fun w => (w.db.lockOf 1).isSome) (by decide +kernel)
  refine ⟨w, ?_, lock_lifted_iff lobby_initial (by decide) run⟩
  exact Option.isSome_iff_ne_none.mp h

end LoginWorld

end Jadwal
