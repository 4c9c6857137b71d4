import Jadwal.Auth
import Jadwal.Lib.Run

/-!
# Who gets a session

The calls that end in `issueTokens`, each run to its end: a login with a
password, the verification of an email address, a Google sign-in and a refresh.
Each checks the account with a subset of the checks of its own.  A **grant** is
the account, with the vendor profile of its user, at the moment a session is
issued.
-/

namespace Jadwal

/-- The settings of the login, and the bcrypt comparison. -/
structure AuthEnv where
  policy : SessionPolicy := {}
  lockoutThreshold : Nat := 5
  lockoutDuration : Nat := 15
  verificationExpiryHours : Nat := 24
  bcryptCompare : String → String → Bool

/-- The account a session is issued to. -/
structure SessionGrant where
  user : Account
  vendor : Option Vendor
  deriving DecidableEq, Repr

/-- Nothing bars the account from a session. -/
structure SessionGrant.Permitted (g : SessionGrant) : Prop where
  active : g.user.isDeactivated = false
  verified : g.user.role = .customer → g.user.emailVerified = true
  approved : g.user.role = .vendor → ∃ v, g.vendor = some v ∧ v.status = .active

/-- What a call leaves in the database, and the session it issued. -/
structure Authed where
  db : AuthDb
  grant : Option SessionGrant := none

/-- A Google profile, as the strategy hands it over. -/
structure GoogleProfile where
  googleId : String
  email : String
  deriving DecidableEq, Repr

namespace AuthDb

def findByEmail (db : AuthDb) (email : String) : Option Account :=
  db.users.first? (fun u => u.email = email)

def findByGoogleId (db : AuthDb) (googleId : String) : Option Account :=
  db.users.first? (fun u => u.googleId = some googleId)

def findByVerificationToken (db : AuthDb) (tokenHash : TokenHash) : Option Account :=
  db.users.first? (fun u => u.verificationToken = some tokenHash)

def updateUser (db : AuthDb) (id : Id) (f : Account → Account)
    (hf : ∀ u, Keyed.key (f u) = Keyed.key u := by intro _; rfl) : AuthDb :=
  { db with users := db.users.update id f hf }

/-- The account and the profile a session of the user is granted to. -/
def grantOf (db : AuthDb) (userId : Id) : Option SessionGrant :=
  (db.users.find? userId).map (fun u => ⟨u, db.vendorOf u.id⟩)

/-- `issueTokens`, from its first statement to its last. -/
def issueTokens (policy : SessionPolicy) (now : Instant) (db : AuthDb) (userId : Id)
    (sessionStartedAt : Option Instant) (familyId : Option Id) : Authed :=
  let (family, db) := familyId.elim db.randomUUID (fun f => (f, db))
  let db := db.sweepExpired now userId
  let db := db.evict (policy.evicted (db.activeTokens userId))
  match db.createToken (db.newToken policy now userId sessionStartedAt family) with
  | none => ⟨db, none⟩
  | some db => ⟨db, db.grantOf userId⟩

/-- `sendVerificationEmail`: a token is drawn and stored; the mail is not
modelled. -/
def sendVerificationEmail (env : AuthEnv) (now : Instant) (db : AuthDb) (userId : Id) :
    AuthDb :=
  { db.updateUser userId (fun u => { u with
      verificationToken := some db.nextRandom
      verificationTokenExpiry := some (now + env.verificationExpiryHours * hour) }) with
    nextRandom := db.nextRandom + 1 }

/-- `user.create`; a taken id would throw. -/
def createUser (db : AuthDb) (u : Account) : Option AuthDb :=
  (db.users.insert? u).map (fun users =>
    { db with users, nextRandom := db.nextRandom + 1 })

/-- `denylistAllUserSessions` and the `deleteMany` after it. -/
def endSessions (policy : SessionPolicy) (now : Instant) (db : AuthDb) (userId : Id) :
    AuthDb :=
  ((db.liveFamilies userId).foldl (denylistSession policy now) db).deleteTokens
    (fun t => t.userId = userId)

end AuthDb

/-! ## The calls -/

/-- `registerAndLogin`, past the honeypot: nobody is logged in. -/
def register (env : AuthEnv) (now : Instant) (db : AuthDb) (email password : String)
    (phone : Option String) : Authed :=
  if (db.findByEmail email).isSome then ⟨db, none⟩
  else if phone.isSome ∧ (db.users.first? (fun u => u.phone = phone)).isSome then ⟨db, none⟩
  else
    let user : Account := { id := db.nextRandom, email, phone, password := some password }
    match db.createUser user with
    | none => ⟨db, none⟩
    | some db => ⟨db.sendVerificationEmail env now user.id, none⟩

/-- The unexpired account a verification token is of. -/
def AuthDb.verifies (now : Instant) (db : AuthDb) (tokenHash : TokenHash) : Option Account :=
  (db.findByVerificationToken tokenHash).filter (fun user =>
    user.verificationTokenExpiry.any (fun expiry => now ≤ expiry))

def verifyEmail (env : AuthEnv) (now : Instant) (db : AuthDb) (tokenHash : TokenHash) :
    Authed :=
  match db.verifies now tokenHash with
  | none => ⟨db, none⟩
  | some user =>
      let db := db.updateUser user.id (fun u => { u with
        emailVerified := true
        verificationToken := none
        verificationTokenExpiry := none })
      db.issueTokens env.policy now user.id none none

/-- `coolingDown` is the answer of the mail quota. -/
def resendVerification (env : AuthEnv) (now : Instant) (db : AuthDb) (email : String)
    (coolingDown : Bool) : Authed :=
  match db.findByEmail email with
  | none => ⟨db, none⟩
  | some user =>
      if user.role ≠ .customer then ⟨db, none⟩
      else if user.emailVerified then ⟨db, none⟩
      else if coolingDown then ⟨db, none⟩
      else ⟨db.sendVerificationEmail env now user.id, none⟩

/-- A wrong password counts, and locks the account at the threshold. -/
def wrongPassword (env : AuthEnv) (now : Instant) (db : AuthDb) (userId : Id) : AuthDb :=
  let db := db.updateUser userId (fun u => { u with
    failedLoginAttempts := u.failedLoginAttempts + 1 })
  db.updateUser userId (fun u =>
    { u with
      lockedUntil :=
        if env.lockoutThreshold ≤ u.failedLoginAttempts then
          some (now + env.lockoutDuration * minute)
        else u.lockedUntil })

def resetAttempts (db : AuthDb) (userId : Id) : AuthDb :=
  db.updateUser userId (fun u => { u with failedLoginAttempts := 0, lockedUntil := none })

/-- The checks of `loginWithCheck` on the account, after the password. -/
def loginAllowed (db : AuthDb) (user : Account) : Bool :=
  if user.role = .customer ∧ user.emailVerified = false then false
  else if user.isDeactivated then false
  else if user.role = .vendor then
    match db.vendorOf user.id with
    | none => false
    | some vendor => !(vendor.status = .pending) && !(vendor.status = .suspended)
  else true

/-- `limited` says that the counter on Redis has tripped. -/
def loginWithCheck (env : AuthEnv) (now : Instant) (db : AuthDb) (email password : String)
    (limited : Bool) : Authed :=
  if limited then ⟨db, none⟩
  else
    match db.findByEmail email with
    | none => ⟨db, none⟩
    | some user =>
        if user.lockedUntil.any (fun until_ => now < until_) then ⟨db, none⟩
        else
          -- the lock has run out
          let db := if user.lockedUntil.isSome then resetAttempts db user.id else db
          match user.password with
          | none => ⟨db, none⟩
          | some hash =>
              if env.bcryptCompare password hash = false then
                ⟨wrongPassword env now db user.id, none⟩
              else if loginAllowed db user = false then ⟨db, none⟩
              else (resetAttempts db user.id).issueTokens env.policy now user.id none none

/-- The account a Google profile signs in to: the one linked to it, or else the
one with its email address, when that is verified. -/
def AuthDb.googleAccount (db : AuthDb) (profile : GoogleProfile) : Option Account :=
  match db.findByGoogleId profile.googleId with
  | some user => some user
  | none => (db.findByEmail profile.email).filter Account.emailVerified

/-- The checks of `handleGoogleAuth` on the account. -/
def googleAllowed (db : AuthDb) (user : Account) : Bool :=
  if user.isDeactivated then false
  else if user.role = .vendor then
    !(db.vendorOf user.id).any (fun vendor => vendor.status = .suspended)
  else true

def handleGoogleAuth (env : AuthEnv) (now : Instant) (db : AuthDb) (profile : GoogleProfile) :
    Authed :=
  match db.findByGoogleId profile.googleId with
  | some user =>
      if googleAllowed db user then db.issueTokens env.policy now user.id none none
      else ⟨db, none⟩
  | none =>
      match db.findByEmail profile.email with
      | some existing =>
          if existing.emailVerified = false then ⟨db, none⟩
          else
            let db := db.updateUser existing.id (fun u => { u with
              googleId := some profile.googleId })
            if googleAllowed db existing then
              db.issueTokens env.policy now existing.id none none
            else ⟨db, none⟩
      | none =>
          let user : Account :=
            { id := db.nextRandom, email := profile.email, emailVerified := true
              googleId := some profile.googleId }
          match db.createUser user with
          | none => ⟨db, none⟩
          | some db => db.issueTokens env.policy now user.id none none

/-- The account checks of `refreshTokens`, with the revocations they lead to. -/
def refreshUser (env : AuthEnv) (now : Instant) (db : AuthDb) (token : RefreshToken) : Authed :=
  match db.users.find? token.userId with
  | none =>
      ⟨(db.denylistSession env.policy now token.familyId).deleteTokens
        (fun t => t.userId = token.userId), none⟩
  | some user =>
      if user.isDeactivated then
        ⟨(db.denylistSession env.policy now token.familyId).deleteTokens
          (fun t => t.userId = token.userId), none⟩
      else if user.role = .vendor ∧
          (db.vendorOf user.id).all (fun vendor => vendor.status = .suspended) then
        ⟨db.endSessions env.policy now user.id, none⟩
      else
        (db.cleanupExpired now).issueTokens env.policy now user.id
          (some token.sessionStartedAt) (some token.familyId)

def refreshTokens (env : AuthEnv) (now : Instant) (db : AuthDb) (tokenHash : TokenHash) :
    Authed :=
  match db.findToken tokenHash with
  | none => ⟨db, none⟩
  | some token =>
      match token.presented env.policy now with
      | .reused | .aged =>
          ⟨(db.denylistSession env.policy now token.familyId).deleteTokens
            (fun t => t.familyId = token.familyId), none⟩
      | .spent => ⟨db, none⟩
      | .expired => ⟨db.deleteTokens (fun t => t.id = token.id), none⟩
      | .live =>
          match db.consume now token.id with
          | none => ⟨db, none⟩
          | some db => refreshUser env now db token

/-- `AdminService.deactivateUser`; an administrator is protected. -/
def deactivateUser (env : AuthEnv) (now : Instant) (db : AuthDb) (userId : Id)
    (isDeactivated : Bool) : Authed :=
  match db.users.find? userId with
  | none => ⟨db, none⟩
  | some target =>
      if target.role = .admin then ⟨db, none⟩
      else
        let db := db.updateUser userId (fun u => { u with isDeactivated })
        ⟨if isDeactivated then db.endSessions env.policy now userId else db, none⟩

/-- `AdminService.updateVendorStatus`, up to the bookings of the vendor. -/
def updateVendorStatus (env : AuthEnv) (now : Instant) (db : AuthDb) (vendorId : Id)
    (status : VendorStatus) : Authed :=
  match db.vendors.find? vendorId with
  | none => ⟨db, none⟩
  | some vendor =>
      let db := { db with vendors := db.vendors.update vendorId (fun v => { v with status }) }
      ⟨if status = .suspended then db.endSessions env.policy now vendor.userId else db, none⟩

/-! ## Runs -/

inductive AuthCall
  | register (email password : String) (phone : Option String)
  | verifyEmail (tokenHash : TokenHash)
  | resendVerification (email : String) (coolingDown : Bool)
  | loginWithCheck (email password : String) (limited : Bool)
  | handleGoogleAuth (profile : GoogleProfile)
  | refreshTokens (tokenHash : TokenHash)
  | deactivateUser (userId : Id) (isDeactivated : Bool)
  | approveVendor (vendorId : Id)
  | suspendVendor (vendorId : Id)
  | reactivateVendor (vendorId : Id)
  deriving DecidableEq, Repr

def AuthCall.exec (env : AuthEnv) (now : Instant) (db : AuthDb) : AuthCall → Authed
  | .register email password phone => Jadwal.register env now db email password phone
  | .verifyEmail tokenHash => Jadwal.verifyEmail env now db tokenHash
  | .resendVerification email coolingDown =>
      Jadwal.resendVerification env now db email coolingDown
  | .loginWithCheck email password limited =>
      Jadwal.loginWithCheck env now db email password limited
  | .handleGoogleAuth profile => Jadwal.handleGoogleAuth env now db profile
  | .refreshTokens tokenHash => Jadwal.refreshTokens env now db tokenHash
  | .deactivateUser userId isDeactivated =>
      Jadwal.deactivateUser env now db userId isDeactivated
  | .approveVendor vendorId => updateVendorStatus env now db vendorId .active
  | .suspendVendor vendorId => updateVendorStatus env now db vendorId .suspended
  | .reactivateVendor vendorId => updateVendorStatus env now db vendorId .active

structure AuthWorld where
  now : Instant
  db : AuthDb
  grants : List SessionGrant := []

inductive AuthAction
  | tick (elapsed : Nat)
  | call (c : AuthCall)
  deriving DecidableEq, Repr

def AuthWorld.step (env : AuthEnv) (w : AuthWorld) : AuthAction → Option AuthWorld
  | .tick elapsed => some { w with now := w.now + elapsed }
  | .call c => some
      { w with
        db := (c.exec env w.now w.db).db
        grants := w.grants ++ (c.exec env w.now w.db).grant.toList }

/-- No session has been issued yet, and Google profiles are linked to verified
accounts. -/
structure AuthWorld.Initial (w : AuthWorld) : Prop where
  refreshTokens : w.db.refreshTokens = Table.empty
  grants : w.grants = []
  google : ∀ u ∈ w.db.users.rows, u.googleId ≠ none → u.emailVerified = true

/-- An email is not verified on an account that is deactivated, or on one of a
vendor who is not active; nobody signs in with Google on the account of a vendor
whose profile is missing or pending. -/
def AuthWorld.ChecksKept (w : AuthWorld) : AuthAction → Prop
  | .call (.verifyEmail tokenHash) => ∀ user ∈ w.db.verifies w.now tokenHash,
      user.isDeactivated = false ∧ (user.role = .vendor →
        ∃ v ∈ w.db.vendorOf user.id, v.status = .active)
  | .call (.handleGoogleAuth profile) => ∀ user ∈ w.db.googleAccount profile,
      user.isDeactivated = false → user.role = .vendor →
        ∃ v ∈ w.db.vendorOf user.id, v.status ≠ .pending
  | _ => True

instance (w : AuthWorld) (a : AuthAction) : Decidable (w.ChecksKept a) := by
  unfold AuthWorld.ChecksKept
  split
  · exact @Option.decidableForallMem _ _ (fun _ => inferInstance) _
  · exact @Option.decidableForallMem _ _ (fun _ => inferInstance) _
  · infer_instance

/-! ## What a call keeps -/

variable {env : AuthEnv} {now : Instant} {db db' db'' : AuthDb} {userId : Id}

/-- Accounts stay, with their role; a verified email stays verified; Google
profiles stay linked to verified accounts; no profile becomes pending. -/
structure AccountsKept (db db' : AuthDb) : Prop where
  forward : ∀ u ∈ db.users.rows, ∃ u' ∈ db'.users.rows,
    u'.id = u.id ∧ u'.role = u.role ∧ (u.emailVerified = true → u'.emailVerified = true)
  google : (∀ u ∈ db.users.rows, u.googleId ≠ none → u.emailVerified = true) →
    ∀ u ∈ db'.users.rows, u.googleId ≠ none → u.emailVerified = true
  vendors : ∀ userId v, db.vendorOf userId = some v → v.status ≠ .pending →
    ∃ v', db'.vendorOf userId = some v' ∧ v'.status ≠ .pending

/-- Accounts that stay the same are kept. -/
theorem AccountsKept.of_eq (users : db'.users = db.users) (vendors : db'.vendors = db.vendors) :
    AccountsKept db db' where
  forward := fun u hu => ⟨u, users ▸ hu, rfl, rfl, id⟩
  google := fun h => users ▸ h
  vendors := fun userId v hv hp => ⟨v, by rw [AuthDb.vendorOf, vendors]; exact hv, hp⟩

/-- Keeping the accounts composes. -/
theorem AccountsKept.trans (h : AccountsKept db db') (h' : AccountsKept db' db'') :
    AccountsKept db db'' where
  forward := fun u hu => by
    obtain ⟨u', hu', hid, hrole, hver⟩ := h.forward u hu
    obtain ⟨u'', hu'', hid', hrole', hver'⟩ := h'.forward u' hu'
    exact ⟨u'', hu'', hid'.trans hid, hrole'.trans hrole, fun hv => hver' (hver hv)⟩
  google := fun hg => h'.google (h.google hg)
  vendors := fun userId v hv hp => by
    obtain ⟨v', hv', hp'⟩ := h.vendors userId v hv hp
    exact h'.vendors userId v' hv' hp'

/-- A column other than the id and the role of one account is written. -/
theorem AccountsKept.updateUser {f : Account → Account}
    {hf : ∀ u, Keyed.key (f u) = Keyed.key u} (role : ∀ u, (f u).role = u.role)
    (verified : ∀ u, u.emailVerified = true → (f u).emailVerified = true)
    (google : ∀ u ∈ db.users.rows, u.id = userId →
      (u.googleId ≠ none → u.emailVerified = true) → (f u).googleId ≠ none →
        (f u).emailVerified = true) :
    AccountsKept db (db.updateUser userId f hf) where
  forward := fun u hu => by
    refine ⟨_, List.mem_map.mpr ⟨u, hu, rfl⟩, ?_⟩
    split
    · exact ⟨hf u, role u, verified u⟩
    · exact ⟨rfl, rfl, id⟩
  google := fun h u' hu' => by
    obtain ⟨u, hu, rfl⟩ := List.mem_map.mp hu'
    split
    · rename_i hid
      exact google u hu (of_decide_eq_true hid) (h u hu)
    · exact h u hu
  vendors := fun _ v hv hp => ⟨v, hv, hp⟩

/-- A new account takes none away. -/
theorem AccountsKept.createUser {u : Account} (h : db.createUser u = some db')
    (google : u.googleId ≠ none → u.emailVerified = true) : AccountsKept db db' := by
  obtain ⟨users, hins, rfl⟩ := Option.map_eq_some_iff.mp h
  have hrows := (Table.insert?_eq_some.mp hins).2
  refine ⟨fun x hx => ⟨x, ?_, rfl, rfl, id⟩, fun hg x hx => ?_, fun _ v hv hp => ⟨v, hv, hp⟩⟩
  · change x ∈ users.rows
    rw [hrows]
    exact List.mem_append_left _ hx
  · change x ∈ users.rows at hx
    rw [hrows] at hx
    rcases List.mem_append.mp hx with hx | hx
    · exact hg x hx
    · rw [List.mem_singleton.mp hx]
      exact google

/-- A profile is approved, suspended or reactivated. -/
theorem AccountsKept.vendorStatus {vendorId : Id} {status : VendorStatus}
    (h : status ≠ .pending) :
    AccountsKept db { db with
      vendors := db.vendors.update vendorId (fun v => { v with status }) } where
  forward := fun u hu => ⟨u, hu, rfl, rfl, id⟩
  google := id
  vendors := fun userId v hv hp => by
    have hfirst := Table.first?_updateMany db.vendors (fun v => v.id = vendorId)
      (fun v => { v with status }) (fun _ => rfl) (fun v => v.userId = userId) (fun _ => rfl)
    refine ⟨if v.id = vendorId then { v with status } else v, ?_, ?_⟩
    · refine hfirst.trans ?_
      rw [AuthDb.vendorOf] at hv
      rw [hv, Option.map_some]
      simp
    · split
      · exact h
      · exact hp

/-- A verification mail keeps the accounts. -/
theorem sendVerificationEmail_kept :
    AccountsKept db (db.sendVerificationEmail env now userId) := by
  have hkept : AccountsKept db (db.updateUser userId (fun u => { u with
      verificationToken := some db.nextRandom
      verificationTokenExpiry := some (now + env.verificationExpiryHours * hour) })) := by
    refine AccountsKept.updateUser ?_ ?_ ?_
    · exact fun _ => rfl
    · exact fun _ h => h
    · exact fun _ _ _ h => h
  exact hkept.trans (.of_eq rfl rfl)

/-! ## What a call issues -/

/-- Every session a call issues is permitted, and every token it leaves belongs
to an owner of a token before or to the account of that session. -/
structure Fair (db : AuthDb) (r : Authed) : Prop where
  kept : AccountsKept db r.db
  tokens : ∀ t ∈ r.db.refreshTokens.rows,
    (∃ t₀ ∈ db.refreshTokens.rows, t₀.userId = t.userId) ∨
      ∃ g, r.grant = some g ∧ g.user ∈ r.db.users.rows ∧ g.user.id = t.userId ∧
        g.vendor = r.db.vendorOf g.user.id
  grant : ∀ g, r.grant = some g → g.Permitted

/-- A call that is refused grants nothing. -/
theorem Fair.refused (kept : AccountsKept db db')
    (tokens : ∀ t ∈ db'.refreshTokens.rows, ∃ t₀ ∈ db.refreshTokens.rows, t₀.userId = t.userId) :
    Fair db ⟨db', none⟩ where
  kept := kept
  tokens := fun t ht => Or.inl (tokens t ht)
  grant := by simp

/-- So does one that only ends sessions. -/
theorem Fair.refused_of_sublist (kept : AccountsKept db db')
    (tokens : db'.refreshTokens.rows.Sublist db.refreshTokens.rows) : Fair db ⟨db', none⟩ :=
  .refused kept fun t ht => ⟨t, tokens.subset ht, rfl⟩

theorem Fair.nothing : Fair db ⟨db, none⟩ :=
  .refused_of_sublist (.of_eq rfl rfl) (.refl _)

/-- `issueTokens` on an account that nothing bars. -/
theorem Fair.issue {policy : SessionPolicy} {started : Option Instant} {family : Option Id}
    {user : Account} (kept : AccountsKept db db')
    (tokens : ∀ t ∈ db'.refreshTokens.rows, ∃ t₀ ∈ db.refreshTokens.rows, t₀.userId = t.userId)
    (found : db'.users.find? userId = some user)
    (permitted : SessionGrant.Permitted ⟨user, db'.vendorOf user.id⟩) :
    Fair db (db'.issueTokens policy now userId started family) := by
  have hfamily : ∃ f n, family.elim db'.randomUUID (fun f => (f, db')) =
      (f, { db' with nextRandom := n }) := by
    cases family with
    | none => exact ⟨_, _, rfl⟩
    | some f => exact ⟨f, db'.nextRandom, rfl⟩
  obtain ⟨f, n, hf⟩ := hfamily
  rw [AuthDb.issueTokens, hf]
  simp only
  generalize hswept : AuthDb.sweepExpired now { db' with nextRandom := n } userId = swept
  generalize hevicted : swept.evict (policy.evicted (swept.activeTokens userId)) = evicted
  have hsub : evicted.refreshTokens.rows.Sublist db'.refreshTokens.rows := by
    subst hevicted hswept
    exact List.filter_sublist.trans List.filter_sublist
  have husers : evicted.users = db'.users := by
    subst hevicted hswept
    rfl
  have hvendors : evicted.vendors = db'.vendors := by
    subst hevicted hswept
    rfl
  cases hc : evicted.createToken (evicted.newToken policy now userId started f) with
  | none =>
      exact .refused (kept.trans (.of_eq husers hvendors))
        (fun t ht => tokens t (hsub.subset ht))
  | some stored =>
      obtain ⟨refreshTokens, hins, rfl⟩ := Option.map_eq_some_iff.mp hc
      have hrows := (Table.insert?_eq_some.mp hins).2
      have hfound : evicted.users.find? userId = some user := husers ▸ found
      obtain ⟨hmem, hid⟩ := Table.find?_eq_some.mp hfound
      have hvendor : evicted.vendorOf user.id = db'.vendorOf user.id := by
        rw [AuthDb.vendorOf, AuthDb.vendorOf, hvendors]
      have hgrant : AuthDb.grantOf { evicted with
          refreshTokens
          nextRandom := evicted.nextRandom + 1
          issued := evicted.issued ++ [evicted.newToken policy now userId started f] } userId =
          some ⟨user, evicted.vendorOf user.id⟩ := by
        rw [AuthDb.grantOf, hfound]
        rfl
      refine ⟨kept.trans (.of_eq husers hvendors), fun t ht => ?_, fun g hg => ?_⟩
      · change t ∈ refreshTokens.rows at ht
        rw [hrows] at ht
        rcases List.mem_append.mp ht with ht | ht
        · exact Or.inl (tokens t (hsub.subset ht))
        · refine Or.inr ⟨_, hgrant, hmem, ?_, rfl⟩
          rw [List.mem_singleton.mp ht]
          exact hid
      · obtain rfl := Option.some.inj (hgrant.symm.trans hg)
        rw [hvendor]
        exact permitted

/-! ## Call by call -/

theorem AuthDb.find_updateUser {user : Account} {f : Account → Account}
    (hf : ∀ u, Keyed.key (f u) = Keyed.key u) (h : user ∈ db.users.rows) :
    (db.updateUser user.id f hf).users.find? user.id = some (f user) := by
  have hfind : db.users.find? user.id = some user := Table.find?_key h
  have hupdate := Table.find?_update db.users user.id f hf user.id
  rw [if_pos rfl, hfind] at hupdate
  exact hupdate

/-- Resetting the attempts keeps the accounts. -/
theorem resetAttempts_kept : AccountsKept db (resetAttempts db userId) := by
  refine AccountsKept.updateUser ?_ ?_ ?_
  · exact fun _ => rfl
  · exact fun _ h => h
  · exact fun _ _ _ h => h

/-- So does counting a wrong password. -/
theorem wrongPassword_kept : AccountsKept db (wrongPassword env now db userId) := by
  refine AccountsKept.trans ?_ (AccountsKept.updateUser ?_ ?_ ?_)
  · refine AccountsKept.updateUser ?_ ?_ ?_
    · exact fun _ => rfl
    · exact fun _ h => h
    · exact fun _ _ _ h => h
  · exact fun _ => rfl
  · exact fun _ h => h
  · exact fun _ _ _ h => h

/-- **A registration grants nothing it may not.** -/
theorem register_fair {email password : String} {phone : Option String} :
    Fair db (register env now db email password phone) := by
  rw [register]
  split
  · exact .nothing
  · split
    · exact .nothing
    · simp only
      split
      · exact .nothing
      · rename_i db' hcreate
        have hkept : AccountsKept db db' := .createUser hcreate (by simp)
        obtain ⟨users, -, rfl⟩ := Option.map_eq_some_iff.mp hcreate
        exact .refused_of_sublist (hkept.trans sendVerificationEmail_kept) (.refl _)

/-- A verification token belongs to an account. -/
theorem verifies_mem {tokenHash : TokenHash} {user : Account}
    (h : db.verifies now tokenHash = some user) : user ∈ db.users.rows :=
  (Table.first?_eq_some (Option.filter_eq_some_iff.mp h).1).1

/-- The account is verified by the call itself; that nothing else bars it is for
the caller. -/
theorem verifyEmail_fair {tokenHash : TokenHash}
    (h : ∀ user ∈ db.verifies now tokenHash, user.isDeactivated = false ∧
      (user.role = .vendor → ∃ v ∈ db.vendorOf user.id, v.status = .active)) :
    Fair db (verifyEmail env now db tokenHash) := by
  rw [verifyEmail]
  cases hv : db.verifies now tokenHash with
  | none => exact .nothing
  | some user =>
      obtain ⟨hactive, happroved⟩ := h user hv
      refine Fair.issue ?_ (fun t ht => ⟨t, ht, rfl⟩) (AuthDb.find_updateUser _ (verifies_mem hv))
        ⟨hactive, fun _ => rfl, fun hrole => ?_⟩
      · refine AccountsKept.updateUser ?_ ?_ ?_
        · exact fun _ => rfl
        · exact fun _ _ => rfl
        · exact fun _ _ _ _ _ => rfl
      · obtain ⟨v, hv, hstatus⟩ := happroved hrole
        exact ⟨v, hv, hstatus⟩

/-- Sending the mail again grants nothing. -/
theorem resendVerification_fair {email : String} {coolingDown : Bool} :
    Fair db (resendVerification env now db email coolingDown) := by
  rw [resendVerification]
  split
  · exact .nothing
  · split
    · exact .nothing
    · split
      · exact .nothing
      · split
        · exact .nothing
        · exact .refused_of_sublist sendVerificationEmail_kept (.refl _)

/-- The login checks everything. -/
theorem loginAllowed_permitted {user : Account} (h : loginAllowed db user = true) :
    SessionGrant.Permitted ⟨user, db.vendorOf user.id⟩ := by
  unfold loginAllowed at h
  split at h
  · cases h
  · rename_i hverified
    split at h
    · cases h
    · rename_i hactive
      refine ⟨by simpa using hactive, fun hrole => ?_, fun hrole => ?_⟩
      · by_contra hne
        exact hverified ⟨hrole, by simpa using hne⟩
      · rw [if_pos hrole] at h
        cases hv : db.vendorOf user.id with
        | none => simp [hv] at h
        | some v =>
            refine ⟨v, rfl, ?_⟩
            simp only [hv] at h
            cases hstatus : v.status <;> simp [hstatus] at h ⊢

/-- **A login grants what its checks allow.** -/
theorem loginWithCheck_fair {email password : String} {limited : Bool} :
    Fair db (loginWithCheck env now db email password limited) := by
  rw [loginWithCheck]
  split
  · exact .nothing
  · cases hu : db.findByEmail email with
    | none => exact .nothing
    | some user =>
        have hmem : user ∈ db.users.rows := (Table.first?_eq_some hu).1
        simp only
        split
        · exact .nothing
        · -- a lock that has run out only resets the attempts
          generalize hdb : (if user.lockedUntil.isSome = true then resetAttempts db user.id
            else db) = unlocked
          have hkept : AccountsKept db unlocked := by
            subst hdb
            split
            · exact resetAttempts_kept
            · exact .of_eq rfl rfl
          have htokens : unlocked.refreshTokens = db.refreshTokens := by
            subst hdb
            split <;> rfl
          have hsub : unlocked.refreshTokens.rows.Sublist db.refreshTokens.rows := by
            rw [htokens]
          obtain ⟨u, hu', hfound⟩ : ∃ u, unlocked.users.find? user.id = some u ∧
              u.isDeactivated = user.isDeactivated ∧ u.role = user.role ∧
              u.emailVerified = user.emailVerified ∧ u.id = user.id := by
            subst hdb
            split
            · exact ⟨_, AuthDb.find_updateUser _ hmem, rfl, rfl, rfl, rfl⟩
            · exact ⟨user, Table.find?_key hmem, rfl, rfl, rfl, rfl⟩
          obtain ⟨hdeact, hrole, hver, hid⟩ := hfound
          split
          · exact .refused_of_sublist hkept hsub
          · split
            · exact .refused_of_sublist (hkept.trans wrongPassword_kept) hsub
            · split
              · exact .refused_of_sublist hkept hsub
              · rename_i hallowed
                have hp : SessionGrant.Permitted ⟨user, unlocked.vendorOf user.id⟩ :=
                  loginAllowed_permitted (by simpa using hallowed)
                have hmem' : u ∈ unlocked.users.rows := (Table.find?_eq_some.mp hu').1
                refine Fair.issue (hkept.trans resetAttempts_kept)
                  (fun t ht => ⟨t, hsub.subset ht, rfl⟩)
                  (hid ▸ AuthDb.find_updateUser _ hmem') ?_
                refine ⟨hdeact.trans hp.active, fun hr => ?_, fun hr => ?_⟩
                · exact hver.trans (hp.verified (hrole.symm.trans hr))
                · obtain ⟨v, hv, hstatus⟩ := hp.approved (hrole.symm.trans hr)
                  refine ⟨v, ?_, hstatus⟩
                  change unlocked.vendorOf u.id = some v
                  rw [hid]
                  exact hv

/-- What the Google sign-in allows is permitted, for a verified customer and a vendor past review.
-/
theorem googleAllowed_permitted {user : Account} (h : googleAllowed db user = true)
    (verified : user.role = .customer → user.emailVerified = true)
    (profile : user.isDeactivated = false → user.role = .vendor →
      ∃ v ∈ db.vendorOf user.id, v.status ≠ .pending) :
    SessionGrant.Permitted ⟨user, db.vendorOf user.id⟩ := by
  unfold googleAllowed at h
  split at h
  · cases h
  · rename_i hactive
    have hactive : user.isDeactivated = false := by simpa using hactive
    refine ⟨hactive, verified, fun hrole => ?_⟩
    obtain ⟨v, hv, hpending⟩ := profile hactive hrole
    rw [if_pos hrole, hv] at h
    refine ⟨v, hv, ?_⟩
    cases hstatus : v.status with
    | active => rfl
    | pending => exact absurd hstatus hpending
    | suspended => simp [hstatus] at h

/-- A Google profile signs in to an account with a verified email; that a vendor's
profile is there and decided on is for the caller. -/
theorem handleGoogleAuth_fair {profile : GoogleProfile}
    (google : ∀ u ∈ db.users.rows, u.googleId ≠ none → u.emailVerified = true)
    (h : ∀ user ∈ db.googleAccount profile, user.isDeactivated = false → user.role = .vendor →
      ∃ v ∈ db.vendorOf user.id, v.status ≠ .pending) :
    Fair db (handleGoogleAuth env now db profile) := by
  unfold AuthDb.googleAccount at h
  rw [handleGoogleAuth]
  cases hg : db.findByGoogleId profile.googleId with
  | some user =>
      simp only [hg] at h
      obtain ⟨hmem, hlinked⟩ := Table.first?_eq_some hg
      simp only [decide_eq_true_eq] at hlinked
      simp only
      split
      · rename_i hallowed
        exact Fair.issue (.of_eq rfl rfl) (fun t ht => ⟨t, ht, rfl⟩) (Table.find?_key hmem)
          (googleAllowed_permitted hallowed (fun _ => google user hmem (by simp [hlinked]))
            (h user rfl))
      · exact .nothing
  | none =>
      simp only [hg] at h
      cases he : db.findByEmail profile.email with
      | some existing =>
          have hmem : existing ∈ db.users.rows := (Table.first?_eq_some he).1
          simp only
          split
          · exact .nothing
          · rename_i hver
            have hver : existing.emailVerified = true := by simpa using hver
            have hkept : AccountsKept db (db.updateUser existing.id (fun u => { u with
                googleId := some profile.googleId })) := by
              refine AccountsKept.updateUser ?_ ?_ ?_
              · exact fun _ => rfl
              · exact fun _ h => h
              · intro u hu hid _ _
                rw [Table.key_inj hu hmem hid]
                exact hver
            split
            · rename_i hallowed
              refine Fair.issue hkept (fun t ht => ⟨t, ht, rfl⟩)
                (AuthDb.find_updateUser _ hmem) ?_
              have hp := googleAllowed_permitted hallowed (fun _ => hver)
                (h existing (by simp [he, hver]))
              exact ⟨hp.active, fun _ => hver, hp.approved⟩
            · exact .refused_of_sublist hkept (.refl _)
      | none =>
          simp only
          split
          · exact .nothing
          · rename_i db' hcreate
            have hkept : AccountsKept db db' := .createUser hcreate (by simp)
            obtain ⟨users, hins, rfl⟩ := Option.map_eq_some_iff.mp hcreate
            have hfound : users.find? db.nextRandom = some
                { id := db.nextRandom, email := profile.email, emailVerified := true
                  googleId := some profile.googleId } := by
              rw [Table.find?_insert? hins]
              exact if_pos rfl
            exact Fair.issue hkept (fun t ht => ⟨t, ht, rfl⟩) hfound
              ⟨rfl, fun _ => rfl, fun hrole => by cases hrole⟩

/-! ## Owners of sessions -/

/-- Whoever owns a session was let in once: verified, or with a decided
profile. -/
structure AuthDb.OwnsSession (db : AuthDb) (u : Account) : Prop where
  verified : u.role = .customer → u.emailVerified = true
  decided : u.role = .vendor → ∃ v, db.vendorOf u.id = some v ∧ v.status ≠ .pending

structure AuthWorld.Entitled (w : AuthWorld) : Prop where
  google : ∀ u ∈ w.db.users.rows, u.googleId ≠ none → u.emailVerified = true
  owners : ∀ t ∈ w.db.refreshTokens.rows, ∃ u ∈ w.db.users.rows,
    u.id = t.userId ∧ w.db.OwnsSession u
  grants : ∀ g ∈ w.grants, g.Permitted

/-- The revocations take tokens and leave the accounts. -/
theorem denylistSession_foldl (policy : SessionPolicy) (now : Instant) (db : AuthDb)
    (families : List Id) :
    (families.foldl (AuthDb.denylistSession policy now) db).users = db.users ∧
      (families.foldl (AuthDb.denylistSession policy now) db).vendors = db.vendors ∧
      (families.foldl (AuthDb.denylistSession policy now) db).refreshTokens =
        db.refreshTokens := by
  induction families generalizing db with
  | nil => exact ⟨rfl, rfl, rfl⟩
  | cons f fs ih => exact ih (AuthDb.denylistSession policy now db f)

/-- Ending sessions keeps the accounts. -/
theorem endSessions_kept {policy : SessionPolicy} :
    AccountsKept db (db.endSessions policy now userId) ∧
      (db.endSessions policy now userId).refreshTokens.rows.Sublist db.refreshTokens.rows := by
  obtain ⟨husers, hvendors, htokens⟩ :=
    denylistSession_foldl policy now db (db.liveFamilies userId)
  refine ⟨.of_eq husers hvendors, ?_⟩
  rw [← htokens]
  exact List.filter_sublist

/-- A refresh checks the deactivation and the suspension, and the owner was
verified, or decided on, before. -/
theorem refreshUser_fair {token : RefreshToken} {user : Account} (kept : AccountsKept db db')
    (tokens : ∀ t ∈ db'.refreshTokens.rows, ∃ t₀ ∈ db.refreshTokens.rows, t₀.userId = t.userId)
    (found : db'.users.find? token.userId = some user) (owner : db'.OwnsSession user) :
    Fair db (refreshUser env now db' token) := by
  rw [refreshUser, found]
  simp only
  split
  · refine .refused (kept.trans (.of_eq rfl rfl)) fun t ht => tokens t ?_
    exact List.filter_sublist.subset ht
  · rename_i hactive
    split
    · obtain ⟨hended, hsub⟩ := @endSessions_kept now db' user.id env.policy
      exact .refused (kept.trans hended) fun t ht => tokens t (hsub.subset ht)
    · rename_i hvendor
      obtain ⟨hmem, hid⟩ := Table.find?_eq_some.mp found
      have hfound : (db'.cleanupExpired now).users.find? user.id = some user :=
        Table.find?_key hmem
      refine Fair.issue (kept.trans (.of_eq rfl rfl))
        (fun t ht => tokens t (List.filter_sublist.subset ht)) hfound ?_
      refine ⟨by simpa using hactive, owner.verified, fun hrole => ?_⟩
      obtain ⟨v, hv, hpending⟩ := owner.decided hrole
      refine ⟨v, hv, ?_⟩
      cases hstatus : v.status with
      | active => rfl
      | pending => exact absurd hstatus hpending
      | suspended => exact absurd ⟨hrole, by simp [hv, hstatus]⟩ hvendor

/-- **A refresh grants what the account is still entitled to.** -/
theorem AuthWorld.Entitled.refreshTokens {w : AuthWorld} (h : w.Entitled)
    {tokenHash : TokenHash} : Fair w.db (refreshTokens env w.now w.db tokenHash) := by
  rw [Jadwal.refreshTokens]
  cases ht : w.db.findToken tokenHash with
  | none => exact .nothing
  | some token =>
      have hmem : token ∈ w.db.refreshTokens.rows := (Table.first?_eq_some ht).1
      simp only
      split
      · exact .refused_of_sublist (.of_eq rfl rfl) List.filter_sublist
      · exact .refused_of_sublist (.of_eq rfl rfl) List.filter_sublist
      · exact .nothing
      · exact .refused_of_sublist (.of_eq rfl rfl) List.filter_sublist
      · split
        · exact .nothing
        · rename_i db' hconsume
          obtain ⟨u, hu, hid, howner⟩ := h.owners token hmem
          simp only [AuthDb.consume] at hconsume
          split at hconsume
          · cases hconsume
          · obtain rfl := Option.some.inj hconsume
            refine refreshUser_fair (.of_eq rfl rfl) (fun t ht => ?_)
              (hid ▸ Table.find?_key hu) ⟨howner.verified, howner.decided⟩
            obtain ⟨t₀, ht₀, rfl⟩ := List.mem_map.mp ht
            refine ⟨t₀, ht₀, ?_⟩
            split <;> rfl

/-- Deactivating an account grants nothing. -/
theorem deactivateUser_fair {isDeactivated : Bool} :
    Fair db (deactivateUser env now db userId isDeactivated) := by
  rw [deactivateUser]
  split
  · exact .nothing
  · split
    · exact .nothing
    · have hkept : AccountsKept db (db.updateUser userId (fun u => { u with isDeactivated })) := by
        refine AccountsKept.updateUser ?_ ?_ ?_
        · exact fun _ => rfl
        · exact fun _ h => h
        · exact fun _ _ _ h => h
      simp only
      split
      · obtain ⟨hended, hsub⟩ := @endSessions_kept now
          (db.updateUser userId (fun u => { u with isDeactivated })) userId env.policy
        exact .refused_of_sublist (hkept.trans hended) hsub
      · exact .refused_of_sublist hkept (.refl _)

/-- A vendor's status grants nothing. -/
theorem updateVendorStatus_fair {vendorId : Id} {status : VendorStatus}
    (h : status ≠ .pending) : Fair db (updateVendorStatus env now db vendorId status) := by
  rw [updateVendorStatus]
  split
  · exact .nothing
  · rename_i vendor _
    have hkept := @AccountsKept.vendorStatus db vendorId status h
    simp only
    split
    · obtain ⟨hended, hsub⟩ := @endSessions_kept now { db with
        vendors := db.vendors.update vendorId (fun v => { v with status }) } vendor.userId
        env.policy
      exact .refused_of_sublist (hkept.trans hended) hsub
    · exact .refused_of_sublist hkept (.refl _)

/-- Every call is fair, under its condition. -/
theorem AuthCall.exec_fair {w : AuthWorld} (h : w.Entitled) {c : AuthCall}
    (hc : w.ChecksKept (.call c)) : Fair w.db (c.exec env w.now w.db) := by
  cases c with
  | register email password phone => exact register_fair
  | verifyEmail tokenHash => exact verifyEmail_fair hc
  | resendVerification email coolingDown => exact resendVerification_fair
  | loginWithCheck email password limited => exact loginWithCheck_fair
  | handleGoogleAuth profile => exact handleGoogleAuth_fair h.google hc
  | refreshTokens tokenHash => exact h.refreshTokens
  | deactivateUser userId isDeactivated => exact deactivateUser_fair
  | approveVendor vendorId => exact updateVendorStatus_fair (by decide)
  | suspendVendor vendorId => exact updateVendorStatus_fair (by decide)
  | reactivateVendor vendorId => exact updateVendorStatus_fair (by decide)

/-- An owner of a session stays one. -/
theorem AccountsKept.ownsSession (h : AccountsKept db db') {u : Account}
    (hu : u ∈ db.users.rows) (howns : db.OwnsSession u) :
    ∃ u' ∈ db'.users.rows, u'.id = u.id ∧ db'.OwnsSession u' := by
  obtain ⟨u', hu', hid, hrole, hver⟩ := h.forward u hu
  refine ⟨u', hu', hid, fun hr => hver (howns.verified (hrole ▸ hr)), fun hr => ?_⟩
  obtain ⟨v, hv, hp⟩ := howns.decided (hrole ▸ hr)
  rw [hid]
  exact h.vendors u.id v hv hp

/-- Who is granted a session may own it. -/
theorem SessionGrant.Permitted.ownsSession {g : SessionGrant} (h : g.Permitted)
    (vendor : g.vendor = db.vendorOf g.user.id) : db.OwnsSession g.user := by
  refine ⟨h.verified, fun hr => ?_⟩
  obtain ⟨v, hv, hactive⟩ := h.approved hr
  exact ⟨v, vendor.symm.trans hv, by simp [hactive]⟩

/-- **Every step leaves the sessions entitled.** -/
theorem AuthWorld.Entitled.step {w w' : AuthWorld} {a : AuthAction} (h : w.Entitled)
    (hg : w.ChecksKept a) (hstep : w.step env a = some w') : w'.Entitled := by
  cases a with
  | tick elapsed =>
      obtain rfl := Option.some.inj hstep
      exact ⟨h.google, fun t ht => by
        obtain ⟨u, hu, hid, howns⟩ := h.owners t ht
        exact ⟨u, hu, hid, howns.verified, howns.decided⟩, h.grants⟩
  | call c =>
      obtain rfl := Option.some.inj hstep
      have hfair := @AuthCall.exec_fair env w h c hg
      refine ⟨hfair.kept.google h.google, fun t ht => ?_, fun g hgr => ?_⟩
      · rcases hfair.tokens t ht with ⟨t₀, ht₀, howner⟩ | ⟨g, hgrant, hmem, howner, hvendor⟩
        · obtain ⟨u, hu, hid, howns⟩ := h.owners t₀ ht₀
          obtain ⟨u', hu', hid', howns'⟩ := hfair.kept.ownsSession hu howns
          exact ⟨u', hu', hid'.trans (hid.trans howner), howns'⟩
        · exact ⟨g.user, hmem, howner, (hfair.grant g hgrant).ownsSession hvendor⟩
      · rcases List.mem_append.mp hgr with hgr | hgr
        · exact h.grants g hgr
        · exact hfair.grant g (by simpa using hgr)

/-- At the start there are no sessions. -/
theorem AuthWorld.Initial.entitled {w : AuthWorld} (h : w.Initial) : w.Entitled where
  google := h.google
  owners := by simp [h.refreshTokens]
  grants := by simp [h.grants]

/-- **No session is issued to a barred account**, in every run where the two calls
with missing checks are kept to the accounts the checks would let in. -/
theorem sessions_permitted (env : AuthEnv) {w w' : AuthWorld} (initial : w.Initial)
    (run : Run (AuthWorld.step env) AuthWorld.ChecksKept w w') :
    ∀ g ∈ w'.grants, g.Permitted :=
  (run.invariant AuthWorld.Entitled (fun _ _ _ h hg hstep => h.step hg hstep)
    initial.entitled).grants

/-- Nobody has registered yet; a password is its own hash. -/
def newSite : AuthWorld where
  now := 0
  db := { users := .empty, vendors := .empty, refreshTokens := .empty }

def newSiteEnv : AuthEnv where
  bcryptCompare := fun password hash => password == hash

theorem newSite_initial : newSite.Initial := ⟨rfl, rfl, by simp [newSite]⟩

/-- A customer registers, verifies the address, logs in and renews the session. -/
theorem sessions_permitted_customer :
    ∃ w, Run (AuthWorld.step newSiteEnv) AuthWorld.ChecksKept newSite w ∧
      w.grants.length = 3 ∧ ∀ g ∈ w.grants, g.Permitted := by
  obtain ⟨w, run, h⟩ := @Run.of_execAll_test _ _ (AuthWorld.step newSiteEnv)
    AuthWorld.ChecksKept _
    [.call (.register "customer" "secret" none), .call (.verifyEmail 1),
      .call (.loginWithCheck "customer" "secret" false), .tick 60000,
      .call (.refreshTokens 3)] newSite
    (fun w => w.grants.length = 3) (by decide +kernel)
  exact ⟨w, run, of_decide_eq_true h, sessions_permitted newSiteEnv newSite_initial run⟩

/-- A customer registers, is deactivated, and then verifies the email address:
the verification logs the customer in. -/
theorem deactivated_customer_verifies :
    newSite.Initial ∧ ∃ w, Run (AuthWorld.step newSiteEnv) (fun _ _ => True) newSite w ∧
      ¬ ∀ g ∈ w.grants, g.Permitted := by
  refine ⟨newSite_initial, ?_⟩
  obtain ⟨w, run, h⟩ := @Run.of_execAll_test _ _ (AuthWorld.step newSiteEnv) (fun _ _ => True) _
    [.call (.register "customer" "secret" none), .call (.deactivateUser 0 true),
      .call (.verifyEmail 1)] newSite
    (fun w => ∃ g ∈ w.grants, g.user.isDeactivated = true) (by decide +kernel)
  obtain ⟨g, hg, hdeactivated⟩ := of_decide_eq_true h
  refine ⟨w, run, fun hall => ?_⟩
  have hactive := (hall g hg).active
  rw [hdeactivated] at hactive
  cases hactive

end Jadwal
