import Jadwal.Schema

/-!
# Accounts and refresh tokens

The tables behind a login.  A session is a **family** of refresh tokens: the
token a login stores, and then one token for each rotation, all with the
family id and the start time of the first.  A token that was rotated stays in
the table as a tombstone, so that its reuse is noticed.

Tokens and ids are 288 or 122 random bits, and the table stores the SHA-256
of a token.  Drawing one is drawing a number nobody has drawn yet, and a token
is named by its hash.  `issued` keeps every row as it was created; no
statement reads it.
-/

namespace Jadwal

/-- A SHA-256 of a random token. -/
abbrev TokenHash := Nat

inductive Role
  | customer | vendor | admin
  deriving DecidableEq, Repr

/-- The columns of `users` that the session code reads or writes. -/
structure Account where
  id : Id
  email : String
  phone : Option String := none
  password : Option String := none
  role : Role := .customer
  emailVerified : Bool := false
  verificationToken : Option TokenHash := none
  verificationTokenExpiry : Option Instant := none
  googleId : Option String := none
  isDeactivated : Bool := false
  failedLoginAttempts : Nat := 0
  lockedUntil : Option Instant := none
  deletedAt : Option Instant := none
  deriving DecidableEq, Repr

structure RefreshToken where
  id : Id
  userId : Id
  tokenHash : TokenHash
  expiresAt : Instant
  createdAt : Instant
  sessionStartedAt : Instant
  familyId : Id
  rotatedAt : Option Instant := none
  deriving DecidableEq, Repr

instance : Keyed Account Id := ⟨Account.id⟩
instance : Keyed RefreshToken Id := ⟨RefreshToken.id⟩

/-- The row as it was created. -/
def RefreshToken.asIssued (t : RefreshToken) : RefreshToken :=
  { t with rotatedAt := none }

/-- The settings of `AuthService` and `SessionDenylistService`. -/
structure SessionPolicy where
  refreshExpiry : Nat := 7
  sessionMaxDays : Nat := 7
  refreshReuseGraceMs : Nat := 30000
  maxActiveTokens : Nat := 5
  denylistTtl : Nat := 960000
  deriving DecidableEq, Repr

def SessionPolicy.sessionMaxMs (policy : SessionPolicy) : Int :=
  policy.sessionMaxDays * day

structure AuthDb where
  users : Table Account
  vendors : Table Vendor
  refreshTokens : Table RefreshToken
  /-- The Redis markers `denylist:sess:<family>`, with their expiry. -/
  denylist : List (Id × Instant) := []
  nextRandom : Nat := 0
  issued : List RefreshToken := []

/-! ## Statements on the tokens -/

namespace AuthDb

/-- `refreshToken.findUnique({ where: { tokenHash } })` -/
def findToken (db : AuthDb) (tokenHash : TokenHash) : Option RefreshToken :=
  db.refreshTokens.first? (fun t => t.tokenHash = tokenHash)

/-- `vendor.findUnique({ where: { userId } })` -/
def vendorOf (db : AuthDb) (userId : Id) : Option Vendor :=
  db.vendors.first? (fun v => v.userId = userId)

/-- The distinct families of a user with a token that is not rotated, but one. -/
def liveFamilies (db : AuthDb) (userId : Id) (keepFamilyId : Option Id := none) :
    List Id :=
  ((db.refreshTokens.select (fun t =>
      t.userId = userId ∧ t.rotatedAt = none ∧ keepFamilyId ≠ some t.familyId)).map
    RefreshToken.familyId).dedup

def deleteTokens (db : AuthDb) (p : RefreshToken → Bool) : AuthDb :=
  { db with refreshTokens := db.refreshTokens.deleteMany p }

/-- `denylistSession`, for one family. -/
def denylistSession (policy : SessionPolicy) (now : Instant) (db : AuthDb)
    (familyId : Id) : AuthDb :=
  { db with
    denylist := (familyId, now + policy.denylistTtl) ::
      db.denylist.filter (fun marker => marker.1 ≠ familyId) }

/-- `issueTokens`: the expired tokens of the user go. -/
def sweepExpired (now : Instant) (db : AuthDb) (userId : Id) : AuthDb :=
  db.deleteTokens (fun t => t.userId = userId ∧ t.expiresAt < now)

/-- `cleanupExpiredTokens`: every expired token goes. -/
def cleanupExpired (now : Instant) (db : AuthDb) : AuthDb :=
  db.deleteTokens (fun t => t.expiresAt < now)

/-- `issueTokens`: the tokens of the user that are not rotated, newest first. -/
def activeTokens (db : AuthDb) (userId : Id) : List Id :=
  ((db.refreshTokens.select (fun t => t.userId = userId ∧ t.rotatedAt = none)).insertionSort
    (fun a b => b.createdAt ≤ a.createdAt)).map RefreshToken.id

end AuthDb

/-- `Array.prototype.slice(start)`; a negative start counts from the end. -/
def sliceFrom {α : Type} (l : List α) (start : Int) : List α :=
  if 0 ≤ start then l.drop start.toNat else l.drop (l.length - (-start).toNat)

/-- `issueTokens`: the oldest active tokens make room for the new one. -/
def SessionPolicy.evicted (policy : SessionPolicy) (active : List Id) : List Id :=
  if policy.maxActiveTokens ≤ active.length then
    sliceFrom active (policy.maxActiveTokens - 1)
  else []

namespace AuthDb

def evict (db : AuthDb) (ids : List Id) : AuthDb :=
  db.deleteTokens (fun t => t.id ∈ ids)

/-- The row `issueTokens` creates.  Its id and its token are drawn. -/
def newToken (policy : SessionPolicy) (now : Instant) (db : AuthDb) (userId : Id)
    (sessionStartedAt : Option Instant) (familyId : Id) : RefreshToken where
  id := db.nextRandom
  userId := userId
  tokenHash := db.nextRandom
  expiresAt := now + policy.refreshExpiry * day
  createdAt := now
  sessionStartedAt := sessionStartedAt.getD now
  familyId := familyId

/-- `refreshToken.create`; a taken id would throw. -/
def createToken (db : AuthDb) (t : RefreshToken) : Option AuthDb :=
  (db.refreshTokens.insert? t).map (fun refreshTokens =>
    { db with
      refreshTokens := refreshTokens
      nextRandom := db.nextRandom + 1
      issued := db.issued ++ [t] })

/-- `crypto.randomUUID()` -/
def randomUUID (db : AuthDb) : Id × AuthDb :=
  (db.nextRandom, { db with nextRandom := db.nextRandom + 1 })

/-- `refreshToken.updateMany({ where: { id, rotatedAt: null } })`: the database
with the token rotated, or nothing when no row matches. -/
def consume (now : Instant) (db : AuthDb) (id : Id) : Option AuthDb :=
  if (db.refreshTokens.select (fun t => t.id = id ∧ t.rotatedAt = none)).length = 0 then
    none
  else
    some { db with
      refreshTokens := db.refreshTokens.updateMany
        (fun t => t.id = id ∧ t.rotatedAt = none)
        (fun t => { t with rotatedAt := some now }) }

end AuthDb

/-- What `refreshTokens` makes of the token it found. -/
inductive Presented
  /-- Rotated longer ago than the grace window: a replay. -/
  | reused
  /-- Rotated just now by another tab. -/
  | spent
  | expired
  /-- The session is older than `sessionMaxDays`. -/
  | aged
  | live
  deriving DecidableEq, Repr

def RefreshToken.presented (policy : SessionPolicy) (now : Instant)
    (t : RefreshToken) : Presented :=
  match t.rotatedAt with
  | some rotatedAt =>
      if policy.refreshReuseGraceMs < now - rotatedAt then .reused else .spent
  | none =>
      if t.expiresAt < now then .expired
      else if policy.sessionMaxMs < now - t.sessionStartedAt then .aged
      else .live

end Jadwal
