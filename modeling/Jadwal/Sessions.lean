import Jadwal.Auth
import Jadwal.Lib.Run

/-!
# Sessions, one statement at a time

The calls that make, rotate and revoke sessions, cut at every statement they
send to the database or to Redis: a task is a call between two statements, and
tasks of any number of calls take turns.  The checks a login makes before
`issueTokens` are left out, so any user may log in at any time, and the rest of
the application may change the accounts in any way between two statements.

`history` records what the claims about sessions speak of: logins, the tokens
refresh calls present, passed age checks, rotations, successions, refresh calls
that succeed and families that a completed call revoked.
-/

namespace Jadwal

/-- A refresh call that has consumed its token. -/
structure Rotation where
  call : Nat
  token : RefreshToken
  deriving DecidableEq, Repr

/-- The arguments of `issueTokens`; `rotation` is the refresh call behind it,
and a login has none. -/
structure Issue where
  userId : Id
  sessionStartedAt : Option Instant
  familyId : Id
  rotation : Option Rotation
  deriving DecidableEq, Repr

def Rotation.issue (r : Rotation) : Issue where
  userId := r.token.userId
  sessionStartedAt := some r.token.sessionStartedAt
  familyId := r.token.familyId
  rotation := some r

/-- The condition of a revoking `deleteMany`. -/
inductive Scope
  | family (familyId : Id)
  | familyOf (userId familyId : Id)
  | families (userId : Id) (familyIds : List Id)
  | user (userId : Id)
  | userExcept (userId : Id) (tokenHash : TokenHash)
  deriving DecidableEq, Repr

def Scope.covers : Scope → RefreshToken → Bool
  | .family familyId, t => t.familyId = familyId
  | .familyOf userId familyId, t => t.familyId = familyId ∧ t.userId = userId
  | .families userId familyIds, t => t.userId = userId ∧ t.familyId ∈ familyIds
  | .user userId, t => t.userId = userId
  | .userExcept userId tokenHash, t => t.userId = userId ∧ t.tokenHash ≠ tokenHash

/-- The families a revoking `deleteMany` ends: those it names, or those of the
user it names, apart from the family of the token it spares. -/
def Scope.ends (db : AuthDb) : Scope → List Id
  | .family familyId => [familyId]
  | .familyOf _ familyId => [familyId]
  | .families _ familyIds => familyIds
  | .user userId =>
      (db.issued.filter (fun t => t.userId = userId)).map RefreshToken.familyId
  | .userExcept userId tokenHash =>
      (db.issued.filter (fun t => t.userId = userId ∧
        (db.findToken tokenHash).map RefreshToken.familyId ≠ some t.familyId)).map
          RefreshToken.familyId

/-- What a call with the families of the other sessions does next. -/
inductive Others
  /-- `changePassword` deletes in its transaction and denylists after it. -/
  | changePassword
  /-- `revokeAllOtherSessions` denylists and then deletes those families. -/
  | revoke
  deriving DecidableEq, Repr

inductive SessionTask
  -- `refreshTokens`
  | lookup (call : Nat) (tokenHash : TokenHash)
  | check (call : Nat) (token : RefreshToken)
  | deleteExpired (id : Id)
  | consume (call : Nat) (token : RefreshToken)
  | readUser (rotation : Rotation)
  | readVendor (rotation : Rotation)
  -- `issueTokens`
  | sweep (issue : Issue)
  | readActive (issue : Issue)
  | evict (issue : Issue) (ids : List Id)
  | create (issue : Issue)
  -- revocations: the markers before the delete, the delete, the markers after it
  | denylistUser (userId : Id)
  | denylist (familyIds : List Id) (scope : Scope)
  | delete (scope : Scope) (closes : Bool) (snapshot : List Id)
  | denylistAfter (snapshot : List Id) (ended : List Id)
  -- what the revoking calls read first
  | logoutLookup (tokenHash : TokenHash)
  | snapshot (userId : Id) (closes : Bool)
  | currentFamily (userId : Id) (tokenHash : Option TokenHash) (next : Others)
  | otherFamilies (userId : Id) (tokenHash : Option TokenHash)
      (currentFamilyId : Option Id) (next : Others)
  | sessionLookup (userId sessionId : Id)
  | cleanup
  deriving DecidableEq, Repr

inductive SessionEvent
  /-- A login stored the first token of a family. -/
  | loggedIn (familyId userId : Id) (sessionStartedAt : Instant)
  | presented (call : Nat) (tokenHash : TokenHash)
  | passedAgeCheck (familyId : Id) (at_ : Instant)
  | rotated (tokenId : Id)
  /-- A rotation stored the successor of the token it consumed. -/
  | succeeded (tokenId successorId : Id)
  | refreshed (call : Nat)
  /-- A call that revoked the family has returned. -/
  | revoked (familyId : Id)
  deriving DecidableEq, Repr

/-- What one statement of a task leads to. -/
structure Stepped where
  db : AuthDb
  next : List SessionTask := []
  events : List SessionEvent := []

/-- The row of a user is gone or deactivated. -/
def AuthDb.accountGone (db : AuthDb) (userId : Id) : Bool :=
  match db.users.find? userId with
  | none => true
  | some user => user.isDeactivated

/-- `refreshTokens` bars a vendor without a profile or with a suspended one. -/
def AuthDb.vendorBarred (db : AuthDb) (userId : Id) : Bool :=
  match db.vendorOf userId with
  | none => true
  | some vendor => vendor.status = .suspended

/-- The account of the user is closed in the transaction that revokes. -/
def AuthDb.closeAccount (now : Instant) (db : AuthDb) (userId : Id) : AuthDb :=
  { db with
    users := db.users.update userId (fun u => { u with
      email := toString userId ++ "@deleted.local"
      phone := none
      password := none
      googleId := none
      verificationToken := none
      verificationTokenExpiry := none
      isDeactivated := true
      emailVerified := false
      deletedAt := some now }) }

def Scope.userId? : Scope → Option Id
  | .family _ => none
  | .familyOf userId _ => some userId
  | .families userId _ => some userId
  | .user userId => some userId
  | .userExcept userId _ => some userId

/-- The local checks of `refreshTokens` on the token it read. -/
def checkStep (policy : SessionPolicy) (now : Instant) (db : AuthDb) (call : Nat)
    (token : RefreshToken) : Stepped :=
  match token.presented policy now with
  | .reused => ⟨db, [.denylist [token.familyId] (.family token.familyId)], []⟩
  | .spent => ⟨db, [], []⟩
  | .expired => ⟨db, [.deleteExpired token.id], []⟩
  | .aged => ⟨db, [.denylist [token.familyId] (.family token.familyId)], []⟩
  | .live => ⟨db, [.consume call token], [.passedAgeCheck token.familyId now]⟩

/-- The account check after the token was consumed. -/
def readUserStep (db : AuthDb) (r : Rotation) : Stepped :=
  if db.accountGone r.token.userId then
    ⟨db, [.denylist [r.token.familyId] (.user r.token.userId)], []⟩
  else if (db.users.find? r.token.userId).any (fun user => user.role = .vendor) then
    ⟨db, [.readVendor r], []⟩
  else ⟨db, [.cleanup, .sweep r.issue], []⟩

/-- The last statement of `issueTokens`. -/
def createStep (policy : SessionPolicy) (now : Instant) (db : AuthDb) (i : Issue) :
    Stepped :=
  let token := db.newToken policy now i.userId i.sessionStartedAt i.familyId
  match db.createToken token with
  | none => ⟨db, [], []⟩
  | some db' =>
      match i.rotation with
      | none => ⟨db', [], [.loggedIn i.familyId i.userId token.sessionStartedAt]⟩
      | some r => ⟨db', [], [.succeeded r.token.id token.id, .refreshed r.call]⟩

/-- The revoking statement; `closes` is the rest of `deleteOwnAccount`'s
transaction. -/
def deleteStep (now : Instant) (db : AuthDb) (scope : Scope) (closes : Bool)
    (snapshot : List Id) : Stepped :=
  let db' := db.deleteTokens scope.covers
  ⟨if closes then scope.userId?.elim db' (db'.closeAccount now) else db',
    [.denylistAfter snapshot (scope.ends db)], []⟩

/-- The families of the other sessions are read, and the call goes on. -/
def otherFamiliesStep (db : AuthDb) (userId : Id) (tokenHash : Option TokenHash)
    (currentFamilyId : Option Id) : Others → List SessionTask
  | .changePassword =>
      [.delete (tokenHash.elim (.user userId) (.userExcept userId)) false
        (db.liveFamilies userId currentFamilyId)]
  | .revoke =>
      let familyIds := db.liveFamilies userId currentFamilyId
      if familyIds = [] then [] else [.denylist familyIds (.families userId familyIds)]

/-- One statement of a task. -/
def SessionTask.run (policy : SessionPolicy) (now : Instant) (db : AuthDb) :
    SessionTask → Stepped
  | .lookup call tokenHash =>
      match db.findToken tokenHash with
      | none => ⟨db, [], []⟩
      | some token => ⟨db, [.check call token], []⟩
  | .check call token => checkStep policy now db call token
  | .deleteExpired id => ⟨db.deleteTokens (fun t => t.id = id), [], []⟩
  | .consume call token =>
      match db.consume now token.id with
      | none => ⟨db, [], []⟩
      | some db' => ⟨db', [.readUser ⟨call, token⟩], [.rotated token.id]⟩
  | .readUser r => readUserStep db r
  | .readVendor r =>
      if db.vendorBarred r.token.userId then ⟨db, [.denylistUser r.token.userId], []⟩
      else ⟨db, [.cleanup, .sweep r.issue], []⟩
  | .sweep i => ⟨db.sweepExpired now i.userId, [.readActive i], []⟩
  | .readActive i =>
      match policy.evicted (db.activeTokens i.userId) with
      | [] => ⟨db, [.create i], []⟩
      | ids => ⟨db, [.evict i ids], []⟩
  | .evict i ids => ⟨db.evict ids, [.create i], []⟩
  | .create i => createStep policy now db i
  | .denylistUser userId => ⟨db, [.denylist (db.liveFamilies userId) (.user userId)], []⟩
  | .denylist [] scope => ⟨db, [.delete scope false []], []⟩
  | .denylist (familyId :: familyIds) scope =>
      ⟨db.denylistSession policy now familyId, [.denylist familyIds scope], []⟩
  | .delete scope closes families => deleteStep now db scope closes families
  | .denylistAfter [] ended => ⟨db, [], ended.map .revoked⟩
  | .denylistAfter (familyId :: familyIds) ended =>
      ⟨db.denylistSession policy now familyId, [.denylistAfter familyIds ended], []⟩
  | .logoutLookup tokenHash =>
      match db.findToken tokenHash with
      | none => ⟨db, [], []⟩
      | some token => ⟨db, [.denylist [token.familyId] (.family token.familyId)], []⟩
  | .snapshot userId closes =>
      ⟨db, [.delete (.user userId) closes (db.liveFamilies userId)], []⟩
  | .currentFamily userId tokenHash next =>
      ⟨db, [.otherFamilies userId tokenHash
        ((tokenHash.bind db.findToken).map RefreshToken.familyId) next], []⟩
  | .otherFamilies userId tokenHash currentFamilyId next =>
      ⟨db, otherFamiliesStep db userId tokenHash currentFamilyId next, []⟩
  | .sessionLookup userId sessionId =>
      match db.refreshTokens.find? sessionId with
      | none => ⟨db, [], []⟩
      | some session =>
          if session.userId = userId then
            ⟨db, [.denylist [session.familyId] (.familyOf userId session.familyId)], []⟩
          else ⟨db, [], []⟩
  | .cleanup => ⟨db.cleanupExpired now, [], []⟩

/-! ## Calls taking turns -/

inductive SessionRequest
  /-- A login of any kind, from `issueTokens` on. -/
  | login (userId : Id)
  | refreshTokens (tokenHash : TokenHash)
  | logout (tokenHash : TokenHash)
  | resetPassword (userId : Id)
  | deleteOwnAccount (userId : Id)
  | changePassword (userId : Id) (tokenHash : Option TokenHash)
  /-- The session endpoints turn customers away. -/
  | revokeSession (userId : Id) (role : Role) (sessionId : Id)
  | revokeAllOtherSessions (userId : Id) (role : Role) (tokenHash : Option TokenHash)
  /-- Deactivation, suspension, a new role or a new password, set by an
  operator: the sessions of the user go. -/
  | endSessions (userId : Id)
  | cleanupExpiredTokens
  deriving DecidableEq, Repr

structure SessionWorld where
  now : Instant
  db : AuthDb
  inflight : List SessionTask := []
  calls : Nat := 0
  history : List SessionEvent := []

inductive SessionAction
  /-- Some server reads its clock. -/
  | clock (now : Instant)
  /-- The rest of the application changes accounts. -/
  | accounts (users : Table Account) (vendors : Table Vendor)
  | begin (request : SessionRequest)
  | run (index : Nat)

/-- The tasks a request puts in flight, with what the draw of a family id
leaves. -/
def SessionRequest.start (db : AuthDb) (calls : Nat) : SessionRequest → Stepped
  | .login userId =>
      let (familyId, db') := db.randomUUID
      ⟨db', [.sweep ⟨userId, none, familyId, none⟩], []⟩
  | .refreshTokens tokenHash =>
      ⟨db, [.lookup calls tokenHash], [.presented calls tokenHash]⟩
  | .logout tokenHash => ⟨db, [.logoutLookup tokenHash], []⟩
  | .resetPassword userId => ⟨db, [.snapshot userId false], []⟩
  | .deleteOwnAccount userId => ⟨db, [.snapshot userId true], []⟩
  | .changePassword userId tokenHash =>
      ⟨db, [.currentFamily userId tokenHash .changePassword], []⟩
  | .revokeSession userId role sessionId =>
      ⟨db, if role = .customer then [] else [.sessionLookup userId sessionId], []⟩
  | .revokeAllOtherSessions userId role tokenHash =>
      ⟨db, if role = .customer then [] else [.currentFamily userId tokenHash .revoke], []⟩
  | .endSessions userId => ⟨db, [.denylistUser userId], []⟩
  | .cleanupExpiredTokens => ⟨db, [.cleanup], []⟩

/-- The world after the task at `index` took its next statement. -/
def SessionWorld.ran (policy : SessionPolicy) (w : SessionWorld) (index : Nat)
    (t : SessionTask) : SessionWorld where
  now := w.now
  db := (t.run policy w.now w.db).db
  inflight := w.inflight.eraseIdx index ++ (t.run policy w.now w.db).next
  calls := w.calls
  history := w.history ++ (t.run policy w.now w.db).events

def SessionWorld.began (w : SessionWorld) (request : SessionRequest) : SessionWorld where
  now := w.now
  db := (request.start w.db w.calls).db
  inflight := w.inflight ++ (request.start w.db w.calls).next
  calls := w.calls + 1
  history := w.history ++ (request.start w.db w.calls).events

def SessionWorld.step (policy : SessionPolicy) (w : SessionWorld) :
    SessionAction → Option SessionWorld
  | .clock now => some { w with now }
  | .accounts users vendors => some { w with db := { w.db with users, vendors } }
  | .begin request => some (w.began request)
  | .run index => (w.inflight[index]?).map (w.ran policy index)

/-- Nobody has logged in yet. -/
structure SessionWorld.Initial (w : SessionWorld) : Prop where
  refreshTokens : w.db.refreshTokens = Table.empty
  issued : w.db.issued = []
  inflight : w.inflight = []
  history : w.history = []

end Jadwal
