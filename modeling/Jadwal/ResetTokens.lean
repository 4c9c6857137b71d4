import Jadwal.Auth
import Jadwal.Lib.Expiring
import Jadwal.Lib.Run
import Mathlib

/-!
# Links that reset a password

`forgotPassword` stores a fresh token with the account, after a cooldown on Redis, and mails it if
the quotas allow; `resetPassword` looks the account up by the token and, a hash of bcrypt later,
writes the new password, clears the token and ends the sessions in one transaction.  A task is a
call between two statements, and any number are under way, with logins, refreshes of sessions and
deletions of accounts in between.  A refresh consumes its token in one statement and stores the
successor in a later one.  What is asked: which links work (`reset_link_works_iff`), and that
whoever resets a password held the newest link of that account, whose older sessions end but for
those that a refresh is just renewing (`resets_authorised`).
-/

namespace Jadwal

/-- The columns of `users` a reset reads or writes. -/
structure ResetUser where
  id : Id
  email : String
  role : Role := .customer
  password : Option String := none
  passwordResetToken : Option TokenHash := none
  passwordResetExpiry : Option Nat := none
  failedLoginAttempts : Nat := 0
  lockedUntil : Option Nat := none
  deletedAt : Option Nat := none
  deriving DecidableEq, Repr

instance : Keyed ResetUser Id := ⟨ResetUser.id⟩

/-- A token that was stored. -/
structure StoredLink where
  userId : Id
  token : TokenHash
  storedAt : Nat
  deriving DecidableEq, Repr

/-- A token column that was cleared, by a reset or a deletion; `next` is the first token drawn
after it. -/
structure ClearedLink where
  userId : Id
  next : TokenHash
  deriving DecidableEq, Repr

/-- A reset that went through; the families from `nextFamily` on are opened after it, and a
refresh was renewing those of `refreshing`. -/
structure ResetDone where
  userId : Id
  token : TokenHash
  readAt : Nat
  nextFamily : Id
  refreshing : List Id
  deriving DecidableEq, Repr

inductive ResetTask
  /-- `forgotPassword`, past the cooldown. -/
  | asked (email : String)
  /-- It has read an account that may reset its password. -/
  | found (userId : Id) (email : String)
  /-- It has stored the token, and asks the quotas. -/
  | stored (token : TokenHash)
  /-- `resetPassword`, before its lookup. -/
  | presented (token : TokenHash) (newPassword : String)
  /-- It has found the account, and computes the hash. -/
  | hashing (userId : Id) (token : TokenHash) (newPassword : String) (readAt : Nat)
  /-- It has read the live families. -/
  | snapshot (userId : Id) (token : TokenHash) (newPassword : String) (readAt : Nat)
      (families : List Id)
  /-- The transaction is through. -/
  | committed (families : List Id)
  /-- `refreshTokens` has consumed the token of a family, and reads the account. -/
  | rotated (userId family : Id)
  deriving DecidableEq, Repr

/-- The session a task renews. -/
def ResetTask.rotates? : ResetTask → Option (Id × Id)
  | .rotated userId family => some (userId, family)
  | _ => none

structure ResetEnv where
  forgotPasswordCooldownMs : Nat := 300000
  resetExpiryMs : Nat := 3600000
  deriving DecidableEq, Repr

structure ResetWorld where
  now : Nat
  users : Table ResetUser
  /-- The user and the family of each live refresh token. -/
  sessions : List (Id × Id) := []
  denylist : List Id := []
  cooldowns : Expiring String Unit := Expiring.empty
  nextToken : TokenHash := 0
  nextFamily : Id := 0
  tasks : List ResetTask := []
  mailed : List TokenHash := []
  stored : List StoredLink := []
  cleared : List ClearedLink := []
  done : List ResetDone := []

def ResetUser.storeLink (token : TokenHash) (expiry : Nat) (u : ResetUser) : ResetUser :=
  { u with passwordResetToken := some token, passwordResetExpiry := some expiry }

def ResetUser.setPassword (newPassword : String) (u : ResetUser) : ResetUser :=
  { u with
    password := some newPassword
    passwordResetToken := none
    passwordResetExpiry := none
    failedLoginAttempts := 0
    lockedUntil := none }

/-- `deleteAccount`, of the columns here. -/
def ResetUser.anonymise (now : Nat) (u : ResetUser) : ResetUser :=
  { u with
    email := toString u.id ++ "@deleted.local"
    password := none
    passwordResetToken := none
    passwordResetExpiry := none
    deletedAt := some now }

theorem ResetUser.storeLink_key (token : TokenHash) (expiry : Nat) (u : ResetUser) :
    Keyed.key (u.storeLink token expiry) = Keyed.key u := rfl

theorem ResetUser.setPassword_key (newPassword : String) (u : ResetUser) :
    Keyed.key (u.setPassword newPassword) = Keyed.key u := rfl

theorem ResetUser.anonymise_key (now : Nat) (u : ResetUser) :
    Keyed.key (u.anonymise now) = Keyed.key u := rfl

namespace ResetWorld

/-- The account `forgotPassword` goes on with. -/
def mayReset (s : ResetWorld) (email : String) : Option ResetUser :=
  (s.users.first? (fun u => u.email = email)).filter
    (fun u => u.password.isSome ∧ (u.role = .customer ∨ u.role = .vendor))

/-- The lookup of `resetPassword`. -/
def lookup (s : ResetWorld) (token : TokenHash) : Option ResetUser :=
  s.users.first? (fun u =>
    u.passwordResetToken = some token ∧ ∃ e ∈ u.passwordResetExpiry, s.now < e)

def storeToken (env : ResetEnv) (s : ResetWorld) (userId : Id) : ResetWorld :=
  { s with
    users := s.users.update userId
      (ResetUser.storeLink s.nextToken (s.now + env.resetExpiryMs))
      (ResetUser.storeLink_key _ _)
    nextToken := s.nextToken + 1
    stored := s.stored ++ [⟨userId, s.nextToken, s.now⟩] }

/-- The transaction of `resetPassword`. -/
def commitReset (s : ResetWorld) (userId : Id) (token : TokenHash) (newPassword : String)
    (readAt : Nat) : ResetWorld :=
  { s with
    users := s.users.update userId (ResetUser.setPassword newPassword)
      (ResetUser.setPassword_key _)
    sessions := s.sessions.filter (fun x => x.1 ≠ userId)
    cleared := s.cleared ++ [⟨userId, s.nextToken⟩]
    done := s.done ++ [⟨userId, token, readAt, s.nextFamily,
      ((s.tasks.filterMap ResetTask.rotates?).filter (fun x => x.1 = userId)).map Prod.snd⟩] }

def deleteAccount (s : ResetWorld) (userId : Id) : ResetWorld :=
  { s with
    users := s.users.update userId (ResetUser.anonymise s.now) (ResetUser.anonymise_key _)
    sessions := s.sessions.filter (fun x => x.1 ≠ userId)
    cleared := s.cleared ++ [⟨userId, s.nextToken⟩] }

/-- The next statement of a task; `allowed` is what the quotas say, or whether the account may
still sign in. -/
def runTask (env : ResetEnv) (s : ResetWorld) (allowed : Bool) :
    ResetTask → ResetWorld × Option ResetTask
  | .asked email => (s, (s.mayReset email).map (fun u => .found u.id email))
  | .found userId _ => (s.storeToken env userId, some (.stored s.nextToken))
  | .stored token => (if allowed then { s with mailed := token :: s.mailed } else s, none)
  | .presented token newPassword =>
      (s, (s.lookup token).map (fun u => .hashing u.id token newPassword s.now))
  | .hashing userId token newPassword readAt =>
      let families := ((s.sessions.filter (fun x => x.1 = userId)).map Prod.snd).dedup
      (s, some (.snapshot userId token newPassword readAt families))
  | .snapshot userId token newPassword readAt families =>
      (s.commitReset userId token newPassword readAt, some (.committed families))
  | .committed families => ({ s with denylist := families ++ s.denylist }, none)
  | .rotated userId family =>
      (if allowed then { s with sessions := (userId, family) :: s.sessions }
      else { s with
        sessions := s.sessions.filter (fun x => x.1 ≠ userId)
        denylist := family :: s.denylist }, none)

inductive ResetAction
  | wait (ms : Nat)
  | forgot (email : String) (reply : StoreReply)
  | reset (token : TokenHash) (newPassword : String)
  | login (userId : Id)
  | refresh (userId family : Id)
  | delete (userId : Id)
  | next (i : Nat) (allowed : Bool)
  deriving DecidableEq, Repr

/-- `SET forgot:cooldown:… EX … NX`; without an answer the call goes on. -/
def askCooldown (env : ResetEnv) (s : ResetWorld) (email : String) (reply : StoreReply) :
    ResetWorld :=
  let goOn : ResetWorld := { s with tasks := s.tasks ++ [.asked email] }
  match reply, s.cooldowns.setIfNone s.now email () env.forgotPasswordCooldownMs with
  | .unreachable, _ => goOn
  | .answered, none => s
  | .lost, none => goOn
  | _, some cooldowns => { goOn with cooldowns := cooldowns }

def step (env : ResetEnv) (s : ResetWorld) : ResetAction → Option ResetWorld
  | .wait ms => some { s with now := s.now + ms }
  | .forgot email reply => some (s.askCooldown env email reply)
  | .reset token newPassword => some { s with tasks := s.tasks ++ [.presented token newPassword] }
  | .login userId =>
      some { s with
        sessions := (userId, s.nextFamily) :: s.sessions
        nextFamily := s.nextFamily + 1 }
  | .refresh userId family =>
      if (userId, family) ∈ s.sessions then
        some { s with
          sessions := s.sessions.erase (userId, family)
          tasks := s.tasks ++ [.rotated userId family] }
      else none
  | .delete userId => some (s.deleteAccount userId)
  | .next i allowed =>
      (s.tasks[i]?).map fun t =>
        let (s', t') := s.runTask env allowed t
        { s' with tasks := s.tasks.eraseIdx i ++ t'.toList }

/-- No link has been stored, and no reset is under way. -/
structure Initial (s : ResetWorld) : Prop where
  tokens : ∀ u ∈ s.users.rows, u.passwordResetToken = none
  tasks : s.tasks = []
  sessions : ∀ x ∈ s.sessions, x.2 < s.nextFamily
  stored : s.stored = []
  cleared : s.cleared = []
  done : s.done = []

variable {env : ResetEnv} {s s' s₀ : ResetWorld} {t : ResetTask} {token : TokenHash} {userId : Id}

/-- No link of the account was stored later, nor its column cleared since. -/
structure Newest (s : ResetWorld) (e : StoredLink) : Prop where
  last : ∀ e' ∈ s.stored, e'.userId = e.userId → e'.token ≤ e.token
  uncleared : ∀ c ∈ s.cleared, c.userId = e.userId → c.next ≤ e.token

/-- The invariant of the token columns. -/
structure Tracked (env : ResetEnv) (s : ResetWorld) : Prop where
  fresh : ∀ e ∈ s.stored, e.token < s.nextToken
  before : ∀ c ∈ s.cleared, c.next ≤ s.nextToken
  one : ∀ e ∈ s.stored, ∀ e' ∈ s.stored, e.token = e'.token → e = e'
  row : ∀ u ∈ s.users.rows, ∀ token, u.passwordResetToken = some token →
    ∃ e ∈ s.stored, e.userId = u.id ∧ e.token = token ∧
      u.passwordResetExpiry = some (e.storedAt + env.resetExpiryMs) ∧ s.Newest e
  kept : ∀ e ∈ s.stored, s.Newest e → ∀ u ∈ s.users.rows, u.id = e.userId →
    u.passwordResetToken = some e.token

theorem Initial.tracked (h : s.Initial) : s.Tracked env where
  fresh e he := by
    rw [h.stored] at he
    cases he
  before c hc := by
    rw [h.cleared] at hc
    cases hc
  one e he := by
    rw [h.stored] at he
    cases he
  row u hu token htoken := by
    rw [h.tokens u hu] at htoken
    cases htoken
  kept e he := by
    rw [h.stored] at he
    cases he

/-- A step that writes neither tokens nor the record of them. -/
theorem Tracked.of_same (h : s.Tracked env) (husers : s'.users = s.users)
    (hnext : s'.nextToken = s.nextToken) (hstored : s'.stored = s.stored)
    (hcleared : s'.cleared = s.cleared) : s'.Tracked env := by
  have hnewest : ∀ e, s'.Newest e ↔ s.Newest e := by
    intro e
    constructor
    · intro he
      exact ⟨hstored ▸ he.last, hcleared ▸ he.uncleared⟩
    · intro he
      exact ⟨hstored.symm ▸ he.last, hcleared.symm ▸ he.uncleared⟩
  refine ⟨?_, ?_, ?_, ?_, ?_⟩
  · rw [hstored, hnext]
    exact h.fresh
  · rw [hcleared, hnext]
    exact h.before
  · rw [hstored]
    exact h.one
  · rw [husers, hstored]
    intro u hu token htoken
    obtain ⟨e, he, huser, hsame, hexpiry, hnew⟩ := h.row u hu token htoken
    exact ⟨e, he, huser, hsame, hexpiry, (hnewest e).mpr hnew⟩
  · rw [husers, hstored]
    intro e he hnew
    exact h.kept e he ((hnewest e).mp hnew)

/-- The accounts after a token was stored. -/
theorem mem_storeToken {u : ResetUser} : u ∈ (s.storeToken env userId).users.rows ↔
    ∃ v ∈ s.users.rows, (if Keyed.key v = userId then
      v.storeLink s.nextToken (s.now + env.resetExpiryMs) else v) = u :=
  @Table.mem_update _ _ _ _ s.users userId _ (ResetUser.storeLink_key _ _) u

/-- A token column is written. -/
theorem Tracked.store (h : s.Tracked env) (userId : Id) :
    (s.storeToken env userId).Tracked env := by
  have hmem : ∀ {e : StoredLink}, e ∈ (s.storeToken env userId).stored →
      e ∈ s.stored ∨ e = ⟨userId, s.nextToken, s.now⟩ := by
    intro e he
    rcases List.mem_append.mp he with he | he
    · exact .inl he
    · exact .inr (List.mem_singleton.mp he)
  have hlast : (⟨userId, s.nextToken, s.now⟩ : StoredLink) ∈ (s.storeToken env userId).stored :=
    List.mem_append_right _ (List.mem_singleton_self _)
  have hle : ∀ e ∈ (s.storeToken env userId).stored, e.token ≤ s.nextToken := by
    intro e he
    rcases hmem he with he | rfl
    · exact (h.fresh e he).le
    · exact le_rfl
  refine ⟨fun e he => Nat.lt_succ_of_le (hle e he),
    fun c hc => (h.before c hc).trans (Nat.le_succ _), ?_, ?_, ?_⟩
  · intro e he e' he' hsame
    rcases hmem he with he | rfl
    · rcases hmem he' with he' | rfl
      · exact h.one e he e' he' hsame
      · exact absurd hsame (Nat.ne_of_lt (h.fresh e he))
    · rcases hmem he' with he' | rfl
      · exact absurd hsame (Nat.ne_of_gt (h.fresh e' he'))
      · rfl
  · intro u hu token htoken
    obtain ⟨v, hv, rfl⟩ := mem_storeToken.mp hu
    by_cases hid : Keyed.key v = userId
    · rw [if_pos hid] at htoken ⊢
      obtain rfl := Option.some.inj htoken
      refine ⟨_, hlast, hid.symm, rfl, rfl, fun e' he' _ => hle e' he', ?_⟩
      intro c hc _
      exact h.before c hc
    · rw [if_neg hid] at htoken ⊢
      obtain ⟨e, he, huser, hsame, hexpiry, hnew⟩ := h.row v hv token htoken
      refine ⟨e, List.mem_append_left _ he, huser, hsame, hexpiry, ?_, hnew.uncleared⟩
      intro e' he' hof
      rcases hmem he' with he' | rfl
      · exact hnew.last e' he' hof
      · exact absurd (hof.trans huser).symm hid
  · intro e he hnew u hu huser
    obtain ⟨v, hv, rfl⟩ := mem_storeToken.mp hu
    by_cases hid : Keyed.key v = userId
    · rw [if_pos hid] at huser ⊢
      have hsame : e.token = s.nextToken :=
        le_antisymm (hle e he) (hnew.last _ hlast (hid.symm.trans huser))
      rw [hsame]
      rfl
    · rw [if_neg hid] at huser ⊢
      rcases hmem he with he | rfl
      · refine h.kept e he ⟨?_, hnew.uncleared⟩ v hv huser
        intro e' he' hof
        exact hnew.last e' (List.mem_append_left _ he') hof
      · exact absurd huser hid

/-- A token column is cleared, by a reset or a deletion. -/
theorem Tracked.clear (h : s.Tracked env) {f : ResetUser → ResetUser}
    (hf : ∀ u, Keyed.key (f u) = Keyed.key u) (hnone : ∀ u, (f u).passwordResetToken = none)
    (husers : s'.users = s.users.update userId f hf) (hnext : s'.nextToken = s.nextToken)
    (hstored : s'.stored = s.stored)
    (hcleared : s'.cleared = s.cleared ++ [⟨userId, s.nextToken⟩]) : s'.Tracked env := by
  have hnewest : ∀ e, s'.Newest e → s.Newest e := by
    intro e he
    refine ⟨hstored ▸ he.last, fun c hc => he.uncleared c ?_⟩
    rw [hcleared]
    exact List.mem_append_left _ hc
  refine ⟨?_, ?_, ?_, ?_, ?_⟩
  · rw [hstored, hnext]
    exact h.fresh
  · intro c hc
    rw [hcleared] at hc
    rw [hnext]
    rcases List.mem_append.mp hc with hc | hc
    · exact h.before c hc
    · rw [List.mem_singleton.mp hc]
  · rw [hstored]
    exact h.one
  · intro u hu token htoken
    rw [husers] at hu
    obtain ⟨v, hv, rfl⟩ := Table.mem_update.mp hu
    by_cases hid : Keyed.key v = userId
    · rw [if_pos hid, hnone] at htoken
      cases htoken
    · rw [if_neg hid] at htoken ⊢
      obtain ⟨e, he, huser, hsame, hexpiry, hnew⟩ := h.row v hv token htoken
      refine ⟨e, hstored ▸ he, huser, hsame, hexpiry, hstored.symm ▸ hnew.last, ?_⟩
      intro c hc hof
      rw [hcleared] at hc
      rcases List.mem_append.mp hc with hc | hc
      · exact hnew.uncleared c hc hof
      · rw [List.mem_singleton.mp hc] at hof
        exact absurd (hof.trans huser).symm hid
  · intro e he hnew u hu huser
    rw [husers] at hu
    obtain ⟨v, hv, rfl⟩ := Table.mem_update.mp hu
    have hcell : ⟨userId, s.nextToken⟩ ∈ s'.cleared := by
      rw [hcleared]
      exact List.mem_append_right _ (List.mem_singleton_self _)
    by_cases hid : Keyed.key v = userId
    · rw [if_pos hid] at huser
      have hkey : Keyed.key (f v) = e.userId := huser
      rw [hf, hid] at hkey
      have hle := hnew.uncleared _ hcell hkey
      exact absurd (h.fresh e (hstored ▸ he)) (Nat.not_lt.mpr hle)
    · rw [if_neg hid] at huser ⊢
      exact h.kept e (hstored ▸ he) (hnewest e hnew) v hv huser

theorem Tracked.runTask (h : s.Tracked env) (allowed : Bool) (t : ResetTask) :
    (s.runTask env allowed t).1.Tracked env := by
  cases t with
  | asked email => exact h
  | found userId email => exact h.store userId
  | stored token => cases allowed <;> exact h.of_same rfl rfl rfl rfl
  | presented token newPassword => exact h
  | hashing userId token newPassword readAt => exact h
  | snapshot userId token newPassword readAt families =>
      exact h.clear (ResetUser.setPassword_key _) (fun _ => rfl) rfl rfl rfl rfl
  | committed families => exact h.of_same rfl rfl rfl rfl
  | rotated userId family => cases allowed <;> exact h.of_same rfl rfl rfl rfl

theorem Tracked.step (h : s.Tracked env) {a : ResetAction} (hstep : s.step env a = some s') :
    s'.Tracked env := by
  cases a with
  | wait ms =>
      obtain rfl := Option.some.inj hstep
      exact h.of_same rfl rfl rfl rfl
  | forgot email reply =>
      obtain rfl := Option.some.inj hstep
      unfold askCooldown
      cases s.cooldowns.setIfNone s.now email () env.forgotPasswordCooldownMs with
      | none => cases reply <;> exact h.of_same rfl rfl rfl rfl
      | some cooldowns => cases reply <;> exact h.of_same rfl rfl rfl rfl
  | reset token newPassword =>
      obtain rfl := Option.some.inj hstep
      exact h.of_same rfl rfl rfl rfl
  | login userId =>
      obtain rfl := Option.some.inj hstep
      exact h.of_same rfl rfl rfl rfl
  | refresh userId family =>
      obtain ⟨_, hstep⟩ := Option.ite_none_right_eq_some.mp hstep
      obtain rfl := Option.some.inj hstep
      exact h.of_same rfl rfl rfl rfl
  | delete userId =>
      obtain rfl := Option.some.inj hstep
      exact h.clear (ResetUser.anonymise_key _) (fun _ => rfl) rfl rfl rfl rfl
  | next i allowed =>
      obtain ⟨t, _, rfl⟩ := Option.map_eq_some_iff.mp hstep
      exact (h.runTask allowed t).of_same rfl rfl rfl rfl

/-- What the lookup finds. -/
theorem Tracked.lookup_eq_some (h : s.Tracked env) {u : ResetUser} (hu : s.lookup token = some u) :
    u ∈ s.users.rows ∧ ∃ e ∈ s.stored, e.userId = u.id ∧ e.token = token ∧ s.Newest e ∧
      s.now < e.storedAt + env.resetExpiryMs := by
  obtain ⟨hmem, hp⟩ := Table.first?_eq_some hu
  obtain ⟨htoken, expiry, hexpiry, hlt⟩ := of_decide_eq_true hp
  obtain ⟨e, he, huser, hsame, hstored, hnew⟩ := h.row u hmem token htoken
  refine ⟨hmem, e, he, huser, hsame, hnew, ?_⟩
  rw [hstored] at hexpiry
  obtain rfl := Option.some.inj hexpiry
  exact hlt

/-- **Which links work**: a link that was stored for an account finds it exactly while it has not
expired, no later link was stored for the account (whether that one was mailed or not), and
neither a reset nor a deletion has cleared the column since. -/
theorem reset_link_works_iff (hinit : s₀.Initial)
    (hrun : Run (step env) (fun _ _ => True) s₀ s) {e : StoredLink} (he : e ∈ s.stored) :
    (∃ u, s.lookup e.token = some u ∧ u.id = e.userId) ↔
      (∃ u ∈ s.users.rows, u.id = e.userId) ∧ s.now < e.storedAt + env.resetExpiryMs ∧
        s.Newest e := by
  have h : s.Tracked env :=
    Run.invariant (Tracked env) (fun _ _ _ h _ hstep => h.step hstep) hrun hinit.tracked
  constructor
  · intro hex
    obtain ⟨u, hu, huser⟩ := hex
    obtain ⟨hmem, e', he', _, hsame, hnew, hlt⟩ := h.lookup_eq_some hu
    obtain rfl := h.one e' he' e he hsame
    exact ⟨⟨u, hmem, huser⟩, hlt, hnew⟩
  · intro hconds
    obtain ⟨⟨u, hmem, huser⟩, hlt, hnew⟩ := hconds
    have htoken := h.kept e he hnew u hmem huser
    obtain ⟨e', he', _, hsame, hexpiry, _⟩ := h.row u hmem e.token htoken
    obtain rfl := h.one e' he' e he hsame
    cases hlookup : s.lookup e'.token with
    | none =>
        have hno := Table.first?_eq_none.mp hlookup u hmem
        exact absurd (decide_eq_true ⟨htoken, _, hexpiry, hlt⟩) hno
    | some u' =>
        obtain ⟨_, e'', he'', huser'', hsame'', _, _⟩ := h.lookup_eq_some hlookup
        obtain rfl := h.one e'' he'' e' he' hsame''
        exact ⟨u', rfl, huser''.symm⟩

/-- Whoever read the account held a link of it that was in time, and the newest. -/
def Proven (env : ResetEnv) (s : ResetWorld) (userId : Id) (token : TokenHash) (readAt : Nat) :
    Prop :=
  readAt ≤ s.now ∧ ∃ e ∈ s.stored, e.userId = userId ∧ e.token = token ∧ e.storedAt ≤ readAt ∧
    readAt < e.storedAt + env.resetExpiryMs ∧
    ∀ e' ∈ s.stored, e'.userId = userId → e.token < e'.token → readAt ≤ e'.storedAt

def NotAdmin (s : ResetWorld) (userId : Id) : Prop :=
  ∀ u ∈ s.users.rows, u.id = userId → u.role ≠ .admin

def TaskSound (env : ResetEnv) (s : ResetWorld) : ResetTask → Prop
  | .found userId _ => s.NotAdmin userId
  | .hashing userId token _ readAt => s.Proven env userId token readAt
  | .snapshot userId token _ readAt _ => s.Proven env userId token readAt
  | _ => True

/-- The sessions that are live or being renewed. -/
def held (s : ResetWorld) : List (Id × Id) :=
  s.sessions ++ s.tasks.filterMap ResetTask.rotates?

theorem mem_held {x : Id × Id} : x ∈ s.held ↔
    x ∈ s.sessions ∨ ∃ t ∈ s.tasks, t.rotates? = some x := by
  rw [held, List.mem_append, List.mem_filterMap]

/-- The column has been cleared since, and the sessions of before are gone, but for those that
were being renewed. -/
structure Over (s : ResetWorld) (d : ResetDone) : Prop where
  cleared : ∃ c ∈ s.cleared, c.userId = d.userId ∧ d.token < c.next
  known : d.nextFamily ≤ s.nextFamily
  sessions : ∀ x ∈ s.held, x.1 = d.userId → d.nextFamily ≤ x.2 ∨ x.2 ∈ d.refreshing

structure Sound (env : ResetEnv) (s : ResetWorld) : Prop where
  tracked : s.Tracked env
  dated : ∀ e ∈ s.stored, e.storedAt ≤ s.now
  roles : ∀ e ∈ s.stored, s.NotAdmin e.userId
  families : ∀ x ∈ s.held, x.2 < s.nextFamily
  done : ∀ d ∈ s.done, s.Proven env d.userId d.token d.readAt ∧ s.Over d
  tasks : ∀ t ∈ s.tasks, s.TaskSound env t

theorem Initial.sound (h : s.Initial) : s.Sound env where
  tracked := h.tracked
  dated e he := by
    rw [h.stored] at he
    cases he
  roles e he := by
    rw [h.stored] at he
    cases he
  families x hx := by
    rw [held, h.tasks, List.filterMap_nil, List.append_nil] at hx
    exact h.sessions x hx
  done d hd := by
    rw [h.done] at hd
    cases hd
  tasks t ht := by
    rw [h.tasks] at ht
    cases ht

/-- What a step adds to the record, and what it keeps of the accounts. -/
structure Grows (s s' : ResetWorld) : Prop where
  now : s.now ≤ s'.now
  stored : ∀ e ∈ s.stored, e ∈ s'.stored
  later : ∀ e ∈ s'.stored, e ∈ s.stored ∨ s.now ≤ e.storedAt
  admin : ∀ userId, s.NotAdmin userId → s'.NotAdmin userId

theorem Proven.mono (h : Grows s s') {readAt : Nat} (hp : s.Proven env userId token readAt) :
    s'.Proven env userId token readAt := by
  obtain ⟨hnow, e, he, huser, hsame, hat, hlt, hnew⟩ := hp
  refine ⟨hnow.trans h.now, e, h.stored e he, huser, hsame, hat, hlt, ?_⟩
  intro e' he' hof hgt
  rcases h.later e' he' with he' | hlater
  · exact hnew e' he' hof hgt
  · exact hnow.trans hlater

theorem TaskSound.mono (h : Grows s s') (ht : s.TaskSound env t) : s'.TaskSound env t := by
  cases t with
  | found userId email => exact h.admin userId ht
  | hashing userId token newPassword readAt => exact Proven.mono h ht
  | snapshot userId token newPassword readAt families => exact Proven.mono h ht
  | _ => trivial

/-- Nothing of the record changes. -/
theorem Grows.of_same (husers : s'.users = s.users) (hstored : s'.stored = s.stored)
    (hnow : s.now ≤ s'.now) : Grows s s' where
  now := hnow
  stored e he := hstored.symm ▸ he
  later e he := .inl (hstored ▸ he)
  admin userId h := by
    unfold NotAdmin
    rw [husers]
    exact h

/-- An account keeps its role. -/
theorem Grows.of_update {f : ResetUser → ResetUser} (hf : ∀ u, Keyed.key (f u) = Keyed.key u)
    (hrole : ∀ u, (f u).role = u.role) (husers : s'.users = s.users.update userId f hf)
    (hstored : s'.stored = s.stored ∨ s'.stored = s.stored ++ [⟨userId, s.nextToken, s.now⟩])
    (hnow : s'.now = s.now) : Grows s s' := by
  refine ⟨hnow.ge, ?_, ?_, ?_⟩
  · intro e he
    rcases hstored with heq | heq
    · rwa [heq]
    · rw [heq]
      exact List.mem_append_left _ he
  · intro e he
    rcases hstored with heq | heq
    · rw [heq] at he
      exact .inl he
    · rw [heq] at he
      rcases List.mem_append.mp he with he | he
      · exact .inl he
      · rw [List.mem_singleton.mp he]
        exact .inr le_rfl
  · intro id h u hu hid
    rw [husers] at hu
    obtain ⟨v, hv, rfl⟩ := Table.mem_update.mp hu
    by_cases hkey : Keyed.key v = userId
    · rw [if_pos hkey] at hid ⊢
      rw [hrole]
      exact h v hv ((hf v).symm.trans hid)
    · rw [if_neg hkey] at hid ⊢
      exact h v hv hid

/-- Fewer sessions, or a new one, and more columns cleared. -/
theorem Over.mono {d : ResetDone} (h : s.Over d) (hcleared : ∀ c ∈ s.cleared, c ∈ s'.cleared)
    (hnext : s.nextFamily ≤ s'.nextFamily)
    (hsessions : ∀ x ∈ s'.held, x ∈ s.held ∨ s.nextFamily ≤ x.2) : s'.Over d := by
  obtain ⟨c, hc, hof, hlt⟩ := h.cleared
  refine ⟨⟨c, hcleared c hc, hof, hlt⟩, h.known.trans hnext, ?_⟩
  intro x hx huser
  rcases hsessions x hx with hx | hlater
  · exact h.sessions x hx huser
  · exact .inl (h.known.trans hlater)

/-- A step that ends no account's reset keeps what is sound. -/
theorem Sound.grow (h : s.Sound env) (hgrows : Grows s s') (htracked : s'.Tracked env)
    (hdated : ∀ e ∈ s'.stored, e.storedAt ≤ s'.now)
    (hroles : ∀ e ∈ s'.stored, s'.NotAdmin e.userId)
    (hcleared : ∀ c ∈ s.cleared, c ∈ s'.cleared) (hnext : s.nextFamily ≤ s'.nextFamily)
    (hsessions : ∀ x ∈ s'.held, x ∈ s.held ∨ s.nextFamily ≤ x.2)
    (hfamilies : ∀ x ∈ s'.held, x.2 < s'.nextFamily)
    (hdone : ∀ d ∈ s'.done, d ∈ s.done ∨
      (s'.Proven env d.userId d.token d.readAt ∧ s'.Over d))
    (htasks : ∀ t ∈ s'.tasks, t ∈ s.tasks ∨ s'.TaskSound env t) : s'.Sound env := by
  refine ⟨htracked, hdated, hroles, hfamilies, ?_, ?_⟩
  · intro d hd
    rcases hdone d hd with hd | hd
    · obtain ⟨hproven, hover⟩ := h.done d hd
      exact ⟨hproven.mono hgrows, hover.mono hcleared hnext hsessions⟩
    · exact hd
  · intro t ht
    rcases htasks t ht with ht | ht
    · exact (h.tasks t ht).mono hgrows
    · exact ht

/-- Nothing but the tasks, the clock, the mail and the markers has changed, and no session but one
that was held is live or being renewed. -/
theorem Sound.quiet (h : s.Sound env) (husers : s'.users = s.users)
    (hheld : ∀ x ∈ s'.held, x ∈ s.held) (hfamily : s'.nextFamily = s.nextFamily)
    (htoken : s'.nextToken = s.nextToken) (hstored : s'.stored = s.stored)
    (hcleared : s'.cleared = s.cleared) (hdone : s'.done = s.done) (hnow : s.now ≤ s'.now)
    (htasks : ∀ t ∈ s'.tasks, t ∈ s.tasks ∨ s'.TaskSound env t) : s'.Sound env := by
  have hgrows := Grows.of_same husers hstored hnow
  refine h.grow hgrows (h.tracked.of_same husers htoken hstored hcleared) ?_ ?_ ?_ hfamily.ge ?_ ?_
    (fun d hd => .inl (hdone ▸ hd)) htasks
  · intro e he
    exact (h.dated e (hstored ▸ he)).trans hnow
  · intro e he
    exact hgrows.admin _ (h.roles e (hstored ▸ he))
  · intro c hc
    exact hcleared.symm ▸ hc
  · intro x hx
    exact .inl (hheld x hx)
  · intro x hx
    rw [hfamily]
    exact h.families x (hheld x hx)

/-- A token is stored for an account that is no admin's. -/
theorem Sound.store (h : s.Sound env) (hadmin : s.NotAdmin userId) :
    (s.storeToken env userId).Sound env := by
  have hgrows : Grows s (s.storeToken env userId) :=
    .of_update (ResetUser.storeLink_key _ _) (fun _ => rfl) rfl (.inr rfl) rfl
  have hmem : ∀ {e : StoredLink}, e ∈ (s.storeToken env userId).stored →
      e ∈ s.stored ∨ e = ⟨userId, s.nextToken, s.now⟩ := by
    intro e he
    rcases List.mem_append.mp he with he | he
    · exact .inl he
    · exact .inr (List.mem_singleton.mp he)
  refine h.grow hgrows (h.tracked.store userId) ?_ ?_ (fun _ hc => hc) le_rfl (fun _ hx => .inl hx)
    h.families (fun _ hd => .inl hd) (fun _ ht => .inl ht)
  · intro e he
    rcases hmem he with he | rfl
    · exact h.dated e he
    · exact le_rfl
  · intro e he
    rcases hmem he with he | rfl
    · exact hgrows.admin _ (h.roles e he)
    · exact hgrows.admin _ hadmin

/-- The transaction of a reset, or a deletion: the column is cleared and the sessions end. -/
theorem Sound.clear (h : s.Sound env) {f : ResetUser → ResetUser}
    (hf : ∀ u, Keyed.key (f u) = Keyed.key u) (hnone : ∀ u, (f u).passwordResetToken = none)
    (hrole : ∀ u, (f u).role = u.role) (husers : s'.users = s.users.update userId f hf)
    (htoken : s'.nextToken = s.nextToken) (hfamily : s'.nextFamily = s.nextFamily)
    (hstored : s'.stored = s.stored) (hnow : s'.now = s.now) (htasks : s'.tasks = s.tasks)
    (hcleared : s'.cleared = s.cleared ++ [⟨userId, s.nextToken⟩])
    (hsessions : s'.sessions = s.sessions.filter (fun x => x.1 ≠ userId))
    (hdone : s'.done = s.done ∨ ∃ token readAt, s.Proven env userId token readAt ∧
      s'.done = s.done ++ [⟨userId, token, readAt, s.nextFamily,
        ((s.tasks.filterMap ResetTask.rotates?).filter (fun x => x.1 = userId)).map Prod.snd⟩]) :
    s'.Sound env := by
  have hgrows : Grows s s' := .of_update hf hrole husers (.inl hstored) hnow
  have hfewer : ∀ x ∈ s'.held, x ∈ s.held ∧
      (x.1 = userId → x ∈ s.tasks.filterMap ResetTask.rotates?) := by
    intro x hx
    rw [held, hsessions, htasks] at hx
    rcases List.mem_append.mp hx with hx | hx
    · obtain ⟨hx, hne⟩ := List.mem_filter.mp hx
      exact ⟨List.mem_append_left _ hx, fun hof => absurd hof (of_decide_eq_true hne)⟩
    · exact ⟨List.mem_append_right _ hx, fun _ => hx⟩
  refine h.grow hgrows (h.tracked.clear hf hnone husers htoken hstored hcleared) ?_ ?_ ?_
    hfamily.ge (fun x hx => .inl (hfewer x hx).1) ?_ ?_ (fun t ht => .inl (htasks ▸ ht))
  · intro e he
    rw [hnow]
    exact h.dated e (hstored ▸ he)
  · intro e he
    exact hgrows.admin _ (h.roles e (hstored ▸ he))
  · intro c hc
    rw [hcleared]
    exact List.mem_append_left _ hc
  · intro x hx
    rw [hfamily]
    exact h.families x (hfewer x hx).1
  · intro d hd
    rcases hdone with heq | ⟨token, readAt, hproven, heq⟩
    · exact .inl (heq ▸ hd)
    · rw [heq] at hd
      rcases List.mem_append.mp hd with hd | hd
      · exact .inl hd
      · rw [List.mem_singleton.mp hd]
        obtain ⟨_, e, he, huser, hsame, _⟩ := id hproven
        refine .inr ⟨hproven.mono hgrows, ⟨⟨userId, s.nextToken⟩, ?_, rfl, ?_⟩, hfamily.ge, ?_⟩
        · rw [hcleared]
          exact List.mem_append_right _ (List.mem_singleton_self _)
        · exact hsame ▸ h.tracked.fresh e he
        · intro x hx hof
          refine .inr (List.mem_map.mpr ⟨x, List.mem_filter.mpr ⟨(hfewer x hx).2 hof, ?_⟩, rfl⟩)
          exact decide_eq_true hof

/-- What the lookup finds is proof of the newest link. -/
theorem Sound.lookup (h : s.Sound env) {u : ResetUser} (hu : s.lookup token = some u) :
    s.Proven env u.id token s.now := by
  obtain ⟨_, e, he, huser, hsame, hnew, hlt⟩ := h.tracked.lookup_eq_some hu
  refine ⟨le_rfl, e, he, huser, hsame, h.dated e he, hlt, ?_⟩
  intro e' he' hof hgt
  exact absurd (hnew.last e' he' (hof.trans huser.symm)) (Nat.not_le.mpr hgt)

/-- `forgotPassword` goes on for no admin. -/
theorem mayReset_notAdmin {email : String} {u : ResetUser} (h : s.mayReset email = some u) :
    s.NotAdmin u.id := by
  unfold mayReset at h
  obtain ⟨hfirst, hp⟩ := Option.filter_eq_some_iff.mp h
  obtain ⟨hmem, _⟩ := Table.first?_eq_some hfirst
  obtain ⟨_, hrole⟩ := of_decide_eq_true hp
  intro v hv hid
  obtain rfl := Table.key_inj hv hmem hid
  rcases hrole with hrole | hrole <;> simp [hrole]

/-- **Every statement of a task is sound.** -/
theorem Sound.runTask (h : s.Sound env) (allowed : Bool) (hmem : t ∈ s.tasks)
    (ht : s.TaskSound env t) :
    (s.runTask env allowed t).1.Sound env ∧
      ∀ t' ∈ (s.runTask env allowed t).2, (s.runTask env allowed t).1.TaskSound env t' := by
  cases t with
  | asked email =>
      refine ⟨h, ?_⟩
      intro t' ht'
      obtain ⟨u, hu, rfl⟩ := Option.map_eq_some_iff.mp ht'
      exact mayReset_notAdmin hu
  | found userId email =>
      refine ⟨h.store ht, ?_⟩
      intro t' ht'
      obtain rfl := Option.some.inj ht'
      trivial
  | stored token =>
      refine ⟨?_, fun t' ht' => by cases ht'⟩
      cases allowed with
      | false => exact h
      | true =>
          exact h.quiet rfl (fun _ hx => hx) rfl rfl rfl rfl rfl le_rfl (fun _ ht => .inl ht)
  | presented token newPassword =>
      refine ⟨h, ?_⟩
      intro t' ht'
      obtain ⟨u, hu, rfl⟩ := Option.map_eq_some_iff.mp ht'
      exact h.lookup hu
  | hashing userId token newPassword readAt =>
      refine ⟨h, ?_⟩
      intro t' ht'
      obtain rfl := Option.some.inj ht'
      exact ht
  | snapshot userId token newPassword readAt families =>
      refine ⟨h.clear (ResetUser.setPassword_key _) (fun _ => rfl) (fun _ => rfl) rfl rfl rfl rfl
        rfl rfl rfl rfl (.inr ⟨token, readAt, ht, rfl⟩), ?_⟩
      intro t' ht'
      obtain rfl := Option.some.inj ht'
      trivial
  | committed families =>
      exact ⟨h.quiet rfl (fun _ hx => hx) rfl rfl rfl rfl rfl le_rfl (fun _ ht => .inl ht),
        fun t' ht' => by cases ht'⟩
  | rotated userId family =>
      refine ⟨?_, fun t' ht' => by cases ht'⟩
      cases allowed with
      | false =>
          refine h.quiet rfl ?_ rfl rfl rfl rfl rfl le_rfl (fun _ ht => .inl ht)
          intro x hx
          rcases mem_held.mp hx with hx | hx
          · exact mem_held.mpr (.inl (List.mem_of_mem_filter hx))
          · exact mem_held.mpr (.inr hx)
      | true =>
          -- the successor is of the session that was being renewed
          refine h.quiet rfl ?_ rfl rfl rfl rfl rfl le_rfl (fun _ ht => .inl ht)
          intro x hx
          rcases mem_held.mp hx with hx | hx
          · rcases List.mem_cons.mp hx with rfl | hx
            · exact mem_held.mpr (.inr ⟨_, hmem, rfl⟩)
            · exact mem_held.mpr (.inl hx)
          · exact mem_held.mpr (.inr hx)

/-- Only the action of a refresh begins to renew a session. -/
theorem runTask_rotates {t' : ResetTask} (allowed : Bool)
    (h : t' ∈ (s.runTask env allowed t).2) : t'.rotates? = none := by
  cases t with
  | asked email | presented token newPassword =>
      obtain ⟨u, _, rfl⟩ := Option.map_eq_some_iff.mp h
      rfl
  | found | hashing | snapshot =>
      obtain rfl := Option.some.inj h
      rfl
  | stored | committed | rotated => cases h

/-- What a statement starts is added by the step. -/
theorem runTask_tasks (allowed : Bool) : (s.runTask env allowed t).1.tasks = s.tasks := by
  cases t with
  | stored token => cases allowed <;> rfl
  | rotated userId family => cases allowed <;> rfl
  | _ => rfl

/-- A call begins that renews no session. -/
theorem Sound.began (h : s.Sound env) (cooldowns : Expiring String Unit)
    (hno : t.rotates? = none) (ht : s.TaskSound env t) :
    ({ s with tasks := s.tasks ++ [t], cooldowns := cooldowns } : ResetWorld).Sound env := by
  refine h.quiet rfl ?_ rfl rfl rfl rfl rfl le_rfl ?_
  · intro x hx
    rcases mem_held.mp hx with hx | ⟨t', ht', hrotates⟩
    · exact mem_held.mpr (.inl hx)
    · rcases List.mem_append.mp ht' with ht' | ht'
      · exact mem_held.mpr (.inr ⟨t', ht', hrotates⟩)
      · rw [List.mem_singleton.mp ht', hno] at hrotates
        cases hrotates
  · intro t' ht'
    rcases List.mem_append.mp ht' with ht' | ht'
    · exact .inl ht'
    · rw [List.mem_singleton.mp ht']
      exact .inr (ht.mono (Grows.of_same rfl rfl le_rfl))

/-- `forgotPassword` goes on or is refused. -/
theorem Sound.asked (h : s.Sound env) (email : String) (reply : StoreReply) :
    (s.askCooldown env email reply).Sound env := by
  unfold askCooldown
  cases s.cooldowns.setIfNone s.now email () env.forgotPasswordCooldownMs with
  | none =>
      cases reply with
      | answered => exact h
      | lost => exact h.began _ rfl trivial
      | unreachable => exact h.began _ rfl trivial
  | some cooldowns => cases reply <;> exact h.began _ rfl trivial

/-- A login opens a family of its own. -/
theorem Sound.login (h : s.Sound env) (userId : Id) :
    ({ s with
      sessions := (userId, s.nextFamily) :: s.sessions
      nextFamily := s.nextFamily + 1 } : ResetWorld).Sound env := by
  refine h.grow (Grows.of_same rfl rfl le_rfl) (h.tracked.of_same rfl rfl rfl rfl) h.dated
    h.roles (fun _ hc => hc) (Nat.le_succ _) ?_ ?_ (fun _ hd => .inl hd) (fun _ ht => .inl ht)
  · intro x hx
    rcases List.mem_cons.mp hx with rfl | hx
    · exact .inr le_rfl
    · exact .inl hx
  · intro x hx
    rcases List.mem_cons.mp hx with rfl | hx
    · exact Nat.lt_succ_self _
    · exact Nat.lt_succ_of_lt (h.families x hx)

/-- A refresh takes a live session, and holds it until the successor is stored. -/
theorem Sound.consumed (h : s.Sound env) {family : Id} (hlive : (userId, family) ∈ s.sessions) :
    ({ s with
      sessions := s.sessions.erase (userId, family)
      tasks := s.tasks ++ [.rotated userId family] } : ResetWorld).Sound env := by
  refine h.quiet rfl ?_ rfl rfl rfl rfl rfl le_rfl ?_
  · intro x hx
    rcases mem_held.mp hx with hx | ⟨t, ht, hrotates⟩
    · exact mem_held.mpr (.inl (List.mem_of_mem_erase hx))
    · rcases List.mem_append.mp ht with ht | ht
      · exact mem_held.mpr (.inr ⟨t, ht, hrotates⟩)
      · rw [List.mem_singleton.mp ht] at hrotates
        obtain rfl := Option.some.inj hrotates
        exact mem_held.mpr (.inl hlive)
  · intro t ht
    rcases List.mem_append.mp ht with ht | ht
    · exact .inl ht
    · rw [List.mem_singleton.mp ht]
      exact .inr trivial

/-- The task that ran makes way for the one it leads to. -/
theorem Sound.next (h : s.Sound env) {i : Nat} (allowed : Bool) (hi : s.tasks[i]? = some t) :
    ({ (s.runTask env allowed t).1 with
      tasks := s.tasks.eraseIdx i ++ (s.runTask env allowed t).2.toList } : ResetWorld).Sound
      env := by
  have hmem : t ∈ s.tasks := List.mem_of_getElem? hi
  obtain ⟨hran, hnext⟩ := h.runTask allowed hmem (h.tasks t hmem)
  refine hran.quiet rfl ?_ rfl rfl rfl rfl rfl le_rfl ?_
  · intro x hx
    rcases mem_held.mp hx with hx | ⟨t', ht', hrotates⟩
    · exact mem_held.mpr (.inl hx)
    · rcases List.mem_append.mp ht' with ht' | ht'
      · refine mem_held.mpr (.inr ⟨t', ?_, hrotates⟩)
        rw [runTask_tasks]
        exact List.mem_of_mem_eraseIdx ht'
      · rw [runTask_rotates allowed (Option.mem_toList.mp ht')] at hrotates
        cases hrotates
  · intro t' ht'
    rcases List.mem_append.mp ht' with ht' | ht'
    · rw [runTask_tasks]
      exact .inl (List.mem_of_mem_eraseIdx ht')
    · exact .inr ((hnext t' (Option.mem_toList.mp ht')).mono (Grows.of_same rfl rfl le_rfl))

/-- **One step keeps the resets sound.** -/
theorem Sound.step (h : s.Sound env) {a : ResetAction} (hstep : s.step env a = some s') :
    s'.Sound env := by
  cases a with
  | wait ms =>
      obtain rfl := Option.some.inj hstep
      exact h.quiet rfl (fun _ hx => hx) rfl rfl rfl rfl rfl (Nat.le_add_right _ _)
        (fun _ ht => .inl ht)
  | forgot email reply =>
      obtain rfl := Option.some.inj hstep
      exact h.asked email reply
  | reset token newPassword =>
      obtain rfl := Option.some.inj hstep
      exact h.began _ rfl trivial
  | login userId =>
      obtain rfl := Option.some.inj hstep
      exact h.login userId
  | refresh userId family =>
      obtain ⟨hlive, hstep⟩ := Option.ite_none_right_eq_some.mp hstep
      obtain rfl := Option.some.inj hstep
      exact h.consumed hlive
  | delete userId =>
      obtain rfl := Option.some.inj hstep
      exact h.clear (ResetUser.anonymise_key _) (fun _ => rfl) (fun _ => rfl) rfl rfl rfl rfl rfl
        rfl rfl rfl (.inl rfl)
  | next i allowed =>
      obtain ⟨t, hi, rfl⟩ := Option.map_eq_some_iff.mp hstep
      exact h.next allowed hi

/-- One customer with a password, signed in. -/
def oneCustomer : ResetWorld where
  now := 0
  users :=
    ⟨[{ id := 7, email := "noor@example.com", password := some "old" }], List.nodup_singleton _⟩
  sessions := [(7, 0)]
  nextFamily := 1

theorem oneCustomer_initial : oneCustomer.Initial where
  tokens := by decide
  tasks := rfl
  sessions := by decide
  stored := rfl
  cleared := rfl
  done := rfl

/-- A second link is asked for after the cooldown, and its mail is dropped: the first link, which
was mailed, works no longer. -/
def droppedRun : List ResetAction :=
  [.forgot "noor@example.com" .answered, .next 0 true, .next 0 true, .next 0 true, .wait 300000,
    .forgot "noor@example.com" .answered, .next 0 true, .next 0 true, .next 0 false]

theorem reset_link_works_iff_dropped : ∃ s, Run (step {}) (fun _ _ => True) oneCustomer s ∧
    s.mailed = [0] ∧ s.now < 3600000 ∧ ¬ ∃ u, s.lookup 0 = some u ∧ u.id = 7 := by
  obtain ⟨s, hrun, htest⟩ := @Run.of_execAll_test _ _ (step {}) (fun _ _ => True) _ droppedRun
    oneCustomer (fun s => s.stored = [⟨7, 0, 0⟩, ⟨7, 1, 300000⟩] ∧ s.mailed = [0] ∧
      s.now < 3600000) (by decide)
  obtain ⟨hstored, hmailed, hnow⟩ := of_decide_eq_true htest
  have hfirst : ⟨7, 0, 0⟩ ∈ s.stored := by
    rw [hstored]
    exact List.mem_cons_self
  have hsecond : ⟨7, 1, 300000⟩ ∈ s.stored := by
    rw [hstored]
    exact List.mem_cons_of_mem _ (List.mem_singleton_self _)
  refine ⟨s, hrun, hmailed, hnow, ?_⟩
  intro hworks
  have hnew := ((reset_link_works_iff oneCustomer_initial hrun hfirst).mp hworks).2.2
  exact absurd (hnew.last _ hsecond rfl) (by decide)

end ResetWorld

end Jadwal
