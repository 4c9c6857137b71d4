import Jadwal.Auth
import Jadwal.Lib.Expiring
import Jadwal.Lib.Run
import Mathlib

/-!
# Access tokens after a revocation

An access token is checked without the tables: its signature, its expiry, and whether the family
it belongs to is on the denylist on Redis, where a revocation puts the family for the life of an
access token and a minute more.  The role is the one in `users` now.  Logins, rotations,
revocations and requests come in any order, and tokens may be minted for a family while it is
being revoked.  What is asked: which tokens of a revoked family are still accepted
(`revoked_access_iff`).
-/

namespace Jadwal

/-- The claims of an access token; `iat` is in seconds. -/
structure AccessToken where
  sub : Id
  /-- The session family; a token from before the denylist has none. -/
  sid : Option Id
  role : Role
  iat : Nat
  deriving DecidableEq, Repr

structure AccessUser where
  role : Role
  isDeactivated : Bool := false
  deletedAt : Option Nat := none
  deriving DecidableEq, Repr

/-- `JWT_EXPIRATION`, in seconds. -/
structure AccessPolicy where
  accessExpiry : Nat := 900
  deriving DecidableEq, Repr

/-- `ttlMs` of the denylist. -/
def AccessPolicy.ttlMs (policy : AccessPolicy) : Nat := (policy.accessExpiry + 60) * 1000

/-- A marker that was written. -/
structure Revocation where
  familyId : Id
  revokedAt : Nat
  deriving DecidableEq, Repr

structure AccessWorld where
  now : Nat
  users : Id → Option AccessUser
  denylist : Expiring Id Unit := Expiring.empty
  minted : List AccessToken := []
  revoked : List Revocation := []

namespace AccessWorld

/-- The check of the JWT itself: it is one of ours, and has not expired. -/
def verifies (policy : AccessPolicy) (s : AccessWorld) (token : AccessToken) : Bool :=
  token ∈ s.minted ∧ s.now / 1000 < token.iat + policy.accessExpiry

/-- `isDenied`: a read that is late or fails allows. -/
def isDenied (s : AccessWorld) (familyId : Id) (reply : StoreReply) : Bool :=
  reply = .answered ∧ (s.denylist.read s.now familyId).isSome

/-- `JwtStrategy.validate`: the role the request is served with. -/
def validate (policy : AccessPolicy) (s : AccessWorld) (token : AccessToken)
    (reply : StoreReply) : Option Role :=
  if ! s.verifies policy token then none
  else if token.sid.any (fun familyId => s.isDenied familyId reply) then none
  else ((s.users token.sub).filter (fun u => ! u.isDeactivated ∧ u.deletedAt = none)).map
    AccessUser.role

/-- `denylistSession` -/
def denylistSession (policy : AccessPolicy) (s : AccessWorld) (familyId : Id)
    (reply : StoreReply) : AccessWorld :=
  match reply with
  | .unreachable => s
  | _ =>
      { s with
        denylist := s.denylist.set s.now familyId () policy.ttlMs
        revoked := ⟨familyId, s.now⟩ :: s.revoked }

inductive AccessAction
  | wait (ms : Nat)
  /-- A login or a rotation signs a token. -/
  | mint (sub : Id) (sid : Option Id) (role : Role)
  | revoke (familyId : Id) (reply : StoreReply)
  /-- The row of an account is written. -/
  | write (id : Id) (user : Option AccessUser)

def step (policy : AccessPolicy) (s : AccessWorld) : AccessAction → Option AccessWorld
  | .wait ms => some { s with now := s.now + ms }
  | .mint sub sid role =>
      some { s with minted := ⟨sub, sid, role, s.now / 1000⟩ :: s.minted }
  | .revoke familyId reply => some (s.denylistSession policy familyId reply)
  | .write id user => some { s with users := Function.update s.users id user }

/-- A site before its first session. -/
structure Initial (s : AccessWorld) : Prop where
  denylist : s.denylist = Expiring.empty
  revoked : s.revoked = []

variable {policy : AccessPolicy} {s s' s₀ : AccessWorld} {token : AccessToken} {familyId : Id}

/-- The invariant: a marker lives as long as the last revocation of its family asks. -/
structure Marked (policy : AccessPolicy) (s : AccessWorld) : Prop where
  past : ∀ r ∈ s.revoked, r.revokedAt ≤ s.now
  covers : ∀ r ∈ s.revoked, ∃ x, s.denylist r.familyId = some x ∧
    r.revokedAt + policy.ttlMs ≤ x.expiresAt
  origin : ∀ familyId x, s.denylist familyId = some x →
    ∃ r ∈ s.revoked, r.familyId = familyId ∧ x.expiresAt = r.revokedAt + policy.ttlMs

theorem Initial.marked (h : s.Initial) : s.Marked policy where
  past r hr := by
    rw [h.revoked] at hr
    cases hr
  covers r hr := by
    rw [h.revoked] at hr
    cases hr
  origin familyId x hx := by
    rw [h.denylist] at hx
    cases hx

theorem Marked.mark (h : s.Marked policy) (familyId : Id) :
    ({ s with
      denylist := s.denylist.set s.now familyId () policy.ttlMs
      revoked := ⟨familyId, s.now⟩ :: s.revoked } : AccessWorld).Marked policy := by
  refine ⟨?_, ?_, ?_⟩
  · intro r hr
    rcases List.mem_cons.mp hr with rfl | hr
    · exact le_rfl
    · exact h.past r hr
  · intro r hr
    by_cases hsame : r.familyId = familyId
    · refine ⟨_, Expiring.set_eq_some.mpr (.inl ⟨hsame, rfl⟩), ?_⟩
      rcases List.mem_cons.mp hr with rfl | hr
      · exact le_rfl
      · exact Nat.add_le_add_right (h.past r hr) _
    · rcases List.mem_cons.mp hr with rfl | hr
      · exact absurd rfl hsame
      · obtain ⟨x, hx, hle⟩ := h.covers r hr
        exact ⟨x, Expiring.set_eq_some.mpr (.inr ⟨hsame, hx⟩), hle⟩
  · intro family x hx
    rcases Expiring.set_eq_some.mp hx with ⟨rfl, rfl⟩ | ⟨_, hx⟩
    · exact ⟨_, List.mem_cons_self, rfl, rfl⟩
    · obtain ⟨r, hr, hof, hexpiry⟩ := h.origin family x hx
      exact ⟨r, List.mem_cons_of_mem _ hr, hof, hexpiry⟩

theorem Marked.step (h : s.Marked policy) {a : AccessAction}
    (hstep : s.step policy a = some s') : s'.Marked policy := by
  cases a with
  | wait ms =>
      obtain rfl := Option.some.inj hstep
      exact ⟨fun r hr => (h.past r hr).trans (Nat.le_add_right _ _), h.covers, h.origin⟩
  | mint sub sid role =>
      obtain rfl := Option.some.inj hstep
      exact ⟨h.past, h.covers, h.origin⟩
  | revoke familyId reply =>
      obtain rfl := Option.some.inj hstep
      cases reply with
      | answered => exact h.mark familyId
      | lost => exact h.mark familyId
      | unreachable => exact h
  | write id user =>
      obtain rfl := Option.some.inj hstep
      exact ⟨h.past, h.covers, h.origin⟩

/-- A family is denied as long as one of its revocations is in its time. -/
theorem Marked.isDenied_iff (h : s.Marked policy) :
    s.isDenied familyId .answered = true ↔
      ∃ r ∈ s.revoked, r.familyId = familyId ∧ s.now < r.revokedAt + policy.ttlMs := by
  have hread : s.isDenied familyId .answered = true ↔
      ∃ u, s.denylist.read s.now familyId = some u := by
    simp [isDenied, Option.isSome_iff_exists]
  rw [hread]
  constructor
  · intro hex
    obtain ⟨u, hu⟩ := hex
    obtain ⟨expiresAt, hx, hlt⟩ := Expiring.read_eq_some.mp hu
    obtain ⟨r, hr, hof, hexpiry⟩ := h.origin familyId _ hx
    exact ⟨r, hr, hof, hexpiry ▸ hlt⟩
  · intro hex
    obtain ⟨r, hr, rfl, hlt⟩ := hex
    obtain ⟨x, hx, hle⟩ := h.covers r hr
    exact ⟨x.value, Expiring.read_eq_some.mpr ⟨x.expiresAt, hx, hlt.trans_le hle⟩⟩

/-- **Which tokens outlive a revocation**: where Redis answers, a token is accepted exactly when
it verifies, every revocation of its family is over, and its account is active, and then with the
account's role of now; and a token that is accepted was signed more than a minute after each
revocation of its family. -/
theorem revoked_access_iff (hinit : s₀.Initial)
    (hrun : Run (step policy) (fun _ _ => True) s₀ s) (token : AccessToken) (role : Role) :
    (s.validate policy token .answered = some role ↔
      s.verifies policy token = true ∧
      (∀ r ∈ s.revoked, token.sid = some r.familyId → r.revokedAt + policy.ttlMs ≤ s.now) ∧
      ∃ u, s.users token.sub = some u ∧ u.isDeactivated = false ∧ u.deletedAt = none ∧
        u.role = role) ∧
    (s.validate policy token .answered = some role → ∀ r ∈ s.revoked,
      token.sid = some r.familyId → r.revokedAt + 60 * 1000 < token.iat * 1000) := by
  have h : s.Marked policy :=
    Run.invariant (Marked policy) (fun _ _ _ h _ hstep => h.step hstep) hrun hinit.marked
  have hdenied : token.sid.any (fun familyId => s.isDenied familyId .answered) = false ↔
      ∀ r ∈ s.revoked, token.sid = some r.familyId → r.revokedAt + policy.ttlMs ≤ s.now := by
    cases hsid : token.sid with
    | none => simp
    | some familyId =>
        rw [Option.any_some, Bool.eq_false_iff, ne_eq, h.isDenied_iff]
        constructor
        · intro hnone r hr hof
          by_contra hlate
          exact hnone ⟨r, hr, (Option.some.inj hof).symm, Nat.lt_of_not_le hlate⟩
        · intro hall hex
          obtain ⟨r, hr, hof, hlt⟩ := hex
          exact absurd (hall r hr (congrArg some hof.symm)) (Nat.not_le.mpr hlt)
  have hiff : s.validate policy token .answered = some role ↔
      s.verifies policy token = true ∧
      (∀ r ∈ s.revoked, token.sid = some r.familyId → r.revokedAt + policy.ttlMs ≤ s.now) ∧
      ∃ u, s.users token.sub = some u ∧ u.isDeactivated = false ∧ u.deletedAt = none ∧
        u.role = role := by
    rw [← hdenied]
    unfold validate
    cases s.verifies policy token with
    | false => simp
    | true =>
        cases token.sid.any (fun familyId => s.isDenied familyId .answered) with
        | true => simp
        | false =>
            simp [Option.filter_eq_some_iff, and_assoc]
  refine ⟨hiff, ?_⟩
  intro haccepted r hr hsid
  obtain ⟨hverifies, hover, _⟩ := hiff.mp haccepted
  have hlate := hover r hr hsid
  have hlive := (of_decide_eq_true hverifies).2
  unfold AccessPolicy.ttlMs at hlate
  omega

/-- One customer. -/
def oneUser : AccessWorld where
  now := 0
  users := fun id => if id = 7 then some { role := .customer } else none

theorem oneUser_initial : oneUser.Initial where
  denylist := rfl
  revoked := rfl

/-- A rotation that began before the logout signs its token two minutes after it, and the token
is accepted when the marker is gone. -/
theorem revoked_access_iff_late : ∃ s token, Run (step {}) (fun _ _ => True) oneUser s ∧
    s.validate {} token .answered = some .customer ∧ ∃ r ∈ s.revoked, token.sid = some r.familyId ∧
      r.revokedAt + 60 * 1000 < token.iat * 1000 := by
  obtain ⟨s, hrun, htest⟩ := @Run.of_execAll_test _ _ (step {}) (fun _ _ => True) _
    [.mint 7 (some 1) .customer, .revoke 1 .answered, .wait 120000, .mint 7 (some 1) .customer,
      .wait 840000] oneUser
    (fun s => s.validate {} ⟨7, some 1, .customer, 120⟩ .answered = some .customer ∧
      s.revoked = [⟨1, 0⟩]) (by decide)
  obtain ⟨haccepted, hrevoked⟩ := of_decide_eq_true htest
  have hmem : ⟨1, 0⟩ ∈ s.revoked := by
    rw [hrevoked]
    exact List.mem_singleton_self _
  exact ⟨s, _, hrun, haccepted, _, hmem, rfl,
    (revoked_access_iff oneUser_initial hrun _ _).2 haccepted _ hmem rfl⟩

end AccessWorld

end Jadwal
