import Jadwal.Sessions

/-!
# A session family is one chain

Every family of refresh tokens starts with one login and has one **head** at
any time: its one token that is not rotated, or the one call that has consumed
that token and is about to store the next.  A statement of any task can drop a
head, turn the head token into a head call, or turn a head call into a head
token, and nothing else; that is said once, in `SessionTask.run_effect`.
-/

namespace Jadwal

variable {policy : SessionPolicy} {now : Instant} {db : AuthDb}

/-! ## What a task is about -/

/-- The `issueTokens` call a task is in. -/
def SessionTask.issue? : SessionTask → Option Issue
  | .readUser r => some r.issue
  | .readVendor r => some r.issue
  | .sweep i => some i
  | .readActive i => some i
  | .evict i _ => some i
  | .create i => some i
  | _ => none

/-- The call and the token of a refresh that has not consumed it yet. -/
def SessionTask.read? : SessionTask → Option (Nat × RefreshToken)
  | .check call token => some (call, token)
  | .consume call token => some (call, token)
  | _ => none

/-- The families a call has revoked when it returns. -/
def SessionTask.ended : SessionTask → List Id
  | .denylistAfter _ ended => ended
  | _ => []

/-- What the history keeps of a stored token. -/
def Issue.events (i : Issue) (token : RefreshToken) : List SessionEvent :=
  match i.rotation with
  | none => [.loggedIn i.familyId i.userId token.sessionStartedAt]
  | some r => [.succeeded r.token.id token.id, .refreshed r.call]

/-! ## What a statement does -/

/-- The statement stores and rotates nothing. -/
structure Quiet (policy : SessionPolicy) (now : Instant) (db : AuthDb) (t : SessionTask)
    (r : Stepped) : Prop where
  rows : r.db.refreshTokens.rows.Sublist db.refreshTokens.rows
  issued : r.db.issued = db.issued
  random : r.db.nextRandom = db.nextRandom
  issues : (r.next.filterMap SessionTask.issue?).Sublist t.issue?.toList
  reads : ∀ u ∈ r.next, ∀ x ∈ u.read?, x ∈ t.read? ∨
    t = .lookup x.1 x.2.tokenHash ∧ x.2 ∈ db.refreshTokens.rows
  events : ∀ e ∈ r.events,
    (∃ call token, t = .check call token ∧ token.presented policy now = .live ∧
      e = .passedAgeCheck token.familyId now) ∨ ∃ f ∈ t.ended, e = .revoked f

/-- What one statement of a task can do. -/
inductive SessionEffect (policy : SessionPolicy) (now : Instant) (db : AuthDb)
    (t : SessionTask) : Stepped → Prop
  | quiet {r : Stepped} (h : Quiet policy now db t r) : SessionEffect policy now db t r
  | consumed {call : Nat} {token : RefreshToken} {db' : AuthDb}
      (task : t = .consume call token) (stored : db.consume now token.id = some db') :
      SessionEffect policy now db t
        ⟨db', [.readUser ⟨call, token⟩], [.rotated token.id]⟩
  | created {i : Issue} {token : RefreshToken} {db' : AuthDb} (task : t = .create i)
      (row : token = db.newToken policy now i.userId i.sessionStartedAt i.familyId)
      (stored : db.createToken token = some db') :
      SessionEffect policy now db t ⟨db', [], i.events token⟩

/-- A token is found by its own hash. -/
theorem AuthDb.findToken_eq_some {tokenHash : TokenHash} {t : RefreshToken}
    (h : db.findToken tokenHash = some t) :
    t ∈ db.refreshTokens.rows ∧ t.tokenHash = tokenHash := by
  obtain ⟨hmem, hhash⟩ := Table.first?_eq_some h
  exact ⟨hmem, by simpa using hhash⟩

/-- A statement that leaves the tokens alone and hands nothing on is quiet. -/
theorem Quiet.of_same {t : SessionTask} {r : Stepped}
    (rows : r.db.refreshTokens.rows.Sublist db.refreshTokens.rows)
    (issued : r.db.issued = db.issued) (random : r.db.nextRandom = db.nextRandom)
    (issues : (r.next.filterMap SessionTask.issue?).Sublist t.issue?.toList)
    (reads : ∀ u ∈ r.next, ∀ x ∈ u.read?, x ∈ t.read?) (events : r.events = []) :
    Quiet policy now db t r where
  rows := rows
  issued := issued
  random := random
  issues := issues
  reads := fun u hu x hx => Or.inl (reads u hu x hx)
  events := by simp [events]

theorem deleteTokens_sublist (db : AuthDb) (p : RefreshToken → Bool) :
    (db.deleteTokens p).refreshTokens.rows.Sublist db.refreshTokens.rows :=
  List.filter_sublist

/-- The check of a token stores and rotates nothing. -/
theorem checkStep_quiet (call : Nat) (token : RefreshToken) :
    Quiet policy now db (.check call token) (checkStep policy now db call token) := by
  rw [checkStep]
  cases h : token.presented policy now with
  | live =>
      refine ⟨.refl _, rfl, rfl, .refl _, fun u hu x hx => Or.inl ?_, fun e he => Or.inl ?_⟩
      · simp only [List.mem_singleton] at hu
        subst hu
        exact hx
      · exact ⟨call, token, rfl, h, List.mem_singleton.mp he⟩
  | reused =>
      exact Quiet.of_same (.refl _) rfl rfl (.refl _) (by simp [SessionTask.read?]) rfl
  | spent => exact Quiet.of_same (.refl _) rfl rfl (.refl _) (by simp) rfl
  | expired =>
      exact Quiet.of_same (.refl _) rfl rfl (.refl _) (by simp [SessionTask.read?]) rfl
  | aged =>
      exact Quiet.of_same (.refl _) rfl rfl (.refl _) (by simp [SessionTask.read?]) rfl

/-- Neither does deleting tokens. -/
theorem deleteStep_quiet (scope : Scope) (closes : Bool) (families : List Id) :
    Quiet policy now db (.delete scope closes families)
      (deleteStep now db scope closes families) := by
  have hrows := deleteTokens_sublist db scope.covers
  rw [deleteStep]
  cases closes with
  | false => exact Quiet.of_same hrows rfl rfl (.refl _) (by simp [SessionTask.read?]) rfl
  | true =>
      cases hu : scope.userId? with
      | none => exact Quiet.of_same hrows rfl rfl (.refl _) (by simp [SessionTask.read?]) rfl
      | some userId =>
          exact Quiet.of_same hrows rfl rfl (.refl _) (by simp [SessionTask.read?]) rfl

/-- Neither does reading the other families. -/
theorem otherFamiliesStep_quiet (userId : Id) (tokenHash : Option TokenHash)
    (currentFamilyId : Option Id) (next : Others) :
    Quiet policy now db (.otherFamilies userId tokenHash currentFamilyId next)
      ⟨db, otherFamiliesStep db userId tokenHash currentFamilyId next, []⟩ := by
  cases next with
  | changePassword =>
      exact Quiet.of_same (.refl _) rfl rfl (.refl _)
        (by simp [otherFamiliesStep, SessionTask.read?]) rfl
  | revoke =>
      simp only [otherFamiliesStep]
      split
      · exact Quiet.of_same (.refl _) rfl rfl (.refl _) (by simp) rfl
      · exact Quiet.of_same (.refl _) rfl rfl (.refl _) (by simp [SessionTask.read?]) rfl

/-- The markers on Redis leave the tables alone. -/
theorem denylist_quiet (familyIds : List Id) (scope : Scope) :
    Quiet policy now db (.denylist familyIds scope)
      ((SessionTask.denylist familyIds scope).run policy now db) := by
  cases familyIds with
  | nil =>
      exact Quiet.of_same (.refl _) rfl rfl (.refl _)
        (by simp [SessionTask.run, SessionTask.read?]) rfl
  | cons f fs =>
      exact Quiet.of_same (.refl _) rfl rfl (.refl _)
        (by simp [SessionTask.run, SessionTask.read?]) rfl

/-- Neither does denylisting. -/
theorem denylistAfter_quiet (familyIds ended : List Id) :
    Quiet policy now db (.denylistAfter familyIds ended)
      ((SessionTask.denylistAfter familyIds ended).run policy now db) := by
  cases familyIds with
  | nil =>
      refine ⟨.refl _, rfl, rfl, .refl _, by simp [SessionTask.run], fun e he => Or.inr ?_⟩
      obtain ⟨f, hf, rfl⟩ := List.mem_map.mp he
      exact ⟨f, hf, rfl⟩
  | cons f fs =>
      exact Quiet.of_same (.refl _) rfl rfl (.refl _)
        (by simp [SessionTask.run, SessionTask.read?]) rfl

/-- Every account check of a refresh either goes on to `issueTokens` or drops
the rotation. -/
theorem readUserStep_quiet (r : Rotation) :
    Quiet policy now db (.readUser r) (readUserStep db r) := by
  rw [readUserStep]
  split
  · exact Quiet.of_same (.refl _) rfl rfl (List.nil_sublist _)
      (by simp [SessionTask.read?]) rfl
  · split
    · exact Quiet.of_same (.refl _) rfl rfl (.refl _) (by simp [SessionTask.read?]) rfl
    · exact Quiet.of_same (.refl _) rfl rfl (.refl _) (by simp [SessionTask.read?]) rfl

/-- **Storing a token** is a creation, or it is refused and quiet. -/
theorem createStep_effect (i : Issue) :
    SessionEffect policy now db (.create i) (createStep policy now db i) := by
  rw [createStep]
  cases h : db.createToken (db.newToken policy now i.userId i.sessionStartedAt i.familyId) with
  | none =>
      exact .quiet (Quiet.of_same (.refl _) rfl rfl (List.nil_sublist _) (by simp) rfl)
  | some db' =>
      have heffect : SessionEffect policy now db (.create i) ⟨db', [], i.events _⟩ :=
        .created rfl rfl h
      cases hr : i.rotation with
      | none => simpa [Issue.events, hr] using heffect
      | some r => simpa [Issue.events, hr] using heffect

/-- **All a statement of a task can do.** -/
theorem SessionTask.run_effect (policy : SessionPolicy) (now : Instant) (db : AuthDb)
    (t : SessionTask) :
    SessionEffect policy now db t (t.run policy now db) := by
  cases t with
  | lookup call tokenHash =>
      simp only [SessionTask.run]
      cases h : db.findToken tokenHash with
      | none => exact .quiet (Quiet.of_same (.refl _) rfl rfl (.refl _) (by simp) rfl)
      | some token =>
          obtain ⟨hmem, hhash⟩ := AuthDb.findToken_eq_some h
          refine .quiet ⟨.refl _, rfl, rfl, .refl _, fun u hu x hx => Or.inr ?_, by simp⟩
          simp only [List.mem_singleton] at hu
          subst hu
          simp only [SessionTask.read?, Option.mem_def, Option.some.injEq] at hx
          subst hx
          exact ⟨by rw [hhash], hmem⟩
  | check call token => exact .quiet (checkStep_quiet call token)
  | deleteExpired id =>
      exact .quiet (Quiet.of_same (deleteTokens_sublist _ _) rfl rfl (.refl _)
        (by simp [run]) rfl)
  | consume call token =>
      simp only [SessionTask.run]
      cases h : db.consume now token.id with
      | none => exact .quiet (Quiet.of_same (.refl _) rfl rfl (.refl _) (by simp) rfl)
      | some db' => exact .consumed rfl h
  | readUser r => exact .quiet (readUserStep_quiet r)
  | readVendor r =>
      simp only [SessionTask.run]
      split
      · exact .quiet (Quiet.of_same (.refl _) rfl rfl (List.nil_sublist _)
          (by simp [SessionTask.read?]) rfl)
      · exact .quiet (Quiet.of_same (.refl _) rfl rfl (.refl _)
          (by simp [SessionTask.read?]) rfl)
  | sweep i =>
      exact .quiet (Quiet.of_same (deleteTokens_sublist _ _) rfl rfl (.refl _)
        (by simp [run, SessionTask.read?]) rfl)
  | readActive i =>
      simp only [SessionTask.run]
      split
      · exact .quiet (Quiet.of_same (.refl _) rfl rfl (.refl _)
          (by simp [SessionTask.read?]) rfl)
      · exact .quiet (Quiet.of_same (.refl _) rfl rfl (.refl _)
          (by simp [SessionTask.read?]) rfl)
  | evict i ids =>
      exact .quiet (Quiet.of_same (deleteTokens_sublist _ _) rfl rfl (.refl _)
        (by simp [run, SessionTask.read?]) rfl)
  | create i => exact createStep_effect i
  | denylistUser userId =>
      exact .quiet (Quiet.of_same (.refl _) rfl rfl (.refl _)
        (by simp [run, SessionTask.read?]) rfl)
  | denylist familyIds scope => exact .quiet (denylist_quiet familyIds scope)
  | delete scope closes families => exact .quiet (deleteStep_quiet scope closes families)
  | denylistAfter familyIds ended => exact .quiet (denylistAfter_quiet familyIds ended)
  | logoutLookup tokenHash =>
      simp only [SessionTask.run]
      split
      · exact .quiet (Quiet.of_same (.refl _) rfl rfl (.refl _) (by simp) rfl)
      · exact .quiet (Quiet.of_same (.refl _) rfl rfl (.refl _)
          (by simp [SessionTask.read?]) rfl)
  | snapshot userId closes =>
      exact .quiet (Quiet.of_same (.refl _) rfl rfl (.refl _)
        (by simp [run, SessionTask.read?]) rfl)
  | currentFamily userId tokenHash next =>
      exact .quiet (Quiet.of_same (.refl _) rfl rfl (.refl _)
        (by simp [run, SessionTask.read?]) rfl)
  | otherFamilies userId tokenHash currentFamilyId next =>
      exact .quiet (otherFamiliesStep_quiet userId tokenHash currentFamilyId next)
  | sessionLookup userId sessionId =>
      simp only [SessionTask.run]
      split
      · exact .quiet (Quiet.of_same (.refl _) rfl rfl (.refl _) (by simp) rfl)
      · split
        · exact .quiet (Quiet.of_same (.refl _) rfl rfl (.refl _)
            (by simp [SessionTask.read?]) rfl)
        · exact .quiet (Quiet.of_same (.refl _) rfl rfl (.refl _) (by simp) rfl)
  | cleanup =>
      exact .quiet (Quiet.of_same (deleteTokens_sublist _ _) rfl rfl (.refl _)
        (by simp [run]) rfl)

/-! ## Heads and parents -/

/-- The token a rotation event marks. -/
def SessionEvent.rotation? : SessionEvent → Option Id
  | .rotated tokenId => some tokenId
  | _ => none

/-- The token a succession event gives a successor. -/
def SessionEvent.succession? : SessionEvent → Option Id
  | .succeeded tokenId _ => some tokenId
  | _ => none

/-- The tokens rotated so far, one entry for each rotation. -/
def rotations (h : List SessionEvent) : List Id := h.filterMap SessionEvent.rotation?

/-- The tokens with a successor, one entry for each successor. -/
def successions (h : List SessionEvent) : List Id := h.filterMap SessionEvent.succession?

/-- The families of the tokens that are not rotated. -/
def AuthDb.headTokens (db : AuthDb) : List Id :=
  (db.refreshTokens.select (fun t => t.rotatedAt = none)).map RefreshToken.familyId

/-- The family whose head a task is. -/
def SessionTask.head? (t : SessionTask) : Option Id := t.issue?.map Issue.familyId

/-- The consumed token whose successor a task is about to store. -/
def SessionTask.parent? (t : SessionTask) : Option Id :=
  t.issue?.bind (fun i => i.rotation.map (fun r => r.token.id))

/-- The families of all heads, tokens and calls. -/
def SessionWorld.heads (w : SessionWorld) : List Id :=
  w.db.headTokens ++ w.inflight.filterMap SessionTask.head?

/-- The consumed tokens that have a successor or are about to. -/
def SessionWorld.parents (w : SessionWorld) : List Id :=
  successions w.history ++ w.inflight.filterMap SessionTask.parent?

/-- One element of a list is replaced by others, next to a list that is
rewritten: what becomes of the two together decides. -/
theorem subperm_replace {α : Type} {front front' whole rest old new : List α}
    (hwhole : whole.Perm (old ++ rest)) (h : (front' ++ new).Subperm (front ++ old)) :
    (front' ++ (rest ++ new)).Subperm (front ++ whole) := by
  have hleft : (front' ++ (rest ++ new)).Perm (front' ++ new ++ rest) := by
    rw [List.append_assoc]
    exact List.perm_append_comm.append_left front'
  have hright : (front ++ whole).Perm (front ++ old ++ rest) := by
    rw [List.append_assoc]
    exact hwhole.append_left front
  exact hleft.subperm.trans (((List.subperm_append_right rest).mpr h).trans hright.symm.subperm)

theorem nodup_of_subperm {α : Type} {l l' : List α} (h : l'.Nodup) (hsub : l.Subperm l') :
    l.Nodup := by
  obtain ⟨m, hperm, hm⟩ := hsub
  exact hperm.nodup_iff.mp (h.sublist hm)

variable {w w' : SessionWorld} {index : Nat} {t : SessionTask}

/-- What is under way after a statement was so before, or follows it. -/
theorem mem_ran {u : SessionTask} (h : u ∈ (w.ran policy index t).inflight) :
    u ∈ w.inflight ∨ u ∈ (t.run policy w.now w.db).next := by
  rcases List.mem_append.mp h with h | h
  · exact Or.inl (List.mem_of_mem_eraseIdx h)
  · exact Or.inr h

/-- Heads move between the table and the tasks; none is doubled. -/
theorem heads_ran (ht : w.inflight[index]? = some t)
    (h : ((t.run policy w.now w.db).db.headTokens ++
        (t.run policy w.now w.db).next.filterMap SessionTask.head?).Subperm
      (w.db.headTokens ++ t.head?.toList)) :
    (w.ran policy index t).heads.Subperm w.heads := by
  rw [SessionWorld.heads, SessionWorld.heads, SessionWorld.ran, List.filterMap_append]
  exact subperm_replace (filterMap_perm_eraseIdx _ ht) h

/-- So do the parents. -/
theorem parents_ran (old : List Id) (ht : w.inflight[index]? = some t)
    (h : (successions (w.history ++ (t.run policy w.now w.db).events) ++
        (t.run policy w.now w.db).next.filterMap SessionTask.parent?).Subperm
      (old ++ successions w.history ++ t.parent?.toList)) :
    (w.ran policy index t).parents.Subperm (old ++ w.parents) := by
  rw [SessionWorld.parents, SessionWorld.parents, SessionWorld.ran, List.filterMap_append,
    ← List.append_assoc old]
  exact subperm_replace (filterMap_perm_eraseIdx _ ht) h

/-! ## Consuming and storing a token -/

/-- Only a token that was not yet rotated is consumed. -/
theorem AuthDb.consume_eq_some {id : Id} {db' : AuthDb}
    (h : db.consume now id = some db') :
    (∃ r ∈ db.refreshTokens.rows, r.id = id ∧ r.rotatedAt = none) ∧
      db' = { db with
        refreshTokens := db.refreshTokens.updateMany
          (fun t => t.id = id ∧ t.rotatedAt = none)
          (fun t => { t with rotatedAt := some now }) } := by
  simp only [AuthDb.consume] at h
  split at h
  · cases h
  · rename_i hlen
    refine ⟨?_, (Option.some.inj h).symm⟩
    obtain ⟨r, hr⟩ := List.exists_mem_of_length_pos (Nat.pos_of_ne_zero hlen)
    obtain ⟨hmem, hr⟩ := Table.mem_select.mp hr
    exact ⟨r, hmem, by simpa using hr⟩

/-- The token is rotated, and the others stay. -/
theorem AuthDb.consume_rows {id : Id} {db' : AuthDb} (h : db.consume now id = some db')
    {r : RefreshToken} (hr : r ∈ db'.refreshTokens.rows) :
    ∃ r₀ ∈ db.refreshTokens.rows, r.asIssued = r₀.asIssued ∧ r.id = r₀.id ∧
      r.familyId = r₀.familyId ∧ (r = r₀ ∧ (r.id = id → r.rotatedAt ≠ none) ∨
        r.id = id ∧ r.rotatedAt ≠ none) := by
  obtain ⟨-, rfl⟩ := AuthDb.consume_eq_some h
  obtain ⟨r₀, hr₀, rfl⟩ := List.mem_map.mp hr
  refine ⟨r₀, hr₀, ?_⟩
  by_cases hid : r₀.id = id
  · by_cases hrot : r₀.rotatedAt = none
    · simp [hid, hrot, RefreshToken.asIssued]
    · simp [hrot]
  · simp [hid]

/-- Consuming a token takes its family off the head tokens. -/
theorem AuthDb.consume_heads {id : Id} {db' : AuthDb} (h : db.consume now id = some db') :
    ∃ r ∈ db.refreshTokens.rows, r.id = id ∧ r.rotatedAt = none ∧
      db.headTokens.Perm (r.familyId :: db'.headTokens) := by
  obtain ⟨⟨r, hr, hid, hrot⟩, rfl⟩ := AuthDb.consume_eq_some h
  refine ⟨r, hr, hid, hrot, ?_⟩
  let heads := db.refreshTokens.select (fun t => t.rotatedAt = none)
  have hmem : r ∈ heads := Table.mem_select.mpr ⟨hr, by simpa using hrot⟩
  have hnodup : heads.Nodup := (List.Nodup.of_map _ db.refreshTokens.nodup).filter _
  have hrest : (heads.erase r).map RefreshToken.familyId =
      AuthDb.headTokens { db with
        refreshTokens := db.refreshTokens.updateMany
          (fun t => t.id = id ∧ t.rotatedAt = none)
          (fun t => { t with rotatedAt := some now }) } := by
    rw [hnodup.erase_eq_filter]
    simp only [AuthDb.headTokens, Table.select, Table.updateMany, List.filter_map,
      List.map_map, heads, List.filter_filter]
    -- the rewrite keeps families, and leaves just the other heads unrotated
    refine congrArg₂ _ (funext fun a => ?_) (List.filter_congr fun a ha => ?_)
    · by_cases hp : a.id = id ∧ a.rotatedAt = none <;> simp [hp]
    · by_cases ha' : a.id = id
      · have har : a = r := Table.key_inj ha hr (ha'.trans hid.symm)
        simp [har, hid, hrot]
      · have har : a ≠ r := fun he => ha' (he ▸ hid)
        simp [ha', har]
  exact ((List.perm_cons_erase hmem).map _).trans (by rw [List.map_cons, hrest])

/-- Storing a token puts its family on the head tokens. -/
theorem AuthDb.createToken_eq_some {token : RefreshToken} {db' : AuthDb}
    (h : db.createToken token = some db') :
    db'.refreshTokens.rows = db.refreshTokens.rows ++ [token] ∧
      db'.issued = db.issued ++ [token] ∧ db'.nextRandom = db.nextRandom + 1 := by
  obtain ⟨refreshTokens, hins, rfl⟩ := Option.map_eq_some_iff.mp h
  exact ⟨(Table.insert?_eq_some.mp hins).2, rfl, rfl⟩

/-- A new token is the head of its family. -/
theorem AuthDb.createToken_heads {token : RefreshToken} {db' : AuthDb}
    (h : db.createToken token = some db') (hrot : token.rotatedAt = none) :
    db'.headTokens = db.headTokens ++ [token.familyId] := by
  simp [AuthDb.headTokens, Table.select, (AuthDb.createToken_eq_some h).1, hrot]

/-! ## The invariant -/

/-- What is known of an `issueTokens` call: a login has a family nobody has
logged in with, and a rotation carries on what its token says. -/
def SessionWorld.Grounded (w : SessionWorld) (i : Issue) : Prop :=
  match i.rotation with
  | none => i.familyId < w.db.nextRandom ∧
      ∀ u s, .loggedIn i.familyId u s ∉ w.history
  | some r => i = r.issue ∧ r.token.asIssued ∈ w.db.issued

structure SessionWorld.Chained (policy : SessionPolicy) (w : SessionWorld) : Prop where
  ids : (w.db.issued.map RefreshToken.id).Nodup
  drawn : ∀ r ∈ w.db.issued, r.id < w.db.nextRandom ∧ r.tokenHash = r.id ∧
    r.rotatedAt = none
  rows : ∀ r ∈ w.db.refreshTokens.rows, r.asIssued ∈ w.db.issued
  reads : ∀ t ∈ w.inflight, ∀ x ∈ t.read?, x.2.asIssued ∈ w.db.issued
  logins : ∀ r ∈ w.db.issued,
    .loggedIn r.familyId r.userId r.sessionStartedAt ∈ w.history
  oneLogin : ∀ f u s u' s', .loggedIn f u s ∈ w.history →
    .loggedIn f u' s' ∈ w.history → u = u' ∧ s = s'
  started : ∀ f u s, .loggedIn f u s ∈ w.history → f < w.db.nextRandom
  issues : ∀ t ∈ w.inflight, ∀ i ∈ t.issue?, w.Grounded i
  heads : w.heads.Nodup
  rotatedOnce : (rotations w.history).Nodup
  tombstones : ∀ id ∈ rotations w.history, id < w.db.nextRandom ∧
    ∀ r ∈ w.db.refreshTokens.rows, r.id = id → r.rotatedAt ≠ none
  parents : w.parents.Nodup
  spent : ∀ id ∈ w.parents, id ∈ rotations w.history
  ages : ∀ f time, .passedAgeCheck f time ∈ w.history →
    ∃ u s, .loggedIn f u s ∈ w.history ∧ time - s ≤ policy.sessionMaxMs

/-- At the start there is no family. -/
theorem SessionWorld.Initial.chained (h : w.Initial) : w.Chained policy := by
  have hparents : w.parents = [] := by
    simp [SessionWorld.parents, successions, h.history, h.inflight]
  have hheads : w.heads = [] := by
    simp [SessionWorld.heads, AuthDb.headTokens, Table.select, h.refreshTokens, h.inflight]
  constructor
  case heads => simp [hheads]
  case parents => simp [hparents]
  case spent => simp [hparents]
  all_goals simp [h.refreshTokens, h.issued, h.inflight, h.history, rotations]

/-- Rows that were issued under one id belong to one family. -/
theorem SessionWorld.Chained.same_family (h : w.Chained policy) {a b : RefreshToken}
    (ha : a.asIssued ∈ w.db.issued) (hb : b.asIssued ∈ w.db.issued) (hid : a.id = b.id) :
    a.familyId = b.familyId := by
  have heq : a.asIssued = b.asIssued := List.inj_on_of_nodup_map h.ids ha hb hid
  have hfamily := congrArg RefreshToken.familyId heq
  exact hfamily

/-- What an issue rests on is still so later. -/
theorem SessionWorld.Grounded.mono {i : Issue} (h : w.Grounded i)
    (random : w.db.nextRandom ≤ w'.db.nextRandom)
    (logins : ∀ u s, i.rotation = none → .loggedIn i.familyId u s ∈ w'.history →
      .loggedIn i.familyId u s ∈ w.history)
    (issued : ∀ r ∈ w.db.issued, r ∈ w'.db.issued) : w'.Grounded i := by
  unfold SessionWorld.Grounded at h ⊢
  cases hr : i.rotation with
  | none =>
      rw [hr] at h
      exact ⟨h.1.trans_le random, fun u s hl => h.2 u s (logins u s hr hl)⟩
  | some r =>
      rw [hr] at h
      exact ⟨h.1, issued _ h.2⟩

section Quiet

variable {r : Stepped} (hq : Quiet policy now db t r)
include hq

/-- A quiet statement records no rotation, no succession and no login. -/
theorem Quiet.event_cases {e : SessionEvent} (he : e ∈ r.events) :
    e.rotation? = none ∧ e.succession? = none ∧ ∀ f u s, e ≠ .loggedIn f u s := by
  rcases hq.events e he with ⟨_, _, _, _, rfl⟩ | ⟨_, _, rfl⟩ <;>
    exact ⟨rfl, rfl, fun _ _ _ h => by cases h⟩

theorem Quiet.rotations (h : List SessionEvent) :
    rotations (h ++ r.events) = rotations h := by
  have hnil : r.events.filterMap SessionEvent.rotation? = [] :=
    List.filterMap_eq_nil_iff.mpr fun e he => (hq.event_cases he).1
  simp [Jadwal.rotations, hnil]

theorem Quiet.successions (h : List SessionEvent) :
    successions (h ++ r.events) = successions h := by
  have hnil : r.events.filterMap SessionEvent.succession? = [] :=
    List.filterMap_eq_nil_iff.mpr fun e he => (hq.event_cases he).2.1
  simp [Jadwal.successions, hnil]

theorem Quiet.login {h : List SessionEvent} {f u : Id} {s : Instant}
    (hl : .loggedIn f u s ∈ h ++ r.events) : .loggedIn f u s ∈ h := by
  rcases List.mem_append.mp hl with hl | hl
  · exact hl
  · exact absurd rfl ((hq.event_cases hl).2.2 f u s)

/-- A task of a quiet statement issues what the task before it did. -/
theorem Quiet.issue {u : SessionTask} {i : Issue} (hu : u ∈ r.next) (hi : i ∈ u.issue?) :
    i ∈ t.issue? := by
  have hmem : i ∈ r.next.filterMap SessionTask.issue? :=
    List.mem_filterMap.mpr ⟨u, hu, hi⟩
  simpa using hq.issues.subset hmem

theorem Quiet.filterMap_issue {α : Type} (g : Issue → Option α) :
    (r.next.filterMap (fun u => u.issue?.bind g)).Sublist (t.issue?.bind g).toList := by
  have h := hq.issues.filterMap g
  rw [List.filterMap_filterMap] at h
  cases ht : t.issue? with
  | none => simpa [ht] using h
  | some i => cases hg : g i <;> simpa [ht, hg] using h

theorem Quiet.heads : (r.next.filterMap SessionTask.head?).Sublist t.head?.toList := by
  have hhead : SessionTask.head? = fun u => u.issue?.bind (fun i => some i.familyId) := by
    funext u
    rw [SessionTask.head?, Option.map_eq_bind]
    rfl
  rw [hhead]
  exact hq.filterMap_issue _

theorem Quiet.parents : (r.next.filterMap SessionTask.parent?).Sublist t.parent?.toList :=
  hq.filterMap_issue _

end Quiet

theorem AuthDb.headTokens_sublist {db' : AuthDb}
    (h : db'.refreshTokens.rows.Sublist db.refreshTokens.rows) :
    db'.headTokens.Sublist db.headTokens :=
  (h.filter _).map _

/-- A quiet statement keeps the chains. -/
theorem SessionWorld.Chained.quiet (h : w.Chained policy) (ht : w.inflight[index]? = some t)
    (hq : Quiet policy w.now w.db t (t.run policy w.now w.db)) :
    (w.ran policy index t).Chained policy := by
  have hmem : t ∈ w.inflight := List.mem_of_getElem? ht
  have hissued : (w.ran policy index t).db.issued = w.db.issued := hq.issued
  have hrandom : (w.ran policy index t).db.nextRandom = w.db.nextRandom := hq.random
  have hrows : ∀ r ∈ (w.ran policy index t).db.refreshTokens.rows,
      r ∈ w.db.refreshTokens.rows := fun r hr => hq.rows.subset hr
  have hrotations : rotations (w.ran policy index t).history = rotations w.history :=
    hq.rotations w.history
  have hsub : (w.ran policy index t).parents.Subperm w.parents := by
    refine parents_ran [] ht ?_
    rw [hq.successions]
    exact ((List.Sublist.refl _).append hq.parents).subperm
  constructor
  case ids => rw [hissued]; exact h.ids
  case drawn => rw [hissued, hrandom]; exact h.drawn
  case rows => rw [hissued]; exact fun r hr => h.rows r (hrows r hr)
  case reads =>
      rw [hissued]
      intro u hu x hx
      rcases mem_ran hu with hu | hu
      · exact h.reads u hu x hx
      · rcases hq.reads u hu x hx with hx | ⟨-, hx⟩
        · exact h.reads t hmem x hx
        · exact h.rows _ hx
  case logins =>
      rw [hissued]
      exact fun r hr => List.mem_append_left _ (h.logins r hr)
  case oneLogin =>
      exact fun f u s u' s' hl hl' => h.oneLogin f u s u' s' (hq.login hl) (hq.login hl')
  case started => rw [hrandom]; exact fun f u s hl => h.started f u s (hq.login hl)
  case issues =>
      intro u hu i hi
      have hground : w.Grounded i := by
        rcases mem_ran hu with hu | hu
        · exact h.issues u hu i hi
        · exact h.issues t hmem i (hq.issue hu hi)
      exact hground.mono hrandom.ge (fun u s _ hl => hq.login hl)
        (fun r hr => hissued ▸ hr)
  case heads =>
      refine nodup_of_subperm h.heads (heads_ran ht ?_)
      exact ((AuthDb.headTokens_sublist hq.rows).append hq.heads).subperm
  case rotatedOnce => rw [hrotations]; exact h.rotatedOnce
  case tombstones =>
      rw [hrotations, hrandom]
      exact fun id hid => ⟨(h.tombstones id hid).1,
        fun r hr => (h.tombstones id hid).2 r (hrows r hr)⟩
  case parents => exact nodup_of_subperm h.parents hsub
  case spent => rw [hrotations]; exact fun id hid => h.spent id (hsub.subset hid)
  case ages =>
      intro f time he
      rcases List.mem_append.mp he with he | he
      · obtain ⟨u, s, hl, hle⟩ := h.ages f time he
        exact ⟨u, s, List.mem_append_left _ hl, hle⟩
      · rcases hq.events _ he with ⟨call, token, rfl, hlive, heq⟩ | ⟨_, _, heq⟩
        · obtain ⟨rfl, rfl⟩ := SessionEvent.passedAgeCheck.inj heq
          have hissue := h.reads _ hmem (call, token) rfl
          refine ⟨token.userId, token.sessionStartedAt,
            List.mem_append_left _ (h.logins token.asIssued hissue), ?_⟩
          unfold RefreshToken.presented at hlive
          grind
        · cases heq

/-! ## A rotation, a successor, a login -/

/-- Consuming a token hands its headship to the call. -/
theorem SessionWorld.Chained.consumed (h : w.Chained policy) {call : Nat}
    {token : RefreshToken} {db' : AuthDb}
    (ht : w.inflight[index]? = some (.consume call token))
    (stored : w.db.consume w.now token.id = some db')
    (hrun : (SessionTask.consume call token).run policy w.now w.db =
      ⟨db', [.readUser ⟨call, token⟩], [.rotated token.id]⟩) :
    (w.ran policy index (.consume call token)).Chained policy := by
  have hmem : SessionTask.consume call token ∈ w.inflight := List.mem_of_getElem? ht
  have htoken : token.asIssued ∈ w.db.issued := h.reads _ hmem (call, token) rfl
  obtain ⟨hrow, hdb'⟩ := AuthDb.consume_eq_some stored
  have hissued : (w.ran policy index (.consume call token)).db.issued = w.db.issued := by
    simp [SessionWorld.ran, hrun, hdb']
  have hrandom : (w.ran policy index (.consume call token)).db.nextRandom =
      w.db.nextRandom := by
    simp [SessionWorld.ran, hrun, hdb']
  have hdb : (w.ran policy index (.consume call token)).db = db' := by
    simp [SessionWorld.ran, hrun]
  have hhistory : (w.ran policy index (.consume call token)).history =
      w.history ++ [.rotated token.id] := by
    simp [SessionWorld.ran, hrun]
  have hrotations : rotations (w.ran policy index (.consume call token)).history =
      rotations w.history ++ [token.id] := by
    simp [hhistory, rotations, SessionEvent.rotation?]
  have hlogin : ∀ f u s, .loggedIn f u s ∈ (w.ran policy index (.consume call token)).history →
      .loggedIn f u s ∈ w.history := by
    intro f u s hl
    simpa [hhistory] using hl
  -- the row was not rotated, so nobody has rotated the token before
  have hfresh : token.id ∉ rotations w.history := by
    intro hin
    obtain ⟨r, hr, hid, hrot⟩ := hrow
    exact (h.tombstones _ hin).2 r hr hid hrot
  have hsub : (w.ran policy index (.consume call token)).parents.Subperm
      ([token.id] ++ w.parents) := by
    refine parents_ran _ ht ?_
    have hparents : ([.readUser ⟨call, token⟩] : List SessionTask).filterMap
        SessionTask.parent? = [token.id] := rfl
    have hsame : successions (w.history ++ [.rotated token.id]) = successions w.history := by
      simp [successions, SessionEvent.succession?]
    rw [hrun, hparents, hsame]
    refine List.perm_append_comm.subperm.trans ?_
    exact (List.sublist_append_left _ _).subperm
  constructor
  case ids => rw [hissued]; exact h.ids
  case drawn => rw [hissued, hrandom]; exact h.drawn
  case rows =>
      rw [hissued, hdb]
      intro r hr
      obtain ⟨r₀, hr₀, heq, -⟩ := AuthDb.consume_rows stored hr
      exact heq ▸ h.rows r₀ hr₀
  case reads =>
      rw [hissued]
      intro u hu x hx
      rcases mem_ran hu with hu | hu
      · exact h.reads u hu x hx
      · simp only [hrun, List.mem_singleton] at hu
        subst hu
        cases hx
  case logins =>
      rw [hissued, hhistory]
      exact fun r hr => List.mem_append_left _ (h.logins r hr)
  case oneLogin =>
      exact fun f u s u' s' hl hl' => h.oneLogin f u s u' s' (hlogin _ _ _ hl) (hlogin _ _ _ hl')
  case started => rw [hrandom]; exact fun f u s hl => h.started f u s (hlogin _ _ _ hl)
  case issues =>
      intro u hu i hi
      rcases mem_ran hu with hu | hu
      · exact (h.issues u hu i hi).mono hrandom.ge (fun u s _ hl => hlogin _ _ _ hl)
          (fun r hr => hissued ▸ hr)
      · simp only [hrun, List.mem_singleton] at hu
        subst hu
        obtain rfl := Option.some.inj hi
        exact ⟨rfl, hissued ▸ htoken⟩
  case heads =>
      refine nodup_of_subperm h.heads (heads_ran ht ?_)
      obtain ⟨r, hr, hid, -, hperm⟩ := AuthDb.consume_heads stored
      have hfamily := h.same_family (h.rows r hr) htoken hid
      rw [hrun]
      rw [hfamily] at hperm
      refine (List.Perm.trans ?_ hperm.symm).subperm.trans ?_
      · exact List.perm_append_comm
      · simpa [SessionTask.head?, SessionTask.issue?] using List.Subperm.refl _
  case rotatedOnce =>
      rw [hrotations, List.nodup_append]
      refine ⟨h.rotatedOnce, by simp, fun a ha b hb hab => ?_⟩
      rw [List.mem_singleton.mp hb] at hab
      exact hfresh (hab ▸ ha)
  case tombstones =>
      rw [hrotations, hrandom, hdb]
      intro id hid
      have hlt : id < w.db.nextRandom := by
        rcases List.mem_append.mp hid with hid | hid
        · exact (h.tombstones id hid).1
        · rw [List.mem_singleton.mp hid]
          exact (h.drawn _ htoken).1
      refine ⟨hlt, fun r hr hrid => ?_⟩
      obtain ⟨r₀, hr₀, -, hrid₀, -, ⟨rfl, hother⟩ | ⟨-, hrot⟩⟩ := AuthDb.consume_rows stored hr
      · rcases List.mem_append.mp hid with hid | hid
        · exact (h.tombstones id hid).2 r hr₀ hrid
        · exact hother (hrid.trans (List.mem_singleton.mp hid))
      · exact hrot
  case parents =>
      refine nodup_of_subperm ?_ hsub
      refine List.nodup_cons.mpr ⟨fun hin => hfresh (h.spent _ hin), h.parents⟩
  case spent =>
      rw [hrotations]
      intro id hid
      rcases List.mem_append.mp (hsub.subset hid) with hid | hid
      · exact List.mem_append_right _ hid
      · exact List.mem_append_left _ (h.spent id hid)
  case ages =>
      intro f time he
      rw [hhistory] at he
      obtain ⟨u, s, hl, hle⟩ := h.ages f time (by simpa using he)
      exact ⟨u, s, hhistory ▸ List.mem_append_left _ hl, hle⟩

/-- The history a stored token leaves. -/
theorem Issue.mem_events {i : Issue} {token : RefreshToken} {e : SessionEvent}
    (h : e ∈ i.events token) :
    (i.rotation = none ∧ e = .loggedIn i.familyId i.userId token.sessionStartedAt) ∨
      ∃ r, i.rotation = some r ∧ (e = .succeeded r.token.id token.id ∨ e = .refreshed r.call) := by
  unfold Issue.events at h
  cases hr : i.rotation with
  | none =>
      rw [hr] at h
      exact Or.inl ⟨rfl, List.mem_singleton.mp h⟩
  | some r =>
      rw [hr] at h
      exact Or.inr ⟨r, rfl, by simpa using h⟩

theorem Issue.rotations_events (i : Issue) (token : RefreshToken) (h : List SessionEvent) :
    rotations (h ++ i.events token) = rotations h := by
  have hnil : (i.events token).filterMap SessionEvent.rotation? = [] := by
    refine List.filterMap_eq_nil_iff.mpr fun e he => ?_
    rcases Issue.mem_events he with ⟨-, rfl⟩ | ⟨r, -, rfl | rfl⟩ <;> rfl
  simp [rotations, hnil]

/-- A rotation moves its parent from the calls to the record. -/
theorem Issue.successions_events (i : Issue) (token : RefreshToken) (h : List SessionEvent) :
    successions (h ++ i.events token) =
      successions h ++ (i.rotation.map (fun r => r.token.id)).toList := by
  cases hr : i.rotation with
  | none => simp [successions, Issue.events, hr, SessionEvent.succession?]
  | some r => simp [successions, Issue.events, hr, SessionEvent.succession?]

/-- Storing the successor gives it to the new row. -/
theorem SessionWorld.Chained.created (h : w.Chained policy) {i : Issue}
    {token : RefreshToken} {db' : AuthDb} (ht : w.inflight[index]? = some (.create i))
    (row : token = w.db.newToken policy w.now i.userId i.sessionStartedAt i.familyId)
    (stored : w.db.createToken token = some db')
    (hrun : (SessionTask.create i).run policy w.now w.db = ⟨db', [], i.events token⟩) :
    (w.ran policy index (.create i)).Chained policy := by
  have hmem : SessionTask.create i ∈ w.inflight := List.mem_of_getElem? ht
  have hground : w.Grounded i := h.issues _ hmem i rfl
  obtain ⟨hrows, hissued, hrandom⟩ := AuthDb.createToken_eq_some stored
  have hid : token.id = w.db.nextRandom := by rw [row]; rfl
  have hhash : token.tokenHash = token.id := by rw [row]; rfl
  have hfamily : token.familyId = i.familyId := by rw [row]; rfl
  have huser : token.userId = i.userId := by rw [row]; rfl
  have hrot : token.rotatedAt = none := by rw [row]; rfl
  have hasIssued : token.asIssued = token := by rw [row]; rfl
  have hdb : (w.ran policy index (.create i)).db = db' := by simp [SessionWorld.ran, hrun]
  have hhistory : (w.ran policy index (.create i)).history = w.history ++ i.events token := by
    simp [SessionWorld.ran, hrun]
  have hothers : ∀ u ∈ (w.ran policy index (.create i)).inflight,
      u ∈ w.inflight.eraseIdx index := by
    intro u hu
    simpa [SessionWorld.ran, hrun] using hu
  have hinflight : ∀ u ∈ (w.ran policy index (.create i)).inflight, u ∈ w.inflight :=
    fun u hu => List.mem_of_mem_eraseIdx (hothers u hu)
  -- nobody else is the head of the family
  have halone : ∀ u ∈ w.inflight.eraseIdx index, ∀ i' ∈ u.issue?,
      i'.familyId ≠ i.familyId := by
    intro u hu i' hi' heq
    have hperm : (w.inflight.filterMap SessionTask.head?).Perm
        (i.familyId :: (w.inflight.eraseIdx index).filterMap SessionTask.head?) :=
      filterMap_perm_eraseIdx SessionTask.head? ht
    have hnodup := hperm.nodup_iff.mp (h.heads.sublist (List.sublist_append_right _ _))
    refine (List.nodup_cons.mp hnodup).1 (List.mem_filterMap.mpr ⟨u, hu, ?_⟩)
    rw [SessionTask.head?, hi', Option.map_some, heq]
  -- the only login of the family is the one the token is of
  have hlogin : ∀ f u s, .loggedIn f u s ∈ (w.ran policy index (.create i)).history →
      .loggedIn f u s ∈ w.history ∨ (i.rotation = none ∧ f = i.familyId ∧
        u = i.userId ∧ s = token.sessionStartedAt) := by
    intro f u s hl
    rw [hhistory] at hl
    rcases List.mem_append.mp hl with hl | hl
    · exact Or.inl hl
    · rcases Issue.mem_events hl with ⟨hr, heq⟩ | ⟨r, -, heq | heq⟩
      · obtain ⟨rfl, rfl, rfl⟩ := SessionEvent.loggedIn.inj heq
        exact Or.inr ⟨hr, rfl, rfl, rfl⟩
      · cases heq
      · cases heq
  have hthis : .loggedIn token.familyId token.userId token.sessionStartedAt ∈
      (w.ran policy index (.create i)).history := by
    rw [hhistory, hfamily, huser]
    unfold SessionWorld.Grounded at hground
    cases hr : i.rotation with
    | none => simp [Issue.events, hr]
    | some r =>
        rw [hr] at hground
        have hstart : token.sessionStartedAt = r.token.sessionStartedAt := by
          rw [row, hground.1]; rfl
        have hl := h.logins _ hground.2
        rw [hstart]
        refine List.mem_append_left _ ?_
        rw [hground.1]
        exact hl
  have hissuedRan : (w.ran policy index (.create i)).db.issued = w.db.issued ++ [token] := by
    rw [hdb, hissued]
  have hrandomRan : (w.ran policy index (.create i)).db.nextRandom = w.db.nextRandom + 1 := by
    rw [hdb, hrandom]
  have hrowsRan : (w.ran policy index (.create i)).db.refreshTokens.rows =
      w.db.refreshTokens.rows ++ [token] := by
    rw [hdb, hrows]
  have hrotations : rotations (w.ran policy index (.create i)).history =
      rotations w.history := by
    rw [hhistory, Issue.rotations_events]
  have hsub : (w.ran policy index (.create i)).parents.Subperm ([] ++ w.parents) := by
    refine parents_ran _ ht ?_
    rw [hrun, Issue.successions_events]
    simpa [SessionTask.parent?, SessionTask.issue?] using List.Subperm.refl _
  have hfamilyLt : i.familyId < w.db.nextRandom := by
    unfold SessionWorld.Grounded at hground
    cases hr : i.rotation with
    | none =>
        rw [hr] at hground
        exact hground.1
    | some r =>
        rw [hr] at hground
        rw [hground.1]
        exact h.started _ _ _ (h.logins r.token.asIssued hground.2)
  have hnew : i.rotation = none → ∀ u s, .loggedIn i.familyId u s ∉ w.history := by
    intro hr
    unfold SessionWorld.Grounded at hground
    rw [hr] at hground
    exact hground.2
  constructor
  case ids =>
      rw [hissuedRan, List.map_append, List.nodup_append]
      refine ⟨h.ids, by simp, fun a ha b hb hab => ?_⟩
      obtain ⟨r, hr, rfl⟩ := List.mem_map.mp ha
      have hlt := (h.drawn r hr).1
      simp only [List.map_cons, List.map_nil, List.mem_singleton] at hb
      exact absurd hlt (by rw [hab, hb, hid]; lia)
  case drawn =>
      rw [hissuedRan, hrandomRan]
      intro r hr
      rcases List.mem_append.mp hr with hr | hr
      · exact ⟨(h.drawn r hr).1.trans (Nat.lt_succ_self _), (h.drawn r hr).2⟩
      · rw [List.mem_singleton.mp hr]
        exact ⟨by rw [hid]; exact Nat.lt_succ_self _, hhash, hrot⟩
  case rows =>
      rw [hrowsRan, hissuedRan]
      intro r hr
      rcases List.mem_append.mp hr with hr | hr
      · exact List.mem_append_left _ (h.rows r hr)
      · rw [List.mem_singleton.mp hr, hasIssued]
        exact List.mem_append_right _ (List.mem_singleton_self _)
  case reads =>
      rw [hissuedRan]
      exact fun u hu x hx => List.mem_append_left _ (h.reads u (hinflight u hu) x hx)
  case logins =>
      rw [hissuedRan]
      intro r hr
      rcases List.mem_append.mp hr with hr | hr
      · rw [hhistory]
        exact List.mem_append_left _ (h.logins r hr)
      · rw [List.mem_singleton.mp hr]
        exact hthis
  case oneLogin =>
      intro f u s u' s' hl hl'
      rcases hlogin f u s hl with hl | ⟨hr, rfl, rfl, rfl⟩ <;>
        rcases hlogin _ u' s' hl' with hl' | ⟨hr', hf, rfl, rfl⟩
      · exact h.oneLogin f u s u' s' hl hl'
      · exact absurd (hf ▸ hl) (hnew hr' u s)
      · exact absurd hl' (hnew hr u' s')
      · exact ⟨rfl, rfl⟩
  case started =>
      rw [hrandomRan]
      intro f u s hl
      rcases hlogin f u s hl with hl | ⟨-, rfl, -, -⟩
      · exact (h.started f u s hl).trans (Nat.lt_succ_self _)
      · exact hfamilyLt.trans (Nat.lt_succ_self _)
  case issues =>
      intro u hu i' hi'
      refine (h.issues u (hinflight u hu) i' hi').mono (hrandomRan ▸ Nat.le_succ _) ?_
        (fun r hr => hissuedRan ▸ List.mem_append_left _ hr)
      intro u' s' _ hl
      rcases hlogin _ u' s' hl with hl | ⟨-, hf, -, -⟩
      · exact hl
      · exact absurd hf (halone u (hothers u hu) i' hi')
  case heads =>
      refine nodup_of_subperm h.heads (heads_ran ht ?_)
      rw [hrun, AuthDb.createToken_heads stored hrot, hfamily]
      simpa [SessionTask.head?, SessionTask.issue?] using List.Subperm.refl _
  case rotatedOnce => rw [hrotations]; exact h.rotatedOnce
  case tombstones =>
      rw [hrotations, hrandomRan, hrowsRan]
      intro id hin
      have hlt := (h.tombstones id hin).1
      refine ⟨hlt.trans (Nat.lt_succ_self _), fun r hr hrid => ?_⟩
      rcases List.mem_append.mp hr with hr | hr
      · exact (h.tombstones id hin).2 r hr hrid
      · rw [List.mem_singleton.mp hr, hid] at hrid
        exact absurd hlt (by rw [hrid]; exact lt_irrefl _)
  case parents => exact nodup_of_subperm h.parents hsub
  case spent =>
      rw [hrotations]
      exact fun id hin => h.spent id (hsub.subset hin)
  case ages =>
      intro f time he
      rw [hhistory] at he
      rcases List.mem_append.mp he with he | he
      · obtain ⟨u, s, hl, hle⟩ := h.ages f time he
        exact ⟨u, s, hhistory ▸ List.mem_append_left _ hl, hle⟩
      · rcases Issue.mem_events he with ⟨-, heq⟩ | ⟨r, -, heq | heq⟩ <;> cases heq

/-- A request puts a task in flight that is no head, or a login's. -/
theorem SessionRequest.start_cases (request : SessionRequest) (db : AuthDb) (calls : Nat) :
    (∃ userId, request = .login userId ∧ request.start db calls =
      ⟨{ db with nextRandom := db.nextRandom + 1 },
        [.sweep ⟨userId, none, db.nextRandom, none⟩], []⟩) ∨
    ((request.start db calls).db = db ∧
      (∀ u ∈ (request.start db calls).next, u.issue? = none ∧ u.read? = none ∧ u.ended = []) ∧
      ∀ e ∈ (request.start db calls).events, ∃ tokenHash, request = .refreshTokens tokenHash ∧
        e = .presented calls tokenHash) := by
  cases request with
  | login userId => exact Or.inl ⟨userId, rfl, rfl⟩
  | revokeSession userId role sessionId =>
      refine Or.inr ⟨rfl, fun u hu => ?_, by simp [start]⟩
      by_cases hrole : role = .customer <;> simp [start, hrole] at hu
      subst hu
      exact ⟨rfl, rfl, rfl⟩
  | revokeAllOtherSessions userId role tokenHash =>
      refine Or.inr ⟨rfl, fun u hu => ?_, by simp [start]⟩
      by_cases hrole : role = .customer <;> simp [start, hrole] at hu
      subst hu
      exact ⟨rfl, rfl, rfl⟩
  | _ =>
      refine Or.inr ⟨rfl, fun u hu => ?_, by simp [start]⟩
      simp only [start, List.mem_singleton] at hu
      subst hu
      exact ⟨rfl, rfl, rfl⟩

/-- A new call without a head, and a history with nothing of the families. -/
theorem SessionWorld.Chained.frame (h : w.Chained policy) (tasks : List SessionTask)
    (events : List SessionEvent)
    (refreshTokens : w'.db.refreshTokens = w.db.refreshTokens)
    (issued : w'.db.issued = w.db.issued) (random : w'.db.nextRandom = w.db.nextRandom)
    (inflight : w'.inflight = w.inflight ++ tasks) (history : w'.history = w.history ++ events)
    (idle : ∀ u ∈ tasks, u.issue? = none ∧ u.read? = none)
    (presents : ∀ e ∈ events, ∃ call tokenHash, e = .presented call tokenHash) :
    w'.Chained policy := by
  have hlogin : ∀ f u s, .loggedIn f u s ∈ w'.history → .loggedIn f u s ∈ w.history := by
    intro f u s hl
    rw [history] at hl
    rcases List.mem_append.mp hl with hl | hl
    · exact hl
    · obtain ⟨_, _, heq⟩ := presents _ hl
      cases heq
  have hmem : ∀ u ∈ w'.inflight, u ∈ w.inflight ∨ u.issue? = none ∧ u.read? = none := by
    intro u hu
    rw [inflight] at hu
    rcases List.mem_append.mp hu with hu | hu
    · exact Or.inl hu
    · exact Or.inr (idle u hu)
  have hrotations : rotations w'.history = rotations w.history := by
    have hnil : events.filterMap SessionEvent.rotation? = [] := by
      refine List.filterMap_eq_nil_iff.mpr fun e he => ?_
      obtain ⟨_, _, rfl⟩ := presents e he
      rfl
    simp [rotations, history, hnil]
  have hsuccessions : successions w'.history = successions w.history := by
    have hnil : events.filterMap SessionEvent.succession? = [] := by
      refine List.filterMap_eq_nil_iff.mpr fun e he => ?_
      obtain ⟨_, _, rfl⟩ := presents e he
      rfl
    simp [successions, history, hnil]
  have hheads : w'.heads = w.heads := by
    have hnil : tasks.filterMap SessionTask.head? = [] :=
      List.filterMap_eq_nil_iff.mpr fun u hu => by simp [SessionTask.head?, (idle u hu).1]
    simp [SessionWorld.heads, AuthDb.headTokens, refreshTokens, inflight, hnil]
  have hparents : w'.parents = w.parents := by
    have hnil : tasks.filterMap SessionTask.parent? = [] :=
      List.filterMap_eq_nil_iff.mpr fun u hu => by simp [SessionTask.parent?, (idle u hu).1]
    simp [SessionWorld.parents, hsuccessions, inflight, hnil]
  constructor
  case ids => rw [issued]; exact h.ids
  case drawn => rw [issued, random]; exact h.drawn
  case rows => rw [issued, refreshTokens]; exact h.rows
  case reads =>
      rw [issued]
      intro u hu x hx
      rcases hmem u hu with hu | ⟨-, hnone⟩
      · exact h.reads u hu x hx
      · simp [hnone] at hx
  case logins =>
      rw [issued, history]
      exact fun r hr => List.mem_append_left _ (h.logins r hr)
  case oneLogin =>
      exact fun f u s u' s' hl hl' => h.oneLogin f u s u' s' (hlogin _ _ _ hl) (hlogin _ _ _ hl')
  case started => rw [random]; exact fun f u s hl => h.started f u s (hlogin _ _ _ hl)
  case issues =>
      intro u hu i hi
      rcases hmem u hu with hu | ⟨hnone, -⟩
      · exact (h.issues u hu i hi).mono random.ge (fun u s _ hl => hlogin _ _ _ hl)
          (fun r hr => issued ▸ hr)
      · simp [hnone] at hi
  case heads => rw [hheads]; exact h.heads
  case rotatedOnce => rw [hrotations]; exact h.rotatedOnce
  case tombstones => rw [hrotations, random, refreshTokens]; exact h.tombstones
  case parents => rw [hparents]; exact h.parents
  case spent => rw [hparents, hrotations]; exact h.spent
  case ages =>
      intro f time he
      rw [history] at he
      rcases List.mem_append.mp he with he | he
      · obtain ⟨u, s, hl, hle⟩ := h.ages f time he
        exact ⟨u, s, history ▸ List.mem_append_left _ hl, hle⟩
      · obtain ⟨_, _, heq⟩ := presents _ he
        cases heq

/-- A login draws a family of its own. -/
theorem SessionWorld.Chained.login (h : w.Chained policy) (userId : Id) :
    (w.began (.login userId)).Chained policy := by
  have hrandom : (w.began (.login userId)).db.nextRandom = w.db.nextRandom + 1 := rfl
  have hhistory : (w.began (.login userId)).history = w.history := List.append_nil _
  have hinflight : (w.began (.login userId)).inflight =
      w.inflight ++ [.sweep ⟨userId, none, w.db.nextRandom, none⟩] := rfl
  have hnew : w.db.nextRandom ∉ w.heads := by
    intro hin
    rcases List.mem_append.mp hin with hin | hin
    · obtain ⟨r, hr, hf⟩ := List.mem_map.mp hin
      have hl := h.logins _ (h.rows r (Table.mem_select.mp hr).1)
      exact absurd (h.started _ _ _ hl) (by rw [← hf]; exact lt_irrefl _)
    · obtain ⟨u, hu, hf⟩ := List.mem_filterMap.mp hin
      obtain ⟨i, hi, hf⟩ := Option.map_eq_some_iff.mp hf
      have hground := h.issues u hu i hi
      unfold SessionWorld.Grounded at hground
      cases hr : i.rotation with
      | none =>
          rw [hr] at hground
          exact absurd hground.1 (by rw [hf]; exact lt_irrefl _)
      | some r =>
          rw [hr] at hground
          have hl := h.logins r.token.asIssued hground.2
          have hfamily : r.token.asIssued.familyId = w.db.nextRandom := by
            rw [← hf, hground.1]
            rfl
          exact absurd (h.started _ _ _ hl) (by rw [hfamily]; exact lt_irrefl _)
  have hparents : (w.began (.login userId)).parents = w.parents := by
    simp [SessionWorld.parents, hinflight, hhistory, SessionTask.parent?, SessionTask.issue?]
  constructor
  case ids => exact h.ids
  case drawn => exact fun r hr => ⟨(h.drawn r hr).1.trans (Nat.lt_succ_self _), (h.drawn r hr).2⟩
  case rows => exact h.rows
  case reads =>
      rw [hinflight]
      intro u hu x hx
      rcases List.mem_append.mp hu with hu | hu
      · exact h.reads u hu x hx
      · rw [List.mem_singleton.mp hu] at hx
        cases hx
  case logins => rw [hhistory]; exact h.logins
  case oneLogin => rw [hhistory]; exact h.oneLogin
  case started =>
      rw [hhistory, hrandom]
      exact fun f u s hl => (h.started f u s hl).trans (Nat.lt_succ_self _)
  case issues =>
      rw [hinflight]
      intro u hu i hi
      rcases List.mem_append.mp hu with hu | hu
      · exact (h.issues u hu i hi).mono (Nat.le_succ _) (fun u s _ hl => hhistory ▸ hl)
          (fun r hr => hr)
      · rw [List.mem_singleton.mp hu] at hi
        obtain rfl := Option.some.inj hi
        refine ⟨Nat.lt_succ_self _, fun u s hl => ?_⟩
        rw [hhistory] at hl
        exact lt_irrefl _ (h.started _ _ _ hl)
  case heads =>
      have hheads : (w.began (.login userId)).heads = w.heads ++ [w.db.nextRandom] := by
        simp [SessionWorld.heads, hinflight, SessionTask.head?, SessionTask.issue?]
        rfl
      rw [hheads, List.nodup_append]
      refine ⟨h.heads, by simp, fun a ha b hb hab => ?_⟩
      rw [List.mem_singleton.mp hb] at hab
      exact hnew (hab ▸ ha)
  case rotatedOnce => rw [hhistory]; exact h.rotatedOnce
  case tombstones =>
      rw [hhistory, hrandom]
      exact fun id hid => ⟨(h.tombstones id hid).1.trans (Nat.lt_succ_self _),
        (h.tombstones id hid).2⟩
  case parents => rw [hparents]; exact h.parents
  case spent => rw [hparents, hhistory]; exact h.spent
  case ages => rw [hhistory]; exact h.ages

/-- **Every step keeps the chains.** -/
theorem SessionWorld.Chained.step {a : SessionAction} (h : w.Chained policy)
    (hstep : w.step policy a = some w') : w'.Chained policy := by
  cases a with
  | clock now =>
      obtain rfl := Option.some.inj hstep
      exact h.frame [] [] rfl rfl rfl (List.append_nil _).symm
        (List.append_nil _).symm (by simp) (by simp)
  | accounts users vendors =>
      obtain rfl := Option.some.inj hstep
      exact h.frame [] [] rfl rfl rfl (List.append_nil _).symm
        (List.append_nil _).symm (by simp) (by simp)
  | begin request =>
      obtain rfl := Option.some.inj hstep
      rcases request.start_cases w.db w.calls with ⟨userId, rfl, -⟩ | ⟨hdb, hnext, hev⟩
      · exact h.login userId
      · refine h.frame _ _ (congrArg AuthDb.refreshTokens hdb) (congrArg AuthDb.issued hdb)
          (congrArg AuthDb.nextRandom hdb) rfl rfl (fun u hu => ?_) (fun e he => ?_)
        · exact ⟨(hnext u hu).1, (hnext u hu).2.1⟩
        · obtain ⟨tokenHash, -, rfl⟩ := hev e he
          exact ⟨_, _, rfl⟩
  | run index =>
      obtain ⟨t, ht, rfl⟩ := Option.map_eq_some_iff.mp hstep
      have heffect := t.run_effect policy w.now w.db
      generalize hrun : t.run policy w.now w.db = r at heffect
      cases heffect with
      | quiet hq => exact h.quiet ht (hrun ▸ hq)
      | consumed task stored =>
          subst task
          exact h.consumed ht stored hrun
      | created task row stored =>
          subst task
          exact h.created ht row stored hrun

/-! ## The law -/

/-- Every family is one chain with one lifetime. -/
structure SessionWorld.OneChain (policy : SessionPolicy) (w : SessionWorld) : Prop where
  /-- The tokens of a family, those deleted since included, have one owner and
  one start. -/
  owner : ∀ a ∈ w.db.issued, ∀ b ∈ w.db.issued, a.familyId = b.familyId →
    a.userId = b.userId ∧ a.sessionStartedAt = b.sessionStartedAt
  /-- The stored tokens are issued tokens, rotated or not. -/
  stored : ∀ r ∈ w.db.refreshTokens.rows, r.asIssued ∈ w.db.issued
  head : ∀ a ∈ w.db.refreshTokens.rows, ∀ b ∈ w.db.refreshTokens.rows,
    a.familyId = b.familyId → a.rotatedAt = none → b.rotatedAt = none → a = b
  rotatedOnce : (rotations w.history).Nodup
  oneSuccessor : (successions w.history).Nodup
  lifetime : ∀ f time, .passedAgeCheck f time ∈ w.history →
    ∃ firstLogin, (∃ u, .loggedIn f u firstLogin ∈ w.history) ∧
      (∀ u s, .loggedIn f u s ∈ w.history → s = firstLogin) ∧
      time ≤ firstLogin + policy.sessionMaxMs

/-- Chained families are each one chain. -/
theorem SessionWorld.Chained.oneChain (h : w.Chained policy) : w.OneChain policy where
  owner := fun a ha b hb hf => by
    have hl := h.logins a ha
    rw [hf] at hl
    exact h.oneLogin _ _ _ _ _ hl (h.logins b hb)
  stored := h.rows
  head := fun a ha b hb hf hra hrb => by
    have hnodup : (w.db.refreshTokens.select (fun t => t.rotatedAt = none)).map
        RefreshToken.familyId |>.Nodup := h.heads.sublist (List.sublist_append_left _ _)
    exact List.inj_on_of_nodup_map hnodup (Table.mem_select.mpr ⟨ha, by simpa using hra⟩)
      (Table.mem_select.mpr ⟨hb, by simpa using hrb⟩) hf
  rotatedOnce := h.rotatedOnce
  oneSuccessor := h.parents.sublist (List.sublist_append_left _ _)
  lifetime := fun f time he => by
    obtain ⟨u, s, hl, hle⟩ := h.ages f time he
    exact ⟨s, ⟨u, hl⟩, fun u' s' hl' => (h.oneLogin f u' s' u s hl' hl).2, by lia⟩

/-- **A session family is one chain with one lifetime**, however the statements
of logins, refreshes, revocations and clean-ups interleave. -/
theorem session_family_one_chain (policy : SessionPolicy) {w w' : SessionWorld}
    (initial : w.Initial)
    (run : Run (SessionWorld.step policy) (fun _ _ => True) w w') : w'.OneChain policy :=
  (run.invariant (SessionWorld.Chained policy) (fun _ _ _ h _ hstep => h.step hstep)
    initial.chained).oneChain

/-! ## Two tabs -/

/-- One customer, who has never logged in. -/
def signedOut : SessionWorld where
  now := 0
  db :=
    { users := ⟨[{ id := 0, email := "customer@example.com", emailVerified := true }], by decide⟩
      vendors := .empty
      refreshTokens := .empty }

theorem signedOut_initial : signedOut.Initial := ⟨rfl, rfl, rfl, rfl⟩

/-- The customer logs in and gets token 1, in family 0. -/
def loginRun : List SessionAction :=
  [.begin (.login 0), .run 0, .run 0, .run 0]

/-- Two tabs refresh with one token, statement by statement in turn. -/
def twoTabsRun : List SessionAction :=
  loginRun ++ [.clock 60000, .begin (.refreshTokens 1), .begin (.refreshTokens 1)] ++
    List.replicate 11 (.run 0)

/-- Two tabs renew the session with the same token. -/
theorem session_family_one_chain_tabs :
    ∃ w, Run (SessionWorld.step {}) (fun _ _ => True) signedOut w ∧
      rotations w.history = [1] ∧ successions w.history = [1] ∧ w.OneChain {} := by
  obtain ⟨w, run, h⟩ := @Run.of_execAll_test _ _ (SessionWorld.step {}) (fun _ _ => True) _
    twoTabsRun signedOut
    (fun w => rotations w.history = [1] ∧ successions w.history = [1])
    (by decide +kernel)
  obtain ⟨hrotations, hsuccessions⟩ := of_decide_eq_true h
  exact ⟨w, run, hrotations, hsuccessions,
    session_family_one_chain {} signedOut_initial run⟩

end Jadwal
