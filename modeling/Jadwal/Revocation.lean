import Jadwal.SessionFamilies

/-!
# When revoking a session is final

A family is **dead** when it has no stored token and no call is about to store
one.  A dead family stays dead, whatever runs: tokens of it cannot be
presented, and a rotation needs a token.  A revoking `deleteMany` kills the
families it ends, unless a refresh has consumed a token of one of them and has
not stored the next yet.  That refresh stores its token after the delete, and
the session lives on.
-/

namespace Jadwal

variable {policy : SessionPolicy} {now : Instant} {db : AuthDb}
variable {w w' : SessionWorld} {index : Nat} {t : SessionTask} {f : Id}

/-- No refresh call that presents a token of a family after a call that revoked
it has returned succeeds. -/
def SessionWorld.RevocationFinal (w : SessionWorld) : Prop :=
  ∀ r ∈ w.db.issued, ∀ call, [.revoked r.familyId, .presented call r.tokenHash].Sublist w.history →
    .refreshed call ∉ w.history

/-- A revoking delete runs while no call is between consuming a token of a
family it ends and storing the successor. -/
def SessionWorld.RevokesAlone (w : SessionWorld) : SessionAction → Prop
  | .run index =>
      match w.inflight[index]? with
      | some (.delete scope _ _) =>
          ∀ t ∈ w.inflight, ∀ f ∈ t.head?, f ∉ scope.ends w.db
      | _ => True
  | _ => True

instance (w : SessionWorld) (a : SessionAction) : Decidable (w.RevokesAlone a) := by
  unfold SessionWorld.RevokesAlone
  split
  · split <;> infer_instance
  · infer_instance

/-! ## What a task carries -/

def SessionTask.scope? : SessionTask → Option Scope
  | .denylist _ scope => some scope
  | .delete scope _ _ => some scope
  | _ => none

/-- The families a scope names are families of issued tokens, of its user where
it names one. -/
def Scope.Grounded (db : AuthDb) : Scope → Prop
  | .family familyId => ∃ r ∈ db.issued, r.familyId = familyId
  | .familyOf userId familyId => ∃ r ∈ db.issued, r.familyId = familyId ∧ r.userId = userId
  | .families userId familyIds =>
      ∀ f ∈ familyIds, ∃ r ∈ db.issued, r.familyId = f ∧ r.userId = userId
  | .user _ => True
  | .userExcept _ _ => True

/-- What was issued once stays issued. -/
theorem Scope.Grounded.mono {db' : AuthDb} {scope : Scope} (h : scope.Grounded db)
    (issued : ∀ r ∈ db.issued, r ∈ db'.issued) : scope.Grounded db' := by
  cases scope with
  | family f =>
      obtain ⟨r, hr, hf⟩ := h
      exact ⟨r, issued r hr, hf⟩
  | familyOf u f =>
      obtain ⟨r, hr, hf⟩ := h
      exact ⟨r, issued r hr, hf⟩
  | families u fs =>
      intro f hf
      obtain ⟨r, hr, hfr⟩ := h f hf
      exact ⟨r, issued r hr, hfr⟩
  | user u => trivial
  | userExcept u tokenHash => trivial

/-- A task a statement leads to: it looks up no token of its own, it deletes what
its task did or what it has just read, and it has ended what the delete ends. -/
structure Follows (db : AuthDb) (t u : SessionTask) : Prop where
  lookup : ∀ call tokenHash, u ≠ .lookup call tokenHash
  scope : ∀ s ∈ u.scope?, s ∈ t.scope? ∨ s.Grounded db
  ended : ∀ f ∈ u.ended, f ∈ t.ended ∨
    ∃ s closes families, t = .delete s closes families ∧ f ∈ s.ends db

/-- A task that looks nothing up and ends no family follows where its scope is known. -/
theorem Follows.plain {u : SessionTask} (lookup : ∀ call tokenHash, u ≠ .lookup call tokenHash)
    (scope : ∀ s ∈ u.scope?, s ∈ t.scope? ∨ s.Grounded db) (ended : u.ended = []) :
    Follows db t u :=
  ⟨lookup, scope, by simp [ended]⟩

/-- A task with neither lookup, scope nor ended families. -/
def SessionTask.Bare (u : SessionTask) : Prop :=
  (∀ call tokenHash, u ≠ .lookup call tokenHash) ∧ u.scope? = none ∧ u.ended = []

theorem SessionTask.Bare.follows {u : SessionTask} (h : u.Bare) : Follows db t u :=
  .plain h.1 (by simp [h.2.1]) h.2.2

/-- So does the denylist of a scope that is known. -/
theorem follows_denylist {familyIds : List Id} {scope : Scope} (h : scope.Grounded db) :
    Follows db t (.denylist familyIds scope) :=
  .plain (by simp) (by simpa [SessionTask.scope?] using Or.inr h) rfl

/-- So does the delete of one. -/
theorem follows_delete {scope : Scope} {closes : Bool} {families : List Id}
    (h : scope ∈ t.scope? ∨ scope.Grounded db) :
    Follows db t (.delete scope closes families) :=
  .plain (by simp) (by simpa [SessionTask.scope?] using h) rfl

/-- Live families of a user are families of tokens issued to that user. -/
theorem liveFamilies_grounded (rows : ∀ r ∈ db.refreshTokens.rows, r.asIssued ∈ db.issued)
    (userId : Id) (keep : Option Id) :
    (Scope.families userId (db.liveFamilies userId keep)).Grounded db := by
  intro f hf
  obtain ⟨r, hr, rfl⟩ := List.mem_map.mp (List.mem_dedup.mp hf)
  obtain ⟨hmem, hp⟩ := Table.mem_select.mp hr
  simp only [decide_eq_true_eq] at hp
  exact ⟨r.asIssued, rows r hmem, rfl, hp.1⟩

/-- The check of a token brings in the family of that token alone. -/
theorem checkStep_follows {call : Nat} {token : RefreshToken}
    (issued : token.asIssued ∈ db.issued) {u : SessionTask}
    (hu : u ∈ (checkStep policy now db call token).next) :
    Follows db (.check call token) u := by
  have hgrounded : (Scope.family token.familyId).Grounded db := ⟨token.asIssued, issued, rfl⟩
  rw [checkStep] at hu
  cases hp : token.presented policy now with
  | live =>
      simp only [hp, List.mem_singleton] at hu
      subst hu
      exact SessionTask.Bare.follows ⟨by simp, rfl, rfl⟩
  | reused =>
      simp only [hp, List.mem_singleton] at hu
      subst hu
      exact follows_denylist hgrounded
  | spent => simp [hp] at hu
  | expired =>
      simp only [hp, List.mem_singleton] at hu
      subst hu
      exact SessionTask.Bare.follows ⟨by simp, rfl, rfl⟩
  | aged =>
      simp only [hp, List.mem_singleton] at hu
      subst hu
      exact follows_denylist hgrounded

/-- The read of the user brings in no scope. -/
theorem readUserStep_follows {r : Rotation} {u : SessionTask}
    (hu : u ∈ (readUserStep db r).next) : Follows db (.readUser r) u := by
  rw [readUserStep] at hu
  split at hu
  · simp only [List.mem_singleton] at hu
    subst hu
    exact follows_denylist trivial
  · split at hu
    · simp only [List.mem_singleton] at hu
      subst hu
      exact SessionTask.Bare.follows ⟨by simp, rfl, rfl⟩
    · simp only [List.mem_cons, List.not_mem_nil, or_false] at hu
      rcases hu with rfl | rfl <;> exact SessionTask.Bare.follows ⟨by simp, rfl, rfl⟩

/-- The end of the other families brings in families that were issued. -/
theorem otherFamiliesStep_follows (rows : ∀ r ∈ db.refreshTokens.rows, r.asIssued ∈ db.issued)
    {userId : Id} {tokenHash : Option TokenHash} {current : Option Id} {next : Others}
    {u : SessionTask} (hu : u ∈ otherFamiliesStep db userId tokenHash current next) :
    Follows db (.otherFamilies userId tokenHash current next) u := by
  cases next with
  | changePassword =>
      simp only [otherFamiliesStep, List.mem_singleton] at hu
      subst hu
      refine follows_delete (Or.inr ?_)
      cases tokenHash with
      | none => trivial
      | some tokenHash => trivial
  | revoke =>
      simp only [otherFamiliesStep] at hu
      split at hu
      · simp at hu
      · simp only [List.mem_singleton] at hu
        subst hu
        exact follows_denylist (liveFamilies_grounded rows userId current)

/-- **The tasks a statement leads to.** -/
theorem SessionTask.run_follows (policy : SessionPolicy) (now : Instant) (db : AuthDb)
    (t : SessionTask) (rows : ∀ r ∈ db.refreshTokens.rows, r.asIssued ∈ db.issued)
    (reads : ∀ x ∈ t.read?, x.2.asIssued ∈ db.issued) {u : SessionTask}
    (hu : u ∈ (t.run policy now db).next) : Follows db t u := by
  cases t with
  | check call token => exact checkStep_follows (reads (call, token) rfl) hu
  | readUser r => exact readUserStep_follows hu
  | otherFamilies userId tokenHash current next => exact otherFamiliesStep_follows rows hu
  | lookup call tokenHash =>
      simp only [SessionTask.run] at hu
      split at hu
      · simp at hu
      · simp only [List.mem_singleton] at hu
        subst hu
        exact SessionTask.Bare.follows ⟨by simp, rfl, rfl⟩
  | consume call token =>
      simp only [SessionTask.run] at hu
      split at hu
      · simp at hu
      · simp only [List.mem_singleton] at hu
        subst hu
        exact SessionTask.Bare.follows ⟨by simp, rfl, rfl⟩
  | readVendor r =>
      simp only [SessionTask.run] at hu
      split at hu
      · simp only [List.mem_singleton] at hu
        subst hu
        exact SessionTask.Bare.follows ⟨by simp, rfl, rfl⟩
      · simp only [List.mem_cons, List.not_mem_nil, or_false] at hu
        rcases hu with rfl | rfl <;> exact SessionTask.Bare.follows ⟨by simp, rfl, rfl⟩
  | readActive i =>
      simp only [SessionTask.run] at hu
      split at hu <;> simp only [List.mem_singleton] at hu <;> subst hu <;>
        exact SessionTask.Bare.follows ⟨by simp, rfl, rfl⟩
  | create i =>
      simp only [SessionTask.run, createStep] at hu
      split at hu
      · simp at hu
      · split at hu <;> simp at hu
  | denylist familyIds scope =>
      cases familyIds with
      | nil =>
          simp only [SessionTask.run, List.mem_singleton] at hu
          subst hu
          exact follows_delete (Or.inl rfl)
      | cons f fs =>
          simp only [SessionTask.run, List.mem_singleton] at hu
          subst hu
          exact .plain (by simp) (fun s hs => Or.inl hs) rfl
  | delete scope closes families =>
      have hnext : (deleteStep now db scope closes families).next =
          [.denylistAfter families (scope.ends db)] := rfl
      simp only [SessionTask.run, hnext, List.mem_singleton] at hu
      subst hu
      exact ⟨by simp, by simp [SessionTask.scope?], fun f hf =>
        Or.inr ⟨scope, closes, families, rfl, hf⟩⟩
  | denylistAfter familyIds ended =>
      cases familyIds with
      | nil => simp [SessionTask.run] at hu
      | cons f fs =>
          simp only [SessionTask.run, List.mem_singleton] at hu
          subst hu
          exact ⟨by simp, by simp [SessionTask.scope?], fun f hf => Or.inl hf⟩
  | logoutLookup tokenHash =>
      simp only [SessionTask.run] at hu
      split at hu
      · simp at hu
      · rename_i token h
        simp only [List.mem_singleton] at hu
        subst hu
        exact follows_denylist
          ⟨token.asIssued, rows token (AuthDb.findToken_eq_some h).1, rfl⟩
  | sessionLookup userId sessionId =>
      simp only [SessionTask.run] at hu
      split at hu
      · simp at hu
      · rename_i session h
        split at hu
        · rename_i howner
          simp only [List.mem_singleton] at hu
          subst hu
          exact follows_denylist
            ⟨session.asIssued, rows session (Table.find?_eq_some.mp h).1, rfl, howner⟩
        · simp at hu
  | snapshot userId closes =>
      simp only [SessionTask.run, List.mem_singleton] at hu
      subst hu
      exact follows_delete (Or.inr trivial)
  | denylistUser userId =>
      simp only [SessionTask.run, List.mem_singleton] at hu
      subst hu
      exact follows_denylist trivial
  | deleteExpired id => simp [SessionTask.run] at hu
  | cleanup => simp [SessionTask.run] at hu
  | sweep i =>
      simp only [SessionTask.run, List.mem_singleton] at hu
      subst hu
      exact SessionTask.Bare.follows ⟨by simp, rfl, rfl⟩
  | evict i ids =>
      simp only [SessionTask.run, List.mem_singleton] at hu
      subst hu
      exact SessionTask.Bare.follows ⟨by simp, rfl, rfl⟩
  | currentFamily userId tokenHash next =>
      simp only [SessionTask.run, List.mem_singleton] at hu
      subst hu
      exact SessionTask.Bare.follows ⟨by simp, rfl, rfl⟩

/-! ## Dead families -/

/-- No token of the family is stored, and no call is about to store one. -/
structure SessionWorld.Dead (w : SessionWorld) (f : Id) : Prop where
  issued : ∃ r ∈ w.db.issued, r.familyId = f
  rows : ∀ r ∈ w.db.refreshTokens.rows, r.familyId ≠ f
  heads : ∀ t ∈ w.inflight, ∀ i ∈ t.issue?, i.familyId ≠ f

/-- **A dead family stays dead.** -/
theorem SessionWorld.Dead.ran (hd : w.Dead f) (h : w.Chained policy)
    (ht : w.inflight[index]? = some t) : (w.ran policy index t).Dead f := by
  have hmem : t ∈ w.inflight := List.mem_of_getElem? ht
  have heffect := t.run_effect policy w.now w.db
  generalize hrun : t.run policy w.now w.db = r at heffect
  have hdb : (w.ran policy index t).db = r.db := congrArg Stepped.db hrun
  have htasks : ∀ u ∈ (w.ran policy index t).inflight, u ∈ w.inflight ∨ u ∈ r.next :=
    fun u hu => hrun ▸ mem_ran hu
  cases heffect with
  | quiet hq =>
      refine ⟨?_, fun x hx => ?_, fun u hu i hi => ?_⟩
      · rw [hdb, hq.issued]
        exact hd.issued
      · exact hd.rows x (hq.rows.subset (hdb ▸ hx))
      · rcases htasks u hu with hu | hu
        · exact hd.heads u hu i hi
        · exact hd.heads t hmem i (hq.issue hu hi)
  | @consumed call token db' task stored =>
      subst task
      obtain ⟨⟨r, hr, hid, -⟩, hdb'⟩ := AuthDb.consume_eq_some stored
      have htoken := h.reads _ hmem (call, token) rfl
      refine ⟨?_, fun x hx => ?_, fun u hu i hi => ?_⟩
      · rw [hdb, hdb']
        exact hd.issued
      · rw [hdb] at hx
        obtain ⟨r₀, hr₀, -, -, hfamily, -⟩ := AuthDb.consume_rows stored hx
        rw [hfamily]
        exact hd.rows r₀ hr₀
      · rcases htasks u hu with hu | hu
        · exact hd.heads u hu i hi
        · -- the consumed token was still stored, so its family was not dead
          rw [List.mem_singleton.mp hu] at hi
          obtain rfl := Option.some.inj hi
          have hfamily : r.familyId = token.familyId := h.same_family (h.rows r hr) htoken hid
          have hne := hd.rows r hr
          rw [hfamily] at hne
          exact hne
  | @created i token db' task row stored =>
      subst task
      obtain ⟨hrows, hissued, -⟩ := AuthDb.createToken_eq_some stored
      refine ⟨?_, fun x hx => ?_, fun u hu i' hi' => ?_⟩
      · rw [hdb, hissued]
        obtain ⟨x, hx, hf⟩ := hd.issued
        exact ⟨x, List.mem_append_left _ hx, hf⟩
      · rw [hdb, hrows] at hx
        rcases List.mem_append.mp hx with hx | hx
        · exact hd.rows x hx
        · have hne := hd.heads _ hmem i rfl
          rw [List.mem_singleton.mp hx, row]
          exact hne
      · rcases htasks u hu with hu | hu
        · exact hd.heads u hu i' hi'
        · simp at hu

/-- A login draws a family of its own, so it does not bring a dead one back. -/
theorem SessionWorld.Dead.began (hd : w.Dead f) (h : w.Chained policy)
    (request : SessionRequest) : (w.began request).Dead f := by
  rcases request.start_cases w.db w.calls with ⟨userId, rfl, -⟩ | ⟨hdb, hnext, -⟩
  · refine ⟨hd.issued, hd.rows, fun u hu i hi => ?_⟩
    rcases List.mem_append.mp hu with hu | hu
    · exact hd.heads u hu i hi
    · rw [List.mem_singleton.mp hu] at hi
      obtain rfl := Option.some.inj hi
      obtain ⟨r, hr, rfl⟩ := hd.issued
      exact (h.started _ _ _ (h.logins r hr)).ne'
  · refine ⟨?_, ?_, fun u hu i hi => ?_⟩
    · change ∃ r ∈ (request.start w.db w.calls).db.issued, _
      rw [hdb]
      exact hd.issued
    · change ∀ r ∈ (request.start w.db w.calls).db.refreshTokens.rows, _
      rw [hdb]
      exact hd.rows
    · rcases List.mem_append.mp hu with hu | hu
      · exact hd.heads u hu i hi
      · simp [(hnext u hu).1] at hi

/-- The ended families have tokens. -/
theorem Scope.Grounded.issued {scope : Scope} (h : scope.Grounded db)
    (hf : f ∈ scope.ends db) : ∃ r ∈ db.issued, r.familyId = f := by
  cases scope with
  | family familyId => exact (List.mem_singleton.mp hf) ▸ h
  | familyOf userId familyId =>
      obtain ⟨r, hr, hfamily, -⟩ := h
      exact ⟨r, hr, hfamily.trans (List.mem_singleton.mp hf).symm⟩
  | families userId familyIds =>
      obtain ⟨r, hr, hfamily, -⟩ := h f hf
      exact ⟨r, hr, hfamily⟩
  | user userId =>
      obtain ⟨r, hr, rfl⟩ := List.mem_map.mp hf
      exact ⟨r, (List.mem_filter.mp hr).1, rfl⟩
  | userExcept userId tokenHash =>
      obtain ⟨r, hr, rfl⟩ := List.mem_map.mp hf
      exact ⟨r, (List.mem_filter.mp hr).1, rfl⟩

/-- Tokens of one family have one owner. -/
theorem SessionWorld.Chained.owner (h : w.Chained policy) {a b : RefreshToken}
    (ha : a.asIssued ∈ w.db.issued) (hb : b ∈ w.db.issued) (hf : a.familyId = b.familyId) :
    a.userId = b.userId :=
  (h.oneChain.owner a.asIssued ha b hb hf).1

/-- **The delete takes every token of the families it ends.** -/
theorem SessionWorld.Chained.covers (h : w.Chained policy) {scope : Scope}
    (hg : scope.Grounded w.db) (hf : f ∈ scope.ends w.db) {r : RefreshToken}
    (hr : r ∈ w.db.refreshTokens.rows) (hfamily : r.familyId = f) : scope.covers r = true := by
  have hissued : r.asIssued ∈ w.db.issued := h.rows r hr
  cases scope with
  | family familyId =>
      simpa [Scope.covers, hfamily] using List.mem_singleton.mp hf
  | familyOf userId familyId =>
      obtain ⟨x, hx, hxf, hxu⟩ := hg
      have hfid : f = familyId := List.mem_singleton.mp hf
      have howner : r.userId = x.userId :=
        h.owner hissued hx (hfamily.trans (hfid.trans hxf.symm))
      simp [Scope.covers, hfamily, hfid, howner, hxu]
  | families userId familyIds =>
      obtain ⟨x, hx, hxf, hxu⟩ := hg f hf
      have howner : r.userId = x.userId := h.owner hissued hx (hfamily.trans hxf.symm)
      have hmem : f ∈ familyIds := hf
      simp [Scope.covers, hfamily, howner, hxu, hmem]
  | user userId =>
      obtain ⟨x, hx, hxf⟩ := List.mem_map.mp hf
      obtain ⟨hx, hxu⟩ := List.mem_filter.mp hx
      simp only [decide_eq_true_eq] at hxu
      have howner : r.userId = x.userId := h.owner hissued hx (hfamily.trans hxf.symm)
      simp [Scope.covers, howner, hxu]
  | userExcept userId tokenHash =>
      obtain ⟨x, hx, hxf⟩ := List.mem_map.mp hf
      obtain ⟨hx, hxu⟩ := List.mem_filter.mp hx
      simp only [decide_eq_true_eq] at hxu
      have howner : r.userId = x.userId := h.owner hissued hx (hfamily.trans hxf.symm)
      -- the token that is spared is of another family
      have hspared : r.tokenHash ≠ tokenHash := by
        intro hhash
        cases hfind : w.db.findToken tokenHash with
        | none =>
            have hnone := Table.first?_eq_none.mp hfind r hr
            simp [hhash] at hnone
        | some y =>
            obtain ⟨hy, hyhash⟩ := AuthDb.findToken_eq_some hfind
            have hid : y.id = r.id := by
              have hyid := (h.drawn _ (h.rows y hy)).2.1
              have hrid := (h.drawn _ hissued).2.1
              exact hyid.symm.trans (hyhash.trans (hhash.symm.trans hrid))
            have hsame := h.same_family (h.rows y hy) hissued hid
            refine hxu.2 ?_
            rw [hfind, Option.map_some, hsame, hfamily, hxf]
      simp [Scope.covers, howner, hxu.1, hspared]

/-- **A delete that no rotation races kills the families it ends.** -/
theorem SessionWorld.Chained.kills (h : w.Chained policy) {scope : Scope} {closes : Bool}
    {families : List Id} (ht : w.inflight[index]? = some (.delete scope closes families))
    (hg : scope.Grounded w.db) (hunraced : w.RevokesAlone (.run index))
    (hf : f ∈ scope.ends w.db) :
    (w.ran policy index (.delete scope closes families)).Dead f := by
  have hdb : (w.ran policy index (.delete scope closes families)).db =
      (deleteStep w.now w.db scope closes families).db := rfl
  have hrows : (deleteStep w.now w.db scope closes families).db.refreshTokens =
      w.db.refreshTokens.deleteMany scope.covers := by
    cases closes with
    | false => rfl
    | true => cases hu : scope.userId? <;> simp [deleteStep, hu] <;> rfl
  have hissued : (deleteStep w.now w.db scope closes families).db.issued = w.db.issued :=
    (@deleteStep_quiet policy w.now w.db scope closes families).issued
  refine ⟨?_, fun r hr hfamily => ?_, fun u hu i hi hfamily => ?_⟩
  · rw [hdb, hissued]
    exact hg.issued hf
  · rw [hdb, hrows] at hr
    obtain ⟨hr, hspared⟩ := Table.mem_deleteMany.mp hr
    rw [h.covers hg hf hr hfamily] at hspared
    cases hspared
  · rcases List.mem_append.mp hu with hu | hu
    · simp only [SessionWorld.RevokesAlone, ht] at hunraced
      refine hunraced u (List.mem_of_mem_eraseIdx hu) i.familyId ?_ (hfamily ▸ hf)
      rw [SessionTask.head?, hi]
      rfl
    · simp only [SessionTask.run, deleteStep, List.mem_singleton] at hu
      subst hu
      cases hi

/-! ## Calls and the tokens they presented -/

/-- The refresh call of a task, with the token it found. -/
def SessionTask.call? (t : SessionTask) : Option (Nat × RefreshToken) :=
  t.read?.or (t.issue?.bind (fun i => i.rotation.map (fun r => (r.call, r.token))))

/-- The call presented the token, and before its family was revoked. -/
structure SessionWorld.InTime (w : SessionWorld) (call : Nat) (r : RefreshToken) : Prop where
  issued : r.asIssued ∈ w.db.issued
  presented : .presented call r.tokenHash ∈ w.history
  early : ¬ [.revoked r.familyId, .presented call r.tokenHash].Sublist w.history

structure SessionWorld.Final (policy : SessionPolicy) (w : SessionWorld) : Prop where
  chained : w.Chained policy
  scopes : ∀ t ∈ w.inflight, ∀ s ∈ t.scope?, s.Grounded w.db
  revoked : ∀ f, .revoked f ∈ w.history → w.Dead f
  ended : ∀ t ∈ w.inflight, ∀ f ∈ t.ended, w.Dead f
  calls : ∀ call tokenHash, .presented call tokenHash ∈ w.history → call < w.calls
  onePresented : ∀ call tokenHash tokenHash', .presented call tokenHash ∈ w.history →
    .presented call tokenHash' ∈ w.history → tokenHash = tokenHash'
  lookups : ∀ call tokenHash, .lookup call tokenHash ∈ w.inflight →
    .presented call tokenHash ∈ w.history
  carried : ∀ t ∈ w.inflight, ∀ x ∈ t.call?, w.InTime x.1 x.2
  refreshed : ∀ call, .refreshed call ∈ w.history → ∃ r, w.InTime call r

/-- An event that comes second and is not among the new ones was there. -/
theorem sublist_pair_of_append {α : Type} {a b : α} {l new : List α}
    (h : [a, b].Sublist (l ++ new)) (hb : b ∉ new) : [a, b].Sublist l := by
  obtain ⟨l₁, l₂, heq, h₁, h₂⟩ := List.sublist_append_iff.mp h
  cases l₂ with
  | nil =>
      rw [List.append_nil] at heq
      exact heq ▸ h₁
  | cons x l₂ =>
      have hlast : b ∈ x :: l₂ := by
        have hb' := congrArg List.getLast? heq
        rw [List.getLast?_append_cons] at hb'
        have hsome : (x :: l₂).getLast? = some b := hb'.symm
        exact List.mem_of_getLast? hsome
      exact absurd (h₂.subset hlast) hb

/-- A call in time stays so, unless it presents its token again. -/
theorem SessionWorld.InTime.grow {call : Nat} {r : RefreshToken} (h : w.InTime call r)
    (issued : ∀ x ∈ w.db.issued, x ∈ w'.db.issued) (new : List SessionEvent)
    (history : w'.history = w.history ++ new)
    (fresh : ∀ tokenHash, .presented call tokenHash ∉ new) : w'.InTime call r where
  issued := issued _ h.issued
  presented := history ▸ List.mem_append_left _ h.presented
  early := fun hsub => by
    rw [history] at hsub
    exact h.early (sublist_pair_of_append hsub (fresh _))

/-- At the start nothing has been revoked. -/
theorem SessionWorld.Initial.final (h : w.Initial) : w.Final policy := by
  constructor
  case chained => exact h.chained
  all_goals simp [h.inflight, h.history]

/-- The invariant says what is asked of it. -/
theorem SessionWorld.Final.final (h : w.Final policy) : w.RevocationFinal := by
  intro r hr call hsub hrefreshed
  obtain ⟨x, hx⟩ := h.refreshed call hrefreshed
  have hpresented : .presented call r.tokenHash ∈ w.history := hsub.subset (by simp)
  have hhash := h.onePresented call _ _ hx.presented hpresented
  have hid : x.id = r.id :=
    (h.chained.drawn _ hx.issued).2.1.symm.trans (hhash.trans (h.chained.drawn r hr).2.1)
  have hrissued : r.asIssued ∈ w.db.issued := by
    have hrot := (h.chained.drawn r hr).2.2
    have heq : r.asIssued = r := by
      cases r
      simp only [RefreshToken.asIssued] at hrot ⊢
      rw [hrot]
    rw [heq]
    exact hr
  have hfamily := h.chained.same_family hx.issued hrissued hid
  exact hx.early (hfamily ▸ hhash ▸ hsub)

/-- The events of a statement concern what its task carries. -/
theorem SessionTask.run_events (policy : SessionPolicy) (now : Instant) (db : AuthDb)
    (t : SessionTask) {e : SessionEvent} (he : e ∈ (t.run policy now db).events) :
    (∀ call tokenHash, e ≠ .presented call tokenHash) ∧ (∀ f, e = .revoked f → f ∈ t.ended) ∧
      ∀ call, e = .refreshed call → ∃ x ∈ t.call?, x.1 = call := by
  have heffect := t.run_effect policy now db
  generalize hrun : t.run policy now db = r at heffect he
  cases heffect with
  | quiet hq =>
      rcases hq.events e he with ⟨_, _, _, _, rfl⟩ | ⟨f, hf, rfl⟩
      · simp
      · refine ⟨by simp, fun f' heq => ?_, by simp⟩
        obtain rfl := SessionEvent.revoked.inj heq
        exact hf
  | consumed task stored =>
      obtain rfl := List.mem_singleton.mp he
      simp
  | created task row stored =>
      subst task
      rcases Issue.mem_events he with ⟨-, rfl⟩ | ⟨r, hr, rfl | rfl⟩
      · simp
      · simp
      · refine ⟨by simp, by simp, fun call heq => ⟨(r.call, r.token), ?_, ?_⟩⟩
        · simp [SessionTask.call?, SessionTask.read?, SessionTask.issue?, hr]
        · exact SessionEvent.refreshed.inj heq

/-- A run forgets no token that was issued. -/
theorem SessionTask.run_issued (policy : SessionPolicy) (now : Instant) (db : AuthDb)
    (t : SessionTask) : ∀ x ∈ db.issued, x ∈ (t.run policy now db).db.issued := by
  intro x hx
  have heffect := t.run_effect policy now db
  generalize t.run policy now db = r at heffect
  cases heffect with
  | quiet hq => exact hq.issued ▸ hx
  | consumed task stored =>
      obtain ⟨-, rfl⟩ := AuthDb.consume_eq_some stored
      exact hx
  | created task row stored =>
      change x ∈ AuthDb.issued _
      rw [(AuthDb.createToken_eq_some stored).2.1]
      exact List.mem_append_left _ hx

/-- A task goes on with the call and the token of the one before it, or with the
token a lookup found. -/
theorem SessionTask.run_call (policy : SessionPolicy) (now : Instant) (db : AuthDb)
    (t : SessionTask) {u : SessionTask} (hu : u ∈ (t.run policy now db).next)
    {x : Nat × RefreshToken} (hx : x ∈ u.call?) :
    x ∈ t.call? ∨ t = .lookup x.1 x.2.tokenHash ∧ x.2 ∈ db.refreshTokens.rows := by
  have heffect := t.run_effect policy now db
  generalize t.run policy now db = r at heffect hu
  have hsplit : x ∈ u.read? ∨
      ∃ i ∈ u.issue?, i.rotation.map (fun r => (r.call, r.token)) = some x := by
    unfold SessionTask.call? at hx
    cases hr : u.read? with
    | none =>
        rw [hr, Option.none_or] at hx
        exact Or.inr (Option.bind_eq_some_iff.mp hx)
    | some y =>
        rw [hr, Option.some_or] at hx
        exact Or.inl hx
  cases heffect with
  | quiet hq =>
      rcases hsplit with hread | ⟨i, hi, hrot⟩
      · rcases hq.reads u hu x hread with hread | hlookup
        · refine Or.inl ?_
          unfold SessionTask.call?
          rw [hread]
          rfl
        · exact Or.inr hlookup
      · have hit := hq.issue hu hi
        refine Or.inl ?_
        have hnone : t.read? = none := by
          cases t <;> first | rfl | cases hit
        unfold SessionTask.call?
        rw [hnone, Option.none_or, hit]
        exact hrot
  | consumed task stored =>
      subst task
      rw [List.mem_singleton.mp hu] at hx
      exact Or.inl hx
  | created task row stored => simp at hu

/-- **A statement keeps revocations final.** -/
theorem SessionWorld.Final.ran (h : w.Final policy) (ht : w.inflight[index]? = some t)
    (hunraced : w.RevokesAlone (.run index)) : (w.ran policy index t).Final policy := by
  have hmem : t ∈ w.inflight := List.mem_of_getElem? ht
  have hstep : w.step policy (.run index) = some (w.ran policy index t) := by
    simp [SessionWorld.step, ht]
  have hfollows : ∀ u ∈ (t.run policy w.now w.db).next, Follows w.db t u := fun u hu =>
    t.run_follows policy w.now w.db h.chained.rows (h.chained.reads t hmem) hu
  have hissued : ∀ x ∈ w.db.issued, x ∈ (w.ran policy index t).db.issued :=
    t.run_issued policy w.now w.db
  have hdead : ∀ f, w.Dead f → (w.ran policy index t).Dead f :=
    fun f hd => hd.ran h.chained ht
  have hpresented : ∀ call tokenHash, .presented call tokenHash ∈ (w.ran policy index t).history →
      .presented call tokenHash ∈ w.history := by
    intro call tokenHash hp
    rcases List.mem_append.mp hp with hp | hp
    · exact hp
    · exact absurd rfl ((t.run_events policy w.now w.db hp).1 call tokenHash)
  have hgrow : ∀ call r, w.InTime call r → (w.ran policy index t).InTime call r :=
    fun call r hr => hr.grow hissued _ rfl
      (fun tokenHash hin => (t.run_events policy w.now w.db hin).1 call tokenHash rfl)
  constructor
  case chained => exact h.chained.step hstep
  case scopes =>
      intro u hu s hs
      rcases mem_ran hu with hu | hu
      · exact (h.scopes u hu s hs).mono hissued
      · rcases (hfollows u hu).scope s hs with hs | hs
        · exact (h.scopes t hmem s hs).mono hissued
        · exact hs.mono hissued
  case revoked =>
      intro f hf
      rcases List.mem_append.mp hf with hf | hf
      · exact hdead f (h.revoked f hf)
      · exact hdead f (h.ended t hmem f ((t.run_events policy w.now w.db hf).2.1 f rfl))
  case ended =>
      intro u hu f hf
      rcases mem_ran hu with hu | hu
      · exact hdead f (h.ended u hu f hf)
      · rcases (hfollows u hu).ended f hf with hf | ⟨s, closes, families, rfl, hf⟩
        · exact hdead f (h.ended t hmem f hf)
        · exact h.chained.kills ht (h.scopes _ hmem s rfl) hunraced hf
  case calls => exact fun call tokenHash hp => h.calls call tokenHash (hpresented _ _ hp)
  case onePresented =>
      exact fun call a b ha hb => h.onePresented call a b (hpresented _ _ ha) (hpresented _ _ hb)
  case lookups =>
      intro call tokenHash hin
      rcases mem_ran hin with hin | hin
      · exact List.mem_append_left _ (h.lookups call tokenHash hin)
      · exact absurd rfl ((hfollows _ hin).lookup call tokenHash)
  case carried =>
      intro u hu x hx
      rcases mem_ran hu with hu | hu
      · exact hgrow _ _ (h.carried u hu x hx)
      · rcases t.run_call policy w.now w.db hu hx with hx | ⟨rfl, hrow⟩
        · exact hgrow _ _ (h.carried t hmem x hx)
        · -- a revoked family has no token to find
          refine hgrow _ _ ⟨h.chained.rows _ hrow, h.lookups _ _ hmem, fun hsub => ?_⟩
          have hrevoked : .revoked x.2.familyId ∈ w.history := hsub.subset (by simp)
          exact (h.revoked _ hrevoked).rows _ hrow rfl
  case refreshed =>
      intro call hc
      rcases List.mem_append.mp hc with hc | hc
      · obtain ⟨r, hr⟩ := h.refreshed call hc
        exact ⟨r, hgrow _ _ hr⟩
      · obtain ⟨x, hx, rfl⟩ := (t.run_events policy w.now w.db hc).2.2 call rfl
        exact ⟨x.2, hgrow _ _ (h.carried t hmem x hx)⟩

/-- What a request puts in flight: a lookup of the token it presents, or a task
that carries nothing yet. -/
theorem SessionRequest.start_tasks (request : SessionRequest) (db : AuthDb) (calls : Nat)
    {u : SessionTask} (hu : u ∈ (request.start db calls).next) :
    u.scope? = none ∧ u.ended = [] ∧ u.call? = none ∧
      ∀ call tokenHash, u = .lookup call tokenHash →
        .presented call tokenHash ∈ (request.start db calls).events := by
  cases request with
  | revokeSession userId role sessionId =>
      by_cases hrole : role = .customer <;> simp [start, hrole] at hu
      subst hu
      exact ⟨rfl, rfl, rfl, by simp⟩
  | revokeAllOtherSessions userId role tokenHash =>
      by_cases hrole : role = .customer <;> simp [start, hrole] at hu
      subst hu
      exact ⟨rfl, rfl, rfl, by simp⟩
  | refreshTokens tokenHash =>
      simp only [start, List.mem_singleton] at hu
      subst hu
      refine ⟨rfl, rfl, rfl, fun call hash heq => ?_⟩
      obtain ⟨rfl, rfl⟩ := SessionTask.lookup.inj heq
      exact List.mem_singleton_self _
  | _ =>
      simp only [start, AuthDb.randomUUID, List.mem_singleton] at hu
      subst hu
      exact ⟨rfl, rfl, rfl, by simp⟩

/-- A call that starts presents at most its token. -/
theorem SessionRequest.start_events (request : SessionRequest) (db : AuthDb) (calls : Nat)
    {e : SessionEvent} (he : e ∈ (request.start db calls).events) :
    ∃ tokenHash, (request.start db calls).events = [.presented calls tokenHash] ∧
      e = .presented calls tokenHash := by
  cases request with
  | refreshTokens tokenHash => exact ⟨tokenHash, rfl, List.mem_singleton.mp he⟩
  | _ => simp [start] at he

/-- A call that starts issues nothing. -/
theorem SessionRequest.start_issued (request : SessionRequest) (db : AuthDb) (calls : Nat) :
    (request.start db calls).db.issued = db.issued := by
  cases request <;> rfl

/-- A call that starts keeps revocations final. -/
theorem SessionWorld.Final.began (h : w.Final policy) (request : SessionRequest) :
    (w.began request).Final policy := by
  have hissued : ∀ x ∈ w.db.issued, x ∈ (w.began request).db.issued := by
    intro x hx
    change x ∈ (request.start w.db w.calls).db.issued
    rw [request.start_issued]
    exact hx
  have hdead : ∀ f, w.Dead f → (w.began request).Dead f :=
    fun f hd => hd.began h.chained request
  have htask : ∀ u ∈ (w.began request).inflight,
      u ∈ w.inflight ∨ u ∈ (request.start w.db w.calls).next :=
    fun u hu => List.mem_append.mp hu
  have hevent : ∀ e ∈ (w.began request).history,
      e ∈ w.history ∨ e ∈ (request.start w.db w.calls).events :=
    fun e he => List.mem_append.mp he
  -- a call of the history is not the one that begins
  have hgrow : ∀ call r, w.InTime call r → (w.began request).InTime call r := by
    intro call r hr
    refine hr.grow hissued _ rfl fun tokenHash hin => ?_
    obtain ⟨tokenHash', -, heq⟩ := request.start_events w.db w.calls hin
    obtain ⟨rfl, -⟩ := SessionEvent.presented.inj heq
    exact lt_irrefl _ (h.calls _ _ hr.presented)
  have hpresented : ∀ call tokenHash, .presented call tokenHash ∈ (w.began request).history →
      .presented call tokenHash ∈ w.history ∨
        call = w.calls ∧ (request.start w.db w.calls).events = [.presented w.calls tokenHash] := by
    intro call tokenHash hp
    rcases hevent _ hp with hp | hp
    · exact Or.inl hp
    · obtain ⟨tokenHash', hevents, heq⟩ := request.start_events w.db w.calls hp
      obtain ⟨rfl, rfl⟩ := SessionEvent.presented.inj heq
      exact Or.inr ⟨rfl, hevents⟩
  constructor
  case chained => exact @SessionWorld.Chained.step policy w _ (.begin request) h.chained rfl
  case scopes =>
      intro u hu s hs
      rcases htask u hu with hu | hu
      · exact (h.scopes u hu s hs).mono hissued
      · rw [(request.start_tasks w.db w.calls hu).1] at hs
        cases hs
  case revoked =>
      intro f hf
      rcases hevent _ hf with hf | hf
      · exact hdead f (h.revoked f hf)
      · obtain ⟨_, -, heq⟩ := request.start_events w.db w.calls hf
        cases heq
  case ended =>
      intro u hu f hf
      rcases htask u hu with hu | hu
      · exact hdead f (h.ended u hu f hf)
      · rw [(request.start_tasks w.db w.calls hu).2.1] at hf
        simp at hf
  case calls =>
      intro call tokenHash hp
      rcases hpresented call tokenHash hp with hp | ⟨rfl, -⟩
      · exact (h.calls call tokenHash hp).trans (Nat.lt_succ_self _)
      · exact Nat.lt_succ_self _
  case onePresented =>
      intro call a b ha hb
      rcases hpresented call a ha with hold | ⟨rfl, hnew⟩ <;>
        rcases hpresented _ b hb with hold' | ⟨hcall, hnew'⟩
      · exact h.onePresented call a b hold hold'
      · exact absurd (h.calls call a hold) (by rw [hcall]; exact lt_irrefl _)
      · exact absurd (h.calls _ b hold') (lt_irrefl _)
      · simpa using hnew.symm.trans hnew'
  case lookups =>
      intro call tokenHash hin
      rcases htask _ hin with hin | hin
      · exact List.mem_append_left _ (h.lookups call tokenHash hin)
      · exact List.mem_append_right _
          ((request.start_tasks w.db w.calls hin).2.2.2 call tokenHash rfl)
  case carried =>
      intro u hu x hx
      rcases htask u hu with hu | hu
      · exact hgrow _ _ (h.carried u hu x hx)
      · rw [(request.start_tasks w.db w.calls hu).2.2.1] at hx
        cases hx
  case refreshed =>
      intro call hc
      rcases hevent _ hc with hc | hc
      · obtain ⟨r, hr⟩ := h.refreshed call hc
        exact ⟨r, hgrow _ _ hr⟩
      · obtain ⟨_, -, heq⟩ := request.start_events w.db w.calls hc
        cases heq

/-- Clocks and accounts are no part of the invariant. -/
theorem SessionWorld.Final.frame (h : w.Final policy) (chained : w'.Chained policy)
    (refreshTokens : w'.db.refreshTokens = w.db.refreshTokens)
    (issued : w'.db.issued = w.db.issued) (inflight : w'.inflight = w.inflight)
    (calls : w'.calls = w.calls) (history : w'.history = w.history) : w'.Final policy := by
  have hissued : ∀ x ∈ w.db.issued, x ∈ w'.db.issued := fun x hx => issued ▸ hx
  have hdead : ∀ f, w.Dead f → w'.Dead f := by
    intro f hd
    refine ⟨?_, ?_, ?_⟩
    · rw [issued]
      exact hd.issued
    · rw [refreshTokens]
      exact hd.rows
    · rw [inflight]
      exact hd.heads
  have hgrow : ∀ call r, w.InTime call r → w'.InTime call r := fun call r hr =>
    hr.grow hissued [] (by rw [history, List.append_nil]) (by simp)
  constructor
  case chained => exact chained
  case scopes =>
      rw [inflight]
      exact fun u hu s hs => (h.scopes u hu s hs).mono hissued
  case revoked =>
      rw [history]
      exact fun f hf => hdead f (h.revoked f hf)
  case ended =>
      rw [inflight]
      exact fun u hu f hf => hdead f (h.ended u hu f hf)
  case calls => rw [history, calls]; exact h.calls
  case onePresented => rw [history]; exact h.onePresented
  case lookups => rw [history, inflight]; exact h.lookups
  case carried =>
      rw [inflight]
      exact fun u hu x hx => hgrow _ _ (h.carried u hu x hx)
  case refreshed =>
      rw [history]
      exact fun call hc => (h.refreshed call hc).imp fun r hr => hgrow _ _ hr

/-- **One step keeps revocations final.** -/
theorem SessionWorld.Final.step {a : SessionAction} (h : w.Final policy) (hg : w.RevokesAlone a)
    (hstep : w.step policy a = some w') : w'.Final policy := by
  have chained := h.chained.step hstep
  cases a with
  | clock now =>
      obtain rfl := Option.some.inj hstep
      exact h.frame chained rfl rfl rfl rfl rfl
  | accounts users vendors =>
      obtain rfl := Option.some.inj hstep
      exact h.frame chained rfl rfl rfl rfl rfl
  | begin request =>
      obtain rfl := Option.some.inj hstep
      exact h.began request
  | run index =>
      obtain ⟨t, ht, rfl⟩ := Option.map_eq_some_iff.mp hstep
      exact h.ran ht hg

/-! ## The law -/

/-- **Revoking a session is final** in every run whose revoking deletes run
while no refresh is between consuming a token of a family they end and storing
the next. -/
theorem revocation_final (policy : SessionPolicy) {w w' : SessionWorld}
    (initial : w.Initial)
    (run : Run (SessionWorld.step policy) SessionWorld.RevokesAlone w w') :
    w'.RevocationFinal :=
  (run.invariant (SessionWorld.Final policy) (fun _ _ _ h hg hstep => h.step hg hstep)
    initial.final).final

/-- The customer refreshes and logs out, and presents the new token again. -/
def logoutRun : List SessionAction :=
  loginRun ++ [.begin (.refreshTokens 1)] ++ List.replicate 8 (.run 0) ++
    [.begin (.logout 2)] ++ List.replicate 5 (.run 0) ++ [.begin (.refreshTokens 2), .run 0]

theorem revocation_final_logout :
    ∃ w, Run (SessionWorld.step {}) SessionWorld.RevokesAlone signedOut w ∧
      .refreshed 1 ∈ w.history ∧ .revoked 0 ∈ w.history ∧
      .presented 3 2 ∈ w.history ∧ w.RevocationFinal := by
  obtain ⟨w, run, h⟩ := @Run.of_execAll_test _ _ (SessionWorld.step {})
    SessionWorld.RevokesAlone _ logoutRun signedOut
    (fun w => .refreshed 1 ∈ w.history ∧ .revoked 0 ∈ w.history ∧ .presented 3 2 ∈ w.history)
    (by decide +kernel)
  obtain ⟨hrefreshed, hrevoked, hpresented⟩ := of_decide_eq_true h
  exact ⟨w, run, hrefreshed, hrevoked, hpresented,
    revocation_final {} signedOut_initial run⟩

/-- A refresh consumes token 1, the customer logs out, the refresh stores token
2, and the next refresh presents token 2 and succeeds. -/
def racedLogoutRun : List SessionAction :=
  loginRun ++ [.begin (.refreshTokens 1), .run 0, .run 0, .run 0] ++
    [.begin (.logout 1), .run 1, .run 1, .run 1, .run 1, .run 1] ++
    List.replicate 5 (.run 0) ++ [.begin (.refreshTokens 2)] ++ List.replicate 8 (.run 0)

theorem raced_logout_not_final :
    signedOut.Initial ∧ ∃ w, Run (SessionWorld.step {}) (fun _ _ => True) signedOut w ∧
      ¬ w.RevocationFinal := by
  refine ⟨signedOut_initial, ?_⟩
  obtain ⟨w, run, h⟩ := @Run.of_execAll_test _ _ (SessionWorld.step {}) (fun _ _ => True) _
    racedLogoutRun signedOut
    (fun w => ∃ r ∈ w.db.issued,
      [.revoked r.familyId, .presented 3 r.tokenHash].Sublist w.history ∧
        .refreshed 3 ∈ w.history)
    (by decide +kernel)
  obtain ⟨r, hr, hsub, hrefreshed⟩ := of_decide_eq_true h
  exact ⟨w, run, fun hfinal => hfinal r hr 3 hsub hrefreshed⟩

end Jadwal
