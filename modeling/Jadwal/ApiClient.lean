import Jadwal.Lib.Run
import Mathlib

/-!
# The browser's API client

`lib/api.ts` sends the requests of the pages.  The interceptor of the answers refreshes the
session when one comes back with a 401: the first such request posts `/auth/refresh`, those that
fail meanwhile wait in `failedQueue`, and all of them are sent again when the refresh is through.
The answers arrive in any order.  What is asked: one refresh at a time, no request lost or
settled twice (`refreshes_one_at_a_time`), and no storm of repetitions (`repetitions_bounded`).
-/

namespace Jadwal

/-- Where the promise of a request stands. -/
inductive RequestStage
  | sent
  /-- In `failedQueue`. -/
  | queued
  /-- Awaits its own `POST /auth/refresh`. -/
  | refreshing
  | resolved
  | rejected
  deriving DecidableEq, Repr

def RequestStage.settled : RequestStage → Bool
  | resolved | rejected => true
  | _ => false

/-- A request of a page, with the `_retry` mark of its config; `sends` counts how often it went
out. -/
structure ApiRequest where
  /-- Its address holds `/auth/login`, `/auth/refresh` or `/auth/register`. -/
  authEndpoint : Bool
  stage : RequestStage := .sent
  retry : Bool := false
  sends : Nat := 1
  deriving DecidableEq, Repr

/-- What the server answers. -/
inductive ApiAnswer
  | ok
  | unauthorized
  | tooManyRequests
  | otherError
  deriving DecidableEq, Repr

structure ApiClient where
  requests : List ApiRequest := []
  failedQueue : List Nat := []
  isRefreshing : Bool := false
  /-- How often `/auth/refresh` was posted. -/
  refreshes : Nat := 0
  /-- How often the pages heard that the session is over. -/
  sessionExpired : Nat := 0
  deriving DecidableEq, Repr

namespace ApiClient

def newRequest (authEndpoint : Bool) : ApiRequest := { authEndpoint := authEndpoint }

/-- The request goes out again. -/
def resend (r : ApiRequest) : ApiRequest := { r with stage := .sent, sends := r.sends + 1 }

def reject (r : ApiRequest) : ApiRequest := { r with stage := .rejected }

/-- `processQueue`: every request that waits is sent again, or rejected with the error. -/
def processQueue (s : ApiClient) (failed : Bool) : ApiClient :=
  { s with
    requests := s.failedQueue.foldl
      (fun requests i => requests.modify i (if failed then reject else resend)) s.requests
    failedQueue := [] }

/-- The interceptor, on the answer to the request of index `i`. -/
def onAnswer (s : ApiClient) (i : Nat) (r : ApiRequest) (answer : ApiAnswer) : ApiClient :=
  let set (r : ApiRequest) := s.requests.set i r
  match answer with
  | .ok => { s with requests := set { r with stage := .resolved } }
  | .tooManyRequests => { s with requests := set (reject r) }
  | .unauthorized =>
      if ¬ r.retry ∧ ¬ r.authEndpoint then
        if s.isRefreshing then
          { s with
            requests := set { r with stage := .queued }
            failedQueue := s.failedQueue ++ [i] }
        else
          { s with
            requests := set { r with stage := .refreshing, retry := true }
            isRefreshing := true
            refreshes := s.refreshes + 1 }
      else { s with requests := set (reject r) }
  | .otherError => { s with requests := set (reject r) }

/-- What follows the answer to `/auth/refresh`, which the request of index `i` awaited. -/
def onRefreshed (s : ApiClient) (i : Nat) (ok : Bool) : ApiClient :=
  let s := s.processQueue (!ok)
  if ok then { s with requests := s.requests.modify i resend, isRefreshing := false }
  else
    { s with
      requests := s.requests.modify i reject
      isRefreshing := false
      sessionExpired := s.sessionExpired + 1 }

inductive ClientAction
  /-- A page asks for something. -/
  | request (authEndpoint : Bool)
  /-- The server answers the request of index `i`. -/
  | answer (i : Nat) (answer : ApiAnswer)
  /-- The server answers the refresh the request of index `i` awaits. -/
  | refreshed (i : Nat) (ok : Bool)
  deriving DecidableEq, Repr

def step (s : ApiClient) : ClientAction → Option ApiClient
  | .request authEndpoint => some { s with requests := s.requests ++ [newRequest authEndpoint] }
  | .answer i answer =>
      (s.requests[i]?).bind fun r =>
        if r.stage = .sent then some (s.onAnswer i r answer) else none
  | .refreshed i ok =>
      (s.requests[i]?).bind fun r =>
        if r.stage = .refreshing then some (s.onRefreshed i ok) else none

/-- The states a client reaches. -/
def Reachable (s : ApiClient) : Prop := Run step (fun _ _ => True) {} s

variable {s s' : ApiClient} {i j : Nat} {r r' : ApiRequest}

/-- A request that waits in none of the ways the refresh ends. -/
theorem getElem?_foldl_modify {f : ApiRequest → ApiRequest} {ids : List Nat} (hnodup : ids.Nodup)
    (requests : List ApiRequest) (j : Nat) :
    (ids.foldl (fun requests i => requests.modify i f) requests)[j]? =
      requests[j]?.map (if j ∈ ids then f else id) := by
  induction ids generalizing requests with
  | nil => simp
  | cons i ids ih =>
      obtain ⟨hnot, hrest⟩ := List.nodup_cons.mp hnodup
      rw [List.foldl_cons, ih hrest, List.getElem?_modify]
      by_cases hij : i = j
      · subst hij
        cases requests[i]? with
        | none => rfl
        | some r => simp [hnot]
      · cases requests[j]? with
        | none => rfl
        | some r => simp [hij, Ne.symm hij]

/-- The invariant: one refresh, which the queue waits for. -/
structure Coherent (s : ApiClient) : Prop where
  nodup : s.failedQueue.Nodup
  queued : ∀ i, i ∈ s.failedQueue ↔ ∃ r, s.requests[i]? = some r ∧ r.stage = .queued
  refreshing : s.isRefreshing = true ↔
    ∃ (i : Nat) (r : ApiRequest), s.requests[i]? = some r ∧ r.stage = .refreshing
  alone : ∀ (i j : Nat) (r r' : ApiRequest), s.requests[i]? = some r →
    s.requests[j]? = some r' → r.stage = .refreshing → r'.stage = .refreshing → i = j
  idle : s.isRefreshing = false → s.failedQueue = []
  started : ∀ r ∈ s.requests, r.stage = .refreshing → r.retry = true
  /-- A request that waits for the refresh of another has had none itself. -/
  unmarked : ∀ r ∈ s.requests, r.stage = .queued → r.retry = false
  marked : s.refreshes = s.requests.countP (·.retry)
  /-- One more time for every refresh that is through. -/
  sends : ∀ r ∈ s.requests, r.sends + s.isRefreshing.toNat ≤ 1 + s.refreshes

/-- At the start nothing is out. -/
theorem Coherent.initial : Coherent {} where
  nodup := List.nodup_nil
  queued i := by simp
  refreshing := by simp
  alone i j r r' hi := by simp at hi
  idle _ := rfl
  started r hr := by simp at hr
  unmarked r hr := by simp at hr
  marked := rfl
  sends r hr := by simp at hr

/-- While a refresh is on, one has been posted. -/
theorem Coherent.pos (h : s.Coherent) (hon : s.isRefreshing = true) : 1 ≤ s.refreshes := by
  obtain ⟨i, r, hi, hr⟩ := h.refreshing.mp hon
  rw [h.marked, List.one_le_countP_iff]
  exact ⟨r, List.mem_of_getElem? hi, h.started r (List.mem_of_getElem? hi) hr⟩

/-- A new request waits for nothing. -/
theorem Coherent.request (h : s.Coherent) (authEndpoint : Bool) :
    ({ s with requests := s.requests ++ [newRequest authEndpoint] } : ApiClient).Coherent := by
  have hnew : ∀ {i : Nat} {r : ApiRequest},
      (s.requests ++ [newRequest authEndpoint])[i]? = some r → r.stage ≠ .sent →
        s.requests[i]? = some r := by
    intro i r hi hstage
    rcases Nat.lt_trichotomy i s.requests.length with hlt | rfl | hgt
    · rwa [List.getElem?_append_left hlt] at hi
    · rw [List.getElem?_append_right (Nat.le_refl _), Nat.sub_self] at hi
      obtain rfl := Option.some.inj hi
      exact absurd rfl hstage
    · rw [List.getElem?_eq_none (by simp; omega)] at hi
      cases hi
  have hold : ∀ {i : Nat} {r : ApiRequest}, s.requests[i]? = some r →
      (s.requests ++ [newRequest authEndpoint])[i]? = some r := by
    intro i r hi
    obtain ⟨hlt, _⟩ := List.getElem?_eq_some_iff.mp hi
    rwa [List.getElem?_append_left hlt]
  have hmem : ∀ {r : ApiRequest}, r ∈ s.requests ++ [newRequest authEndpoint] → r.stage ≠ .sent →
      r ∈ s.requests := by
    intro r hr hstage
    rcases List.mem_append.mp hr with hr | hr
    · exact hr
    · rw [List.mem_singleton.mp hr] at hstage
      exact absurd rfl hstage
  refine ⟨h.nodup, fun i => ?_, ?_, fun i j r r' hi hj hr hr' => ?_, h.idle, fun r hr hst => ?_,
    fun r hr hst => ?_, ?_, fun r hr => ?_⟩
  · rw [h.queued]
    constructor
    · intro heq
      obtain ⟨r, hi, hr⟩ := heq
      exact ⟨r, hold hi, hr⟩
    · intro heq
      obtain ⟨r, hi, hr⟩ := heq
      exact ⟨r, hnew hi (by simp [hr]), hr⟩
  · rw [h.refreshing]
    constructor
    · intro heq
      obtain ⟨i, r, hi, hr⟩ := heq
      exact ⟨i, r, hold hi, hr⟩
    · intro heq
      obtain ⟨i, r, hi, hr⟩ := heq
      exact ⟨i, r, hnew hi (by simp [hr]), hr⟩
  · exact h.alone i j r r' (hnew hi (by simp [hr])) (hnew hj (by simp [hr'])) hr hr'
  · exact h.started r (hmem hr (by simp [hst])) hst
  · exact h.unmarked r (hmem hr (by simp [hst])) hst
  · simp [h.marked, newRequest]
  · rcases List.mem_append.mp hr with hr | hr
    · exact h.sends r hr
    · rw [List.mem_singleton.mp hr]
      cases hon : s.isRefreshing with
      | false => simp [newRequest]
      | true =>
          have := h.pos hon
          simp [newRequest]
          omega

/-- The requests once that of index `i` has changed. -/
theorem getElem?_set_of (hi : s.requests[i]? = some r) {x : ApiRequest} :
    (s.requests.set i r')[j]? = some x ↔
      (j = i ∧ x = r') ∨ (j ≠ i ∧ s.requests[j]? = some x) := by
  obtain ⟨hlt, _⟩ := List.getElem?_eq_some_iff.mp hi
  rw [List.getElem?_set]
  by_cases hij : i = j
  · subst hij
    simp [hlt, eq_comm]
  · simp [hij, Ne.symm hij]

theorem mem_set_of (hi : s.requests[i]? = some r) {x : ApiRequest} (hx : x ∈ s.requests.set i r') :
    x = r' ∨ x ∈ s.requests := by
  obtain ⟨j, hj⟩ := List.getElem?_of_mem hx
  rcases (getElem?_set_of hi).mp hj with ⟨_, rfl⟩ | ⟨_, hj⟩
  · exact .inl rfl
  · exact .inr (List.mem_of_getElem? hj)

/-- How many have repeated, after one request has changed. -/
theorem countP_set_of (hi : s.requests[i]? = some r) (r' : ApiRequest) :
    (s.requests.set i r').countP (·.retry) + r.retry.toNat =
      s.requests.countP (·.retry) + r'.retry.toNat := by
  obtain ⟨hlt, rfl⟩ := List.getElem?_eq_some_iff.mp hi
  have hpos : s.requests[i].retry = true → 1 ≤ s.requests.countP (·.retry) := fun hretry =>
    List.one_le_countP_iff.mpr ⟨_, List.getElem_mem hlt, hretry⟩
  rw [List.countP_set hlt]
  cases hold : s.requests[i].retry with
  | false => cases r'.retry <;> simp
  | true =>
      have := hpos hold
      cases r'.retry <;> simp <;> omega

/-- A request that was out is settled. -/
theorem Coherent.settle (h : s.Coherent) (hi : s.requests[i]? = some r) (hsent : r.stage = .sent)
    (hsettled : r'.stage.settled = true) (hretry : r'.retry = r.retry)
    (hsends : r'.sends = r.sends) :
    ({ s with requests := s.requests.set i r' } : ApiClient).Coherent := by
  have hkeep : ∀ {j : Nat} {x : ApiRequest}, x.stage = .queued ∨ x.stage = .refreshing →
      ((s.requests.set i r')[j]? = some x ↔ s.requests[j]? = some x) := by
    intro j x hstage
    rw [getElem?_set_of hi]
    constructor
    · intro heq
      obtain ⟨_, rfl⟩ | ⟨_, hj⟩ := heq
      · rcases hstage with hstage | hstage <;> simp [hstage, RequestStage.settled] at hsettled
      · exact hj
    · intro hj
      refine .inr ⟨?_, hj⟩
      intro heq
      subst heq
      obtain rfl := Option.some.inj (hi.symm.trans hj)
      simp [hsent] at hstage
  refine ⟨h.nodup, fun j => ?_, ?_, fun j k x x' hj hk hx hx' => ?_, h.idle, fun x hx hst => ?_,
    fun x hx hst => ?_, ?_, fun x hx => ?_⟩
  · rw [h.queued]
    exact exists_congr fun x => and_congr_left fun hx => (hkeep (.inl hx)).symm
  · rw [h.refreshing]
    exact exists_congr fun j => exists_congr fun x => and_congr_left fun hx =>
      (hkeep (.inr hx)).symm
  · exact h.alone j k x x' ((hkeep (.inr hx)).mp hj) ((hkeep (.inr hx')).mp hk) hx hx'
  · obtain ⟨j, hj⟩ := List.getElem?_of_mem hx
    exact h.started x (List.mem_of_getElem? ((hkeep (.inr hst)).mp hj)) hst
  · obtain ⟨j, hj⟩ := List.getElem?_of_mem hx
    exact h.unmarked x (List.mem_of_getElem? ((hkeep (.inl hst)).mp hj)) hst
  · have hcount := countP_set_of hi r'
    rw [hretry] at hcount
    rw [h.marked]
    exact (Nat.add_right_cancel hcount).symm
  · rcases mem_set_of hi hx with rfl | hx
    · rw [hsends]
      exact h.sends r (List.mem_of_getElem? hi)
    · exact h.sends x hx

/-- A request joins the queue. -/
theorem Coherent.queue (h : s.Coherent) (hi : s.requests[i]? = some r) (hsent : r.stage = .sent)
    (hretry : r.retry = false) (hon : s.isRefreshing = true) :
    ({ s with
      requests := s.requests.set i { r with stage := .queued }
      failedQueue := s.failedQueue ++ [i] } : ApiClient).Coherent := by
  have hnot : i ∉ s.failedQueue := by
    intro hmem
    obtain ⟨r', hi', hr'⟩ := (h.queued i).mp hmem
    obtain rfl := Option.some.inj (hi.symm.trans hi')
    rw [hsent] at hr'
    cases hr'
  have hkeep : ∀ {j : Nat} {x : ApiRequest}, x.stage = .refreshing →
      ((s.requests.set i { r with stage := .queued })[j]? = some x ↔ s.requests[j]? = some x) := by
    intro j x hstage
    rw [getElem?_set_of hi]
    constructor
    · intro heq
      obtain ⟨_, rfl⟩ | ⟨_, hj⟩ := heq
      · cases hstage
      · exact hj
    · intro hj
      refine .inr ⟨?_, hj⟩
      intro heq
      subst heq
      obtain rfl := Option.some.inj (hi.symm.trans hj)
      simp [hsent] at hstage
  refine ⟨List.nodup_append.mpr ⟨h.nodup, List.nodup_singleton i, ?_⟩, fun j => ?_, ?_,
    fun j k x x' hj hk hx hx' => ?_, fun hoff => ?_, fun x hx hst => ?_, fun x hx hst => ?_, ?_,
    fun x hx => ?_⟩
  · intro a ha b hb hab
    rw [List.mem_singleton.mp hb] at hab
    exact hnot (hab ▸ ha)
  · rw [List.mem_append, List.mem_singleton, h.queued]
    constructor
    · intro heq
      obtain ⟨x, hj, hx⟩ | rfl := heq
      · refine ⟨x, (getElem?_set_of hi).mpr (.inr ⟨?_, hj⟩), hx⟩
        intro heq
        subst heq
        exact hnot ((h.queued j).mpr ⟨x, hj, hx⟩)
      · exact ⟨_, (getElem?_set_of hi).mpr (.inl ⟨rfl, rfl⟩), rfl⟩
    · intro heq
      obtain ⟨x, hj, hx⟩ := heq
      rcases (getElem?_set_of hi).mp hj with ⟨rfl, _⟩ | ⟨_, hj⟩
      · exact .inr rfl
      · exact .inl ⟨x, hj, hx⟩
  · rw [h.refreshing]
    exact exists_congr fun j => exists_congr fun x => and_congr_left fun hx => (hkeep hx).symm
  · exact h.alone j k x x' ((hkeep hx).mp hj) ((hkeep hx').mp hk) hx hx'
  · rw [hon] at hoff
    cases hoff
  · obtain ⟨j, hj⟩ := List.getElem?_of_mem hx
    exact h.started x (List.mem_of_getElem? ((hkeep hst).mp hj)) hst
  · rcases mem_set_of hi hx with rfl | hx
    · exact hretry
    · exact h.unmarked x hx hst
  · have hcount := countP_set_of hi { r with stage := .queued }
    rw [h.marked]
    exact (Nat.add_right_cancel hcount).symm
  · rcases mem_set_of hi hx with rfl | hx
    · exact h.sends r (List.mem_of_getElem? hi)
    · exact h.sends x hx

/-- A request starts the refresh. -/
theorem Coherent.start (h : s.Coherent) (hi : s.requests[i]? = some r)
    (hretry : r.retry = false) (hoff : s.isRefreshing = false) :
    ({ s with
      requests := s.requests.set i { r with stage := .refreshing, retry := true }
      isRefreshing := true
      refreshes := s.refreshes + 1 } : ApiClient).Coherent := by
  have hnone : ∀ {j : Nat} {x : ApiRequest}, s.requests[j]? = some x → x.stage ≠ .refreshing := by
    intro j x hj hx
    have hon := h.refreshing.mpr ⟨j, x, hj, hx⟩
    rw [hoff] at hon
    cases hon
  have hwaits : ∀ {j : Nat} {x : ApiRequest}, s.requests[j]? = some x → x.stage ≠ .queued := by
    intro j x hj hx
    have hmem := (h.queued j).mpr ⟨x, hj, hx⟩
    rw [h.idle hoff] at hmem
    exact List.not_mem_nil hmem
  refine ⟨h.nodup, fun j => ?_, ?_, fun j k x x' hj hk hx hx' => ?_, fun hoff' => ?_,
    fun x hx hst => ?_, fun x hx hst => ?_, ?_, fun x hx => ?_⟩
  · rw [h.idle hoff]
    simp only [List.not_mem_nil, false_iff, not_exists, not_and]
    intro x hj hx
    rcases (getElem?_set_of hi).mp hj with ⟨_, rfl⟩ | ⟨_, hj⟩
    · cases hx
    · exact hwaits hj hx
  · simp only [true_iff]
    exact ⟨i, _, (getElem?_set_of hi).mpr (.inl ⟨rfl, rfl⟩), rfl⟩
  · rcases (getElem?_set_of hi).mp hj with ⟨rfl, _⟩ | ⟨_, hj⟩
    · rcases (getElem?_set_of hi).mp hk with ⟨rfl, _⟩ | ⟨_, hk⟩
      · rfl
      · exact absurd hx' (hnone hk)
    · exact absurd hx (hnone hj)
  · cases hoff'
  · rcases mem_set_of hi hx with rfl | hx
    · rfl
    · obtain ⟨j, hj⟩ := List.getElem?_of_mem hx
      exact absurd hst (hnone hj)
  · rcases mem_set_of hi hx with rfl | hx
    · cases hst
    · exact h.unmarked x hx hst
  · have hcount := countP_set_of hi { r with stage := .refreshing, retry := true }
    rw [hretry] at hcount
    simpa [h.marked] using hcount.symm
  · rcases mem_set_of hi hx with rfl | hx
    · have := h.sends r (List.mem_of_getElem? hi)
      rw [hoff] at this
      simp only [Bool.toNat_false, Bool.toNat_true] at this ⊢
      omega
    · have := h.sends x hx
      rw [hoff] at this
      simp only [Bool.toNat_false, Bool.toNat_true] at this ⊢
      omega

/-- What the end of a refresh does to a request. -/
def afterRefresh (ok : Bool) (x : ApiRequest) : ApiRequest :=
  if x.stage = .queued ∨ x.stage = .refreshing then (if ok then resend x else reject x) else x

@[simp] theorem afterRefresh_retry (ok : Bool) (x : ApiRequest) :
    (afterRefresh ok x).retry = x.retry := by
  unfold afterRefresh
  split
  · cases ok <;> rfl
  · rfl

/-- What is settled no refresh touches. -/
theorem afterRefresh_settled {ok : Bool} {x : ApiRequest} (h : x.stage.settled = true) :
    afterRefresh ok x = x := by
  refine if_neg ?_
  rintro (hx | hx) <;> simp [hx, RequestStage.settled] at h

/-- Nobody waits behind a refresh. -/
theorem afterRefresh_waits (ok : Bool) (x : ApiRequest) :
    (afterRefresh ok x).stage ≠ .queued ∧ (afterRefresh ok x).stage ≠ .refreshing := by
  unfold afterRefresh
  split
  case isTrue => cases ok <;> exact ⟨by simp [resend, reject], by simp [resend, reject]⟩
  case isFalse h => exact not_or.mp h

/-- The refresh settles or repeats all that waited for it. -/
theorem onRefreshed_requests (h : s.Coherent) (hi : s.requests[i]? = some r)
    (hr : r.stage = .refreshing) (ok : Bool) :
    (s.onRefreshed i ok).requests = s.requests.map (afterRefresh ok) := by
  refine List.ext_getElem? fun j => ?_
  have hqueue : ∀ {x : ApiRequest}, s.requests[j]? = some x →
      (j ∈ s.failedQueue ↔ x.stage = .queued) := by
    intro x hj
    rw [h.queued]
    constructor
    · intro heq
      obtain ⟨x', hj', hx'⟩ := heq
      obtain rfl := Option.some.inj (hj.symm.trans hj')
      exact hx'
    · exact fun hx => ⟨x, hj, hx⟩
  have hself : ∀ {x : ApiRequest}, s.requests[j]? = some x → (i = j ↔ x.stage = .refreshing) := by
    intro x hj
    constructor
    · intro heq
      subst heq
      obtain rfl := Option.some.inj (hi.symm.trans hj)
      exact hr
    · exact fun hx => h.alone i j r x hi hj hr hx
  rw [List.getElem?_map]
  cases ok with
  | true =>
      simp only [onRefreshed, processQueue, Bool.not_true, Bool.false_eq_true, if_false, if_true,
        List.getElem?_modify, getElem?_foldl_modify h.nodup]
      cases hj : s.requests[j]? with
      | none => rfl
      | some x =>
          simp only [Option.map_eq_map, Option.map_some, hqueue hj, hself hj, Option.some.injEq,
            afterRefresh]
          cases hstage : x.stage <;> simp
  | false =>
      simp only [onRefreshed, processQueue, Bool.not_false, if_true, Bool.false_eq_true, if_false,
        List.getElem?_modify, getElem?_foldl_modify h.nodup]
      cases hj : s.requests[j]? with
      | none => rfl
      | some x =>
          simp only [Option.map_eq_map, Option.map_some, hqueue hj, hself hj, Option.some.injEq,
            afterRefresh]
          cases hstage : x.stage <;> simp

/-- The refresh is through, and nobody waits. -/
theorem Coherent.refreshed (h : s.Coherent) (hi : s.requests[i]? = some r)
    (hr : r.stage = .refreshing) (ok : Bool) : (s.onRefreshed i ok).Coherent := by
  have hrequests := onRefreshed_requests h hi hr ok
  have hon : s.isRefreshing = true := h.refreshing.mpr ⟨i, r, hi, hr⟩
  have hoff : (s.onRefreshed i ok).isRefreshing = false := by cases ok <;> rfl
  have hempty : (s.onRefreshed i ok).failedQueue = [] := by cases ok <;> rfl
  have hcount : (s.onRefreshed i ok).refreshes = s.refreshes := by cases ok <;> rfl
  have hwaits : ∀ {j : Nat} {x : ApiRequest}, (s.onRefreshed i ok).requests[j]? = some x →
      x.stage ≠ .queued ∧ x.stage ≠ .refreshing := by
    intro j x hj
    rw [hrequests, List.getElem?_map, Option.map_eq_some_iff] at hj
    obtain ⟨y, _, rfl⟩ := hj
    exact afterRefresh_waits ok y
  refine ⟨by rw [hempty]; exact List.nodup_nil, fun j => ?_, ?_,
    fun j k x x' hj _ hx _ => absurd hx (hwaits hj).2, fun _ => hempty, fun x hx hst => ?_,
    fun x hx hst => ?_, ?_, fun x hx => ?_⟩
  · rw [hempty]
    simp only [List.not_mem_nil, false_iff, not_exists, not_and]
    exact fun x hj => (hwaits hj).1
  · rw [hoff]
    simp only [Bool.false_eq_true, false_iff, not_exists, not_and]
    exact fun j x hj => (hwaits hj).2
  · obtain ⟨j, hj⟩ := List.getElem?_of_mem hx
    exact absurd hst (hwaits hj).2
  · obtain ⟨j, hj⟩ := List.getElem?_of_mem hx
    exact absurd hst (hwaits hj).1
  · rw [hcount, hrequests, List.countP_map, h.marked]
    simp [Function.comp_def]
  · rw [hrequests] at hx
    obtain ⟨y, hy, rfl⟩ := List.mem_map.mp hx
    have hle := h.sends y hy
    rw [hon] at hle
    rw [hoff, hcount]
    unfold afterRefresh
    simp only [Bool.toNat_true, Bool.toNat_false] at hle ⊢
    split
    · cases ok
      · exact (Nat.le_succ _).trans hle
      · exact hle
    · exact (Nat.le_succ _).trans hle

/-- **Every step keeps the queue.** -/
theorem Coherent.step (h : s.Coherent) {a : ClientAction} (hstep : s.step a = some s') :
    s'.Coherent := by
  cases a with
  | request authEndpoint =>
      obtain rfl := Option.some.inj hstep
      exact h.request authEndpoint
  | answer i answer =>
      simp only [ApiClient.step, Option.bind_eq_some_iff, Option.ite_none_right_eq_some] at hstep
      obtain ⟨r, hi, hsent, hs⟩ := hstep
      obtain rfl := Option.some.inj hs
      have hrejected : ({ s with requests := s.requests.set i (reject r) } : ApiClient).Coherent :=
        h.settle hi hsent rfl rfl rfl
      cases answer with
      | ok => exact h.settle hi hsent rfl rfl rfl
      | tooManyRequests => exact hrejected
      | otherError => exact hrejected
      | unauthorized =>
          simp only [onAnswer]
          split
          case isTrue hfresh =>
            have hretry := Bool.eq_false_iff.mpr hfresh.1
            split
            case isTrue hon => exact h.queue hi hsent hretry hon
            case isFalse hoff => exact h.start hi hretry (Bool.eq_false_iff.mpr hoff)
          case isFalse => exact hrejected
  | refreshed i ok =>
      simp only [ApiClient.step, Option.bind_eq_some_iff, Option.ite_none_right_eq_some] at hstep
      obtain ⟨r, hi, hr, hs⟩ := hstep
      obtain rfl := Option.some.inj hs
      exact h.refreshed hi hr ok

/-- Every state reached is coherent. -/
theorem Reachable.coherent (h : s.Reachable) : s.Coherent :=
  Run.invariant Coherent (fun _ _ _ h _ hstep => h.step hstep) h Coherent.initial

/-- A settled request stays as it is. -/
theorem settled_step (h : s.Coherent) {a : ClientAction} (hstep : s.step a = some s')
    (hj : s.requests[j]? = some r) (hr : r.stage.settled = true) : s'.requests[j]? = some r := by
  cases a with
  | request authEndpoint =>
      obtain rfl := Option.some.inj hstep
      obtain ⟨hlt, _⟩ := List.getElem?_eq_some_iff.mp hj
      exact (List.getElem?_append_left hlt).trans hj
  | answer i answer =>
      simp only [ApiClient.step, Option.bind_eq_some_iff, Option.ite_none_right_eq_some] at hstep
      obtain ⟨x, hi, hsent, hs⟩ := hstep
      obtain rfl := Option.some.inj hs
      have hne : i ≠ j := by
        intro heq
        subst heq
        obtain rfl := Option.some.inj (hi.symm.trans hj)
        simp [hsent, RequestStage.settled] at hr
      have hset : ∀ x' : ApiRequest, (s.requests.set i x')[j]? = some r := fun x' => by
        rw [List.getElem?_set_ne hne, hj]
      cases answer with
      | unauthorized =>
          simp only [onAnswer]
          split
          · split
            · exact hset _
            · exact hset _
          · exact hset _
      | ok => exact hset _
      | tooManyRequests => exact hset _
      | otherError => exact hset _
  | refreshed i ok =>
      simp only [ApiClient.step, Option.bind_eq_some_iff, Option.ite_none_right_eq_some] at hstep
      obtain ⟨x, hi, hx, hs⟩ := hstep
      obtain rfl := Option.some.inj hs
      rw [onRefreshed_requests h hi hx, List.getElem?_map, hj, Option.map_some,
        afterRefresh_settled hr]

/-- **One refresh at a time, and nothing is lost**: whatever the order of the answers, at most one
request has a refresh under way; the queue holds exactly the requests that wait for it, each once,
and is empty without one; a settled request is not settled again; and when no request is out and
no refresh under way, all are settled. -/
theorem refreshes_one_at_a_time (hs : s.Reachable) (hrun : Run step (fun _ _ => True) s s') :
    (∀ (i j : Nat) (r r' : ApiRequest), s'.requests[i]? = some r → s'.requests[j]? = some r' →
      r.stage = .refreshing → r'.stage = .refreshing → i = j) ∧
    (s'.failedQueue.Nodup ∧ ∀ i, i ∈ s'.failedQueue ↔
      ∃ r, s'.requests[i]? = some r ∧ r.stage = .queued) ∧
    (s'.isRefreshing = false → s'.failedQueue = []) ∧
    (∀ (j : Nat) (r : ApiRequest), s.requests[j]? = some r → r.stage.settled = true →
      s'.requests[j]? = some r) ∧
    (s'.isRefreshing = false → (∀ r ∈ s'.requests, r.stage ≠ .sent) →
      ∀ r ∈ s'.requests, r.stage.settled = true) := by
  have h' : s'.Coherent := Reachable.coherent (Run.trans hs hrun)
  refine ⟨h'.alone, ⟨h'.nodup, h'.queued⟩, h'.idle, fun j r hj hr => ?_, fun hoff hnone r hr => ?_⟩
  · refine (Run.invariant (fun s' => s'.Coherent ∧ s'.requests[j]? = some r)
      (fun _ _ _ h _ hstep => ?_) hrun ⟨hs.coherent, hj⟩).2
    exact ⟨h.1.step hstep, settled_step h.1 hstep h.2 hr⟩
  · obtain ⟨i, hi⟩ := List.getElem?_of_mem hr
    cases hstage : r.stage with
    | sent => exact absurd hstage (hnone r hr)
    | queued =>
        have hmem := (h'.queued i).mpr ⟨r, hi, hstage⟩
        rw [h'.idle hoff] at hmem
        exact absurd hmem List.not_mem_nil
    | refreshing =>
        have hon := h'.refreshing.mpr ⟨i, r, hi, hstage⟩
        rw [hoff] at hon
        cases hon
    | resolved => rfl
    | rejected => rfl

/-- Three requests have failed together: one refreshes, two wait. -/
def threeWait : ApiClient where
  requests := [{ authEndpoint := false, stage := .refreshing, retry := true },
    { authEndpoint := false, stage := .queued }, { authEndpoint := false, stage := .queued }]
  failedQueue := [2, 1]
  isRefreshing := true
  refreshes := 1

theorem threeWait_reachable : threeWait.Reachable :=
  Run.of_execAll [.request false, .request false, .request false, .answer 0 .unauthorized,
    .answer 2 .unauthorized, .answer 1 .unauthorized] (by decide)

/-- All three are out again, and the second has its answer. -/
def threeOut : ApiClient where
  requests := [{ authEndpoint := false, retry := true, sends := 2 },
    { authEndpoint := false, stage := .resolved, sends := 2 },
    { authEndpoint := false, sends := 2 }]
  refreshes := 1

theorem refreshes_one_at_a_time_three :
    (∀ (i : Nat) (r : ApiRequest), threeWait.requests[i]? = some r → r.stage = .refreshing →
      i = 0) ∧
    (∀ i, i ∈ threeWait.failedQueue ↔
      ∃ r, threeWait.requests[i]? = some r ∧ r.stage = .queued) ∧
    (∀ s', Run step (fun _ _ => True) threeOut s' → s'.requests[1]? = threeOut.requests[1]?) ∧
    ∃ s', Run step (fun _ _ => True) threeOut s' ∧ ∀ r ∈ s'.requests, r.stage.settled = true := by
  have hout : Run step (fun _ _ => True) threeWait threeOut :=
    Run.of_execAll [.refreshed 0 true, .answer 1 .ok] (by decide)
  have houtReachable : threeOut.Reachable := Run.trans threeWait_reachable hout
  obtain ⟨halone, hqueue, _⟩ := refreshes_one_at_a_time threeWait_reachable (.nil threeWait)
  refine ⟨fun i r hi hr => halone i 0 r _ hi rfl hr rfl, hqueue.2, ?_, ?_⟩
  · intro s' hrun
    exact (refreshes_one_at_a_time houtReachable hrun).2.2.2.1 1 _ rfl rfl
  · obtain ⟨s', hrun, htest⟩ := @Run.of_execAll_test _ _ step (fun _ _ => True) _
      [.answer 2 .otherError, .answer 0 .ok] threeOut
      (fun s' => s'.isRefreshing = false ∧ ∀ r ∈ s'.requests, r.stage ≠ .sent) (by decide)
    obtain ⟨hidle, hnone⟩ := of_decide_eq_true htest
    exact ⟨s', hrun, (refreshes_one_at_a_time houtReachable hrun).2.2.2.2 hidle hnone⟩

/-- **No storm of repetitions**: there are at most as many refreshes as requests, and a request
goes out at most once more for every refresh. -/
theorem repetitions_bounded (hs : s.Reachable) :
    s.refreshes ≤ s.requests.length ∧ (∀ r ∈ s.requests, r.sends ≤ 1 + s.refreshes) ∧
      (s.requests.map ApiRequest.sends).sum + s.refreshes ≤
        s.requests.length * (s.requests.length + 2) := by
  have h := hs.coherent
  have hle : s.refreshes ≤ s.requests.length := by
    rw [h.marked]
    exact List.countP_le_length
  have hsends : ∀ r ∈ s.requests, r.sends ≤ 1 + s.refreshes := fun r hr =>
    (Nat.le_add_right _ _).trans (h.sends r hr)
  refine ⟨hle, hsends, ?_⟩
  have hsum := List.sum_le_card_nsmul (s.requests.map ApiRequest.sends) (1 + s.requests.length)
    fun n hn => by
      obtain ⟨r, hr, rfl⟩ := List.mem_map.mp hn
      exact (hsends r hr).trans (Nat.add_le_add_left hle 1)
  rw [List.length_map, smul_eq_mul] at hsum
  calc (s.requests.map ApiRequest.sends).sum + s.refreshes
      ≤ s.requests.length * (1 + s.requests.length) + s.requests.length := Nat.add_le_add hsum hle
    _ = s.requests.length * (s.requests.length + 2) := by ring

theorem repetitions_bounded_three :
    (threeWait.requests.map ApiRequest.sends).sum + threeWait.refreshes ≤ 3 * (3 + 2) :=
  (repetitions_bounded threeWait_reachable).2.2

end ApiClient

end Jadwal
