import Jadwal.Lib.Expiring
import Jadwal.Lib.Run
import Jadwal.UnsubscribeToken
import Mathlib

/-!
# Addresses that get no mail

`EmailSuppression` keeps one row for each hash of an address.  The webhook of the provider adds
the recipients of a bounce or a complaint one after the other, an unsubscribe link adds the address
its user has now, and an administrator removes a row.  `send` looks the address up and, later,
calls the provider.  A task is a call between two statements, and any number are under way.  What
is asked: who still gets mail after an address was added (`suppressed_gets_no_mail`), and how an
address comes onto the list (`suppressed_for_a_reason`).
-/

namespace Jadwal

open Base64 (encodeUtf8 hex)

inductive SuppressReason
  | bounce
  | complaint
  | reject
  | manual
  deriving DecidableEq, Repr

/-- A row of `email_suppressions`. -/
structure Suppression where
  reason : SuppressReason
  bounceType : Option String
  notes : Option String
  deriving DecidableEq, Repr

/-- The arguments of `suppress`. -/
structure SuppressCall where
  email : String
  reason : SuppressReason
  bounceType : Option String := none
  notes : Option String := none
  deriving DecidableEq, Repr

/-- The row after `suppress`: an update writes the notes only when they are given. -/
def SuppressCall.upsert (call : SuppressCall) : Option Suppression → Suppression
  | none => ⟨call.reason, call.bounceType, call.notes⟩
  | some row => ⟨call.reason, call.bounceType, call.notes.or row.notes⟩

/-- `data.to`, of which an entry may be no string. -/
inductive Recipients
  | absent
  | one (email : String)
  | many (entries : List (Option String))
  deriving DecidableEq, Repr

def extractRecipients : Recipients → List String
  | .absent => []
  | .one email => [email].filter (fun e => trimmed e ≠ "")
  | .many entries => entries.reduceOption.filter (fun e => trimmed e ≠ "")

structure Bounce where
  type : Option String
  subType : Option String
  message : Option String
  deriving DecidableEq, Repr

inductive ResendEvent
  | bounced (bounce : Option Bounce)
  | complained
  | deliveryDelayed
  | other
  deriving DecidableEq, Repr

def bounceTypeOf (bounce : Option Bounce) : String :=
  (bounce.bind Bounce.type).getD "Unknown" ++ "/" ++ (bounce.bind Bounce.subType).getD ""

/-- `bounce?.message?.slice(0, 200)` -/
def bounceNotes (bounce : Option Bounce) : Option String :=
  (bounce.bind Bounce.message).map (fun message => String.ofList (sliceUnits 200 message.toList))

/-- The calls of `suppress` an event leads to. -/
def ResendEvent.calls (recipients : List String) : ResendEvent → List SuppressCall
  | .bounced bounce =>
      if bounce.bind Bounce.type = some "Transient" then []
      else recipients.map (fun email =>
        ⟨email, .bounce, some (bounceTypeOf bounce), bounceNotes bounce⟩)
  | .complained => recipients.map (fun email => ⟨email, .complaint, none, none⟩)
  | .deliveryDelayed => []
  | .other => []

/-- A call of the webhook: the raw body, if it is one, and the headers of svix. -/
structure WebhookRequest where
  rawBody : Option (List UInt8)
  svixId : Option String
  svixTimestamp : Option String
  svixSignature : Option String
  deriving DecidableEq, Repr

/-- What the platform provides, and the secrets. -/
structure MailEnv where
  keys : TokenKeys
  /-- `webhook.verify` at a moment, of a body, an id, a timestamp and a signature: `none` where it
  throws, and always where no secret is configured. -/
  verify : Nat → List UInt8 → String → String → String → Option (ResendEvent × Recipients)

namespace MailEnv

/-- `hashEmail` of the list, 64 hex digits. -/
def emailHash (env : MailEnv) (email : String) : List Char :=
  hex (env.keys.sha256 (encodeUtf8 (env.keys.toLowerCase (trimSpace email.toList)))).toList

/-- The event of a call that is let in. -/
def verified (env : MailEnv) (now : Nat) (request : WebhookRequest) :
    Option (ResendEvent × Recipients) :=
  request.rawBody.bind (fun body =>
    env.verify now body (request.svixId.getD "") (request.svixTimestamp.getD "")
      (request.svixSignature.getD ""))

end MailEnv

inductive MailTask
  /-- A webhook call that is verified, and what it still has to add. -/
  | reporting (calls : List SuppressCall)
  /-- `send`, before the lookup. -/
  | sending (id : Id) (recipient : String) (adminAlert : Bool)
  /-- `send`, before the provider is called. -/
  | cleared (id : Id) (recipient : String) (adminAlert : Bool)
  /-- `processUnsubscribe`, with a token that verified. -/
  | verified (userId emailHash : List Char)
  /-- The token names the address the user has. -/
  | matched (email : String)
  deriving DecidableEq, Repr

/-- What happened, for the statements. -/
inductive MailEntry
  | reported (request : WebhookRequest) (now : Nat)
  | requested (token : List Char) (now : Nat)
  /-- The address a user had when an unsubscribe request looked. -/
  | read (userId : List Char) (email : String)
  | added (call : SuppressCall)
  | removed (hash : List Char)
  /-- The lookup of a send; `none` where it failed. -/
  | looked (id : Id) (recipient : String) (found : Option Bool)
  | delivered (id : Id) (recipient : String) (adminAlert : Bool)
  deriving DecidableEq, Repr

structure MailWorld where
  now : Nat
  rows : List Char → Option Suppression
  /-- `user.email` -/
  users : List Char → Option String
  nextSend : Id := 0
  tasks : List MailTask := []
  /-- Newest first. -/
  log : List MailEntry := []

inductive MailAction
  | wait (ms : Nat)
  /-- An account is opened, changed or deleted. -/
  | setEmail (userId : List Char) (email : Option String)
  | webhook (request : WebhookRequest)
  | send (recipient : String) (adminAlert : Bool)
  | unsubscribe (token : List Char)
  | unsuppress (hash : List Char)
  /-- The next statement of a task; `allowed` is the platform's quota, or the provider. -/
  | next (i : Nat) (reply : StoreReply) (allowed : Bool)
  deriving DecidableEq, Repr

namespace MailWorld

/-- `suppress` on the database; a lost reply is thrown, but the row is there. -/
def suppress (env : MailEnv) (s : MailWorld) (call : SuppressCall) : StoreReply → MailWorld
  | .unreachable => s
  | _ =>
      let hash := env.emailHash call.email
      { s with
        rows := Function.update s.rows hash (some (call.upsert (s.rows hash)))
        log := .added call :: s.log }

/-- The next statement of a task. -/
def runTask (env : MailEnv) (s : MailWorld) (reply : StoreReply) (allowed : Bool) :
    MailTask → MailWorld × Option MailTask
  | .reporting [] => (s, none)
  | .reporting (call :: calls) =>
      (s.suppress env call reply, if reply = .answered then some (.reporting calls) else none)
  | .sending id recipient true => (s, some (.cleared id recipient true))
  | .sending id recipient false =>
      let found :=
        if reply = .answered then some (s.rows (env.emailHash recipient)).isSome else none
      ({ s with log := .looked id recipient found :: s.log },
        if found ≠ some true ∧ allowed then some (.cleared id recipient false) else none)
  | .cleared id recipient adminAlert =>
      (if allowed then { s with log := .delivered id recipient adminAlert :: s.log } else s, none)
  | .verified userId emailHash =>
      match s.users userId with
      | none => (s, none)
      | some email =>
          if reply ≠ .answered ∨ email = "" then (s, none)
          else
            ({ s with log := .read userId email :: s.log },
              if env.keys.hashEmail email = emailHash then some (.matched email) else none)
  | .matched email =>
      (s.suppress env ⟨email, .manual, none, some "user_unsubscribe"⟩ reply, none)

def step (env : MailEnv) (s : MailWorld) : MailAction → Option MailWorld
  | .wait ms => some { s with now := s.now + ms }
  | .setEmail userId email => some { s with users := Function.update s.users userId email }
  | .webhook request =>
      (env.verified s.now request).map fun (event, recipients) =>
        { s with
          tasks := s.tasks ++ [.reporting (event.calls (extractRecipients recipients))]
          log := .reported request s.now :: s.log }
  | .send recipient adminAlert =>
      some { s with
        tasks := s.tasks ++ [.sending s.nextSend recipient adminAlert]
        nextSend := s.nextSend + 1 }
  | .unsubscribe token =>
      match verifyToken env.keys s.now token with
      | .ok userId emailHash =>
          some { s with
            tasks := s.tasks ++ [.verified userId emailHash]
            log := .requested token s.now :: s.log }
      | _ => none
  | .unsuppress hash =>
      some { s with
        rows := Function.update s.rows hash none
        log := .removed hash :: s.log }
  | .next i reply allowed =>
      (s.tasks[i]?).map fun t =>
        let (s', t') := s.runTask env reply allowed t
        { s' with tasks := s.tasks.eraseIdx i ++ t'.toList }

/-- Nothing is under way, and nothing is recorded; the list may hold rows. -/
structure Initial (s : MailWorld) : Prop where
  tasks : s.tasks = []
  log : s.log = []

/-- Whether a hash is on the list after the log, on a list that was `rows` before it. -/
def Listed (env : MailEnv) (rows : List Char → Option Suppression) (hash : List Char) :
    List MailEntry → Prop
  | [] => (rows hash).isSome
  | .added call :: log => env.emailHash call.email = hash ∨ Listed env rows hash log
  | .removed hash' :: log => hash' ≠ hash ∧ Listed env rows hash log
  | _ :: log => Listed env rows hash log

/-- The send has looked, and went on: no answer, or the address was not on the list. -/
def Passed (env : MailEnv) (rows : List Char → Option Suppression) (id : Id) (recipient : String)
    (log : List MailEntry) : Prop :=
  ∃ since found before, log = since ++ .looked id recipient found :: before ∧
    (found = none ∨ found = some false ∧ ¬ Listed env rows (env.emailHash recipient) before)

/-- A verified webhook call named the address, for that reason. -/
def Reported (env : MailEnv) (call : SuppressCall) (log : List MailEntry) : Prop :=
  ∃ request now event recipients, .reported request now ∈ log ∧
    env.verified now request = some (event, recipients) ∧
    call ∈ event.calls (extractRecipients recipients)

/-- A valid link named a user and the address which that user had when it was looked up. -/
def Requested (env : MailEnv) (email : String) (log : List MailEntry) : Prop :=
  ∃ token now userId, .requested token now ∈ log ∧
    verifyToken env.keys now token = .ok userId (env.keys.hashEmail email) ∧
    .read userId email ∈ log

/-- The call of an unsubscribe request. -/
def unsubscribeCall (email : String) : SuppressCall :=
  ⟨email, .manual, none, some "user_unsubscribe"⟩

/-- What an entry does to the list. -/
def rowsAfter (env : MailEnv) (rows : List Char → Option Suppression) :
    MailEntry → List Char → Option Suppression
  | .added call => Function.update rows (env.emailHash call.email)
      (some (call.upsert (rows (env.emailHash call.email))))
  | .removed hash => Function.update rows hash none
  | _ => rows

/-- Which task of `s` makes an entry. -/
def EntryFrom (s : MailWorld) : MailEntry → Prop
  | .added call => (∃ calls, .reporting (call :: calls) ∈ s.tasks) ∨
      ∃ email, .matched email ∈ s.tasks ∧ call = unsubscribeCall email
  | .delivered id recipient adminAlert => .cleared id recipient adminAlert ∈ s.tasks
  | _ => True

/-- Where a task that is new in `s'` comes from. -/
def TaskFrom (env : MailEnv) (s s' : MailWorld) : MailTask → Prop
  | .reporting calls => (∃ request now event recipients, .reported request now ∈ s'.log ∧
        env.verified now request = some (event, recipients) ∧
        calls = event.calls (extractRecipients recipients)) ∨
      ∃ call, .reporting (call :: calls) ∈ s.tasks
  | .sending _ _ _ => True
  | .cleared id recipient adminAlert => adminAlert = true ∨
      ∃ found, s'.log = .looked id recipient found :: s.log ∧
        (found = none ∨ found = some false ∧ s.rows (env.emailHash recipient) = none)
  | .verified userId emailHash => ∃ token now, .requested token now ∈ s'.log ∧
      verifyToken env.keys now token = .ok userId emailHash
  | .matched email => ∃ userId, .verified userId (env.keys.hashEmail email) ∈ s.tasks ∧
      .read userId email ∈ s'.log

/-- The log grows by one entry at most, which says what became of the list. -/
def Recorded (env : MailEnv) (s s' : MailWorld) : Prop :=
  (s'.log = s.log ∧ s'.rows = s.rows) ∨
    ∃ e, s'.log = e :: s.log ∧ s'.rows = rowsAfter env s.rows e ∧ EntryFrom s e

variable {env : MailEnv} {s s' s₀ : MailWorld} {t : MailTask} {id : Id} {recipient : String}
  {reply : StoreReply} {rows : List Char → Option Suppression} {log : List MailEntry}

/-- `suppress` writes its row and its entry together. -/
theorem suppress_recorded {call : SuppressCall} (h : EntryFrom s (.added call)) :
    Recorded env s (s.suppress env call reply) := by
  cases reply with
  | unreachable => exact .inl ⟨rfl, rfl⟩
  | answered => exact .inr ⟨.added call, rfl, rfl, h⟩
  | lost => exact .inr ⟨.added call, rfl, rfl, h⟩

/-- What the next statement of a task can do. -/
theorem runTask_spec (allowed : Bool) (ht : t ∈ s.tasks) :
    Recorded env s (s.runTask env reply allowed t).1 ∧
      ∀ t' ∈ (s.runTask env reply allowed t).2,
        TaskFrom env s (s.runTask env reply allowed t).1 t' := by
  cases t with
  | reporting calls =>
      cases calls with
      | nil => exact ⟨.inl ⟨rfl, rfl⟩, by simp [runTask]⟩
      | cons call calls =>
          refine ⟨suppress_recorded (.inl ⟨calls, ht⟩), ?_⟩
          intro t' ht'
          simp only [runTask, Option.mem_def, Option.ite_none_right_eq_some,
            Option.some.injEq] at ht'
          obtain ⟨_, rfl⟩ := ht'
          exact .inr ⟨call, ht⟩
  | sending id recipient adminAlert =>
      cases adminAlert with
      | true =>
          refine ⟨.inl ⟨rfl, rfl⟩, ?_⟩
          intro t' ht'
          obtain rfl := Option.some.inj ht'
          exact .inl rfl
      | false =>
          refine ⟨.inr ⟨_, rfl, rfl, trivial⟩, ?_⟩
          intro t' ht'
          simp only [runTask, Option.mem_def, Option.ite_none_right_eq_some,
            Option.some.injEq] at ht'
          obtain ⟨⟨hfound, _⟩, rfl⟩ := ht'
          refine .inr ⟨_, rfl, ?_⟩
          split at hfound
          case isTrue hreply =>
            right
            rw [if_pos hreply]
            cases hrow : s.rows (env.emailHash recipient) with
            | none => exact ⟨rfl, rfl⟩
            | some row => simp [hrow] at hfound
          case isFalse hreply =>
            left
            rw [if_neg hreply]
  | cleared id recipient adminAlert =>
      constructor
      · cases allowed with
        | true => exact .inr ⟨_, rfl, rfl, ht⟩
        | false => exact .inl ⟨rfl, rfl⟩
      · intro t' ht'
        cases ht'
  | verified userId emailHash =>
      simp only [runTask]
      split
      case h_1 => exact ⟨.inl ⟨rfl, rfl⟩, by simp⟩
      case h_2 email _ =>
        split
        case isTrue => exact ⟨.inl ⟨rfl, rfl⟩, by simp⟩
        case isFalse =>
          refine ⟨.inr ⟨_, rfl, rfl, trivial⟩, ?_⟩
          intro t' ht'
          simp only [Option.mem_def, Option.ite_none_right_eq_some, Option.some.injEq] at ht'
          obtain ⟨rfl, rfl⟩ := ht'
          exact ⟨userId, ht, List.mem_cons_self⟩
  | matched email =>
      refine ⟨suppress_recorded (.inr ⟨email, ht, rfl⟩), ?_⟩
      intro t' ht'
      cases ht'

/-- **What a step can do.** -/
theorem step_spec {a : MailAction} (h : step env s a = some s') :
    Recorded env s s' ∧ ∀ t ∈ s'.tasks, t ∈ s.tasks ∨ TaskFrom env s s' t := by
  have hnew : ∀ {ts : List MailTask} {t u : MailTask}, t ∈ ts ++ [u] → t ∈ ts ∨ t = u := by
    intro ts t u ht
    simpa using ht
  cases a with
  | wait ms =>
      obtain rfl := Option.some.inj h
      exact ⟨.inl ⟨rfl, rfl⟩, fun t ht => .inl ht⟩
  | setEmail userId email =>
      obtain rfl := Option.some.inj h
      exact ⟨.inl ⟨rfl, rfl⟩, fun t ht => .inl ht⟩
  | webhook request =>
      obtain ⟨⟨event, recipients⟩, hverified, rfl⟩ := Option.map_eq_some_iff.mp h
      refine ⟨.inr ⟨_, rfl, rfl, trivial⟩, ?_⟩
      intro t ht
      rcases hnew ht with ht | rfl
      · exact .inl ht
      · right
        left
        exact ⟨request, s.now, event, recipients, List.mem_cons_self, hverified, rfl⟩
  | send recipient adminAlert =>
      obtain rfl := Option.some.inj h
      refine ⟨.inl ⟨rfl, rfl⟩, ?_⟩
      intro t ht
      rcases hnew ht with ht | rfl
      · exact .inl ht
      · exact .inr trivial
  | unsubscribe token =>
      simp only [step] at h
      split at h
      case h_2 => cases h
      case h_1 userId emailHash hok =>
        obtain rfl := Option.some.inj h
        refine ⟨.inr ⟨_, rfl, rfl, trivial⟩, ?_⟩
        intro t ht
        rcases hnew ht with ht | rfl
        · exact .inl ht
        · exact .inr ⟨token, s.now, List.mem_cons_self, hok⟩
  | unsuppress hash =>
      obtain rfl := Option.some.inj h
      exact ⟨.inr ⟨_, rfl, rfl, trivial⟩, fun t ht => .inl ht⟩
  | next i reply allowed =>
      obtain ⟨t, hi, rfl⟩ := Option.map_eq_some_iff.mp h
      obtain ⟨hrecorded, htask⟩ :=
        @runTask_spec env s t reply allowed (List.mem_of_getElem? hi)
      refine ⟨hrecorded, ?_⟩
      intro u hu
      rcases List.mem_append.mp hu with hu | hu
      · exact .inl (List.mem_of_mem_eraseIdx hu)
      · exact .inr (htask u (Option.mem_toList.mp hu))

/-- The list and the log change in step. -/
theorem isSome_rowsAfter (hash : List Char) (e : MailEntry)
    (h : (s.rows hash).isSome ↔ Listed env rows hash log) :
    (rowsAfter env s.rows e hash).isSome ↔ Listed env rows hash (e :: log) := by
  cases e with
  | added call =>
      by_cases heq : env.emailHash call.email = hash
      · simp [rowsAfter, Listed, heq]
      · simp [rowsAfter, Listed, heq, Function.update_of_ne (Ne.symm heq), h]
  | removed hash' =>
      by_cases heq : hash' = hash
      · simp [rowsAfter, Listed, heq]
      · simp [rowsAfter, Listed, heq, Function.update_of_ne (Ne.symm heq), h]
  | reported | requested | read | looked | delivered => exact h

/-- A send that has passed has passed later on. -/
theorem Passed.cons (h : Passed env rows id recipient log) (e : MailEntry) :
    Passed env rows id recipient (e :: log) := by
  obtain ⟨since, found, before, rfl, hfound⟩ := h
  exact ⟨e :: since, found, before, rfl, hfound⟩

/-- The invariant of the sends, from a list that was `rows`. -/
structure Guarded (env : MailEnv) (rows : List Char → Option Suppression) (s : MailWorld) :
    Prop where
  listed : ∀ hash, (s.rows hash).isSome ↔ Listed env rows hash s.log
  cleared : ∀ id recipient, .cleared id recipient false ∈ s.tasks →
    Passed env rows id recipient s.log
  delivered : ∀ later id recipient earlier,
    s.log = later ++ .delivered id recipient false :: earlier →
      Passed env rows id recipient earlier

/-- At the start nothing has been sent. -/
theorem Initial.guarded (h : s.Initial) : Guarded env s.rows s where
  listed hash := by
    rw [h.log]
    exact Iff.rfl
  cleared id recipient ht := by
    rw [h.tasks] at ht
    cases ht
  delivered later id recipient earlier hlog := by
    rw [h.log] at hlog
    simp at hlog

/-- A step keeps the invariant of the sends. -/
theorem Guarded.step {a : MailAction} (h : Guarded env rows s) (hstep : step env s a = some s') :
    Guarded env rows s' := by
  obtain ⟨hrecorded, htasks⟩ := step_spec hstep
  have hgrow : ∀ {id recipient}, Passed env rows id recipient s.log →
      Passed env rows id recipient s'.log := by
    intro id recipient hpassed
    rcases hrecorded with ⟨hlog, _⟩ | ⟨e, hlog, _, _⟩
    · rw [hlog]
      exact hpassed
    · rw [hlog]
      exact hpassed.cons e
  refine ⟨?_, ?_, ?_⟩
  · intro hash
    rcases hrecorded with ⟨hlog, hrows⟩ | ⟨e, hlog, hrows, _⟩
    · rw [hlog, hrows]
      exact h.listed hash
    · rw [hlog, hrows]
      exact isSome_rowsAfter hash e (h.listed hash)
  · intro id recipient ht
    rcases htasks _ ht with ht | hfrom | ⟨found, hlog, hfound⟩
    · exact hgrow (h.cleared id recipient ht)
    · cases hfrom
    · refine ⟨[], found, s.log, hlog, ?_⟩
      rcases hfound with hfound | ⟨hfound, hrow⟩
      · exact .inl hfound
      · refine .inr ⟨hfound, ?_⟩
        rw [← h.listed, hrow]
        simp
  · intro later id recipient earlier hsplit
    rcases hrecorded with ⟨hlog, _⟩ | ⟨e, hlog, _, hentry⟩
    · exact h.delivered later id recipient earlier (hlog ▸ hsplit)
    · rw [hlog] at hsplit
      rcases List.cons_eq_append_iff.mp hsplit with ⟨_, heq⟩ | ⟨later', _, heq⟩
      · obtain ⟨rfl, rfl⟩ := List.cons.inj heq
        exact h.cleared id recipient hentry
      · exact h.delivered later' id recipient earlier heq

/-- An address stays on the list until it is removed. -/
theorem listed_append {hash : List Char} {since : List MailEntry}
    (hkept : .removed hash ∉ since) (h : Listed env rows hash log) :
    Listed env rows hash (since ++ log) := by
  induction since with
  | nil => exact h
  | cons e since ih =>
      have hrest := ih (fun hmem => hkept (List.mem_cons_of_mem e hmem))
      cases e with
      | added call => exact .inr hrest
      | removed hash' =>
          refine ⟨?_, hrest⟩
          rintro rfl
          exact hkept List.mem_cons_self
      | reported | requested | read | looked | delivered => exact hrest

/-- **Who is suppressed gets no more mail**: an address that is on the list at some moment, in
whatever spelling, and is not removed after it, gets a message other than an admin alert only from
a send whose lookup failed or was answered before that moment. -/
theorem suppressed_gets_no_mail (run : Run (step env) (fun _ _ => True) s₀ s)
    (hinit : s₀.Initial) {later since moment : List MailEntry}
    (hlog : s.log = later ++ .delivered id recipient false :: (since ++ moment))
    (hlisted : Listed env s₀.rows (env.emailHash recipient) moment)
    (hkept : .removed (env.emailHash recipient) ∉ since) :
    .looked id recipient none ∈ since ++ moment ∨ .looked id recipient (some false) ∈ moment := by
  have hguarded : Guarded env s₀.rows s :=
    run.invariant (Guarded env s₀.rows) (fun _ _ _ hs _ hfire => hs.step hfire) hinit.guarded
  obtain ⟨since', found, before, hsplit, hfound⟩ := hguarded.delivered _ _ _ _ hlog
  rcases hfound with rfl | ⟨rfl, hunlisted⟩
  · left
    rw [hsplit]
    simp
  · rcases List.append_eq_append_iff.mp hsplit with ⟨mid, _, hmoment⟩ | ⟨mid, hsince, hbefore⟩
    · right
      rw [hmoment]
      simp
    · cases mid with
      | nil =>
          right
          rw [List.nil_append] at hbefore
          rw [← hbefore]
          exact List.mem_cons_self
      | cons e mid =>
          -- the lookup came after the moment, when the address was still on the list
          obtain ⟨rfl, rfl⟩ := List.cons.inj hbefore
          refine absurd (listed_append ?_ hlisted) hunlisted
          intro hmem
          apply hkept
          rw [hsince]
          exact List.mem_append_right _ (List.mem_cons_of_mem _ hmem)

/-- A complaint, with the signature of the secret `whsec_amFkd2FsLXdlYmhvb2stc2VjcmV0`. -/
def complaintRequest : WebhookRequest where
  rawBody := some (encodeUtf8
    ("\x7b\"type\":\"email.complained\",\"data\":\x7b\"to\":\"a@b.qa \"\x7d\x7d").toList)
  svixId := some "msg_1"
  svixTimestamp := some "0"
  svixSignature := some "v1,CfJojXrkEVOcftj7wNZfPkiQSK+UWNgKmCP/2YTJpz4="

/-- The secrets of the examples; a signature counts for five minutes. -/
def mailEnv : MailEnv where
  keys := mailKeys
  verify now body id timestamp signature :=
    if now ≤ 300000 ∧
        (⟨some body, some id, some timestamp, some signature⟩ : WebhookRequest) = complaintRequest
    then some (.complained, .one "a@b.qa ")
    else none

/-- One account, and an empty list. -/
def oneAccount : MailWorld where
  now := 0
  rows _ := none
  users := Function.update (fun _ => none) ['u'] (some "a@b.qa")

theorem oneAccount_initial : oneAccount.Initial := ⟨rfl, rfl⟩

/-- A complaint arrives between the lookup of a send and the call of the provider. -/
theorem suppressed_gets_no_mail_raced :
    ∃ s, Run (step mailEnv) (fun _ _ => True) oneAccount s ∧ ∃ moment,
      s.log = .delivered 0 "A@b.qa" false :: moment ∧
      Listed mailEnv oneAccount.rows (mailEnv.emailHash "A@b.qa") moment ∧
      (.looked 0 "A@b.qa" none ∈ moment ∨ .looked 0 "A@b.qa" (some false) ∈ moment) := by
  let moment : List MailEntry :=
    [.added ⟨"a@b.qa ", .complaint, none, none⟩, .reported complaintRequest 0,
      .looked 0 "A@b.qa" (some false)]
  obtain ⟨s, run, hs⟩ := @Run.of_execAll_test _ _ (step mailEnv) (fun _ _ => True) _
    [.send "A@b.qa" false, .next 0 .answered true, .webhook complaintRequest,
      .next 1 .answered true, .next 0 .answered true] oneAccount
    (fun s => s.log = .delivered 0 "A@b.qa" false :: moment) (by decide +kernel)
  have hlog : s.log = [] ++ .delivered 0 "A@b.qa" false :: ([] ++ moment) := of_decide_eq_true hs
  have hlisted : Listed mailEnv oneAccount.rows (mailEnv.emailHash "A@b.qa") moment :=
    .inl (by decide +kernel)
  have hlooked := suppressed_gets_no_mail run oneAccount_initial hlog hlisted (by simp)
  exact ⟨s, run, moment, hlog, hlisted, hlooked⟩

/-- The invariant of the list, from one that was `rows`. -/
structure Sourced (env : MailEnv) (rows : List Char → Option Suppression) (s : MailWorld) :
    Prop where
  reporting : ∀ calls, .reporting calls ∈ s.tasks → ∀ call ∈ calls, Reported env call s.log
  verified : ∀ userId emailHash, .verified userId emailHash ∈ s.tasks →
    ∃ token now, .requested token now ∈ s.log ∧
      verifyToken env.keys now token = .ok userId emailHash
  matched : ∀ email, .matched email ∈ s.tasks → Requested env email s.log
  held : ∀ hash row, s.rows hash = some row → rows hash = some row ∨
    ∃ call, env.emailHash call.email = hash ∧ row.reason = call.reason ∧
      row.bounceType = call.bounceType ∧
      (Reported env call s.log ∨ ∃ email, call = unsubscribeCall email ∧ Requested env email s.log)

/-- At the start every row is one of the start. -/
theorem Initial.sourced (h : s.Initial) : Sourced env s.rows s where
  reporting calls ht := by
    rw [h.tasks] at ht
    cases ht
  verified userId emailHash ht := by
    rw [h.tasks] at ht
    cases ht
  matched email ht := by
    rw [h.tasks] at ht
    cases ht
  held hash row hrow := .inl hrow

/-- The log only grows. -/
theorem Recorded.mem (h : Recorded env s s') {e : MailEntry} (he : e ∈ s.log) : e ∈ s'.log := by
  rcases h with ⟨hlog, _⟩ | ⟨_, hlog, _, _⟩
  · rw [hlog]
    exact he
  · rw [hlog]
    exact List.mem_cons_of_mem _ he

/-- What was reported stays reported. -/
theorem Reported.mono {call : SuppressCall} {log' : List MailEntry} (h : Reported env call log)
    (hgrow : ∀ e ∈ log, e ∈ log') : Reported env call log' := by
  obtain ⟨request, now, event, recipients, hmem, hverified, hcall⟩ := h
  exact ⟨request, now, event, recipients, hgrow _ hmem, hverified, hcall⟩

/-- What was requested stays requested. -/
theorem Requested.mono {email : String} {log' : List MailEntry} (h : Requested env email log)
    (hgrow : ∀ e ∈ log, e ∈ log') : Requested env email log' := by
  obtain ⟨token, now, userId, hmem, hok, hread⟩ := h
  exact ⟨token, now, userId, hgrow _ hmem, hok, hgrow _ hread⟩

/-- A row takes the reason and the type of the last call. -/
theorem upsert_reason (call : SuppressCall) (row : Option Suppression) :
    (call.upsert row).reason = call.reason ∧ (call.upsert row).bounceType = call.bounceType := by
  cases row with
  | none => exact ⟨rfl, rfl⟩
  | some row => exact ⟨rfl, rfl⟩

/-- A step keeps the invariant of the list. -/
theorem Sourced.step {a : MailAction} (h : Sourced env rows s) (hstep : step env s a = some s') :
    Sourced env rows s' := by
  obtain ⟨hrecorded, htasks⟩ := step_spec hstep
  have hgrow : ∀ e ∈ s.log, e ∈ s'.log := fun e he => hrecorded.mem he
  have hold : ∀ hash row, s.rows hash = some row → rows hash = some row ∨
      ∃ call, env.emailHash call.email = hash ∧ row.reason = call.reason ∧
        row.bounceType = call.bounceType ∧ (Reported env call s'.log ∨
          ∃ email, call = unsubscribeCall email ∧ Requested env email s'.log) := by
    intro hash row hrow
    rcases h.held hash row hrow with hrow | ⟨call, hhash, hreason, htype, hsource⟩
    · exact .inl hrow
    · refine .inr ⟨call, hhash, hreason, htype, ?_⟩
      rcases hsource with hsource | ⟨email, hcall, hsource⟩
      · exact .inl (hsource.mono hgrow)
      · exact .inr ⟨email, hcall, hsource.mono hgrow⟩
  refine ⟨?_, ?_, ?_, ?_⟩
  · intro calls ht call hcall
    rcases htasks _ ht with ht | ⟨request, now, event, recipients, hmem, hverified, rfl⟩ |
      ⟨first, ht⟩
    · exact (h.reporting calls ht call hcall).mono hgrow
    · exact ⟨request, now, event, recipients, hmem, hverified, hcall⟩
    · exact (h.reporting _ ht call (List.mem_cons_of_mem _ hcall)).mono hgrow
  · intro userId emailHash ht
    rcases htasks _ ht with ht | hfrom
    · obtain ⟨token, now, hmem, hok⟩ := h.verified userId emailHash ht
      exact ⟨token, now, hgrow _ hmem, hok⟩
    · exact hfrom
  · intro email ht
    rcases htasks _ ht with ht | ⟨userId, ht, hread⟩
    · exact (h.matched email ht).mono hgrow
    · obtain ⟨token, now, hmem, hok⟩ := h.verified _ _ ht
      exact ⟨token, now, userId, hgrow _ hmem, hok, hread⟩
  · intro hash row hrow
    rcases hrecorded with ⟨_, hrows⟩ | ⟨e, hlog, hrows, hentry⟩
    · rw [hrows] at hrow
      exact hold hash row hrow
    · rw [hrows] at hrow
      cases e with
      | reported | requested | read | looked | delivered => exact hold hash row hrow
      | removed hash' =>
          by_cases heq : hash = hash'
          · subst heq
            simp [rowsAfter] at hrow
          · rw [rowsAfter, Function.update_of_ne heq] at hrow
            exact hold hash row hrow
      | added call =>
          by_cases heq : hash = env.emailHash call.email
          · subst heq
            simp only [rowsAfter, Function.update_self, Option.some.injEq] at hrow
            subst hrow
            refine .inr ⟨call, rfl, (upsert_reason _ _).1, (upsert_reason _ _).2, ?_⟩
            rcases hentry with ⟨calls, ht⟩ | ⟨email, ht, rfl⟩
            · exact .inl ((h.reporting _ ht call List.mem_cons_self).mono hgrow)
            · exact .inr ⟨email, rfl, (h.matched email ht).mono hgrow⟩
          · rw [rowsAfter, Function.update_of_ne heq] at hrow
            exact hold hash row hrow

/-- **Every row has its reason**: what is on the list was there at the start, or says what a
verified webhook call reported about the address, or comes from an unsubscribe link that was valid
and named a user by the address the user had then. -/
theorem suppressed_for_a_reason (run : Run (step env) (fun _ _ => True) s₀ s)
    (hinit : s₀.Initial) {hash : List Char} {row : Suppression} (hrow : s.rows hash = some row) :
    s₀.rows hash = some row ∨
      ∃ call, env.emailHash call.email = hash ∧ row.reason = call.reason ∧
        row.bounceType = call.bounceType ∧
        (Reported env call s.log ∨
          ∃ email, call = unsubscribeCall email ∧ Requested env email s.log) := by
  have hsourced : Sourced env s₀.rows s :=
    run.invariant (Sourced env s₀.rows) (fun _ _ _ hs _ hfire => hs.step hfire) hinit.sourced
  exact hsourced.held hash row hrow

/-- A link that was mailed is followed, and its user has not moved. -/
theorem suppressed_for_a_reason_link :
    ∃ s row, Run (step mailEnv) (fun _ _ => True) oneAccount s ∧
      s.rows (mailEnv.emailHash "a@b.qa") = some row ∧
      ∃ call, row.reason = call.reason ∧ (Reported mailEnv call s.log ∨
        ∃ email, call = unsubscribeCall email ∧ Requested mailEnv email s.log) := by
  let row : Suppression := ⟨.manual, none, some "user_unsubscribe"⟩
  let token := generateToken mailKeys 0 ['u'] "a@b.qa"
  let asked : MailWorld :=
    { oneAccount with
      tasks := [.verified ['u'] (mailKeys.hashEmail "a@b.qa")]
      log := [.requested token 0] }
  have hread : verifyToken mailEnv.keys oneAccount.now token =
      .ok ['u'] (mailKeys.hashEmail "a@b.qa") :=
    verifyToken_in_time (by decide) (by decide) (by decide) (by decide) (by decide)
  have hasked : step mailEnv oneAccount (.unsubscribe token) = some asked := by
    rw [step, hread]
    rfl
  obtain ⟨s, rest, hs⟩ := @Run.of_execAll_test _ _ (step mailEnv) (fun _ _ => True) _
    [.next 0 .answered true, .next 0 .answered true] asked
    (fun s => s.rows (mailEnv.emailHash "a@b.qa") = some row) (by decide +kernel)
  have run := ((Run.nil oneAccount).snoc trivial hasked).trans rest
  have hrow : s.rows (mailEnv.emailHash "a@b.qa") = some row := of_decide_eq_true hs
  rcases suppressed_for_a_reason run oneAccount_initial hrow with
    hfirst | ⟨call, _, hreason, _, hsource⟩
  · cases hfirst
  · exact ⟨s, row, run, hrow, call, hreason, hsource⟩

end MailWorld

end Jadwal
