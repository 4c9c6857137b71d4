import Jadwal.Refunds
import Jadwal.Prices

/-!
# What a cancellation promises and what is decided

The refund `cancelBooking` suggests, which grows only where the wall clock brings the
deadline back (`suggestion_bounds`, `suggestion_le_iff`), and the calls of
`recordRefundDecision` as they interleave: each reads first and commits later, and the
guarded flip of the payment lets one of them through (`decided_once`).
-/

namespace Jadwal

open Outcome

variable {env : Env} {now : Instant} {db db' : Db}

/-! ## The suggestion -/

theorem refundPercentOf_bounds (env : Env) (policy : Option String) (hours : ℚ) :
    0 ≤ refundPercentOf env policy hours ∧ refundPercentOf env policy hours ≤ 100 := by
  simp only [refundPercentOf]
  split
  · norm_num
  · split
    · exact ⟨le_min (by norm_num) (le_max_left _ _), min_le_left _ _⟩
    · norm_num
  · split
    · norm_num
    · norm_num

/-- The percentage of a policy is the one before the deadline, or nothing. -/
theorem refundPercentOf_eq (env : Env) (policy : Option String) (hours : ℚ) :
    refundPercentOf env policy hours =
      if env.cancellationDeadlineHours ≤ hours then
        refundPercentOf env policy env.cancellationDeadlineHours
      else 0 := by
  by_cases hahead : env.cancellationDeadlineHours ≤ hours
  · simp only [refundPercentOf, hahead, le_refl, if_true]
  · simp only [refundPercentOf, hahead, if_false]
    split <;> rfl

/-- A percentage of an amount, to hundredths. -/
def percentOf (amount : Cents) (percent : ℚ) : Cents :=
  toCents (amount.toNum * percent / 100)

theorem percentOf_bounds {amount : Cents} {percent : ℚ} (hamount : 0 ≤ amount)
    (h : 0 ≤ percent ∧ percent ≤ 100) :
    0 ≤ percentOf amount percent ∧ percentOf amount percent ≤ amount := by
  have hnum := Cents.toNum_nonneg hamount
  have hraw : 0 ≤ amount.toNum * percent / 100 :=
    div_nonneg (mul_nonneg hnum h.1) (by norm_num)
  refine ⟨toCents_nonneg hraw, toCents_le ?_⟩
  have hmul := mul_le_mul_of_nonneg_left h.2 hnum
  linarith

theorem percentOf_zero (amount : Cents) : percentOf amount 0 = 0 := by
  norm_num [percentOf, toCents, mathRound]

/-- The time left to the start of a booking, on the wall clock of its activity. -/
def timeToStart (env : Env) (now : Instant) (db : Db) (b : Booking) : Instant :=
  b.startDatetime - nowInTimezone env (activityTimezone db b.activityId) now

/-- What a cancellation suggests is a percentage of what was paid, by the policy of the
activity and the time left. -/
theorem cancelRead_suggestion {userId bookingId : Id} {r : CancelRead}
    (h : cancelRead env now db userId bookingId = .ok r) :
    db.bookings.find? bookingId = some r.booking ∧
      r.payment = r.booking.paymentId.bind (fun id => db.payments.find? id) ∧
      r.suggestedRefund = percentOf ((r.payment.map Payment.amount).getD 0)
        (refundPercentOf env
          ((db.activities.find? r.booking.activityId).bind Activity.cancellationPolicy)
          ((timeToStart env now db r.booking : ℚ) / (hour : ℚ))) := by
  simp only [cancelRead, bind_eq_ok, orThrow_eq_ok, ensure_eq_ok, pure_eq_ok] at h
  obtain ⟨b, hb, _, _, _, _, _, _, rfl⟩ := h
  exact ⟨(Option.filter_eq_some_iff.mp hb).1, rfl, rfl⟩

/-- **The suggestion lies between nothing and what was paid.** -/
theorem suggestion_bounds {userId bookingId : Id} {r : CancelRead} {payment : Payment}
    (h : cancelRead env now db userId bookingId = .ok r) (hpayment : r.payment = some payment)
    (hpaid : 0 ≤ payment.amount) :
    0 ≤ r.suggestedRefund ∧ r.suggestedRefund ≤ payment.amount := by
  obtain ⟨_, _, hsuggested⟩ := cancelRead_suggestion h
  rw [hsuggested, hpayment]
  exact percentOf_bounds hpaid (refundPercentOf_bounds _ _ _)

/-- The cancellation deadline of a booking is still ahead, on the wall clock of its
activity. -/
def deadlineAhead (env : Env) (now : Instant) (db : Db) (b : Booking) : Prop :=
  env.cancellationDeadlineHours ≤ (timeToStart env now db b : ℚ) / (hour : ℚ)

/-- What the policy of a booking's activity pays back before the deadline. -/
def refundBeforeDeadline (env : Env) (db : Db) (b : Booking) (amount : Cents) : Cents :=
  percentOf amount (refundPercentOf env
    ((db.activities.find? b.activityId).bind Activity.cancellationPolicy)
    env.cancellationDeadlineHours)

/-- The deadline has passed at `now` and is ahead again at `now'`, and the policy pays
something before it. -/
structure RefundRevived (env : Env) (db : Db) (b : Booking) (amount : Cents)
    (now now' : Instant) : Prop where
  passed : ¬ deadlineAhead env now db b
  again : deadlineAhead env now' db b
  pays : 0 < refundBeforeDeadline env db b amount

/-- Only a clock that is set back brings a deadline back. -/
theorem not_refundRevived_of_clock {now' : Instant} {b : Booking} {amount : Cents}
    (hclock : nowInTimezone env (activityTimezone db b.activityId) now ≤
      nowInTimezone env (activityTimezone db b.activityId) now') :
    ¬ RefundRevived env db b amount now now' := by
  intro h
  refine h.passed (h.again.trans ?_)
  have hhour : (0 : ℚ) < (hour : ℚ) := by decide
  have hle : timeToStart env now' db b ≤ timeToStart env now db b := by
    exact Int.sub_le_sub_left hclock _
  exact div_le_div_of_nonneg_right (by exact_mod_cast hle) hhour.le

/-- The suggestion is what the policy pays before the deadline, or nothing. -/
theorem suggestion_eq {userId bookingId : Id} {r : CancelRead} {payment : Payment}
    (h : cancelRead env now db userId bookingId = .ok r) (hpayment : r.payment = some payment) :
    (deadlineAhead env now db r.booking →
      r.suggestedRefund = refundBeforeDeadline env db r.booking payment.amount) ∧
    (¬ deadlineAhead env now db r.booking → r.suggestedRefund = 0) := by
  obtain ⟨_, _, hsuggested⟩ := cancelRead_suggestion h
  rw [hsuggested, hpayment, refundPercentOf_eq]
  constructor
  · intro hahead
    rw [if_pos (show _ ≤ _ from hahead)]
    rfl
  · intro hpassed
    rw [if_neg (show ¬ _ ≤ _ from hpassed)]
    exact percentOf_zero _

/-- **It grows exactly when the deadline comes back.** -/
theorem suggestion_le_iff {now' : Instant} {userId bookingId : Id} {r r' : CancelRead}
    {payment : Payment} (h : cancelRead env now db userId bookingId = .ok r)
    (h' : cancelRead env now' db userId bookingId = .ok r') (hpayment : r.payment = some payment)
    (hpaid : 0 ≤ payment.amount) :
    r'.suggestedRefund ≤ r.suggestedRefund ↔
      ¬ RefundRevived env db r.booking payment.amount now now' := by
  obtain ⟨hb, hp, _⟩ := cancelRead_suggestion h
  obtain ⟨hb', hp', _⟩ := cancelRead_suggestion h'
  have hbooking : r'.booking = r.booking := Option.some.inj (hb'.symm.trans hb)
  have hpayment' : r'.payment = some payment := by
    rw [hp', hbooking, ← hp, hpayment]
  have hnow := suggestion_eq h hpayment
  have hthen := suggestion_eq h' hpayment'
  rw [hbooking] at hthen
  have hpositive : 0 ≤ r.suggestedRefund := (suggestion_bounds h hpayment hpaid).1
  by_cases hahead' : deadlineAhead env now' db r.booking
  · rw [hthen.1 hahead']
    by_cases hahead : deadlineAhead env now db r.booking
    · rw [hnow.1 hahead]
      exact ⟨fun _ hrevived => hrevived.passed hahead, fun _ => le_refl _⟩
    · rw [hnow.2 hahead, ← not_lt]
      exact not_congr ⟨fun hpays => ⟨hahead, hahead', hpays⟩, fun hrevived => hrevived.pays⟩
  · rw [hthen.2 hahead']
    exact ⟨fun _ hrevived => hahead' hrevived.again, fun _ => hpositive⟩

/-- What a paid cancel leaves on the payment: the suggestion, when there is one. -/
theorem cancelPaid_refundAmount {r : CancelRead} {payment : Payment}
    (h : cancelPaid now db r payment = .ok db') :
    ∃ q, db'.payments.find? payment.id = some q ∧ q.status = .refundPending ∧
      q.refundAmount = (if r.suggestedRefund > 0 then some r.suggestedRefund else none) := by
  simp only [cancelPaid, bind_eq_ok, pure_eq_ok] at h
  obtain ⟨db₁, hupdate, db₂, hflip, db₃, hreturn, rfl⟩ := h
  obtain ⟨_, e₁, _⟩ := updateBooking_ok hupdate
  obtain ⟨⟨q, hq, _⟩, e₂⟩ := flipPayment_ok hflip
  have e₃ := (returnPointsOf_ok hreturn).1
  have hframe := refundCouponUsage_frame now db₃ r.booking.couponCode r.userId
  rw [hframe.payments, e₃.payments, e₂.payments]
  refine ⟨{ q with
    status := .refundPending
    refundAmount := if r.suggestedRefund > 0 then some r.suggestedRefund else none }, ?_,
    rfl, rfl⟩
  refine (Table.find?_update _ _ _ _ _).trans ?_
  rw [if_pos rfl, hq]
  rfl

/-! ## One decision -/

/-- The payment as a decision leaves it. -/
def DecisionRead.settle (r : DecisionRead) (now : Instant) (q : Payment) : Payment :=
  { q with
    status := if r.action = .approve then .refunded else .rejected
    refundAmount := if r.action = .approve then some r.finalAmount else none
    refundedAt := some now }

/-- The points a decision is worth. -/
def DecisionRead.points (config : LoyaltyConfig) (r : DecisionRead) : Cents :=
  if r.action = .approve ∧ r.finalAmount > 0 then refundPointsOf config r.finalAmount else 0

/-- The ledger entries of a decision. -/
def DecisionRead.credit (config : LoyaltyConfig) (r : DecisionRead) : List Entry :=
  if 0 < r.points config then
    [⟨r.booking.customerId, r.points config, approvedSource r.actor, some r.booking.id⟩]
  else []

/-- What the entries add to the balance of a user. -/
def creditedTo (u : Id) (es : List Entry) : Cents :=
  (es.map (fun e => if u = e.userId then e.delta else 0)).sum

theorem creditedTo_append (u : Id) (es es' : List Entry) :
    creditedTo u (es ++ es') = creditedTo u es + creditedTo u es' := by
  simp [creditedTo]

/-- The rate decisions convert at: the singleton row, or its defaults. -/
def Db.loyaltyRates (db : Db) : LoyaltyConfig := db.loyaltyConfig.getD {}

/-- What a committed decision does. -/
structure DecisionMade (now : Instant) (db db' : Db) (r : DecisionRead) : Prop where
  queued : ∃ q, db.payments.find? r.paymentId = some q ∧ q.status = .refundPending
  payment : ∀ id, db'.payments.find? id =
    if id = r.paymentId then (db.payments.find? id).map (r.settle now)
    else db.payments.find? id
  booking : ∀ id, (db'.bookings.find? id).map (fun b => (b.id, b.paymentId)) =
    (db.bookings.find? id).map (fun b => (b.id, b.paymentId))
  entries : db'.entries = db.entries ++ r.credit db.loyaltyRates
  balance : ∀ u, db'.balanceOf u = db.balanceOf u + creditedTo u (r.credit db.loyaltyRates)
  rates : db'.loyaltyRates = db.loyaltyRates

theorem creditRefund_credits {customerId bookingId : Id} {points : Cents}
    {actor : CancelActor} {actorId : Option Id} {note : String}
    (h : creditRefund db customerId bookingId points actor actorId note = .ok db') :
    db'.payments = db.payments ∧ db'.bookings = db.bookings ∧
      db'.loyaltyConfig = db.loyaltyConfig ∧
      ∃ es, es = (if 0 < points then
          [⟨customerId, points, approvedSource actor, some bookingId⟩] else []) ∧
        db'.entries = db.entries ++ es ∧
        ∀ u, db'.balanceOf u = db.balanceOf u + creditedTo u es := by
  unfold creditRefund at h
  split at h
  · rename_i hpos
    simp only [bind_eq_ok, pure_eq_ok] at h
    obtain ⟨balance, hrefund, rfl⟩ := h
    obtain ⟨_, hposted⟩ := Loyalty.refund_posts hrefund
    rw [Loyalty.round2_toNum] at hposted
    have effect := hposted.effect
    refine ⟨effect.payments, effect.bookings, ?_, _, (if_pos hpos).symm,
      effect.writes.entries, fun u => ?_⟩
    · obtain ⟨_, _, _, hdb⟩ := hposted.moved
      rw [hdb]
    · rw [hposted.balanceOf]
      simp [creditedTo]
  · rename_i hpos
    cases h
    refine ⟨rfl, rfl, rfl, _, (if_neg hpos).symm, (List.append_nil _).symm, fun u => ?_⟩
    exact (add_zero _).symm

theorem decisionCommit_made {r : DecisionRead} (h : decisionCommit now db r = .ok db') :
    DecisionMade now db db' r := by
  simp only [decisionCommit, bind_eq_ok] at h
  obtain ⟨db₁, hflip, db₂, hupdate, hcredit⟩ := h
  simp only [flipPayment, updateBooking, bind_eq_ok, orThrow_eq_ok, pure_eq_ok,
    Option.filter_eq_some_iff, decide_eq_true_eq] at hflip hupdate
  obtain ⟨q, hq, rfl⟩ := hflip
  obtain ⟨b, hb, rfl⟩ := hupdate
  obtain ⟨hpayments, hbookings, hconfig, _, rfl, hentries, hbalance⟩ :=
    creditRefund_credits hcredit
  refine ⟨⟨q, hq⟩, fun id => ?_, fun id => ?_, hentries, hbalance, ?_⟩
  · rw [hpayments]
    exact Table.find?_update db.payments r.paymentId (r.settle now) (fun _ => rfl) id
  · rw [hbookings]
    apply Table.find?_update_map
    · intro b
      rfl
    · intro b
      rfl
  · simp only [Db.loyaltyRates, hconfig]
    rfl

/-! ## Interleaved decisions -/

/-- The clock, the database, the calls of `recordRefundDecision` between their reads and
their transactions, and the decisions that were committed, in their order. -/
structure DecisionDesk where
  now : Instant
  db : Db
  inflight : List DecisionRead
  decided : List DecisionRead

inductive DecisionStep
  | tick (elapsed : Nat)
  | read (userId : Id) (role : UserRole) (bookingId : Id) (action : DecisionAction)
      (amount : Option ℚ) (note : Option String)
  | commit (index : Nat)

/-- A call whose reads throw ends there; one whose transaction throws is rolled back. -/
def DecisionDesk.step (w : DecisionDesk) : DecisionStep → Option DecisionDesk
  | .tick elapsed => some { w with now := w.now + elapsed }
  | .read userId role bookingId action amount note =>
      match decisionRead w.db userId role bookingId action amount note with
      | .ok r => some { w with inflight := w.inflight ++ [r] }
      | .error _ => some w
  | .commit index => (w.inflight[index]?).map fun r =>
      match decisionCommit w.now w.db r with
      | .ok db => { w with
          db := db
          inflight := w.inflight.eraseIdx index
          decided := w.decided ++ [r] }
      | .error _ => { w with inflight := w.inflight.eraseIdx index }

/-- What a step of a run of decisions is. -/
inductive DecisionDesk.Took (w : DecisionDesk) : DecisionDesk → Prop
  | idle (now : Instant) (inflight : List DecisionRead)
      (kept : ∀ r ∈ inflight, r ∈ w.inflight) :
      Took w { w with now := now, inflight := inflight }
  | read (r : DecisionRead) (userId : Id) (role : UserRole) (bookingId : Id)
      (action : DecisionAction) (amount : Option ℚ) (note : Option String)
      (accepted : decisionRead w.db userId role bookingId action amount note = .ok r) :
      Took w { w with inflight := w.inflight ++ [r] }
  | decide (r : DecisionRead) (db : Db) (inflight : List DecisionRead)
      (mem : r ∈ w.inflight) (kept : ∀ r ∈ inflight, r ∈ w.inflight)
      (made : DecisionMade w.now w.db db r) :
      Took w ⟨w.now, db, inflight, w.decided ++ [r]⟩

theorem DecisionDesk.step_took {w w' : DecisionDesk} {a : DecisionStep}
    (h : w.step a = some w') : w.Took w' := by
  cases a with
  | tick elapsed =>
      cases h
      exact .idle _ _ fun _ hr => hr
  | read userId role bookingId action amount note =>
      simp only [DecisionDesk.step] at h
      split at h
      · rename_i hread
        cases h
        exact .read _ _ _ _ _ _ _ hread
      · cases h
        exact .idle _ _ fun _ hr => hr
  | commit index =>
      obtain ⟨r, hr, rfl⟩ := Option.map_eq_some_iff.mp h
      have hkept : ∀ r ∈ w.inflight.eraseIdx index, r ∈ w.inflight :=
        fun _ => List.mem_of_mem_eraseIdx
      split
      · rename_i hcommit
        exact .decide _ _ _ (List.mem_of_getElem? hr) hkept (decisionCommit_made hcommit)
      · exact .idle _ _ hkept

/-- What an accepted read relies on: its booking still names its payment, and an approved
amount lies within it. -/
structure DecisionRead.Relies (db : Db) (r : DecisionRead) : Prop where
  linked : (db.bookings.find? r.booking.id).map (fun b => (b.id, b.paymentId)) =
    some (r.booking.id, some r.paymentId)
  within : ∃ q, db.payments.find? r.paymentId = some q ∧
    (r.action = .approve → 0 ≤ r.finalAmount ∧ r.finalAmount ≤ q.amount)

theorem decisionRead_within {userId bookingId : Id} {role : UserRole}
    {action : DecisionAction} {amount : Option ℚ} {note : Option String} {r : DecisionRead}
    (h : decisionRead db userId role bookingId action amount note = .ok r) : r.Relies db := by
  simp only [decisionRead, bind_eq_ok, orThrow_eq_ok, ensure_eq_ok, pure_eq_ok] at h
  obtain ⟨b, hb, q, hq, _, _, _, _, _, _, final, hfinal, rfl⟩ := h
  obtain ⟨_, hlink, hq⟩ := Option.bind_eq_some_iff.mp hq
  obtain rfl := (Table.find?_eq_some.mp hb).2
  obtain rfl := (Table.find?_eq_some.mp hq).2
  refine ⟨(congrArg _ hb).trans (congrArg (fun p => some (b.id, p)) hlink), q, hq,
    fun haction => ?_⟩
  simp only at haction
  subst haction
  simp only [bind_eq_ok, orThrow_eq_ok, ensure_eq_ok, pure_eq_ok] at hfinal
  obtain ⟨x, _, _, hpos, _, hle, rfl⟩ := hfinal
  exact ⟨toCents_nonneg hpos, toCents_le hle⟩

/-- A decision keeps what the other calls rely on. -/
theorem DecisionRead.Relies.keep {r r' : DecisionRead} (h : r.Relies db)
    (made : DecisionMade now db db' r') : r.Relies db' := by
  obtain ⟨q, hq, hwithin⟩ := h.within
  refine ⟨(made.booking _).trans h.linked, ?_⟩
  rw [made.payment, hq]
  split
  · exact ⟨_, rfl, hwithin⟩
  · exact ⟨q, rfl, hwithin⟩

/-- How a decision left its payment. -/
def DecisionRead.Recorded (db : Db) (r : DecisionRead) : Prop :=
  ∃ q, db.payments.find? r.paymentId = some q ∧
    q.status = (if r.action = .approve then .refunded else .rejected) ∧
    q.refundAmount = (if r.action = .approve then some r.finalAmount else none) ∧
    ∀ amount ∈ q.refundAmount, 0 ≤ amount ∧ amount ≤ q.amount

theorem DecisionMade.recorded {r : DecisionRead} (made : DecisionMade now db db' r)
    (h : r.Relies db) : r.Recorded db' := by
  obtain ⟨q, hq, hwithin⟩ := h.within
  refine ⟨r.settle now q, ?_, rfl, rfl, ?_⟩
  · rw [made.payment, if_pos rfl, hq]
    rfl
  · intro amount hamount
    simp only [DecisionRead.settle] at hamount
    split at hamount
    · rename_i happrove
      cases hamount
      exact hwithin happrove
    · cases hamount

/-- A decided payment is no longer queued. -/
theorem DecisionRead.Recorded.not_queued {r : DecisionRead} (h : r.Recorded db) :
    ∀ q, db.payments.find? r.paymentId = some q → q.status ≠ .refundPending := by
  intro q hq
  obtain ⟨q', hq', hstatus, _⟩ := h
  obtain rfl := Option.some.inj (hq'.symm.trans hq)
  rw [hstatus]
  split <;> exact fun hne => by cases hne

theorem DecisionRead.Recorded.keep {r r' : DecisionRead} (h : r.Recorded db)
    (made : DecisionMade now db db' r') : r.paymentId ≠ r'.paymentId ∧ r.Recorded db' := by
  obtain ⟨q, hq, hqueued⟩ := made.queued
  have hne : r.paymentId ≠ r'.paymentId :=
    fun he => h.not_queued q (by rw [he, hq]) hqueued
  refine ⟨hne, ?_⟩
  obtain ⟨q', hq', hrest⟩ := h
  exact ⟨q', by rw [made.payment, if_neg hne, hq'], hrest⟩

/-! ## Runs of decisions -/

/-- The decisions that took `db₀` to `db` are of different payments and bookings, each is
recorded and credited once, and nothing else is credited. -/
structure DecidedOnce (db₀ db : Db) (decided : List DecisionRead) : Prop where
  payments : (decided.map DecisionRead.paymentId).Nodup
  bookings : (decided.map (fun r => r.booking.id)).Nodup
  recorded : ∀ r ∈ decided, r.Recorded db
  entries : db.entries = db₀.entries ++ decided.flatMap (DecisionRead.credit db₀.loyaltyRates)
  balance : ∀ u, db.balanceOf u = db₀.balanceOf u +
    creditedTo u (decided.flatMap (DecisionRead.credit db₀.loyaltyRates))

/-- The invariant of the runs. -/
structure DecisionDesk.Sound (db₀ : Db) (w : DecisionDesk) : Prop where
  once : DecidedOnce db₀ w.db w.decided
  reads : ∀ r ∈ w.inflight, r.Relies w.db
  linked : ∀ r ∈ w.decided, r.Relies w.db
  rates : w.db.loyaltyRates = db₀.loyaltyRates

theorem DecisionDesk.Sound.step {w w' : DecisionDesk} (h : w.Sound db) (took : w.Took w') :
    w'.Sound db := by
  cases took with
  | idle now inflight kept =>
      exact ⟨h.once, fun r hr => h.reads r (kept r hr), h.linked, h.rates⟩
  | read r userId role bookingId action amount note accepted =>
      refine ⟨h.once, fun r' hr' => ?_, h.linked, h.rates⟩
      rcases List.mem_append.mp hr' with hold | hnew
      · exact h.reads r' hold
      · obtain rfl := List.mem_singleton.mp hnew
        exact decisionRead_within accepted
  | decide r db' inflight mem kept made =>
      have hrelies := h.reads r mem
      -- a payment decided before is not queued, so this decision is of another one
      have hother : ∀ r' ∈ w.decided, r'.paymentId ≠ r.paymentId ∧ r'.Recorded db' :=
        fun r' hr' => (h.once.recorded r' hr').keep made
      have hpayments : ((w.decided ++ [r]).map DecisionRead.paymentId).Nodup := by
        rw [List.map_append, List.nodup_append]
        refine ⟨h.once.payments, List.nodup_singleton _, ?_⟩
        intro id hid id' hid'
        obtain ⟨r', hr', rfl⟩ := List.mem_map.mp hid
        obtain rfl := List.mem_singleton.mp hid'
        exact (hother r' hr').1
      have hbookings : ((w.decided ++ [r]).map (fun r => r.booking.id)).Nodup := by
        rw [List.map_append, List.nodup_append]
        refine ⟨h.once.bookings, List.nodup_singleton _, ?_⟩
        intro id hid id' hid' hsame
        obtain ⟨r', hr', rfl⟩ := List.mem_map.mp hid
        obtain rfl := List.mem_singleton.mp hid'
        -- one booking names one payment
        have hlinked := (h.linked r' hr').linked
        simp only at hsame
        rw [hsame, hrelies.linked] at hlinked
        simp only [Option.some.injEq, Prod.mk.injEq, true_and] at hlinked
        exact (hother r' hr').1 hlinked.symm
      refine ⟨⟨hpayments, hbookings, ?_, ?_, ?_⟩,
        fun r' hr' => (h.reads r' (kept r' hr')).keep made, ?_, made.rates.trans h.rates⟩
      · intro r' hr'
        rcases List.mem_append.mp hr' with hold | hnew
        · exact (hother r' hold).2
        · obtain rfl := List.mem_singleton.mp hnew
          exact made.recorded hrelies
      · rw [made.entries, h.once.entries, h.rates, List.flatMap_append, List.append_assoc]
        simp
      · intro u
        rw [made.balance, h.once.balance, h.rates, List.flatMap_append, creditedTo_append,
          add_assoc]
        simp
      · intro r' hr'
        rcases List.mem_append.mp hr' with hold | hnew
        · exact (h.linked r' hold).keep made
        · obtain rfl := List.mem_singleton.mp hnew
          exact hrelies.keep made

theorem decisions_sound {w₀ w : DecisionDesk} (hidle : w₀.inflight = [])
    (hnone : w₀.decided = []) (run : Run DecisionDesk.step (fun _ _ => True) w₀ w) :
    w.Sound w₀.db := by
  refine run.invariant (DecisionDesk.Sound w₀.db)
    (fun w a w' h _ hstep => h.step (DecisionDesk.step_took hstep)) ?_
  refine ⟨⟨?_, ?_, ?_, ?_, ?_⟩, ?_, ?_, rfl⟩
  all_goals simp [hidle, hnone, creditedTo]

/-- **A cancellation promises between nothing and what was paid**, and a later one promises
no more unless the wall clock of the activity brings the deadline back; **of the decisions on
it one takes effect.** -/
theorem refund_promised_and_decided_once (env : Env) :
    (∀ now db userId bookingId r payment, cancelRead env now db userId bookingId = .ok r →
      r.payment = some payment → 0 ≤ payment.amount →
        0 ≤ r.suggestedRefund ∧ r.suggestedRefund ≤ payment.amount ∧
        (∀ now' r', now ≤ now' → cancelRead env now' db userId bookingId = .ok r' →
          (r'.suggestedRefund ≤ r.suggestedRefund ↔
            ¬ RefundRevived env db r.booking payment.amount now now') ∧
          (nowInTimezone env (activityTimezone db r.booking.activityId) now ≤
              nowInTimezone env (activityTimezone db r.booking.activityId) now' →
            r'.suggestedRefund ≤ r.suggestedRefund)) ∧
        ∀ now' db₁ db', cancelPaid now' db₁ r payment = .ok db' →
          ∃ q, db'.payments.find? payment.id = some q ∧ q.status = .refundPending ∧
            q.refundAmount = (if r.suggestedRefund > 0 then some r.suggestedRefund else none)) ∧
    ∀ w₀ w : DecisionDesk, w₀.inflight = [] → w₀.decided = [] →
      Run DecisionDesk.step (fun _ _ => True) w₀ w → DecidedOnce w₀.db w.db w.decided := by
  refine ⟨fun now db userId bookingId r payment hread hpayment hpaid => ?_, ?_⟩
  · obtain ⟨hpos, hle⟩ := suggestion_bounds hread hpayment hpaid
    refine ⟨hpos, hle, fun now' r' _ hread' => ?_, fun _ _ _ => cancelPaid_refundAmount⟩
    have hiff := suggestion_le_iff hread hread' hpayment hpaid
    exact ⟨hiff, fun hclock => hiff.mpr (not_refundRevived_of_clock hclock)⟩
  · intro w₀ w hidle hnone run
    exact (decisions_sound hidle hnone run).once

/-! London sets its clock back an hour at 01:00 UTC of 27 October 2030. -/

def londonEnv : Env where
  sha256 := fun _ => ""
  zoneOffset := fun tz t =>
    if tz = "Europe/London" then
      some (if t < (⟨2030, 10, 27⟩ : CivilDate).midnight + hour then hour else 0)
    else if tz = "UTC" then some 0 else none

/-- A paid booking for 28 October 2030, ten to two. -/
def londonBooking : Booking where
  id := 101
  ref := "JDW"
  activityId := 7
  vendorId := 4
  customerId := 1
  startDatetime := (⟨2030, 10, 28⟩ : CivilDate).midnight + 110 * minute
  endDatetime := (⟨2030, 10, 28⟩ : CivilDate).midnight + 170 * minute
  guests := 1
  totalPrice := 10000
  status := .confirmed
  paymentId := some 11
  createdAt := 0

def londonPayment : Payment where
  id := 11
  amount := 10000
  status := .success
  method := "CARD"
  createdAt := 0

def london : Db :=
  { market.db with
    countries := ⟨[{ id := 5, defaultTimezone := "Europe/London" }], by decide⟩
    bookings := ⟨[londonBooking], by decide⟩
    payments := ⟨[londonPayment], by decide⟩ }

/-- The minutes past midnight, UTC, of the night the clock is set back. -/
def londonNight (minutes : Nat) : Instant :=
  (⟨2030, 10, 27⟩ : CivilDate).midnight + minutes * minute

/-- The refund a cancellation at that minute suggests. -/
def londonRefund (minutes : Nat) : Option (Option Payment × Cents) :=
  (cancelRead londonEnv (londonNight minutes) london 1 101).toOption.map
    (fun r => (r.payment, r.suggestedRefund))

/-- Five to two is too late for a refund; twenty minutes later it is a quarter past one,
and the refund is full. -/
theorem refund_revived :
    ∃ r r' : CancelRead, cancelRead londonEnv (londonNight 55) london 1 101 = .ok r ∧
      cancelRead londonEnv (londonNight 75) london 1 101 = .ok r' ∧
      londonNight 55 ≤ londonNight 75 ∧ r.payment = some londonPayment ∧
      0 ≤ londonPayment.amount ∧ ¬ r'.suggestedRefund ≤ r.suggestedRefund := by
  have hearly : londonRefund 55 = some (some londonPayment, 0) := by decide +kernel
  have hlate : londonRefund 75 = some (some londonPayment, 10000) := by decide +kernel
  simp only [londonRefund, Option.map_eq_some_iff, toOption_eq_some, Prod.mk.injEq] at hearly hlate
  obtain ⟨r, hr, hpayment, hrefund⟩ := hearly
  obtain ⟨r', hr', _, hrefund'⟩ := hlate
  refine ⟨r, r', hr, hr', by decide, hpayment, by decide, ?_⟩
  rw [hrefund, hrefund']
  decide

/-- A quarter past one on the clock set back promises the full amount, five to two no more than
that; and of two administrators who both read a queued refund one decides it. -/
theorem refund_promised_and_decided_once_london :
    (∃ r r' : CancelRead, cancelRead londonEnv (londonNight 75) london 1 101 = .ok r ∧
      cancelRead londonEnv (londonNight 115) london 1 101 = .ok r' ∧
      0 ≤ r'.suggestedRefund ∧ r'.suggestedRefund ≤ r.suggestedRefund ∧
      r.suggestedRefund ≤ londonPayment.amount) ∧
    ∃ (db : Db) (w : DecisionDesk), w.decided.map DecisionRead.finalAmount = [2000] ∧
      DecidedOnce db w.db w.decided := by
  constructor
  · have hread : ∀ minutes, minutes = 75 ∨ minutes = 115 →
        ∃ r, cancelRead londonEnv (londonNight minutes) london 1 101 = .ok r ∧
          r.payment = some londonPayment ∧ r.booking.activityId = 7 := by
      have hboth : ∀ minutes ∈ [75, 115],
          (cancelRead londonEnv (londonNight minutes) london 1 101).toOption.map
            (fun r => (r.payment, r.booking.activityId)) = some (some londonPayment, 7) := by
        decide +kernel
      intro minutes hminutes
      have hsome := hboth minutes (by simpa using hminutes)
      simpa only [Option.map_eq_some_iff, toOption_eq_some, Prod.mk.injEq] using hsome
    obtain ⟨r, hr, hpayment, hid⟩ := hread 75 (.inl rfl)
    obtain ⟨r', hr', hpayment', _⟩ := hread 115 (.inr rfl)
    obtain ⟨_, hle, hlater, _⟩ := (refund_promised_and_decided_once londonEnv).1 _ _ _ _ _ _ hr
      hpayment (by decide)
    obtain ⟨hpos, _⟩ := (refund_promised_and_decided_once londonEnv).1 _ _ _ _ _ _ hr'
      hpayment' (by decide)
    refine ⟨r, r', hr, hr', hpos, (hlater _ r' (by decide) hr').2 ?_, hle⟩
    rw [hid]
    decide +kernel
  · have h : ((execAll (Sys.step marketEnv) (fun _ _ => True) market
        (capturedRun ++ [.begin (.cancelBooking 1 101), .run 0])).bind fun s =>
          (execAll DecisionDesk.step (fun _ _ => True) ⟨s.now, s.db, [], []⟩
            [.read 9 .admin 101 .approve (some 20) none, .read 8 .admin 101 .reject none none,
              .commit 0, .commit 0]).bind fun w =>
                if w.decided.map DecisionRead.finalAmount = [2000] then some () else none) =
        some () := by
      decide +kernel
    simp only [Option.bind_eq_some_iff, Option.ite_none_right_eq_some] at h
    obtain ⟨s, _, w, hrun, hdecided, _⟩ := h
    exact ⟨s.db, w, hdecided, (refund_promised_and_decided_once marketEnv).2
      ⟨s.now, s.db, [], []⟩ w rfl rfl (.of_execAll _ hrun)⟩

end Jadwal
