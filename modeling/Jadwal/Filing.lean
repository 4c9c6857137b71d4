import Jadwal.Effects

/-!
# The dossiers of a database

The abstraction from a database to dossiers, the wiring of bookings and
payments that makes the abstraction compute, and the rules that turn an
effect on the tables into a move on every dossier.
-/

namespace Jadwal

/-! ## Points -/

/-- The sum of the entries of a booking that come from the given sources. -/
def sumOf (es : List Entry) (sources : List LoyaltyLedgerSource) (bookingId : Id) : Cents :=
  (es.map (fun e =>
    if e.bookingId = some bookingId ∧ e.source ∈ sources then e.delta else 0)).sum

/-- The entries of a user. -/
def entriesOf (es : List Entry) (userId : Id) : List Entry :=
  es.filter (fun e => e.userId = userId)

@[simp] theorem sumOf_nil (sources : List LoyaltyLedgerSource) (k : Id) :
    sumOf [] sources k = 0 := rfl

@[simp] theorem sumOf_append (es es' : List Entry) (sources : List LoyaltyLedgerSource)
    (k : Id) : sumOf (es ++ es') sources k = sumOf es sources k + sumOf es' sources k := by
  simp [sumOf]

@[simp] theorem sumOf_singleton (e : Entry) (sources : List LoyaltyLedgerSource) (k : Id) :
    sumOf [e] sources k =
      if e.bookingId = some k ∧ e.source ∈ sources then e.delta else 0 := by
  simp [sumOf]

@[simp] theorem entriesOf_nil (u : Id) : entriesOf [] u = [] := rfl

@[simp] theorem entriesOf_append (es es' : List Entry) (u : Id) :
    entriesOf (es ++ es') u = entriesOf es u ++ entriesOf es' u := by
  simp [entriesOf]

/-- Entries of other bookings or other sources add nothing. -/
theorem sumOf_eq_zero {es : List Entry} {sources : List LoyaltyLedgerSource} {k : Id}
    (h : ∀ e ∈ es, ¬ (e.bookingId = some k ∧ e.source ∈ sources)) :
    sumOf es sources k = 0 := by
  induction es with
  | nil => rfl
  | cons e es ih =>
      have := ih (fun x hx => h x (by simp [hx]))
      simp only [sumOf, List.map_cons, List.sum_cons, if_neg (h e (by simp))] at this ⊢
      simpa using this

theorem mem_of_entriesOf {es : List Entry} {u : Id} {e : Entry}
    (h : e ∈ entriesOf es u) : e ∈ es :=
  (List.mem_filter.mp h).1

/-! ## The abstraction -/

/-- The payment of a booking id. -/
def Db.paymentOf (db : Db) (bookingId : Id) : Option Payment :=
  db.payments.first? (fun q => q.bookingId = some bookingId)

/-- The dossier of a booking id and a user. -/
def Db.dossier (db : Db) (userId id : Id) : Dossier where
  id := id
  used := id < db.nextId
  payment := (db.paymentOf id).map Payment.file
  booking := (db.bookings.find? id).map Booking.file
  redeemed := -sumOf (entriesOf db.entries userId) [.bookingRedeem] id
  returned := sumOf (entriesOf db.entries userId)
    [.cancelRefundUnpaid, .cancelRefundPaid] id
  earned := sumOf db.entries [.bookingEarn] id
  reversed := -sumOf db.entries [.cancelReverseAwarded] id

/-- A dossier with entries added. -/
def Dossier.post (d : Dossier) (userId : Id) (es : List Entry) : Dossier :=
  { d with
    redeemed := d.redeemed - sumOf (entriesOf es userId) [.bookingRedeem] d.id
    returned := d.returned + sumOf (entriesOf es userId)
      [.cancelRefundUnpaid, .cancelRefundPaid] d.id
    earned := d.earned + sumOf es [.bookingEarn] d.id
    reversed := d.reversed - sumOf es [.cancelReverseAwarded] d.id }

@[simp] theorem Dossier.post_nil (d : Dossier) (u : Id) : d.post u [] = d := by
  simp [Dossier.post]

/-- Entries are posted one after the other. -/
theorem Dossier.post_append (d : Dossier) (u : Id) (es es' : List Entry) :
    d.post u (es ++ es') = (d.post u es).post u es' := by
  simp only [Dossier.post, entriesOf_append, sumOf_append, Dossier.mk.injEq, true_and]
  refine ⟨?_, ?_, ?_, ?_⟩ <;> lia

/-- Entries of another booking do not change the dossier. -/
theorem Dossier.post_other {d : Dossier} {u k : Id} {es : List Entry}
    (h : ∀ e ∈ es, e.bookingId = some k) (hne : d.id ≠ k) : d.post u es = d := by
  have hz : ∀ es' sources, (∀ e ∈ es', e ∈ es) → sumOf es' sources d.id = 0 := by
    intro es' sources hsub
    refine sumOf_eq_zero fun e he hk => hne ?_
    exact Option.some.inj (hk.1.symm.trans (h e (hsub e he)))
  have hu : ∀ e ∈ entriesOf es u, e ∈ es := fun e he => mem_of_entriesOf he
  simp [Dossier.post, hz _ _ hu, hz es _ (fun e he => he)]

/-- A return raises what came back by what was due. -/
theorem Dossier.post_return {d : Dossier} {u : Id} {b : Booking}
    {source : LoyaltyLedgerSource} (hid : d.id = b.id)
    (hs : source = .cancelRefundUnpaid ∨ source = .cancelRefundPaid) :
    d.post u (returnEntries b source) = { d with returned := d.returned + b.dueTo u } := by
  unfold returnEntries Booking.dueTo
  split
  · rename_i hpos
    have hmax : max 0 b.pointsRedeemed = b.pointsRedeemed := max_eq_right hpos.le
    by_cases hu : b.customerId = u <;> rcases hs with rfl | rfl <;>
      simp [Dossier.post, entriesOf, hu, hid, hmax]
  · rename_i hle
    simp [max_eq_left (not_lt.mp hle)]

/-- A redemption raises what was redeemed. -/
theorem Dossier.post_redeem {d : Dossier} {u : Id} {b : Booking} (hid : d.id = b.id) :
    d.post u (redeemEntries b) = { d with redeemed := d.redeemed + b.dueTo u } := by
  unfold redeemEntries Booking.dueTo
  split
  · rename_i hpos
    have hmax : max 0 b.pointsRedeemed = b.pointsRedeemed := max_eq_right hpos.le
    by_cases hu : b.customerId = u <;>
      simp [Dossier.post, entriesOf, hu, hid, hmax]
  · rename_i hle
    simp [max_eq_left (not_lt.mp hle)]

/-- An award raises what was earned. -/
theorem Dossier.post_earn {d : Dossier} {u : Id} {b : Booking} {points : Cents}
    (hid : d.id = b.id) :
    d.post u [earnEntry b points] = { d with earned := d.earned + points } := by
  by_cases hu : b.customerId = u <;> simp [Dossier.post, entriesOf, earnEntry, hu, hid]

/-- A reversal raises what was taken back. -/
theorem Dossier.post_reverse {d : Dossier} {u : Id} {b : Booking} {clawback : Cents}
    (hid : d.id = b.id) (h0 : 0 ≤ clawback) :
    d.post u (reverseEntries b clawback) = { d with reversed := d.reversed + clawback } := by
  unfold reverseEntries
  split
  · by_cases hu : b.customerId = u <;> simp [Dossier.post, entriesOf, hu, hid]
  · rename_i hle
    simp [le_antisymm (not_lt.mp hle) h0]

/-- Entries that do not count leave the dossier. -/
theorem Dossier.post_uncounted {d : Dossier} {u k : Id} {es : List Entry}
    (h : Uncounted es k) : d.post u es = d := by
  have hz : ∀ es' sources, (∀ e ∈ es', e ∈ es) → LoyaltyLedgerSource.vendorRefundApproved ∉
      sources → LoyaltyLedgerSource.adminRefundApproved ∉ sources →
      sumOf es' sources d.id = 0 := by
    intro es' sources hsub hv ha
    refine sumOf_eq_zero fun e he hk => ?_
    rcases (h e (hsub e he)).2 with hs | hs
    · exact hv (hs ▸ hk.2)
    · exact ha (hs ▸ hk.2)
  have hu : ∀ e ∈ entriesOf es u, e ∈ es := fun e he => mem_of_entriesOf he
  simp [Dossier.post, hz _ _ hu, hz es _ (fun e he => he)]

/-- The dossier after a transaction, from the rows it left and the entries
it wrote. -/
theorem dossier_writes {db db' : Db} {es : List Entry} (h : Writes db db' es) (u k : Id) :
    db'.dossier u k = ({ db.dossier u k with
      used := k < db'.nextId
      payment := (db'.paymentOf k).map Payment.file
      booking := (db'.bookings.find? k).map Booking.file } : Dossier).post u es := by
  simp only [Db.dossier, Dossier.post, h.entries, entriesOf_append, sumOf_append,
    Dossier.mk.injEq, true_and]
  refine ⟨?_, ?_⟩ <;> lia

/-- **The dossier after a step**: its tables as they are now, its sums with the new entries
posted. -/
theorem dossier_after {db db' : Db} {es : List Entry} (h : Writes db db' es) {u k : Id}
    (hused : k < db'.nextId ↔ k < db.nextId) :
    db'.dossier u k = ({ db.dossier u k with
      payment := (db'.paymentOf k).map Payment.file
      booking := (db'.bookings.find? k).map Booking.file } : Dossier).post u es := by
  rw [dossier_writes h]
  simp only [hused]
  rfl

/-! ## The wiring of bookings and payments -/

/-- Ids below the counter, one payment for a booking id, no ledger row for
an id that has not been given out, and the index of the ledger. -/
structure Wired (db : Db) : Prop where
  bookings : ∀ b ∈ db.bookings.rows, b.id < db.nextId
  payments : ∀ q ∈ db.payments.rows, q.id < db.nextId ∧
    ∃ k, q.bookingId = some k ∧ k < db.nextId
  sole : ∀ q ∈ db.payments.rows, ∀ q' ∈ db.payments.rows,
    q.bookingId = q'.bookingId → q.id = q'.id
  entries : ∀ e ∈ db.entries, ∀ k, e.bookingId = some k → k < db.nextId
  indexed : Indexed db.entries

/-- The payment id and the booking id belong together: whatever payment
there is for the one is the other's. -/
structure Owns (db : Db) (paymentId bookingId : Id) : Prop where
  payment_lt : paymentId < db.nextId
  booking_lt : bookingId < db.nextId
  iff : ∀ q ∈ db.payments.rows, q.id = paymentId ↔ q.bookingId = some bookingId

/-- A payment that names its booking is that booking's own. -/
theorem Wired.owns {db : Db} (w : Wired db) {q : Payment} (hq : q ∈ db.payments.rows)
    {k : Id} (hk : q.bookingId = some k) : Owns db q.id k := by
  obtain ⟨hlt, k', hk', hk'lt⟩ := w.payments q hq
  obtain rfl : k = k' := Option.some.inj (hk.symm.trans hk')
  refine ⟨hlt, hk'lt, fun q' hq' => ⟨fun hid => ?_, fun hb => ?_⟩⟩
  · rw [Table.key_inj hq' hq hid, hk]
  · exact w.sole q' hq' q hq (hb.trans hk.symm)

/-- The payment of a booking is the one it owns. -/
theorem Owns.paymentOf {db : Db} {paymentId k : Id} (h : Owns db paymentId k) :
    db.paymentOf k = db.payments.find? paymentId :=
  Table.first?_eq_find? fun q hq => by rw [decide_eq_true_eq]; exact (h.iff q hq).symm

/-- What any transaction does to ids and links: rows keep theirs, a new
payment comes with a new id for its booking. -/
structure Grows (db db' : Db) : Prop where
  nextId : db.nextId ≤ db'.nextId
  bookings : ∀ b ∈ db'.bookings.rows, b.id < db'.nextId
  payments : ∀ q' ∈ db'.payments.rows,
    (∃ q ∈ db.payments.rows, q'.id = q.id ∧ q'.bookingId = q.bookingId) ∨
      (q'.id = db.nextId ∧ q'.bookingId = some (db.nextId + 1) ∧
        db.nextId + 2 ≤ db'.nextId)
  entries : ∀ e ∈ db'.entries, ∀ k, e.bookingId = some k → k < db'.nextId
  indexed : Indexed db.entries → Indexed db'.entries
  appends : ∃ es, db'.entries = db.entries ++ es ∧ ∀ e ∈ es, e.delta ≠ 0

/-- A booking keeps its payment. -/
theorem Owns.step {db db' : Db} {paymentId k : Id} (h : Owns db paymentId k)
    (g : Grows db db') : Owns db' paymentId k := by
  have hn := g.nextId
  refine ⟨h.payment_lt.trans_le hn, h.booking_lt.trans_le hn, fun q' hq' => ?_⟩
  rcases g.payments q' hq' with ⟨q, hq, hid, hb⟩ | ⟨hid, hb, _⟩
  · rw [hid, hb]
    exact h.iff q hq
  · have h1 := h.payment_lt
    have h2 := h.booking_lt
    rw [hid, hb, Option.some.injEq]
    constructor <;> intro he <;> lia

/-- The links hold while the tables grow. -/
theorem Wired.step {db db' : Db} (w : Wired db) (g : Grows db db') : Wired db' := by
  have hn := g.nextId
  refine ⟨g.bookings, fun q' hq' => ?_, fun q hq q' hq' hb => ?_, g.entries,
    g.indexed w.indexed⟩
  · rcases g.payments q' hq' with ⟨q, hq, hid, hb⟩ | ⟨hid, hb, hlt⟩
    · obtain ⟨hlt, k, hk, hklt⟩ := w.payments q hq
      exact ⟨hid ▸ hlt.trans_le hn, k, hb.trans hk, hklt.trans_le hn⟩
    · refine ⟨?_, _, hb, ?_⟩ <;> lia
  · rcases g.payments q hq with ⟨p, hp, hid, hpb⟩ | ⟨hid, hpb, _⟩ <;>
      rcases g.payments q' hq' with ⟨p', hp', hid', hpb'⟩ | ⟨hid', hpb', _⟩
    · rw [hid, hid']
      exact w.sole p hp p' hp' (hpb ▸ hpb' ▸ hb)
    · obtain ⟨_, k, hk, hlt⟩ := w.payments p hp
      rw [hpb, hk, hpb', Option.some.injEq] at hb
      lia
    · obtain ⟨_, k, hk, hlt⟩ := w.payments p' hp'
      rw [hpb', hk, hpb, Option.some.injEq] at hb
      lia
    · rw [hid, hid']

/-! ## Effects as moves -/

/-- What a transaction of a task is on every dossier. -/
structure Steps (G : Guard) (chain : Option Id) (db db' : Db) : Prop where
  grows : Grows db db'
  moves : ∀ u k, Move G chain u db.balanceOf (db.dossier u k) (db'.dossier u k)

variable {G : Guard} {chain : Option Id} {db db' : Db}

theorem Wired.grows_self (w : Wired db) : Grows db db where
  nextId := le_rfl
  bookings := w.bookings
  payments := fun q hq => Or.inl ⟨q, hq, rfl, rfl⟩
  entries := w.entries
  indexed := id
  appends := ⟨[], by simp, by simp⟩

theorem Steps.refl (w : Wired db) : Steps G chain db db :=
  ⟨w.grows_self, fun _ _ => .idle _⟩

/-- Each payment after is one before, with its link. -/
def Links (ps ps' : Table Payment) : Prop :=
  ∀ q' ∈ ps'.rows, ∃ q ∈ ps.rows, q'.id = q.id ∧ q'.bookingId = q.bookingId

/-- Each booking after has the id of one before. -/
def KeepsIds (bs bs' : Table Booking) : Prop :=
  ∀ b' ∈ bs'.rows, ∃ b ∈ bs.rows, b'.id = b.id

/-- An update that keeps the booking of each payment keeps the links. -/
theorem Links.updateMany {ps : Table Payment} {p : Payment → Bool}
    {f : Payment → Payment} {hf : ∀ q, Keyed.key (f q) = Keyed.key q}
    (h : ∀ q, (f q).bookingId = q.bookingId) : Links ps (ps.updateMany p f hf) := by
  intro q' hq'
  obtain ⟨q, hq, rfl⟩ := Table.mem_updateMany.mp hq'
  refine ⟨q, hq, ?_⟩
  split
  · exact ⟨hf q, h q⟩
  · exact ⟨rfl, rfl⟩

theorem Links.delete {ps : Table Payment} {id : Id} : Links ps (ps.delete id) :=
  fun q hq => ⟨q, (Table.mem_delete.mp hq).1, rfl, rfl⟩

/-- An update keeps the ids. -/
theorem KeepsIds.updateMany {bs : Table Booking} {p : Booking → Bool}
    {f : Booking → Booking} {hf : ∀ b, Keyed.key (f b) = Keyed.key b} :
    KeepsIds bs (bs.updateMany p f hf) := by
  intro b' hb'
  obtain ⟨b, hb, rfl⟩ := Table.mem_updateMany.mp hb'
  refine ⟨b, hb, ?_⟩
  split
  · exact hf b
  · rfl

theorem KeepsIds.delete {bs : Table Booking} {id : Id} : KeepsIds bs (bs.delete id) :=
  fun b hb => ⟨b, (Table.mem_delete.mp hb).1, rfl⟩

/-- An effect that inserts nothing grows nothing. -/
theorem Effect.grows {bs : Table Booking} {ps : Table Payment} {es : List Entry}
    (w : Wired db) (e : Effect db db' bs ps es) (hb : KeepsIds db.bookings bs)
    (hp : Links db.payments ps)
    (hes : ∀ x ∈ es, ∀ k, x.bookingId = some k → k < db.nextId) : Grows db db' where
  nextId := e.nextId.ge
  bookings := by
    intro b' hb'
    rw [e.bookings] at hb'
    obtain ⟨b, hmem, hid⟩ := hb b' hb'
    rw [hid, e.nextId]
    exact w.bookings b hmem
  payments := by
    intro q' hq'
    rw [e.payments] at hq'
    exact Or.inl (hp q' hq')
  entries := by
    intro x hx k hk
    rw [e.writes.entries, List.mem_append] at hx
    rw [e.nextId]
    rcases hx with hx | hx
    · exact w.entries x hx k hk
    · exact hes x hx k hk
  indexed := e.writes.indexed
  appends := ⟨es, e.writes.entries, e.writes.nonzero⟩

/-- A transaction that leaves the rows of every other booking alone is one
move on the booking's dossier and idle on the others. -/
theorem Steps.of_rows {k : Id} {es : List Entry} (g : Grows db db')
    (hw : Writes db db' es) (hn : db'.nextId = db.nextId)
    (hes : ∀ x ∈ es, x.bookingId = some k)
    (hpay : ∀ j, j ≠ k → db'.paymentOf j = db.paymentOf j)
    (hbook : ∀ j, j ≠ k → db'.bookings.find? j = db.bookings.find? j)
    (m : ∀ u, Move G chain u db.balanceOf (db.dossier u k) (({ db.dossier u k with
      payment := (db'.paymentOf k).map Payment.file
      booking := (db'.bookings.find? k).map Booking.file } : Dossier).post u es)) :
    Steps G chain db db' := by
  refine ⟨g, fun u j => ?_⟩
  rw [dossier_after hw (by rw [hn])]
  by_cases hj : j = k
  · subst hj
    exact m u
  · rw [hpay j hj, hbook j hj, Dossier.post_other hes hj]
    exact .idle _

/-- The payment of a booking after an update of that payment. -/
theorem Owns.paymentOf_update {pid k : Id} (own : Owns db pid k)
    {f : Payment → Payment} {hf : ∀ q, Keyed.key (f q) = Keyed.key q}
    (hpays : db'.payments = db.payments.update pid f hf)
    (hlink : ∀ q, (f q).bookingId = q.bookingId) :
    db'.paymentOf k = (db.payments.find? pid).map f ∧
      ∀ j, j ≠ k → db'.paymentOf j = db.paymentOf j := by
  have hpay : ∀ j, db'.paymentOf j = (db.paymentOf j).map
      (fun q => if Keyed.key q = pid then f q else q) := by
    intro j
    rw [Db.paymentOf, hpays, Table.update, Table.first?_updateMany]
    · simp [Db.paymentOf]
    · intro q
      simp [hlink]
  constructor
  · rw [hpay, own.paymentOf]
    cases hq : db.payments.find? pid with
    | none => rfl
    | some q => simp [(Table.find?_eq_some.mp hq).2]
  · intro j hj
    rw [hpay]
    cases hq : db.paymentOf j with
    | none => rfl
    | some q =>
        obtain ⟨hmem, hb⟩ := Table.first?_eq_some hq
        have hne : ¬ Keyed.key q = pid := by
          intro hid
          rw [decide_eq_true_eq, (own.iff q hmem).mp hid, Option.some.injEq] at hb
          exact hj hb.symm
        simp [hne]

/-- The payment of a booking after its delete. -/
theorem Owns.paymentOf_delete {pid k : Id} (own : Owns db pid k)
    (hpays : db'.payments = db.payments.delete pid) :
    db'.paymentOf k = none ∧ ∀ j, j ≠ k → db'.paymentOf j = db.paymentOf j := by
  constructor
  · rw [Db.paymentOf, hpays, Table.first?_eq_none]
    intro q hq hb
    obtain ⟨hmem, hne⟩ := Table.mem_delete.mp hq
    exact hne ((own.iff q hmem).mpr (of_decide_eq_true hb))
  · intro j hj
    rw [Db.paymentOf, Db.paymentOf, hpays, Table.delete, Table.first?_deleteMany]
    intro q hq hid
    rw [decide_eq_true_eq] at hid ⊢
    intro hb
    rw [(own.iff q hq).mp hid, Option.some.injEq] at hb
    exact hj hb.symm

/-- **A transaction without a trace in the files.** -/
theorem Effect.steps_none (w : Wired db)
    (e : Effect db db' db.bookings db.payments []) : Steps G chain db db' := by
  refine ⟨e.grows w (fun b hb => ⟨b, hb, rfl⟩) (fun q hq => ⟨q, hq, rfl, rfl⟩) (by simp),
    fun u k => ?_⟩
  rw [dossier_after e.writes (by rw [e.nextId]), Db.paymentOf, e.payments, e.bookings,
    Dossier.post_nil]
  exact .idle _

/-- **An update of one booking.** -/
theorem Effect.steps_booking {k : Id} {fb : Booking → Booking}
    {hb : ∀ b, Keyed.key (fb b) = Keyed.key b} {es : List Entry} (w : Wired db)
    (hk : ∃ b, db.bookings.find? k = some b)
    (e : Effect db db' (db.bookings.update k fb hb) db.payments es)
    (hes : ∀ x ∈ es, x.bookingId = some k)
    (m : ∀ u, Move G chain u db.balanceOf (db.dossier u k) (({ db.dossier u k with
      booking := (db.bookings.find? k).map (fun b => (fb b).file) } : Dossier).post u es)) :
    Steps G chain db db' := by
  have hids : ∀ x ∈ es, ∀ j, x.bookingId = some j → j < db.nextId := by
    intro x hx j hj
    obtain rfl : j = k := Option.some.inj (hj.symm.trans (hes x hx))
    obtain ⟨b, hfind⟩ := hk
    obtain ⟨hmem, rfl⟩ := Table.find?_eq_some.mp hfind
    exact w.bookings b hmem
  have hpay : ∀ j, db'.paymentOf j = db.paymentOf j := by
    intro j
    rw [Db.paymentOf, e.payments, Db.paymentOf]
  refine .of_rows (e.grows w .updateMany (fun q hq => ⟨q, hq, rfl, rfl⟩) hids) e.writes
    e.nextId hes (fun j _ => hpay j) (fun j hj => ?_) (fun u => ?_)
  · rw [e.bookings, Table.find?_update, if_neg hj]
  · rw [hpay, e.bookings, Table.find?_update, if_pos rfl, Option.map_map]
    exact m u

/-- **An update of one booking and of its payment.** -/
theorem Effect.steps {pid k : Id} {fb : Booking → Booking} {fp : Payment → Payment}
    {hb : ∀ b, Keyed.key (fb b) = Keyed.key b} {hp : ∀ q, Keyed.key (fp q) = Keyed.key q}
    {es : List Entry} (w : Wired db) (own : Owns db pid k)
    (e : Effect db db' (db.bookings.update k fb hb) (db.payments.update pid fp hp) es)
    (hlink : ∀ q, (fp q).bookingId = q.bookingId)
    (hes : ∀ x ∈ es, x.bookingId = some k)
    (m : ∀ u, Move G chain u db.balanceOf (db.dossier u k) (({ db.dossier u k with
      payment := (db.payments.find? pid).map (fun q => (fp q).file)
      booking := (db.bookings.find? k).map (fun b => (fb b).file) } : Dossier).post u es)) :
    Steps G chain db db' := by
  have hids : ∀ x ∈ es, ∀ j, x.bookingId = some j → j < db.nextId := by
    intro x hx j hj
    obtain rfl : j = k := Option.some.inj (hj.symm.trans (hes x hx))
    exact own.booking_lt
  obtain ⟨hpay, hother⟩ := own.paymentOf_update e.payments hlink
  refine .of_rows (e.grows w .updateMany (.updateMany hlink) hids) e.writes e.nextId hes
    hother (fun j hj => ?_) (fun u => ?_)
  · rw [e.bookings, Table.find?_update, if_neg hj]
  · rw [hpay, e.bookings, Table.find?_update, if_pos rfl, Option.map_map, Option.map_map]
    exact m u

/-- **An update of one payment.** -/
theorem Effect.steps_payment {pid k : Id} {fp : Payment → Payment}
    {hp : ∀ q, Keyed.key (fp q) = Keyed.key q} (w : Wired db) (own : Owns db pid k)
    (e : Effect db db' db.bookings (db.payments.update pid fp hp) [])
    (hlink : ∀ q, (fp q).bookingId = q.bookingId)
    (m : ∀ u, Move G chain u db.balanceOf (db.dossier u k) { db.dossier u k with
      payment := (db.payments.find? pid).map (fun q => (fp q).file) }) :
    Steps G chain db db' := by
  have e' : Effect db db' (db.bookings.update k id (fun _ => rfl))
      (db.payments.update pid fp hp) [] := by
    rw [Table.update_id]
    exact e
  refine e'.steps w own hlink (by simp) (fun u => ?_)
  rw [Dossier.post_nil]
  exact m u

/-- **A delete of one booking with an update of its payment.** -/
theorem Effect.steps_delete {pid k : Id} {fp : Payment → Payment}
    {hp : ∀ q, Keyed.key (fp q) = Keyed.key q}
    {es : List Entry} (w : Wired db) (own : Owns db pid k)
    (e : Effect db db' (db.bookings.delete k) (db.payments.update pid fp hp) es)
    (hlink : ∀ q, (fp q).bookingId = q.bookingId)
    (hes : ∀ x ∈ es, x.bookingId = some k)
    (m : ∀ u, Move G chain u db.balanceOf (db.dossier u k) (({ db.dossier u k with
      payment := (db.payments.find? pid).map (fun q => (fp q).file)
      booking := none } : Dossier).post u es)) :
    Steps G chain db db' := by
  have hids : ∀ x ∈ es, ∀ j, x.bookingId = some j → j < db.nextId := by
    intro x hx j hj
    obtain rfl : j = k := Option.some.inj (hj.symm.trans (hes x hx))
    exact own.booking_lt
  obtain ⟨hpay, hother⟩ := own.paymentOf_update e.payments hlink
  refine .of_rows (e.grows w .delete (.updateMany hlink) hids) e.writes e.nextId hes
    hother (fun j hj => ?_) (fun u => ?_)
  · rw [e.bookings, Table.find?_delete, if_neg hj]
  · rw [hpay, e.bookings, Table.find?_delete, if_pos rfl, Option.map_map]
    exact m u

/-- **A delete of one booking and of its payment.** -/
theorem Effect.steps_purge {pid k : Id} {es : List Entry} (w : Wired db)
    (own : Owns db pid k)
    (e : Effect db db' (db.bookings.delete k) (db.payments.delete pid) es)
    (hes : ∀ x ∈ es, x.bookingId = some k)
    (m : ∀ u, Move G chain u db.balanceOf (db.dossier u k) (({ db.dossier u k with
      payment := none, booking := none } : Dossier).post u es)) :
    Steps G chain db db' := by
  have hids : ∀ x ∈ es, ∀ j, x.bookingId = some j → j < db.nextId := by
    intro x hx j hj
    obtain rfl : j = k := Option.some.inj (hj.symm.trans (hes x hx))
    exact own.booking_lt
  obtain ⟨hpay, hother⟩ := own.paymentOf_delete e.payments
  refine .of_rows (e.grows w .delete .delete hids) e.writes e.nextId hes hother
    (fun j hj => ?_) (fun u => ?_)
  · rw [e.bookings, Table.find?_delete, if_neg hj]
  · rw [hpay, e.bookings, Table.find?_delete, if_pos rfl]
    exact m u

end Jadwal
