import Jadwal.Payout
import Jadwal.Lib.Run

/-!
# Payout operations under Read Committed

Vendors and admins work on payout requests at the same time.  A step of
`PayoutWorld` runs one statement of one operation, on what is committed at
that moment; the platform may change payments and bookings in between, and
an operation may die at any point.  Only `requestPayout` is serializable:
its insert fails when another one was committed for the vendor since its
check.

`RequestEffect` says all a statement can do to the table of requests, and
the three invariants are derived from it: a vendor has one request in
flight and statuses follow the graph (`payouts_in_order`), and no payment
is locked twice (`payments_locked_once`).
-/

namespace Jadwal

open Outcome

/-! ## Statements -/

/-- What a payout operation does next, with what it has read. -/
inductive PayoutTask
  | eligibleVendor (vendorId : Id)
  | eligibleInFlight (vendor : Vendor) (currency : String)
  | lockedPaymentIds (vendorId : Id) (currency : String)
  | availableBalance (vendorId : Id) (currency : String) (lockedIds : List Id)
  | duplicateCheck (vendorId : Id) (amount : Cents) (currency : String)
  | create (vendorId : Id) (amount : Cents) (currency : String) (snapshot : Nat)
  | deleteRead (vendorId requestId : Id)
  | deleteRejected (vendorId requestId : Id)
  | approveRead (request : PayoutRequest) (adminNote : Option String)
  | approveWrite (r : ApproveRead)
  | completeCount (request : PayoutRequest) (adminNote : Option String)
  | completeRevert (request : PayoutRequest) (adminNote : Option String) (drift : Nat)
  | completeRecount (request : PayoutRequest) (adminNote : Option String)
  | completeWrite (request : PayoutRequest) (adminNote : Option String)
  | rejectWrite (requestId : Id) (adminNote : Option String)
  | revertInFlight (r : RevertRead)
  | revertCount (r : RevertRead)
  | revertWrite (r : RevertRead)
  | paidBlockers (paymentIds : List Id) (vendors : List (Id × Vendor)) (ref : String)
  | paidEscrow (paymentIds : List Id) (ref : String)
  | paidWrite (paymentIds : List Id) (ref : String)
  | unpaidLocks (paymentId : Id)
  | unpaidWrite (paymentId : Id)

/-- The requests of vendors and admins. -/
inductive PayoutCall
  | requestPayout (userId : Id)
  | deletePayoutRequest (userId requestId : Id)
  | processPayoutRequest (requestId : Id) (action : PayoutRequestStatus)
      (adminNote : Option String)
  | revertPayoutRequest (requestId : Id) (target : PayoutRequestStatus)
  | markPayoutsPaid (paymentIds : List Id) (ref : String)
  | markPayoutUnpaid (paymentId : Id)

/-- `processPayoutRequest`, the lookup and the status graph. -/
def processRead (db : Db) (requestId : Id) (action : PayoutRequestStatus)
    (adminNote : Option String) : Tx PayoutTask := do
  let request ← orThrow (db.payoutRequests.find? requestId)
    (.notFound "Payout request not found")
  ensure (validTransition request.status action)
    (.badRequest ("Cannot " ++ action.text ++ " a " ++ request.status.text ++ " request"))
  match action with
  | .approved => return .approveRead request adminNote
  | .completed => return .completeCount request adminNote
  | _ => return .rejectWrite requestId adminNote

/-- The first statement of an operation. -/
def PayoutCall.read (db : Db) : PayoutCall → Tx PayoutTask
  | .requestPayout userId => do
      let vendor ← resolveVendor db userId
      return .eligibleVendor vendor.id
  | .deletePayoutRequest userId requestId => do
      let vendor ← resolveVendor db userId
      return .deleteRead vendor.id requestId
  | .processPayoutRequest requestId action adminNote =>
      processRead db requestId action adminNote
  | .revertPayoutRequest requestId target => do
      let r ← revertRead db requestId target
      return .revertInFlight r
  | .markPayoutsPaid paymentIds ref => do
      let vendors ← paidVendors db paymentIds
      return .paidBlockers paymentIds vendors ref
  | .markPayoutUnpaid paymentId => do
      unpaidRead db paymentId
      return .unpaidLocks paymentId

/-- The database, the clock, the vendors of the committed inserts (newest
first), and the operations in flight. -/
structure PayoutWorld where
  now : Instant
  db : Db
  inserts : List Id := []
  inflight : List PayoutTask := []

/-- One statement: the new state, and what the operation does next. -/
def PayoutTask.run (config : PayoutConfig) (now : Instant) (inserts : List Id) (db : Db) :
    PayoutTask → Tx (Db × Option PayoutTask)
  | .eligibleVendor vendorId => do
      let (vendor, currency) ← Jadwal.eligibleVendor db vendorId
      return (db, some (.eligibleInFlight vendor currency))
  | .eligibleInFlight vendor currency => do
      Jadwal.eligibleInFlight config now db vendor
      return (db, some (.lockedPaymentIds vendor.id currency))
  | .lockedPaymentIds vendorId currency =>
      return (db, some (.availableBalance vendorId currency
        (Jadwal.lockedPaymentIds db vendorId)))
  | .availableBalance vendorId currency lockedIds => do
      let amount ← Jadwal.availableBalance config now db vendorId currency lockedIds
      return (db, some (.duplicateCheck vendorId amount currency))
  | .duplicateCheck vendorId amount currency => do
      Jadwal.duplicateCheck db vendorId
      return (db, some (.create vendorId amount currency (inserts.count vendorId)))
  | .create vendorId amount currency snapshot => do
      -- the serialization failure P2034
      ensure (inserts.count vendorId = snapshot) inflightError
      let db ← createPayoutRequest now db vendorId amount currency
      return (db, none)
  | .deleteRead vendorId requestId => do
      Jadwal.deleteRead db vendorId requestId
      return (db, some (.deleteRejected vendorId requestId))
  | .deleteRejected vendorId requestId => do
      let db ← Jadwal.deleteRejected db vendorId requestId
      return (db, none)
  | .approveRead request adminNote => do
      let r ← Jadwal.approveRead config now db request adminNote
      return (db, some (.approveWrite r))
  | .approveWrite r => do
      let db ← Jadwal.approveWrite now db r
      return (db, none)
  | .completeCount request adminNote => do
      let ids := request.paymentIds
      ensure (ids ≠ []) (.badRequest ("This approved request has no locked payments. " ++
        "Contact engineering — data looks inconsistent."))
      if payableCount db ids = ids.length then
        return (db, some (.completeRecount request adminNote))
      else
        return (db, some (.completeRevert request adminNote (ids.length - payableCount db ids)))
  | .completeRevert request adminNote drift => do
      -- committed on its own; the handler throws afterwards
      let db ← Jadwal.completeRevert db request adminNote drift
      return (db, none)
  | .completeRecount request adminNote => do
      ensure (payableCount db request.paymentIds = request.paymentIds.length)
        (.conflict ("Eligibility changed during completion. Try again — the request will " ++
          "auto-revert if drift persists."))
      return (db, some (.completeWrite request adminNote))
  | .completeWrite request adminNote => do
      let db ← Jadwal.completeWrite now db request adminNote
      return (db, none)
  | .rejectWrite requestId adminNote => do
      let db ← Jadwal.rejectWrite now db requestId adminNote
      return (db, none)
  | .revertInFlight r => do
      Jadwal.revertInFlight db r
      return (db, some (.revertCount r))
  | .revertCount r => do
      Jadwal.revertCount db r
      return (db, some (.revertWrite r))
  | .revertWrite r => do
      let db ← Jadwal.revertWrite db r
      return (db, none)
  | .paidBlockers paymentIds vendors ref => do
      Jadwal.paidBlockers db vendors ref
      return (db, some (.paidEscrow paymentIds ref))
  | .paidEscrow paymentIds ref => do
      Jadwal.paidEscrow config now db paymentIds
      return (db, some (.paidWrite paymentIds ref))
  | .paidWrite paymentIds ref => return (Jadwal.paidWrite config now db paymentIds ref, none)
  | .unpaidLocks paymentId => do
      Jadwal.unpaidLocks db paymentId
      return (db, some (.unpaidWrite paymentId))
  | .unpaidWrite paymentId => do
      let db ← Jadwal.unpaidWrite db paymentId
      return (db, none)

/-- The vendor of an insert, for the serialization check. -/
def PayoutTask.inserted : PayoutTask → List Id
  | .create vendorId _ _ _ => [vendorId]
  | _ => []

inductive PayoutAction
  | tick (elapsed : Nat)
  /-- The rest of the platform: every table but the payout requests. -/
  | platform (db : Db)
  | begin (call : PayoutCall)
  | run (index : Nat)
  | abort (index : Nat)

/-- One step of the world; an operation that throws is over. -/
def PayoutWorld.step (config : PayoutConfig) (w : PayoutWorld) :
    PayoutAction → Option PayoutWorld
  | .tick elapsed => some { w with now := w.now + elapsed }
  | .platform db => some { w with
      db := { db with
        payoutRequests := w.db.payoutRequests
        nextId := max w.db.nextId db.nextId } }
  | .begin call =>
      match call.read w.db with
      | .error _ => some w
      | .ok t => some { w with inflight := w.inflight ++ [t] }
  | .run index =>
      match w.inflight[index]? with
      | none => none
      | some t =>
          let rest := w.inflight.eraseIdx index
          match t.run config w.now w.inserts w.db with
          | .error _ => some { w with inflight := rest }
          | .ok (db, next) => some { w with
              db := db
              inserts := t.inserted ++ w.inserts
              inflight := rest ++ next.toList }
  | .abort index => some { w with inflight := w.inflight.eraseIdx index }

/-- The task an action runs. -/
def PayoutWorld.task? (w : PayoutWorld) : PayoutAction → Option PayoutTask
  | .run index => w.inflight[index]?
  | _ => none

variable {config : PayoutConfig} {now : Instant} {inserts : List Id} {db db' : Db}
  {w w' : PayoutWorld} {a : PayoutAction} {t : PayoutTask} {next : Option PayoutTask}

/-! ## What a statement does to the requests -/

/-- The row is claimed by an id and a status, and rewritten. -/
inductive Claim (now : Instant) : PayoutTask → Id → PayoutRequestStatus →
    (PayoutRequest → PayoutRequest) → Prop
  | approve (r : ApproveRead) :
      Claim now (.approveWrite r) r.request.id .pending (PayoutRequest.approve now r)
  | complete (request : PayoutRequest) (adminNote note : Option String) :
      Claim now (.completeWrite request adminNote) request.id .approved
        (PayoutRequest.complete now note)
  | autoRevert (request : PayoutRequest) (adminNote : Option String) (drift : Nat)
      (note : String) :
      Claim now (.completeRevert request adminNote drift) request.id .approved
        (PayoutRequest.autoRevert note)
  | revert (r : RevertRead) :
      Claim now (.revertWrite r) r.request.id r.request.status
        (PayoutRequest.revert r.target)

/-- **All a statement can do to the table of requests.** -/
inductive RequestEffect (now : Instant) (inserts : List Id) (db : Db) (t : PayoutTask)
    (db' : Db) : Prop
  | none (same : db'.payoutRequests = db.payoutRequests) (inserted : t.inserted = [])
  | create (vendorId : Id) (amount : Cents) (currency : String) (row : PayoutRequest)
      (task : t = .create vendorId amount currency (inserts.count vendorId))
      (rows : ∀ r, r ∈ db'.payoutRequests.rows ↔ r ∈ db.payoutRequests.rows ∨ r = row)
      (vendor : row.vendorId = vendorId) (pending : row.status = .pending)
      (unlocked : row.paymentIds = [])
      (fresh : ∀ r ∈ db.payoutRequests.rows, r.id ≠ row.id)
  | delete (inserted : t.inserted = [])
      (rows : ∀ r ∈ db'.payoutRequests.rows, r ∈ db.payoutRequests.rows)
  | reject (requestId : Id) (adminNote : Option String)
      (task : t = .rejectWrite requestId adminNote)
      (rows : ∀ r', r' ∈ db'.payoutRequests.rows ↔ ∃ r ∈ db.payoutRequests.rows,
        (if r.id = requestId then r.reject now adminNote else r) = r')
  | claim (requestId : Id) (status : PayoutRequestStatus) (f : PayoutRequest → PayoutRequest)
      (task : Claim now t requestId status f) (inserted : t.inserted = [])
      (rows : ∀ r', r' ∈ db'.payoutRequests.rows ↔ ∃ r ∈ db.payoutRequests.rows,
        (if r.id = requestId ∧ r.status = status then f r else r) = r')

/-- An update of a request touches that request alone. -/
theorem updateRequest_rows {requestId : Id} {status : PayoutRequestStatus}
    {f : PayoutRequest → PayoutRequest} {hf : ∀ r, (f r).id = r.id} {error : HttpError}
    (h : updateRequest db requestId status f hf error = .ok db') (r' : PayoutRequest) :
    r' ∈ db'.payoutRequests.rows ↔ ∃ r ∈ db.payoutRequests.rows,
      (if r.id = requestId ∧ r.status = status then f r else r) = r' := by
  obtain ⟨rfl, _⟩ := updateRequest_ok h
  simp only [Table.mem_updateMany, decide_eq_true_eq]

/-- A new request is pending and locks nothing. -/
theorem createPayoutRequest_rows {vendorId : Id} {amount : Cents} {currency : String}
    (h : createPayoutRequest now db vendorId amount currency = .ok db') :
    ∃ row : PayoutRequest, row.vendorId = vendorId ∧ row.status = .pending ∧
      row.paymentIds = [] ∧ (∀ r ∈ db.payoutRequests.rows, r.id ≠ row.id) ∧
      ∀ r, r ∈ db'.payoutRequests.rows ↔ r ∈ db.payoutRequests.rows ∨ r = row := by
  simp only [createPayoutRequest, bind_eq_ok, orThrow_eq_ok, pure_eq_ok] at h
  obtain ⟨requests, hins, rfl⟩ := h
  refine ⟨_, rfl, rfl, rfl, ?_, fun r => Table.mem_of_insert? hins⟩
  intro r hr hid
  exact (Table.insert?_eq_some.mp hins).1 (List.mem_map.mpr ⟨r, hr, hid⟩)

/-- **The step lemma**: what one statement that returns did. -/
theorem PayoutTask.run_effect (h : t.run config now inserts db = .ok (db', next)) :
    RequestEffect now inserts db t db' := by
  cases t with
  | create vendorId amount currency snapshot =>
      simp only [PayoutTask.run, bind_eq_ok, ensure_eq_ok, pure_eq_ok, Prod.mk.injEq] at h
      obtain ⟨_, hcount, db₁, htx, rfl, _⟩ := h
      obtain ⟨row, hv, hp, hl, hfresh, hrows⟩ := createPayoutRequest_rows htx
      exact .create vendorId amount currency row (by rw [hcount]) hrows hv hp hl hfresh
  | deleteRejected vendorId requestId =>
      simp only [PayoutTask.run, Jadwal.deleteRejected, bind_eq_ok, ensure_eq_ok, pure_eq_ok,
        Prod.mk.injEq] at h
      obtain ⟨_, ⟨_, _, rfl⟩, rfl, _⟩ := h
      exact .delete rfl fun r hr => (Table.mem_deleteMany.mp hr).1
  | approveWrite r =>
      simp only [PayoutTask.run, bind_eq_ok, pure_eq_ok, Prod.mk.injEq] at h
      obtain ⟨db₁, htx, rfl, _⟩ := h
      exact .claim _ _ _ (.approve r) rfl (updateRequest_rows htx)
  | completeRevert request adminNote drift =>
      simp only [PayoutTask.run, bind_eq_ok, pure_eq_ok, Prod.mk.injEq] at h
      obtain ⟨db₁, htx, rfl, _⟩ := h
      exact .claim _ _ _ (.autoRevert request adminNote drift _) rfl (updateRequest_rows htx)
  | completeWrite request adminNote =>
      simp only [PayoutTask.run, bind_eq_ok, pure_eq_ok, Prod.mk.injEq] at h
      obtain ⟨db₁, htx, rfl, _⟩ := h
      exact .claim _ _ _ (.complete request adminNote _) rfl (updateRequest_rows htx)
  | revertWrite r =>
      simp only [PayoutTask.run, bind_eq_ok, pure_eq_ok, Prod.mk.injEq] at h
      obtain ⟨db₁, htx, rfl, _⟩ := h
      exact .claim _ _ _ (.revert r) rfl (updateRequest_rows htx)
  | rejectWrite requestId adminNote =>
      simp only [PayoutTask.run, Jadwal.rejectWrite, bind_eq_ok, orThrow_eq_ok, pure_eq_ok,
        Prod.mk.injEq] at h
      obtain ⟨_, ⟨_, _, rfl⟩, rfl, _⟩ := h
      refine .reject requestId adminNote rfl fun r' => ?_
      exact @Table.mem_update _ _ _ _ db.payoutRequests requestId
        (PayoutRequest.reject now adminNote) (fun _ => rfl) r'
  | completeCount request adminNote =>
      simp only [PayoutTask.run, bind_eq_ok, ensure_eq_ok] at h
      obtain ⟨_, _, h⟩ := h
      split at h <;> simp only [pure_eq_ok, Prod.mk.injEq] at h <;> exact .none (by rw [← h.1]) rfl
  | unpaidWrite paymentId =>
      simp only [PayoutTask.run, Jadwal.unpaidWrite, bind_eq_ok, ensure_eq_ok, pure_eq_ok,
        Prod.mk.injEq] at h
      obtain ⟨_, ⟨_, _, rfl⟩, rfl, _⟩ := h
      exact .none rfl rfl
  | paidWrite paymentIds ref =>
      simp only [PayoutTask.run, pure_eq_ok, Prod.mk.injEq] at h
      exact .none (by rw [← h.1]; rfl) rfl
  | _ =>
      simp only [PayoutTask.run, bind_eq_ok, pure_eq_ok, Prod.mk.injEq] at h
      exact .none (by grind) rfl

/-- The actions that run a statement; the others leave the requests alone. -/
theorem PayoutWorld.step_cases (h : w.step config a = some w') :
    (w'.db.payoutRequests = w.db.payoutRequests ∧ w'.inserts = w.inserts ∧
      ∀ t ∈ w'.inflight, t ∈ w.inflight ∨ ∃ call, PayoutCall.read w.db call = .ok t) ∨
    ∃ t next, w.task? a = some t ∧ t ∈ w.inflight ∧
      t.run config w.now w.inserts w.db = .ok (w'.db, next) ∧
      w'.inserts = t.inserted ++ w.inserts ∧
      ∀ t' ∈ w'.inflight, t' ∈ w.inflight ∨ next = some t' := by
  cases a with
  | tick elapsed =>
      simp only [PayoutWorld.step, Option.some.injEq] at h
      subst h
      exact Or.inl ⟨rfl, rfl, fun t ht => Or.inl ht⟩
  | platform db =>
      simp only [PayoutWorld.step, Option.some.injEq] at h
      subst h
      exact Or.inl ⟨rfl, rfl, fun t ht => Or.inl ht⟩
  | begin call =>
      simp only [PayoutWorld.step] at h
      split at h <;> simp only [Option.some.injEq] at h <;> subst h
      · exact Or.inl ⟨rfl, rfl, fun t ht => Or.inl ht⟩
      · rename_i t₀ hread
        refine Or.inl ⟨rfl, rfl, fun t ht => ?_⟩
        rcases List.mem_append.mp ht with ht | ht
        · exact Or.inl ht
        · exact Or.inr ⟨call, by rw [List.mem_singleton.mp ht, hread]⟩
  | abort index =>
      simp only [PayoutWorld.step, Option.some.injEq] at h
      subst h
      exact Or.inl ⟨rfl, rfl, fun t ht => Or.inl (List.mem_of_mem_eraseIdx ht)⟩
  | run index =>
      simp only [PayoutWorld.step] at h
      split at h
      · cases h
      · rename_i t ht
        split at h <;> simp only [Option.some.injEq] at h <;> subst h
        · exact Or.inl ⟨rfl, rfl, fun t ht => Or.inl (List.mem_of_mem_eraseIdx ht)⟩
        · rename_i db next hrun
          refine Or.inr ⟨t, next, ht, List.mem_of_getElem? ht, hrun, rfl, fun t' ht' => ?_⟩
          rcases List.mem_append.mp ht' with ht' | ht'
          · exact Or.inl (List.mem_of_mem_eraseIdx ht')
          · exact Or.inr (by simpa using ht')

/-! ## One request in flight, and the status graph -/

/-- The edges of the status graph, the revert edges included. -/
def statusEdge : PayoutRequestStatus → PayoutRequestStatus → Bool
  | .pending, .approved => true
  | .pending, .rejected => true
  | .approved, .rejected => true
  | .approved, .completed => true
  | source, target => target ∈ revertTargets source

/-- A vendor has at most one request in flight. -/
def OneInFlight (db : Db) : Prop :=
  ∀ r ∈ db.payoutRequests.rows, ∀ r' ∈ db.payoutRequests.rows,
    r.vendorId = r'.vendorId → r.inFlight → r'.inFlight → r.id = r'.id

instance (db : Db) : Decidable (OneInFlight db) :=
  inferInstanceAs (Decidable (∀ r ∈ db.payoutRequests.rows,
    ∀ r' ∈ db.payoutRequests.rows, r.vendorId = r'.vendorId → r.inFlight → r'.inFlight →
      r.id = r'.id))

/-- A request that keeps its row follows an edge of the graph. -/
def FollowsGraph (db db' : Db) : Prop :=
  ∀ r ∈ db.payoutRequests.rows, ∀ r' ∈ db'.payoutRequests.rows, r'.id = r.id →
    r'.status = r.status ∨ statusEdge r.status r'.status

instance (db db' : Db) : Decidable (FollowsGraph db db') :=
  inferInstanceAs (Decidable (∀ r ∈ db.payoutRequests.rows,
    ∀ r' ∈ db'.payoutRequests.rows, r'.id = r.id →
      r'.status = r.status ∨ statusEdge r.status r'.status))

/-- The vendor has no request in flight. -/
def Db.idle (db : Db) (vendorId : Id) : Prop :=
  ∀ r ∈ db.payoutRequests.rows, r.vendorId = vendorId → ¬ r.inFlight

/-- The insert of a payout request: the vendor, and the snapshot. -/
def PayoutTask.creates? : PayoutTask → Option (Id × Nat)
  | .create vendorId _ _ snapshot => some (vendorId, snapshot)
  | _ => none

def PayoutTask.rejects? : PayoutTask → Option Id
  | .rejectWrite requestId _ => some requestId
  | _ => none

def PayoutTask.reverts? : PayoutTask → Option RevertRead
  | .revertWrite r => some r
  | _ => none

/-- An insert that would still commit finds its vendor idle. -/
structure InsertsIdle (w : PayoutWorld) : Prop where
  past : ∀ t ∈ w.inflight, ∀ v n, t.creates? = some (v, n) → n ≤ w.inserts.count v
  idle : ∀ t ∈ w.inflight, ∀ v, t.creates? = some (v, w.inserts.count v) → w.db.idle v

/-- The condition on a step.  A rejection does not find a completed request.
A revert finds no other request of the vendor in flight, and, unless its
request is in flight already, none about to be inserted. -/
structure PayoutWorld.Unraced (w : PayoutWorld) (a : PayoutAction) : Prop where
  rejects : ∀ id ∈ (w.task? a).bind PayoutTask.rejects?,
    ∀ r ∈ w.db.payoutRequests.find? id, r.status ≠ .completed
  alone : ∀ v ∈ (w.task? a).bind PayoutTask.reverts?,
    ∀ r ∈ w.db.payoutRequests.find? v.request.id, r.status = v.request.status →
      ∀ r' ∈ w.db.payoutRequests.rows, r'.vendorId = r.vendorId → r'.inFlight → r'.id = r.id
  uncreated : ∀ v ∈ (w.task? a).bind PayoutTask.reverts?,
    ∀ r ∈ w.db.payoutRequests.find? v.request.id, r.status = v.request.status →
      ¬ r.inFlight → ∀ t ∈ w.inflight,
        t.creates? ≠ some (r.vendorId, w.inserts.count r.vendorId)

instance (w : PayoutWorld) (a : PayoutAction) : Decidable (w.Unraced a) :=
  decidable_of_iff
    ((∀ id ∈ (w.task? a).bind PayoutTask.rejects?,
      ∀ r ∈ w.db.payoutRequests.find? id, r.status ≠ .completed) ∧
      (∀ v ∈ (w.task? a).bind PayoutTask.reverts?,
        ∀ r ∈ w.db.payoutRequests.find? v.request.id, r.status = v.request.status →
          ∀ r' ∈ w.db.payoutRequests.rows, r'.vendorId = r.vendorId → r'.inFlight →
            r'.id = r.id) ∧
      ∀ v ∈ (w.task? a).bind PayoutTask.reverts?,
        ∀ r ∈ w.db.payoutRequests.find? v.request.id, r.status = v.request.status →
          ¬ r.inFlight → ∀ t ∈ w.inflight,
            t.creates? ≠ some (r.vendorId, w.inserts.count r.vendorId))
    ⟨fun h => ⟨h.1, h.2.1, h.2.2⟩, fun h => ⟨h.rejects, h.alone, h.uncreated⟩⟩

/-- A claimed request keeps its vendor and follows an edge. -/
theorem Claim.row {requestId : Id} {status : PayoutRequestStatus}
    {f : PayoutRequest → PayoutRequest} (h : Claim now t requestId status f)
    (r : PayoutRequest) :
    (f r).id = r.id ∧ (f r).vendorId = r.vendorId ∧ statusEdge status (f r).status := by
  cases h with
  | revert v =>
      refine ⟨rfl, rfl, ?_⟩
      obtain ⟨request, target, hvalid⟩ := v
      change statusEdge request.status target = true
      revert hvalid
      cases request.status <;> cases target <;> decide
  | _ => exact ⟨rfl, rfl, rfl⟩

/-- Only a revert puts a request in flight. -/
theorem Claim.inFlight {requestId : Id} {f : PayoutRequest → PayoutRequest}
    {r : PayoutRequest} (h : Claim now t requestId r.status f) (hf : (f r).inFlight) :
    r.inFlight ∨ ∃ v, t = .revertWrite v ∧ v.request.id = requestId ∧
      v.request.status = r.status := by
  generalize hst : r.status = status at h
  cases h with
  | approve => simp [PayoutRequest.inFlight, hst]
  | complete => simp [PayoutRequest.inFlight, PayoutRequest.complete] at hf
  | autoRevert => simp [PayoutRequest.inFlight, hst]
  | revert v => exact Or.inr ⟨v, rfl, rfl, rfl⟩

/-- **Where a row comes from**: the insert, or a row before that it is, or
that was rejected or claimed. -/
theorem RequestEffect.origin (h : RequestEffect now inserts db t db') :
    (∃ (row : PayoutRequest) (amount : Cents) (currency : String),
      t = .create row.vendorId amount currency (inserts.count row.vendorId) ∧
      row.status = .pending ∧ row.paymentIds = [] ∧
      (∀ r ∈ db.payoutRequests.rows, r.id ≠ row.id) ∧
      ∀ r', r' ∈ db'.payoutRequests.rows ↔ r' ∈ db.payoutRequests.rows ∨ r' = row) ∨
    (t.inserted = [] ∧ ∀ r' ∈ db'.payoutRequests.rows, ∃ r ∈ db.payoutRequests.rows,
      r'.id = r.id ∧ r'.vendorId = r.vendorId ∧
      (r' = r ∨ (∃ note, t = .rejectWrite r.id note ∧ r' = r.reject now note) ∨
        ∃ f, Claim now t r.id r.status f ∧ r' = f r)) := by
  cases h with
  | none same inserted =>
      refine Or.inr ⟨inserted, fun r' hr' => ?_⟩
      rw [same] at hr'
      exact ⟨r', hr', rfl, rfl, Or.inl rfl⟩
  | create vendorId amount currency row task rows vendor pending unlocked fresh =>
      subst vendor
      exact Or.inl ⟨row, amount, currency, task, pending, unlocked, fresh, rows⟩
  | delete inserted rows =>
      exact Or.inr ⟨inserted, fun r' hr' => ⟨r', rows r' hr', rfl, rfl, Or.inl rfl⟩⟩
  | reject requestId adminNote task rows =>
      refine Or.inr ⟨by rw [task]; rfl, fun r' hr' => ?_⟩
      obtain ⟨r, hr, hif⟩ := (rows r').mp hr'
      split at hif <;> subst hif
      · rename_i hid
        exact ⟨r, hr, rfl, rfl, Or.inr (Or.inl ⟨adminNote, hid ▸ task, rfl⟩)⟩
      · exact ⟨r, hr, rfl, rfl, Or.inl rfl⟩
  | claim requestId status f task inserted rows =>
      refine Or.inr ⟨inserted, fun r' hr' => ?_⟩
      obtain ⟨r, hr, hif⟩ := (rows r').mp hr'
      split at hif <;> subst hif
      · rename_i hclaim
        obtain ⟨rfl, rfl⟩ := hclaim
        obtain ⟨hid, hv, _⟩ := task.row r
        exact ⟨r, hr, hid, hv, Or.inr (Or.inr ⟨f, task, rfl⟩)⟩
      · exact ⟨r, hr, rfl, rfl, Or.inl rfl⟩

/-- A row in flight was in flight, or a revert that is alone put it there. -/
theorem inFlight_origin {r r' : PayoutRequest} (hr : r ∈ db.payoutRequests.rows)
    (h : r' = r ∨ (∃ note, t = .rejectWrite r.id note ∧ r' = r.reject now note) ∨
      ∃ f, Claim now t r.id r.status f ∧ r' = f r) (hf : r'.inFlight) :
    r.inFlight ∨ ∃ v, t = .revertWrite v ∧
      db.payoutRequests.find? v.request.id = some r ∧ r.status = v.request.status := by
  rcases h with rfl | ⟨note, _, rfl⟩ | ⟨f, hclaim, rfl⟩
  · exact Or.inl hf
  · simp [PayoutRequest.inFlight, PayoutRequest.reject] at hf
  · refine (hclaim.inFlight hf).imp id ?_
    rintro ⟨v, rfl, hid, hst⟩
    exact ⟨v, rfl, Table.find?_eq_some.mpr ⟨hr, hid.symm⟩, hst.symm⟩

/-- **One step leaves a vendor one request in flight.** -/
theorem OneInFlight.step (h : OneInFlight w.db) (hidle : InsertsIdle w)
    (hok : w.Unraced a) (ht : w.task? a = some t) (hmem : t ∈ w.inflight)
    (he : RequestEffect w.now w.inserts w.db t db') : OneInFlight db' := by
  rcases he.origin with ⟨row, amount, currency, rfl, _, _, _, hrows⟩ | ⟨_, horigin⟩
  · have hempty := hidle.idle _ hmem row.vendorId rfl
    intro r hr r' hr' hv hf hf'
    rcases (hrows r).mp hr with hr | rfl <;> rcases (hrows r').mp hr' with hr' | rfl
    · exact h r hr r' hr' hv hf hf'
    · exact absurd hf (hempty r hr hv)
    · exact absurd hf' (hempty r' hr' hv.symm)
    · rfl
  · -- a revert finds its own row only
    have halone : ∀ v r₁ r₂, t = .revertWrite v →
        w.db.payoutRequests.find? v.request.id = some r₁ → r₁.status = v.request.status →
        r₂ ∈ w.db.payoutRequests.rows → r₂.vendorId = r₁.vendorId → r₂.inFlight →
        r₂.id = r₁.id := by
      rintro v r₁ r₂ rfl hr₁ hst hr₂ hv hf
      exact hok.alone v (by rw [ht]; rfl) r₁ hr₁ hst r₂ hr₂ hv hf
    intro r' hr' s' hs' hv hf hf'
    obtain ⟨r, hr, hid, hvr, hor⟩ := horigin r' hr'
    obtain ⟨s, hs, hid', hvs, hos⟩ := horigin s' hs'
    have hsame : r.vendorId = s.vendorId := hvr.symm.trans (hv.trans hvs)
    rw [hid, hid']
    rcases inFlight_origin hr hor hf with hfr | ⟨v, hv, hfind, hst⟩
    · rcases inFlight_origin hs hos hf' with hfs | ⟨v, hv, hfind, hst⟩
      · exact h r hr s hs hsame hfr hfs
      · exact halone v s r hv hfind hst hr hsame hfr
    · rcases inFlight_origin hs hos hf' with hfs | ⟨v', hv', hfind', _⟩
      · exact (halone v r s hv hfind hst hs hsame.symm hfs).symm
      · rw [hv] at hv'
        cases hv'
        rw [Option.some.inj (hfind.symm.trans hfind')]

/-- One step takes every request along an edge, or leaves it. -/
theorem FollowsGraph.step (hok : w.Unraced a) (ht : w.task? a = some t)
    (he : RequestEffect w.now w.inserts w.db t db') : FollowsGraph w.db db' := by
  intro r hr r' hr' hid
  rcases he.origin with ⟨row, _, _, _, _, _, hfresh, hrows⟩ | ⟨_, horigin⟩
  · rcases (hrows r').mp hr' with hr' | rfl
    · rw [Table.key_inj hr' hr hid]
      exact Or.inl rfl
    · exact absurd hid.symm (hfresh r hr)
  · obtain ⟨r₀, hr₀, hid₀, _, hor⟩ := horigin r' hr'
    obtain rfl : r₀ = r := Table.key_inj hr₀ hr (hid₀.symm.trans hid)
    rcases hor with rfl | ⟨note, rfl, rfl⟩ | ⟨f, hclaim, rfl⟩
    · exact Or.inl rfl
    · have hne := hok.rejects r₀.id (by rw [ht]; rfl) r₀ (Table.find?_key hr₀)
      rw [PayoutRequest.reject]
      cases hst : r₀.status with
      | pending => exact Or.inr rfl
      | approved => exact Or.inr rfl
      | rejected => exact Or.inl rfl
      | completed => exact absurd hst hne
    · exact Or.inr (hclaim.row r₀).2.2

/-- A call fresh from its read is not at its insertion. -/
theorem PayoutCall.read_creates {call : PayoutCall} (h : call.read db = .ok t) :
    t.creates? = none := by
  cases call with
  | processPayoutRequest requestId action adminNote =>
      simp only [PayoutCall.read, processRead, bind_eq_ok, orThrow_eq_ok, ensure_eq_ok] at h
      obtain ⟨_, _, _, _, h⟩ := h
      split at h <;> simp only [pure_eq_ok] at h <;> subst h <;> rfl
  | _ =>
      simp only [PayoutCall.read, bind_eq_ok, pure_eq_ok] at h
      obtain ⟨_, _, rfl⟩ := h
      rfl

/-- An insert is prepared by a check that found the vendor idle. -/
theorem PayoutTask.run_creates {v : Id} {n : Nat} {t' : PayoutTask}
    (h : t.run config now inserts db = .ok (db', some t')) (hc : t'.creates? = some (v, n)) :
    t.inserted = [] ∧ db' = db ∧ n = inserts.count v ∧ db.idle v := by
  cases t with
  | duplicateCheck vendorId amount currency =>
      simp only [PayoutTask.run, Jadwal.duplicateCheck, bind_eq_ok, ensure_eq_ok, pure_eq_ok,
        Prod.mk.injEq, Option.some.injEq] at h
      obtain ⟨_, hnone, rfl, rfl⟩ := h
      simp only [PayoutTask.creates?, Option.some.injEq, Prod.mk.injEq] at hc
      obtain ⟨rfl, rfl⟩ := hc
      refine ⟨rfl, rfl, rfl, fun r hr hv hf => ?_⟩
      have := Table.first?_eq_none.mp hnone r hr
      simp [hv, hf] at this
  | completeCount request adminNote =>
      simp only [PayoutTask.run, bind_eq_ok, ensure_eq_ok] at h
      obtain ⟨_, _, h⟩ := h
      split at h <;> simp only [pure_eq_ok, Prod.mk.injEq, Option.some.injEq] at h <;>
        obtain ⟨_, rfl⟩ := h <;> cases hc
  | create | deleteRejected | approveWrite | completeRevert | completeWrite | rejectWrite
    | revertWrite | paidWrite | unpaidWrite =>
      simp only [PayoutTask.run, bind_eq_ok, pure_eq_ok, Prod.mk.injEq, reduceCtorEq,
        and_false, exists_false] at h
  | _ =>
      simp only [PayoutTask.run, bind_eq_ok, pure_eq_ok, Prod.mk.injEq,
        Option.some.injEq] at h
      grind [PayoutTask.creates?]

/-- A step that runs no statement leaves the requests and the inserts alone,
and adds no insert to the tasks. -/
theorem InsertsIdle.of_quiet (h : InsertsIdle w)
    (hreq : w'.db.payoutRequests = w.db.payoutRequests) (hins : w'.inserts = w.inserts)
    (htasks : ∀ t ∈ w'.inflight, t ∈ w.inflight ∨ t.creates? = none) : InsertsIdle w' where
  past t ht v n hc := by
    rcases htasks t ht with ht | hnone
    · rw [hins]
      exact h.past t ht v n hc
    · rw [hnone] at hc
      cases hc
  idle t ht v hc := by
    rcases htasks t ht with ht | hnone
    · rw [hins] at hc
      unfold Db.idle
      rw [hreq]
      exact h.idle t ht v hc
    · rw [hnone] at hc
      cases hc

/-- A vendor for which an insert is prepared stays idle. -/
theorem idle_step (hidle : InsertsIdle w) (hok : w.Unraced a) (ht : w.task? a = some t)
    (he : RequestEffect w.now w.inserts w.db t db') {t' : PayoutTask} (ht' : t' ∈ w.inflight)
    {v : Id} (hc : t'.creates? = some (v, (t.inserted ++ w.inserts).count v)) :
    db'.idle v := by
  have hpast := hidle.past t' ht' v _ hc
  rcases he.origin with ⟨row, amount, currency, rfl, _, _, _, hrows⟩ | ⟨hinserted, horigin⟩
  · -- an insert for the vendor itself fails the one in preparation
    have hne : v ≠ row.vendorId := by
      rintro rfl
      rw [PayoutTask.inserted, List.singleton_append, List.count_cons_self] at hpast
      omega
    rw [PayoutTask.inserted, List.singleton_append, List.count_cons_of_ne hne.symm] at hc
    intro r hr hv
    rcases (hrows r).mp hr with hr | rfl
    · exact hidle.idle t' ht' v hc r hr hv
    · exact absurd hv.symm hne
  · rw [hinserted, List.nil_append] at hc
    intro r' hr' hv hf
    obtain ⟨r, hr, _, hvr, hor⟩ := horigin r' hr'
    have hnot := hidle.idle t' ht' v hc r hr (hvr.symm.trans hv)
    rcases inFlight_origin hr hor hf with hfr | ⟨x, rfl, hfind, hst⟩
    · exact hnot hfr
    · refine hok.uncreated x (by rw [ht]; rfl) r hfind hst hnot t' ht' ?_
      rw [hvr.symm.trans hv]
      exact hc

/-- One step keeps the insertions to vendors without a request in flight. -/
theorem InsertsIdle.step (h : InsertsIdle w) (hok : w.Unraced a)
    (hstep : w.step config a = some w') : InsertsIdle w' := by
  rcases PayoutWorld.step_cases hstep with ⟨hreq, hins, htasks⟩ |
    ⟨t, next, ht, hmem, hrun, hins, htasks⟩
  · refine h.of_quiet hreq hins fun t ht => (htasks t ht).imp id ?_
    rintro ⟨call, hcall⟩
    exact PayoutCall.read_creates hcall
  · have he := PayoutTask.run_effect hrun
    constructor
    · intro t' ht' v n hc
      rw [hins, List.count_append]
      rcases htasks t' ht' with ht' | rfl
      · exact Nat.le_add_left_of_le (h.past t' ht' v n hc)
      · obtain ⟨_, _, rfl, _⟩ := PayoutTask.run_creates hrun hc
        exact Nat.le_add_left _ _
    · intro t' ht' v hc
      rcases htasks t' ht' with ht' | rfl
      · rw [hins] at hc
        exact idle_step h hok ht he ht' hc
      · obtain ⟨_, hdb, _, hv⟩ := PayoutTask.run_creates hrun hc
        rw [hdb]
        exact hv

/-- The invariant of the runs. -/
structure PayoutWorld.Orderly (w : PayoutWorld) : Prop where
  one : OneInFlight w.db
  inserts : InsertsIdle w

/-- What one step keeps. -/
theorem PayoutWorld.Orderly.step (h : w.Orderly) (hok : w.Unraced a)
    (hstep : w.step config a = some w') : w'.Orderly ∧ FollowsGraph w.db w'.db := by
  rcases PayoutWorld.step_cases hstep with ⟨hreq, _, _⟩ | ⟨t, next, ht, hmem, hrun, _, _⟩
  · refine ⟨⟨?_, h.inserts.step hok hstep⟩, ?_⟩
    · unfold OneInFlight
      rw [hreq]
      exact h.one
    · intro r hr r' hr' hid
      rw [hreq] at hr'
      rw [Table.key_inj hr' hr hid]
      exact Or.inl rfl
  · have he := PayoutTask.run_effect hrun
    exact ⟨⟨h.one.step h.inserts hok ht hmem he, h.inserts.step hok hstep⟩,
      .step hok ht he⟩

/-- No operation in flight, and at most one request of a vendor. -/
structure PayoutWorld.Fresh (w : PayoutWorld) : Prop where
  one : OneInFlight w.db
  inflight : w.inflight = []

/-- **A vendor has one payout request in flight and statuses follow the
graph**, in every run of unraced rejections and reverts; in particular no
completed request is rejected. -/
theorem payouts_in_order {w₀ : PayoutWorld} (h : w₀.Fresh)
    (run : Run (PayoutWorld.step config) PayoutWorld.Unraced w₀ w) :
    OneInFlight w.db ∧ ∀ a w', w.Unraced a → w.step config a = some w' →
      FollowsGraph w.db w'.db := by
  have hinv : w.Orderly := by
    refine run.invariant PayoutWorld.Orderly (fun _ _ _ hw hok hstep => (hw.step hok hstep).1)
      ⟨h.one, ?_⟩
    constructor <;> simp [h.inflight]
  exact ⟨hinv.one, fun a w' hok hstep => (hinv.step hok hstep).2⟩

/-- The shop without requests. -/
def shopWorld : PayoutWorld where
  now := day
  db := { shop 0 with payoutRequests := .empty }

/-- The vendor asks for its balance: six statements after the first. -/
def requestRun : List PayoutAction :=
  [.begin (.requestPayout 3), .run 0, .run 0, .run 0, .run 0, .run 0, .run 0]

/-- An admin approves and completes the request. -/
def settleRun (requestId : Id) : List PayoutAction :=
  [.begin (.processPayoutRequest requestId .approved none), .run 0, .run 0,
    .begin (.processPayoutRequest requestId .completed none), .run 0, .run 0, .run 0]

theorem shopWorld_fresh : shopWorld.Fresh := by
  constructor <;> simp [OneInFlight, shopWorld]

theorem payouts_in_order_completed :
    ∃ w, Run (PayoutWorld.step {}) PayoutWorld.Unraced shopWorld w ∧
      w.db.payoutRequests.rows.map PayoutRequest.status = [.completed] ∧
      OneInFlight w.db := by
  obtain ⟨w, run, h⟩ := @Run.of_execAll_test _ _ (PayoutWorld.step {}) PayoutWorld.Unraced _
    (requestRun ++ settleRun 100) shopWorld
    (fun w => w.db.payoutRequests.rows.map PayoutRequest.status = [.completed])
    (by decide +kernel)
  exact ⟨w, run, of_decide_eq_true h, (payouts_in_order shopWorld_fresh run).1⟩

/-- A revert and a new request both pass their checks; and a rejection
prepared for a pending request lands on the completed one. -/
theorem payouts_out_of_order : shopWorld.Fresh ∧
    (∃ w, Run (PayoutWorld.step {}) (fun _ _ => True) shopWorld w ∧ ¬ OneInFlight w.db) ∧
    ∃ w a w', Run (PayoutWorld.step {}) (fun _ _ => True) shopWorld w ∧
      w.step {} a = some w' ∧ ¬ FollowsGraph w.db w'.db := by
  refine ⟨shopWorld_fresh, ?_, ?_⟩
  · obtain ⟨w, run, h⟩ := @Run.of_execAll_test _ _ (PayoutWorld.step {}) (fun _ _ => True) _
      (requestRun ++ [.begin (.processPayoutRequest 100 .rejected none), .run 0,
        .begin (.revertPayoutRequest 100 .pending), .run 0, .run 0,
        .begin (.requestPayout 3), .run 1, .run 1, .run 1, .run 1, .run 1, .run 1, .run 0])
      shopWorld (fun w => ¬ OneInFlight w.db) (by decide +kernel)
    exact ⟨w, run, of_decide_eq_true h⟩
  · obtain ⟨w, run, h⟩ := @Run.of_execAll_test _ _ (PayoutWorld.step {}) (fun _ _ => True) _
      (requestRun ++ [.begin (.processPayoutRequest 100 .rejected none),
        .begin (.processPayoutRequest 100 .approved none), .run 1, .run 1,
        .begin (.processPayoutRequest 100 .completed none), .run 1, .run 1, .run 1])
      shopWorld (fun w => (w.step {} (.run 0)).any (fun w' => ¬ FollowsGraph w.db w'.db))
      (by decide +kernel)
    obtain ⟨w', hstep, hnot⟩ := (Option.any_eq_true _ _).mp h
    exact ⟨w, _, w', run, hstep, of_decide_eq_true hnot⟩

/-! ## Locks -/

/-- No payment is in two requests that lock their payments. -/
def LockedOnce (db : Db) : Prop :=
  ∀ r ∈ db.payoutRequests.rows, ∀ r' ∈ db.payoutRequests.rows, r.locks → r'.locks →
    (∃ p ∈ r.paymentIds, p ∈ r'.paymentIds) → r.id = r'.id

instance (db : Db) : Decidable (LockedOnce db) :=
  inferInstanceAs (Decidable (∀ r ∈ db.payoutRequests.rows,
    ∀ r' ∈ db.payoutRequests.rows, r.locks → r'.locks →
      (∃ p ∈ r.paymentIds, p ∈ r'.paymentIds) → r.id = r'.id))

/-- The request an approval reads the payments for. -/
def PayoutTask.approving? : PayoutTask → Option PayoutRequest
  | .approveRead request _ => some request
  | _ => none

/-- The approval an operation commits next. -/
def PayoutTask.approves? : PayoutTask → Option ApproveRead
  | .approveWrite r => some r
  | _ => none

/-- The payment is open: captured, not paid out, and of an ended booking that
leaves the vendor a share. -/
def Db.openPayment (config : PayoutConfig) (now : Instant) (db : Db)
    (vendorId paymentId : Id) : Prop :=
  ∃ q ∈ db.payments.rows, q.id = paymentId ∧ q.payable ∧
    ∃ b ∈ db.bookingOf paymentId, b.vendorId = vendorId ∧ b.endDatetime < config.cutoff now ∧
      0 < b.vendorShare

instance (config : PayoutConfig) (now : Instant) (db : Db) (vendorId paymentId : Id) :
    Decidable (db.openPayment config now vendorId paymentId) :=
  inferInstanceAs (Decidable (∃ q ∈ db.payments.rows, q.id = paymentId ∧ q.payable ∧
    ∃ b ∈ db.bookingOf paymentId, b.vendorId = vendorId ∧ b.endDatetime < config.cutoff now ∧
      0 < b.vendorShare))

/-- The condition on a step.  When an approval reads, what the other requests
have locked is no longer open; and no two approvals that have read a payment
in common are under way when one of them commits. -/
structure PayoutWorld.SettledFirst (config : PayoutConfig) (w : PayoutWorld)
    (a : PayoutAction) : Prop where
  settled : ∀ request ∈ (w.task? a).bind PayoutTask.approving?,
    ∀ r ∈ w.db.payoutRequests.rows, r.id ≠ request.id → r.locks →
      ∀ p ∈ r.paymentIds, ¬ w.db.openPayment config w.now request.vendorId p
  apart : ∀ r ∈ (w.task? a).bind PayoutTask.approves?,
    ∀ t ∈ w.inflight, ∀ v ∈ t.approves?, v.request.id ≠ r.request.id →
      ∀ p ∈ r.eligible, ∀ q ∈ v.eligible, p.1.id ≠ q.1.id

instance (w : PayoutWorld) (a : PayoutAction) : Decidable (w.SettledFirst config a) :=
  decidable_of_iff
    ((∀ request ∈ (w.task? a).bind PayoutTask.approving?,
      ∀ r ∈ w.db.payoutRequests.rows, r.id ≠ request.id → r.locks →
        ∀ p ∈ r.paymentIds, ¬ w.db.openPayment config w.now request.vendorId p) ∧
      ∀ r ∈ (w.task? a).bind PayoutTask.approves?,
        ∀ t ∈ w.inflight, ∀ v ∈ t.approves?, v.request.id ≠ r.request.id →
          ∀ p ∈ r.eligible, ∀ q ∈ v.eligible, p.1.id ≠ q.1.id)
    ⟨fun h => ⟨h.1, h.2⟩, fun h => ⟨h.settled, h.apart⟩⟩

/-- What an approval has read with a share for the vendor. -/
def ApproveRead.offers (r : ApproveRead) (paymentId : Id) : Prop :=
  ∃ p ∈ r.eligible, p.1.id = paymentId ∧ 0 < p.2.vendorShare

/-- What an approval locks it was offered. -/
theorem ApproveRead.offers_of_locking {r : ApproveRead} {p : Id} (h : p ∈ r.locking.2) :
    r.offers p := by
  obtain ⟨taken, rest, hsplit, hlock, _, _⟩ :=
    lockPayments_prefix r.request.amount r.eligible 0 []
  rw [ApproveRead.locking, hlock, List.nil_append] at h
  obtain ⟨x, hx, rfl⟩ := List.mem_map.mp h
  have hmem : x ∈ withShare r.eligible := hsplit ▸ List.mem_append_left rest hx
  obtain ⟨heligible, hshare⟩ := List.mem_filter.mp hmem
  refine ⟨x, heligible, rfl, not_le.mp fun hle => ?_⟩
  exact absurd (Booking.vendorShare_nonpos.mp hle) (not_le.mpr (of_decide_eq_true hshare))

/-- An approval reads open payments only. -/
theorem openPayment_of_eligible {vendorId : Id} {p : Payment × Booking}
    (h : p ∈ eligiblePayments config now db vendorId) (hshare : 0 < p.2.vendorShare) :
    db.openPayment config now vendorId p.1.id := by
  obtain ⟨hbooking, hmem, hpay⟩ := bookingOf_eligible h
  rw [eligiblePayments, List.mem_insertionSort, List.mem_filterMap] at h
  obtain ⟨q, _, hmap⟩ := h
  obtain ⟨b, hb, rfl⟩ := Option.map_eq_some_iff.mp hmap
  obtain ⟨hvendor, hended⟩ := of_decide_eq_true (Option.filter_eq_some_iff.mp hb).2
  exact ⟨q, hmem, rfl, hpay, b, hbooking, hvendor, hended, hshare⟩

/-- Nor is it at its approval. -/
theorem PayoutCall.read_approves {call : PayoutCall} (h : call.read db = .ok t) :
    t.approves? = none := by
  cases call with
  | processPayoutRequest requestId action adminNote =>
      simp only [PayoutCall.read, processRead, bind_eq_ok, orThrow_eq_ok, ensure_eq_ok] at h
      obtain ⟨_, _, _, _, h⟩ := h
      split at h <;> simp only [pure_eq_ok] at h <;> subst h <;> rfl
  | _ =>
      simp only [PayoutCall.read, bind_eq_ok, pure_eq_ok] at h
      obtain ⟨_, _, rfl⟩ := h
      rfl

/-- A commit is prepared by the read of its request. -/
theorem PayoutTask.run_approves {t' : PayoutTask} {v : ApproveRead}
    (h : t.run config now inserts db = .ok (db', some t')) (hv : t'.approves? = some v) :
    t.approving? = some v.request ∧ db' = db ∧
      v.eligible = eligiblePayments config now db v.request.vendorId := by
  cases t with
  | approveRead request adminNote =>
      simp only [PayoutTask.run, bind_eq_ok, pure_eq_ok, Prod.mk.injEq, Option.some.injEq] at h
      obtain ⟨r, hread, rfl, rfl⟩ := h
      obtain rfl := Option.some.inj hv
      obtain ⟨_, hrequest, heligible⟩ := approveRead_ok hread
      exact ⟨by rw [hrequest]; rfl, rfl, by rw [hrequest, heligible]⟩
  | completeCount request adminNote =>
      simp only [PayoutTask.run, bind_eq_ok, ensure_eq_ok] at h
      obtain ⟨_, _, h⟩ := h
      split at h <;> simp only [pure_eq_ok, Prod.mk.injEq, Option.some.injEq] at h <;>
        obtain ⟨_, rfl⟩ := h <;> cases hv
  | create | deleteRejected | approveWrite | completeRevert | completeWrite | rejectWrite
    | revertWrite | paidWrite | unpaidWrite =>
      simp only [PayoutTask.run, bind_eq_ok, pure_eq_ok, Prod.mk.injEq, reduceCtorEq,
        and_false, exists_false] at h
  | _ =>
      simp only [PayoutTask.run, bind_eq_ok, pure_eq_ok, Prod.mk.injEq,
        Option.some.injEq] at h
      grind [PayoutTask.approves?]

/-- A lock is an approval's, or one that was there before. -/
theorem locks_origin {r r' : PayoutRequest}
    (h : r' = r ∨ (∃ note, t = .rejectWrite r.id note ∧ r' = r.reject now note) ∨
      ∃ f, Claim now t r.id r.status f ∧ r' = f r) (hl : r'.locks) :
    (r.locks ∧ ∀ p ∈ r'.paymentIds, p ∈ r.paymentIds) ∨
      ∃ v, t = .approveWrite v ∧ v.request.id = r.id ∧ r'.paymentIds = v.locking.2 := by
  rcases h with rfl | ⟨note, _, rfl⟩ | ⟨f, hclaim, rfl⟩
  · exact Or.inl ⟨hl, fun p hp => hp⟩
  · simp [PayoutRequest.locks, PayoutRequest.reject] at hl
  · generalize hst : r.status = status at hclaim
    generalize hid : r.id = requestId at hclaim
    cases hclaim with
    | approve v => exact Or.inr ⟨v, rfl, rfl, rfl⟩
    | complete request adminNote note =>
        exact Or.inl ⟨by simp [PayoutRequest.locks, hst], fun p hp => hp⟩
    | autoRevert => simp [PayoutRequest.locks, PayoutRequest.autoRevert] at hl
    | revert v =>
        -- only a completed request goes back to `APPROVED`
        have htargets : ∀ source target, target ∈ revertTargets source →
            (target = .approved ∨ target = .completed) →
            target = .approved ∧ source = .completed := by
          intro source target
          cases source <;> cases target <;> decide
        obtain ⟨htarget, hsource⟩ := htargets _ _ v.valid (of_decide_eq_true hl)
        refine Or.inl ⟨by simp [PayoutRequest.locks, hst, hsource], fun p hp => ?_⟩
        simpa [PayoutRequest.revert, htarget] using hp

/-- What an approval under way may lock, no other request locks. -/
def OffersFree (w : PayoutWorld) (requests : Table PayoutRequest) : Prop :=
  ∀ t ∈ w.inflight, ∀ v ∈ t.approves?, ∀ r ∈ requests.rows, r.id ≠ v.request.id → r.locks →
    ∀ p ∈ r.paymentIds, ¬ v.offers p

/-- **One step locks no payment twice.** -/
theorem LockedOnce.step (h : LockedOnce w.db) (hfree : OffersFree w w.db.payoutRequests)
    (hmem : t ∈ w.inflight) (he : RequestEffect w.now w.inserts w.db t db') :
    LockedOnce db' := by
  rcases he.origin with ⟨row, _, _, _, _, hempty, _, hrows⟩ | ⟨_, horigin⟩
  · intro r hr r' hr' hl hl' hcommon
    obtain ⟨p, hp, hp'⟩ := hcommon
    rcases (hrows r).mp hr with hr | rfl
    · rcases (hrows r').mp hr' with hr' | rfl
      · exact h r hr r' hr' hl hl' ⟨p, hp, hp'⟩
      · simp [hempty] at hp'
    · simp [hempty] at hp
  · -- what the approval locks is locked by no other request
    have hnew : ∀ v r p, t = .approveWrite v → r ∈ w.db.payoutRequests.rows → r.locks →
        p ∈ r.paymentIds → p ∈ v.locking.2 → r.id = v.request.id := by
      intro v r p hv hr hl hp hpv
      by_contra hne
      exact hfree t hmem v (by rw [hv]; rfl) r hr hne hl p hp
        (ApproveRead.offers_of_locking hpv)
    intro r' hr' s' hs' hl hl' hcommon
    obtain ⟨p, hp, hp'⟩ := hcommon
    obtain ⟨r, hr, hid, _, hor⟩ := horigin r' hr'
    obtain ⟨s, hs, hid', _, hos⟩ := horigin s' hs'
    rw [hid, hid']
    rcases locks_origin hor hl with ⟨hlr, hsub⟩ | ⟨v, hv, hvid, hids⟩
    · rcases locks_origin hos hl' with ⟨hls, hsub'⟩ | ⟨v, hv, hvid, hids⟩
      · exact h r hr s hs hlr hls ⟨p, hsub p hp, hsub' p hp'⟩
      · exact (hnew v r p hv hr hlr (hsub p hp) (hids ▸ hp')).trans hvid
    · rcases locks_origin hos hl' with ⟨hls, hsub'⟩ | ⟨v', hv', hvid', _⟩
      · exact ((hnew v s p hv hs hls (hsub' p hp') (hids ▸ hp)).trans hvid).symm
      · rw [hv] at hv'
        cases hv'
        rw [← hvid, ← hvid']

/-- A statement locks nothing that another approval under way may lock. -/
theorem OffersFree.step (h : OffersFree w w.db.payoutRequests)
    (hok : w.SettledFirst config a) (ht : w.task? a = some t)
    (he : RequestEffect w.now w.inserts w.db t db') : OffersFree w db'.payoutRequests := by
  intro t' ht' v hv r' hr' hne hl p hp hoffers
  rcases he.origin with ⟨row, _, _, _, _, hempty, _, hrows⟩ | ⟨_, horigin⟩
  · rcases (hrows r').mp hr' with hr' | rfl
    · exact h t' ht' v hv r' hr' hne hl p hp hoffers
    · simp [hempty] at hp
  · obtain ⟨r, hr, hid, _, hor⟩ := horigin r' hr'
    rw [hid] at hne
    rcases locks_origin hor hl with ⟨hlr, hsub⟩ | ⟨x, rfl, hxid, hids⟩
    · exact h t' ht' v hv r hr hne hlr p (hsub p hp) hoffers
    · rw [hids] at hp
      obtain ⟨q, hq, hqp, _⟩ := ApproveRead.offers_of_locking hp
      obtain ⟨q', hq', hqp', _⟩ := hoffers
      refine hok.apart x (by rw [ht]; rfl) t' ht' v hv ?_ q hq q' hq' (hqp.trans hqp'.symm)
      exact fun hsame => hne (hxid.symm.trans hsame.symm)

/-- The invariant of the runs. -/
structure PayoutWorld.Exclusive (w : PayoutWorld) : Prop where
  once : LockedOnce w.db
  free : OffersFree w w.db.payoutRequests

/-- What one step keeps of the locks. -/
theorem PayoutWorld.Exclusive.step (h : w.Exclusive) (hok : w.SettledFirst config a)
    (hstep : w.step config a = some w') : w'.Exclusive := by
  rcases PayoutWorld.step_cases hstep with ⟨hreq, _, htasks⟩ |
    ⟨t, next, ht, hmem, hrun, _, htasks⟩
  · constructor
    · unfold LockedOnce
      rw [hreq]
      exact h.once
    · intro t ht v hv
      rw [hreq]
      rcases htasks t ht with ht | ⟨call, hcall⟩
      · exact h.free t ht v hv
      · rw [PayoutCall.read_approves hcall] at hv
        cases hv
  · have he := PayoutTask.run_effect hrun
    refine ⟨h.once.step h.free hmem he, fun t' ht' v hv => ?_⟩
    rcases htasks t' ht' with ht' | rfl
    · exact h.free.step hok ht he t' ht' v hv
    · -- an approval that has just read found what others lock closed
      obtain ⟨hreading, hdb, heligible⟩ := PayoutTask.run_approves hrun hv
      rw [hdb]
      intro r hr hne hl p hp hoffers
      obtain ⟨q, hq, rfl, hshare⟩ := hoffers
      rw [heligible] at hq
      exact hok.settled v.request (by rw [ht]; exact hreading) r hr hne hl _ hp
        (openPayment_of_eligible hq hshare)

/-- **No payment is locked by two payout requests**, in every run in which
what a request has locked is no longer open when the next approval reads, and
approvals with a payment in common do not overlap. -/
theorem payments_locked_once {w₀ : PayoutWorld} (h : LockedOnce w₀.db)
    (hidle : w₀.inflight = [])
    (run : Run (PayoutWorld.step config) (PayoutWorld.SettledFirst config) w₀ w) :
    LockedOnce w.db := by
  have hfirst : w₀.Exclusive := by
    refine ⟨h, ?_⟩
    simp [OffersFree, hidle]
  exact (run.invariant PayoutWorld.Exclusive (fun _ _ _ hw hok hstep => hw.step hok hstep)
    hfirst).once

/-- The shop with a third booking, which has not ended yet. -/
def shopThree : PayoutWorld where
  now := day
  db := { shop 0 with
    bookings := ⟨[shopBooking 1 11, shopBooking 2 12,
      { shopBooking 3 13 with endDatetime := day }], by decide⟩
    payments := ⟨[shopPayment 11, shopPayment 12, shopPayment 13], by decide⟩
    payoutRequests := .empty }

/-- The vendor is paid out for two bookings, an admin marks them as paid, and
the vendor's next request is approved after the third booking. -/
def twoPayoutsRun : List PayoutAction :=
  requestRun ++ settleRun 100 ++
    [.begin (.markPayoutsPaid [11, 12] "wire 1"), .run 0, .run 0, .run 0, .tick day.toNat] ++
    requestRun ++ [.begin (.processPayoutRequest 101 .approved none), .run 0, .run 0]

theorem payments_locked_once_completed : LockedOnce shopThree.db ∧
    ∃ w, Run (PayoutWorld.step {}) (PayoutWorld.SettledFirst {}) shopThree w ∧
      w.db.payoutRequests.rows.map PayoutRequest.paymentIds = [[11, 12], [13]] ∧
      LockedOnce w.db := by
  have hinitial : LockedOnce shopThree.db := by simp [LockedOnce, shopThree]
  obtain ⟨w, run, h⟩ := @Run.of_execAll_test _ _ (PayoutWorld.step {})
    (PayoutWorld.SettledFirst {}) _ twoPayoutsRun shopThree
    (fun w => w.db.payoutRequests.rows.map PayoutRequest.paymentIds = [[11, 12], [13]])
    (by decide +kernel)
  exact ⟨hinitial, w, run, of_decide_eq_true h, payments_locked_once hinitial rfl run⟩

/-- The shop after one more booking. -/
def shopLater : Db :=
  { shop 0 with
    bookings := ⟨[shopBooking 1 11, shopBooking 2 12, shopBooking 3 13], by decide⟩
    payments := ⟨[shopPayment 11, shopPayment 12, shopPayment 13], by decide⟩ }

/-- A completed request leaves its payments unpaid, so that the next
approval locks the oldest of them again. -/
theorem payment_locked_twice : LockedOnce shopWorld.db ∧
    ∃ w, Run (PayoutWorld.step {}) (fun _ _ => True) shopWorld w ∧ ¬ LockedOnce w.db := by
  refine ⟨by simp [LockedOnce, shopWorld], ?_⟩
  obtain ⟨w, run, h⟩ := @Run.of_execAll_test _ _ (PayoutWorld.step {}) (fun _ _ => True) _
    (requestRun ++ settleRun 100 ++ [.platform shopLater] ++ requestRun ++
      [.begin (.processPayoutRequest 101 .approved none), .run 0, .run 0])
    shopWorld (fun w => ¬ LockedOnce w.db) (by decide +kernel)
  exact ⟨w, run, of_decide_eq_true h⟩

end Jadwal
