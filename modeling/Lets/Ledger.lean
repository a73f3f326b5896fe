import Lets.LeaseRows

set_option autoImplicit false

/-!
# The ledger of one warden along a run

The accounts of a warden against the history of its calls: what it has transferred out is what the
vouchers it has signed amount to, and what it has consumed is what the receipts it has issued cost.
-/

namespace Lets

open Library

variable {d : ℕ} {Hash : Type}

def Response.voucher? : Response d → Option (TransferVoucher d)
  | .voucher v => some v
  | _ => none

def Response.receipt? : Response d → Option (Receipt d)
  | .receipt r => some r
  | _ => none

theorem Response.voucher?_eq_some {out : Response d} {voucher : TransferVoucher d}
    (h : out.voucher? = some voucher) : out = .voucher voucher := by
  cases out <;> simp_all [Response.voucher?]

theorem Response.receipt?_eq_some {out : Response d} {receipt : Receipt d}
    (h : out.receipt? = some receipt) : out = .receipt receipt := by
  cases out <;> simp_all [Response.receipt?]

section Answers

variable {α : Type} [DecidableEq α] (f : Response d → Option α)

def answers (calls : List (Call d)) : Finset α :=
  (calls.filterMap fun call => call.reply.toOption.bind f).toFinset

variable {f} {calls : List (Call d)} {call : Call d} {out : Response d}

theorem mem_answers_iff {a : α} :
    a ∈ answers f calls ↔ ∃ call ∈ calls, ∃ out, call.reply = .ok out ∧ f out = some a := by
  unfold answers
  rw [List.mem_toFinset, List.mem_filterMap]
  refine exists_congr fun call => and_congr_right fun _ => ?_
  cases call.reply with
  | ok out => simp [Except.toOption]
  | error e => simp [Except.toOption]

theorem answers_concat_error {e : LetsError} (hreply : call.reply = .error e) :
    answers f (calls ++ [call]) = answers f calls := by
  unfold answers
  rw [List.filterMap_append, List.filterMap_cons, hreply]
  simp [Except.toOption]

theorem answers_concat_of_old (hreply : call.reply = .ok out)
    (hold : ∀ a, f out = some a → a ∈ answers f calls) :
    answers f (calls ++ [call]) = answers f calls := by
  ext a
  rw [mem_answers_iff]
  constructor
  · rintro ⟨c, hc, o, hc_reply, hfo⟩
    rcases List.mem_append.mp hc with hc | hc
    · exact mem_answers_iff.mpr ⟨c, hc, o, hc_reply, hfo⟩
    · rw [List.mem_singleton.mp hc, hreply] at hc_reply
      rw [← Except.ok.inj hc_reply] at hfo
      exact hold a hfo
  · intro ha
    obtain ⟨c, hc, o, hc_reply, hfo⟩ := mem_answers_iff.mp ha
    exact ⟨c, List.mem_append_left _ hc, o, hc_reply, hfo⟩

theorem answers_concat_of_new {a : α} (hreply : call.reply = .ok out) (hfo : f out = some a) :
    answers f (calls ++ [call]) = insert a (answers f calls) := by
  unfold answers
  rw [List.filterMap_append, List.toFinset_append, List.filterMap_cons, hreply]
  simp [Except.toOption, hfo, Finset.union_comm]

end Answers

def signed (calls : List (Call d)) : Finset (TransferVoucher d) :=
  answers Response.voucher? calls

def issued (calls : List (Call d)) : Finset (Receipt d) :=
  answers Response.receipt? calls

def Remembers (calls : List (Call d)) (db : Database d Hash) : Prop :=
  ∀ requestId row, db.idempotency.lookup requestId = some row →
    ∃ call ∈ calls, call.reply = .ok row.response

/-- The outgoing side of a warden against the vouchers it has signed. -/
structure Outbound (svc : WardenService d Hash) (calls : List (Call d)) (db : Database d Hash) :
    Prop where
  source : ∀ voucher ∈ signed calls, voucher.sourceWarden = svc.wardenId
  sequence : ∀ voucher ∈ signed calls, voucher.sequence < db.nextSequence voucher.targetWarden
  unique : ∀ voucher ∈ signed calls, ∀ voucher' ∈ signed calls,
    voucher.targetWarden = voucher'.targetWarden → voucher.sequence = voucher'.sequence →
      voucher = voucher'
  transferredOut : ∀ i, db.transferredOut i = ∑ voucher ∈ signed calls, voucher.amount i

/-- What a warden has consumed against the receipts it has issued. -/
structure Charged (svc : WardenService d Hash) (calls : List (Call d)) (db : Database d Hash) :
    Prop where
  issuer : ∀ receipt ∈ issued calls, receipt.wardenId = svc.wardenId
  stored : ∀ receipt ∈ issued calls, db.receipts.lookup receipt.receiptId = some receipt
  from_issued : ∀ receiptId receipt, db.receipts.lookup receiptId = some receipt →
    receipt ∈ issued calls
  consumed : ∀ i, db.consumed i = ∑ receipt ∈ issued calls, receipt.cost i

namespace WardenService

variable {svc : WardenService d Hash} {calls : List (Call d)} {call : Call d}
  {db db' : Database d Hash} {out : Response d}

theorem remembers_step (h : Remembers calls db) (hreply : call.reply = .ok out)
    (heffect : Effect svc call.clock db call.operation db' out) :
    Remembers (calls ++ [call]) db' := by
  intro requestId row hrow
  rcases heffect.idempotency_eq with hsame | ⟨scope, newId, fingerprint, status, _, _, hinsert⟩
  · rw [hsame] at hrow
    obtain ⟨c, hc, hc_reply⟩ := h requestId row hrow
    exact ⟨c, List.mem_append_left _ hc, hc_reply⟩
  · rw [hinsert, Table.lookup_insert_eq] at hrow
    split_ifs at hrow with hid
    · rw [← Option.some.inj hrow]
      exact ⟨call, List.mem_concat_self, hreply⟩
    · obtain ⟨c, hc, hc_reply⟩ := h requestId row hrow
      exact ⟨c, List.mem_append_left _ hc, hc_reply⟩

theorem mem_answers_of_recorded {α : Type} [DecidableEq α] {f : Response d → Option α} {a : α}
    (h : Remembers calls db) (hrecorded : db.Recorded out) (hfo : f out = some a) :
    a ∈ answers f calls := by
  obtain ⟨requestId, row, hrow, hresponse⟩ := hrecorded
  obtain ⟨c, hc, hc_reply⟩ := h requestId row hrow
  exact mem_answers_iff.mpr ⟨c, hc, _, hc_reply, hresponse ▸ hfo⟩

theorem outbound_step (h : Outbound svc calls db) (hrem : Remembers calls db)
    (hreply : call.reply = .ok out)
    (heffect : Effect svc call.clock db call.operation db' out) :
    Outbound svc (calls ++ [call]) db' := by
  rcases heffect.outbound_cases with ⟨⟨hnext, hout⟩, hrecorded⟩ | ⟨voucher, hvoucher, hsigns⟩
  · have hsigned : signed (calls ++ [call]) = signed calls := by
      refine answers_concat_of_old hreply fun voucher hv => ?_
      exact mem_answers_of_recorded hrem (hrecorded voucher (Response.voucher?_eq_some hv)) hv
    refine ⟨?_, ?_, ?_, ?_⟩
    · rw [hsigned]
      exact h.source
    · rw [hsigned]
      intro voucher hv
      rw [hnext]
      exact h.sequence voucher hv
    · rw [hsigned]
      exact h.unique
    · rw [hsigned, hout]
      exact h.transferredOut
  · -- the new voucher has the next sequence of its stream, which no signed one has
    have hsigned : signed (calls ++ [call]) = insert voucher (signed calls) :=
      answers_concat_of_new hreply (by rw [hvoucher]; rfl)
    have hnew : ∀ v ∈ signed calls, v.targetWarden = voucher.targetWarden →
        v.sequence < voucher.sequence := by
      intro v hv htarget
      rw [hsigns.sequence_eq, ← htarget]
      exact h.sequence v hv
    have hnotMem : voucher ∉ signed calls := fun hmem => lt_irrefl _ (hnew voucher hmem rfl)
    refine ⟨?_, ?_, ?_, ?_⟩
    · rw [hsigned]
      intro v hv
      rcases Finset.mem_insert.mp hv with rfl | hv
      · exact hsigns.source_eq
      · exact h.source v hv
    · rw [hsigned]
      intro v hv
      rw [hsigns.next_eq]
      rcases Finset.mem_insert.mp hv with rfl | hv
      · rw [if_pos rfl, hsigns.sequence_eq]
        exact Nat.lt_succ_self _
      · have hlt := h.sequence v hv
        split_ifs <;> omega
    · rw [hsigned]
      intro v hv v' hv' htarget hsequence
      rw [Finset.mem_insert] at hv hv'
      rcases hv with rfl | hv <;> rcases hv' with rfl | hv'
      · rfl
      · have hlt := hnew v' hv' htarget.symm
        omega
      · have hlt := hnew v hv htarget
        omega
      · exact h.unique v hv v' hv' htarget hsequence
    · intro i
      rw [hsigned, Finset.sum_insert hnotMem, hsigns.out_eq, h.transferredOut, add_comm]

theorem charged_step (h : Charged svc calls db) (hrem : Remembers calls db)
    (hreply : call.reply = .ok out)
    (heffect : Effect svc call.clock db call.operation db' out) :
    Charged svc (calls ++ [call]) db' := by
  rcases heffect.charges_cases with ⟨hcharges, hrecorded⟩ | ⟨newReceiptId, req, _, ⟨done⟩⟩
  · have hissued : issued (calls ++ [call]) = issued calls := by
      refine answers_concat_of_old hreply fun receipt hr => ?_
      exact mem_answers_of_recorded hrem (hrecorded receipt (Response.receipt?_eq_some hr)) hr
    have hreceipts : db'.receipts = db.receipts := congrArg Prod.fst hcharges
    have hconsumed : db'.consumed = db.consumed := congrArg Prod.snd hcharges
    refine ⟨?_, ?_, ?_, ?_⟩
    · rw [hissued]
      exact h.issuer
    · rw [hissued, hreceipts]
      exact h.stored
    · rw [hissued, hreceipts]
      exact h.from_issued
    · rw [hissued, hconsumed]
      exact h.consumed
  · have hissued : issued (calls ++ [call]) = insert done.receipt (issued calls) :=
      answers_concat_of_new (hreply.trans (congrArg Except.ok done.out_eq)) rfl
    have hid : done.receipt.receiptId = newReceiptId := by rw [done.receipt_eq]; rfl
    have hnotMem : done.receipt ∉ issued calls := by
      intro hmem
      have hlookup := h.stored _ hmem
      rw [hid] at hlookup
      exact done.receipt_new (Table.mem_of_lookup hlookup)
    have hreceipts := done.receipts_eq
    have hconsumed : db'.consumed = done.consumed := congrArg Database.consumed done.result
    refine ⟨?_, ?_, ?_, ?_⟩
    · rw [hissued]
      intro receipt hr
      rcases Finset.mem_insert.mp hr with rfl | hr
      · rw [done.receipt_eq]
        rfl
      · exact h.issuer receipt hr
    · rw [hissued, hreceipts]
      intro receipt hr
      rcases Finset.mem_insert.mp hr with rfl | hr
      · rw [hid, Table.lookup_insert_eq, if_pos rfl]
      · exact Table.lookup_insert_of_new done.receipt_new (h.stored receipt hr)
    · rw [hissued, hreceipts]
      intro receiptId receipt hlookup
      rw [Table.lookup_insert_eq] at hlookup
      split_ifs at hlookup with heq
      · rw [Option.some.inj hlookup]
        exact Finset.mem_insert_self _ _
      · exact Finset.mem_insert_of_mem (h.from_issued receiptId receipt hlookup)
    · intro i
      have hcost : done.receipt.cost = done.rule.cost := by rw [done.receipt_eq]; rfl
      rw [hissued, Finset.sum_insert hnotMem, hconsumed, done.consumed_eq, h.consumed, hcost,
        add_comm]

end WardenService

structure Accounts (svc : WardenService d Hash) (envelope : Envelope d) (calls : List (Call d))
    (db : Database d Hash) : Prop where
  fixed : db.fixed = (svc.wardenId, svc.keyId, envelope)
  conserved : db.Conserved
  residualSum : db.ResidualSum
  remembers : Remembers calls db
  outbound : Outbound svc calls db
  charged : Charged svc calls db

theorem Database.genesis_conserved (wardenId keyId : String) (envelope : Envelope d) :
    (Database.genesis wardenId keyId envelope : Database d Hash).Conserved where
  identity _ := rfl
  le_max i := envelope.initialLocalShare.le_max i

theorem accounts_genesis (svc : WardenService d Hash) (envelope : Envelope d) :
    Accounts svc envelope [] (.genesis svc.wardenId svc.keyId envelope) where
  fixed := rfl
  conserved := Database.genesis_conserved _ _ _
  residualSum _ := rfl
  remembers := fun _ _ h => by cases h
  outbound := ⟨(fun _ h => by cases h), (fun _ h => by cases h), (fun _ h => by cases h), fun _ => rfl⟩
  charged := ⟨nofun, nofun, nofun, fun _ => rfl⟩

theorem accounts_of_run {svc : WardenService d Hash} {envelope : Envelope d}
    {db₀ db : Database d Hash} {calls : List (Call d)} (hinit : (svc.system envelope).Init db₀)
    (run : (svc.system envelope).Run db₀ calls db) : Accounts svc envelope calls db := by
  refine WardenService.run_induction (P := Accounts svc envelope) (accounts_genesis svc envelope)
    ?_ ?_ hinit run
  · intro calls db call db' out h hreply _ hconserved heffect
    exact {
      fixed := heffect.fixed_eq.trans h.fixed
      conserved := hconserved
      residualSum := heffect.residualSum h.residualSum
      remembers := WardenService.remembers_step h.remembers hreply heffect
      outbound := WardenService.outbound_step h.outbound h.remembers hreply heffect
      charged := WardenService.charged_step h.charged h.remembers hreply heffect }
  · intro calls db call e h hreply
    have hsigned : signed (calls ++ [call]) = signed calls := answers_concat_error hreply
    have hissued : issued (calls ++ [call]) = issued calls := answers_concat_error hreply
    refine { h with remembers := ?_, outbound := ?_, charged := ?_ }
    · intro requestId row hrow
      obtain ⟨c, hc, hc_reply⟩ := h.remembers requestId row hrow
      exact ⟨c, List.mem_append_left _ hc, hc_reply⟩
    · have houtbound := h.outbound
      constructor <;> rw [hsigned]
      exacts [houtbound.source, houtbound.sequence, houtbound.unique, houtbound.transferredOut]
    · have hcharged := h.charged
      constructor <;> rw [hissued]
      exacts [hcharged.issuer, hcharged.stored, hcharged.from_issued, hcharged.consumed]

theorem fixed_of_reachable {svc : WardenService d Hash} {envelope : Envelope d}
    {db : Database d Hash} (hreach : (svc.system envelope).Reachable db) :
    db.wardenId = svc.wardenId ∧ db.envelope = envelope := by
  obtain ⟨db₀, calls, hinit, run⟩ := hreach
  have hfixed := (accounts_of_run hinit run).fixed
  exact ⟨congrArg Prod.fst hfixed, congrArg (fun x => x.2.2) hfixed⟩

end Lets
